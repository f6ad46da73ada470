/-
**Tokens read byte by byte.**

The scanner of expressions walks over the bytes of a source and cuts the lexemes out of its text by
their byte offsets.  A byte is looked at as the character of the same code, so that the classes of
characters serve for bytes too.  A cut inside a character cannot be made: the scanner would stop
there.

Main definitions:

* `Text.codes` — the bytes of a text as characters;
* `Text.from?` — what stands in a text from a byte offset on;
* `Token.scanBytes` — the first token at a byte offset and the number of bytes it takes;
* `Token.ofBytes` — all tokens of a source.
-/

import Gamebook.Expr.Token

set_option relaxedAutoImplicit false
set_option autoImplicit false

namespace Gamebook

namespace Text

/-- The bytes of `text` in UTF-8, each as the character of the same code. -/
def codes (text : List Char) : List Char := (utf8 text).map fun b => Char.ofNat b.toNat

/-- What stands in `text` from byte `start` on; `none` if that falls inside a character or behind
the end. -/
def from? (start : Nat) (text : List Char) : Option (List Char) :=
  (splitAt? start text).map Prod.snd

end Text

namespace Token

/-- The token that starts in `source` at byte `start`, where the bytes are `c :: rest`, and the
number of bytes it takes; `none` if a lexeme cannot be cut out. -/
def scanBytes (source : List Char) (start : Nat) (c : Char) (rest : List Char) :
    Option (Except ExprError (TokenKind × Nat)) :=
  if c = '"' ∨ c = '\'' then
    -- the inside of a string is read as text, and its length then counted in bytes
    (Text.from? (start + 1) source).map fun behind =>
      match readString c behind with
      | some (s, count) => .ok (.str (String.ofList s), Text.size (behind.take count) + 1)
      | none => .error (.unterminatedString start)
  else if startsNumber (c :: rest) then
    let count := (numberLexeme (c :: rest)).length
    (Text.slice? start (start + count) source).map fun lexeme =>
      match Number.read? lexeme with
      | some n => .ok (.number n, count)
      | none => .error (.invalidNumber (String.ofList lexeme))
  else if c = '$' then
    let count := (rest.takeWhile isWordChar).length
    if count = 0 then some (.error (.unexpectedChar '$' start))
    else
      (Text.slice? (start + 1) (start + 1 + count) source).map fun name =>
        .ok (.var (String.ofList name), count + 1)
  else if isWordChar c then
    let count := (rest.takeWhile isWordChar).length + 1
    (Text.slice? start (start + count) source).map fun word =>
      .ok (ofWord (String.ofList word), count)
  else
    match sign? (c :: rest) with
    | some found => some (.ok found)
    | none =>
        (Text.from? start source).map fun behind =>
          .error (.unexpectedChar (behind.headD '\x00') start)

/-- The tokens of `source` from byte `start` on, where its bytes are `bytes`; the last one is the
end.  `none` if a lexeme cannot be cut out. -/
def ofBytesAt (source : List Char) (start : Nat) (bytes : List Char) :
    Option (Except ExprError (List Token)) :=
  match bytes with
  | [] => some (.ok [⟨.eof, start⟩])
  | c :: rest =>
      if isSpacing c then ofBytesAt source (start + 1) rest
      else
        match scanBytes source start c rest with
        | none => none
        | some (.error e) => some (.error e)
        | some (.ok (kind, count)) =>
            (ofBytesAt source (start + count) (rest.drop (count - 1))).map fun
              | .error e => .error e
              | .ok tokens => .ok (⟨kind, start⟩ :: tokens)
termination_by bytes.length
decreasing_by
  all_goals simp only [List.length_cons, List.length_drop]
  all_goals omega

/-- The tokens of a source, read byte by byte; `none` if a lexeme cannot be cut out. -/
def ofBytes (source : List Char) : Option (Except ExprError (List Token)) :=
  ofBytesAt source 0 (Text.codes source)

end Token

end Gamebook
