/-
**Tokens of expressions.**

The source of an expression is a row of tokens with ASCII spacing between them.  Besides the usual
signs there are words for the operators (`eq`, `neq`, `gt`, `gte`, `lt`, `lte`, `and`, `or`, `not`,
in any case), which stand only as whole words.

Main definitions:

* `Token`, `TokenKind` — a token and where it starts;
* `TokenKind.describe` — a token as an error message names it;
* `Token.scan` — the first token of a text and the number of characters it takes;
* `Token.ofChars` — all tokens of a text.
-/

import Gamebook.Expr.Basic
import Gamebook.Text.Bytes
import Gamebook.Text.Quoted

set_option relaxedAutoImplicit false
set_option autoImplicit false

namespace Gamebook

/-- The kinds of tokens. -/
inductive TokenKind where
  | number (n : Float)
  | str (s : String)
  /-- A variable, without its sign. -/
  | var (name : String)
  /-- A word that is no operator and no literal. -/
  | ident (word : String)
  | truth (b : Bool)
  | lParen
  | rParen
  | comma
  | semicolon
  | plus
  | minus
  | star
  | slash
  | percent
  | eqEq
  | notEq
  | eqEqEq
  | notEqEq
  | less
  | lessEq
  | greater
  | greaterEq
  | ampAmp
  | pipePipe
  | bang
  | eq
  | plusEq
  | minusEq
  | starEq
  | slashEq
  /-- The end of the source. -/
  | eof
  deriving DecidableEq

namespace TokenKind

/-- The name of a kind. -/
def name : TokenKind → String
  | number _ => "Number"
  | str _ => "Str"
  | var _ => "Var"
  | ident _ => "Ident"
  | truth true => "True"
  | truth false => "False"
  | lParen => "LParen"
  | rParen => "RParen"
  | comma => "Comma"
  | semicolon => "Semicolon"
  | plus => "Plus"
  | minus => "Minus"
  | star => "Star"
  | slash => "Slash"
  | percent => "Percent"
  | eqEq => "EqEq"
  | notEq => "NotEq"
  | eqEqEq => "EqEqEq"
  | notEqEq => "NotEqEq"
  | less => "Less"
  | lessEq => "LessEq"
  | greater => "Greater"
  | greaterEq => "GreaterEq"
  | ampAmp => "AmpAmp"
  | pipePipe => "PipePipe"
  | bang => "Bang"
  | eq => "Eq"
  | plusEq => "PlusEq"
  | minusEq => "MinusEq"
  | starEq => "StarEq"
  | slashEq => "SlashEq"
  | eof => "Eof"

/-- A token as an error message names it: what it stands for, or the name of its sign. -/
def describe : TokenKind → String
  | number n => Number.text n
  | str s => Text.quoted s
  | var name => "$" ++ name
  | ident word => word
  | eof => "end of expression"
  | other => other.name

end TokenKind

/-- A token and the byte offset at which it starts. -/
structure Token where
  kind : TokenKind
  offset : Nat
  deriving DecidableEq

namespace Token

/-! ### Character classes -/

/-- The characters that may stand between tokens. -/
def isSpacing (c : Char) : Bool :=
  c == ' ' || c == '\t' || c == '\n' || c == '\x0c' || c == '\r'

/-- The characters of words and names: ASCII letters, digits and the underscore. -/
def isWordChar (c : Char) : Bool := c.isAlphanum || c == '_'

/-! ### Strings -/

/-- What a backslash and the character after it stand for. -/
def unescape (c : Char) : Char :=
  if c = 'n' then '\n' else if c = 't' then '\t' else c

/-- Reads a string up to the closing quote: its characters, and how many were read with the
quote; `none` if no quote closes it. -/
def readString (quote : Char) : List Char → Option (List Char × Nat)
  | [] => none
  | ['\\'] => none
  | '\\' :: c :: rest =>
      (readString quote rest).map fun (s, count) => (unescape c :: s, count + 2)
  | c :: rest =>
      if c = quote then some ([], 1)
      else (readString quote rest).map fun (s, count) => (c :: s, count + 1)

/-! ### Numbers and words -/

/-- The exponent that `text` starts with: an `e`, a sign or none, and digits. -/
def exponentLexeme : List Char → List Char
  | mark :: sign :: rest =>
      if mark != 'e' && mark != 'E' then []
      else if sign.isDigit then mark :: sign :: rest.takeWhile Char.isDigit
      else if sign != '+' && sign != '-' then []
      else
        let digits := rest.takeWhile Char.isDigit
        if digits.isEmpty then [] else mark :: sign :: digits
  | _ => []

/-- The number that `text` starts with: digits, a point with digits, an exponent, each of them
optional. -/
def numberLexeme (text : List Char) : List Char :=
  let whole := text.takeWhile Char.isDigit
  let rest := text.dropWhile Char.isDigit
  -- a point counts even if no digit follows it
  let places := match rest with
    | '.' :: digits => '.' :: digits.takeWhile Char.isDigit
    | _ => []
  whole ++ places ++ exponentLexeme (rest.drop places.length)

/-- What a whole word stands for. -/
def ofWord (word : String) : TokenKind :=
  match word.toLower with
  | "eq" => .eqEq
  | "neq" => .notEq
  | "gt" => .greater
  | "gte" => .greaterEq
  | "lt" => .less
  | "lte" => .lessEq
  | "and" => .ampAmp
  | "or" => .pipePipe
  | "not" => .bang
  | _ =>
      match word with
      | "true" => .truth true
      | "false" => .truth false
      | "NaN" => .number Number.nan
      | "Infinity" => .number Number.infinity
      | _ => .ident word

/-! ### Signs -/

/-- The sign that `text` starts with, the longest one, and its length. -/
def sign? : List Char → Option (TokenKind × Nat)
  | '=' :: '=' :: '=' :: _ => some (.eqEqEq, 3)
  | '!' :: '=' :: '=' :: _ => some (.notEqEq, 3)
  | '=' :: '=' :: _ => some (.eqEq, 2)
  | '!' :: '=' :: _ => some (.notEq, 2)
  | '<' :: '=' :: _ => some (.lessEq, 2)
  | '>' :: '=' :: _ => some (.greaterEq, 2)
  | '&' :: '&' :: _ => some (.ampAmp, 2)
  | '|' :: '|' :: _ => some (.pipePipe, 2)
  | '+' :: '=' :: _ => some (.plusEq, 2)
  | '-' :: '=' :: _ => some (.minusEq, 2)
  | '*' :: '=' :: _ => some (.starEq, 2)
  | '/' :: '=' :: _ => some (.slashEq, 2)
  | '=' :: _ => some (.eq, 1)
  | '!' :: _ => some (.bang, 1)
  | '<' :: _ => some (.less, 1)
  | '>' :: _ => some (.greater, 1)
  | '+' :: _ => some (.plus, 1)
  | '-' :: _ => some (.minus, 1)
  | '*' :: _ => some (.star, 1)
  | '/' :: _ => some (.slash, 1)
  | '%' :: _ => some (.percent, 1)
  | '(' :: _ => some (.lParen, 1)
  | ')' :: _ => some (.rParen, 1)
  | ',' :: _ => some (.comma, 1)
  | ';' :: _ => some (.semicolon, 1)
  | _ => none

/-! ### Tokens -/

/-- Whether `text` starts with a number. -/
def startsNumber : List Char → Bool
  | '.' :: c :: _ => c.isDigit
  | c :: _ => c.isDigit
  | [] => false

/-- The token that the text `c :: rest` at byte `offset` starts with, and the number of characters
it takes. -/
def scan (offset : Nat) (c : Char) (rest : List Char) : Except ExprError (TokenKind × Nat) :=
  if c = '"' ∨ c = '\'' then
    match readString c rest with
    | some (s, count) => .ok (.str (String.ofList s), count + 1)
    | none => .error (.unterminatedString offset)
  else if startsNumber (c :: rest) then
    let lexeme := numberLexeme (c :: rest)
    match Number.read? lexeme with
    | some n => .ok (.number n, lexeme.length)
    | none => .error (.invalidNumber (String.ofList lexeme))
  else if c = '$' then
    let name := rest.takeWhile isWordChar
    if name.isEmpty then .error (.unexpectedChar '$' offset)
    else .ok (.var (String.ofList name), name.length + 1)
  else if isWordChar c then
    let word := c :: rest.takeWhile isWordChar
    .ok (ofWord (String.ofList word), word.length)
  else
    match sign? (c :: rest) with
    | some found => .ok found
    | none => .error (.unexpectedChar c offset)

/-- The tokens of `text`, which starts at byte `offset`; the last one is the end. -/
def ofCharsAt (offset : Nat) (text : List Char) : Except ExprError (List Token) :=
  match text with
  | [] => .ok [⟨.eof, offset⟩]
  | c :: rest =>
      if isSpacing c then ofCharsAt (offset + 1) rest
      else
        match scan offset c rest with
        | .error e => .error e
        | .ok (kind, count) =>
            let lexeme := c :: rest.take (count - 1)
            match ofCharsAt (offset + Text.size lexeme) (rest.drop (count - 1)) with
            | .error e => .error e
            | .ok tokens => .ok (⟨kind, offset⟩ :: tokens)
termination_by text.length
decreasing_by
  all_goals simp only [List.length_cons, List.length_drop]
  all_goals omega

/-- The tokens of a text; the last one is the end. -/
def ofChars (text : List Char) : Except ExprError (List Token) := ofCharsAt 0 text

end Token

end Gamebook
