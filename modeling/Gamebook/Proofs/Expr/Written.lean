/-
**Tokens are read back from what they are written as.**

A literal is written as it is kept between readings, a variable behind its sign, every other token
as its sign.  What is behind a token must not be read with it: a word character behind a word or a
number, an equals sign behind a sign.  A space is neither.

Main definitions:

* `IsName` — the name of a variable, as the source of an expression can tell it;
* `TokenKind.written` — what a token is written as;
* `Token.Scans`, `Token.Lexes` — one token is read, and all tokens of a text.

Main results:

* `Token.readString_literal` — **a string literal is read back**, whatever its characters;
* `Token.Scans.str`, `Token.Scans.var`, `Token.Scans.word`, `Token.Scans.number`,
  `Token.Scans.sign` — each kind of token is read back;
* `Token.lexes_spaced` — **tokens with spaces between them are read back**.
-/

import Gamebook.Expr.Literal
import Gamebook.Expr.Token
import Gamebook.Proofs.Number.RoundTrip

set_option relaxedAutoImplicit false
set_option autoImplicit false

namespace Gamebook

/-- The name of a variable as the source of an expression can tell it: some ASCII word
characters. -/
structure IsName (name : String) : Prop where
  ne_nil : name.toList ≠ []
  all : name.toList.all Token.isWordChar = true

/-- A value as the source of an expression; undefined has none. -/
def Value.source (v : Value) : List Char := (v.literal?.getD "").toList

namespace TokenKind

/-- What a token is written as. -/
def written : TokenKind → List Char
  | number n => (Value.num n).source
  | str s => (Value.str s).source
  | truth b => (Value.bool b).source
  | var name => '$' :: name.toList
  | ident word => word.toList
  | lParen => ['(']
  | rParen => [')']
  | comma => [',']
  | semicolon => [';']
  | plus => ['+']
  | minus => ['-']
  | star => ['*']
  | slash => ['/']
  | percent => ['%']
  | eqEq => ['=', '=']
  | notEq => ['!', '=']
  | eqEqEq => ['=', '=', '=']
  | notEqEq => ['!', '=', '=']
  | less => ['<']
  | lessEq => ['<', '=']
  | greater => ['>']
  | greaterEq => ['>', '=']
  | ampAmp => ['&', '&']
  | pipePipe => ['|', '|']
  | bang => ['!']
  | eq => ['=']
  | plusEq => ['+', '=']
  | minusEq => ['-', '=']
  | starEq => ['*', '=']
  | slashEq => ['/', '=']
  | eof => []

/-- The tokens that are written as signs. -/
def isSign : TokenKind → Bool
  | number _ | str _ | truth _ | var _ | ident _ | eof => false
  | _ => true

/-- A token that is read back from what it is written as. -/
def Writable : TokenKind → Prop
  | number n => Number.isNegative n = false
  | var name => IsName name
  | ident _ | eof => False
  | _ => True

end TokenKind

namespace Token

variable {rest behind lexeme : List Char} {c : Char} {kind : TokenKind} {kinds : List TokenKind}

/-! ### One token, and all tokens -/

/-- The characters `lexeme`, with `rest` behind them, are read as one token. -/
def Scans (lexeme rest : List Char) (kind : TokenKind) : Prop :=
  ∃ c behind, lexeme = c :: behind ∧ isSpacing c = false ∧
    ∀ offset, scan offset c (behind ++ rest) = .ok (kind, lexeme.length)

/-- A text is read as tokens of these kinds. -/
def Lexes (text : List Char) (kinds : List TokenKind) : Prop :=
  ∀ offset, ∃ tokens, ofCharsAt offset text = .ok tokens ∧ tokens.map Token.kind = kinds

theorem Lexes.nil : Lexes [] [.eof] := by
  intro offset
  exact ⟨[⟨.eof, offset⟩], by rw [ofCharsAt], rfl⟩

theorem Lexes.space (h : Lexes rest kinds) : Lexes (' ' :: rest) kinds := by
  intro offset
  obtain ⟨tokens, htokens, hkinds⟩ := h (offset + 1)
  refine ⟨tokens, ?_, hkinds⟩
  rw [ofCharsAt, if_pos (by decide), htokens]

theorem Lexes.token (hw : Scans lexeme rest kind) (h : Lexes rest kinds) :
    Lexes (lexeme ++ rest) (kind :: kinds) := by
  obtain ⟨c, behind, rfl, hspacing, hscan⟩ := hw
  intro offset
  obtain ⟨tokens, htokens, hkinds⟩ := h (offset + Text.size (c :: behind))
  refine ⟨⟨kind, offset⟩ :: tokens, ?_, congrArg (kind :: ·) hkinds⟩
  rw [List.cons_append, ofCharsAt, hspacing, if_neg Bool.false_ne_true, hscan offset]
  simp only [List.length_cons, Nat.add_sub_cancel, List.take_left, List.drop_left, htokens]

/-! ### Strings -/

/-- **A string literal is read back**, whatever its characters. -/
theorem readString_literal (s rest : List Char) :
    readString '"' (s.flatMap Value.literalChar ++ '"' :: rest) =
      some (s, (s.flatMap Value.literalChar).length + 1) := by
  induction s with
  | nil => rw [List.flatMap_nil, List.nil_append, readString] <;> simp
  | cons c s ih =>
      rw [List.flatMap_cons, List.append_assoc, List.length_append, Value.literalChar]
      split
      · rename_i hescaped
        have hback : unescape c = c := by
          rcases hescaped with rfl | rfl <;> decide
        rw [List.cons_append, List.cons_append, List.nil_append, readString, ih, Option.map_some,
          hback]
        simp only [List.length_cons, List.length_nil]
        rw [Nat.add_comm (0 + 1 + 1), Nat.add_right_comm]
      · rename_i hplain
        rw [not_or] at hplain
        split
        · rename_i hbreak
          subst hbreak
          rw [List.cons_append, List.cons_append, List.nil_append, readString, ih, Option.map_some]
          simp only [List.length_cons, List.length_nil]
          rw [Nat.add_comm (0 + 1 + 1), Nat.add_right_comm]
          rfl
        · rw [List.singleton_append, readString, if_neg hplain.1, ih, Option.map_some]
          · simp only [List.length_cons, List.length_nil]
            rw [Nat.add_comm (0 + 1), Nat.add_right_comm]
          · intro h
            exact absurd h hplain.2
          · intro d ds h
            exact absurd h hplain.2

theorem Scans.str (s : String) (rest : List Char) :
    Scans (TokenKind.str s).written rest (.str s) := by
  have hwritten : (TokenKind.str s).written =
      '"' :: (s.toList.flatMap Value.literalChar ++ ['"']) := String.toList_ofList
  refine ⟨'"', s.toList.flatMap Value.literalChar ++ ['"'], hwritten, by decide, fun offset => ?_⟩
  rw [hwritten, scan, if_pos (.inl rfl), List.append_assoc, List.singleton_append,
    readString_literal]
  simp only [String.ofList_toList, List.length_cons, List.length_append, List.length_nil]

/-! ### Names and words -/

theorem ne_of_isWordChar {d : Char} (hc : isWordChar c = true) (hd : isWordChar d = false) :
    c ≠ d := by
  rintro rfl
  rw [hc] at hd
  cases hd

theorem isSpacing_of_isWordChar (hc : isWordChar c = true) : isSpacing c = false := by
  have hne : ∀ d, isWordChar d = false → c ≠ d := fun _ => ne_of_isWordChar hc
  simp [isSpacing, hne ' ' (by decide), hne '\t' (by decide), hne '\n' (by decide),
    hne '\x0c' (by decide), hne '\r' (by decide)]

theorem takeWhile_word (hall : lexeme.all isWordChar = true)
    (hrest : rest.takeWhile isWordChar = []) :
    (lexeme ++ rest).takeWhile isWordChar = lexeme := by
  rw [List.takeWhile_append_of_pos (List.all_eq_true.1 hall), hrest, List.append_nil]

theorem Scans.var {name : String} (hname : IsName name) (hrest : rest.takeWhile isWordChar = []) :
    Scans (TokenKind.var name).written rest (.var name) := by
  refine ⟨'$', name.toList, rfl, by decide, fun offset => ?_⟩
  have hstart : startsNumber ('$' :: (name.toList ++ rest)) = false := rfl
  have hsome : name.toList.isEmpty = false := List.isEmpty_eq_false_iff.2 hname.ne_nil
  rw [scan, if_neg (by decide), hstart, if_neg Bool.false_ne_true, if_pos rfl]
  simp only [takeWhile_word hname.all hrest, hsome, Bool.false_eq_true, if_false,
    String.ofList_toList]
  rfl

/-- A text that does not begin with a digit or a point does not start with a number. -/
theorem startsNumber_eq_false (hd : c.isDigit = false) (hp : c ≠ '.') :
    startsNumber (c :: rest) = false := by
  unfold startsNumber
  split
  · rename_i heq
    cases heq
    exact absurd rfl hp
  · rename_i heq
    cases heq
    exact hd
  · rfl

theorem Scans.word (hword : (c :: behind).all isWordChar = true) (hd : c.isDigit = false)
    (hkind : ofWord (String.ofList (c :: behind)) = kind) (hrest : rest.takeWhile isWordChar = []) :
    Scans (c :: behind) rest kind := by
  have hc : isWordChar c = true := List.all_eq_true.1 hword c List.mem_cons_self
  have hne : ∀ d, isWordChar d = false → c ≠ d := fun _ => ne_of_isWordChar hc
  refine ⟨c, behind, rfl, isSpacing_of_isWordChar hc, fun offset => ?_⟩
  have htake : (behind ++ rest).takeWhile isWordChar = behind := by
    refine takeWhile_word ?_ hrest
    rw [List.all_cons, hc, Bool.true_and] at hword
    exact hword
  rw [scan, if_neg (not_or.2 ⟨hne '"' (by decide), hne '\'' (by decide)⟩),
    startsNumber_eq_false hd (hne '.' (by decide)), if_neg Bool.false_ne_true,
    if_neg (hne '$' (by decide)), if_pos hc, htake]
  simp only [hkind]

theorem Scans.truth (b : Bool) (hrest : rest.takeWhile isWordChar = []) :
    Scans (TokenKind.truth b).written rest (.truth b) := by
  cases b
  · have hwritten : (TokenKind.truth false).written = ['f', 'a', 'l', 's', 'e'] := by decide
    exact hwritten ▸ Scans.word (by decide) (by decide) (by decide +kernel) hrest
  · have hwritten : (TokenKind.truth true).written = ['t', 'r', 'u', 'e'] := by decide
    exact hwritten ▸ Scans.word (by decide) (by decide) (by decide +kernel) hrest

/-! ### Numbers -/

theorem Scans.plain {n : Float} {text : List Char} (h : Number.IsPlain text)
    (hread : Number.read? text = some n) (hrest : EndsNumber rest) :
    Scans text rest (.number n) := by
  obtain ⟨c, behind, rfl, hc, hstart⟩ := startsNumber_plain h rest
  have hword : isWordChar c = true := by simp [isWordChar, Char.isAlphanum, hc]
  have hne : ∀ d, isWordChar d = false → c ≠ d := fun _ => ne_of_isWordChar hword
  refine ⟨c, behind, rfl, isSpacing_of_isWordChar hword, fun offset => ?_⟩
  have hlexeme := numberLexeme_plain h hrest
  rw [List.cons_append] at hlexeme
  rw [scan, if_neg (not_or.2 ⟨hne '"' (by decide), hne '\'' (by decide)⟩), hstart, if_pos rfl,
    hlexeme]
  simp only [hread]

/-- **A number without a sign is read back.** -/
theorem Scans.number {n : Float} (hn : Number.isNegative n = false) (hrest : EndsNumber rest)
    (hword : rest.takeWhile isWordChar = []) :
    Scans (TokenKind.number n).written rest (.number n) := by
  have hwritten : (TokenKind.number n).written = (Number.text n).toList := rfl
  cases hp : Number.parts? n with
  | some p =>
      have hs : p.negative = false := (Number.negative_of_parts? hp).trans hn
      exact hwritten ▸ Scans.plain (Number.plain_text hp hs) (Number.read?_text hp hs) hrest
  | none =>
      rcases Number.eq_of_parts?_none hp with rfl | rfl | rfl
      · have hnan : (TokenKind.number Number.nan).written = ['N', 'a', 'N'] := by decide +kernel
        exact hnan ▸ Scans.word (by decide) (by decide) (by decide +kernel) hword
      · have hinfinity : (TokenKind.number Number.infinity).written =
            ['I', 'n', 'f', 'i', 'n', 'i', 't', 'y'] := by decide +kernel
        exact hinfinity ▸ Scans.word (by decide) (by decide) (by decide +kernel) hword
      · exact absurd hn (by decide +kernel)

/-! ### Signs -/

/-- The characters that begin nothing but signs. -/
def isMark (c : Char) : Bool :=
  !(isWordChar c || isSpacing c || c == '"' || c == '\'' || c == '$' || c == '.')

theorem Scans.mark {count : Nat} (hc : isMark c = true)
    (hsign : sign? (c :: (behind ++ rest)) = some (kind, count))
    (hcount : count = behind.length + 1) : Scans (c :: behind) rest kind := by
  simp only [isMark, Bool.not_eq_true', Bool.or_eq_false_iff, beq_eq_false_iff_ne] at hc
  obtain ⟨⟨⟨⟨⟨hword, hspacing⟩, hquote⟩, hsingle⟩, hdollar⟩, hpoint⟩ := hc
  have hdigit : c.isDigit = false := by
    simp only [isWordChar, Char.isAlphanum, Bool.or_eq_false_iff] at hword
    exact hword.1.2
  refine ⟨c, behind, rfl, hspacing, fun offset => ?_⟩
  rw [scan, if_neg (not_or.2 ⟨hquote, hsingle⟩), startsNumber_eq_false hdigit hpoint,
    if_neg Bool.false_ne_true, if_neg hdollar, hword, if_neg Bool.false_ne_true, hsign, hcount]
  rfl

/-- **A sign is read back** if no equals sign follows. -/
theorem Scans.sign (hk : kind.isSign = true) (hrest : rest.head? ≠ some '=') :
    Scans kind.written rest kind := by
  have hnot : ∀ behind, rest = '=' :: behind → False := by
    rintro behind rfl
    exact hrest rfl
  have hnot' : ∀ behind, rest = '=' :: '=' :: behind → False := fun behind => hnot ('=' :: behind)
  cases kind
  case number | str | var | ident | truth | eof => cases hk
  all_goals refine Scans.mark (by decide) ?_ rfl
  -- that no longer sign begins here is in the context
  all_goals simp [sign?]

/-! ### Tokens with spaces between them -/

/-- Nothing follows, or a space. -/
def Gap (rest : List Char) : Prop := rest = [] ∨ ∃ behind, rest = ' ' :: behind

theorem Gap.takeWhile_eq_nil {p : Char → Bool} (h : Gap rest) (hp : p ' ' = false) :
    rest.takeWhile p = [] := by
  rcases h with rfl | ⟨behind, rfl⟩
  · rfl
  · rw [List.takeWhile_cons, hp]
    rfl

theorem Gap.head?_ne {c : Char} (h : Gap rest) (hc : c ≠ ' ') : rest.head? ≠ some c := by
  rcases h with rfl | ⟨behind, rfl⟩
  · exact fun hnone => by cases hnone
  · exact fun hsome => hc (Option.some.inj hsome).symm

theorem Gap.endsNumber (h : Gap rest) : EndsNumber rest := by
  refine ⟨h.takeWhile_eq_nil (by decide), h.head?_ne (by decide), ?_⟩
  rcases h with rfl | ⟨_ | ⟨c, behind⟩, rfl⟩
  · rfl
  · rfl
  · rfl

theorem Scans.of_gap (hk : kind.Writable) (h : Gap rest) : Scans kind.written rest kind := by
  have hword := h.takeWhile_eq_nil (p := isWordChar) (by decide)
  cases kind
  case number => exact Scans.number hk h.endsNumber hword
  case str => exact Scans.str _ _
  case var => exact Scans.var hk hword
  case truth => exact Scans.truth _ hword
  case ident | eof => exact hk.elim
  all_goals exact Scans.sign rfl (h.head?_ne (by decide))

/-- Tokens written with spaces between them. -/
def spaced (kinds : List TokenKind) : List Char :=
  [' '].intercalate (kinds.map TokenKind.written)

/-- **Tokens with spaces between them are read back.** -/
theorem lexes_spaced (h : ∀ kind ∈ kinds, kind.Writable) :
    Lexes (spaced kinds) (kinds ++ [.eof]) := by
  induction kinds with
  | nil => exact Lexes.nil
  | cons kind kinds ih =>
      have hkind := h kind List.mem_cons_self
      have ih := ih fun k hk => h k (List.mem_cons_of_mem _ hk)
      cases kinds with
      | nil =>
          have hspaced : spaced [kind] = kind.written ++ [] := by simp [spaced]
          exact hspaced ▸ Lexes.token (.of_gap hkind (.inl rfl)) Lexes.nil
      | cons next kinds =>
          have hspaced : spaced (kind :: next :: kinds) =
              kind.written ++ ' ' :: spaced (next :: kinds) := by
            simp [spaced, List.intercalate]
          exact hspaced ▸ Lexes.token (.of_gap hkind (.inr ⟨_, rfl⟩)) ih.space

end Token

end Gamebook
