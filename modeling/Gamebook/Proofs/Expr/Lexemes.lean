/-
**Lexemes on their own.**

What is read as one token of a text is read as the same token if nothing follows it: a string up to
its quote, the longest number, the longest name or word, the longest sign.  The texts of numbers are
all written as numbers are read, so that no number of a text is invalid.

Main definitions:

* `Token.signs` — the signs, a longer one before those that it begins with;
* `Token.IsPoint`, `Token.IsExponent` — what stands in a number behind its whole digits.

Main results:

* `Token.sign?_eq` — the sign of a text is the first one of the signs that stands at its beginning;
* `Token.exists_read?_numberLexeme` — **what is cut out as a number can be read as one**;
* `Token.exists_lexeme` — **a token is read from its lexeme alone**;
* `Token.scan_error` — where no token begins, there is a quote that is not closed or a character
  that is the beginning of nothing.
-/

import Gamebook.Proofs.Expr.Range

set_option relaxedAutoImplicit false
set_option autoImplicit false

namespace Gamebook

namespace Token

variable {text rest s : List Char} {c quote : Char} {count : Nat} {kind : TokenKind}

/-! ### Strings -/

theorem readString_cons (hc : c ≠ '\\') : readString quote (c :: rest) =
    if c = quote then some ([], 1)
    else (readString quote rest).map fun (s, count) => (c :: s, count + 1) := by
  rw [readString]
  · exact fun heq => absurd heq hc
  · exact fun d behind heq => absurd heq hc

/-- A string is read from its characters up to the quote. -/
theorem exists_readString (h : readString quote text = some (s, count)) :
    ∃ inside behind, text = inside ++ quote :: behind ∧ count = inside.length + 1 ∧
      ∀ rest, readString quote (inside ++ quote :: rest) = some (s, count) := by
  induction text using readString.induct quote generalizing s count with
  | case1 => cases h
  | case2 => cases h
  | case3 c rest ih =>
      rw [readString, Option.map_eq_some_iff] at h
      obtain ⟨⟨s, count⟩, hread, heq⟩ := h
      cases heq
      obtain ⟨inside, behind, rfl, rfl, hread⟩ := ih hread
      refine ⟨'\\' :: c :: inside, behind, rfl, rfl, fun rest => ?_⟩
      rw [List.cons_append, List.cons_append, readString, hread, Option.map_some]
  | case4 rest hnot hnot' =>
      have hc : quote ≠ '\\' := by
        rintro rfl
        cases rest with
        | nil => exact hnot rfl rfl
        | cons d behind => exact hnot' d behind rfl rfl
      rw [readString_cons hc, if_pos rfl] at h
      cases h
      refine ⟨[], rest, rfl, rfl, fun rest => ?_⟩
      rw [List.nil_append, readString_cons hc, if_pos rfl]
  | case5 c rest hnot hnot' hquote ih =>
      have hc : c ≠ '\\' := by
        rintro rfl
        cases rest with
        | nil => exact hnot rfl rfl
        | cons d behind => exact hnot' d behind rfl rfl
      rw [readString_cons hc, if_neg hquote, Option.map_eq_some_iff] at h
      obtain ⟨⟨s, count⟩, hread, heq⟩ := h
      cases heq
      obtain ⟨inside, behind, rfl, rfl, hread⟩ := ih hread
      refine ⟨c :: inside, behind, rfl, rfl, fun rest => ?_⟩
      rw [List.cons_append, readString_cons hc, if_neg hquote, hread, Option.map_some]

/-! ### Numbers -/

/-- The point that `text` starts with, and the digits behind it. -/
def pointLexeme : List Char → List Char
  | '.' :: digits => '.' :: digits.takeWhile Char.isDigit
  | _ => []

theorem numberLexeme_eq (text : List Char) : numberLexeme text =
    text.takeWhile Char.isDigit ++ (pointLexeme (text.dropWhile Char.isDigit) ++
      exponentLexeme ((text.dropWhile Char.isDigit).drop
        (pointLexeme (text.dropWhile Char.isDigit)).length)) :=
  List.append_assoc _ _ _

/-- Nothing, or a point with digits behind it. -/
inductive IsPoint : List Char → Prop
  | none : IsPoint []
  | digits {digits : List Char} (h : digits.all Char.isDigit = true) : IsPoint ('.' :: digits)

/-- Nothing, or an `e` with digits behind it, which may have a sign. -/
inductive IsExponent : List Char → Prop
  | none : IsExponent []
  | digits {mark d : Char} {digits : List Char} (hmark : mark = 'e' ∨ mark = 'E')
      (hd : d.isDigit = true) (h : digits.all Char.isDigit = true) :
      IsExponent (mark :: d :: digits)
  | signed {mark sign : Char} {digits : List Char} (hmark : mark = 'e' ∨ mark = 'E')
      (hsign : sign = '+' ∨ sign = '-') (hne : digits ≠ [])
      (h : digits.all Char.isDigit = true) : IsExponent (mark :: sign :: digits)

theorem isPoint_pointLexeme (text : List Char) : IsPoint (pointLexeme text) := by
  unfold pointLexeme
  split
  · exact .digits List.all_takeWhile
  · exact .none

theorem isExponent_exponentLexeme (text : List Char) : IsExponent (exponentLexeme text) := by
  unfold exponentLexeme
  split
  · rename_i mark sign rest
    split
    · exact .none
    · rename_i hmark
      have hmark : mark = 'e' ∨ mark = 'E' := by
        simpa [Decidable.or_iff_not_imp_left] using hmark
      split
      · rename_i hdigit
        exact .digits hmark hdigit List.all_takeWhile
      · split
        · exact .none
        · rename_i hsign
          have hsign : sign = '+' ∨ sign = '-' := by
            simpa [Decidable.or_iff_not_imp_left] using hsign
          dsimp only
          split
          · exact .none
          · rename_i hne
            exact .signed hmark hsign (fun hnil => hne (by rw [hnil]; rfl)) List.all_takeWhile
  · exact .none

/-- The characters of which numbers are made. -/
def isNumberChar (c : Char) : Bool := c.isDigit || c ∈ ['.', 'e', 'E', '+', '-']

theorem isNumberChar_of_isDigit (h : c.isDigit = true) : isNumberChar c = true := by
  rw [isNumberChar, h, Bool.true_or]

theorem IsPoint.all {point : List Char} (h : IsPoint point) : ∀ c ∈ point, isNumberChar c = true := by
  cases h with
  | none => exact fun _ hc => absurd hc List.not_mem_nil
  | digits h =>
      exact List.forall_mem_cons.2
        ⟨by decide, fun c hc => isNumberChar_of_isDigit (List.all_eq_true.1 h c hc)⟩

theorem IsExponent.all {exponent : List Char} (h : IsExponent exponent) :
    ∀ c ∈ exponent, isNumberChar c = true := by
  cases h with
  | none => exact fun _ hc => absurd hc List.not_mem_nil
  | digits hmark hd h =>
      refine List.forall_mem_cons.2 ⟨?_, List.forall_mem_cons.2 ⟨isNumberChar_of_isDigit hd,
        fun c hc => isNumberChar_of_isDigit (List.all_eq_true.1 h c hc)⟩⟩
      rcases hmark with rfl | rfl <;> decide
  | signed hmark hsign hne h =>
      refine List.forall_mem_cons.2 ⟨?_, List.forall_mem_cons.2 ⟨?_,
        fun c hc => isNumberChar_of_isDigit (List.all_eq_true.1 h c hc)⟩⟩
      · rcases hmark with rfl | rfl <;> decide
      · rcases hsign with rfl | rfl <;> decide

theorem numberLexeme_all (text : List Char) : ∀ c ∈ numberLexeme text, isNumberChar c = true := by
  intro c hc
  rw [numberLexeme_eq, List.mem_append, List.mem_append] at hc
  rcases hc with hc | hc | hc
  · exact isNumberChar_of_isDigit (List.mem_takeWhile_imp hc)
  · exact (isPoint_pointLexeme _).all c hc
  · exact (isExponent_exponentLexeme _).all c hc

/-- Digits are read up to what is none. -/
theorem takeWhile_isDigit_append {digits : List Char} (hall : digits.all Char.isDigit = true)
    (hrest : rest.head?.all (!·.isDigit) = true) :
    (digits ++ rest).takeWhile Char.isDigit = digits ∧
      (digits ++ rest).dropWhile Char.isDigit = rest := by
  have hall := List.all_eq_true.1 hall
  rw [List.takeWhile_append_of_pos hall, List.dropWhile_append_of_pos hall]
  cases rest with
  | nil => exact ⟨List.append_nil _, rfl⟩
  | cons c behind =>
      have hc : c.isDigit = false := by simpa using hrest
      rw [List.takeWhile_cons_of_neg (by simp [hc]), List.dropWhile_cons_of_neg (by simp [hc]),
        List.append_nil]
      exact ⟨rfl, rfl⟩

section Shape

variable {whole point exponent digits : List Char}

theorem IsExponent.head? (h : IsExponent exponent) :
    exponent.head?.all (!·.isDigit) = true ∧ exponent.head? ≠ some '.' := by
  cases h with
  | none => exact ⟨rfl, nofun⟩
  | digits hmark hd h => rcases hmark with rfl | rfl <;> exact ⟨rfl, by simp⟩
  | signed hmark hsign hne h => rcases hmark with rfl | rfl <;> exact ⟨rfl, by simp⟩

/-- An exponent is read whole. -/
theorem IsExponent.exponentLexeme_eq (h : IsExponent exponent) :
    exponentLexeme exponent = exponent := by
  cases h with
  | none => rfl
  | digits hmark hd h =>
      have htake := (Number.takeWhile_isDigit h).1
      rcases hmark with rfl | rfl <;> simp [exponentLexeme, hd, htake]
  | signed hmark hsign hne h =>
      have htake := (Number.takeWhile_isDigit h).1
      rcases hmark with rfl | rfl <;> rcases hsign with rfl | rfl <;>
        simp [exponentLexeme, htake, hne]

/-- An exponent can be read. -/
theorem IsExponent.exists_exponent? (h : IsExponent exponent) :
    ∃ n, Number.exponent? exponent = some n := by
  cases h with
  | none => exact ⟨0, rfl⟩
  | @digits mark d digits hmark hd h =>
      have hminus : d ≠ '-' := by
        rintro rfl
        cases hd
      have hplus : d ≠ '+' := by
        rintro rfl
        cases hd
      refine ⟨Number.ofDigits (d :: digits), ?_⟩
      rcases hmark with rfl | rfl <;> simp [Number.exponent?, hminus, hplus, hd, h]
  | @signed mark sign digits hmark hsign hne h =>
      refine ⟨if sign = '-' then -(Number.ofDigits digits : Int) else Number.ofDigits digits, ?_⟩
      rcases hmark with rfl | rfl <;> rcases hsign with rfl | rfl <;>
        simp [Number.exponent?, hne, h]

theorem IsPoint.head? (hpoint : IsPoint point) (hexponent : IsExponent exponent) :
    (point ++ exponent).head?.all (!·.isDigit) = true := by
  cases hpoint with
  | none => exact hexponent.head?.1
  | digits h => rfl

/-- A number is read whole. -/
theorem numberLexeme_shape (hwhole : whole.all Char.isDigit = true) (hpoint : IsPoint point)
    (hexponent : IsExponent exponent) :
    numberLexeme (whole ++ (point ++ exponent)) = whole ++ (point ++ exponent) := by
  obtain ⟨htake, hdrop⟩ := takeWhile_isDigit_append hwhole (hpoint.head? hexponent)
  have hlexeme : pointLexeme (point ++ exponent) = point := by
    cases hpoint with
    | none =>
        unfold pointLexeme
        split
        · rename_i heq
          exact absurd (congrArg List.head? heq) hexponent.head?.2
        · rfl
    | digits h =>
        rw [List.cons_append, pointLexeme, (takeWhile_isDigit_append h hexponent.head?.1).1]
  rw [numberLexeme_eq, htake, hdrop, hlexeme, List.drop_left, hexponent.exponentLexeme_eq]

/-- A number begins with a digit, or with a point and a digit behind it. -/
theorem startsNumber_cases (h : startsNumber text = true) :
    (∃ c rest, text = c :: rest ∧ c.isDigit = true) ∨
      ∃ d rest, text = '.' :: d :: rest ∧ d.isDigit = true := by
  unfold startsNumber at h
  split at h
  · exact .inr ⟨_, _, rfl, h⟩
  · exact .inl ⟨_, _, rfl, h⟩
  · cases h

/-- A number can be read if it has a digit in front of the exponent. -/
theorem exists_ofChars?_shape (hwhole : whole.all Char.isDigit = true) (hpoint : IsPoint point)
    (hexponent : IsExponent exponent)
    (hstart : startsNumber (whole ++ (point ++ exponent)) = true) :
    ∃ d, Number.Decimal.ofChars? (whole ++ (point ++ exponent)) = some d := by
  obtain ⟨htake, hdrop⟩ := takeWhile_isDigit_append hwhole (hpoint.head? hexponent)
  obtain ⟨n, hn⟩ := hexponent.exists_exponent?
  cases hpoint with
  | none =>
      have hwhole : whole ≠ [] := by
        rintro rfl
        rcases startsNumber_cases hstart with ⟨c, rest, heq, hc⟩ | ⟨d, rest, heq, -⟩
        · have hhead := hexponent.head?.1
          rw [List.nil_append, List.nil_append] at heq
          simp [heq, hc] at hhead
        · exact hexponent.head?.2 (congrArg List.head? heq)
      have hpoint : ∀ rest, exponent ≠ '.' :: rest := by
        rintro rest rfl
        exact hexponent.head?.2 rfl
      refine ⟨⟨Number.ofDigits whole, n⟩, ?_⟩
      rw [List.nil_append] at htake hdrop ⊢
      simp [Number.Decimal.ofChars?, htake, hdrop, hwhole, hn]
  | @digits digits h =>
      obtain ⟨htake', hdrop'⟩ := takeWhile_isDigit_append h hexponent.head?.1
      have hsome : whole = [] → digits ≠ [] := by
        rintro rfl rfl
        rcases startsNumber_cases hstart with ⟨c, rest, heq, hc⟩ | ⟨d, rest, heq, hd⟩
        · cases heq
          cases hc
        · have hhead := hexponent.head?.1
          obtain rfl : exponent = d :: rest := List.tail_eq_of_cons_eq heq
          simp [hd] at hhead
      refine ⟨⟨Number.ofDigits (whole ++ digits), n - digits.length⟩, ?_⟩
      rw [List.cons_append] at htake hdrop ⊢
      simp only [Number.Decimal.ofChars?, htake, hdrop, htake', hdrop', hn]
      simpa using hsome

end Shape

/-- A number of a text is read from its lexeme alone. -/
theorem numberLexeme_self (text : List Char) :
    numberLexeme (numberLexeme text) = numberLexeme text := by
  rw [numberLexeme_eq text]
  exact numberLexeme_shape List.all_takeWhile (isPoint_pointLexeme _) (isExponent_exponentLexeme _)

theorem exponentLexeme_begins (text : List Char) : exponentLexeme text <+: text := by
  unfold exponentLexeme
  split
  · rename_i mark sign rest
    have hdigits : mark :: sign :: rest.takeWhile Char.isDigit <+: mark :: sign :: rest :=
      (List.prefix_cons_inj mark).2 ((List.prefix_cons_inj sign).2 (List.takeWhile_prefix _))
    split
    · exact List.nil_prefix
    · split
      · exact hdigits
      · split
        · exact List.nil_prefix
        · dsimp only
          split
          · exact List.nil_prefix
          · exact hdigits
  · exact List.nil_prefix

theorem pointLexeme_begins (text : List Char) : pointLexeme text <+: text := by
  unfold pointLexeme
  split
  · exact (List.prefix_cons_inj '.').2 (List.takeWhile_prefix _)
  · exact List.nil_prefix

theorem numberLexeme_prefix (text : List Char) : numberLexeme text <+: text := by
  obtain ⟨rest, hrest⟩ := pointLexeme_begins (text.dropWhile Char.isDigit)
  have hdrop : (text.dropWhile Char.isDigit).drop
      (pointLexeme (text.dropWhile Char.isDigit)).length = rest := by
    conv_lhs =>
      arg 2
      rw [← hrest]
    exact List.drop_left
  have htext : text = text.takeWhile Char.isDigit ++
      (pointLexeme (text.dropWhile Char.isDigit) ++ rest) := by
    rw [hrest, List.takeWhile_append_dropWhile]
  rw [numberLexeme_eq, hdrop]
  conv_rhs => rw [htext]
  exact (List.prefix_append_right_inj _).2
    ((List.prefix_append_right_inj _).2 (exponentLexeme_begins rest))

theorem startsNumber_numberLexeme (h : startsNumber text = true) :
    startsNumber (numberLexeme text) = true := by
  rcases startsNumber_cases h with ⟨c, rest, rfl, hc⟩ | ⟨d, rest, rfl, hd⟩
  · have hhead := head?_numberLexeme h
    obtain ⟨behind, hlexeme⟩ := List.head?_eq_some_iff.1 hhead
    have hpoint : c ≠ '.' := by
      rintro rfl
      cases hc
    rw [hlexeme]
    unfold startsNumber
    split
    · rename_i heq
      exact absurd (List.head_eq_of_cons_eq heq) hpoint
    · rename_i heq
      exact List.head_eq_of_cons_eq heq ▸ hc
    · rename_i heq
      cases heq
  · simp [numberLexeme_eq, pointLexeme, startsNumber, hd]

/-- **What is cut out as a number can be read as one.** -/
theorem exists_read?_numberLexeme (h : startsNumber text = true) :
    ∃ n, Number.read? (numberLexeme text) = some n := by
  have hstart := startsNumber_numberLexeme h
  obtain ⟨d, hd⟩ : ∃ d, Number.Decimal.ofChars? (numberLexeme text) = some d := by
    rw [numberLexeme_eq] at hstart ⊢
    exact exists_ofChars?_shape List.all_takeWhile (isPoint_pointLexeme _)
      (isExponent_exponentLexeme _) hstart
  rw [Number.read?]
  · split
    · exact ⟨_, rfl⟩
    · split
      · exact ⟨_, rfl⟩
      · exact ⟨_, by rw [hd]; rfl⟩
  · intro rest hminus
    rw [hminus] at hstart
    cases hstart
  · intro rest hplus
    rw [hplus] at hstart
    cases hstart

/-! ### Signs -/

/-- The signs, a longer one before those that it begins with. -/
def signs : List TokenKind :=
  [.eqEqEq, .notEqEq, .eqEq, .notEq, .lessEq, .greaterEq, .ampAmp, .pipePipe, .plusEq, .minusEq,
    .starEq, .slashEq, .eq, .bang, .less, .greater, .plus, .minus, .star, .slash, .percent, .lParen,
    .rParen, .comma, .semicolon]

theorem isPrefixOf_eq_false_iff {mark text : List Char} :
    mark.isPrefixOf text = false ↔ ∀ rest, text = mark ++ rest → False := by
  rw [Bool.eq_false_iff, Ne, List.isPrefixOf_iff_prefix]
  constructor
  · rintro h rest rfl
    exact h (List.prefix_append mark rest)
  · rintro h ⟨rest, rfl⟩
    exact h rest rfl

/-- The sign of a text is the first one of the signs that stands at its beginning. -/
theorem sign?_eq (text : List Char) : sign? text =
    (signs.find? fun kind => kind.written.isPrefixOf text).map fun kind =>
      (kind, kind.written.length) := by
  unfold sign?
  split
  case h_26 =>
    have hnone : signs.find? (fun kind => kind.written.isPrefixOf text) = none := by
      simp only [signs, List.find?_eq_none, Bool.not_eq_true, isPrefixOf_eq_false_iff,
        List.forall_mem_cons, TokenKind.written, List.cons_append, List.nil_append,
        List.not_mem_nil, false_imp_iff, implies_true, and_true]
      and_intros <;> assumption
    rw [hnone]
    rfl
  -- the signs that another one begins with: that it does not go on so is in the context
  case h_13 h h' | h_14 h h' =>
    have hlong : ['=', '='].isPrefixOf _ = false := isPrefixOf_eq_false_iff.2 h
    have hshort : ['='].isPrefixOf _ = false := isPrefixOf_eq_false_iff.2 h'
    simp only [signs, List.find?_cons, TokenKind.written, List.isPrefixOf_cons_cons, hlong, hshort,
      Bool.and_false, Bool.and_true, Char.reduceBEq, List.isPrefixOf_nil_left]
    rfl
  case h_3 h | h_4 h | h_15 h | h_16 h | h_17 h | h_18 h | h_19 h | h_20 h =>
    have hlong : ['='].isPrefixOf _ = false := isPrefixOf_eq_false_iff.2 h
    simp only [signs, List.find?_cons, TokenKind.written, List.isPrefixOf_cons_cons, hlong,
      Bool.and_false, Bool.false_and, Bool.and_true, Char.reduceBEq, List.isPrefixOf_nil_left]
    rfl
  all_goals rfl

theorem isSign_of_mem : ∀ kind ∈ signs, kind.isSign = true := by
  simp [signs, TokenKind.isSign]

/-- A sign is a sign of its own characters. -/
theorem sign?_written (h : sign? text = some (kind, count)) :
    kind ∈ signs ∧ (∃ behind, text = kind.written ++ behind) ∧ count = kind.written.length := by
  rw [sign?_eq, Option.map_eq_some_iff] at h
  obtain ⟨found, hfound, heq⟩ := h
  cases heq
  have hprefix : kind.written.isPrefixOf text = true :=
    List.find?_some (p := fun sign => (TokenKind.written sign).isPrefixOf text) hfound
  obtain ⟨behind, hbehind⟩ := List.isPrefixOf_iff_prefix.1 hprefix
  exact ⟨List.mem_of_find?_eq_some hfound, ⟨behind, hbehind.symm⟩, rfl⟩

/-! ### Tokens -/

theorem isSpacing_of_quote (h : c = '"' ∨ c = '\'') : isSpacing c = false := by
  rcases h with rfl | rfl <;> rfl

theorem isSpacing_of_startsNumber (h : startsNumber (c :: rest) = true) : isSpacing c = false := by
  by_contra hspacing
  rw [Bool.not_eq_false] at hspacing
  simp only [isSpacing, Bool.or_eq_true, beq_iff_eq] at hspacing
  rcases hspacing with (((rfl | rfl) | rfl) | rfl) | rfl <;> cases h

theorem ne_quote_of_startsNumber (h : startsNumber (c :: rest) = true) :
    ¬ (c = '"' ∨ c = '\'') := by
  rintro (rfl | rfl) <;> cases h

/-- A string is a string on its own. -/
theorem Scans.quoted (hquote : c = '"' ∨ c = '\'')
    (hread : readString c rest = some (s, count)) :
    ∃ inside behind, rest = inside ++ behind ∧ count = inside.length ∧
      Scans (c :: inside) [] (.str (String.ofList s)) := by
  obtain ⟨inside, behind, rfl, rfl, hread⟩ := exists_readString hread
  have hend : inside ++ c :: behind = (inside ++ [c]) ++ behind := List.append_cons _ _ _
  have hlength : inside.length + 1 = (inside ++ [c]).length := by
    rw [List.length_append, List.length_singleton]
  refine ⟨inside ++ [c], behind, hend, hlength, c, inside ++ [c], rfl, isSpacing_of_quote hquote,
    fun offset => ?_⟩
  rw [List.append_nil, scan, if_pos hquote, hread]
  exact congrArg (fun n => Except.ok (TokenKind.str (String.ofList s), n + 1)) hlength

/-- A number is a number on its own. -/
theorem Scans.numeral {n : Float} (hstart : startsNumber (c :: rest) = true)
    (hread : Number.read? (numberLexeme (c :: rest)) = some n) :
    ∃ inside behind, rest = inside ++ behind ∧
      (numberLexeme (c :: rest)).length = inside.length + 1 ∧ Scans (c :: inside) [] (.number n) := by
  obtain ⟨behind, hbehind⟩ := numberLexeme_prefix (c :: rest)
  obtain ⟨inside, hinside⟩ := List.head?_eq_some_iff.1 (head?_numberLexeme hstart)
  have halone := startsNumber_numberLexeme hstart
  have hself := numberLexeme_self (c :: rest)
  rw [hinside] at hbehind hread halone hself ⊢
  refine ⟨inside, behind, (List.cons.inj hbehind).2.symm, rfl, c, inside, rfl,
    isSpacing_of_startsNumber hstart, fun offset => ?_⟩
  rw [List.append_nil, scan, if_neg (ne_quote_of_startsNumber hstart), if_pos halone, hself]
  simp only [hread]

theorem startsNumber_of_isDigit (hc : c.isDigit = true) : startsNumber (c :: rest) = true := by
  unfold startsNumber
  split
  · rename_i heq
    obtain rfl := List.head_eq_of_cons_eq heq
    cases hc
  · rename_i heq
    exact List.head_eq_of_cons_eq heq ▸ hc
  · rename_i heq
    cases heq

theorem exists_takeWhile_append (p : Char → Bool) (text : List Char) :
    ∃ behind, text = text.takeWhile p ++ behind :=
  ⟨_, List.takeWhile_append_dropWhile.symm⟩

/-- **A token is read from its lexeme alone.** -/
theorem exists_lexeme {offset : Nat} (h : scan offset c rest = .ok (kind, count)) :
    ∃ inside behind, rest = inside ++ behind ∧ count = inside.length + 1 ∧
      Scans (c :: inside) [] kind := by
  obtain ⟨behind, hbehind⟩ := exists_takeWhile_append isWordChar rest
  cases scan_eq_ok_iff.1 h with
  | str hquote hread =>
      obtain ⟨inside, behind, hrest, rfl, hscans⟩ := Scans.quoted hquote hread
      exact ⟨inside, behind, hrest, rfl, hscans⟩
  | number hquote hstart hread => exact Scans.numeral hstart hread
  | var hdollar hname =>
      have hsome : IsName (String.ofList (rest.takeWhile isWordChar)) :=
        (scan_eq_ok_iff.1 h).sound
      have hscans : Scans (TokenKind.var _).written [] (.var _) := Scans.var hsome rfl
      rw [TokenKind.written, String.toList_ofList, ← hdollar] at hscans
      exact ⟨rest.takeWhile isWordChar, behind, hbehind, rfl, hscans⟩
  | word hquote hstart hdollar hword =>
      have hdigit : c.isDigit = false := Bool.eq_false_iff.2 fun hdigit =>
        Bool.false_ne_true (hstart.symm.trans (startsNumber_of_isDigit hdigit))
      have hall : (c :: rest.takeWhile isWordChar).all isWordChar = true := by
        rw [List.all_cons, hword, List.all_takeWhile]
        rfl
      exact ⟨rest.takeWhile isWordChar, behind, hbehind, rfl, Scans.word hall hdigit rfl rfl⟩
  | sign hquote hstart hdollar hword hsign =>
      obtain ⟨hmem, ⟨behind, hbehind⟩, rfl⟩ := sign?_written hsign
      have hscans : Scans kind.written [] kind :=
        Scans.sign (isSign_of_mem kind hmem) (by simp)
      have hshape := hscans
      obtain ⟨first, inside, hwritten, -⟩ := hshape
      rw [hwritten] at hbehind hscans ⊢
      obtain ⟨rfl, hrest⟩ := List.cons.inj hbehind
      exact ⟨inside, behind, hrest, rfl, hscans⟩

/-- Where no token begins, there is a quote that is not closed or a character that is the beginning
of nothing. -/
theorem scan_error {offset : Nat} {e : ExprError} (h : scan offset c rest = .error e) :
    (c = '"' ∨ c = '\'') ∧ readString c rest = none ∧ e = .unterminatedString offset ∨
      e = .unexpectedChar c offset := by
  rw [scan] at h
  split at h
  · rename_i hquote
    split at h
    · cases h
    · rename_i hread
      cases h
      exact .inl ⟨hquote, hread, rfl⟩
  · split at h
    · rename_i hstart
      obtain ⟨n, hn⟩ := exists_read?_numberLexeme hstart
      dsimp only at h
      rw [hn] at h
      cases h
    · split at h
      · rename_i hdollar
        dsimp only at h
        split at h
        · cases h
          exact .inr (by rw [hdollar])
        · cases h
      · split at h
        · cases h
        · split at h
          · cases h
          · cases h
            exact .inr rfl

theorem startsNumber_append (h : startsNumber text = true) (rest : List Char) :
    startsNumber (text ++ rest) = true := by
  rcases startsNumber_cases h with ⟨c, behind, rfl, hc⟩ | ⟨d, behind, rfl, hd⟩
  · exact startsNumber_of_isDigit hc
  · exact hd

theorem sign?_append {found : TokenKind × Nat} (h : sign? text = some found) (rest : List Char) :
    ∃ found', sign? (text ++ rest) = some found' := by
  obtain ⟨kind, count⟩ := found
  obtain ⟨hmem, ⟨behind, hbehind⟩, -⟩ := sign?_written h
  have hprefix : kind.written.isPrefixOf (text ++ rest) = true := by
    rw [List.isPrefixOf_iff_prefix, hbehind, List.append_assoc]
    exact List.prefix_append _ _
  cases hfind : signs.find? fun kind => kind.written.isPrefixOf (text ++ rest) with
  | none => exact absurd hprefix (List.find?_eq_none.1 hfind kind hmem)
  | some sign => exact ⟨(sign, sign.written.length), by rw [sign?_eq, hfind]; rfl⟩

/-- A text that begins with a token still begins with one when it goes on. -/
theorem exists_scan_append {offset : Nat} {inside : List Char} {found : TokenKind × Nat}
    (h : scan offset c inside = .ok found) (offset' : Nat) (behind : List Char) :
    ∃ found', scan offset' c (inside ++ behind) = .ok found' := by
  rw [scan] at h ⊢
  split at h
  · rename_i hquote
    rw [if_pos hquote]
    split at h
    · rename_i s count hread
      obtain ⟨read, unread, rfl, rfl, hread⟩ := exists_readString hread
      rw [List.append_assoc, List.cons_append, hread]
      exact ⟨_, rfl⟩
    · cases h
  rename_i hquote
  rw [if_neg hquote]
  split at h
  · rename_i hstart
    have hstart' := startsNumber_append hstart behind
    obtain ⟨n, hn⟩ := exists_read?_numberLexeme hstart'
    rw [List.cons_append] at hstart' hn
    simp only [if_pos hstart', hn]
    exact ⟨_, rfl⟩
  split
  · rename_i hstart
    obtain ⟨n, hn⟩ := exists_read?_numberLexeme hstart
    simp only [hn]
    exact ⟨_, rfl⟩
  split at h
  · rename_i hdollar
    rw [if_pos hdollar]
    dsimp only at h ⊢
    split at h
    · cases h
    · rename_i hname
      have hname' : ¬ ((inside ++ behind).takeWhile isWordChar).isEmpty = true := by
        cases inside with
        | nil => exact absurd rfl hname
        | cons d inside =>
            by_cases hd : isWordChar d = true
            · simp [hd]
            · exact absurd (by simp [hd]) hname
      rw [if_neg hname']
      exact ⟨_, rfl⟩
  rename_i hdollar
  rw [if_neg hdollar]
  split at h
  · rename_i hword
    rw [if_pos hword]
    exact ⟨_, rfl⟩
  · rename_i hword
    rw [if_neg hword]
    split at h
    · rename_i found' hsign
      obtain ⟨found'', hsign'⟩ := sign?_append hsign behind
      rw [List.cons_append] at hsign'
      rw [hsign']
      exact ⟨_, rfl⟩
    · cases h

end Token

end Gamebook
