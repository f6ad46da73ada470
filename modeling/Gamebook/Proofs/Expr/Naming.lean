/-
**The variable that a text names first.**

A source is a row of lexemes, and the dollar sign stands in two kinds of them: at the beginning of a
variable, and anywhere in a string literal.  The first variable is looked for in the text as it
stands, so it is that of the first lexeme that names one, be that a variable or a text in quotes.
Where names end both ways of reading agree: what stands behind a lexeme is no letter of it, and the
next token begins with an ASCII character.

Main definitions:

* `Token.Spells` — a text as a row of lexemes, each of which is read where it stands;
* `Expr.named?` — the name of the first variable that a text names;
* `TokenKind.varName?` — the name of a variable.

Main results:

* `Token.exists_spells` — **a text that has tokens is a row of their lexemes**;
* `Token.Spells.named?_eq` — **what a text names first is what the first one of its lexemes names
  that names anything**;
* `Token.Scans.named?_eq` — only a variable and a string literal name anything;
* `Token.Spells.named?_eq_varName?` — without a dollar sign in a string literal a text names its
  first variable.
-/

import Gamebook.Proofs.Expr.Partition

set_option relaxedAutoImplicit false
set_option autoImplicit false

namespace Gamebook

namespace Expr

/-! ### Names in a text -/

variable {before rest : List Char}

theorem firstVariable?_cons (c : Char) (rest : List Char) : firstVariable? (c :: rest) =
    if c = '$' ∧ rest.takeWhile Text.isWord ≠ [] then some (rest.takeWhile Text.isWord)
    else firstVariable? rest := by
  rw [firstVariable?]

/-- Without a dollar sign nothing is named. -/
theorem firstVariable?_append_of_not_mem (h : '$' ∉ before) (rest : List Char) :
    firstVariable? (before ++ rest) = firstVariable? rest := by
  induction before with
  | nil => rfl
  | cons c before ih =>
      have hc : c ≠ '$' := fun heq => h (heq ▸ List.mem_cons_self)
      rw [List.cons_append, firstVariable?_cons, if_neg (fun hand => hc hand.1),
        ih fun hin => h (List.mem_cons_of_mem _ hin)]

/-- A name does not go on behind a character that is no word character. -/
theorem firstVariable?_append (hrest : rest.takeWhile Text.isWord = []) (before : List Char) :
    firstVariable? (before ++ rest) = (firstVariable? before).or (firstVariable? rest) := by
  induction before with
  | nil => rfl
  | cons c before ih =>
      have htake : (before ++ rest).takeWhile Text.isWord = before.takeWhile Text.isWord := by
        rw [List.takeWhile_append, hrest, List.append_nil]
        split
        · rename_i hlength
          exact ((List.takeWhile_prefix _).eq_of_length hlength).symm
        · rfl
      rw [List.cons_append, firstVariable?_cons, firstVariable?_cons, htake, ih]
      split <;> rfl

/-- The name of the first variable that a text names. -/
def named? (text : List Char) : Option String := (firstVariable? text).map String.ofList

theorem named?_of_not_mem (h : '$' ∉ before) : named? before = none := by
  have hnone := firstVariable?_append_of_not_mem h []
  rw [List.append_nil] at hnone
  rw [named?, hnone]
  rfl

theorem named?_append_of_not_mem (h : '$' ∉ before) (rest : List Char) :
    named? (before ++ rest) = named? rest :=
  congrArg (Option.map _) (firstVariable?_append_of_not_mem h rest)

theorem named?_append (hrest : rest.takeWhile Text.isWord = []) (before : List Char) :
    named? (before ++ rest) = (named? before).or (named? rest) := by
  rw [named?, firstVariable?_append hrest, Option.map_or]
  rfl

/-- A variable is named by what it is written as. -/
theorem named?_variable {name : List Char} (hne : name ≠ [])
    (htake : (name ++ rest).takeWhile Text.isWord = name) :
    named? ('$' :: (name ++ rest)) = some (String.ofList name) := by
  rw [named?, firstVariable?_cons, htake, if_pos ⟨rfl, hne⟩]
  rfl

end Expr

/-- The name of a variable. -/
def TokenKind.varName? : TokenKind → Option String
  | .var name => some name
  | _ => none

namespace Token

open Text

/-- The characters of a token, and its kind. -/
structure Lexeme where
  text : List Char
  kind : TokenKind

variable {text lexeme rest : List Char} {c : Char} {kind : TokenKind} {row : List Lexeme}

/-! ### A text as a row of lexemes -/

/-- A text is a row of lexemes with spacing before, between and behind them, and each of them is read
as its token where it stands. -/
inductive Spells : List Char → List Lexeme → Prop
  | nil : Spells [] []
  | space {c : Char} {text : List Char} {row : List Lexeme} (hc : isSpacing c = true)
      (h : Spells text row) : Spells (c :: text) row
  | lexeme {lexeme rest : List Char} {kind : TokenKind} {row : List Lexeme}
      (h : Scans lexeme rest kind) (hrest : Spells rest row) :
      Spells (lexeme ++ rest) (⟨lexeme, kind⟩ :: row)

/-- **A text that has tokens is a row of their lexemes.** -/
theorem exists_spells {offset : Nat} {text : List Char} {tokens : List Token}
    (h : ofCharsAt offset text = .ok tokens) :
    ∃ row, Spells text row ∧ tokens.map Token.kind = row.map Lexeme.kind ++ [.eof] := by
  match text with
  | [] =>
      rw [ofCharsAt] at h
      cases h
      exact ⟨[], .nil, rfl⟩
  | c :: rest =>
      by_cases hc : isSpacing c = true
      · rw [ofCharsAt_space hc] at h
        obtain ⟨row, hrow, hkinds⟩ := exists_spells h
        exact ⟨row, .space hc hrow, hkinds⟩
      · rw [Bool.not_eq_true] at hc
        cases hscan : scan offset c rest with
        | error e => cases (ofCharsAt_error hc hscan).symm.trans h
        | ok found =>
            obtain ⟨kind, count⟩ := found
            obtain ⟨inside, behind, hrest, rfl, -⟩ := exists_lexeme hscan
            have hlt : behind.length < rest.length + 1 := by
              rw [hrest, List.length_append]
              omega
            subst hrest
            have hscans : Scans (c :: inside) behind kind :=
              ⟨c, inside, rfl, hc, fun _ => scan_eq_ok_iff.2 (scan_eq_ok_iff.1 hscan)⟩
            rw [ofCharsAt_token hc hscan] at h
            cases htokens : ofCharsAt (offset + size (c :: inside)) behind with
            | error e =>
                rw [htokens] at h
                cases h
            | ok tokens =>
                rw [htokens] at h
                cases h
                obtain ⟨row, hrow, hkinds⟩ := exists_spells htokens
                exact ⟨_, .lexeme hscans hrow, congrArg (kind :: ·) hkinds⟩
termination_by text.length

/-! ### What lexemes name -/

theorem ofWord_varName? (word : String) : (ofWord word).varName? = none := by
  unfold ofWord
  repeat' split
  all_goals rfl

theorem signs_varName? : ∀ kind ∈ signs, kind.varName? = none ∧ '$' ∉ kind.written := by
  simp [signs, TokenKind.varName?, TokenKind.written]

/-- Of the ASCII characters those of names are the word characters. -/
theorem isWord_eq_isWordChar (hc : IsAscii c) : isWord c = isWordChar c := if_pos hc

theorem isWord_of_isWordChar (hc : isWordChar c = true) : isWord c = true :=
  (isWord_eq_isWordChar (isWordChar_ascii c hc)).trans hc

/-- What is as long as a run of a class at the beginning of a text is that run. -/
theorem all_of_length_takeWhile {p : Char → Bool} {inside : List Char}
    (h : ((inside ++ rest).takeWhile p).length = inside.length) :
    inside.all p = true ∧ rest.takeWhile p = [] := by
  have htake : (inside ++ rest).takeWhile p = inside :=
    (List.append_inj List.takeWhile_append_dropWhile h).1
  have hall : inside.all p = true := htake ▸ List.all_takeWhile
  rw [List.takeWhile_append_of_pos (List.all_eq_true.1 hall)] at htake
  exact ⟨hall, List.append_right_eq_self.1 htake⟩

/-- Where a dollar sign can stand in a lexeme: in a text in quotes, or as the sign of a variable, and
the name of a variable ends where the lexeme does. -/
theorem Scans.dollar_cases (h : Scans lexeme rest kind) :
    (∃ quote inside s, isWord quote = false ∧ quote ≠ '$' ∧
      lexeme = quote :: (inside ++ [quote]) ∧ kind = .str s) ∨
    (∃ name, name ≠ [] ∧ name.all isWordChar = true ∧ rest.takeWhile isWordChar = [] ∧
      lexeme = '$' :: name ∧ kind = .var (String.ofList name)) ∨
    ('$' ∉ lexeme ∧ kind.varName? = none) := by
  obtain ⟨c, inside, rfl, -, hscan⟩ := h
  have hfirst := scan_eq_ok_iff.1 (hscan 0)
  -- what is read takes just the lexeme
  generalize hcount : (c :: inside).length = count at hfirst
  cases hfirst with
  | str hquote hread =>
      obtain ⟨before, behind, heq, hlength, -⟩ := exists_readString hread
      rw [List.append_cons] at heq
      have hsame : inside = before ++ [c] := by
        refine (List.append_inj heq ?_).1
        rw [List.length_append, List.length_singleton, ← hlength]
        exact Nat.succ.inj hcount
      refine .inl ⟨c, before, _, ?_, ?_, congrArg (c :: ·) hsame, rfl⟩
      · rcases hquote with rfl | rfl <;> decide
      · rcases hquote with rfl | rfl <;> decide
  | number hquote hstart hread =>
      obtain ⟨behind, hbehind⟩ := numberLexeme_prefix (c :: (inside ++ rest))
      have hsame : numberLexeme (c :: (inside ++ rest)) = c :: inside :=
        (List.append_inj hbehind hcount.symm).1
      refine .inr (.inr ⟨fun hin => ?_, rfl⟩)
      have hchar := numberLexeme_all (c :: (inside ++ rest)) '$' (hsame ▸ hin)
      exact absurd hchar (by decide)
  | var hdollar hname =>
      have hlength := (Nat.succ.inj hcount).symm
      obtain ⟨hall, hrest⟩ := all_of_length_takeWhile hlength
      have hsame : (inside ++ rest).takeWhile isWordChar = inside := by
        rw [List.takeWhile_append_of_pos (List.all_eq_true.1 hall), hrest, List.append_nil]
      rw [hsame] at hname ⊢
      exact .inr (.inl ⟨inside, hname, hall, hrest, by rw [hdollar], rfl⟩)
  | word hquote hstart hdollar hword =>
      have hlength := (Nat.succ.inj hcount).symm
      have hall := (all_of_length_takeWhile hlength).1
      refine .inr (.inr ⟨fun hin => ?_, ofWord_varName? _⟩)
      rcases List.mem_cons.1 hin with heq | hin
      · exact hdollar heq.symm
      · exact absurd (List.all_eq_true.1 hall '$' hin) (by decide)
  | sign hquote hstart hdollar hword hsign =>
      obtain ⟨hmem, ⟨behind, hbehind⟩, hlength⟩ := sign?_written hsign
      have hsame : c :: inside = kind.written :=
        (List.append_inj hbehind (hcount.trans hlength)).1
      obtain ⟨hnone, hno⟩ := signs_varName? kind hmem
      exact .inr (.inr ⟨hsame ▸ hno, hnone⟩)

/-- **Only a variable and a string literal name anything.** -/
theorem Scans.named?_eq (h : Scans lexeme rest kind) (hstr : ∀ s, kind ≠ .str s) :
    Expr.named? lexeme = kind.varName? := by
  rcases h.dollar_cases with ⟨quote, inside, s, -, -, -, rfl⟩ | ⟨name, hne, hall, -, rfl, rfl⟩ |
    ⟨hno, hnone⟩
  · exact absurd rfl (hstr s)
  · have htake : (name ++ []).takeWhile isWord = name := by
      rw [List.append_nil, List.takeWhile_eq_self_iff]
      exact fun c hc => isWord_of_isWordChar (List.all_eq_true.1 hall c hc)
    have hnamed := Expr.named?_variable hne htake
    rwa [List.append_nil] at hnamed
  · rw [Expr.named?_of_not_mem hno, hnone]

/-! ### What a row of lexemes names -/

/-- A lexeme begins with an ASCII character. -/
theorem Scans.exists_head (h : Scans lexeme rest kind) :
    ∃ c inside, lexeme = c :: inside ∧ IsAscii c := by
  obtain ⟨c, inside, rfl, -, hscan⟩ := h
  refine ⟨c, inside, rfl, ?_⟩
  by_contra hc
  cases (scan_other hc 0 (inside ++ rest)).symm.trans (hscan 0)

/-- A name that ends in front of a row of lexemes ends there for every way of reading it. -/
theorem Spells.takeWhile_isWord (h : Spells text row)
    (hrest : text.takeWhile isWordChar = []) : text.takeWhile isWord = [] := by
  have hhead : text = [] ∨ ∃ c behind, text = c :: behind ∧ IsAscii c := by
    cases h with
    | nil => exact .inl rfl
    | space hc _ => exact .inr ⟨_, _, rfl, isSpacing_ascii _ hc⟩
    | lexeme h _ =>
        obtain ⟨c, inside, rfl, hc⟩ := h.exists_head
        exact .inr ⟨c, _, List.cons_append, hc⟩
  rcases hhead with rfl | ⟨c, behind, rfl, hc⟩
  · rfl
  · have hword : isWordChar c = false := by
      by_contra hword
      rw [Bool.not_eq_false] at hword
      rw [List.takeWhile_cons_of_pos hword] at hrest
      exact List.cons_ne_nil _ _ hrest
    exact List.takeWhile_cons_of_neg (by rw [isWord_eq_isWordChar hc, hword]; decide)

/-- What a lexeme in front of a row names does not depend on the row. -/
theorem Spells.named?_append (hrow : Spells rest row)
    (h : Scans lexeme rest kind) :
    Expr.named? (lexeme ++ rest) = (Expr.named? lexeme).or (Expr.named? rest) := by
  rcases h.dollar_cases with ⟨quote, inside, s, hword, hquote, rfl, -⟩ |
    ⟨name, -, -, hrest, rfl, -⟩ | ⟨hno, -⟩
  · -- the closing quote keeps apart what is named in front of it and behind it
    have hclosed : ∀ behind, Expr.named? (quote :: inside ++ quote :: behind) =
        (Expr.named? (quote :: inside)).or (Expr.named? behind) := by
      intro behind
      have hno : '$' ∉ [quote] := fun hin => hquote (List.mem_singleton.1 hin).symm
      have hend : (quote :: behind).takeWhile isWord = [] :=
        List.takeWhile_cons_of_neg (by rw [hword]; decide)
      rw [Expr.named?_append hend]
      exact congrArg _ (Expr.named?_append_of_not_mem hno behind)
    have halone : Expr.named? (quote :: (inside ++ [quote])) = Expr.named? (quote :: inside) :=
      (hclosed []).trans Option.or_none
    have htext : quote :: (inside ++ [quote]) ++ rest = quote :: inside ++ quote :: rest := by simp
    rw [htext, hclosed, halone]
  · exact Expr.named?_append (hrow.takeWhile_isWord hrest) _
  · rw [Expr.named?_append_of_not_mem hno, Expr.named?_of_not_mem hno, Option.none_or]

theorem named?_space (hc : isSpacing c = true) (text : List Char) :
    Expr.named? (c :: text) = Expr.named? text := by
  have hno : '$' ∉ [c] := by
    intro hin
    rw [← List.mem_singleton.1 hin] at hc
    cases hc
  exact Expr.named?_append_of_not_mem hno text

/-- **What a text names first is what the first one of its lexemes names that names anything.** -/
theorem Spells.named?_eq (h : Spells text row) :
    Expr.named? text = row.findSome? fun l => Expr.named? l.text := by
  induction h with
  | nil => rfl
  | space hc h ih => exact (named?_space hc _).trans ih
  | @lexeme lexeme rest kind row h hrest ih =>
      rw [hrest.named?_append h, ih, List.findSome?_cons]
      cases Expr.named? lexeme <;> rfl

/-- If no text in quotes holds a dollar sign, a text names its first variable. -/
theorem Spells.named?_eq_varName? (h : Spells text row)
    (hstr : ∀ lexeme s, ⟨lexeme, .str s⟩ ∈ row → '$' ∉ lexeme) :
    Expr.named? text = row.findSome? fun l => l.kind.varName? := by
  induction h with
  | nil => rfl
  | space hc h ih => exact (named?_space hc _).trans (ih hstr)
  | @lexeme lexeme rest kind row h hrest ih =>
      have hlexeme : Expr.named? lexeme = kind.varName? := by
        by_cases hkind : ∃ s, kind = .str s
        · obtain ⟨s, rfl⟩ := hkind
          exact Expr.named?_of_not_mem (hstr lexeme s List.mem_cons_self)
        · exact h.named?_eq fun s heq => hkind ⟨s, heq⟩
      rw [hrest.named?_append h, hlexeme, ih fun l s hl => hstr l s (List.mem_cons_of_mem _ hl),
        List.findSome?_cons]
      cases kind.varName? <;> rfl

/-- The first variable of a row of lexemes is that of its tokens. -/
theorem findSome?_varName? {tokens : List Token}
    (h : tokens.map Token.kind = row.map Lexeme.kind ++ [.eof]) :
    (tokens.findSome? fun t => t.kind.varName?) = row.findSome? fun l => l.kind.varName? := by
  have hmap := congrArg (List.findSome? TokenKind.varName?) h
  rw [List.findSome?_map, List.findSome?_append, List.findSome?_map] at hmap
  exact hmap.trans Option.or_none

end Token

end Gamebook
