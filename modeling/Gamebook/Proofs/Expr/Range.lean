/-
**The expressions that parsing returns.**

The tokens of a text hold numbers without a sign and the names of variables, and the readers put
nothing together but what has a printed form: a sequence has two items or more, and an assignment
is plain or combined with one of four operators.  As these are read back from print, they are
exactly the expressions that parsing returns.

Main definitions:

* `TokenKind.Sound` — a token that a text can have;
* `Token.First` — what the first token of a text can be;
* `Expr.Sourced` — an expression that has a printed form.

Main results:

* `Token.scan_eq_ok_iff` — **what one token can be**;
* `Token.ofCharsAt_sound` — every token of a text is sound;
* `Expr.Derives.sourced` — what the readers return for sound tokens has a printed form;
* `Expr.exists_parse_iff` — **parsing returns exactly the expressions that have a printed form**;
* `Expr.parse_source` — **parsing undoes printing**.
-/

import Gamebook.Proofs.Expr.Derivation
import Gamebook.Proofs.Expr.Source

set_option relaxedAutoImplicit false
set_option autoImplicit false

namespace Gamebook

/-! ### The tokens of a text -/

/-- A number has no sign and a variable a name. -/
def TokenKind.Sound : TokenKind → Prop
  | .number n => Number.isNegative n = false
  | .var name => IsName name
  | _ => True

namespace Token

theorem ofWord_sound (word : String) : (ofWord word).Sound := by
  unfold ofWord
  repeat' split
  all_goals trivial

theorem sign?_sound {text : List Char} {kind : TokenKind} {count : Nat}
    (h : sign? text = some (kind, count)) : kind.Sound := by
  unfold sign? at h
  split at h
  all_goals cases h
  all_goals trivial

/-- The text of a number begins as the text that it is taken from. -/
theorem head?_numberLexeme {c : Char} {rest : List Char} (h : startsNumber (c :: rest) = true) :
    (numberLexeme (c :: rest)).head? = some c := by
  by_cases hc : c.isDigit = true
  · simp [numberLexeme, hc]
  · have hpoint : c = '.' := by
      by_contra hne
      rw [startsNumber_eq_false (Bool.eq_false_iff.2 hc) hne] at h
      cases h
    subst hpoint
    simp [numberLexeme]

/-- What the first token of the text `c :: rest` is, and the number of characters it takes: a string,
a number, a variable, a word or a sign, whichever of these comes first. -/
inductive First (c : Char) (rest : List Char) : TokenKind → Nat → Prop
  | str {s : List Char} {count : Nat} (hquote : c = '"' ∨ c = '\'')
      (hread : readString c rest = some (s, count)) : First c rest (.str (String.ofList s)) (count + 1)
  | number {n : Float} (hquote : ¬ (c = '"' ∨ c = '\'')) (hstart : startsNumber (c :: rest) = true)
      (hread : Number.read? (numberLexeme (c :: rest)) = some n) :
      First c rest (.number n) (numberLexeme (c :: rest)).length
  | var (hdollar : c = '$') (hname : rest.takeWhile isWordChar ≠ []) :
      First c rest (.var (String.ofList (rest.takeWhile isWordChar)))
        ((rest.takeWhile isWordChar).length + 1)
  | word (hquote : ¬ (c = '"' ∨ c = '\'')) (hstart : startsNumber (c :: rest) = false)
      (hdollar : c ≠ '$') (hword : isWordChar c = true) :
      First c rest (ofWord (String.ofList (c :: rest.takeWhile isWordChar)))
        ((rest.takeWhile isWordChar).length + 1)
  | sign {kind : TokenKind} {count : Nat} (hquote : ¬ (c = '"' ∨ c = '\''))
      (hstart : startsNumber (c :: rest) = false) (hdollar : c ≠ '$') (hword : isWordChar c = false)
      (hsign : sign? (c :: rest) = some (kind, count)) : First c rest kind count

/-- **What one token can be**, wherever it stands. -/
theorem scan_eq_ok_iff {offset count : Nat} {c : Char} {rest : List Char} {kind : TokenKind} :
    scan offset c rest = .ok (kind, count) ↔ First c rest kind count := by
  constructor
  · intro h
    rw [scan] at h
    split at h
    · rename_i hquote
      split at h
      · rename_i hread
        cases h
        exact .str hquote hread
      · cases h
    rename_i hquote
    split at h
    · rename_i hstart
      dsimp only at h
      split at h
      · rename_i hread
        cases h
        exact .number hquote hstart hread
      · cases h
    rename_i hstart
    rw [Bool.not_eq_true] at hstart
    split at h
    · rename_i hdollar
      dsimp only at h
      split at h
      · cases h
      · rename_i hname
        cases h
        exact .var hdollar fun hnil => hname (by rw [hnil]; rfl)
    rename_i hdollar
    split at h
    · rename_i hword
      cases h
      exact .word hquote hstart hdollar hword
    rename_i hword
    split at h
    · rename_i hsign
      cases h
      exact .sign hquote hstart hdollar (Bool.eq_false_iff.2 hword) hsign
    · cases h
  · rintro (⟨hquote, hread⟩ | ⟨hquote, hstart, hread⟩ | ⟨rfl, hname⟩ |
      ⟨hquote, hstart, hdollar, hword⟩ | ⟨hquote, hstart, hdollar, hword, hsign⟩)
    · rw [scan, if_pos hquote, hread]
    · simp only [scan, if_neg hquote, if_pos hstart, hread]
    · have hempty : (rest.takeWhile isWordChar).isEmpty = false := List.isEmpty_eq_false_iff.2 hname
      have hstart : startsNumber ('$' :: rest) = false := startsNumber_eq_false rfl (by decide)
      simp only [scan, hstart, hempty, Bool.false_eq_true, if_false, if_true, or_self,
        Char.reduceEq]
    · simp only [scan, if_neg hquote, hstart, if_neg hdollar, if_pos hword, Bool.false_eq_true,
        if_false, List.length_cons]
    · simp only [scan, if_neg hquote, hstart, if_neg hdollar, hword, Bool.false_eq_true, if_false,
        hsign]

theorem First.sound {count : Nat} {c : Char} {rest : List Char} {kind : TokenKind}
    (h : First c rest kind count) : kind.Sound := by
  cases h with
  | str hquote hread => trivial
  | number hquote hstart hread =>
      refine Number.isNegative_read? ?_ hread
      rw [head?_numberLexeme hstart]
      rintro hminus
      cases hminus
      cases hstart
  | var hdollar hname =>
      refine ⟨?_, ?_⟩
      · rw [String.toList_ofList]
        exact hname
      · rw [String.toList_ofList]
        exact List.all_takeWhile
  | word hquote hstart hdollar hword => exact ofWord_sound _
  | sign hquote hstart hdollar hword hsign => exact sign?_sound hsign

theorem ofWord_ne_eof (word : String) : ofWord word ≠ .eof := by
  unfold ofWord
  repeat' split
  all_goals rintro ⟨⟩

theorem sign?_ne_eof {text : List Char} {kind : TokenKind} {count : Nat}
    (h : sign? text = some (kind, count)) : kind ≠ .eof := by
  unfold sign? at h
  split at h
  all_goals cases h
  all_goals rintro ⟨⟩

/-- No character is read as the end. -/
theorem First.ne_eof {count : Nat} {c : Char} {rest : List Char} {kind : TokenKind}
    (h : First c rest kind count) : kind ≠ .eof := by
  cases h with
  | str | number | var => rintro ⟨⟩
  | word => exact ofWord_ne_eof _
  | sign hquote hstart hdollar hword hsign => exact sign?_ne_eof hsign

/-- **Every token of a text is sound.** -/
theorem ofCharsAt_sound {offset : Nat} {text : List Char} {tokens : List Token}
    (h : ofCharsAt offset text = .ok tokens) : ∀ token ∈ tokens, token.kind.Sound := by
  induction offset, text using ofCharsAt.induct generalizing tokens with
  | case1 offset =>
      rw [ofCharsAt] at h
      cases h
      intro token htoken
      obtain rfl := List.mem_singleton.1 htoken
      trivial
  | case2 offset c rest hspacing ih =>
      rw [ofCharsAt, if_pos hspacing] at h
      exact ih h
  | case3 offset c rest hspacing e hscan =>
      rw [ofCharsAt, if_neg hspacing, hscan] at h
      cases h
  | case4 offset c rest hspacing kind count hscan lexeme e hrest =>
      rw [ofCharsAt, if_neg hspacing, hscan] at h
      dsimp only at h
      rw [hrest] at h
      cases h
  | case5 offset c rest hspacing kind count hscan lexeme behind hrest =>
      rename_i ih
      rw [ofCharsAt, if_neg hspacing, hscan] at h
      dsimp only at h
      rw [hrest] at h
      cases h
      intro token htoken
      rcases List.mem_cons.1 htoken with rfl | htoken
      · exact (scan_eq_ok_iff.1 hscan).sound
      · exact ih hrest token htoken

end Token

namespace Expr

variable {last level : Nat} {tokens rest : List Token} {e left right : Expr} {items : List Expr}

/-! ### What the readers put together -/

/-- An expression that has a printed form. -/
def Sourced (e : Expr) : Prop := e.Every Proper ∧ e.Every Signed

theorem Sourced.unary (op : UnaryOp) (h : e.Sourced) : (Expr.unary op e).Sourced :=
  ⟨⟨trivial, h.1⟩, ⟨trivial, h.2⟩⟩

theorem Sourced.join (joint : Joint) (hl : left.Sourced) (hr : right.Sourced) :
    (joint.join left right).Sourced := by
  cases joint <;> exact ⟨⟨trivial, hl.1, hr.1⟩, ⟨trivial, hl.2, hr.2⟩⟩

theorem signed_of_assignment? {kind : TokenKind} {op : Option BinaryOp}
    (h : Token.assignment? kind = some op) (name : String) (value : Expr) :
    Signed (.assign name op value) := by
  cases kind
  case eq | plusEq | minusEq | starEq | slashEq => cases h; simp [Signed]
  all_goals cases h

theorem Sourced.assign {kind : TokenKind} {name : String} {op : Option BinaryOp}
    (hname : IsName name) (hop : Token.assignment? kind = some op) (h : e.Sourced) :
    (Expr.assign name op e).Sourced :=
  ⟨⟨hname, h.1⟩, ⟨signed_of_assignment? hop name e, h.2⟩⟩

theorem Sourced.ofItems (hitems : ∀ item ∈ items, item.Sourced) (h : ofItems items = .ok e) :
    e.Sourced := by
  have hevery : ∀ {items : List Expr}, (∀ item ∈ items, item.Sourced) →
      EveryItem Proper items ∧ EveryItem Signed items := by
    intro items hitems
    induction items with
    | nil => exact ⟨trivial, trivial⟩
    | cons item items ih =>
        obtain ⟨hp, hs⟩ := ih fun i hi => hitems i (List.mem_cons_of_mem _ hi)
        obtain ⟨hp', hs'⟩ := hitems item List.mem_cons_self
        exact ⟨⟨hp', hp⟩, ⟨hs', hs⟩⟩
  match items, hitems, h with
  | [], _, h => cases h
  | [item], hitems, h =>
      cases h
      exact hitems _ List.mem_cons_self
  | item :: other :: items, hitems, h =>
      cases h
      obtain ⟨hp, hs⟩ := hevery hitems
      exact ⟨⟨Nat.le_add_left 2 items.length, hp⟩, ⟨trivial, hs⟩⟩

/-- All tokens are sound. -/
def AllSound (tokens : List Token) : Prop := ∀ token ∈ tokens, token.kind.Sound

/-- What a task starts from has a printed form. -/
def Task.Sourced : Task → Prop
  | .joints _ left => left.Sourced
  | _ => True

theorem sourced_of_operand? {kind : TokenKind} (h : kind.operand? = some e) (hsound : kind.Sound) :
    e.Sourced := by
  cases kind with
  | number n =>
      cases h
      exact ⟨hsound, trivial⟩
  | var name =>
      cases h
      exact ⟨hsound, trivial⟩
  | str | truth =>
      cases h
      exact ⟨trivial, trivial⟩
  | _ => cases h

/-- **What is returned for sound tokens has a printed form**, and what is left of them is sound. -/
theorem Derives.sourced {task : Task} {result : List Expr} (h : Derives task tokens result rest)
    (htask : task.Sourced) (hsound : AllSound tokens) :
    (∀ e ∈ result, e.Sourced) ∧ AllSound rest := by
  induction h with
  | single h =>
      obtain ⟨htoken, hrest⟩ := List.forall_mem_cons.1 hsound
      exact ⟨List.forall_mem_singleton.2 (sourced_of_operand? h htoken), hrest⟩
  | unary hop _ ih =>
      obtain ⟨hoperand, hrest⟩ := ih trivial (List.forall_mem_cons.1 hsound).2
      exact ⟨List.forall_mem_singleton.2 ((List.forall_mem_singleton.1 hoperand).unary _), hrest⟩
  | enclosed _ _ hof _ ih =>
      obtain ⟨hitems, hrest⟩ := ih trivial (List.forall_mem_cons.1 hsound).2
      exact ⟨List.forall_mem_singleton.2 (.ofItems hitems hof), (List.forall_mem_cons.1 hrest).2⟩
  | level _ _ iho ihj =>
      obtain ⟨hoperand, hrest⟩ := iho trivial hsound
      have hleft := List.forall_mem_singleton.1 hoperand
      exact ihj hleft hrest
  | stop => exact ⟨List.forall_mem_singleton.2 htask, hsound⟩
  | assignment hop _ _ _ ihr ihj =>
      obtain ⟨hvalue, hrest⟩ := ihr trivial (List.forall_mem_cons.1 hsound).2
      have hassign := Sourced.assign htask.1 hop (List.forall_mem_singleton.1 hvalue)
      exact ihj hassign hrest
  | joint _ _ _ _ _ ihr ihj =>
      obtain ⟨hright, hrest⟩ := ihr trivial (List.forall_mem_cons.1 hsound).2
      refine ihj ?_ hrest
      exact Sourced.join _ htask (List.forall_mem_singleton.1 hright)
  | none => exact ⟨fun _ hitem => absurd hitem List.not_mem_nil, hsound⟩
  | final _ _ ih => exact ih trivial hsound
  | cons _ _ _ ihr ihitems =>
      obtain ⟨hitem, hrest⟩ := ihr trivial hsound
      obtain ⟨hothers, hleft⟩ := ihitems trivial (List.forall_mem_cons.1 hrest).2
      exact ⟨List.forall_mem_cons.2 ⟨List.forall_mem_singleton.1 hitem, hothers⟩, hleft⟩

/-- **An expression that parsing returns has a printed form.** -/
theorem sourced_of_parseChars {text : List Char} (h : parseChars text = .ok e) : e.Sourced := by
  rw [parseChars] at h
  split at h
  · cases h
  · rename_i tokens htokens
    obtain ⟨items, rest, hitems, hof, -⟩ := ofTokens_eq_ok_iff.1 h
    exact .ofItems (hitems.sourced trivial (Token.ofCharsAt_sound htokens)).1 hof

/-- **Parsing returns exactly the expressions that have a printed form.** -/
theorem exists_parse_iff (e : Expr) : (∃ text, parse text = .ok e) ↔ e.Sourced :=
  ⟨fun ⟨_, h⟩ => sourced_of_parseChars h,
    fun h => ⟨e.source, (parse_eq_parseChars e).trans (parseChars_spaced h.1 h.2)⟩⟩

/-- **Parsing undoes printing.** -/
theorem parse_source {e : Expr} (hproper : e.Every Proper) (hsigned : e.Every Signed) :
    parse e.source = .ok e := by
  rw [parse_eq_parseChars]
  exact parseChars_spaced hproper hsigned

/-- Two assignments in a row, a sum as a factor, a sign before an operand and behind an operator,
and a disjunction before a conjunction. -/
def nested : Expr :=
  .sequence [
    .assign "x" none (.assign "y" (some .add)
      (.binary .mul (.binary .add (.lit (.num 1)) (.lit (.num 2))) (.unary .neg (.var "z")))),
    .and (.unary .not (.or (.var "a") (.lit (.bool true)))) (.lit (.str "\"quoted\""))]

example : nested.source =
    "$x = $y += ( 1 + 2 ) * - $z ; ! ( $a || true ) && \"\\\"quoted\\\"\"" := by
  decide +kernel

theorem parse_source_nested :
    nested.Every Proper ∧ nested.Every Signed ∧ parse nested.source = .ok nested := by
  have hname : ∀ name ∈ ["x", "y", "z", "a"], IsName name := by
    intro name hname
    simp only [List.mem_cons, List.not_mem_nil, or_false] at hname
    rcases hname with rfl | rfl | rfl | rfl <;> exact ⟨by decide, by decide⟩
  have hone : Number.isNegative 1 = false := by decide +kernel
  have htwo : Number.isNegative 2 = false := by decide +kernel
  have hproper : nested.Every Proper := by
    simp [nested, Every, EveryItem, Proper, hname, hone, htwo]
  have hsigned : nested.Every Signed := by
    simp [nested, Every, EveryItem, Signed]
  exact ⟨hproper, hsigned, parse_source hproper hsigned⟩

/-- The remainder has no assignment: the tree of one is well made, but no text stands for it. -/
theorem remainder_assignment_unreadable :
    (Expr.assign "x" (some .rem) (.lit (.num 1))).Every Proper ∧
      ∀ text, parse text ≠ .ok (.assign "x" (some .rem) (.lit (.num 1))) := by
  refine ⟨⟨⟨by decide, by decide⟩, (by decide +kernel : Number.isNegative 1 = false)⟩, ?_⟩
  intro text htext
  have hsigned : Signed (.assign "x" (some .rem) (.lit (.num 1))) :=
    (sourced_of_parseChars htext).2.1
  simp [Signed] at hsigned

end Expr

end Gamebook
