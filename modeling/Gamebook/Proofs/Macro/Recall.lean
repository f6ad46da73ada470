/-
**A remembered value is recalled.**

A value is kept as the source of a literal, and recalled by a statement that is put together from
the name of its variable and that source.  The statement is read as an assignment of the same value,
whatever is in it; but a zero has lost its sign, which no text shows.

Main definitions:

* `Value.settled` — a value as it comes back;
* `Value.reading` — the expression that the source of a value is read as.

Main results:

* `Value.lexes_source` — **the source of a value is read as one expression**, a sign before it
  included;
* `Value.eval_reading` — whose value is the value, settled;
* `Macro.recallOne_literal` — **a variable is given its remembered value**.
-/

import Gamebook.Macro.Standard
import Gamebook.Proofs.Expr.Source

set_option relaxedAutoImplicit false
set_option autoImplicit false

namespace Gamebook

namespace Value

variable {v : Value} {x : Float}

/-- A value as it comes back: a zero has no sign. -/
def settled : Value → Value
  | num x => if x = -0 then num 0 else num x
  | v => v

/-- The expression that the source of a value is read as: a sign is an operator of its own. -/
def reading : Value → Expr
  | num x =>
      if x = -0 then .lit (num 0)
      else if Number.isNegative x then .unary .neg (.lit (num (-x)))
      else .lit (num x)
  | v => .lit v

/-! ### Numbers with a sign -/

/-- A number with a sign that is no zero is the negation of one without. -/
structure Negates (x : Float) : Prop where
  source : (num x).source = '-' :: (num (-x)).source
  positive : Number.isNegative (-x) = false
  back : -(-x) = x

theorem negates (hs : Number.isNegative x = true) (hzero : x ≠ -0) : Negates x := by
  cases hp : Number.parts? x with
  | some p =>
      have hsign : p.negative = true := (Number.negative_of_parts? hp).trans hs
      have hsome : p.significand ≠ 0 := fun h => hzero (Number.eq_neg_zero hp hsign h)
      refine ⟨Number.text_of_negative hp hsign hsome, ?_, Number.neg_neg_of_parts? hp⟩
      rw [← Number.negative_of_parts? (Number.parts?_neg hp), hsign]
      rfl
  | none =>
      rcases Number.eq_of_parts?_none hp with rfl | rfl | rfl
      · exact absurd hs (by decide +kernel)
      · exact absurd hs (by decide +kernel)
      · exact ⟨by decide +kernel, by decide +kernel, by decide +kernel⟩

theorem head?_number_ne (hs : Number.isNegative x = false) :
    (num x).source.head? ≠ some '=' := by
  cases hp : Number.parts? x with
  | some p =>
      have hplain := Number.plain_text hp ((Number.negative_of_parts? hp).trans hs)
      obtain ⟨c, behind, htext, hc, -⟩ := Token.startsNumber_plain hplain []
      have hsource : (num x).source = c :: behind := htext
      rw [hsource]
      intro hhead
      cases hhead
      cases hc
  | none =>
      rcases Number.eq_of_parts?_none hp with rfl | rfl | rfl
      · decide +kernel
      · decide +kernel
      · decide +kernel

/-! ### The source of a value -/

/-- The source of a value that one token stands for. -/
theorem lexes_token (kind : TokenKind) (hk : kind.Writable) :
    Token.Lexes kind.written [kind, .eof] := by
  have hlexes := Token.Lexes.token (.of_gap hk (.inl rfl)) .nil
  rwa [List.append_nil] at hlexes

/-- **The source of a value is read as one expression.** -/
theorem lexes_source (hv : v ≠ .undefined) : Token.Lexes v.source (v.reading.tokens ++ [.eof]) := by
  cases v with
  | bool b => exact lexes_token (.truth b) trivial
  | str s => exact lexes_token (.str s) trivial
  | undefined => exact absurd rfl hv
  | num x =>
      rw [reading]
      split
      · rename_i hzero
        subst hzero
        have hsource : (num (-0)).source = (TokenKind.number 0).written := by decide +kernel
        have hsign : Number.isNegative 0 = false := by decide +kernel
        exact hsource ▸ lexes_token (.number 0) hsign
      · rename_i hzero
        split
        · rename_i hsign
          obtain ⟨hsource, hpositive, -⟩ := negates hsign hzero
          rw [hsource]
          have hminus : Token.Scans TokenKind.minus.written (num (-x)).source .minus :=
            .sign rfl (head?_number_ne hpositive)
          exact .token hminus (lexes_token (.number (-x)) hpositive)
        · rename_i hsign
          exact lexes_token (.number x) (Bool.eq_false_iff.2 hsign)

theorem eval_reading (v : Value) (vars : Variables) : v.reading.eval vars = (v.settled, vars) := by
  cases v with
  | bool b => rfl
  | str s => rfl
  | undefined => rfl
  | num x =>
      rw [reading, settled]
      split
      · rfl
      · rename_i hzero
        split
        · rename_i hsign
          rw [Expr.eval, Expr.eval]
          change (Value.num (-(-x)), vars) = _
          rw [(negates hsign hzero).back]
        · rfl

theorem reading_proper (hv : v ≠ .undefined) :
    v.reading.Every Expr.Proper ∧ v.reading.Every Expr.Signed := by
  cases v with
  | bool b => exact ⟨trivial, trivial⟩
  | str s => exact ⟨trivial, trivial⟩
  | undefined => exact absurd rfl hv
  | num x =>
      rw [reading]
      split
      · exact ⟨(by decide +kernel : Number.isNegative 0 = false), trivial⟩
      · rename_i hzero
        split
        · rename_i hsign
          exact ⟨⟨trivial, (negates hsign hzero).positive⟩, ⟨trivial, trivial⟩⟩
        · rename_i hsign
          exact ⟨(Bool.eq_false_iff.2 hsign : Number.isNegative x = false), trivial⟩

/-- No source of a value begins with an equals sign. -/
theorem head?_source_ne (v : Value) : v.source.head? ≠ some '=' := by
  cases v with
  | bool b => cases b <;> decide
  | str s =>
      have hsource : (str s).source = '"' :: (s.toList.flatMap literalChar ++ ['"']) :=
        String.toList_ofList
      rw [hsource]
      exact fun h => absurd (Option.some.inj h) (by decide)
  | undefined => decide
  | num x =>
      by_cases hzero : x = -0
      · subst hzero
        decide +kernel
      · by_cases hsign : Number.isNegative x = true
        · rw [(negates hsign hzero).source]
          exact fun h => absurd (Option.some.inj h) (by decide)
        · exact head?_number_ne (Bool.eq_false_iff.2 hsign)

/-- The expression stands as it is behind an assignment. -/
theorem within_reading (v : Value) : v.reading.within 2 = v.reading.tokens := by
  cases v with
  | num x =>
      rw [reading]
      split
      · rfl
      · split <;> rfl
  | _ => rfl

theorem literal?_eq (hv : v ≠ .undefined) : v.literal? = some (String.ofList v.source) := by
  cases v with
  | undefined => exact absurd rfl hv
  | _ => simp [source, literal?]

end Value

namespace Macro

variable {name : String} {v : Value}

/-- The statement that recalls a value is read as an assignment. -/
theorem parse_recallStatement (hname : IsName name) (hv : v ≠ .undefined) :
    Expr.parseChars (recallStatement name (String.ofList v.source)).toList =
      .ok (.assign name none v.reading) := by
  have hstatement : (recallStatement name (String.ofList v.source)).toList =
      (TokenKind.var name).written ++ (TokenKind.eq.written ++ v.source) := by
    simp [recallStatement, TokenKind.written]
  have htokens : (Expr.assign name none v.reading).tokens ++ [.eof] =
      .var name :: .eq :: (v.reading.tokens ++ [.eof]) := by
    rw [← v.within_reading]
    rfl
  obtain ⟨hproper, hsigned⟩ := Value.reading_proper hv
  rw [hstatement]
  refine Expr.parseChars_of_lexes ?_ ⟨hname, hproper⟩ ⟨List.mem_cons_self, hsigned⟩
  rw [htokens]
  have hsource := Value.lexes_source hv
  exact .token (.var hname rfl) (.token (.sign rfl v.head?_source_ne) hsource)

/-- The statement that recalls a value gives it to its variable, settled. -/
theorem evaluate_recallStatement (hname : IsName name) {literal : String}
    (hv : v.literal? = some literal) (vars : Variables) :
    Expr.evaluateChars (recallStatement name literal).toList vars =
      .ok (v.settled, vars.set name v.settled) := by
  have hsome : v ≠ .undefined := by
    rintro rfl
    cases hv
  rw [Value.literal?_eq hsome] at hv
  cases hv
  rw [Expr.evaluateChars, parse_recallStatement hname hsome]
  simp only [Expr.eval, Value.eval_reading]

/-- **A variable is given its remembered value**, settled, and nothing else happens. -/
theorem recallOne_literal (hname : IsName name) {literal : String}
    (hv : v.literal? = some literal) (vars : Variables) :
    recallOne vars name literal = vars.set name v.settled := by
  rw [recallOne, Expr.evaluate, evaluate_recallStatement hname hv]

end Macro

end Gamebook
