/-
**The names of variables.**

A source can tell only names of ASCII word characters, so evaluation gives values to no others.  The
text of a call, in which `remember` looks for a name, can hold any letters behind the sign of a
variable; but a variable of such a name has no value.

Main definitions:

* `Variables.Named` — every variable with a value has a name that a source can tell.

Main results:

* `Expr.named_eval`, `Expr.named_evaluateChars` — **evaluation gives values to no others**;
* `Variables.Named.isName_of_get` — a variable that is not undefined has such a name.
-/

import Gamebook.Expr.Eval
import Gamebook.Proofs.Expr.Range

set_option relaxedAutoImplicit false
set_option autoImplicit false

namespace Gamebook

namespace Variables

variable {vars : Variables} {name : String}

/-- Every variable with a value has a name that a source can tell. -/
def Named (vars : Variables) : Prop :=
  ∀ name value, vars.values.get? name = some value → IsName name

theorem named_empty : Named {} := fun _ _ h => by cases h

theorem Named.set (h : vars.Named) (hname : IsName name) (value : Value) :
    (vars.set name value).Named := by
  intro other held hget
  rw [Variables.set, Dict.get?_insert] at hget
  split at hget
  · rename_i heq
    exact heq ▸ hname
  · exact h other held hget

theorem Named.click (h : vars.Named) (title : String) : (vars.click title).Named := h

/-- A variable that is not undefined has a name that a source can tell. -/
theorem Named.isName_of_get (h : vars.Named) (hget : vars.get name ≠ .undefined) :
    IsName name := by
  rw [get] at hget
  cases hvalue : vars.values.get? name with
  | none => exact absurd (by rw [hvalue]; rfl) hget
  | some value => exact h name value hvalue

end Variables

namespace Expr

mutual

/-- **Evaluation gives values to no variables** but those that a source can tell. -/
theorem named_eval : ∀ (e : Expr) {vars : Variables}, e.Every Proper → vars.Named →
    (e.eval vars).2.Named
  | .lit _, _, _, h => h
  | .var _, _, _, h => h
  | .unary _ operand, _, hp, h => named_eval operand hp.2 h
  | .binary _ left right, _, hp, h => named_eval right hp.2.2 (named_eval left hp.2.1 h)
  | .and left right, _, hp, h => by
      rw [eval]
      dsimp only
      split
      · exact named_eval right hp.2.2 (named_eval left hp.2.1 h)
      · exact named_eval left hp.2.1 h
  | .or left right, _, hp, h => by
      rw [eval]
      dsimp only
      split
      · exact named_eval left hp.2.1 h
      · exact named_eval right hp.2.2 (named_eval left hp.2.1 h)
  | .assign _ _ value, _, hp, h => (named_eval value hp.2 h).set hp.1 _
  | .sequence items, _, hp, h => named_evalItems items hp.2 .undefined h

theorem named_evalItems : ∀ (items : List Expr) {vars : Variables}, EveryItem Proper items →
    ∀ value, vars.Named → (evalItems items value vars).2.Named
  | [], _, _, _, h => h
  | item :: items, _, hp, _, h => named_evalItems items hp.2 _ (named_eval item hp.1 h)

end

/-- A source leaves the variables named, whatever it is. -/
theorem named_evaluateChars {source : List Char} {vars vars' : Variables} {v : Value}
    (h : vars.Named) (he : evaluateChars source vars = .ok (v, vars')) : vars'.Named := by
  rw [evaluateChars] at he
  split at he
  · cases he
  · rename_i e hparse
    have hvars : (e.eval vars).2 = vars' := congrArg Prod.snd (Except.ok.inj he)
    exact hvars ▸ named_eval e (sourced_of_parseChars hparse).1 h

end Expr

end Gamebook
