/-
**The names that an expression mentions.**

An expression reads variables and assigns to them by name, and both can stand anywhere in it.
Which assignments are run depends on the values: `and` and `or` may leave their right operand out.
Where evaluation looks at the variables, and where it changes them, can still be told from the
names alone.

Main definitions:

* `Expr.names`, `Expr.targets` — the names that an expression mentions, and those it assigns to;
* `Variables.Coupled` — a relation of two states of the variables that assignments to some names
  keep;
* `Variables.Changes` — what assignments to some names can change.

Main results:

* `Expr.eval_keeps` — evaluation keeps what each of its assignments keeps;
* `Expr.eval_coupled` — **coupled variables give one value and stay coupled**;
* `Expr.eval_changes` — **evaluation changes nothing but the targets of assignments**;
* `Expr.eval_mentioned` — evaluation depends on and changes only the names it mentions.
-/

import Gamebook.Expr.Eval

set_option relaxedAutoImplicit false
set_option autoImplicit false

namespace Gamebook

namespace Expr

/-! ### Names -/

mutual

/-- The names that an expression mentions. -/
def names : Expr → List String
  | .lit _ => []
  | .var name => [name]
  | .unary _ operand => names operand
  | .binary _ left right => names left ++ names right
  | .and left right => names left ++ names right
  | .or left right => names left ++ names right
  | .assign name _ value => name :: names value
  | .sequence items => itemNames items

/-- The names that the items of a sequence mention. -/
def itemNames : List Expr → List String
  | [] => []
  | item :: items => names item ++ itemNames items

end

mutual

/-- The names that an expression assigns to. -/
def targets : Expr → List String
  | .lit _ | .var _ => []
  | .unary _ operand => targets operand
  | .binary _ left right => targets left ++ targets right
  | .and left right => targets left ++ targets right
  | .or left right => targets left ++ targets right
  | .assign name _ value => name :: targets value
  | .sequence items => itemTargets items

/-- The names that the items of a sequence assign to. -/
def itemTargets : List Expr → List String
  | [] => []
  | item :: items => targets item ++ itemTargets items

end

end Expr

namespace Variables

variable {before after left right : Variables} {names others : List String} {name : String}

/-! ### What assignments keep -/

/-- Assignments to some names keep a property of the variables. -/
def Keeps (names : List String) (p : Variables → Prop) : Prop :=
  ∀ name ∈ names, ∀ value vars, p vars → p (vars.set name value)

theorem Keeps.mono {p : Variables → Prop} (h : Keeps others p) (hsub : names ⊆ others) :
    Keeps names p := fun name hname => h name (hsub hname)

/-- What assignments to some names can change: no other variable, no action followed; a variable
that has a value keeps having one; and without a name nothing at all. -/
structure Changes (names : List String) (before after : Variables) : Prop where
  untouched : ∀ name, name ∉ names → after.values.get? name = before.values.get? name
  clicked : after.clicked = before.clicked
  lasting : ∀ name, before.contains name → after.contains name
  nothing : names = [] → after = before

theorem Changes.refl (names : List String) (vars : Variables) : Changes names vars vars :=
  ⟨fun _ _ => rfl, rfl, fun _ h => h, fun _ => rfl⟩

theorem contains_set (vars : Variables) (name other : String) (value : Value) :
    (vars.set name value).contains other = (other == name || vars.contains other) := by
  rw [contains, Dict.contains, set, Dict.get?_insert]
  by_cases h : other = name
  · rw [if_pos h, beq_iff_eq.2 h]
    rfl
  · rw [if_neg h, beq_eq_false_iff_ne.2 h]
    rfl

theorem keeps_changes (names : List String) (before : Variables) :
    Keeps names (Changes names before) := by
  intro name hname value after h
  refine ⟨fun other hother => ?_, h.clicked, fun other hheld => ?_, fun hnil => ?_⟩
  · have hne : other ≠ name := fun heq => hother (heq ▸ hname)
    rw [set, Dict.get?_insert, if_neg hne]
    exact h.untouched other hother
  · rw [contains_set, h.lasting other hheld, Bool.or_true]
  · exact absurd (hnil ▸ hname) List.not_mem_nil

/-! ### Two states of the variables -/

/-- A relation of two states of the variables in which some names have one value, and which stays
when one of these names is given a value in both. -/
structure Coupled (names : List String) (r : Variables → Variables → Prop) : Prop where
  get : ∀ {left right}, r left right → ∀ name ∈ names, left.get name = right.get name
  set : ∀ {left right}, r left right → ∀ name ∈ names, ∀ value,
    r (left.set name value) (right.set name value)

theorem Coupled.mono {r : Variables → Variables → Prop} (h : Coupled others r)
    (hsub : names ⊆ others) : Coupled names r :=
  ⟨fun hr name hname => h.get hr name (hsub hname),
    fun hr name hname => h.set hr name (hsub hname)⟩

/-- Two states of the variables give some names one value. -/
def AgreeOn (names : List String) (left right : Variables) : Prop :=
  ∀ name ∈ names, left.get name = right.get name

/-- Two states of the variables have values under the same ones of some names. -/
def HoldAlike (names : List String) (left right : Variables) : Prop :=
  ∀ name ∈ names, left.contains name = right.contains name

theorem AgreeOn.set (h : AgreeOn names left right) (name : String) (value : Value) :
    AgreeOn names (left.set name value) (right.set name value) := by
  intro other hother
  rw [get_set, get_set, h other hother]

theorem HoldAlike.set (h : HoldAlike names left right) (name : String) (value : Value) :
    HoldAlike names (left.set name value) (right.set name value) := by
  intro other hother
  rw [contains_set, contains_set, h other hother]

theorem coupled_agreeOn (names : List String) : Coupled names (AgreeOn names) :=
  ⟨fun h => h, fun h name _ value => h.set name value⟩

theorem coupled_alike (names : List String) :
    Coupled names fun left right => AgreeOn names left right ∧ HoldAlike names left right :=
  ⟨fun h => h.1, fun h name _ value => ⟨h.1.set name value, h.2.set name value⟩⟩

end Variables

namespace Expr

open Variables

variable {vars left right : Variables}

/-! ### One evaluation -/

mutual

/-- Evaluation keeps what each of its assignments keeps. -/
theorem eval_keeps {p : Variables → Prop} : ∀ (e : Expr) {vars : Variables},
    Keeps e.targets p → p vars → p (e.eval vars).2
  | .lit _, _, _, h => h
  | .var _, _, _, h => h
  | .unary _ operand, _, hk, h => eval_keeps operand hk h
  | .binary _ left right, _, hk, h =>
      eval_keeps right (hk.mono (List.subset_append_right _ _))
        (eval_keeps left (hk.mono (List.subset_append_left _ _)) h)
  | .and left right, _, hk, h => by
      have hleft := eval_keeps left (hk.mono (List.subset_append_left _ _)) h
      rw [eval]
      dsimp only
      split
      · exact eval_keeps right (hk.mono (List.subset_append_right _ _)) hleft
      · exact hleft
  | .or left right, _, hk, h => by
      have hleft := eval_keeps left (hk.mono (List.subset_append_left _ _)) h
      rw [eval]
      dsimp only
      split
      · exact hleft
      · exact eval_keeps right (hk.mono (List.subset_append_right _ _)) hleft
  | .assign name _ value, _, hk, h =>
      hk name List.mem_cons_self _ _ (eval_keeps value (hk.mono (List.subset_cons_self _ _)) h)
  | .sequence items, _, hk, h => evalItems_keeps items .undefined hk h

theorem evalItems_keeps {p : Variables → Prop} : ∀ (items : List Expr) (value : Value)
    {vars : Variables}, Keeps (itemTargets items) p → p vars → p (evalItems items value vars).2
  | [], _, _, _, h => h
  | item :: items, _, _, hk, h =>
      evalItems_keeps items _ (hk.mono (List.subset_append_right _ _))
        (eval_keeps item (hk.mono (List.subset_append_left _ _)) h)

end

/-- **Evaluation changes nothing but the targets of assignments.** -/
theorem eval_changes (e : Expr) (vars : Variables) : Changes e.targets vars (e.eval vars).2 :=
  eval_keeps e (keeps_changes e.targets vars) (.refl _ vars)

/-! ### Two evaluations side by side -/

section Coupled

variable {r : Variables → Variables → Prop}

/-- In both states an expression has one value, and the states afterwards are related. -/
structure EvalAlike (r : Variables → Variables → Prop) (left right : Value × Variables) : Prop where
  value : left.1 = right.1
  related : r left.2 right.2

mutual

/-- **Coupled variables give one value and stay coupled.** -/
theorem eval_coupled : ∀ (e : Expr) {left right : Variables}, Coupled e.names r → r left right →
    EvalAlike r (e.eval left) (e.eval right)
  | .lit _, _, _, _, h => ⟨rfl, h⟩
  | .var name, _, _, hc, h => ⟨hc.get h name List.mem_cons_self, h⟩
  | .unary op operand, _, _, hc, h => by
      have ho := eval_coupled operand hc h
      exact ⟨congrArg op.apply ho.value, ho.related⟩
  | .binary op first second, _, _, hc, h => by
      have hf := eval_coupled first (hc.mono (List.subset_append_left _ _)) h
      have hs := eval_coupled second (hc.mono (List.subset_append_right _ _)) hf.related
      refine ⟨?_, hs.related⟩
      rw [eval, eval]
      dsimp only
      rw [hf.value, hs.value]
  | .and first second, _, _, hc, h => by
      have hf := eval_coupled first (hc.mono (List.subset_append_left _ _)) h
      -- the value decides in both states alike whether the second operand is run
      rw [eval, eval]
      dsimp only
      rw [hf.value]
      split
      · exact eval_coupled second (hc.mono (List.subset_append_right _ _)) hf.related
      · exact ⟨rfl, hf.related⟩
  | .or first second, _, _, hc, h => by
      have hf := eval_coupled first (hc.mono (List.subset_append_left _ _)) h
      rw [eval, eval]
      dsimp only
      rw [hf.value]
      split
      · exact ⟨rfl, hf.related⟩
      · exact eval_coupled second (hc.mono (List.subset_append_right _ _)) hf.related
  | .assign name op value, _, _, hc, h => by
      have hv := eval_coupled value (hc.mono (List.subset_cons_self _ _)) h
      have hget := hc.get hv.related name List.mem_cons_self
      -- what is assigned is one value in both states, so the assignment keeps them related
      rw [eval, eval]
      dsimp only
      rw [hv.value, hget]
      exact ⟨rfl, hc.set hv.related name List.mem_cons_self _⟩
  | .sequence items, _, _, hc, h => evalItems_coupled items .undefined hc h

theorem evalItems_coupled : ∀ (items : List Expr) (value : Value) {left right : Variables},
    Coupled (itemNames items) r → r left right →
      EvalAlike r (evalItems items value left) (evalItems items value right)
  | [], _, _, _, _, h => ⟨rfl, h⟩
  | item :: items, _, _, _, hc, h => by
      have hi := eval_coupled item (hc.mono (List.subset_append_left _ _)) h
      rw [evalItems, evalItems]
      dsimp only
      rw [hi.value]
      exact evalItems_coupled items _ (hc.mono (List.subset_append_right _ _)) hi.related

end

end Coupled

/-- **Evaluation depends on and changes only the names that an expression mentions.**  Variables
that agree on them give the expression one value, and agree on them afterwards, also in which of
them have a value if they did before; and each evaluation changes nothing but the targets of
assignments. -/
theorem eval_mentioned (e : Expr) (left right : Variables) (hagree : AgreeOn e.names left right) :
    (e.eval left).1 = (e.eval right).1 ∧
      AgreeOn e.names (e.eval left).2 (e.eval right).2 ∧
      (HoldAlike e.names left right → HoldAlike e.names (e.eval left).2 (e.eval right).2) ∧
      Changes e.targets left (e.eval left).2 ∧ Changes e.targets right (e.eval right).2 := by
  have halike := eval_coupled e (coupled_agreeOn e.names) hagree
  refine ⟨halike.value, halike.related, fun hheld => ?_, e.eval_changes left,
    e.eval_changes right⟩
  exact (eval_coupled e (coupled_alike e.names) ⟨hagree, hheld⟩).related.2

/-- A greeting that is put together from a name, and one assignment that a condition leaves out
and one that it does not. -/
def greeting : Expr :=
  .sequence [
    .assign "greeting" none (.binary .add (.var "name") (.lit (.str "!"))),
    .and (.var "met") (.assign "lost" none (.lit (.bool true))),
    .or (.var "met") (.assign "met" none (.lit (.bool true)))]

/-- A name and some gold. -/
def withGold : Variables := (Variables.set {} "name" (.str "Ada")).set "gold" (.bool true)

/-- The same name, no gold, and a link that has been clicked. -/
def withClick : Variables := (Variables.set {} "name" (.str "Ada")).click "Wave"

theorem eval_mentioned_greeting : AgreeOn greeting.names withGold withClick ∧
    (greeting.eval withGold).1 = (greeting.eval withClick).1 ∧
      (greeting.eval withGold).2.get "greeting" = .str "Ada!" ∧
      (greeting.eval withGold).2.contains "lost" = false ∧
      (greeting.eval withGold).2.get "gold" = .bool true ∧
      AgreeOn greeting.names (greeting.eval withGold).2 (greeting.eval withClick).2 := by
  have hagree : AgreeOn greeting.names withGold withClick := by
    unfold AgreeOn
    decide +kernel
  have h := eval_mentioned greeting _ _ hagree
  exact ⟨hagree, h.1, by decide +kernel, by decide +kernel, by decide +kernel, h.2.1⟩

end Expr

end Gamebook
