/-
**Remembering and recalling.**

A call of `remember` keeps the value of a variable as a literal, under the name of the variable.  A
reading starts with all that was kept: each kept value gives one variable its value, and different
keys belong to different variables, so the order in which they are recalled does not matter.

Main definitions:

* `Variables.OfReading` — the variables of a reading: from none, by expressions and actions;
* `Remembered` — a value that a call of `remember` has kept, in some reading;
* `Macro.recallPairs` — kept values recalled in some order;
* `Macros.SeededByRemember` — macros of which `remember` alone gives a reading its variables.

Main results:

* `Remembered.spec` — **what is kept is a literal under the name of a variable**;
* `Macro.recallPairs_recalls` — what recalling does to each variable;
* `Macro.recallPairs_perm` — **the order of recalling does not matter**;
* `Macros.SeededByRemember.initialVariables_eq` — the variables that a reading starts with.
-/

import Gamebook.Proofs.Expr.Names
import Gamebook.Proofs.Macro.Recall
import Gamebook.Proofs.Story.Showing

set_option relaxedAutoImplicit false
set_option autoImplicit false

namespace Gamebook

/-! ### The variables of a reading -/

/-- The variables of a reading: none at first, then what expressions leave and actions followed. -/
inductive Variables.OfReading : Variables → Prop
  | nothing : OfReading {}
  | evaluate {vars vars' : Variables} {source : List Char} {v : Value} (h : OfReading vars)
      (he : Expr.evaluateChars source vars = .ok (v, vars')) : OfReading vars'
  | click {vars : Variables} (h : OfReading vars) (title : String) : OfReading (vars.click title)

theorem Variables.OfReading.named {vars : Variables} (h : vars.OfReading) : vars.Named := by
  induction h with
  | nothing => exact Variables.named_empty
  | evaluate _ he ih => exact Expr.named_evaluateChars ih he
  | click _ title ih => exact ih.click title

/-! ### Calls of `remember` -/

/-- A call of `remember` in some reading has gone well: it found the variable `name`, of the value
`v`, and kept it as `cookie` under the name behind `start`. -/
structure Remembered (start name : String) (v : Value) (cookie : Cookie) : Prop where
  run : ∃ (ctx : Context) (c : MacroCall) (before after : Scanner),
    ctx.setting.keyStart = start ∧ before.page.vars.OfReading ∧
      Macro.remember.run ctx c before = (after, none) ∧
      Expr.firstVariable? c.arguments = some name.toList ∧ after.page.vars.get name = v ∧
      after.page.jar.get? (start ++ name) = some cookie

/-- **What is kept is a literal under the name of a variable.** -/
theorem Remembered.spec {start name : String} {v : Value} {cookie : Cookie}
    (h : Remembered start name v cookie) : IsName name ∧ v.literal? = some cookie.value := by
  obtain ⟨ctx, c, before, after, rfl, hreading, hrun, hname, rfl, hcookie⟩ := h.run
  obtain ⟨v, page, found, literal, heval, hfound, hliteral, rfl⟩ := Macro.remember_run hrun
  rw [hname] at hfound
  cases hfound
  rw [String.ofList_toList] at hliteral hcookie
  have hkept : cookie.value = literal := by
    rw [Jar.keep, Dict.get?_insert_self] at hcookie
    cases hcookie
    rfl
  have hvars : page.vars.Named := by
    rw [Page.evaluate] at heval
    split at heval
    · cases heval
    · rename_i v' vars he
      cases heval
      exact Expr.named_evaluateChars hreading.named he
  have hdefined : page.vars.get name ≠ .undefined := by
    intro hundefined
    rw [hundefined] at hliteral
    cases hliteral
  exact ⟨hvars.isName_of_get hdefined, hkept ▸ hliteral⟩

/-! ### Recalling -/

namespace Macro

variable {start : String} {pairs : List (String × String)} {vars : Variables}

/-- Gives variables their kept values, in the order of the list. -/
def recallPairs (start : String) (pairs : List (String × String)) (vars : Variables) : Variables :=
  pairs.foldl (fun vars pair =>
    recallOne vars (String.ofList (pair.1.toList.drop start.length)) pair.2) vars

theorem recallAll_eq (prelude : Prelude) (vars : Variables) :
    recallAll prelude vars =
      recallPairs prelude.keyStart (prelude.jar.liveUnder prelude.now prelude.keyStart) vars := rfl

/-- A kept value that can be recalled: a literal, under a name behind `start`. -/
def Recallable (start : String) (pair : String × String) : Prop :=
  ∃ (name : String) (v : Value), pair.1 = start ++ name ∧ IsName name ∧ v.literal? = some pair.2

theorem drop_key (start name : String) :
    String.ofList ((start ++ name).toList.drop start.length) = name := by
  rw [String.toList_append, ← String.length_toList, List.drop_left, String.ofList_toList]

/-- What recalling does to each variable: the named ones get their values, and all others stay. -/
structure Recalls (start : String) (pairs : List (String × String)) (vars vars' : Variables) :
    Prop where
  clicked : vars'.clicked = vars.clicked
  given : ∀ (name : String) (v : Value) (literal : String), (start ++ name, literal) ∈ pairs →
    v.literal? = some literal → vars'.values.get? name = some v.settled
  others : ∀ name, start ++ name ∉ pairs.map Prod.fst →
    vars'.values.get? name = vars.values.get? name

theorem recallPairs_recalls (hnodup : (pairs.map Prod.fst).Nodup)
    (hpairs : ∀ pair ∈ pairs, Recallable start pair) (vars : Variables) :
    Recalls start pairs vars (recallPairs start pairs vars) := by
  induction pairs generalizing vars with
  | nil => exact ⟨rfl, nofun, fun _ _ => rfl⟩
  | cons pair pairs ih =>
      obtain ⟨⟨name, v, hkey, hname, hv⟩, hrest⟩ := List.forall_mem_cons.1 hpairs
      obtain ⟨hnew, hrestnodup⟩ := List.nodup_cons.1 hnodup
      obtain ⟨key, literal⟩ := pair
      dsimp only at hkey hv
      subst hkey
      have hone : recallPairs start ((start ++ name, literal) :: pairs) vars =
          recallPairs start pairs (vars.set name v.settled) := by
        rw [recallPairs, List.foldl_cons, drop_key, recallOne_literal hname hv]
        rfl
      rw [hone]
      obtain ⟨hclicked, hgiven, hothers⟩ := ih hrestnodup hrest (vars.set name v.settled)
      refine ⟨hclicked, fun other w value hin hw => ?_, fun other hother => ?_⟩
      · rcases List.mem_cons.1 hin with heq | hin
        · obtain ⟨hkey, rfl⟩ := Prod.mk.inj heq
          obtain rfl := (String.append_right_inj start).1 hkey
          -- the literal is that of two values, which settle to the same one
          have hsame : vars.set other w.settled = vars.set other v.settled := by
            rw [← recallOne_literal hname hw, ← recallOne_literal hname hv]
          rw [hothers other hnew, ← hsame, Variables.set, Dict.get?_insert_self]
        · exact hgiven other w value hin hw
      · rw [List.map_cons, List.mem_cons, not_or] at hother
        rw [hothers other hother.2, Variables.set, Dict.get?_insert, if_neg]
        rintro rfl
        exact hother.1 rfl

/-- There is one way to recall. -/
theorem Recalls.unique {a b : Variables} (hpairs : ∀ pair ∈ pairs, Recallable start pair)
    (ha : Recalls start pairs vars a) (hb : Recalls start pairs vars b) : a = b := by
  have hvalues : a.values = b.values := by
    refine Dict.ext_get? _ _ fun name => ?_
    by_cases hin : start ++ name ∈ pairs.map Prod.fst
    · obtain ⟨⟨key, literal⟩, hpair, rfl⟩ := List.mem_map.1 hin
      obtain ⟨-, v, -, -, hv⟩ := hpairs _ hpair
      rw [ha.given name v literal hpair hv, hb.given name v literal hpair hv]
    · rw [ha.others name hin, hb.others name hin]
  have hclicked : a.clicked = b.clicked := ha.clicked.trans hb.clicked.symm
  cases a
  cases b
  cases hvalues
  cases hclicked
  rfl

/-- **The order of recalling does not matter.** -/
theorem recallPairs_perm {other : List (String × String)} (hperm : other.Perm pairs)
    (hnodup : (pairs.map Prod.fst).Nodup) (hpairs : ∀ pair ∈ pairs, Recallable start pair) :
    recallPairs start other vars = recallPairs start pairs vars := by
  have hother := recallPairs_recalls ((hperm.map Prod.fst).nodup_iff.2 hnodup)
    (fun pair hin => hpairs pair (hperm.mem_iff.1 hin)) vars
  refine Recalls.unique hpairs ⟨hother.clicked, ?_, ?_⟩ (recallPairs_recalls hnodup hpairs vars)
  · exact fun name v literal hin => hother.given name v literal (hperm.mem_iff.2 hin)
  · exact fun name hin => hother.others name fun h => hin ((hperm.map _).mem_iff.1 h)

end Macro

/-! ### The start of a reading -/

/-- Of these macros `remember` alone gives a reading variables to start with. -/
structure Macros.SeededByRemember (macros : Macros) : Prop where
  remember : macros.get? "remember" = some Macro.remember
  others : ∀ name m, macros.get? name = some m → name ≠ "remember" →
    ∀ prelude vars, m.prepare prelude vars = .ok vars

theorem Macros.standard_seededByRemember : Macros.standard.SeededByRemember where
  remember := rfl
  others := by
    intro name m hget hne prelude vars
    have hlisted := Dict.mem_of_get?_ofList hget
    simp only [List.mem_cons, Prod.mk.injEq, List.not_mem_nil, or_false] at hlisted
    rcases hlisted with ⟨rfl, rfl⟩ | ⟨rfl, rfl⟩ | ⟨rfl, rfl⟩ | ⟨rfl, rfl⟩ | ⟨rfl, rfl⟩ |
      ⟨rfl, rfl⟩ | ⟨rfl, rfl⟩ | ⟨rfl, rfl⟩ | ⟨rfl, rfl⟩ | ⟨rfl, rfl⟩ | ⟨rfl, rfl⟩ | ⟨rfl, rfl⟩
    case inr.inr.inr.inr.inr.inl => exact absurd rfl hne
    all_goals rfl

/-- A fold of which one step alone does something. -/
theorem foldl_one {α β : Type} {f : α → β → α} {before behind : List β} {b : β}
    (hbefore : ∀ a, ∀ x ∈ before, f a x = a) (hbehind : ∀ a, ∀ x ∈ behind, f a x = a) (a : α) :
    (before ++ b :: behind).foldl f a = f a b := by
  have hstill : ∀ xs : List β, (∀ a, ∀ x ∈ xs, f a x = a) → ∀ a, xs.foldl f a = a := by
    intro xs hxs a
    rw [List.foldl_ext f (fun a _ => a) a hxs, List.foldl_fixed]
  rw [List.foldl_append, hstill before hbefore, List.foldl_cons, hstill behind hbehind]

theorem Macros.SeededByRemember.initialVariables_eq {macros : Macros}
    (h : macros.SeededByRemember) (prelude : Prelude) :
    macros.initialVariables prelude = Macro.recallAll prelude {} := by
  have hin := (Dict.get?_eq_some_iff _ _ _).1 h.remember
  obtain ⟨before, behind, hentries⟩ := List.append_of_mem hin
  have hascending := macros.ascending
  rw [hentries, List.pairwise_append] at hascending
  obtain ⟨-, hbehind, hbefore⟩ := hascending
  have hother : ∀ entry ∈ macros.entries, entry.1 ≠ "remember" →
      ∀ vars, entry.2.prepare prelude vars = .ok vars := fun entry hentry hne vars =>
    h.others entry.1 entry.2 ((Dict.get?_eq_some_iff _ _ _).2 hentry) hne prelude vars
  rw [Macros.initialVariables]
  rw [hentries] at hother ⊢
  refine foldl_one (fun vars entry hentry => ?_) (fun vars entry hentry => ?_) _
  · have hne := String.ne_of_lt (hbefore entry hentry _ List.mem_cons_self)
    simp only [hother entry (List.mem_append_left _ hentry) hne]
  · have hne := (String.ne_of_lt ((List.pairwise_cons.1 hbehind).1 entry hentry)).symm
    simp only [hother entry (List.mem_append_right _ (List.mem_cons_of_mem _ hentry)) hne]

end Gamebook
