/-
**What a reading keeps was remembered.**

In a reading nothing writes variables but expressions and actions, and nothing writes the jar but
calls of `remember`.  So the current variables are those of a reading, and a jar that held nothing
but remembered values under the keys of a story holds nothing else whatever happens.

Main definitions:

* `Jar.Remembering` — a jar whose values under the keys of a story were all remembered;
* `Bond.remembering` — the bond of renders that only evaluate and remember;
* `Story.Remembering` — a story whose variables and whose jar come from readings.

Main results:

* `Bond.remembering_kept` — **the standard macros only evaluate and remember**;
* `Story.Remembering.act` — every act keeps a story so;
* `Story.remembering_of_reading` — **whatever a reading keeps was remembered**.
-/

import Gamebook.Proofs.Story.Remembering
import Gamebook.Proofs.Story.Sound

set_option relaxedAutoImplicit false
set_option autoImplicit false

namespace Gamebook

namespace Variables.OfReading

variable {vars : Variables}

/-- To recall is to evaluate. -/
theorem recallOne (h : vars.OfReading) (name value : String) :
    (Macro.recallOne vars name value).OfReading := by
  rw [Macro.recallOne]
  split
  · rename_i v vars' he
    exact h.evaluate he
  · exact h

theorem recallPairs (h : vars.OfReading) (start : String) (pairs : List (String × String)) :
    (Macro.recallPairs start pairs vars).OfReading := by
  induction pairs generalizing vars with
  | nil => exact h
  | cons pair pairs ih => exact ih (h.recallOne _ _)

end Variables.OfReading

/-- The values of a jar under the keys that begin with `start` were all remembered. -/
def Jar.Remembering (start : String) (jar : Jar) : Prop :=
  ∀ name cookie, jar.get? (start ++ name) = some cookie → ∃ v, Remembered start name v cookie

theorem Jar.remembering_empty (start : String) : Jar.Remembering start .empty :=
  fun _ _ h => by cases h

/-! ### Renders -/

namespace Bond

variable {start : String} {p q : Page}

/-- What a render does to variables and jar: it leaves them as those of a reading. -/
structure StaysIn (start : String) (p q : Page) : Prop where
  vars : p.vars.OfReading → q.vars.OfReading
  jar : p.vars.OfReading → p.jar.Remembering start → q.jar.Remembering start

/-- Renders that only evaluate and remember, under keys that begin with `start`. -/
def remembering (start : String) : Bond where
  settings σ τ := σ.keyStart = start ∧ τ.keyStart = start
  pages p q := q.store = p.store ∧ q.history = p.history
  later := StaysIn start
  link _ _ := True
  later_refl _ := ⟨id, fun _ => id⟩
  later_trans h h' := ⟨fun hv => h'.vars (h.vars hv), fun hv hj => h'.jar (h.vars hv) (h.jar hv hj)⟩
  link_later _ _ := trivial
  store_eq h := Page.store_eq h
  link_passage _ _ := trivial
  link_external _ _ := trivial

theorem remembering_mindful (start : String) : (remembering start).Mindful where
  history_eq h := h.2
  write vars h he :=
    ⟨⟨h.1, congrArg (History.withVariables · vars) h.2⟩, ⟨fun hv => .evaluate hv he, fun _ => id⟩⟩
  offer _ h _ := ⟨h, ⟨id, fun _ => id⟩, fun _ _ => trivial⟩
  back _ _ _ _ := trivial

/-- A call of `remember` that goes well adds one remembered value. -/
theorem staysIn_of_run {ctx : Context} {c : MacroCall} {before after : Scanner}
    (hrun : Macro.remember.run ctx c before = (after, none)) :
    StaysIn ctx.setting.keyStart before.page after.page := by
  obtain ⟨v, page, name, literal, heval, hname, -, hafter⟩ := Macro.remember_run hrun
  have hpage : page.jar = before.page.jar ∧
      Expr.evaluateChars c.arguments before.page.vars = .ok (v, page.vars) := by
    rw [Page.evaluate] at heval
    split at heval
    · cases heval
    · rename_i v' vars he
      cases heval
      exact ⟨rfl, he⟩
  obtain ⟨hjar, heval⟩ := hpage
  have hvars : after.page.vars = page.vars := by
    rw [hafter]
    rfl
  refine ⟨fun hv => hvars ▸ .evaluate hv heval, fun hv hold other cookie hget => ?_⟩
  by_cases hother : other = String.ofList name
  · refine ⟨after.page.vars.get other, ⟨ctx, c, before, after, rfl, hv, hrun, ?_, rfl, hget⟩⟩
    rw [hname, hother, String.toList_ofList]
  · refine hold other cookie ?_
    rw [hafter] at hget
    change (page.jar.keep _ literal _).get? _ = _ at hget
    rw [Jar.keep, Dict.get?_insert, if_neg, hjar] at hget
    · exact hget
    · exact fun h => hother ((String.append_right_inj _).1 h)

/-- **The standard macros only evaluate and remember.** -/
theorem remembering_kept (start : String) : (remembering start).KeptByMacros Macros.standard := by
  refine (remembering_mindful start).standard_kept ?_
  refine (remembering_mindful start).remember_kept (fun h => h.2.trans h.1.symm)
    (fun _ _ _ h => h) fun {c d call s t q} hs _ hrun => ?_
  exact hs.1 ▸ staysIn_of_run hrun

theorem remembering_nests (start : String) : (remembering start).Nests (remembering start) where
  pages_enter h := h
  link_enter h := h
  pages_leave h := h
  link_leave h := h
  later_leave h := ⟨h.vars, h.jar⟩

end Bond

namespace Story

variable {s t : Story} {title token : String}

theorem remembering_kits (hs : s.Regular) : (Bond.remembering s.keyStart).Kits s.kit s.kit where
  formatters_eq := rfl
  macros_eq := rfl
  maxDepth_eq := rfl
  settings := ⟨rfl, rfl⟩
  formatters f hf := hs.formatters f hf _
  macros := by
    have hkept := Bond.remembering_kept s.keyStart
    rw [← hs.macros] at hkept
    exact hkept

/-- All that happens inside a render only evaluates and remembers. -/
theorem staysIn_changes (hs : s.Regular) : s.kit.Changes (Bond.StaysIn s.keyStart) :=
  (remembering_kits hs).changes (Bond.remembering_nests _) (fun _ => ⟨rfl, rfl⟩)
    (fun _ _ => trivial)

/-! ### Stories -/

/-- A story whose variables are those of a reading and whose jar holds nothing but remembered
values. -/
structure Remembering (s : Story) : Prop where
  regular : s.Regular
  vars : s.history.vars.OfReading
  jar : s.jar.Remembering s.keyStart

/-- The variables that a reading starts with are those of a reading. -/
theorem initialVariables_ofReading (hm : s.macros = .standard) : s.initialVariables.OfReading := by
  rw [initialVariables, hm, Macros.standard_seededByRemember.initialVariables_eq,
    Macro.recallAll_eq]
  exact Variables.OfReading.nothing.recallPairs _ _

namespace Remembering

theorem frame (h : s.Remembering) (ht : s.Alike t) (hjar : t.jar = s.jar) : t.Remembering where
  regular := ht.kept.regular h.regular
  vars := by
    rw [ht.agrees.history]
    exact h.vars
  jar := by
    rw [hjar, ht.agrees.keyStart]
    exact h.jar

theorem seeAddress (h : s.Remembering) : s.seeAddress.Remembering :=
  h.frame (s.host_alike _ _ _) rfl

/-- A reading starts over with what was remembered. -/
theorem resetHistory (h : s.Remembering) : s.resetHistory.Remembering where
  regular := s.resetHistory_kept.regular h.regular
  vars := initialVariables_ofReading h.regular.macros
  jar := h.jar

theorem click (h : s.Remembering) (title : String) :
    { s with history := s.history.click title }.Remembering where
  regular := (s.click_kept title).regular h.regular
  vars := .click h.vars title
  jar := h.jar

theorem reached (h : s.Remembering) (isFirst : Bool) (title : String) :
    (s.reached isFirst title).Remembering := by
  rw [Story.reached]
  split
  · exact h
  · rw [guessClick]
    split
    · exact h.click title
    · exact h

/-! ### Showing passages -/

theorem showPassage (h : s.Remembering) (p : Passage) (mode : DisplayMode) :
    (s.showPassage p mode).Remembering := by
  have hkept := showPassage_kept h.regular p mode
  have hstays := (staysIn_changes h.regular).render p.text.toList s.page
  refine ⟨hkept.regular h.regular, hstays.vars h.vars, ?_⟩
  rw [hkept.keyStart]
  exact hstays.jar h.vars h.jar

theorem display (h : s.Remembering) (title : String) (mode : DisplayMode) :
    (s.display title mode).Remembering := by
  have hpushed : (s.pushed title).Remembering :=
    ⟨(s.pushed_kept title).regular h.regular, h.vars, h.jar⟩
  have hshow := hpushed.showPassage (s.store.get title) mode
  by_cases hm : mode = .offscreen
  · subst hm
    exact hshow
  · rw [display_of_ne s title hm]
    exact hshow.frame (host_alike _ _ _ _) rfl

theorem replay (h : s.Remembering) (isFirst : Bool) (titles : List String) :
    (s.replay isFirst titles).Remembering := by
  induction titles generalizing s isFirst with
  | nil => exact h
  | cons title titles ih =>
      rw [replay_cons]
      exact ih ((h.reached isFirst title).display title _) false

theorem restore (h : s.Remembering) (hr : s.restore token = (.ok (), t)) : t.Remembering := by
  obtain ⟨ids, -, -, -, rfl⟩ := restore_ok hr
  exact h.resetHistory.replay true _

/-! ### All acts -/

theorem start (h : s.Remembering) : s.start.2.Remembering := by
  obtain ⟨s', hr, hstart⟩ | ⟨outcome, hstart⟩ := s.start_cases
  · rw [hstart]
    exact (h.restore hr).seeAddress
  · rw [hstart]
    exact (h.resetHistory.display _ _).seeAddress

theorem poll (h : s.Remembering) : s.poll.2.Remembering := by
  obtain ⟨-, hp⟩ | ⟨-, -, hp⟩ | ⟨-, s', hr, hp⟩ | ⟨-, e, -, hp⟩ := s.poll_cases
  · rw [hp]
    exact h
  · rw [hp]
    exact h.frame (s.host_alike _ _ _) rfl
  · rw [hp]
    exact (h.restore hr).seeAddress
  · rw [hp]
    exact h.seeAddress

theorem rerender (h : s.Remembering) : (s.rerender.getD s).Remembering := by
  rw [Story.rerender]
  cases s.history.current.title with
  | none => exact h
  | some title => exact h.showPassage _ _

theorem renderSource (h : s.Remembering) (text : String) :
    (s.renderSource text).2.Remembering :=
  have hstays := (staysIn_changes h.regular).render text.toList s.page
  ⟨⟨h.regular.macros, h.regular.formatters⟩, hstays.vars h.vars, hstays.jar h.vars h.jar⟩

theorem activate (h : s.Remembering) (link : Link) : (s.activate link).2.Remembering := by
  cases link with
  | passage title broken => exact h.display title .normal
  | action title broken => exact (h.click title).display title .normal
  | back token =>
      have hset : { s with navigator := s.navigator.setAddress token }.Remembering :=
        h.frame (s.host_alike _ _ _) rfl
      exact hset.poll
  | external url => exact h

/-- **Every act keeps a story remembering.** -/
theorem act (h : s.Remembering) (a : Act) : (s.act a).Remembering := by
  cases a with
  | start => exact h.start
  | display title mode => exact h.display title mode
  | rerender => exact h.rerender
  | restore token => exact restore_preserves (P := Remembering) h fun _ hr => h.restore hr
  | restart =>
      have hreset := h.resetHistory
      exact ⟨⟨hreset.regular.macros, hreset.regular.formatters⟩, hreset.vars, hreset.jar⟩
  | poll => exact h.poll
  | activate link => exact h.activate link
  | pageElement title default => exact h.renderSource _
  | renderSource text => exact h.renderSource text
  | writeAddress address => exact h.frame (s.host_alike _ _ _) rfl
  | clock now => exact h.frame (s.host_alike _ _ _) rfl

end Remembering

/-- **Whatever a reading keeps was remembered.**  A story that starts with a jar that holds nothing
under its keys, or nothing but remembered values, holds nothing else at any point of the reading. -/
theorem remembering_of_reading (store : Store) (config : Config) (jar : Jar)
    (navigator : Navigator) (now : Nat)
    (hjar : jar.Remembering (Story.new store config jar navigator now).keyStart)
    (row : List Act) : ((Story.new store config jar navigator now).acts row).Remembering :=
  have hnew : (Story.new store config jar navigator now).Remembering :=
    ⟨new_regular store config jar navigator now, initialVariables_ofReading rfl, hjar⟩
  acts_invariant hnew (fun _ a h => h.act a) row

end Story

end Gamebook
