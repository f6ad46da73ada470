/-
**What the steps of an act preserve.**

Whatever is called, a story takes only a few kinds of steps: its history starts over, an action is
noted, an entry is added, a text is rendered, and the texts are put back.  All else that changes is
the host's, or a note of what was shown last.  So a property that these steps preserve holds as long
as the story lives.

Main definitions:

* `Story.Lasting` — a property that every step preserves;
* `Story.Becomes` — the stories that a story can become: by acts, and by what a host does to the jar,
  the address and the time.

Main results:

* `Story.Lasting.act` — **what every step preserves, every act preserves**;
* `Story.Lasting.becomes` — and whatever happens preserves it, if the jar does not matter.
-/

import Gamebook.Proofs.Story.Sound

set_option relaxedAutoImplicit false
set_option autoImplicit false

namespace Gamebook

namespace Story

variable {s t : Story} {P : Story → Prop}

/-! ### Steps -/

/-- A property that every step of an act preserves. -/
structure Lasting (P : Story → Prop) : Prop where
  /-- What belongs to the host, and what was shown last, do not matter. -/
  frame : ∀ {s : Story} (navigator : Navigator) (lastAddress : String)
    (actions passages : List String) (current : Option Rendered) (now : Nat), P s →
      P { s with
        navigator := navigator
        lastAddress := lastAddress
        offeredActions := actions
        offeredPassages := passages
        current := current
        now := now }
  startOver : ∀ {s : Story}, P s → P { s with history := .start s.initialVariables }
  click : ∀ {s : Story} (title : String), P s → P { s with history := s.history.click title }
  push : ∀ {s : Story} (title : String), P s → P (s.pushed title)
  render : ∀ {s : Story} (text : String), P s → P (s.renderSource text).2
  resetTexts : ∀ {s : Story}, P s → P { s with store := s.store.resetAll }

namespace Lasting

theorem seeAddress (hP : Lasting P) (h : P s) : P s.seeAddress := hP.frame _ _ _ _ _ _ h

theorem resetHistory (hP : Lasting P) (h : P s) : P s.resetHistory :=
  hP.frame _ _ _ _ _ _ (hP.startOver h)

theorem guessClick (hP : Lasting P) (h : P s) (title : String) : P (s.guessClick title) := by
  rw [Story.guessClick]
  split
  · exact hP.click title h
  · exact h

theorem showPassage (hP : Lasting P) (h : P s) (p : Passage) (mode : DisplayMode) :
    P (s.showPassage p mode) := hP.frame _ _ _ _ _ _ (hP.render p.text h)

theorem display (hP : Lasting P) (h : P s) (title : String) (mode : DisplayMode) :
    P (s.display title mode) := by
  have hshow := hP.showPassage (hP.push title h) (s.store.get title) mode
  by_cases hm : mode = .offscreen
  · subst hm
    exact hshow
  · rw [display_of_ne s title hm]
    exact hP.frame _ _ _ _ _ _ hshow

theorem replay (hP : Lasting P) (h : P s) (isFirst : Bool) (titles : List String) :
    P (s.replay isFirst titles) := by
  induction titles generalizing s isFirst with
  | nil => exact h
  | cons title titles ih =>
      have hreached : P (s.reached isFirst title) := by
        cases isFirst with
        | true => exact h
        | false => exact hP.guessClick h title
      rw [replay_cons]
      exact ih (hP.display hreached title _) false

theorem restore (hP : Lasting P) (h : P s) {token : String} (hr : s.restore token = (.ok (), t)) :
    P t := by
  obtain ⟨ids, -, -, -, rfl⟩ := restore_ok hr
  exact hP.replay (hP.resetHistory h) true _

/-! ### Acts -/

theorem start (hP : Lasting P) (h : P s) : P s.start.2 := by
  obtain ⟨s', hr, hstart⟩ | ⟨outcome, hstart⟩ := s.start_cases
  · rw [hstart]
    exact hP.seeAddress (hP.restore h hr)
  · rw [hstart]
    exact hP.seeAddress (hP.display (hP.resetHistory h) _ _)

theorem poll (hP : Lasting P) (h : P s) : P s.poll.2 := by
  obtain ⟨-, hp⟩ | ⟨-, -, hp⟩ | ⟨-, s', hr, hp⟩ | ⟨-, e, -, hp⟩ := s.poll_cases
  · rw [hp]
    exact h
  · rw [hp]
    exact hP.seeAddress (hP.frame s.navigator.requestReload _ _ _ _ _ h)
  · rw [hp]
    exact hP.seeAddress (hP.restore h hr)
  · rw [hp]
    exact hP.seeAddress h

theorem activate (hP : Lasting P) (h : P s) (link : Link) : P (s.activate link).2 := by
  cases link with
  | passage title broken => exact hP.display h title .normal
  | action title broken => exact hP.display (hP.click title h) title .normal
  | back token => exact hP.poll (hP.frame _ _ _ _ _ _ h)
  | external url => exact h

/-- **What every step preserves, every act preserves.** -/
theorem act (hP : Lasting P) (h : P s) (a : Act) : P (s.act a) := by
  cases a with
  | start => exact hP.start h
  | display title mode => exact hP.display h title mode
  | rerender =>
      rw [Story.act, Story.rerender]
      cases s.history.current.title with
      | none => exact h
      | some title => exact hP.showPassage h _ _
  | restore token => exact restore_preserves h fun _ hr => hP.restore h hr
  | restart => exact hP.frame _ _ _ _ _ _ (hP.resetTexts (hP.resetHistory h))
  | poll => exact hP.poll h
  | activate link => exact hP.activate h link
  | pageElement title default => exact hP.render _ h
  | renderSource text => exact hP.render text h
  | writeAddress address => exact hP.frame _ _ _ _ _ _ h
  | clock now => exact hP.frame _ _ _ _ _ _ h

theorem acts (hP : Lasting P) (h : P s) (row : List Act) : P (s.acts row) :=
  acts_invariant h (fun _ a ht => hP.act ht a) row

end Lasting

/-! ### Whatever happens -/

/-- The stories that a story can become: by any acts, and by what a host does to what is its own, the
jar, the address with what was asked of it, and the time. -/
inductive Becomes (s : Story) : Story → Prop
  | refl : Becomes s s
  | act {t : Story} (h : Becomes s t) (a : Act) : Becomes s (t.act a)
  | host {t : Story} (h : Becomes s t) (jar : Jar) (navigator : Navigator) (now : Nat) :
      Becomes s { t with jar := jar, navigator := navigator, now := now }

/-- **Whatever happens preserves what every step preserves**, if the jar does not matter. -/
theorem Lasting.becomes (hP : Lasting P) (hjar : ∀ t jar, P t → P { t with jar := jar }) (h : P s)
    (ht : s.Becomes t) : P t := by
  induction ht with
  | refl => exact h
  | act _ a ih => exact hP.act ih a
  | host _ jar navigator now ih => exact hP.frame navigator _ _ _ _ now (hjar _ jar ih)

end Story

end Gamebook
