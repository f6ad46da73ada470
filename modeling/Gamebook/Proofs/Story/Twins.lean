/-
**Stories that only their hosts tell apart.**

A story never looks back at what it has asked of its host, the address apart.  So two stories that
differ in these requests alone, with the same address and the same document title, answer every act
alike and stay so.

Main definitions:

* `Story.Answer`, `Story.answer`, `Story.answers` — what a story answers to acts;
* `Story.Twins` — stories that differ in what was asked of the host alone.

Main results:

* `Story.Twins.display`, `Story.Twins.restore` — twins show passages and restore tokens alike;
* `Story.Twins.act` — **twins answer every act alike and stay twins**;
* `Story.Twins.acts` — so they do for every row of acts;
* `Story.display_twins` — a passage in sight makes twins of stories with different document titles.
-/

import Gamebook.Proofs.Story.Restoring

set_option relaxedAutoImplicit false
set_option autoImplicit false

namespace Gamebook

namespace Story

/-! ### Answers -/

/-- What a story answers to an act. -/
inductive Answer where
  /-- Nothing. -/
  | done
  | started (outcome : StartOutcome)
  /-- A passage is shown, or none. -/
  | shown (current : Option Rendered)
  /-- A token was restored, or failed. -/
  | restored (outcome : Except RestoreError Unit)
  | polled (outcome : PollOutcome)
  | activated (activation : Activation)
  | rendered (nodes : List Node)

/-- What a story answers to an act. -/
def answer (s : Story) : Act → Answer
  | .start => .started s.start.1
  | .display title mode => .shown (s.display title mode).current
  | .rerender => .shown (s.rerender.bind Story.current)
  | .restore token => .restored (s.restore token).1
  | .restart => .done
  | .poll => .polled s.poll.1
  | .activate link => .activated (s.activate link).1
  | .pageElement title default => .rendered (s.pageElement title default).1
  | .renderSource text => .rendered (s.renderSource text).1
  | .writeAddress _ => .done
  | .clock _ => .done

/-- What a story answers to a row of acts. -/
def answers (s : Story) : List Act → List Answer
  | [] => []
  | a :: row => s.answer a :: (s.act a).answers row

variable {s t : Story} {n : Navigator} {title : String} {mode : DisplayMode}

/-! ### Twins -/

/-- The second story is the first one but for what was asked of the host; the address and the title of
the document are the same. -/
structure Twins (s t : Story) : Prop where
  same : t = { s with navigator := t.navigator }
  address : t.navigator.address = s.navigator.address
  documentTitle : t.navigator.title = s.navigator.title

namespace Twins

theorem of_navigator (ha : n.address = s.navigator.address) (ht : n.title = s.navigator.title) :
    s.Twins { s with navigator := n } := ⟨rfl, ha, ht⟩

theorem exists_navigator (h : s.Twins t) : ∃ n : Navigator, n.address = s.navigator.address ∧
    n.title = s.navigator.title ∧ t = { s with navigator := n } :=
  ⟨_, h.address, h.documentTitle, h.same⟩

theorem refl (s : Story) : s.Twins s := ⟨rfl, rfl, rfl⟩

theorem history (h : s.Twins t) : t.history = s.history := by rw [h.same]

theorem current (h : s.Twins t) : t.current = s.current := by rw [h.same]

theorem store (h : s.Twins t) : t.store = s.store := by rw [h.same]

theorem config (h : s.Twins t) : t.config = s.config := by rw [h.same]

theorem lastAddress (h : s.Twins t) : t.lastAddress = s.lastAddress := by rw [h.same]

/-! ### Showing passages -/

theorem seeAddress (h : s.Twins t) : s.seeAddress.Twins t.seeAddress := by
  obtain ⟨n, ha, ht, rfl⟩ := h.exists_navigator
  refine ⟨?_, ha, ht⟩
  simp only [Story.seeAddress, ha]

theorem resetHistory (h : s.Twins t) : s.resetHistory.Twins t.resetHistory := by
  obtain ⟨n, ha, ht, rfl⟩ := h.exists_navigator
  exact of_navigator ha ht

theorem click (h : s.Twins t) (title : String) :
    Twins { s with history := s.history.click title } { t with history := t.history.click title } := by
  obtain ⟨n, ha, ht, rfl⟩ := h.exists_navigator
  exact of_navigator ha ht

theorem reached (h : s.Twins t) (isFirst : Bool) (title : String) :
    (s.reached isFirst title).Twins (t.reached isFirst title) := by
  obtain ⟨n, ha, ht, rfl⟩ := h.exists_navigator
  cases isFirst with
  | true => exact of_navigator ha ht
  | false =>
      simp only [Story.reached, Bool.false_eq_true, if_false, guessClick]
      split
      · exact of_navigator ha ht
      · exact of_navigator ha ht

theorem showPassage (h : s.Twins t) (p : Passage) (mode : DisplayMode) :
    (s.showPassage p mode).Twins (t.showPassage p mode) := by
  obtain ⟨n, ha, ht, rfl⟩ := h.exists_navigator
  exact of_navigator ha ht

end Twins

/-- Telling the host of a passage makes twins of stories with the same address: the document has its
title from the passage, in both. -/
theorem announce_twins (ha : n.address = s.navigator.address) (title token : String) :
    (s.announce title token).Twins ({ s with navigator := n }.announce title token) := by
  simp only [announce]
  split
  · refine ⟨?_, ha, rfl⟩
    exact congrArg (fun address => { s with
      navigator := (n.setTitle s.title).focusTop, lastAddress := address }) ha
  · exact ⟨rfl, rfl, rfl⟩

/-- **A passage in sight makes twins** of stories with the same address, whatever the titles of their
documents. -/
theorem display_twins (ha : n.address = s.navigator.address) (title : String)
    (hm : mode ≠ .offscreen) :
    (s.display title mode).Twins ({ s with navigator := n }.display title mode) := by
  rw [display_of_ne _ title hm, display_of_ne _ title hm]
  exact announce_twins (s := (s.pushed title).showPassage (s.store.get title) mode) ha title _

namespace Twins

theorem display (h : s.Twins t) (title : String) (mode : DisplayMode) :
    (s.display title mode).Twins (t.display title mode) := by
  obtain ⟨n, ha, ht, rfl⟩ := h.exists_navigator
  by_cases hm : mode = .offscreen
  · subst hm
    exact of_navigator ha ht
  · exact display_twins ha title hm

theorem replay (h : s.Twins t) (isFirst : Bool) (titles : List String) :
    (s.replay isFirst titles).Twins (t.replay isFirst titles) := by
  induction titles generalizing s t isFirst with
  | nil => exact h
  | cons title titles ih =>
      rw [replay_cons, replay_cons]
      exact ih ((h.reached isFirst title).display title _) false

/-- **Twins restore a token alike.** -/
theorem restore (h : s.Twins t) (token : String) :
    (∃ e, s.restore token = (.error e, s) ∧ t.restore token = (.error e, t)) ∨
      ∃ s' t', s.restore token = (.ok (), s') ∧ t.restore token = (.ok (), t') ∧ s'.Twins t' := by
  obtain hfails | ⟨titles, -, hs, ht⟩ := restore_shared h.store token
  · exact .inl hfails
  · exact .inr ⟨_, _, hs, ht, h.resetHistory.replay true titles⟩

/-! ### Acts -/

theorem begin (h : s.Twins t) : s.begin.Twins t.begin := by
  rw [Story.begin, Story.begin, h.config]
  exact h.resetHistory.display _ _

theorem start (h : s.Twins t) : t.start.1 = s.start.1 ∧ s.start.2.Twins t.start.2 := by
  rw [Story.start, Story.start, h.address]
  obtain ⟨e, hs, ht⟩ | ⟨s', t', hs, ht, htwins⟩ := h.restore s.navigator.address
  · rw [hs, ht]
    cases e with
    | empty => exact ⟨rfl, h.begin.seeAddress⟩
    | malformed e => exact ⟨rfl, h.begin.seeAddress⟩
    | unknownPassage id => exact ⟨rfl, h.begin.seeAddress⟩
  · rw [hs, ht]
    exact ⟨rfl, htwins.seeAddress⟩

theorem poll (h : s.Twins t) : t.poll.1 = s.poll.1 ∧ s.poll.2.Twins t.poll.2 := by
  simp only [Story.poll, h.address, h.lastAddress]
  split
  · exact ⟨rfl, h⟩
  · split
    · refine ⟨rfl, ?_⟩
      obtain ⟨n, ha, ht, rfl⟩ := h.exists_navigator
      have hasked : Twins { s with navigator := s.navigator.requestReload }
        { s with navigator := n.requestReload } := ⟨rfl, ha, ht⟩
      exact hasked.seeAddress
    · obtain ⟨e, hs, ht⟩ | ⟨s', t', hs, ht, htwins⟩ := h.restore s.navigator.address
      · rw [hs, ht]
        exact ⟨rfl, h.seeAddress⟩
      · rw [hs, ht]
        exact ⟨rfl, htwins.seeAddress⟩

theorem activate (h : s.Twins t) (link : Link) :
    (t.activate link).1 = (s.activate link).1 ∧ (s.activate link).2.Twins (t.activate link).2 := by
  cases link with
  | passage title broken => exact ⟨rfl, h.display title .normal⟩
  | action title broken => exact ⟨rfl, (h.click title).display title .normal⟩
  | back token =>
      obtain ⟨n, ha, ht, rfl⟩ := h.exists_navigator
      have hset : Twins { s with navigator := s.navigator.setAddress token }
        { s with navigator := n.setAddress token } := ⟨rfl, rfl, ht⟩
      obtain ⟨houtcome, htwins⟩ := hset.poll
      exact ⟨congrArg Activation.navigated houtcome, htwins⟩
  | external url => exact ⟨rfl, h⟩

/-- **Twins answer every act alike and stay twins.** -/
theorem act (h : s.Twins t) (a : Act) :
    t.answer a = s.answer a ∧ (s.act a).Twins (t.act a) := by
  cases a with
  | start => exact ⟨congrArg Answer.started h.start.1, h.start.2⟩
  | display title mode =>
      have htwins := h.display title mode
      exact ⟨congrArg Answer.shown htwins.current, htwins⟩
  | rerender =>
      obtain ⟨n, ha, ht, rfl⟩ := h.exists_navigator
      simp only [answer, Story.act, Story.rerender]
      cases s.history.current.title with
      | none => exact ⟨rfl, of_navigator ha ht⟩
      | some title => exact ⟨rfl, of_navigator ha ht⟩
  | restore token =>
      rw [answer, answer, Story.act, Story.act]
      obtain ⟨e, hs, ht⟩ | ⟨s', t', hs, ht, htwins⟩ := h.restore token
      · rw [hs, ht]
        exact ⟨rfl, h⟩
      · rw [hs, ht]
        exact ⟨rfl, htwins⟩
  | restart =>
      obtain ⟨n, ha, ht, rfl⟩ := h.exists_navigator
      exact ⟨rfl, rfl, rfl, ht⟩
  | poll => exact ⟨congrArg Answer.polled h.poll.1, h.poll.2⟩
  | activate link => exact ⟨congrArg Answer.activated (h.activate link).1, (h.activate link).2⟩
  | pageElement title default =>
      obtain ⟨n, ha, ht, rfl⟩ := h.exists_navigator
      exact ⟨rfl, of_navigator ha ht⟩
  | renderSource text =>
      obtain ⟨n, ha, ht, rfl⟩ := h.exists_navigator
      exact ⟨rfl, of_navigator ha ht⟩
  | writeAddress address =>
      obtain ⟨n, ha, ht, rfl⟩ := h.exists_navigator
      exact ⟨rfl, rfl, rfl, ht⟩
  | clock now =>
      obtain ⟨n, ha, ht, rfl⟩ := h.exists_navigator
      exact ⟨rfl, of_navigator ha ht⟩

/-- **Twins answer every row of acts alike and stay twins.** -/
theorem acts (h : s.Twins t) (row : List Act) :
    t.answers row = s.answers row ∧ (s.acts row).Twins (t.acts row) := by
  induction row generalizing s t with
  | nil => exact ⟨rfl, h⟩
  | cons a row ih =>
      obtain ⟨hanswer, hnext⟩ := h.act a
      obtain ⟨hanswers, hend⟩ := ih hnext
      refine ⟨?_, hend⟩
      rw [answers, answers, hanswer, hanswers]

end Twins

end Story

end Gamebook
