/-
**Readings are sound, whatever happens in them.**

Whatever is called in whatever order, the tokens of the history stand for the ids up to their
entries, and the back links that are shown lead to entries before the current one.  So the tokens of
bookmarks and back links stand for a beginning of what was read.

Main definitions:

* `Story.Sound` — a story whose history is sound and whose back links lead to earlier entries.

Main results:

* `Story.poll_cases`, `Story.start_cases` — what a look at the address and a start can do;
* `Story.Sound.act` — **every act keeps a story sound**;
* `Story.tokens_of_reading` — so the tokens of every reading lead to what was read.
-/

import Gamebook.Proofs.Story.Restoring

set_option relaxedAutoImplicit false
set_option autoImplicit false

namespace Gamebook

namespace Story

variable {s t : Story} {title token : String} {mode : DisplayMode}

/-! ### What looking at the address can do -/

/-- **What a look at the address can do.** -/
theorem poll_cases (s : Story) :
    (s.navigator.address = s.lastAddress ∧ s.poll = (.unchanged, s)) ∨
      (s.navigator.address ≠ s.lastAddress ∧ isEmptyAddress s.navigator.address = true ∧
        s.poll = (.reloadRequested, { s with navigator := s.navigator.requestReload }.seeAddress)) ∨
      (s.navigator.address ≠ s.lastAddress ∧ ∃ s', s.restore s.navigator.address = (.ok (), s') ∧
        s.poll = (.restored s.navigator.address, s'.seeAddress)) ∨
      (s.navigator.address ≠ s.lastAddress ∧ ∃ e, s.restore s.navigator.address = (.error e, s) ∧
        s.poll = (.restoreFailed s.navigator.address e.message, s.seeAddress)) := by
  simp only [poll]
  by_cases hsame : s.navigator.address = s.lastAddress
  · exact .inl ⟨hsame, if_pos hsame⟩
  · rw [if_neg hsame]
    by_cases hempty : isEmptyAddress s.navigator.address = true
    · exact .inr (.inl ⟨hsame, hempty, if_pos hempty⟩)
    · rw [if_neg hempty]
      obtain ⟨e, hr⟩ | ⟨s', hr⟩ := s.restore_error_or_ok s.navigator.address
      · rw [hr]
        exact .inr (.inr (.inr ⟨hsame, e, rfl, rfl⟩))
      · rw [hr]
        exact .inr (.inr (.inl ⟨hsame, s', rfl, rfl⟩))

/-- A reading starts with what the address carries, or with the start passage. -/
theorem start_cases (s : Story) :
    (∃ s', s.restore s.navigator.address = (.ok (), s') ∧ s.start = (.restored, s'.seeAddress)) ∨
      ∃ outcome, s.start = (outcome, s.begin.seeAddress) := by
  rw [start]
  obtain ⟨e, hr⟩ | ⟨s', hr⟩ := s.restore_error_or_ok s.navigator.address
  · rw [hr]
    cases e <;> exact .inr ⟨_, rfl⟩
  · rw [hr]
    exact .inl ⟨s', rfl, rfl⟩

/-! ### Sound stories -/

/-- A story whose history is sound and whose back links lead to entries before the current one. -/
structure Sound (s : Story) : Prop where
  regular : s.Regular
  history : s.history.Sound
  back : ∀ token, .back token ∈ s.links → s.history.Revisits token

/-- What concerns the host and the time alone keeps a story sound. -/
theorem Sound.frame (h : s.Sound) (ht : s.Alike t) : t.Sound where
  regular := ht.kept.regular h.regular
  history := by
    rw [ht.agrees.history]
    exact h.history
  back := by
    rw [ht.agrees.history, ht.links_eq]
    exact h.back

theorem Sound.seeAddress (h : s.Sound) : s.seeAddress.Sound := h.frame (s.host_alike _ _ _)

/-- A story of which nothing has been read is sound. -/
theorem new_sound (store : Store) (config : Config) (jar : Jar) (navigator : Navigator)
    (now : Nat) : (Story.new store config jar navigator now).Sound where
  regular := new_regular store config jar navigator now
  history := History.start_sound _
  back _ hl := absurd hl List.not_mem_nil

/-! ### Showing passages -/

theorem showPassage_sound (hs : s.Regular) (hh : s.history.Sound) (p : Passage)
    (mode : DisplayMode) : (s.showPassage p mode).Sound := by
  refine ⟨(showPassage_kept hs p mode).regular hs, ?_, ?_⟩
  · rw [showPassage_eq hs]
    exact hh.withVariables _
  · rw [showPassage_eq hs]
    intro token hl
    exact revisits_of_back hs hl

theorem display_sound (hs : s.Regular) (hh : s.history.Sound) (title : String)
    (mode : DisplayMode) : (s.display title mode).Sound := by
  have hshow := showPassage_sound ((s.pushed_kept title).regular hs) (hh.push (s.store.get title))
    (s.store.get title) mode
  by_cases hm : mode = .offscreen
  · subst hm
    exact hshow
  · rw [display_of_ne s title hm]
    exact hshow.frame (host_alike _ _ _ _)

theorem begin_sound (hs : s.Regular) : s.begin.Sound :=
  display_sound (s.resetHistory_kept.regular hs) (History.start_sound _) _ _

theorem replay_sound (hs : s.Regular) (hh : s.history.Sound) (isFirst : Bool)
    (titles : List String) (hne : titles ≠ []) : (s.replay isFirst titles).Sound := by
  obtain ⟨t, hk, -, hsound, heq⟩ := replay_last hs isFirst titles hne
  rw [heq]
  exact display_sound (hk.regular hs) (hsound hh) _ _

theorem restore_sound (hs : s.Regular) (h : s.restore token = (.ok (), t)) : t.Sound := by
  obtain ⟨ids, hne, -, hids, rfl⟩ := restore_ok h
  exact replay_sound (s.resetHistory_kept.regular hs) (History.start_sound _) true _
    (titlesOf_ne_nil hids hne)

/-! ### All acts -/

namespace Sound

theorem start (h : s.Sound) : s.start.2.Sound := by
  obtain ⟨s', hr, hstart⟩ | ⟨outcome, hstart⟩ := s.start_cases
  · rw [hstart]
    exact (restore_sound h.regular hr).seeAddress
  · rw [hstart]
    exact (begin_sound h.regular).seeAddress

theorem poll (h : s.Sound) : s.poll.2.Sound := by
  obtain ⟨-, hp⟩ | ⟨-, -, hp⟩ | ⟨-, s', hr, hp⟩ | ⟨-, e, -, hp⟩ := s.poll_cases
  · rw [hp]
    exact h
  · rw [hp]
    exact h.frame (s.host_alike _ _ _)
  · rw [hp]
    exact (restore_sound h.regular hr).seeAddress
  · rw [hp]
    exact h.seeAddress

theorem rerender (h : s.Sound) : (s.rerender.getD s).Sound := by
  rw [Story.rerender]
  cases s.history.current.title with
  | none => exact h
  | some title => exact showPassage_sound h.regular h.history _ _

theorem restart (h : s.Sound) : s.restart.Sound where
  regular := ⟨h.regular.macros, h.regular.formatters⟩
  history := History.start_sound _
  -- nothing is shown any more, so no link is left
  back _ hl := absurd hl List.not_mem_nil

theorem renderSource (h : s.Sound) (text : String) : (s.renderSource text).2.Sound := by
  have heq : (s.renderSource text).2 =
      { s with history := s.history.withVariables (s.yield text).vars, jar := s.jarAfter text } := by
    simp only [Story.renderSource, render_eq h.regular]
  rw [heq]
  exact ⟨⟨h.regular.macros, h.regular.formatters⟩, h.history.withVariables _, h.back⟩

theorem activate (h : s.Sound) (link : Link) : (s.activate link).2.Sound := by
  cases link with
  | passage title broken => exact display_sound h.regular h.history title .normal
  | action title broken =>
      exact display_sound ((s.click_kept title).regular h.regular) (h.history.click title) title
        .normal
  | back token =>
      have hset : { s with navigator := s.navigator.setAddress token }.Sound :=
        h.frame (s.host_alike _ _ _)
      exact hset.poll
  | external url => exact h

/-- **Every act keeps a story sound.** -/
theorem act (h : s.Sound) (a : Act) : (s.act a).Sound := by
  cases a with
  | start => exact h.start
  | display title mode => exact display_sound h.regular h.history title mode
  | rerender => exact h.rerender
  | restore token => exact restore_preserves (P := Sound) h fun _ hr => restore_sound h.regular hr
  | restart => exact h.restart
  | poll => exact h.poll
  | activate link => exact h.activate link
  | pageElement title default => exact h.renderSource _
  | renderSource text => exact h.renderSource text
  | writeAddress address => exact h.frame (s.host_alike _ _ _)
  | clock now => exact h.frame (s.host_alike _ _ _)

/-! ### Tokens -/

theorem decode_back (h : s.Sound) (hl : .back token ∈ s.links) :
    ∃ ids, Trail.decode token = .ok ids ∧ ids <+: s.history.ids := by
  obtain ⟨e, he, hopening, rfl⟩ := h.back token hl
  refine h.history.decode_token ?_ hopening
  rw [History.oldestFirst_eq]
  exact List.mem_append_left _ (List.mem_reverse.2 he)

theorem decode_bookmark (h : s.Sound) {b : Bookmark} (hb : b ∈ s.bookmarks) :
    ∃ ids, Trail.decode b.token = .ok ids ∧ ids <+: s.history.ids := by
  obtain ⟨e, he, hbookmark⟩ := List.mem_filterMap.1 hb
  rw [bookmark?] at hbookmark
  cases htitle : e.title with
  | none => simp [htitle] at hbookmark
  | some title =>
      have htoken : b.token = e.token := by
        simp only [htitle, Option.bind_eq_bind, Option.bind_some] at hbookmark
        obtain ⟨p, -, hp⟩ := Option.bind_eq_some_iff.1 hbookmark
        split at hp
        · cases hp
          rfl
        · cases hp
      rw [htoken]
      exact h.history.decode_token he (by simp [Entry.isOpening, htitle])

end Sound

/-- **The tokens of every reading lead to what was read.**  Whatever happens to a new story, the
oldest entry of its history shows no passage, every later one shows one and its token stands for the
ids up to it; and every token of a bookmark or of a back link that is shown decodes to a beginning of
the ids read. -/
theorem tokens_of_reading (store : Store) (config : Config) (jar : Jar) (navigator : Navigator)
    (now : Nat) (row : List Act) :
    let s := (Story.new store config jar navigator now).acts row
    s.history.Sound ∧
      (∀ b ∈ s.bookmarks, ∃ ids, Trail.decode b.token = .ok ids ∧ ids <+: s.history.ids) ∧
      (∀ token, .back token ∈ s.links →
        ∃ ids, Trail.decode token = .ok ids ∧ ids <+: s.history.ids) := by
  intro s
  have hs : s.Sound :=
    acts_invariant (new_sound store config jar navigator now) (fun _ a h => h.act a) row
  exact ⟨hs.history, fun b hb => hs.decode_bookmark hb, fun token hl => hs.decode_back hl⟩

end Story

end Gamebook
