/-
**Showing passages.**

To show a passage, an entry is added to the history, the text is rendered there, and the host is told
unless the passage stays out of sight.  Passages of a token are shown in turn.  Each of these steps
leaves the passages and the settings alone, and stories that agree still agree after it.

Main definitions:

* `Story.Kept` — what showing passages leaves alone;
* `Story.Alike` — stories that differ in the jar, the host and the time alone;
* `Story.remembered` — the remembered values that a reading starts with.

Main results:

* `Story.showPassage_eq`, `Story.history_display`, `Story.current_display` — showing a passage;
* `Story.Agrees.display`, `Story.Agrees.guessClick`, `Story.Agrees.replay` — **stories that agree
  show alike**;
* `Story.Kept.startsAlike`, `Story.Kept.resetHistory` — a reading starts alike with the same
  variables, and so with the same remembered values.
-/

import Mathlib.Data.List.Basic
import Gamebook.Proofs.Store.LookUp
import Gamebook.Proofs.Story.Rendering

set_option relaxedAutoImplicit false
set_option autoImplicit false

namespace Gamebook

namespace Story

variable {s t u : Story} {p : Passage} {title : String} {mode : DisplayMode}

/-! ### What is left alone -/

/-- What showing passages leaves alone. -/
structure Kept (s t : Story) : Prop where
  store : t.store = s.store
  formatters : t.formatters = s.formatters
  macros : t.macros = s.macros
  config : t.config = s.config
  title : t.title = s.title
  keyStart : t.keyStart = s.keyStart

theorem Kept.refl (s : Story) : s.Kept s := ⟨rfl, rfl, rfl, rfl, rfl, rfl⟩

theorem Kept.trans (h : s.Kept t) (h' : t.Kept u) : s.Kept u where
  store := h'.store.trans h.store
  formatters := h'.formatters.trans h.formatters
  macros := h'.macros.trans h.macros
  config := h'.config.trans h.config
  title := h'.title.trans h.title
  keyStart := h'.keyStart.trans h.keyStart

theorem Kept.regular (h : s.Kept t) (hs : s.Regular) : t.Regular where
  macros := h.macros.trans hs.macros
  formatters := by
    rw [h.formatters]
    exact hs.formatters

/-- Stories that differ in the jar, the host and the time alone. -/
structure Alike (s t : Story) : Prop where
  agrees : s.Agrees t
  title : t.title = s.title
  current : t.current = s.current

/-- **What concerns the host and the time alone** leaves the reading as it is. -/
theorem host_alike (s : Story) (navigator : Navigator) (lastAddress : String) (now : Nat) :
    s.Alike { s with navigator := navigator, lastAddress := lastAddress, now := now } :=
  ⟨⟨rfl, rfl, rfl, rfl, rfl, rfl, rfl, rfl⟩, rfl, rfl⟩

theorem Alike.kept (h : s.Alike t) : s.Kept t :=
  ⟨h.agrees.store, h.agrees.formatters, h.agrees.macros, h.agrees.config, h.title, h.agrees.keyStart⟩

theorem Alike.links_eq (h : s.Alike t) : t.links = s.links := by rw [links, links, h.current]

/-! ### One passage -/

/-- The story at a new entry for a passage, which is not shown yet. -/
def pushed (s : Story) (title : String) : Story :=
  { s with history := s.history.push (s.store.get title) }

theorem pushed_kept (s : Story) (title : String) : s.Kept (s.pushed title) :=
  ⟨rfl, rfl, rfl, rfl, rfl, rfl⟩

/-- What a passage yields at a new entry. -/
def yieldOf (s : Story) (title : String) : Yield :=
  (s.pushed title).yield (s.store.get title).text

/-- The passage as it is shown, with the nodes that it renders to. -/
def rendered (s : Story) (p : Passage) (mode : DisplayMode) : Rendered :=
  { title := p.title
    id := p.id
    tags := p.tags
    nodes := (s.yield p.text).nodes
    token := s.history.current.token
    mode := mode }

/-- **Showing a passage, as an equation.** -/
theorem showPassage_eq (hs : s.Regular) (p : Passage) (mode : DisplayMode) :
    s.showPassage p mode =
      { s with
        history := s.history.withVariables (s.yield p.text).vars
        jar := s.jarAfter p.text
        offeredActions := (s.yield p.text).offered
        offeredPassages := Node.passageTitles (s.yield p.text).nodes
        current := some (s.rendered p mode) } := by
  simp only [showPassage, render_eq hs]
  rfl

theorem showPassage_kept (hs : s.Regular) (p : Passage) (mode : DisplayMode) :
    s.Kept (s.showPassage p mode) := by
  rw [showPassage_eq hs]
  exact ⟨rfl, rfl, rfl, rfl, rfl, rfl⟩

theorem announce_kept (s : Story) (title token : String) : s.Kept (s.announce title token) :=
  (s.host_alike _ _ _).kept

/-- Out of sight, the host is not told. -/
theorem display_offscreen (s : Story) (title : String) :
    s.display title .offscreen = (s.pushed title).showPassage (s.store.get title) .offscreen := rfl

/-- In sight, the host is told. -/
theorem display_of_ne (s : Story) (title : String) (h : mode ≠ .offscreen) :
    s.display title mode = ((s.pushed title).showPassage (s.store.get title) mode).announce title
      ((s.pushed title).showPassage (s.store.get title) mode).history.current.token := by
  rw [display, if_neg h, Store.title_get]
  rfl

theorem display_kept (hs : s.Regular) (title : String) (mode : DisplayMode) :
    s.Kept (s.display title mode) := by
  have hp := s.pushed_kept title
  have hk := hp.trans (showPassage_kept (hp.regular hs) (s.store.get title) mode)
  by_cases hm : mode = .offscreen
  · subst hm
    exact hk
  · rw [display_of_ne s title hm]
    exact hk.trans (announce_kept _ _ _)

/-- Whether in sight or not, a passage leaves the same entry behind. -/
theorem history_display (hs : s.Regular) (title : String) (mode : DisplayMode) :
    (s.display title mode).history =
      (s.history.push (s.store.get title)).withVariables (s.yieldOf title).vars := by
  have hp := (s.pushed_kept title).regular hs
  have hshow : ((s.pushed title).showPassage (s.store.get title) mode).history =
      (s.history.push (s.store.get title)).withVariables (s.yieldOf title).vars := by
    rw [showPassage_eq hp]
    rfl
  by_cases hm : mode = .offscreen
  · subst hm
    exact hshow
  · rw [display_of_ne s title hm]
    exact hshow

/-- What is shown and offered after a passage. -/
theorem current_display (hs : s.Regular) (title : String) (mode : DisplayMode) :
    (s.display title mode).current =
        some ((s.pushed title).rendered (s.store.get title) mode) ∧
      (s.display title mode).offeredActions = (s.yieldOf title).offered ∧
      (s.display title mode).offeredPassages = Node.passageTitles (s.yieldOf title).nodes := by
  have hp := (s.pushed_kept title).regular hs
  have heq := showPassage_eq hp (s.store.get title) mode
  by_cases hm : mode = .offscreen
  · subst hm
    rw [display_offscreen, heq]
    exact ⟨rfl, rfl, rfl⟩
  · rw [display_of_ne s title hm, heq]
    exact ⟨rfl, rfl, rfl⟩

theorem Agrees.symm (h : s.Agrees t) : t.Agrees s :=
  ⟨h.store.symm, h.history.symm, h.formatters.symm, h.macros.symm, h.config.symm, h.keyStart.symm,
    h.offeredActions.symm, h.offeredPassages.symm⟩

theorem Agrees.trans (h : s.Agrees t) (h' : t.Agrees u) : s.Agrees u where
  store := h'.store.trans h.store
  history := h'.history.trans h.history
  formatters := h'.formatters.trans h.formatters
  macros := h'.macros.trans h.macros
  config := h'.config.trans h.config
  keyStart := h'.keyStart.trans h.keyStart
  offeredActions := h'.offeredActions.trans h.offeredActions
  offeredPassages := h'.offeredPassages.trans h.offeredPassages

theorem Agrees.regular (h : s.Agrees t) (hs : s.Regular) : t.Regular where
  macros := h.macros.trans hs.macros
  formatters := by
    rw [h.formatters]
    exact hs.formatters

theorem Agrees.pushed (h : s.Agrees t) (title : String) :
    (s.pushed title).Agrees (t.pushed title) := by
  refine ⟨h.store, ?_, h.formatters, h.macros, h.config, h.keyStart, h.offeredActions,
    h.offeredPassages⟩
  simp only [Story.pushed, h.history, h.store]

/-- **Stories that agree show a passage alike**, in sight or not. -/
theorem Agrees.display (h : s.Agrees t) (hs : s.Regular) (title : String)
    (mode mode' : DisplayMode) : (s.display title mode).Agrees (t.display title mode') := by
  have ht := h.regular hs
  have hyield : t.yieldOf title = s.yieldOf title := by
    rw [yieldOf, yieldOf, h.store]
    exact (h.pushed title).yield_eq ((s.pushed_kept title).regular hs) _
  have hk := display_kept hs title mode
  have hk' := display_kept ht title mode'
  obtain ⟨-, hactions, hpassages⟩ := current_display hs title mode
  obtain ⟨-, hactions', hpassages'⟩ := current_display ht title mode'
  exact {
    store := by rw [hk'.store, hk.store, h.store]
    history := by rw [history_display ht, history_display hs, h.history, h.store, hyield]
    formatters := by rw [hk'.formatters, hk.formatters, h.formatters]
    macros := by rw [hk'.macros, hk.macros, h.macros]
    config := by rw [hk'.config, hk.config, h.config]
    keyStart := by rw [hk'.keyStart, hk.keyStart, h.keyStart]
    offeredActions := by rw [hactions', hactions, hyield]
    offeredPassages := by rw [hpassages', hpassages, hyield] }

/-- Stories that agree come to show the same. -/
theorem Agrees.current_display (h : s.Agrees t) (hs : s.Regular) (title : String)
    (mode : DisplayMode) : (t.display title mode).current = (s.display title mode).current := by
  have ht := h.regular hs
  have hpushed := h.pushed title
  rw [(Story.current_display ht title mode).1, (Story.current_display hs title mode).1]
  simp only [rendered, h.store, hpushed.history,
    hpushed.yield_eq ((s.pushed_kept title).regular hs)]

/-! ### Passages in turn -/

theorem click_kept (s : Story) (title : String) :
    s.Kept { s with history := s.history.click title } :=
  ⟨rfl, rfl, rfl, rfl, rfl, rfl⟩

theorem guessClick_kept (s : Story) (title : String) : s.Kept (s.guessClick title) := by
  rw [guessClick]
  split
  · exact s.click_kept title
  · exact Kept.refl s

theorem Agrees.guessClick (h : s.Agrees t) (title : String) :
    (s.guessClick title).Agrees (t.guessClick title) := by
  have hguess : (t.offeredActions.contains title && !t.offeredPassages.contains title) =
      (s.offeredActions.contains title && !s.offeredPassages.contains title) := by
    rw [h.offeredActions, h.offeredPassages]
  rw [Story.guessClick, Story.guessClick, hguess]
  split
  · refine ⟨h.store, ?_, h.formatters, h.macros, h.config, h.keyStart, h.offeredActions,
      h.offeredPassages⟩
    exact congrArg (History.click · title) h.history
  · exact h

/-- The story before the next passage of a token. -/
def reached (s : Story) (isFirst : Bool) (title : String) : Story :=
  if isFirst then s else s.guessClick title

theorem reached_kept (s : Story) (isFirst : Bool) (title : String) :
    s.Kept (s.reached isFirst title) := by
  cases isFirst
  · exact guessClick_kept s title
  · exact Kept.refl s

theorem Agrees.reached (h : s.Agrees t) (isFirst : Bool) (title : String) :
    (s.reached isFirst title).Agrees (t.reached isFirst title) := by
  cases isFirst
  · exact h.guessClick title
  · exact h

theorem replay_cons (s : Story) (isFirst : Bool) (title : String) (titles : List String) :
    s.replay isFirst (title :: titles) =
      ((s.reached isFirst title).display title (if titles.isEmpty then .normal else .offscreen)).replay
        false titles := rfl

theorem replay_kept (hs : s.Regular) (isFirst : Bool) (titles : List String) :
    s.Kept (s.replay isFirst titles) := by
  induction titles generalizing s isFirst with
  | nil => exact Kept.refl s
  | cons title titles ih =>
      rw [replay_cons]
      have hr := s.reached_kept isFirst title
      have hd := hr.trans (display_kept (hr.regular hs) title
        (if titles.isEmpty then .normal else .offscreen))
      exact hd.trans (ih (hd.regular hs) false)

/-- **Stories that agree show passages in turn alike.** -/
theorem Agrees.replay (h : s.Agrees t) (hs : s.Regular) (isFirst : Bool) (titles : List String) :
    (s.replay isFirst titles).Agrees (t.replay isFirst titles) := by
  induction titles generalizing s t isFirst with
  | nil => exact h
  | cons title titles ih =>
      rw [replay_cons, replay_cons]
      have hr := (s.reached_kept isFirst title).regular hs
      exact ih ((h.reached isFirst title).display hr title _ _) ((display_kept hr title _).regular hr)
        false

/-- Stories that agree come to show the same passage of a token. -/
theorem Agrees.current_replay (h : s.Agrees t) (hs : s.Regular) (isFirst : Bool)
    (titles : List String) (hne : titles ≠ []) :
    (t.replay isFirst titles).current = (s.replay isFirst titles).current := by
  induction titles generalizing s t isFirst with
  | nil => exact absurd rfl hne
  | cons title titles ih =>
      rw [replay_cons, replay_cons]
      have hr := (s.reached_kept isFirst title).regular hs
      cases titles with
      | nil => exact (h.reached isFirst title).current_display hr title .normal
      | cons next titles =>
          exact ih ((h.reached isFirst title).display hr title _ _)
            ((display_kept hr title _).regular hr) false (by simp)

/-- **A further passage goes on from where the others led**, whether these are shown out of sight or
not. -/
theorem replay_append (hs : s.Regular) (isFirst : Bool) (titles : List String) (last : String)
    (hne : titles ≠ []) :
    ((s.replay isFirst titles).guessClick last |>.display last .normal).Agrees
        (s.replay isFirst (titles ++ [last])) ∧
      (s.replay isFirst (titles ++ [last])).current =
        ((s.replay isFirst titles).guessClick last |>.display last .normal).current := by
  induction titles generalizing s isFirst with
  | nil => exact absurd rfl hne
  | cons title titles ih =>
      have hr := (s.reached_kept isFirst title).regular hs
      rw [replay_cons, List.cons_append, replay_cons]
      cases titles with
      | nil =>
          -- the passage that was the last one is now shown out of sight
          have ha := ((Agrees.refl (s.reached isFirst title)).display hr title .normal
            .offscreen).guessClick last
          have hk := (display_kept hr title .normal).trans (guessClick_kept _ last)
          exact ⟨ha.display (hk.regular hr) last .normal .normal,
            ha.current_display (hk.regular hr) last .normal⟩
      | cons next titles =>
          exact ih ((display_kept hr title .offscreen).regular hr) false (by simp)

/-! ### The start of a reading -/

/-- The remembered values that a reading starts with, by their keys. -/
def remembered (s : Story) : List (String × String) := s.jar.liveUnder s.now s.keyStart

/-- Only `remember` gives a reading variables to start with. -/
theorem prepare_eq {macros : Macros} (hm : macros = .standard) {a b : Prelude}
    (hlive : b.jar.liveUnder b.now b.keyStart = a.jar.liveUnder a.now a.keyStart)
    (hkey : b.keyStart = a.keyStart) {entry : String × Macro} (hin : entry ∈ macros.entries)
    (vars : Variables) : entry.2.prepare b vars = entry.2.prepare a vars := by
  obtain ⟨name, m⟩ := entry
  rw [hm] at hin
  have hlisted := Dict.mem_of_get?_ofList ((Dict.get?_eq_some_iff _ name m).2 hin)
  simp only [List.mem_cons, Prod.mk.injEq, List.not_mem_nil, or_false] at hlisted
  rcases hlisted with ⟨-, rfl⟩ | ⟨-, rfl⟩ | ⟨-, rfl⟩ | ⟨-, rfl⟩ | ⟨-, rfl⟩ | ⟨-, rfl⟩ | ⟨-, rfl⟩ |
    ⟨-, rfl⟩ | ⟨-, rfl⟩ | ⟨-, rfl⟩ | ⟨-, rfl⟩ | ⟨-, rfl⟩
  -- the sixth is `remember`, the one macro that looks into the jar here
  case inr.inr.inr.inr.inr.inl =>
    simp only [Macro.remember, Macro.recallAll, hlive]
    rw [hkey]
  all_goals rfl

theorem initialVariables_eq (hs : s.macros = .standard) (hm : t.macros = s.macros)
    (hk : t.keyStart = s.keyStart) (hr : t.remembered = s.remembered) :
    t.initialVariables = s.initialVariables := by
  rw [initialVariables, initialVariables, hm, Macros.initialVariables, Macros.initialVariables]
  refine List.foldl_ext _ _ _ fun vars entry hin => ?_
  simp only [prepare_eq hs (a := s.prelude) (b := t.prelude) hr hk hin vars]

/-- A reading starts alike with the same variables. -/
theorem Kept.startsAlike (h : s.Kept t) (hi : t.initialVariables = s.initialVariables) :
    s.resetHistory.Agrees t.resetHistory where
  store := h.store
  history := congrArg History.start hi
  formatters := h.formatters
  macros := h.macros
  config := h.config
  keyStart := h.keyStart
  offeredActions := rfl
  offeredPassages := rfl

/-- **A reading starts alike** with the same remembered values. -/
theorem Kept.resetHistory (h : s.Kept t) (hs : s.Regular) (hr : t.remembered = s.remembered) :
    s.resetHistory.Agrees t.resetHistory :=
  h.startsAlike (initialVariables_eq hs.macros h.macros h.keyStart hr)

theorem resetHistory_kept (s : Story) : s.Kept s.resetHistory :=
  ⟨rfl, rfl, rfl, rfl, rfl, rfl⟩

end Story

end Gamebook
