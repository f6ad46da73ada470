/-
**A story that was restarted is a fresh one.**

Much can happen to a story: a reading goes on or starts over, values are kept, texts are changed by a
macro, and the host does what it likes with the jar, the address and the time.  But the passages as
they were loaded, the tables and the settings stay.  So a restart, which goes back to the texts that
were loaded and forgets the reading and the address, leaves a story that nothing but its host can tell
from one that was just built with the jar of that moment.

Main definitions:

* `Macros.scrawling` — the standard macros and one that changes texts;
* `Bond.rewriting` — the bond of renders that change no text for good;
* `Story.ofRecords` — a story as a host builds it;
* `Story.SameEdition` — stories with the same passages as they were loaded, tables and settings.

Main results:

* `Bond.rewriting_standard`, `Bond.rewriting_scrawling` — **these macros change no text for good**;
* `Story.sameEdition_of_becomes` — whatever happens to a story, its edition stays;
* `Story.restart_eq` — what a restart leaves is a story just built, but for the host;
* `Story.restart_fresh` — **a story that was restarted is a fresh one**.
-/

import Gamebook.Host.Macros
import Gamebook.Proofs.Story.Lasting
import Gamebook.Proofs.Story.Twins

set_option relaxedAutoImplicit false
set_option autoImplicit false

namespace Gamebook

/-- The standard macros and one that changes the texts of passages. -/
def Macros.scrawling : Macros := Macros.standard.insert "scrawl" Macro.scrawl

/-! ### Renders that change no text for good -/

namespace Bond

/-- Renders after which the texts that were loaded are still the same. -/
def rewriting : Bond :=
  .itself (fun _ => True) (fun p q => q.store.resetAll = p.store.resetAll)
    { refl := fun _ => rfl
      trans := fun h h' => h'.trans h }

theorem rewriting_lawful : rewriting.Lawful where
  toMindful := .of_later (fun _ _ => rfl) (fun _ _ => rfl)
  keyStart_eq h := congrArg Setting.keyStart h.1
  keep := by
    rintro p q σ τ key value ⟨rfl, -⟩ rfl
    exact ⟨rfl, rfl⟩

theorem rewriting_standard : rewriting.KeptByMacros Macros.standard := rewriting_lawful.standard_kept

/-- A text that was changed can be changed back. -/
theorem rewriting_scrawl : rewriting.KeptByMacro Macro.scrawl := by
  intro c d call s q _ hj
  obtain rfl : q = s.page := hj.pages
  simp only [Macro.scrawl]
  split
  · rename_i title text _
    have hlater : rewriting.later s.page
        { s.page with store := s.page.store.setText title text } :=
      s.page.store.resetAll_setText title text
    exact ⟨rfl, _, rfl, hj.turn rfl hlater, hlater⟩
  · exact ⟨rfl, _, rfl, hj, rfl⟩

/-- **A macro that changes texts changes none for good.** -/
theorem rewriting_scrawling : rewriting.KeptByMacros Macros.scrawling := by
  intro name m hget
  rw [Macros.scrawling, Dict.get?_insert] at hget
  split at hget
  · cases hget
    exact rewriting_scrawl
  · exact rewriting_standard name m hget

end Bond

namespace Story

variable {s t built : Story} {records : List Record} {config : Config} {formatters : Formatters}
  {macros : Macros} {jar : Jar} {navigator : Navigator} {now : Nat}

/-! ### Editions -/

/-- A story as a host builds it. -/
def ofRecords (records : List Record) (config : Config) (formatters : Formatters) (macros : Macros)
    (jar : Jar) (navigator : Navigator) (now : Nat) : Story :=
  ((Story.new (.ofRecords records) config jar navigator now).withFormatters formatters).withMacros
    macros

/-- Stories with the same passages as they were loaded, the same tables and the same settings. -/
structure SameEdition (s t : Story) : Prop where
  loaded : t.store.resetAll = s.store.resetAll
  formatters : t.formatters = s.formatters
  macros : t.macros = s.macros
  config : t.config = s.config
  title : t.title = s.title
  keyStart : t.keyStart = s.keyStart

theorem SameEdition.refl (s : Story) : s.SameEdition s := ⟨rfl, rfl, rfl, rfl, rfl, rfl⟩

/-- The tables of the story change no text for good. -/
structure KeepsTexts (s : Story) : Prop where
  formatters : ∀ f ∈ s.formatters, Bond.rewriting.KeptBy f
  macros : Bond.rewriting.KeptByMacros s.macros

/-- A render changes no text for good. -/
theorem KeepsTexts.loaded_render (h : s.KeepsTexts) (text : String) :
    (s.renderSource text).2.store.resetAll = s.store.resetAll := by
  have hmacros : Bond.rewriting.KeptByMacros s.kit.macros := h.macros
  exact Bond.later_render trivial h.formatters hmacros id text.toList s.page

/-- **Every step leaves a story the edition that it is.** -/
theorem sameEdition_lasting (hb : built.KeepsTexts) : Lasting built.SameEdition where
  frame _ _ _ _ _ _ h := ⟨h.loaded, h.formatters, h.macros, h.config, h.title, h.keyStart⟩
  startOver h := ⟨h.loaded, h.formatters, h.macros, h.config, h.title, h.keyStart⟩
  click _ h := ⟨h.loaded, h.formatters, h.macros, h.config, h.title, h.keyStart⟩
  push _ h := ⟨h.loaded, h.formatters, h.macros, h.config, h.title, h.keyStart⟩
  render text h := by
    rename_i s
    have hs : s.KeepsTexts := by
      refine ⟨?_, ?_⟩
      · rw [h.formatters]
        exact hb.formatters
      · rw [h.macros]
        exact hb.macros
    refine ⟨?_, h.formatters, h.macros, h.config, h.title, h.keyStart⟩
    rw [hs.loaded_render, h.loaded]
  resetTexts h := by
    refine ⟨?_, h.formatters, h.macros, h.config, h.title, h.keyStart⟩
    rw [Store.resetAll_resetAll, h.loaded]

/-- **Whatever happens to a story, its edition stays.** -/
theorem sameEdition_of_becomes (hb : built.KeepsTexts) (hs : built.Becomes s) :
    built.SameEdition s :=
  (sameEdition_lasting hb).becomes
    (fun _ _ h => ⟨h.loaded, h.formatters, h.macros, h.config, h.title, h.keyStart⟩) (.refl built) hs

/-! ### Restarting -/

/-- **What a restart leaves, once the history starts over, is a story just built**, but for what was
asked of the host. -/
theorem restart_eq
    (hs : (ofRecords records config formatters macros jar navigator now).SameEdition s) :
    s.restart.resetHistory =
      { (ofRecords records config formatters macros s.jar {} s.now).resetHistory with
        navigator := s.restart.navigator } := by
  have hstore : s.store.resetAll = (Store.ofRecords records).withMissingText config.missingText :=
    hs.loaded.trans (Store.resetAll_ofRecords records config.missingText)
  have hformatters : s.formatters = formatters := hs.formatters
  have hmacros : s.macros = macros := hs.macros
  have hconfig : s.config = config := hs.config
  simp only [restart, resetHistory, initialVariables, prelude, hstore, hformatters, hmacros, hconfig,
    hs.title, hs.keyStart]
  rfl

/-- Without a token in the address a reading starts with the start passage. -/
theorem start_of_empty (h : isEmptyAddress s.navigator.address = true) :
    s.start = (.fresh, s.begin.seeAddress) := by
  rw [start, restore_of_empty h]

/-- **A story that was restarted begins like one just built.** -/
theorem begin_restart_twins
    (hs : (ofRecords records config formatters macros jar navigator now).SameEdition s) :
    (ofRecords records config formatters macros s.jar {} s.now).begin.Twins s.restart.begin := by
  have hconfig : s.restart.config = config := hs.config
  have haddress : s.restart.navigator.address =
      (ofRecords records config formatters macros s.jar {} s.now).resetHistory.navigator.address := rfl
  have hsight : DisplayMode.normal ≠ .offscreen := by decide
  rw [begin, begin, restart_eq hs, hconfig]
  exact display_twins haddress config.startPassage hsight

/-- **A story that was restarted is a fresh one.**  Take a story as a host builds it, from any records,
with formatters that change no text for good, and with the standard macros or those and one that
changes texts; and whatever has happened to it.  It is restarted, and begins; and another one is built
of the same with the jar and at the time of that moment, and begins with an empty address.  Both begin
fresh, with the same history, passage shown, texts, address and document title.  Then they answer every
row of acts alike, and after each the same holds again. -/
theorem restart_fresh (hf : ∀ f ∈ formatters, Bond.rewriting.KeptBy f)
    (hm : macros = .standard ∨ macros = .scrawling)
    (hs : (ofRecords records config formatters macros jar navigator now).Becomes s) :
    let anew := ofRecords records config formatters macros s.jar {} s.now
    anew.start.1 = .fresh ∧ s.restart.start.1 = .fresh ∧
      s.restart.start.2.history = anew.start.2.history ∧
      s.restart.start.2.current = anew.start.2.current ∧
      s.restart.start.2.store = anew.start.2.store ∧
      s.restart.start.2.navigator.address = anew.start.2.navigator.address ∧
      s.restart.start.2.navigator.title = anew.start.2.navigator.title ∧
      ∀ row, s.restart.start.2.answers row = anew.start.2.answers row ∧
        (anew.start.2.acts row).Twins (s.restart.start.2.acts row) := by
  intro anew
  have hkeeps : (ofRecords records config formatters macros jar navigator now).KeepsTexts := by
    refine ⟨hf, ?_⟩
    rcases hm with rfl | rfl
    · exact Bond.rewriting_standard
    · exact Bond.rewriting_scrawling
  have hedition := sameEdition_of_becomes hkeeps hs
  have hanew : anew.start = (.fresh, anew.begin.seeAddress) := start_of_empty rfl
  have hrestart : s.restart.start = (.fresh, s.restart.begin.seeAddress) := start_of_empty rfl
  have htwins : anew.begin.seeAddress.Twins s.restart.begin.seeAddress :=
    (begin_restart_twins hedition).seeAddress
  rw [hanew, hrestart]
  exact ⟨rfl, rfl, htwins.history, htwins.current, htwins.store, htwins.address,
    htwins.documentTitle, htwins.acts⟩

/-- A wall and a passage that scrawls on it, and remembers that it has. -/
def wall : Fixture :=
  (({} : Fixture).addPassage "Start"
    "<<scrawl \"Wall\" \"KILROY WAS HERE\">><<remember $scrawled = true>>[[Wall]]" []).addPassage "Wall"
    "Bare brick." []

/-- The story of the wall, built. -/
def walled : Story := ofRecords wall.records {} .standard .scrawling .empty {} 0

/-- A reading of it that has come to the wall. -/
def atWall : Story := (walled.act .start).act (.activate (.passage "Wall" false))

/-- The wall was scrawled on; after a restart it is bare, as in a story just built, and what was
remembered is there. -/
theorem restart_fresh_atWall :
    atWall.current.map Rendered.text = some "KILROY WAS HERE" ∧
      (atWall.restart.store.get "Wall").text = "Bare brick." ∧
      atWall.restart.start.2.history =
        (ofRecords wall.records {} .standard .scrawling atWall.jar {} atWall.now).start.2.history := by
  have hbecomes : walled.Becomes atWall := .act (.act .refl _) _
  have hformatters : ∀ f ∈ Formatters.standard, Bond.rewriting.KeptBy f :=
    fun f hf => Formatters.standard_transparent f hf _
  have hfresh := restart_fresh hformatters (.inr rfl) hbecomes
  exact ⟨by decide +kernel, by decide +kernel, hfresh.2.2.1⟩

end Story

end Gamebook
