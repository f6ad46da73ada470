/-
**Rendering at a point of a reading.**

With the standard macros, what a render yields depends on the passages, on the variables and on the
entries before, but not on the jar, the host and the time.  So two stories that agree on the reading
render every text alike.  The store stays as it is, and so does the history but for the variables of
the current entry; the back links lead to entries before, and the actions that are shown are offered.

Main definitions:

* `Story.links` — the links that are shown;
* `Story.Regular` — a story with the standard macros, whose formatters are transparent;
* `Story.Yield`, `Story.yield` — what a render yields;
* `Story.Agrees` — stories that are at the same point of the same reading;
* `History.Revisits` — a token that leads to an entry before the current one.

Main results:

* `Story.render_eq` — a render as an equation;
* `Story.Agrees.yield_eq` — **stories that agree render alike**;
* `Story.revisits_of_back`, `Story.offered_of_action` — the links that a render shows.
-/

import Gamebook.Proofs.Render.Formatters
import Gamebook.Proofs.Render.Levels
import Gamebook.Proofs.Render.Macros
import Gamebook.Story.Reading

set_option relaxedAutoImplicit false
set_option autoImplicit false

namespace Gamebook

/-- The token leads to an entry before the current one that shows a passage. -/
def History.Revisits (h : History) (token : String) : Prop :=
  ∃ e ∈ h.earlier, e.isOpening = false ∧ e.token = token

/-! ### The bond of a reading -/

namespace Bond

/-- The links that a page may show: back links lead to entries before the current one. -/
def Reachable (p : Page) : Link → Prop
  | .back token => p.history.Revisits token
  | .action title _ => title ∈ p.offered
  | .passage _ _ => True
  | .external _ => True

/-- Renders at the same point of a reading: the jar and the time may differ.  A render keeps the
store, and of the history all but the variables of the current entry. -/
def reading : Bond where
  settings σ τ := τ.config = σ.config ∧ τ.keyStart = σ.keyStart
  pages p q := q.store = p.store ∧ q.history = p.history ∧ q.offered = p.offered
  later p q := q.store = p.store ∧ p.offered ⊆ q.offered ∧
    q.history = p.history.withVariables q.vars
  link := Reachable
  later_refl _ := ⟨rfl, fun _ h => h, rfl⟩
  later_trans {p q r} h h' := by
    refine ⟨h'.1.trans h.1, fun _ hin => h'.2.1 (h.2.1 hin), ?_⟩
    rw [h'.2.2, h.2.2]
    rfl
  link_later {p q l} h hl := by
    cases l with
    | action title broken => exact h.2.1 hl
    | back token =>
        obtain ⟨e, he, hback⟩ := hl
        refine ⟨e, ?_, hback⟩
        rw [h.2.2]
        exact he
    | passage title broken => exact hl
    | external url => exact hl
  store_eq h := h.1.symm
  link_passage _ _ := trivial
  link_external _ _ := trivial

/-- A back link leads to an entry that shows a passage. -/
theorem reachable_of_backTarget {earlier : List Entry} {params : List String} {token : String}
    (h : Macro.backTarget earlier params = .ok token) :
    ∃ e ∈ earlier, e.isOpening = false ∧ e.token = token := by
  cases params with
  | cons title titles =>
      rw [Macro.backTarget] at h
      cases hfind : earlier.find? fun e => e.title == some title with
      | none => simp [hfind] at h
      | some e =>
          have htitle : e.title = some title := by simpa using List.find?_some hfind
          refine ⟨e, List.mem_of_find?_eq_some hfind, by simp [Entry.isOpening, htitle], ?_⟩
          simpa [hfind] using h
  | nil =>
      rw [Macro.backTarget] at h
      cases earlier with
      | nil => simp at h
      | cons e earlier =>
          refine ⟨e, List.mem_cons_self, ?_⟩
          cases hopening : e.isOpening with
          | true => simp [hopening] at h
          | false => exact ⟨rfl, by simpa [hopening] using h⟩

theorem reading_lawful : reading.Lawful where
  history_eq h := h.2.1
  keyStart_eq h := h.2
  write vars h _ := by
    refine ⟨⟨h.1, ?_, h.2.2⟩, rfl, fun _ hin => hin, rfl⟩
    exact congrArg (History.withVariables · vars) h.2.1
  keep key value _ h := ⟨⟨h.1, h.2.1, h.2.2⟩, rfl, fun _ hin => hin, rfl⟩
  offer {p q} titles h _ := by
    refine ⟨⟨h.1, h.2.1, ?_⟩, ⟨rfl, fun _ hin => List.mem_append_left _ hin, rfl⟩, fun title hin =>
      List.mem_append_right _ hin⟩
    have hoffered : q.offered = p.offered := h.2.2
    simp only [Page.offer, hoffered]
  back _ _ _ h := reachable_of_backTarget h

theorem reading_nests : reading.Nests reading where
  pages_enter h := h
  link_enter {p l} h := by cases l <;> exact h
  pages_leave h := h
  link_leave {p l} h := by cases l <;> exact h
  later_leave h := h

end Bond

namespace Story

variable {s t : Story}

/-- The links that are shown. -/
def links (s : Story) : List Link := (s.current.map Rendered.links).getD []

/-! ### What a render yields -/

/-- A story with the standard macros, whose formatters are transparent. -/
structure Regular (s : Story) : Prop where
  macros : s.macros = .standard
  formatters : ∀ f ∈ s.formatters, f.Transparent

theorem new_regular (store : Store) (config : Config) (jar : Jar) (navigator : Navigator)
    (now : Nat) : (Story.new store config jar navigator now).Regular :=
  ⟨rfl, Formatters.standard_transparent⟩

/-- What a render yields, apart from the jar. -/
structure Yield where
  nodes : List Node
  offered : List String
  vars : Variables

/-- What the render of a text yields at the current point of a reading. -/
def yield (s : Story) (text : String) : Yield :=
  let (nodes, page) := s.kit.render text.toList s.page
  { nodes := nodes, offered := page.offered, vars := page.vars }

/-- The jar after the render of a text. -/
def jarAfter (s : Story) (text : String) : Jar := (s.kit.render text.toList s.page).2.jar

/-- Stories at the same point of the same reading.  Their jars, hosts and times may differ, and so
may the passage that was shown last. -/
structure Agrees (s t : Story) : Prop where
  store : t.store = s.store
  history : t.history = s.history
  formatters : t.formatters = s.formatters
  macros : t.macros = s.macros
  config : t.config = s.config
  keyStart : t.keyStart = s.keyStart
  offeredActions : t.offeredActions = s.offeredActions
  offeredPassages : t.offeredPassages = s.offeredPassages

theorem Agrees.refl (s : Story) : s.Agrees s := ⟨rfl, rfl, rfl, rfl, rfl, rfl, rfl, rfl⟩

theorem Agrees.kits (h : s.Agrees t) (hs : s.Regular) : Bond.reading.Kits s.kit t.kit where
  formatters_eq := h.formatters
  macros_eq := h.macros
  maxDepth_eq := congrArg Config.maxDepth h.config
  settings := ⟨h.config, h.keyStart⟩
  formatters f hf := hs.formatters f hf _
  macros := by
    have hkept := Bond.reading_lawful.standard_kept
    rw [← hs.macros] at hkept
    exact hkept

theorem Agrees.pages (h : s.Agrees t) : Bond.reading.pages s.page t.page :=
  ⟨h.store, h.history, rfl⟩

/-- **Stories that agree render alike.** -/
theorem Agrees.yield_eq (h : s.Agrees t) (hs : s.Regular) (text : String) :
    t.yield text = s.yield text := by
  obtain ⟨hnodes, ⟨-, hhistory, hoffered⟩, -⟩ := (h.kits hs).render Bond.reading_nests text.toList h.pages
  simp only [yield, hnodes, Page.vars, hhistory, hoffered]

/-- A render of a story without a second one. -/
theorem render_facts (hs : s.Regular) (text : String) :
    Bond.reading.Shows (s.kit.render text.toList s.page).2 (s.kit.render text.toList s.page).1 ∧
      Bond.reading.later s.page (s.kit.render text.toList s.page).2 := by
  obtain ⟨-, -, hshows, hlater⟩ :=
    ((Agrees.refl s).kits hs).render Bond.reading_nests text.toList (Agrees.refl s).pages
  exact ⟨hshows, hlater⟩

/-- **A render changes the variables of the current entry and the jar**, and nothing else. -/
theorem render_eq (hs : s.Regular) (text : String) :
    s.render text = ((s.yield text).nodes, (s.yield text).offered,
      { s with
        history := s.history.withVariables (s.yield text).vars
        jar := s.jarAfter text }) := by
  obtain ⟨-, hstore, -, hhistory⟩ := render_facts hs text
  have hstore' : (s.kit.render text.toList s.page).2.store = s.store := hstore
  have hhistory' : (s.kit.render text.toList s.page).2.history =
      s.history.withVariables (s.yield text).vars := hhistory
  simp only [render, withPage, hstore', hhistory']
  rfl

/-! ### The links of a render -/

/-- The back links of a render lead to entries before. -/
theorem revisits_of_back (hs : s.Regular) {text token : String}
    (h : Link.back token ∈ Node.links (s.yield text).nodes) : s.history.Revisits token := by
  obtain ⟨hshows, -, -, hhistory⟩ := render_facts hs text
  obtain ⟨e, he, hback⟩ := Bond.shows_iff.1 hshows _ h
  rw [hhistory] at he
  exact ⟨e, he, hback⟩

/-- The actions that a render shows are offered. -/
theorem offered_of_action (hs : s.Regular) {text title : String} {broken : Bool}
    (h : Link.action title broken ∈ Node.links (s.yield text).nodes) :
    title ∈ (s.yield text).offered := Bond.shows_iff.1 (render_facts hs text).1 _ h

end Story

end Gamebook
