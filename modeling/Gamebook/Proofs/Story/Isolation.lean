/-
**Entries keep to themselves.**

Everything that renders holds the whole history: the formatters, the macros, and the passages that
are shown in place.  Yet a render only ever writes the values of the current variables.  So what
was read stays as it was read: a passage shown adds one entry, whose variables start as a copy of
those before, and a passage rendered again adds none.

Main definitions:

* `History.UpToVariables`, `History.UpToValues` — histories of which only the current variables
  differ, or only their values;
* `History.Clicks` — histories of which the current entry of one has a further action followed;
* `Bond.framing` — the bond of renders that write nothing else;
* `Story.Enters` — a story after a passage was shown at a new entry.

Main results:

* `Bond.framing_lawful` — **the standard macros write the current variables alone**;
* `Story.keepsEntries` — and so does all that happens inside a render, however deep;
* `Story.display_enters` — a passage shown adds one entry;
* `Story.earlier_acts` — **what was read stays** as the reading goes on;
* `Story.entries_isolated` — what each act does to the entries, at every point of every reading.
-/

import Gamebook.Proofs.Story.Sound

set_option relaxedAutoImplicit false
set_option autoImplicit false

namespace Gamebook

/-! ### Histories that differ in the current variables -/

namespace History

variable {h h' h'' : History}

/-- The histories differ at most in the variables of the current entry. -/
structure UpToVariables (h h' : History) : Prop where
  earlier : h'.earlier = h.earlier
  title : h'.current.title = h.current.title
  id : h'.current.id = h.current.id
  token : h'.current.token = h.current.token

theorem UpToVariables.trans (h₁ : h.UpToVariables h') (h₂ : h'.UpToVariables h'') :
    h.UpToVariables h'' where
  earlier := h₂.earlier.trans h₁.earlier
  title := h₂.title.trans h₁.title
  id := h₂.id.trans h₁.id
  token := h₂.token.trans h₁.token

theorem withVariables_upToVariables (h : History) (vars : Variables) :
    h.UpToVariables (h.withVariables vars) := ⟨rfl, rfl, rfl, rfl⟩

theorem UpToVariables.earlier_suffix (hu : h.UpToVariables h') : h.earlier <:+ h'.earlier :=
  ⟨[], hu.earlier.symm⟩

/-- The histories differ at most in the values of the variables of the current entry. -/
structure UpToValues (h h' : History) : Prop extends h.UpToVariables h' where
  clicked : h'.vars.clicked = h.vars.clicked

theorem UpToValues.refl (h : History) : h.UpToValues h := ⟨⟨rfl, rfl, rfl, rfl⟩, rfl⟩

theorem UpToValues.trans (h₁ : h.UpToValues h') (h₂ : h'.UpToValues h'') : h.UpToValues h'' :=
  ⟨h₁.toUpToVariables.trans h₂.toUpToVariables, h₂.clicked.trans h₁.clicked⟩

/-- The second history is the first with one more action followed from the current entry. -/
structure Clicks (action : String) (h h' : History) : Prop extends h.UpToVariables h' where
  values : h'.vars.values = h.vars.values
  clicked : ∀ other, h'.vars.isClicked other = (decide (other = action) || h.vars.isClicked other)

theorem click_clicks (h : History) (action : String) : Clicks action h (h.click action) := by
  refine ⟨h.withVariables_upToVariables _, rfl, fun other => ?_⟩
  change ((h.vars.clicked.insert action ()).get? other).isSome = _
  rw [Dict.get?_insert]
  by_cases ho : other = action
  · simp [ho]
  · simp [ho, Variables.isClicked, Dict.contains]

end History

/-! ### Renders -/

namespace Bond

/-- Renders that write nothing of the story and its history but the values of the current
variables. -/
def framing : Bond where
  settings σ τ := τ.keyStart = σ.keyStart
  pages p q := q.store = p.store ∧ q.history = p.history
  later p q := q.store = p.store ∧ p.history.UpToValues q.history
  link _ _ := True
  later_refl p := ⟨rfl, .refl p.history⟩
  later_trans h h' := ⟨h'.1.trans h.1, h.2.trans h'.2⟩
  link_later _ _ := trivial
  store_eq h := h.1.symm
  link_passage _ _ := trivial
  link_external _ _ := trivial

/-- **The standard macros write the current variables alone.** -/
theorem framing_lawful : framing.Lawful where
  history_eq h := h.2
  keyStart_eq h := h
  write {p _ _ _} vars h he :=
    ⟨⟨h.1, congrArg (History.withVariables · vars) h.2⟩, rfl,
      p.history.withVariables_upToVariables vars, Expr.clicked_evaluateChars he⟩
  keep _ _ _ h := ⟨h, rfl, .refl _⟩
  offer _ h _ := ⟨h, ⟨rfl, .refl _⟩, fun _ _ => trivial⟩
  back _ _ _ _ := trivial

theorem framing_nests : framing.Nests framing where
  pages_enter h := h
  link_enter h := h
  pages_leave h := h
  link_leave h := h
  later_leave h := h

end Bond

/-- All that happens inside a render keeps the entries: macro calls, texts rendered in place and
what lies inside elements, with any number of levels left. -/
structure Kit.KeepsEntries (kit : Kit) : Prop where
  call : ∀ left c (sc : Scanner),
    sc.page.history.UpToValues (kit.macros.call (kit.context left) c sc).page.history
  scan : ∀ left stop (sc : Scanner),
    sc.page.history.UpToValues ((kit.context left).scan stop sc).page.history
  text : ∀ left text nodes (page : Page) nodes' page',
    (kit.context left).render text nodes page = .ok (nodes', page') →
      page.history.UpToValues page'.history
  render : ∀ text (page : Page), page.history.UpToValues (kit.render text page).2.history

namespace Story

variable {s t : Story} {title : String} {mode : DisplayMode}

theorem framing_kits (hs : s.Regular) : Bond.framing.Kits s.kit s.kit where
  formatters_eq := rfl
  macros_eq := rfl
  maxDepth_eq := rfl
  settings := rfl
  formatters f hf := hs.formatters f hf _
  macros := by
    have hkept := Bond.framing_lawful.standard_kept
    rw [← hs.macros] at hkept
    exact hkept

/-- **Whatever happens inside a render keeps the entries**, however deep it lies. -/
theorem keepsEntries (hs : s.Regular) : s.kit.KeepsEntries := by
  obtain ⟨hcall, hscan, htext, hrender⟩ := (framing_kits hs).changes Bond.framing_nests
    (fun _ => ⟨rfl, rfl⟩) (fun _ _ => trivial)
  refine ⟨fun left c sc => (hcall left c sc).2, fun left stop sc => (hscan left stop sc).2, ?_,
    fun text page => (hrender text page).2⟩
  exact fun left text nodes page nodes' page' hr => (htext left text nodes page nodes' page' hr).2

/-! ### One act -/

/-- The page on which a passage is shown behind a history: at a new entry, with a copy of the
variables of the last one and of the actions followed from it. -/
def entering (s : Story) (h : History) (title : String) : Page where
  store := s.store
  history :=
    { current :=
        { title := some title
          id := (s.store.get title).id
          vars := h.vars
          token := Trail.encode (h.ids ++ (s.store.get title).id.toList) }
      earlier := h.entries }
  jar := s.jar

/-- A story after the passage of a title was shown behind a history: the entries are those of the
history and the new one, whose variables have the values that the render leaves. -/
structure Enters (s : Story) (h : History) (title : String) (t : Story) : Prop where
  entries : (s.entering h title).history.UpToValues t.history
  vars : t.history.vars =
    (s.kit.render (s.store.get title).text.toList (s.entering h title)).2.vars

theorem showPassage_history (s : Story) (p : Passage) (mode : DisplayMode) :
    (s.showPassage p mode).history = (s.kit.render p.text.toList s.page).2.history := rfl

/-- **A passage shown adds one entry** and leaves the others as they are. -/
theorem display_enters (hs : s.Regular) (title : String) (mode : DisplayMode) :
    s.Enters s.history title (s.display title mode) := by
  have hpage : (s.pushed title).page = s.entering s.history title := by
    simp only [page, pushed, entering, History.push, Store.title_get]
  have hhist : (s.display title mode).history =
      (s.kit.render (s.store.get title).text.toList (s.entering s.history title)).2.history := by
    by_cases hm : mode = .offscreen
    · subst hm
      rw [display_offscreen, showPassage_history, hpage]
      rfl
    · rw [display_of_ne s title hm, ← hpage]
      rfl
  refine ⟨?_, ?_⟩
  · rw [hhist]
    exact (keepsEntries hs).render _ _
  · rw [hhist]
    rfl

/-- An action followed is noted at the entry that offered it, before the new entry is added. -/
theorem activate_action_enters (hs : s.Regular) (title : String) (broken : Bool) :
    s.Enters (s.history.click title) title (s.activate (.action title broken)).2 :=
  -- what is shown does not depend on the entries apart from those on the page
  let h := display_enters ((s.click_kept title).regular hs) title .normal
  ⟨h.entries, h.vars⟩

theorem rerender_upToValues (hs : s.Regular) : s.history.UpToValues (s.act .rerender).history := by
  rw [act, rerender]
  cases s.history.current.title with
  | none => exact .refl _
  | some title => exact (keepsEntries hs).render _ s.page

theorem renderSource_upToValues (hs : s.Regular) (text : String) :
    s.history.UpToValues (s.renderSource text).2.history :=
  (keepsEntries hs).render text.toList s.page

/-! ### Going on -/

/-- The reading goes on in this act, or stays where it is: the act does not look at the address,
restore a token or begin anew. -/
def Act.GoesOn : Act → Prop
  | .display _ _ => True
  | .rerender => True
  | .activate (.passage _ _) => True
  | .activate (.action _ _) => True
  | .activate (.external _) => True
  | .activate (.back _) => False
  | .pageElement _ _ => True
  | .renderSource _ => True
  | .writeAddress _ => True
  | .clock _ => True
  | .start => False
  | .restore _ => False
  | .restart => False
  | .poll => False

theorem Enters.earlier_suffix {h : History} (he : s.Enters h title t)
    (hh : h.earlier = s.history.earlier) : s.history.earlier <:+ t.history.earlier := by
  rw [he.entries.earlier, ← hh]
  exact List.suffix_cons h.current h.earlier

theorem earlier_act (hs : s.Regular) {a : Act} (ha : a.GoesOn) :
    s.history.earlier <:+ (s.act a).history.earlier := by
  cases a with
  | display title mode => exact (display_enters hs title mode).earlier_suffix rfl
  | rerender => exact (rerender_upToValues hs).earlier_suffix
  | activate link =>
      cases link with
      | passage title broken => exact (display_enters hs title .normal).earlier_suffix rfl
      | action title broken => exact (activate_action_enters hs title broken).earlier_suffix rfl
      | external url => exact List.suffix_refl _
      | back token => exact ha.elim
  | pageElement title default => exact (renderSource_upToValues hs _).earlier_suffix
  | renderSource text => exact (renderSource_upToValues hs text).earlier_suffix
  | writeAddress address => exact List.suffix_refl _
  | clock now => exact List.suffix_refl _
  | start => exact ha.elim
  | restore token => exact ha.elim
  | restart => exact ha.elim
  | poll => exact ha.elim

/-- **What was read stays**: as a reading goes on, the entries before the current one stay where
they are, and as they are. -/
theorem earlier_acts (hs : s.Sound) (row : List Act) (hrow : ∀ a ∈ row, a.GoesOn) :
    s.history.earlier <:+ (s.acts row).history.earlier := by
  induction row generalizing s with
  | nil => exact List.suffix_refl _
  | cons a row ih =>
      obtain ⟨ha, hrow⟩ := List.forall_mem_cons.1 hrow
      exact (earlier_act hs.regular ha).trans (ih (hs.act a) hrow)

/-! ### At every point of every reading -/

/-- **Entries are isolated**, at every point of every reading.  A passage shown, by its title or by
a link, adds one entry behind those that are there; its variables are those that the render of the
passage leaves, which starts from a copy of the variables before and of the actions followed.  An
action is noted at the entry that offered it.  A passage rendered again, a part of the page and any
other text write the values of the current variables and no more; and so does all that happens
inside a render. -/
theorem entries_isolated (store : Store) (config : Config) (jar : Jar) (navigator : Navigator)
    (now : Nat) (row : List Act) :
    let s := (Story.new store config jar navigator now).acts row
    (∀ title mode, s.Enters s.history title (s.display title mode)) ∧
      (∀ title broken, s.Enters s.history title (s.activate (.passage title broken)).2) ∧
      (∀ title broken, History.Clicks title s.history (s.history.click title) ∧
        s.Enters (s.history.click title) title (s.activate (.action title broken)).2) ∧
      s.history.UpToValues (s.act .rerender).history ∧
      (∀ title default, s.history.UpToValues (s.pageElement title default).2.history) ∧
      (∀ text, s.history.UpToValues (s.renderSource text).2.history) ∧
      s.kit.KeepsEntries := by
  intro s
  have hs : s.Sound :=
    acts_invariant (new_sound store config jar navigator now) (fun _ a h => h.act a) row
  have hr := hs.regular
  refine ⟨display_enters hr, fun title _ => display_enters hr title .normal, fun title broken => ?_,
    rerender_upToValues hr, fun _ _ => renderSource_upToValues hr _, renderSource_upToValues hr,
    keepsEntries hr⟩
  exact ⟨s.history.click_clicks title, activate_action_enters hr title broken⟩

end Story

end Gamebook
