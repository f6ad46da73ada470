/-
**Actions that were followed stay hidden.**

An action is offered until it has been followed.  That it was followed is noted at the entry that
the reader leaves, before the next one is added; the next one starts with a copy of the note, and no
render takes it back.  So the actions followed only grow from entry to entry, and what a page shows
agrees with them, until the history starts over.

Main definitions:

* `Variables.ClickedIn`, `History.ClicksGrow` — the actions followed from a point are among those
  followed from a later one;
* `Bond.withholding` — the bond of renders that offer no action that was followed;
* `Story.Hides` — a story that offers none;
* `Story.Resets` — the acts that start the history over.

Main results:

* `Bond.withholding_lawful` — **the standard macros offer no action that was followed**, however
  deep their calls lie;
* `Story.Hides.act` — no act makes a story offer one;
* `Story.clickedIn_act` — an action that was followed counts as followed until the history starts
  over;
* `Story.followed_stays_hidden` — **a followed action stays hidden** at every point of every
  reading.
-/

import Gamebook.Proofs.Story.Isolation

set_option relaxedAutoImplicit false
set_option autoImplicit false

namespace Gamebook

/-! ### Actions that were followed -/

namespace Variables

variable {vars vars' vars'' : Variables}

/-- The actions followed from a point are among those followed from another one. -/
def ClickedIn (vars vars' : Variables) : Prop :=
  ∀ title, vars.isClicked title = true → vars'.isClicked title = true

theorem ClickedIn.refl (vars : Variables) : vars.ClickedIn vars := fun _ h => h

theorem ClickedIn.trans (h : vars.ClickedIn vars') (h' : vars'.ClickedIn vars'') :
    vars.ClickedIn vars'' := fun title hc => h' title (h title hc)

/-- What was followed does not depend on the values of the variables. -/
theorem isClicked_of_clicked (h : vars'.clicked = vars.clicked) (title : String) :
    vars'.isClicked title = vars.isClicked title := by
  rw [isClicked, h, ← isClicked]

theorem clickedIn_of_clicked (h : vars'.clicked = vars.clicked) : vars.ClickedIn vars' :=
  fun title hc => (isClicked_of_clicked h title).trans hc

theorem isClicked_click (vars : Variables) (title other : String) :
    (vars.click title).isClicked other = (decide (other = title) || vars.isClicked other) :=
  ((History.start vars).click_clicks title).clicked other

theorem clickedIn_click (vars : Variables) (title : String) :
    vars.ClickedIn (vars.click title) := by
  intro other hc
  rw [isClicked_click, hc, Bool.or_true]

end Variables

namespace History

variable {h h' : History}

/-- The actions followed grow from each entry to all later ones. -/
def ClicksGrow (h : History) : Prop :=
  h.entries.Pairwise fun newer older => older.vars.ClickedIn newer.vars

theorem clicksGrow_iff :
    h.ClicksGrow ↔ (∀ e ∈ h.earlier, e.vars.ClickedIn h.vars) ∧
      h.earlier.Pairwise fun newer older => older.vars.ClickedIn newer.vars := List.pairwise_cons

theorem clicksGrow_start (vars : Variables) : (start vars).ClicksGrow := List.pairwise_singleton _ _

/-- A new entry starts with a copy of what was followed. -/
theorem ClicksGrow.push (hg : h.ClicksGrow) (p : Passage) : (h.push p).ClicksGrow := by
  refine clicksGrow_iff.2 ⟨?_, hg⟩
  intro e he
  rcases List.mem_cons.1 he with rfl | he
  · exact .refl _
  · exact (clicksGrow_iff.1 hg).1 e he

/-- More may be followed from the current entry. -/
theorem ClicksGrow.current (hg : h.ClicksGrow) (hearlier : h'.earlier = h.earlier)
    (hvars : h.vars.ClickedIn h'.vars) : h'.ClicksGrow := by
  rw [clicksGrow_iff] at hg ⊢
  rw [hearlier]
  exact ⟨fun e he => (hg.1 e he).trans hvars, hg.2⟩

theorem ClicksGrow.click (hg : h.ClicksGrow) (title : String) : (h.click title).ClicksGrow :=
  hg.current rfl (h.vars.clickedIn_click title)

theorem ClicksGrow.upToValues (hg : h.ClicksGrow) (hu : h.UpToValues h') : h'.ClicksGrow :=
  hg.current hu.earlier (Variables.clickedIn_of_clicked hu.clicked)

end History

/-! ### Renders -/

namespace Bond

/-- The links that a page may show: no action that was followed. -/
def Unfollowed (p : Page) : Link → Prop
  | .action title _ => p.vars.isClicked title = false
  | .passage _ _ => True
  | .external _ => True
  | .back _ => True

/-- Renders that offer no action that was followed, shown or not. -/
def withholding : Bond where
  settings σ τ := τ.keyStart = σ.keyStart
  pages p q := (q.store = p.store ∧ q.history = p.history) ∧
    ∀ title ∈ p.offered, p.vars.isClicked title = false
  later p q := q.vars.clicked = p.vars.clicked
  link := Unfollowed
  later_refl _ := rfl
  later_trans h h' := h'.trans h
  link_later {p q l} h hl := by
    cases l with
    | action title broken => exact (Variables.isClicked_of_clicked h title).trans hl
    | back token => trivial
    | passage title broken => trivial
    | external url => trivial
  store_eq h := Page.store_eq h.1
  link_passage _ _ := trivial
  link_external _ _ := trivial

/-- **The standard macros offer no action that was followed.** -/
theorem withholding_lawful : withholding.Lawful where
  history_eq h := h.1.2
  keyStart_eq h := h
  write {p q _ _} vars h he := by
    have hclicked : vars.clicked = p.vars.clicked := Expr.clicked_evaluateChars he
    refine ⟨⟨⟨h.1.1, congrArg (History.withVariables · vars) h.1.2⟩, fun title hin => ?_⟩, hclicked⟩
    exact (Variables.isClicked_of_clicked hclicked title).trans (h.2 title hin)
  keep _ _ _ h := ⟨h, rfl⟩
  offer titles h hopen := by
    refine ⟨⟨h.1, fun title hin => ?_⟩, rfl, hopen⟩
    rcases List.mem_append.1 hin with hin | hin
    · exact h.2 title hin
    · exact hopen title hin
  back _ _ _ _ := trivial

theorem withholding_nests : withholding.Nests withholding where
  pages_enter h := h
  link_enter {p l} h := by cases l <;> exact h
  pages_leave h := h
  link_leave {p l} h := by cases l <;> exact h
  later_leave h := h

end Bond

namespace Story

variable {s t : Story} {title token : String}

theorem withholding_kits (hs : s.Regular) : Bond.withholding.Kits s.kit s.kit where
  formatters_eq := rfl
  macros_eq := rfl
  maxDepth_eq := rfl
  settings := rfl
  formatters f hf := hs.formatters f hf _
  macros := by
    have hkept := Bond.withholding_lawful.standard_kept
    rw [← hs.macros] at hkept
    exact hkept

/-- **A render offers no action that was followed**, neither in what it shows nor in what it throws
away. -/
theorem render_hides (hs : s.Regular) (text : String) :
    (∀ title broken, .action title broken ∈ Node.links (s.renderSource text).1 →
        s.history.vars.isClicked title = false) ∧
      ∀ title ∈ (s.render text).2.1, s.history.vars.isClicked title = false := by
  have hpage : Bond.withholding.pages s.page s.page :=
    ⟨⟨rfl, rfl⟩, fun _ hin => absurd hin List.not_mem_nil⟩
  obtain ⟨-, hpages, hshows, hlater⟩ :=
    (withholding_kits hs).render Bond.withholding_nests text.toList hpage
  -- the actions followed are those from before the render
  have hclicked := Variables.isClicked_of_clicked hlater
  refine ⟨fun title broken hl => ?_, fun title hin => ?_⟩
  · exact (hclicked title).symm.trans (Bond.shows_iff.1 hshows _ hl)
  · exact (hclicked title).symm.trans (hpages.2 title hin)

/-! ### Showing passages -/

/-- A story whose entries note more and more actions as followed, and which offers none that was
followed from the current entry. -/
structure Hides (s : Story) : Prop where
  regular : s.Regular
  grows : s.history.ClicksGrow
  links : ∀ title broken, .action title broken ∈ s.links → s.history.vars.isClicked title = false
  offered : ∀ title ∈ s.offeredActions, s.history.vars.isClicked title = false

/-- What concerns the host and the time alone makes no action appear. -/
theorem Hides.frame (h : s.Hides) (ht : s.Alike t) : t.Hides where
  regular := ht.kept.regular h.regular
  grows := by
    rw [ht.agrees.history]
    exact h.grows
  links := by
    rw [ht.agrees.history, ht.links_eq]
    exact h.links
  offered := by
    rw [ht.agrees.history, ht.agrees.offeredActions]
    exact h.offered

theorem Hides.seeAddress (h : s.Hides) : s.seeAddress.Hides := h.frame (s.host_alike _ _ _)

/-- A story that shows nothing offers no actions. -/
theorem hides_of_blank (hs : s.Regular) (hg : s.history.ClicksGrow) (hcurrent : s.current = none)
    (hoffered : s.offeredActions = []) : s.Hides where
  regular := hs
  grows := hg
  links title broken hl := by simp [Story.links, hcurrent] at hl
  offered title hin := by simp [hoffered] at hin

theorem new_hides (store : Store) (config : Config) (jar : Jar) (navigator : Navigator)
    (now : Nat) : (Story.new store config jar navigator now).Hides :=
  hides_of_blank (new_regular store config jar navigator now) (History.clicksGrow_start _) rfl rfl

/-- **A passage that is shown agrees with what was followed.** -/
theorem showPassage_hides (hs : s.Regular) (hg : s.history.ClicksGrow) (p : Passage)
    (mode : DisplayMode) : (s.showPassage p mode).Hides := by
  have hentries : s.history.UpToValues (s.showPassage p mode).history :=
    (keepsEntries hs).render p.text.toList s.page
  have hclicked := Variables.isClicked_of_clicked hentries.clicked
  obtain ⟨hlinks, hoffered⟩ := render_hides hs p.text
  exact {
    regular := (showPassage_kept hs p mode).regular hs
    grows := hg.upToValues hentries
    links := fun title broken hl => (hclicked title).trans (hlinks title broken hl)
    offered := fun title hin => (hclicked title).trans (hoffered title hin) }

theorem display_hides (hs : s.Regular) (hg : s.history.ClicksGrow) (title : String)
    (mode : DisplayMode) : (s.display title mode).Hides := by
  have hshow := showPassage_hides ((s.pushed_kept title).regular hs) (hg.push (s.store.get title))
    (s.store.get title) mode
  by_cases hm : mode = .offscreen
  · subst hm
    exact hshow
  · rw [display_of_ne s title hm]
    exact hshow.frame (host_alike _ _ _ _)

theorem begin_hides (hs : s.Regular) : s.begin.Hides :=
  display_hides (s.resetHistory_kept.regular hs) (History.clicksGrow_start _) _ _

/-- A click that is guessed is noted before the next entry is added. -/
theorem reached_clicksGrow (hg : s.history.ClicksGrow) (isFirst : Bool) (title : String) :
    (s.reached isFirst title).history.ClicksGrow := by
  cases isFirst with
  | true => exact hg
  | false =>
      change (s.guessClick title).history.ClicksGrow
      rw [guessClick]
      split
      · exact hg.click title
      · exact hg

theorem Hides.replay (h : s.Hides) (isFirst : Bool) (titles : List String) :
    (s.replay isFirst titles).Hides := by
  induction titles generalizing s isFirst with
  | nil => exact h
  | cons title titles ih =>
      have hreached := (s.reached_kept isFirst title).regular h.regular
      rw [replay_cons]
      exact ih (display_hides hreached (reached_clicksGrow h.grows isFirst title) title _) false

theorem restore_hides (hs : s.Regular) (h : s.restore token = (.ok (), t)) : t.Hides := by
  obtain ⟨ids, hne, -, hids, rfl⟩ := restore_ok h
  obtain ⟨title, titles, htitles⟩ := List.exists_cons_of_ne_nil (titlesOf_ne_nil hids hne)
  have hr := s.resetHistory_kept.regular hs
  -- the first passage takes the place of what was shown before
  rw [restored, htitles, replay_cons]
  exact (display_hides hr (History.clicksGrow_start _) title _).replay false titles

/-! ### All acts -/

namespace Hides

theorem start (h : s.Hides) : s.start.2.Hides := by
  obtain ⟨s', hr, hstart⟩ | ⟨outcome, hstart⟩ := s.start_cases
  · rw [hstart]
    exact (restore_hides h.regular hr).seeAddress
  · rw [hstart]
    exact (begin_hides h.regular).seeAddress

theorem poll (h : s.Hides) : s.poll.2.Hides := by
  obtain ⟨-, hp⟩ | ⟨-, -, hp⟩ | ⟨-, s', hr, hp⟩ | ⟨-, e, -, hp⟩ := s.poll_cases
  · rw [hp]
    exact h
  · rw [hp]
    exact h.frame (s.host_alike _ _ _)
  · rw [hp]
    exact (restore_hides h.regular hr).seeAddress
  · rw [hp]
    exact h.seeAddress

theorem rerender (h : s.Hides) : (s.rerender.getD s).Hides := by
  rw [Story.rerender]
  cases s.history.current.title with
  | none => exact h
  | some title => exact showPassage_hides h.regular h.grows _ _

theorem restart (h : s.Hides) : s.restart.Hides :=
  hides_of_blank ⟨h.regular.macros, h.regular.formatters⟩ (History.clicksGrow_start _) rfl rfl

/-- What else is rendered leaves the actions followed as they are. -/
theorem renderSource (h : s.Hides) (text : String) : (s.renderSource text).2.Hides := by
  have hentries := renderSource_upToValues h.regular text
  have hclicked := Variables.isClicked_of_clicked hentries.clicked
  exact {
    regular := ⟨h.regular.macros, h.regular.formatters⟩
    grows := h.grows.upToValues hentries
    links := fun title broken hl => (hclicked title).trans (h.links title broken hl)
    offered := fun title hin => (hclicked title).trans (h.offered title hin) }

theorem activate (h : s.Hides) (link : Link) : (s.activate link).2.Hides := by
  cases link with
  | passage title broken => exact display_hides h.regular h.grows title .normal
  | action title broken =>
      have hclick := (s.click_kept title).regular h.regular
      exact display_hides hclick (h.grows.click title) title .normal
  | back token =>
      have hset : { s with navigator := s.navigator.setAddress token }.Hides :=
        h.frame (s.host_alike _ _ _)
      exact hset.poll
  | external url => exact h

/-- **No act makes a story offer an action that was followed.** -/
theorem act (h : s.Hides) (a : Act) : (s.act a).Hides := by
  cases a with
  | start => exact h.start
  | display title mode => exact display_hides h.regular h.grows title mode
  | rerender => exact h.rerender
  | restore token => exact restore_preserves (P := Hides) h fun _ hr => restore_hides h.regular hr
  | restart => exact h.restart
  | poll => exact h.poll
  | activate link => exact h.activate link
  | pageElement title default => exact h.renderSource _
  | renderSource text => exact h.renderSource text
  | writeAddress address => exact h.frame (s.host_alike _ _ _)
  | clock now => exact h.frame (s.host_alike _ _ _)

end Hides

/-! ### Until the history starts over -/

/-- The act starts the history over: a reading begins anew, or a token is restored. -/
def Resets (s : Story) : Act → Prop
  | .start => True
  | .restart => True
  | .restore token => (s.restore token).1 = .ok ()
  | .poll => ∃ address, s.poll.1 = .restored address
  | .activate (.back token) =>
      ∃ address, (s.activate (.back token)).1 = .navigated (.restored address)
  | .activate (.passage _ _) => False
  | .activate (.action _ _) => False
  | .activate (.external _) => False
  | .display _ _ => False
  | .rerender => False
  | .pageElement _ _ => False
  | .renderSource _ => False
  | .writeAddress _ => False
  | .clock _ => False

/-- A passage shown starts with what was followed before. -/
theorem Enters.clickedIn {h : History} (he : s.Enters h title t) :
    h.vars.ClickedIn t.history.vars :=
  Variables.clickedIn_of_clicked he.entries.clicked

/-- A look at the address that restores nothing leaves the history alone. -/
theorem history_poll (h : ¬ ∃ address, s.poll.1 = .restored address) :
    s.poll.2.history = s.history := by
  obtain ⟨-, hp⟩ | ⟨-, -, hp⟩ | ⟨-, s', -, hp⟩ | ⟨-, e, -, hp⟩ := s.poll_cases
  · rw [hp]
  · rw [hp]
    rfl
  · exact absurd ⟨_, congrArg Prod.fst hp⟩ h
  · rw [hp]
    rfl

/-- **What was followed counts as followed** until the history starts over. -/
theorem clickedIn_act (hs : s.Regular) {a : Act} (ha : ¬ s.Resets a) :
    s.history.vars.ClickedIn (s.act a).history.vars := by
  cases a with
  | start => exact absurd trivial ha
  | display title mode => exact (display_enters hs title mode).clickedIn
  | rerender => exact Variables.clickedIn_of_clicked (rerender_upToValues hs).clicked
  | restore token =>
      rw [Story.act]
      obtain ⟨e, hr⟩ | ⟨t, hr⟩ := s.restore_error_or_ok token
      · rw [hr]
        exact .refl _
      · exact absurd (congrArg Prod.fst hr) ha
  | restart => exact absurd trivial ha
  | poll =>
      rw [Story.act, history_poll ha]
      exact .refl _
  | activate link =>
      cases link with
      | passage title broken => exact (display_enters hs title .normal).clickedIn
      | action title broken =>
          exact (s.history.vars.clickedIn_click title).trans
            (activate_action_enters hs title broken).clickedIn
      | external url => exact .refl _
      | back token =>
          have hpoll : (s.act (.activate (.back token))).history = s.history := by
            refine history_poll (s := { s with navigator := s.navigator.setAddress token }) ?_
            rintro ⟨address, haddress⟩
            exact ha ⟨address, congrArg Activation.navigated haddress⟩
          rw [hpoll]
          exact .refl _
  | pageElement title default =>
      exact Variables.clickedIn_of_clicked (renderSource_upToValues hs _).clicked
  | renderSource text =>
      exact Variables.clickedIn_of_clicked (renderSource_upToValues hs text).clicked
  | writeAddress address => exact .refl _
  | clock now => exact .refl _

/-- An action that is followed counts as followed from the new entry on. -/
theorem isClicked_activate (hs : s.Regular) (title : String) (broken : Bool) :
    (s.activate (.action title broken)).2.history.vars.isClicked title = true := by
  refine (activate_action_enters hs title broken).clickedIn title ?_
  refine (s.history.vars.isClicked_click title title).trans ?_
  simp

/-- A story that offers no action that was followed, and in which this one was. -/
structure HidesFollowed (s : Story) (title : String) : Prop where
  hides : s.Hides
  clicked : s.history.vars.isClicked title = true

theorem HidesFollowed.act (h : s.HidesFollowed title) {a : Act} (ha : ¬ s.Resets a) :
    (s.act a).HidesFollowed title :=
  ⟨h.hides.act a, clickedIn_act h.hides.regular ha title h.clicked⟩

/-- **A followed action stays hidden**, at every point of every reading.  What is shown offers no
action that was followed from the current entry, and the actions followed grow from each entry to
the later ones.  Once an action has been followed, it counts as followed until the history starts
over; up to then no passage that is shown, for the first time or again, and no other text links to
it, and none offers it, not even where nothing is shown of it. -/
theorem followed_stays_hidden (store : Store) (config : Config) (jar : Jar) (navigator : Navigator)
    (now : Nat) (row : List Act) :
    let s := (Story.new store config jar navigator now).acts row
    (∀ title broken, .action title broken ∈ s.links → s.history.vars.isClicked title = false) ∧
      s.history.ClicksGrow ∧
      ∀ title broken t, Runs (fun u a => ¬ u.Resets a) (s.activate (.action title broken)).2 t →
        t.history.vars.isClicked title = true ∧
          (∀ broken', .action title broken' ∉ t.links) ∧ title ∉ t.offeredActions ∧
          ∀ text broken', .action title broken' ∉ Node.links (t.renderSource text).1 := by
  intro s
  have hs : s.Hides :=
    acts_invariant (new_hides store config jar navigator now) (fun _ a h => h.act a) row
  refine ⟨hs.links, hs.grows, fun title broken t hrun => ?_⟩
  have hstart : (s.activate (.action title broken)).2.HidesFollowed title :=
    ⟨hs.activate _, isClicked_activate hs.regular title broken⟩
  obtain ⟨ht, hclicked⟩ : t.HidesFollowed title :=
    hrun.invariant (P := (HidesFollowed · title)) hstart fun _ _ hu ha => hu.act ha
  have hne : ¬ t.history.vars.isClicked title = false := by simp [hclicked]
  exact ⟨hclicked, fun broken' hl => hne (ht.links title broken' hl),
    fun hin => hne (ht.offered title hin),
    fun text broken' hl => hne ((render_hides ht.regular text).1 title broken' hl)⟩

end Story

end Gamebook
