/-
**A restored reading forgets where it came from.**

Before a reading is restored there was another one, with a history, with actions and passages on
offer, and perhaps with values in the jar that are no longer live.  All that a story does with a token
goes from its passages, its tables, its settings and its live values.  So two stories that share these
are brought to the same point by the same token, whatever was read in them before.

Main definitions:

* `Jar.Tied` — jars that were written alike;
* `Bond.living` — the bond of renders that differ in values that are no longer live;
* `Macro.HeedsLive`, `Formatter.HeedsLive`, `Story.HeedsLive` — tables that look at the live values
  alone;
* `Story.SameBook` — stories that share all but what was read in them;
* `Story.Abreast` — stories at the same point of the same reading, with the same live values.

Main results:

* `MacroTable.heedsLive` — **all macros of a host heed the live values alone**;
* `Story.Abreast.display`, `Story.Abreast.replay` — **stories that are abreast stay so**;
* `Story.restore_forgets` — **a token leads stories that share a book to the same point**.
-/

import Gamebook.Host.Macros
import Gamebook.Proofs.Story.Replay

set_option relaxedAutoImplicit false
set_option autoImplicit false

namespace Gamebook

/-! ### Jars that were written alike -/

namespace Jar

variable {j k jar jar' : Jar} {now : Nat}

/-- Jars that came from `j` and `k` and were written alike: under each key they hold the same, or
both still hold there what they held at first. -/
def Tied (j k jar jar' : Jar) : Prop :=
  ∀ key, jar'.get? key = jar.get? key ∨ (jar.get? key = j.get? key ∧ jar'.get? key = k.get? key)

theorem Tied.refl (j k : Jar) : Tied j k j k := fun _ => .inr ⟨rfl, rfl⟩

theorem Tied.keep (h : Tied j k jar jar') (key value : String) (expiresAt : Nat) :
    Tied j k (jar.keep key value expiresAt) (jar'.keep key value expiresAt) := by
  intro other
  rw [Jar.keep, Jar.keep, Dict.get?_insert, Dict.get?_insert]
  by_cases hother : other = key
  · rw [if_pos hother, if_pos hother]
    exact .inl rfl
  · rw [if_neg hother, if_neg hother]
    exact h other

/-- Jars that started the same and were written alike are the same. -/
theorem Tied.eq (h : Tied j k jar jar') (hjk : k = j) : jar' = jar := by
  refine Dict.ext_get? _ _ fun key => ?_
  rcases h key with heq | ⟨hj, hk⟩
  · exact heq
  · rw [hj, hk, hjk]

/-- A value kept is kept in the live ones too, if it is live. -/
theorem live_keep (h : jar'.live now = jar.live now) (key value : String) (expiresAt : Nat) :
    (jar'.keep key value expiresAt).live now = (jar.keep key value expiresAt).live now := by
  refine Dict.ext_get? _ _ fun other => ?_
  have hother := congrArg (fun d : Jar => d.get? other) h
  simp only [Jar.live, Dict.get?_filter] at hother
  rw [Jar.live, Jar.live, Dict.get?_filter, Dict.get?_filter, Jar.keep, Jar.keep, Dict.get?_insert,
    Dict.get?_insert]
  by_cases hkey : other = key
  · rw [if_pos hkey, if_pos hkey]
  · rw [if_neg hkey, if_neg hkey]
    exact hother

end Jar

/-! ### Renders that heed the live values alone -/

namespace Bond

variable {now : Nat} {j k : Jar}

/-- Renders on pages that are the same, values apart that are no longer live.  The jars came from `j`
and `k` and were written alike. -/
def living (now : Nat) (j k : Jar) : Bond where
  settings σ τ := τ = σ ∧ σ.now = now
  pages p q :=
    ∃ jar, q = { p with jar := jar } ∧ jar.live now = p.jar.live now ∧ Jar.Tied j k p.jar jar
  later _ _ := True
  link _ _ := True
  later_refl _ := trivial
  later_trans _ _ := trivial
  link_later _ _ := trivial
  store_eq := by
    rintro p q ⟨jar, rfl, -⟩
    rfl
  link_passage _ _ := trivial
  link_external _ _ := trivial

theorem living_lawful : (living now j k).Lawful where
  history_eq := by
    rintro p q ⟨jar, rfl, -⟩
    rfl
  keyStart_eq := by
    rintro σ τ ⟨rfl, -⟩
    rfl
  write := by
    rintro p q source v vars ⟨jar, rfl, hlive, htied⟩ -
    exact ⟨⟨jar, rfl, hlive, htied⟩, trivial⟩
  keep := by
    rintro p q σ τ key value ⟨rfl, -⟩ ⟨jar, rfl, hlive, htied⟩
    exact ⟨⟨_, rfl, Jar.live_keep hlive _ _ _, htied.keep _ _ _⟩, trivial⟩
  offer := by
    rintro p q titles ⟨jar, rfl, hlive, htied⟩ -
    exact ⟨⟨jar, rfl, hlive, htied⟩, trivial, fun _ _ => trivial⟩
  back _ _ _ _ := trivial

theorem living_nests : (living now j k).Nests (living now j k) where
  pages_enter := by
    rintro p q ⟨jar, rfl, h⟩
    exact ⟨jar, rfl, h⟩
  link_enter h := h
  pages_leave := by
    rintro p q ⟨jar, rfl, h⟩
    exact ⟨jar, rfl, h⟩
  link_leave h := h
  later_leave h := h

end Bond

/-! ### Macros and formatters -/

/-- The formatter heeds no values but the live ones. -/
def Formatter.HeedsLive (f : Formatter) : Prop := ∀ now j k, (Bond.living now j k).KeptBy f

theorem Formatter.Transparent.heedsLive {f : Formatter} (h : f.Transparent) : f.HeedsLive :=
  fun _ _ _ => h _

namespace Macro

/-- The macro heeds no values but the live ones, neither when it is called nor when a reading
starts. -/
structure HeedsLive (m : Macro) : Prop where
  run : ∀ now j k, (Bond.living now j k).KeptByMacro m
  prepare : ∀ (prelude : Prelude) (jar : Jar) (vars : Variables),
    jar.live prelude.now = prelude.jar.live prelude.now →
      m.prepare { prelude with jar := jar } vars = m.prepare prelude vars

/-- The live values under the keys of a story are among the live ones. -/
theorem liveUnder_eq {jar jar' : Jar} {now : Nat} (h : jar'.live now = jar.live now)
    (start : String) : jar'.liveUnder now start = jar.liveUnder now start := by
  rw [Jar.liveUnder, Jar.liveUnder, h]

theorem standard_heedsLive {name : String} {m : Macro} (hget : Macros.standard.get? name = some m) :
    m.HeedsLive where
  run _ _ _ := Bond.living_lawful.standard_kept name m hget
  prepare prelude jar vars hlive :=
    Story.prepare_eq (a := prelude) (b := { prelude with jar := jar }) rfl (liveUnder_eq hlive _) rfl
      ((Dict.get?_eq_some_iff _ _ _).1 hget) vars

theorem scrawl_heedsLive : scrawl.HeedsLive where
  run now j k := by
    intro c d call s q _ hj
    obtain ⟨jar, rfl, hlive, htied⟩ := hj.pages
    simp only [scrawl]
    split
    · exact ⟨rfl, _, rfl, hj.turn ⟨jar, rfl, hlive, htied⟩ trivial, trivial⟩
    · exact ⟨rfl, _, rfl, hj, trivial⟩
  prepare _ _ _ _ := rfl

theorem oops_heedsLive : oops.HeedsLive where
  run _ _ _ _ _ _ _ _ _ hj := ⟨rfl, hj.refl⟩
  prepare _ _ _ _ := rfl

theorem whereabouts_heedsLive : whereabouts.HeedsLive where
  run now j k := by
    intro c d call s q _ hj
    obtain ⟨jar, rfl, hpages⟩ := hj.pages
    exact ⟨rfl, _, rfl, hj.emit Bond.showsNode_text, trivial⟩
  prepare prelude jar vars hlive := by
    simp only [whereabouts, liveUnder_eq hlive]

end Macro

/-- **All macros of a host heed the live values alone.** -/
theorem MacroTable.heedsLive (table : MacroTable) {name : String} {m : Macro}
    (hget : table.macros.get? name = some m) : m.HeedsLive := by
  cases table with
  | standard => exact Macro.standard_heedsLive hget
  | none => cases hget
  | noPrint =>
      rw [macros, Dict.get?_insert] at hget
      split at hget
      · cases hget
        exact Macro.whereabouts_heedsLive
      · exact Macro.standard_heedsLive hget
  | extended =>
      rw [macros, Dict.get?_insert, Dict.get?_insert, Dict.get?_insert] at hget
      split at hget
      · cases hget
        exact Macro.whereabouts_heedsLive
      · split at hget
        · cases hget
          exact Macro.oops_heedsLive
        · split at hget
          · cases hget
            exact Macro.scrawl_heedsLive
          · exact Macro.standard_heedsLive hget

namespace Story

variable {s t : Story} {j k : Jar} {title token : String}

/-- The tables of the story heed no values but the live ones. -/
structure HeedsLive (s : Story) : Prop where
  formatters : ∀ f ∈ s.formatters, f.HeedsLive
  macros : ∀ name m, s.macros.get? name = some m → m.HeedsLive

theorem Regular.heedsLive (hs : s.Regular) : s.HeedsLive where
  formatters f hf := (hs.formatters f hf).heedsLive
  macros name m hget := by
    rw [hs.macros] at hget
    exact Macro.standard_heedsLive hget

/-! ### Stories that share a book -/

/-- Stories with the same passages, tables, settings and live values.  What was read in them, what is
on offer and shown there, and the host may differ. -/
structure SameBook (s t : Story) : Prop where
  store : t.store = s.store
  formatters : t.formatters = s.formatters
  macros : t.macros = s.macros
  config : t.config = s.config
  keyStart : t.keyStart = s.keyStart
  now : t.now = s.now
  live : t.jar.live s.now = s.jar.live s.now

/-- Stories at the same point of the same reading, with the same live values, since their jars were
`j` and `k`. -/
structure Abreast (j k : Jar) (s t : Story) : Prop where
  heeds : s.HeedsLive
  agrees : s.Agrees t
  now : t.now = s.now
  live : t.jar.live s.now = s.jar.live s.now
  tied : Jar.Tied j k s.jar t.jar

/-- A reading starts alike in stories that share a book. -/
theorem SameBook.initialVariables_eq (h : s.SameBook t) (hs : s.HeedsLive) :
    t.initialVariables = s.initialVariables := by
  have hprelude : t.prelude = { s.prelude with jar := t.jar } := by
    simp only [prelude, h.store, h.keyStart, h.now]
  rw [initialVariables, initialVariables, h.macros, hprelude, Macros.initialVariables,
    Macros.initialVariables]
  refine List.foldl_ext _ _ _ fun vars entry hin => ?_
  have hm := hs.macros entry.1 entry.2 ((Dict.get?_eq_some_iff _ _ _).2 hin)
  simp only [hm.prepare s.prelude t.jar vars h.live]

/-- **Where a reading starts, nothing is left** of what was read before. -/
theorem SameBook.resetHistory (h : s.SameBook t) (hs : s.HeedsLive) :
    Abreast s.jar t.jar s.resetHistory t.resetHistory where
  heeds := ⟨hs.formatters, hs.macros⟩
  agrees := {
    store := h.store
    history := congrArg History.start (h.initialVariables_eq hs)
    formatters := h.formatters
    macros := h.macros
    config := h.config
    keyStart := h.keyStart
    offeredActions := rfl
    offeredPassages := rfl }
  now := h.now
  live := h.live
  tied := .refl _ _

namespace Abreast

/-! ### Steps -/

theorem kits (h : Abreast j k s t) : (Bond.living s.now j k).Kits s.kit t.kit where
  formatters_eq := h.agrees.formatters
  macros_eq := h.agrees.macros
  maxDepth_eq := congrArg Config.maxDepth h.agrees.config
  settings := by
    refine ⟨?_, rfl⟩
    simp only [kit, h.agrees.config, h.agrees.keyStart, h.now]
  formatters f hf := h.heeds.formatters f hf _ _ _
  macros name m hget := (h.heeds.macros name m hget).run _ _ _

theorem pages (h : Abreast j k s t) : (Bond.living s.now j k).pages s.page t.page := by
  refine ⟨t.jar, ?_, h.live, h.tied⟩
  simp only [page, h.agrees.store, h.agrees.history]

/-- **A text is rendered alike**, and leaves the stories abreast. -/
theorem render (h : Abreast j k s t) (text : String) :
    (t.render text).1 = (s.render text).1 ∧ (t.render text).2.1 = (s.render text).2.1 ∧
      Abreast j k (s.render text).2.2 (t.render text).2.2 := by
  obtain ⟨hnodes, ⟨jar, hpage, hlive, htied⟩, -, -⟩ :=
    h.kits.render Bond.living_nests text.toList h.pages
  have hjar : (t.kit.render text.toList t.page).2.jar = jar := by rw [hpage]
  refine ⟨hnodes, ?_, ⟨h.heeds.formatters, h.heeds.macros⟩, ?_, h.now, ?_, ?_⟩
  · simp only [Story.render, hpage]
  · exact {
      store := by simp only [Story.render, withPage, hpage]
      history := by simp only [Story.render, withPage, hpage]
      formatters := h.agrees.formatters
      macros := h.agrees.macros
      config := h.agrees.config
      keyStart := h.agrees.keyStart
      offeredActions := h.agrees.offeredActions
      offeredPassages := h.agrees.offeredPassages }
  · rw [← hjar] at hlive
    exact hlive
  · rw [← hjar] at htied
    exact htied

theorem reached (h : Abreast j k s t) (isFirst : Bool) (title : String) :
    Abreast j k (s.reached isFirst title) (t.reached isFirst title) := by
  have hstill : ∀ u : Story, (u.reached isFirst title).formatters = u.formatters ∧
      (u.reached isFirst title).macros = u.macros ∧ (u.reached isFirst title).now = u.now ∧
      (u.reached isFirst title).jar = u.jar := by
    intro u
    cases isFirst with
    | true => exact ⟨rfl, rfl, rfl, rfl⟩
    | false =>
        rw [Story.reached, if_neg (by simp), guessClick]
        split <;> exact ⟨rfl, rfl, rfl, rfl⟩
  obtain ⟨hf, hm, hnow, hjar⟩ := hstill s
  obtain ⟨-, -, hnow', hjar'⟩ := hstill t
  refine ⟨⟨?_, ?_⟩, h.agrees.reached isFirst title, ?_, ?_, ?_⟩
  · rw [hf]
    exact h.heeds.formatters
  · rw [hm]
    exact h.heeds.macros
  · rw [hnow, hnow']
    exact h.now
  · rw [hnow, hjar, hjar']
    exact h.live
  · rw [hjar, hjar']
    exact h.tied

/-- **A passage is shown alike**, and leaves the stories abreast. -/
theorem showPassage (h : Abreast j k s t) (p : Passage) (mode : DisplayMode) :
    Abreast j k (s.showPassage p mode) (t.showPassage p mode) ∧
      (t.showPassage p mode).current = (s.showPassage p mode).current := by
  obtain ⟨hnodes, hoffered, hnext⟩ := h.render p.text
  have hhistory := hnext.agrees.history
  refine ⟨⟨⟨hnext.heeds.formatters, hnext.heeds.macros⟩, ?_, hnext.now, hnext.live, hnext.tied⟩, ?_⟩
  · exact {
      store := hnext.agrees.store
      history := hhistory
      formatters := hnext.agrees.formatters
      macros := hnext.agrees.macros
      config := hnext.agrees.config
      keyStart := hnext.agrees.keyStart
      offeredActions := hoffered
      offeredPassages := congrArg Node.passageTitles hnodes }
  · simp only [Story.showPassage, hnodes, hhistory]

theorem display (h : Abreast j k s t) (title : String) (mode : DisplayMode) :
    Abreast j k (s.display title mode) (t.display title mode) ∧
      (t.display title mode).current = (s.display title mode).current := by
  have hpushed : Abreast j k (s.pushed title) (t.pushed title) :=
    ⟨⟨h.heeds.formatters, h.heeds.macros⟩, h.agrees.pushed title, h.now, h.live, h.tied⟩
  have hpassage : t.store.get title = s.store.get title := by rw [h.agrees.store]
  obtain ⟨hshow, hcurrent⟩ := hpushed.showPassage (s.store.get title) mode
  by_cases hm : mode = .offscreen
  · subst hm
    rw [display_offscreen, display_offscreen, hpassage]
    exact ⟨hshow, hcurrent⟩
  · -- the host is told, and nothing else happens
    rw [display_of_ne s title hm, display_of_ne t title hm, hpassage]
    refine ⟨⟨⟨hshow.heeds.formatters, hshow.heeds.macros⟩, ?_, hshow.now, hshow.live, hshow.tied⟩,
      hcurrent⟩
    exact ((host_alike _ _ _ _).agrees.symm.trans hshow.agrees).trans (host_alike _ _ _ _).agrees

/-! ### Passages in turn -/

/-- **Passages in turn are shown alike**: what is on offer and what is guessed from it is the same
after each of them. -/
theorem replay (h : Abreast j k s t) (isFirst : Bool) (titles : List String) :
    Abreast j k (s.replay isFirst titles) (t.replay isFirst titles) := by
  induction titles generalizing s t isFirst with
  | nil => exact h
  | cons title titles ih =>
      rw [replay_cons, replay_cons]
      exact ih ((h.reached isFirst title).display title _).1 false

/-- The passage shown at the end is the same, if there is one. -/
theorem current_replay (h : Abreast j k s t) (isFirst : Bool) (titles : List String)
    (hne : titles ≠ []) :
    (t.replay isFirst titles).current = (s.replay isFirst titles).current := by
  induction titles generalizing s t isFirst with
  | nil => exact absurd rfl hne
  | cons title titles ih =>
      rw [replay_cons, replay_cons]
      obtain ⟨hnext, hcurrent⟩ := (h.reached isFirst title).display title
        (if titles.isEmpty then .normal else .offscreen)
      cases titles with
      | nil => exact hcurrent
      | cons next titles => exact ih hnext false (by simp)

end Abreast

/-! ### Restoring -/

/-- **A token leads stories that share a book to the same point**, whatever was read in them, was on
offer or shown there, and whatever the host does.  It fails in both, for the same reason, or comes in
both to the same history, shows the same, and offers the same.  The live values stay the same, and the
jars were written alike; so they are the same if they were so. -/
theorem restore_forgets (h : s.SameBook t) (hs : s.HeedsLive) (token : String) :
    (∃ e, s.restore token = (.error e, s) ∧ t.restore token = (.error e, t)) ∨
      ∃ s' t', s.restore token = (.ok (), s') ∧ t.restore token = (.ok (), t') ∧
        t'.history = s'.history ∧ t'.current = s'.current ∧ t'.offeredActions = s'.offeredActions ∧
        t'.offeredPassages = s'.offeredPassages ∧ t'.jar.live t'.now = s'.jar.live s'.now ∧
        Jar.Tied s.jar t.jar s'.jar t'.jar ∧ (t.jar = s.jar → t'.jar = s'.jar) := by
  obtain ⟨e, hs', ht'⟩ | ⟨titles, hne, hs', ht'⟩ := restore_shared h.store token
  · exact .inl ⟨e, hs', ht'⟩
  · have hstart := h.resetHistory hs
    have hend := hstart.replay true titles
    refine .inr ⟨_, _, hs', ht', hend.agrees.history, hstart.current_replay true titles hne,
      hend.agrees.offeredActions, hend.agrees.offeredPassages, ?_, hend.tied, hend.tied.eq⟩
    rw [hend.now]
    exact hend.live

/-- The tour of three passages before anything was read, with a jar that is empty. -/
def unread : Story := tour.build 10

/-- The same after a reading, with a value in the jar that is no longer live. -/
def wellRead : Story :=
  { ((tour.build 10).start.2.act (.activate (.action "B" false))) with
    jar := Jar.keep .empty "n" "1" 5 }

/-- A token that leads back to the action leads both stories to the same point. -/
theorem restore_forgets_tour :
    wellRead.history ≠ unread.history ∧ ∃ s' t', unread.restore "#1.3.2" = (.ok (), s') ∧
      wellRead.restore "#1.3.2" = (.ok (), t') ∧ t'.history = s'.history ∧ t'.current = s'.current := by
  have hread : wellRead.history ≠ unread.history := by
    intro heq
    exact absurd (congrArg History.size heq) (by decide +kernel)
  have hregular : unread.Regular := new_regular _ _ _ _ _
  have hshare : unread.SameBook wellRead :=
    ⟨by decide +kernel, rfl, rfl, rfl, rfl, rfl, by decide +kernel⟩
  obtain ⟨e, he, -⟩ | ⟨s', t', hs', ht', hhistory, hcurrent, -⟩ :=
    restore_forgets hshare hregular.heedsLive "#1.3.2"
  · have hids : ∀ id ∈ [1, 3, 2], (unread.store.findId? id).isSome :=
      (find?_isUnknown _ _).1 (by decide +kernel)
    rw [restore_of_known (by decide) (rfl : Trail.decode "#1.3.2" = .ok [1, 3, 2]) hids] at he
    cases he
  · exact ⟨hread, s', t', hs', ht', hhistory, hcurrent⟩

end Story

end Gamebook
