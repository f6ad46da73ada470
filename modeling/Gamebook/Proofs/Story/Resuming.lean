/-
**What a token resumes.**

A token is stored with each entry of the history and stands for the ids up to it.  An entry for a
title that the story does not have has no id, so its token is that of the entry before; and where
ids are repeated, a token leads to the first passage with an id.  These are the only two ways in
which a token can lead elsewhere.

Main definitions:

* `Story.Leads` — a story whose reading went on from that of another, or started over;
* `Story.Recorded` — every entry carries the id that the story has for its title;
* `Story.EndsOn` — a story that shows a title.

Main results:

* `Story.leads_act` — **what an act can do to the reading**;
* `Story.Recorded.act` — so every act keeps the entries recorded;
* `History.Sound.token_eq_iff` — **two entries have one token** just when none of the entries behind
  the first, up to the second, has an id;
* `Story.restore_endsOn_iff` — **a token leads to its entry** just when the entry has an id and its
  passage is the first with it;
* `Story.token_resumes_iff` — so it is at every point of every reading.
-/

import Gamebook.Proofs.Story.Sound

set_option relaxedAutoImplicit false
set_option autoImplicit false

namespace Gamebook

/-! ### Entries with one token -/

namespace History

variable {h : History} {a b : Entry} {i j : Nat}

/-- The parts of a list up to two places have the same values just when there are none between. -/
theorem filterMap_take_eq_iff {α β : Type} (f : α → Option β) (l : List α) {m n : Nat} (hmn : m ≤ n) :
    (l.take m).filterMap f = (l.take n).filterMap f ↔
      ∀ k e, m ≤ k → k < n → l[k]? = some e → f e = none := by
  have htake : (l.take n).take m = l.take m := by rw [List.take_take, Nat.min_eq_left hmn]
  have hsplit := List.take_append_drop m (l.take n)
  rw [htake] at hsplit
  rw [← hsplit, List.filterMap_append, List.self_eq_append_right, List.filterMap_eq_nil_iff]
  constructor
  · intro hnone k e hmk hkn he
    refine hnone e (List.mem_iff_getElem?.2 ⟨k - m, ?_⟩)
    rw [List.getElem?_drop, List.getElem?_take_of_lt (by omega), ← he]
    congr 1
    omega
  · intro hnone e hin
    obtain ⟨k, hk⟩ := List.mem_iff_getElem?.1 hin
    rw [List.getElem?_drop, List.getElem?_take] at hk
    split at hk
    · rename_i hlt
      exact hnone (m + k) e (by omega) hlt hk
    · cases hk

/-- **Two entries of a sound history have one token** just when none of the entries behind the
first, up to the second, has an id.  The token of the entry that shows no passage is its own. -/
theorem Sound.token_eq_iff (hs : h.Sound) (hij : i < j) (ha : h.oldestFirst[i]? = some a)
    (hb : h.oldestFirst[j]? = some b) :
    a.token = b.token ↔ a.isOpening = false ∧
      ∀ k e, i < k → k ≤ j → h.oldestFirst[k]? = some e → e.id = none := by
  obtain ⟨j, rfl⟩ : ∃ j', j = j' + 1 := ⟨j - 1, by omega⟩
  obtain ⟨-, hbtoken⟩ := hs.later j b hb
  cases i with
  | zero =>
      -- the first token is empty, and no later one is
      obtain ⟨vars, hold⟩ := hs.oldest
      rw [← List.head?_eq_getElem?, hold] at ha
      cases ha
      rw [hbtoken]
      simp [Entry.opening, Entry.isOpening, (Trail.encode_ne_empty _).symm]
  | succ i =>
      obtain ⟨hopening, hatoken⟩ := hs.later i a ha
      have htokens : a.token = b.token ↔
          (h.oldestFirst.take (i + 2)).filterMap Entry.id =
            (h.oldestFirst.take (j + 2)).filterMap Entry.id := by
        rw [hatoken, hbtoken]
        exact ⟨Trail.encode_injective, congrArg Trail.encode⟩
      rw [htokens, filterMap_take_eq_iff Entry.id _ (by omega)]
      constructor
      · intro hnone
        exact ⟨hopening, fun k e hik hkj => hnone k e (by omega) (by omega)⟩
      · intro hnone k e hik hkj
        exact hnone.2 k e (by omega) (by omega)

end History

namespace Story

variable {s t : Story} {title token : String} {ids : List UInt32}

/-! ### What an act can do to the reading -/

/-- The reading of the second story went on from that of the first with some passages, or it started
over with them.  Titles have the ids that they had. -/
structure Leads (s t : Story) : Prop where
  ids : ∀ title, (t.store.get title).id = (s.store.get title).id
  outline : ∃ titles : List String,
    t.history.outline = s.history.outline ++ entriesOf s.history.ids (titles.map s.store.get) ∨
      t.history.outline = Entry.opening {} :: entriesOf [] (titles.map s.store.get)

/-- The reading stays where it is. -/
theorem leads_of_outline (hstore : t.store = s.store)
    (ho : t.history.outline = s.history.outline) : s.Leads t := by
  refine ⟨fun title => by rw [hstore], [], .inl ?_⟩
  rw [ho]
  exact (List.append_nil _).symm

theorem display_leads (hs : s.Regular) (title : String) (mode : DisplayMode) :
    s.Leads (s.display title mode) := by
  refine ⟨fun title' => by rw [(display_kept hs title mode).store], [title], .inl ?_⟩
  rw [outline_display hs]
  rfl

theorem begin_leads (hs : s.Regular) : s.Leads s.begin := by
  have hr := s.resetHistory_kept.regular hs
  refine ⟨fun title => ?_, [s.config.startPassage], .inr ?_⟩
  · rw [begin, (display_kept hr _ _).store]
    rfl
  · rw [begin, outline_display hr]
    rfl

theorem restore_leads (hs : s.Regular) (h : s.restore token = (.ok (), t)) : s.Leads t := by
  obtain ⟨ids, -, -, -, rfl⟩ := restore_ok h
  have hr := s.resetHistory_kept.regular hs
  refine ⟨fun title => ?_, titlesOf s.store ids, .inr ?_⟩
  · rw [restored, (replay_kept hr true _).store]
    rfl
  · rw [outline_restored hs, titlesOf, map_get_filterMap]
    rfl

theorem poll_leads (hs : s.Regular) : s.Leads s.poll.2 := by
  obtain ⟨-, hp⟩ | ⟨-, -, hp⟩ | ⟨-, s', hr, hp⟩ | ⟨-, e, -, hp⟩ := s.poll_cases
  · rw [hp]
    exact leads_of_outline rfl rfl
  · rw [hp]
    exact leads_of_outline rfl rfl
  · rw [hp]
    have hl := restore_leads hs hr
    exact ⟨hl.ids, hl.outline⟩
  · rw [hp]
    exact leads_of_outline rfl rfl

/-- **What an act can do to the reading**: it goes on, stays where it is, or starts over. -/
theorem leads_act (hs : s.Regular) (a : Act) : s.Leads (s.act a) := by
  cases a with
  | start =>
      obtain ⟨s', hr, hstart⟩ | ⟨outcome, hstart⟩ := s.start_cases
      · rw [act, hstart]
        have hl := restore_leads hs hr
        exact ⟨hl.ids, hl.outline⟩
      · rw [act, hstart]
        have hl := begin_leads hs
        exact ⟨hl.ids, hl.outline⟩
  | display title mode => exact display_leads hs title mode
  | rerender =>
      rw [act, rerender]
      cases s.history.current.title with
      | none => exact leads_of_outline rfl rfl
      | some title =>
          refine leads_of_outline (showPassage_kept hs _ _).store ?_
          rw [Option.map_some, Option.getD_some, showPassage_eq hs]
          exact History.outline_withVariables _ _
  | restore token =>
      exact restore_preserves (P := s.Leads) (leads_of_outline rfl rfl) fun _ hr => restore_leads hs hr
  | restart => exact ⟨fun title => Store.id_get_resetAll s.store title, [], .inr rfl⟩
  | poll => exact poll_leads hs
  | activate link =>
      cases link with
      | passage title broken => exact display_leads hs title .normal
      | action title broken =>
          -- an action followed is noted in the variables, which the outline leaves out
          obtain ⟨hids, titles, ho⟩ := display_leads ((s.click_kept title).regular hs) title .normal
          rw [History.outline_click, History.ids_click] at ho
          exact ⟨hids, titles, ho⟩
      | back token =>
          have hl := poll_leads (s := { s with navigator := s.navigator.setAddress token })
            ⟨hs.macros, hs.formatters⟩
          exact ⟨hl.ids, hl.outline⟩
      | external url => exact leads_of_outline rfl rfl
  | pageElement title default =>
      rw [act, pageElement, renderSource, render_eq hs]
      exact leads_of_outline rfl (History.outline_withVariables _ _)
  | renderSource text =>
      rw [act, renderSource, render_eq hs]
      exact leads_of_outline rfl (History.outline_withVariables _ _)
  | writeAddress address => exact leads_of_outline rfl rfl
  | clock now => exact leads_of_outline rfl rfl

/-! ### Entries and their ids -/

/-- Every entry carries the id that the story has for its title, if there is one. -/
def Recorded (s : Story) : Prop :=
  ∀ e ∈ s.history.outline, e.id = e.title.bind fun title => (s.store.get title).id

theorem new_recorded (store : Store) (config : Config) (jar : Jar) (navigator : Navigator)
    (now : Nat) : (Story.new store config jar navigator now).Recorded := by
  intro e he
  rw [List.mem_singleton.1 he]
  rfl

/-- The entries of passages that were looked up by their titles carry the ids of these titles. -/
theorem id_of_mem_entriesOf {store : Store} {titles : List String} {e : Entry}
    (he : e ∈ entriesOf ids (titles.map store.get)) :
    e.id = e.title.bind fun title => (store.get title).id := by
  obtain ⟨i, hi⟩ := List.mem_iff_getElem?.1 he
  rw [getElem?_entriesOf, List.getElem?_map, Option.map_map] at hi
  obtain ⟨title, -, rfl⟩ := Option.map_eq_some_iff.1 hi
  simp [History.entryOf]

theorem Recorded.leads (h : s.Recorded) (hl : s.Leads t) : t.Recorded := by
  obtain ⟨hids, titles, hgoes | hstarts⟩ := hl
  all_goals
    intro e he
    simp only [hids]
  · rw [hgoes] at he
    rcases List.mem_append.1 he with he | he
    · exact h e he
    · exact id_of_mem_entriesOf he
  · rw [hstarts] at he
    rcases List.mem_cons.1 he with rfl | he
    · rfl
    · exact id_of_mem_entriesOf he

/-- **Every act keeps the entries recorded.** -/
theorem Recorded.act (h : s.Recorded) (hs : s.Regular) (a : Act) : (s.act a).Recorded :=
  h.leads (leads_act hs a)

theorem Recorded.id_eq (h : s.Recorded) {e : Entry} (he : e ∈ s.history.oldestFirst) :
    e.id = e.title.bind fun title => (s.store.get title).id :=
  h e.bare (List.mem_map_of_mem he)

/-- All ids that were read belong to passages of the story. -/
theorem Recorded.known (h : s.Recorded) {id : UInt32} (hid : id ∈ s.history.ids) :
    (s.store.findId? id).isSome := by
  obtain ⟨e, he, hide⟩ := List.mem_filterMap.1 hid
  rw [h.id_eq he] at hide
  obtain ⟨title, -, hget⟩ := Option.bind_eq_some_iff.1 hide
  exact Store.findId?_isSome_of_get hget

/-! ### Where a token leads -/

/-- The story shows this title, and its current entry has it. -/
structure EndsOn (s : Story) (title : String) : Prop where
  shown : s.current.map Rendered.title = some title
  entry : s.history.current.title = some title

theorem display_endsOn (hs : s.Regular) (title : String) (mode : DisplayMode) :
    (s.display title mode).EndsOn title := by
  refine ⟨?_, ?_⟩
  · rw [(current_display hs title mode).1]
    exact congrArg some (Store.title_get s.store title)
  · rw [history_display hs]
    exact congrArg some (Store.title_get s.store title)

/-- **The token of some ids leads to the passage of the last one.** -/
theorem restore_encode_endsOn_iff (hs : s.Regular)
    (h : ∀ id ∈ ids, (s.store.findId? id).isSome) :
    (∃ t, s.restore (Trail.encode ids) = (.ok (), t) ∧ t.EndsOn title) ↔
      ∃ id, ids.getLast? = some id ∧ (s.store.findId? id).map Passage.title = some title := by
  have hends : ∀ (hne : ids ≠ []), (s.restored ids).EndsOn
      ((titlesOf s.store ids).getLast (titlesOf_ne_nil h hne)) := by
    intro hne
    have hr := s.resetHistory_kept.regular hs
    obtain ⟨t, hk, -, -, heq⟩ := replay_last hr true _ (titlesOf_ne_nil h hne)
    rw [restored, heq]
    exact display_endsOn (hk.regular hr) _ .normal
  constructor
  · rintro ⟨t, hrestore, ht⟩
    obtain ⟨ids', hne, hdecode, -, rfl⟩ := restore_ok hrestore
    rw [Trail.decode_encode] at hdecode
    cases hdecode
    have hlast := List.getLast?_eq_some_getLast hne
    obtain ⟨p, hp⟩ := Option.isSome_iff_exists.1 (h _ (List.getLast_mem hne))
    refine ⟨_, hlast, ?_⟩
    have htitle := (hends hne).entry
    rw [getLast_titlesOf h hlast hp, ht.entry] at htitle
    rw [hp, Option.map_some]
    exact htitle.symm
  · rintro ⟨id, hlast, hid⟩
    obtain ⟨p, hp, rfl⟩ := Option.map_eq_some_iff.1 hid
    have hne : ids ≠ [] := by
      rintro rfl
      cases hlast
    have hrestore := restore_of_known (Trail.isEmptyAddress_encode hne) (Trail.decode_encode ids) h
    refine ⟨_, hrestore, ?_⟩
    rw [← getLast_titlesOf h hlast hp (titlesOf_ne_nil h hne)]
    exact hends hne

/-- **The token of an entry leads to it** just when the entry has an id and its passage is the first
with this id. -/
theorem restore_endsOn_iff (hs : s.Sound) (hr : s.Recorded) {e : Entry}
    (he : e ∈ s.history.oldestFirst) (ht : e.title = some title) :
    (∃ t, s.restore e.token = (.ok (), t) ∧ t.EndsOn title) ↔
      ∃ id, e.id = some id ∧ (s.store.findId? id).map Passage.title = some title := by
  obtain ⟨before, htoken, hbefore⟩ := hs.history.token_of_mem he (by simp [Entry.isOpening, ht])
  have hknown : ∀ id ∈ before ++ e.id.toList, (s.store.findId? id).isSome := fun id hin =>
    hr.known (hbefore.subset hin)
  rw [htoken, restore_encode_endsOn_iff hs.regular hknown]
  cases hid : e.id with
  | some id => simp
  | none =>
      simp only [Option.toList_none, List.append_nil, reduceCtorEq, false_and, exists_false,
        iff_false]
      rintro ⟨id, -, hfound⟩
      -- a passage of the story that has this title would have given the entry its id
      obtain ⟨p, hp, rfl⟩ := Option.map_eq_some_iff.1 hfound
      have hnone := hr.id_eq he
      rw [hid, ht, Option.bind_some, Store.get_of_findId? hp, Store.id_of_findId? hp] at hnone
      cases hnone

/-- **What a token resumes**, at every point of every reading.  Of two entries the tokens are the same
just when the first one shows a passage and none of the entries behind it, up to the second, has an
id.  The token of an entry is restored and leads to the title of the entry just when the entry has an
id, which is that of its title, and the passage of this title is the first with it. -/
theorem token_resumes_iff (store : Store) (config : Config) (jar : Jar) (navigator : Navigator)
    (now : Nat) (row : List Act) :
    let s := (Story.new store config jar navigator now).acts row
    (∀ (i j : Nat) (a b : Entry), i < j → s.history.oldestFirst[i]? = some a →
      s.history.oldestFirst[j]? = some b →
        (a.token = b.token ↔ a.isOpening = false ∧ ∀ (k : Nat) (e : Entry), i < k → k ≤ j →
          s.history.oldestFirst[k]? = some e → e.id = none)) ∧
      ∀ e ∈ s.history.oldestFirst, ∀ title, e.title = some title →
        e.id = (s.store.get title).id ∧
        ((∃ t, s.restore e.token = (.ok (), t) ∧ t.EndsOn title) ↔
          ∃ id, e.id = some id ∧ (s.store.findId? id).map Passage.title = some title) := by
  intro s
  have hnew : (Story.new store config jar navigator now).Sound ∧
      (Story.new store config jar navigator now).Recorded :=
    ⟨new_sound _ _ _ _ _, new_recorded _ _ _ _ _⟩
  obtain ⟨hs, hr⟩ := acts_invariant (P := fun s => s.Sound ∧ s.Recorded) hnew
    (fun _ a h => ⟨h.1.act a, h.2.act h.1.regular a⟩) row
  refine ⟨fun i j a b hij ha hb => hs.history.token_eq_iff hij ha hb, fun e he title ht => ⟨?_, ?_⟩⟩
  · rw [hr.id_eq he, ht, Option.bind_some]
  · exact restore_endsOn_iff hs hr he ht

/-- A passage with a link to one that the story does not have. -/
def astray : Fixture := ({} : Fixture).addPassage "Start" "[[Nowhere]]" []

/-- The reading of this passage that follows the link. -/
def strayed : Story := (astray.build 0).start.2.act (.activate (.passage "Nowhere" true))

/-- **Not every token leads to its entry**: the one of a passage that the story does not have is that
of the entry before, and leads there. -/
theorem token_of_missing_passage :
    Link.passage "Nowhere" true ∈ (astray.build 0).start.2.links ∧
      strayed.history.entries.map Entry.title = [some "Nowhere", some "Start", none] ∧
      strayed.history.entries.map Entry.token = ["#1", "#1", ""] ∧
      (strayed.act (.restore "#1")).current.map Rendered.title = some "Start" := by decide +kernel

end Story

end Gamebook
