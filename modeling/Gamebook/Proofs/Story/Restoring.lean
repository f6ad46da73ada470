/-
**Restoring a reading from its token.**

What is wrong with a token is found before anything is changed: it may carry no reading, it may be
malformed, or an id in it may belong to no passage.  Else the history starts over, one entry is
added for each id in turn, and the host is told of the last passage alone.

Main definitions:

* `Story.entriesOf` — the entries that passages add to a history;
* `Story.Restores` — a story after its reading was restored from ids.

Main results:

* `Story.passagesOf_eq` — the passages of ids, or the first id that has none;
* `Story.outline_replay`, `Story.navigator_replay` — passages shown in turn;
* `Story.restores_of_passages` — what a token that can be followed restores;
* `Story.restore_cases` — all that can come of a token;
* `Story.restore_snd_of_error` — **a token that fails leaves the story as it is**;
* `Story.restore_shared` — stories with the same passages restore a token alike;
* `Story.restore_spec` — **what comes of a token**.
-/

import Gamebook.Fixture
import Gamebook.Proofs.History.Sound
import Gamebook.Proofs.Story.Acts
import Gamebook.Proofs.Story.Showing

set_option relaxedAutoImplicit false
set_option autoImplicit false

namespace Gamebook

namespace Story

variable {s : Story} {title token : String} {mode : DisplayMode} {ids : List UInt32}

/-! ### The passages of a token -/

/-- Whether no passage has an id. -/
def isUnknown (store : Store) (id : UInt32) : Bool := (store.findId? id).isNone

/-- **The passages of ids, or the first id that has none.** -/
theorem passagesOf_eq (store : Store) (ids : List UInt32) :
    passagesOf store ids = match ids.find? (isUnknown store) with
      | some id => .error (.unknownPassage id)
      | none => .ok (ids.filterMap store.findId?) := by
  induction ids with
  | nil => rfl
  | cons id ids ih =>
      rw [passagesOf, List.find?_cons]
      cases hid : store.findId? id with
      | none => simp [isUnknown, hid]
      | some p =>
          have hknown : isUnknown store id = false := by simp [isUnknown, hid]
          simp only [hknown, List.filterMap_cons, hid]
          rw [ih]
          cases ids.find? (isUnknown store) <;> rfl

/-- No id is unknown if each has a passage. -/
theorem find?_isUnknown (store : Store) (ids : List UInt32) :
    ids.find? (isUnknown store) = none ↔ ∀ id ∈ ids, (store.findId? id).isSome := by
  simp [isUnknown, List.find?_eq_none, Option.isSome_iff_ne_none]

/-- If each id has a passage, the passages stand for the ids one by one. -/
theorem map_findId? {store : Store} (h : ∀ id ∈ ids, (store.findId? id).isSome) :
    ids.map store.findId? = (ids.filterMap store.findId?).map some := by
  induction ids with
  | nil => rfl
  | cons id ids ih =>
      obtain ⟨hid, hids⟩ := List.forall_mem_cons.1 h
      obtain ⟨p, hp⟩ := Option.isSome_iff_exists.1 hid
      rw [List.filterMap_cons, List.map_cons, hp, List.map_cons, ih hids]

/-- They have these ids. -/
theorem filterMap_id_findId? {store : Store} (h : ∀ id ∈ ids, (store.findId? id).isSome) :
    (ids.filterMap store.findId?).filterMap Passage.id = ids := by
  induction ids with
  | nil => rfl
  | cons id ids ih =>
      obtain ⟨hid, hids⟩ := List.forall_mem_cons.1 h
      obtain ⟨p, hp⟩ := Option.isSome_iff_exists.1 hid
      rw [List.filterMap_cons, hp, List.filterMap_cons, Store.id_of_findId? hp, ih hids]

/-- A passage that was looked up for an id is found by its title. -/
theorem map_get_filterMap (store : Store) (ids : List UInt32) :
    ((ids.filterMap store.findId?).map Passage.title).map store.get =
      ids.filterMap store.findId? := by
  rw [List.map_map]
  refine (List.map_congr_left fun p hp => ?_).trans (List.map_id _)
  obtain ⟨id, -, hid⟩ := List.mem_filterMap.1 hp
  exact Store.get_of_findId? hid

/-! ### Passages shown in turn -/

theorem outline_display (hs : s.Regular) (title : String) (mode : DisplayMode) :
    (s.display title mode).history.outline =
      s.history.outline ++ [History.entryOf s.history.ids (s.store.get title)] := by
  rw [history_display hs, History.outline_withVariables, History.outline_push]

theorem ids_display (hs : s.Regular) (title : String) (mode : DisplayMode) :
    (s.display title mode).history.ids = s.history.ids ++ (s.store.get title).id.toList := by
  rw [history_display hs, History.ids_withVariables, History.ids_push]

/-- The token of a passage that was just shown stands for all ids. -/
theorem token_display (hs : s.Regular) (title : String) (mode : DisplayMode) :
    (s.display title mode).history.current.token =
      Trail.encode (s.display title mode).history.ids := by
  rw [ids_display hs, history_display hs]
  rfl

theorem outline_reached (s : Story) (isFirst : Bool) (title : String) :
    (s.reached isFirst title).history.outline = s.history.outline := by
  cases isFirst with
  | true => rfl
  | false =>
      change (s.guessClick title).history.outline = _
      rw [guessClick]
      split
      · exact History.outline_click _ _
      · rfl

theorem ids_reached (s : Story) (isFirst : Bool) (title : String) :
    (s.reached isFirst title).history.ids = s.history.ids := by
  rw [History.ids_eq_outline, outline_reached, ← History.ids_eq_outline]

/-- The entries, without variables, that passages add to a history with some ids. -/
def entriesOf (ids : List UInt32) : List Passage → List Entry
  | [] => []
  | p :: ps => History.entryOf ids p :: entriesOf (ids ++ p.id.toList) ps

theorem getElem?_entriesOf (ids : List UInt32) (ps : List Passage) (i : Nat) :
    (entriesOf ids ps)[i]? =
      ps[i]?.map (History.entryOf (ids ++ (ps.take i).filterMap Passage.id)) := by
  induction ps generalizing ids i with
  | nil => rfl
  | cons p ps ih =>
      cases i with
      | zero => simp [entriesOf]
      | succ i =>
          rw [entriesOf, List.getElem?_cons_succ, ih, List.getElem?_cons_succ, List.take_succ_cons]
          cases hp : p.id <;> simp [hp]

theorem length_entriesOf (ids : List UInt32) (ps : List Passage) :
    (entriesOf ids ps).length = ps.length := by
  induction ps generalizing ids with
  | nil => rfl
  | cons p ps ih => rw [entriesOf, List.length_cons, List.length_cons, ih]

theorem filterMap_entriesOf (ids : List UInt32) (ps : List Passage) :
    (entriesOf ids ps).filterMap Entry.id = ps.filterMap Passage.id := by
  induction ps generalizing ids with
  | nil => rfl
  | cons p ps ih =>
      rw [entriesOf, List.filterMap_cons, List.filterMap_cons, ih]
      rfl

/-- **Each passage shown in turn adds its entry.** -/
theorem outline_replay (hs : s.Regular) (isFirst : Bool) (titles : List String) :
    (s.replay isFirst titles).history.outline =
      s.history.outline ++ entriesOf s.history.ids (titles.map s.store.get) := by
  induction titles generalizing s isFirst with
  | nil => exact (List.append_nil _).symm
  | cons title titles ih =>
      have hr := (s.reached_kept isFirst title).regular hs
      have hk := (s.reached_kept isFirst title).trans
        (display_kept hr title (if titles.isEmpty then .normal else .offscreen))
      rw [replay_cons, ih (hk.regular hs), outline_display hr, ids_display hr, hk.store,
        (s.reached_kept isFirst title).store, outline_reached, ids_reached, List.append_assoc]
      rfl

theorem ids_replay (hs : s.Regular) (isFirst : Bool) (titles : List String) :
    (s.replay isFirst titles).history.ids =
      s.history.ids ++ (titles.map s.store.get).filterMap Passage.id := by
  rw [History.ids_eq_outline, outline_replay hs, List.filterMap_append, filterMap_entriesOf,
    ← History.ids_eq_outline]

/-- The oldest entry stays as it is, since only a later one notes a followed action. -/
theorem head?_replay (hs : s.Regular) (isFirst : Bool) (titles : List String)
    (h : isFirst = true ∨ s.history.earlier ≠ []) :
    (s.replay isFirst titles).history.oldestFirst.head? = s.history.oldestFirst.head? := by
  induction titles generalizing s isFirst with
  | nil => rfl
  | cons title titles ih =>
      have hr := (s.reached_kept isFirst title).regular hs
      have hreached : (s.reached isFirst title).history.oldestFirst.head? =
          s.history.oldestFirst.head? := by
        cases isFirst with
        | true => rfl
        | false =>
            change (s.guessClick title).history.oldestFirst.head? = _
            rw [guessClick]
            split
            · exact History.head?_withVariables (h.resolve_left (by simp)) _
            · rfl
      have hhist := history_display hr title (if titles.isEmpty then .normal else .offscreen)
      have hearlier : ((s.reached isFirst title).display title
          (if titles.isEmpty then .normal else .offscreen)).history.earlier ≠ [] := by
        rw [hhist]
        exact List.cons_ne_nil _ _
      rw [replay_cons, ih ((display_kept hr title _).regular hr) false (.inr hearlier), hhist,
        History.head?_push, hreached]

/-! ### What the host is told -/

/-- What the host is told depends on the settings and on what it was told before. -/
theorem Kept.announce {t : Story} (h : s.Kept t) (hn : t.navigator = s.navigator)
    (title token : String) :
    (t.announce title token).navigator = (s.announce title token).navigator := by
  simp only [Story.announce, h.config, h.title, hn]

theorem navigator_reached (s : Story) (isFirst : Bool) (title : String) :
    (s.reached isFirst title).navigator = s.navigator := by
  cases isFirst with
  | true => rfl
  | false =>
      change (s.guessClick title).navigator = _
      rw [guessClick]
      split <;> rfl

theorem navigator_showPassage (hs : s.Regular) (p : Passage) (mode : DisplayMode) :
    (s.showPassage p mode).navigator = s.navigator := by rw [showPassage_eq hs]

theorem navigator_display_offscreen (hs : s.Regular) (title : String) :
    (s.display title .offscreen).navigator = s.navigator :=
  navigator_showPassage ((s.pushed_kept title).regular hs) _ _

/-- In sight, the host is told of the passage and of the token for all ids. -/
theorem navigator_display (hs : s.Regular) (title : String) (mode : DisplayMode)
    (h : mode ≠ .offscreen) :
    (s.display title mode).navigator = (s.announce title
        (Trail.encode (s.display title mode).history.ids)).navigator ∧
      (s.display title mode).lastAddress = (s.display title mode).navigator.address := by
  have hp := (s.pushed_kept title).regular hs
  have hk := (s.pushed_kept title).trans (showPassage_kept hp (s.store.get title) mode)
  have htoken : ((s.pushed title).showPassage (s.store.get title) mode).history.current.token =
      Trail.encode (s.display title mode).history.ids := by
    rw [← token_display hs, display_of_ne s title h]
    rfl
  refine ⟨?_, ?_⟩
  · rw [← htoken]
    conv => lhs; rw [display_of_ne s title h]
    exact hk.announce (navigator_showPassage hp _ _) title _
  · rw [display_of_ne s title h]
    rfl

/-- **Passages shown in turn come to the last one**, of which alone the host is told. -/
theorem replay_last (hs : s.Regular) (isFirst : Bool) (titles : List String) (hne : titles ≠ []) :
    ∃ t, s.Kept t ∧ t.navigator = s.navigator ∧ (s.history.Sound → t.history.Sound) ∧
      s.replay isFirst titles = t.display (titles.getLast hne) .normal := by
  induction titles generalizing s isFirst with
  | nil => exact absurd rfl hne
  | cons title titles ih =>
      have hk := s.reached_kept isFirst title
      have hr := hk.regular hs
      have hnavigator := navigator_reached s isFirst title
      have hsound : s.history.Sound → (s.reached isFirst title).history.Sound := fun hh =>
        hh.of_outline (outline_reached s isFirst title)
      rw [replay_cons]
      cases titles with
      | nil => exact ⟨s.reached isFirst title, hk, hnavigator, hsound, rfl⟩
      | cons next titles =>
          have hd := display_kept hr title .offscreen
          obtain ⟨t, ht, hn, hh, heq⟩ := ih (hd.regular hr) false (by simp)
          refine ⟨t, (hk.trans hd).trans ht, ?_, fun hsnd => hh ?_, heq⟩
          · rw [hn, navigator_display_offscreen hr, hnavigator]
          · rw [history_display hr]
            exact ((hsound hsnd).push _).withVariables _

/-- The token of the last passage stands for all ids. -/
theorem token_replay (hs : s.Regular) (isFirst : Bool) (titles : List String)
    (hne : titles ≠ []) :
    (s.replay isFirst titles).history.current.token =
      Trail.encode (s.replay isFirst titles).history.ids := by
  obtain ⟨t, hk, -, -, heq⟩ := replay_last hs isFirst titles hne
  rw [heq, token_display (hk.regular hs)]

/-- **The host is told of the last passage**, with the token for all ids. -/
theorem navigator_replay (hs : s.Regular) (isFirst : Bool) (titles : List String)
    (hne : titles ≠ []) :
    (s.replay isFirst titles).navigator = (s.announce (titles.getLast hne)
        (Trail.encode (s.replay isFirst titles).history.ids)).navigator ∧
      (s.replay isFirst titles).lastAddress = (s.replay isFirst titles).navigator.address := by
  obtain ⟨t, hk, hn, -, heq⟩ := replay_last hs isFirst titles hne
  obtain ⟨hnavigator, hlast⟩ :=
    navigator_display (hk.regular hs) (titles.getLast hne) .normal (by simp)
  rw [heq]
  exact ⟨hnavigator.trans (hk.announce hn _ _), hlast⟩

/-! ### Restoring -/

/-- A story after its reading was restored from ids: the history holds an entry for each of them,
and the host was told of the last one. -/
structure Restores (s s' : Story) (ids : List UInt32) : Prop where
  /-- The reading starts with the values remembered before. -/
  opening : s'.history.oldestFirst.head? = some (Entry.opening s.initialVariables)
  size : s'.history.size = ids.length + 1
  entry : ∀ i id, ids[i]? = some id → ∃ e p, s'.history.oldestFirst[i + 1]? = some e ∧
    s.store.findId? id = some p ∧ e.id = some id ∧ e.title = some p.title ∧
      e.token = Trail.encode (ids.take (i + 1))
  /-- The start passage leaves the address alone. -/
  start : ∀ id p, ids.getLast? = some id → s.store.findId? id = some p →
    p.title = s.config.startPassage →
      s'.navigator.address = s.navigator.address ∧
        s'.navigator.requests = .focus :: .title s.title :: s.navigator.requests
  /-- Any other passage writes the token to it. -/
  other : ∀ id p, ids.getLast? = some id → s.store.findId? id = some p →
    p.title ≠ s.config.startPassage →
      s'.navigator.address = Trail.encode ids ∧
        s'.navigator.requests = .focus :: .address (Trail.encode ids) ::
          .title (s.title ++ ": " ++ p.title) :: s.navigator.requests

/-- The titles of the passages that ids stand for. -/
def titlesOf (store : Store) (ids : List UInt32) : List String :=
  (ids.filterMap store.findId?).map Passage.title

theorem getElem?_passages {store : Store} (h : ∀ id ∈ ids, (store.findId? id).isSome) {i : Nat}
    {id : UInt32} (hi : ids[i]? = some id) :
    ∃ p, (ids.filterMap store.findId?)[i]? = some p ∧ store.findId? id = some p := by
  have hmap := congrArg (fun l : List (Option Passage) => l[i]?) (map_findId? h)
  simp only [List.getElem?_map, hi, Option.map_some] at hmap
  obtain ⟨p, hp, hid⟩ := Option.map_eq_some_iff.1 hmap.symm
  exact ⟨p, hp, hid.symm⟩

/-- These titles are titles of the store. -/
theorem has_titlesOf (store : Store) (ids : List UInt32) :
    ∀ title ∈ titlesOf store ids, store.has title = true := by
  intro title hin
  obtain ⟨p, hp, rfl⟩ := List.mem_map.1 hin
  obtain ⟨id, -, hid⟩ := List.mem_filterMap.1 hp
  exact Store.has_iff.2 ⟨p, Store.mem_of_findId? hid, rfl⟩

/-- With distinct ids, titles of the store come back from the ids of their passages. -/
theorem titlesOf_ids {store : Store} (hd : store.DistinctIds) {titles : List String}
    (h : ∀ title ∈ titles, store.has title = true) :
    titlesOf store ((titles.map store.get).filterMap Passage.id) = titles := by
  induction titles with
  | nil => rfl
  | cons title titles ih =>
      obtain ⟨htitle, htitles⟩ := List.forall_mem_cons.1 h
      have hin := Store.get_mem htitle
      obtain ⟨id, hid⟩ := Option.isSome_iff_exists.1 (hd.numbered _ hin)
      rw [List.map_cons, List.filterMap_cons, hid, titlesOf, List.filterMap_cons,
        Store.findId?_id hd hin hid, List.map_cons, Store.title_get]
      exact congrArg (title :: ·) (ih htitles)

theorem length_passages {store : Store} (h : ∀ id ∈ ids, (store.findId? id).isSome) :
    (ids.filterMap store.findId?).length = ids.length := by
  have hmap := congrArg List.length (map_findId? h)
  rw [List.length_map, List.length_map] at hmap
  exact hmap.symm

theorem titlesOf_ne_nil {store : Store} (h : ∀ id ∈ ids, (store.findId? id).isSome)
    (hne : ids ≠ []) : titlesOf store ids ≠ [] := by
  intro hnil
  have hlen := congrArg List.length hnil
  rw [titlesOf, List.length_map, length_passages h] at hlen
  exact hne (List.length_eq_zero_iff.1 hlen)

/-- The last title is that of the passage of the last id. -/
theorem getLast_titlesOf {store : Store} (h : ∀ id ∈ ids, (store.findId? id).isSome)
    {id : UInt32} {p : Passage} (hid : ids.getLast? = some id) (hp : store.findId? id = some p)
    (hne : titlesOf store ids ≠ []) : (titlesOf store ids).getLast hne = p.title := by
  have hmap := congrArg List.getLast? (map_findId? h)
  rw [List.getLast?_map, hid, Option.map_some, hp, List.getLast?_map] at hmap
  obtain ⟨p', hp', heq⟩ := Option.map_eq_some_iff.1 hmap.symm
  cases heq
  refine Option.some.inj ?_
  rw [← List.getLast?_eq_some_getLast hne, titlesOf, List.getLast?_map, hp']
  rfl

/-- The story with the reading that ids stand for. -/
def restored (s : Story) (ids : List UInt32) : Story :=
  s.resetHistory.replay true (titlesOf s.store ids)

theorem outline_restored (hs : s.Regular) (ids : List UInt32) :
    (s.restored ids).history.outline =
      (Entry.opening s.initialVariables).bare :: entriesOf [] (ids.filterMap s.store.findId?) := by
  have hget : (titlesOf s.store ids).map s.resetHistory.store.get =
      ids.filterMap s.store.findId? := map_get_filterMap s.store ids
  rw [restored, outline_replay (s.resetHistory_kept.regular hs), hget]
  rfl

theorem ids_restored (hs : s.Regular) (h : ∀ id ∈ ids, (s.store.findId? id).isSome) :
    (s.restored ids).history.ids = ids := by
  rw [History.ids_eq_outline, outline_restored hs, List.filterMap_cons_none rfl,
    filterMap_entriesOf, filterMap_id_findId? h]

/-- Each id has its entry. -/
theorem entry_restored (hs : s.Regular) (h : ∀ id ∈ ids, (s.store.findId? id).isSome) {i : Nat}
    {id : UInt32} (hi : ids[i]? = some id) :
    ∃ e p, (s.restored ids).history.oldestFirst[i + 1]? = some e ∧ s.store.findId? id = some p ∧
      e.bare = History.entryOf (ids.take i) p := by
  obtain ⟨p, hp, hfind⟩ := getElem?_passages h hi
  have hget := History.getElem?_outline (s.restored ids).history (i + 1)
  rw [outline_restored hs, List.getElem?_cons_succ, getElem?_entriesOf, hp, Option.map_some]
    at hget
  obtain ⟨e, he, hbare⟩ := Option.map_eq_some_iff.1 hget.symm
  have htake : ((ids.filterMap s.store.findId?).take i).filterMap Passage.id = ids.take i := by
    have hids : ∀ id ∈ ids.take i, (s.store.findId? id).isSome := fun id hin =>
      h id (List.mem_of_mem_take hin)
    have hmap := congrArg (List.take i) (map_findId? h)
    rw [← List.map_take, ← List.map_take, map_findId? hids] at hmap
    have heq := (List.map_inj_right fun _ _ heq => Option.some.inj heq).1 hmap
    rw [← heq, filterMap_id_findId? hids]
  rw [htake, List.nil_append] at hbare
  exact ⟨e, p, he, hfind, hbare⟩

/-- **Ids that all have passages restore a reading.** -/
theorem restores_of_passages (hs : s.Regular) (hne : ids ≠ [])
    (h : ∀ id ∈ ids, (s.store.findId? id).isSome) : s.Restores (s.restored ids) ids := by
  have hr := s.resetHistory_kept.regular hs
  have htitles := titlesOf_ne_nil h hne
  obtain ⟨hnavigator, -⟩ := navigator_replay hr true _ htitles
  have hids : (s.resetHistory.replay true (titlesOf s.store ids)).history.ids = ids :=
    ids_restored hs h
  rw [hids, ← restored] at hnavigator
  refine ⟨head?_replay hr true _ (.inl rfl), ?_, fun i id hi => ?_, fun id p hid hp ht => ?_,
    fun id p hid hp ht => ?_⟩
  · have hsize := congrArg List.length (outline_restored hs ids)
    simp only [History.outline, List.length_map, List.length_cons, length_entriesOf,
      length_passages h, History.oldestFirst, List.length_reverse] at hsize
    exact hsize
  · obtain ⟨e, p, he, hfind, hbare⟩ := entry_restored hs h hi
    have hid := Store.id_of_findId? hfind
    refine ⟨e, p, he, hfind, ?_, ?_, ?_⟩
    · exact (congrArg Entry.id hbare).trans hid
    · exact congrArg Entry.title hbare
    · refine (congrArg Entry.token hbare).trans ?_
      rw [History.entryOf, hid, List.take_add_one, hi]
  · rw [getLast_titlesOf h hid hp] at hnavigator
    rw [hnavigator, announce, if_pos (show p.title = s.resetHistory.config.startPassage from ht)]
    exact ⟨rfl, rfl⟩
  · rw [getLast_titlesOf h hid hp] at hnavigator
    rw [hnavigator, announce, if_neg (show p.title ≠ s.resetHistory.config.startPassage from ht)]
    exact ⟨rfl, rfl⟩

/-! ### What comes of a token -/

/-- **Restoring, as an equation**: the causes of failure in the order in which they are looked
for, and what is restored if there are none. -/
theorem restore_eq (s : Story) (token : String) :
    s.restore token =
      if isEmptyAddress token then (.error .empty, s)
      else match Trail.decode token with
        | .error e => (.error (.malformed e), s)
        | .ok ids => match ids.find? (isUnknown s.store) with
          | some id => (.error (.unknownPassage id), s)
          | none => (.ok (), s.restored ids) := by
  rw [restore, passagesOfToken]
  by_cases he : isEmptyAddress token = true
  · rw [if_pos he, if_pos he]
  · rw [if_neg he, if_neg he]
    cases Trail.decode token with
    | error e => rfl
    | ok ids =>
        simp only [passagesOf_eq]
        cases ids.find? (isUnknown s.store) <;> rfl

theorem restore_of_empty (he : isEmptyAddress token = true) :
    s.restore token = (.error .empty, s) := by rw [restore_eq, if_pos he]

theorem restore_of_malformed {e : TrailError} (he : isEmptyAddress token = false)
    (hd : Trail.decode token = .error e) : s.restore token = (.error (.malformed e), s) := by
  rw [restore_eq, if_neg (by simp [he]), hd]

theorem restore_of_unknown {id : UInt32} (he : isEmptyAddress token = false)
    (hd : Trail.decode token = .ok ids) (hid : ids.find? (isUnknown s.store) = some id) :
    s.restore token = (.error (.unknownPassage id), s) := by
  rw [restore_eq, if_neg (by simp [he]), hd]
  simp only [hid]

theorem restore_of_known (he : isEmptyAddress token = false) (hd : Trail.decode token = .ok ids)
    (h : ∀ id ∈ ids, (s.store.findId? id).isSome) : s.restore token = (.ok (), s.restored ids) := by
  rw [restore_eq, if_neg (by simp [he]), hd]
  simp only [(find?_isUnknown _ _).2 h]

/-- **All that can come of a token**: a failure for the first of three causes that applies, or the
reading that its ids stand for. -/
theorem restore_cases (s : Story) (token : String) :
    (isEmptyAddress token = true ∧ s.restore token = (.error .empty, s)) ∨
      (isEmptyAddress token = false ∧ ∃ e, Trail.decode token = .error e ∧
        s.restore token = (.error (.malformed e), s)) ∨
      (isEmptyAddress token = false ∧ ∃ ids id, Trail.decode token = .ok ids ∧
        ids.find? (isUnknown s.store) = some id ∧
          s.restore token = (.error (.unknownPassage id), s)) ∨
      (isEmptyAddress token = false ∧ ∃ ids, Trail.decode token = .ok ids ∧
        (∀ id ∈ ids, (s.store.findId? id).isSome) ∧
          s.restore token = (.ok (), s.restored ids)) := by
  cases he : isEmptyAddress token with
  | true => exact .inl ⟨rfl, restore_of_empty he⟩
  | false =>
      cases hd : Trail.decode token with
      | error e => exact .inr (.inl ⟨rfl, e, rfl, restore_of_malformed he hd⟩)
      | ok ids =>
          cases hid : ids.find? (isUnknown s.store) with
          | some id =>
              exact .inr (.inr (.inl ⟨rfl, ids, id, rfl, hid, restore_of_unknown he hd hid⟩))
          | none =>
              have hall := (find?_isUnknown _ _).1 hid
              exact .inr (.inr (.inr ⟨rfl, ids, rfl, hall, restore_of_known he hd hall⟩))

/-- A token fails, and leaves the story as it is, or is restored. -/
theorem restore_error_or_ok (s : Story) (token : String) :
    (∃ e, s.restore token = (.error e, s)) ∨ ∃ s', s.restore token = (.ok (), s') := by
  obtain ⟨-, hr⟩ | ⟨-, e, -, hr⟩ | ⟨-, ids, id, -, -, hr⟩ | ⟨-, ids, -, -, hr⟩ :=
    s.restore_cases token
  · exact .inl ⟨_, hr⟩
  · exact .inl ⟨_, hr⟩
  · exact .inl ⟨_, hr⟩
  · exact .inr ⟨_, hr⟩

/-- **A token that fails leaves the story as it is.** -/
theorem restore_snd_of_error {e : RestoreError} (h : (s.restore token).1 = .error e) :
    (s.restore token).2 = s := by
  obtain ⟨e', hr⟩ | ⟨s', hr⟩ := s.restore_error_or_ok token
  · rw [hr]
  · rw [hr] at h
    cases h

/-- What holds of a story, and of whatever a token restores, holds of the story afterwards. -/
theorem restore_preserves {P : Story → Prop} (h : P s)
    (hok : ∀ s', s.restore token = (.ok (), s') → P s') : P (s.restore token).2 := by
  obtain ⟨e, hr⟩ | ⟨s', hr⟩ := s.restore_error_or_ok token
  · rw [hr]
    exact h
  · rw [hr]
    exact hok s' hr

/-- What is restored stands for at least one id, each of which has a passage. -/
theorem restore_ok {s' : Story} (h : s.restore token = (.ok (), s')) :
    ∃ ids, ids ≠ [] ∧ Trail.decode token = .ok ids ∧ (∀ id ∈ ids, (s.store.findId? id).isSome) ∧
      s' = s.restored ids := by
  obtain ⟨-, hr⟩ | ⟨-, e, -, hr⟩ | ⟨-, ids, id, -, -, hr⟩ | ⟨he, ids, hd, hall, hr⟩ :=
    s.restore_cases token
  case inr.inr.inr =>
    refine ⟨ids, ?_, hd, hall, congrArg Prod.snd (h.symm.trans hr)⟩
    -- the marker alone is an empty address
    rintro rfl
    rw [Trail.eq_marker_of_decode_nil hd] at he
    cases he
  all_goals cases h.symm.trans hr

/-- What is restored is no empty address. -/
theorem isEmptyAddress_of_restore {s' : Story} (h : s.restore token = (.ok (), s')) :
    isEmptyAddress token = false := by
  cases he : isEmptyAddress token with
  | false => rfl
  | true =>
      rw [restore_of_empty he] at h
      cases h

/-- **The same token does the same with the same passages**: it fails for the same reason, or has the
same passages shown in turn. -/
theorem restore_shared {t : Story} (h : t.store = s.store) (token : String) :
    (∃ e, s.restore token = (.error e, s) ∧ t.restore token = (.error e, t)) ∨
      ∃ titles, titles ≠ [] ∧ s.restore token = (.ok (), s.resetHistory.replay true titles) ∧
        t.restore token = (.ok (), t.resetHistory.replay true titles) := by
  obtain ⟨he, hr⟩ | ⟨he, e, hd, hr⟩ | ⟨he, ids, id, hd, hid, hr⟩ | ⟨he, ids, hd, hall, hr⟩ :=
    s.restore_cases token
  · exact .inl ⟨_, hr, restore_of_empty he⟩
  · exact .inl ⟨_, hr, restore_of_malformed he hd⟩
  · rw [← h] at hid
    exact .inl ⟨_, hr, restore_of_unknown he hd hid⟩
  · obtain ⟨ids', hne, hd', -, -⟩ := restore_ok hr
    cases hd.symm.trans hd'
    refine .inr ⟨titlesOf s.store ids, titlesOf_ne_nil hall hne, hr, ?_⟩
    rw [← h] at hall ⊢
    exact restore_of_known he hd hall

/-! ### When a token fails, and when it is restored -/

theorem restore_empty_iff (s : Story) (token : String) :
    (s.restore token).1 = .error .empty ↔ token = "" ∨ token = "#" := by
  rw [← Trail.isEmptyAddress_iff]
  constructor
  · intro h
    obtain ⟨he, -⟩ | ⟨-, e, -, hr⟩ | ⟨-, ids, id, -, -, hr⟩ | ⟨-, ids, -, -, hr⟩ :=
      s.restore_cases token
    · exact he
    all_goals
      rw [hr] at h
      cases h
  · intro he
    rw [restore_of_empty he]

theorem restore_malformed_iff (s : Story) (token : String) (e : TrailError) :
    (s.restore token).1 = .error (.malformed e) ↔
      ¬(token = "" ∨ token = "#") ∧ Trail.decode token = .error e := by
  rw [← Trail.isEmptyAddress_iff, Bool.not_eq_true]
  constructor
  · intro h
    obtain ⟨-, hr⟩ | ⟨he, e', hd, hr⟩ | ⟨-, ids, id, -, -, hr⟩ | ⟨-, ids, -, -, hr⟩ :=
      s.restore_cases token
    all_goals
      rw [hr] at h
      cases h
    exact ⟨he, hd⟩
  · rintro ⟨he, hd⟩
    rw [restore_of_malformed he hd]

theorem restore_unknown_iff (s : Story) (token : String) (id : UInt32) :
    (s.restore token).1 = .error (.unknownPassage id) ↔
      ¬(token = "" ∨ token = "#") ∧ ∃ ids, Trail.decode token = .ok ids ∧
        ids.find? (isUnknown s.store) = some id := by
  rw [← Trail.isEmptyAddress_iff, Bool.not_eq_true]
  constructor
  · intro h
    obtain ⟨-, hr⟩ | ⟨-, e, -, hr⟩ | ⟨he, ids, id', hd, hid, hr⟩ | ⟨-, ids, -, -, hr⟩ :=
      s.restore_cases token
    all_goals
      rw [hr] at h
      cases h
    exact ⟨he, ids, hd, hid⟩
  · rintro ⟨he, ids, hd, hid⟩
    rw [restore_of_unknown he hd hid]

/-- **Otherwise the reading is restored that the ids stand for.** -/
theorem restore_restores (hs : s.Regular) (he : ¬(token = "" ∨ token = "#"))
    (hd : Trail.decode token = .ok ids) (h : ∀ id ∈ ids, (s.store.findId? id).isSome) :
    (s.restore token).1 = .ok () ∧ s.Restores (s.restore token).2 ids := by
  rw [← Trail.isEmptyAddress_iff, Bool.not_eq_true] at he
  have hr := restore_of_known he hd h
  obtain ⟨ids', hne, hd', -, -⟩ := restore_ok hr
  cases hd.symm.trans hd'
  rw [hr]
  exact ⟨rfl, restores_of_passages hs hne h⟩

/-- **What comes of a token.**  It fails for the first of three causes that applies, and then the
story is left as it is; else it restores the reading that its ids stand for. -/
theorem restore_spec (hs : s.Regular) (token : String) :
    ((s.restore token).1 = .error .empty ↔ token = "" ∨ token = "#") ∧
      (∀ e, (s.restore token).1 = .error (.malformed e) ↔
        ¬(token = "" ∨ token = "#") ∧ Trail.decode token = .error e) ∧
      (∀ id, (s.restore token).1 = .error (.unknownPassage id) ↔
        ¬(token = "" ∨ token = "#") ∧ ∃ ids, Trail.decode token = .ok ids ∧
          ids.find? (fun id => (s.store.findId? id).isNone) = some id) ∧
      (∀ e, (s.restore token).1 = .error e → (s.restore token).2 = s) ∧
      (¬(token = "" ∨ token = "#") → ∀ ids, Trail.decode token = .ok ids →
        (∀ id ∈ ids, (s.store.findId? id).isSome) →
          (s.restore token).1 = .ok () ∧ s.Restores (s.restore token).2 ids) :=
  ⟨s.restore_empty_iff token, s.restore_malformed_iff token, s.restore_unknown_iff token,
    fun _ => restore_snd_of_error, fun he _ hd h => restore_restores hs he hd h⟩

/-- Two passages that lead to each other, by plain links and by back links. -/
def thereAndBack : Fixture :=
  (({} : Fixture).addPassage "Start" "[[A]]<<back A>>" []).addPassage "A"
    "[[Start]]<<back Start>>" []

/-- The token of a reading that went there restores it; one that goes on to a passage that there is
not fails, and leaves the story as it is. -/
theorem restore_spec_thereAndBack :
    (((thereAndBack.build 0).restore "#1.2").1 = .ok () ∧
        (thereAndBack.build 0).Restores ((thereAndBack.build 0).restore "#1.2").2 [1, 2]) ∧
      ((thereAndBack.build 0).restore "#1.2.3").1 = .error (.unknownPassage 3) ∧
      ((thereAndBack.build 0).restore "#1.2.3").2 = thereAndBack.build 0 := by
  have hs : (thereAndBack.build 0).Regular := new_regular _ _ _ _ _
  have hknown : ∀ id ∈ [1, 2], ((thereAndBack.build 0).store.findId? id).isSome :=
    (find?_isUnknown _ _).1 (by decide +kernel)
  obtain ⟨-, -, -, -, hrestores⟩ := restore_spec hs "#1.2"
  obtain ⟨-, -, hunknown, hleaves, -⟩ := restore_spec hs "#1.2.3"
  have hfails := (hunknown 3).2 ⟨by decide, [1, 2, 3], rfl, by decide +kernel⟩
  exact ⟨hrestores (by decide) [1, 2] rfl hknown, hfails, hleaves _ hfails⟩

end Story

end Gamebook
