/-
**Looking up passages by title and by id.**

No two passages of a store have one title, so a passage that was found by its id is found by its
title too.  Ids may be repeated; then the first passage with an id is the one that is found.

Main definitions:

* `Store.Numbered`, `Store.DistinctIds` — every passage has an id, and no two have the same one.

Main results:

* `Store.find?_title` — a passage of a store is found by its title;
* `Store.get_of_findId?` — so is one that was found by its id;
* `Store.findId?_id` — with distinct ids, a passage of a store is found by its id;
* `Store.numbered_ofRecords` — a store of records is numbered;
* `Store.resetAll_setText`, `Store.resetAll_ofRecords` — going back to the texts that were loaded.
-/

import Gamebook.Store

set_option relaxedAutoImplicit false
set_option autoImplicit false

namespace Gamebook

namespace Store

variable {s : Store} {p : Passage} {title : String} {id : UInt32}

/-- Every passage of the store has an id. -/
def Numbered (s : Store) : Prop := ∀ p ∈ s.passages, p.id.isSome

/-- Every passage of the store has an id, and no two have the same one. -/
structure DistinctIds (s : Store) : Prop where
  numbered : s.Numbered
  nodup : (s.passages.map Passage.id).Nodup

/-! ### By title -/

theorem mem_of_find? (h : s.find? title = some p) : p ∈ s.passages := List.mem_of_find?_eq_some h

theorem title_of_find? (h : s.find? title = some p) : p.title = title := by
  have hp := List.find?_some h
  simpa using hp

/-- In a list without repetitions of `f`, each member is the first with its value. -/
theorem find?_of_nodup_map {α β : Type} [BEq β] [LawfulBEq β] (f : α → β) {l : List α} {a : α}
    (hl : (l.map f).Nodup) (ha : a ∈ l) : l.find? (f · == f a) = some a := by
  induction l with
  | nil => exact absurd ha List.not_mem_nil
  | cons b l ih =>
      obtain ⟨hb, hl⟩ := List.nodup_cons.1 hl
      rw [List.find?_cons]
      rcases List.mem_cons.1 ha with rfl | ha
      · simp
      · have hne : f b ≠ f a := fun heq => hb (heq ▸ List.mem_map_of_mem ha)
        rw [beq_false_of_ne hne]
        exact ih hl ha

/-- **A passage of a store is found by its title.** -/
theorem find?_title (h : p ∈ s.passages) : s.find? p.title = some p :=
  find?_of_nodup_map Passage.title s.titles_nodup h

theorem get_title (h : p ∈ s.passages) : s.get p.title = p := by rw [get, find?_title h]; rfl

theorem has_iff : s.has title = true ↔ ∃ p ∈ s.passages, p.title = title := by
  rw [has, Option.isSome_iff_exists]
  constructor
  · rintro ⟨p, hp⟩
    exact ⟨p, mem_of_find? hp, title_of_find? hp⟩
  · rintro ⟨p, hp, rfl⟩
    exact ⟨p, find?_title hp⟩

/-- What a store has for a title has that title, stand-ins included. -/
@[simp] theorem title_get (s : Store) (title : String) : (s.get title).title = title := by
  rw [get]
  cases h : s.find? title with
  | none => rfl
  | some p => exact title_of_find? h

theorem get_mem (h : s.has title = true) : s.get title ∈ s.passages := by
  obtain ⟨p, hp, rfl⟩ := has_iff.1 h
  rw [get_title hp]
  exact hp

/-! ### By id -/

theorem mem_of_findId? (h : s.findId? id = some p) : p ∈ s.passages := List.mem_of_find?_eq_some h

theorem id_of_findId? (h : s.findId? id = some p) : p.id = some id := by
  have hp := List.find?_some h
  simpa using hp

/-- **A passage that was found by its id is found by its title.** -/
theorem get_of_findId? (h : s.findId? id = some p) : s.get p.title = p :=
  get_title (mem_of_findId? h)

/-- With distinct ids, a passage of a store is found by its id. -/
theorem findId?_id (h : s.DistinctIds) (hp : p ∈ s.passages) (hid : p.id = some id) :
    s.findId? id = some p := by
  rw [findId?, ← hid]
  exact find?_of_nodup_map Passage.id h.nodup hp

/-- Some passage is found by the id of a passage, even if ids are repeated. -/
theorem findId?_isSome (hp : p ∈ s.passages) (hid : p.id = some id) :
    (s.findId? id).isSome := by
  rw [findId?, List.find?_isSome]
  exact ⟨p, hp, by simp [hid]⟩

/-- So it is by the id that the story has for a title. -/
theorem findId?_isSome_of_get (h : (s.get title).id = some id) : (s.findId? id).isSome := by
  rw [get] at h
  cases hp : s.find? title with
  | none =>
      -- a stand-in has no id
      rw [hp] at h
      cases h
  | some p =>
      rw [hp] at h
      exact findId?_isSome (mem_of_find? hp) h

/-- Texts can be changed back without a change of ids. -/
theorem id_get_resetAll (s : Store) (title : String) :
    (s.resetAll.get title).id = (s.get title).id := by
  have hfind : s.resetAll.find? title = (s.find? title).map Passage.reset := List.find?_map
  rw [get, get, hfind]
  cases s.find? title <;> rfl

/-! ### Stores of records -/

theorem forall_mem_place {P : Passage → Prop} {q : Passage} {ps : List Passage} (hq : P q)
    (h : ∀ p ∈ ps, P p) : ∀ p ∈ place q ps, P p := by
  induction ps with
  | nil => simpa [place] using hq
  | cons r ps ih =>
      obtain ⟨hr, hps⟩ := List.forall_mem_cons.1 h
      rw [place]
      split
      · exact List.forall_mem_cons.2 ⟨hq, hps⟩
      · exact List.forall_mem_cons.2 ⟨hr, ih hps⟩

/-- **The passages of a store of records** are those of the records. -/
theorem forall_mem_ofRecords {P : Passage → Prop} {records : List Record}
    (h : ∀ record ∈ records, P (Passage.ofRecord record)) :
    ∀ p ∈ (ofRecords records).passages, P p := by
  have hfold : ∀ s : Store, (∀ p ∈ s.passages, P p) →
      ∀ p ∈ (records.foldl insert s).passages, P p := by
    induction records with
    | nil => exact fun _ hs => hs
    | cons record records ih =>
        obtain ⟨hrecord, hrecords⟩ := List.forall_mem_cons.1 h
        exact fun s hs => ih hrecords _ (forall_mem_place hrecord hs)
  exact hfold {} fun p hp => absurd hp List.not_mem_nil

/-- A store of records is numbered. -/
theorem numbered_ofRecords (records : List Record) : (ofRecords records).Numbered :=
  forall_mem_ofRecords fun _ _ => rfl

/-! ### Texts as they were loaded -/

theorem ext_passages {s t : Store} (hp : s.passages = t.passages)
    (hm : s.missingText = t.missingText) : s = t := by
  cases s
  cases t
  cases hp
  cases hm
  rfl

/-- **Changing a text is undone** by going back to the texts that were loaded. -/
@[simp] theorem resetAll_setText (s : Store) (title text : String) :
    (s.setText title text).resetAll = s.resetAll := by
  refine ext_passages ?_ rfl
  simp only [resetAll, setText, mapPassages, List.map_map]
  refine List.map_congr_left fun p _ => ?_
  dsimp only [Function.comp]
  split <;> rfl

/-- Twice is once. -/
@[simp] theorem resetAll_resetAll (s : Store) : s.resetAll.resetAll = s.resetAll := by
  refine ext_passages ?_ rfl
  simp only [resetAll, mapPassages, List.map_map]
  exact List.map_congr_left fun _ _ => rfl

/-- A store of records has the texts that were loaded. -/
theorem resetAll_ofRecords (records : List Record) (missingText : String) :
    ((ofRecords records).withMissingText missingText).resetAll =
      (ofRecords records).withMissingText missingText := by
  have hloaded : ∀ p ∈ (ofRecords records).passages, p.reset = p :=
    forall_mem_ofRecords fun _ _ => rfl
  refine ext_passages ?_ rfl
  exact (List.map_congr_left hloaded).trans (List.map_id _)

end Store

end Gamebook
