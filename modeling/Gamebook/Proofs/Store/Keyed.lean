/-
**A store is a map from titles, in the order in which they are first seen.**

A story may hand over several records with one title, and several with one id.  For each title the
last record counts, in the place where the title was first seen.  Whatever way a passage is looked
up by its title, it is this one that is found; by an id, it is the first passage that is held with
it, so an id that only replaced records had is not found.

Main definitions:

* `FirstSeen` — what occurs in a list, each once, in the order of first occurrence;
* `Record.last?` — the record of a title that counts;
* `Passage.Holds` — a passage has what its record says;
* `Store.Indexed.Finds`, `Store.Indexed.Misses` — every look up of a title finds a passage, or none
  does;
* `Store.Indexed.Keyed` — a store is the map from titles that some records give.

Main results:

* `FirstSeen.concat` — one more member at the end of a list;
* `Store.firstSeen_ofRecords`, `Store.find?_ofRecords` — **which passages a store of records has**;
* `Store.Indexed.finds_of_mem`, `Store.Indexed.misses_of_notMem` — the ways to look up a title agree;
* `Store.Indexed.findId?_eq_some_iff`, `Store.findId?_ofRecords_eq_none_iff` — looking up an id;
* `Store.Indexed.ofRecords_keyed` — **a store of records is a map from titles**.
-/

import Gamebook.Proofs.Store.Indexed
import Mathlib.Data.List.Induction

set_option relaxedAutoImplicit false
set_option autoImplicit false

namespace Gamebook

/-! ### The order of first occurrence -/

/-- `l` lists what occurs in `all`, each once, in the order of first occurrence. -/
structure FirstSeen {α : Type} [BEq α] (all l : List α) : Prop where
  mem_iff : ∀ a, a ∈ l ↔ a ∈ all
  order : l.Pairwise fun a b => all.idxOf a < all.idxOf b

namespace FirstSeen

variable {α : Type} [BEq α] {all l : List α}

theorem nil : FirstSeen ([] : List α) [] := ⟨fun _ => Iff.rfl, .nil⟩

variable [LawfulBEq α]

/-- One more member at the end counts only if it was not seen before. -/
theorem concat (h : FirstSeen all l) (a : α) :
    FirstSeen (all ++ [a]) (if l.contains a then l else l ++ [a]) := by
  have hbefore : l.Pairwise fun b c => (all ++ [a]).idxOf b < (all ++ [a]).idxOf c := by
    refine h.order.imp_of_mem fun hb hc hlt => ?_
    rwa [List.idxOf_append, List.idxOf_append, if_pos ((h.mem_iff _).1 hb),
      if_pos ((h.mem_iff _).1 hc)]
  split
  · rename_i ha
    have hseen := (h.mem_iff a).1 (List.contains_iff_mem.1 ha)
    refine ⟨fun b => ?_, hbefore⟩
    rw [h.mem_iff, List.mem_append, List.mem_singleton]
    exact ⟨.inl, fun hb => hb.elim id fun heq => heq ▸ hseen⟩
  · rename_i ha
    have hnew : a ∉ all := fun hin => ha (List.contains_iff_mem.2 ((h.mem_iff a).2 hin))
    refine ⟨fun b => ?_, List.pairwise_append.2
      ⟨hbefore, List.pairwise_singleton _ _, fun b hb c hc => ?_⟩⟩
    · rw [List.mem_append, List.mem_append, h.mem_iff]
    · obtain rfl := List.mem_singleton.1 hc
      have hb' := (h.mem_iff b).1 hb
      rw [List.idxOf_append, List.idxOf_append, if_pos hb', if_neg hnew]
      exact Nat.lt_of_lt_of_le (List.idxOf_lt_length_of_mem hb') (Nat.le_add_left _ _)

/-- Taking each member once keeps the order of first occurrence. -/
theorem eraseDups (all : List α) : FirstSeen all all.eraseDups := by
  induction all using List.reverseRecOn with
  | nil => exact nil
  | append_singleton all a ih =>
      have hlast : (all ++ [a]).eraseDups =
          if all.eraseDups.contains a then all.eraseDups else all.eraseDups ++ [a] := by
        rw [List.eraseDups_append]
        by_cases ha : a ∈ all
        · simp [List.removeAll, ha]
        · simp [List.removeAll, ha, List.eraseDups_cons]
      exact hlast ▸ ih.concat a

end FirstSeen

/-! ### The records that count -/

/-- The last record of a title. -/
def Record.last? (records : List Record) (title : String) : Option Record :=
  (records.filter (·.title == title)).getLast?

namespace Record

variable {records : List Record} {record : Record} {title : String}

theorem last?_concat (records : List Record) (record : Record) (title : String) :
    last? (records ++ [record]) title =
      if record.title = title then some record else last? records title := by
  rw [last?, last?, List.filter_append]
  split <;> simp [*]

theorem mem_of_last? (h : last? records title = some record) :
    record ∈ records ∧ record.title = title := by
  obtain ⟨hmem, htitle⟩ := List.mem_filter.1 (List.mem_of_getLast? h)
  exact ⟨hmem, beq_iff_eq.1 htitle⟩

end Record

/-- A passage has what its record says, with each tag once. -/
structure Passage.Holds (p : Passage) (record : Record) : Prop where
  title : p.title = record.title
  id : p.id = some record.order
  text : p.text = record.text
  rawText : p.rawText = record.text
  tags : FirstSeen record.tags p.tags

theorem Passage.holds_ofRecord (record : Record) : (ofRecord record).Holds record :=
  ⟨rfl, rfl, rfl, rfl, .eraseDups record.tags⟩

namespace Store

/-! ### Which passages a store of records has -/

theorem titles_place (p : Passage) (ps : List Passage) (h : (ps.map Passage.title).Nodup) :
    (place p ps).map Passage.title =
      if (ps.map Passage.title).contains p.title then ps.map Passage.title
      else ps.map Passage.title ++ [p.title] := by
  split
  · rename_i hin
    obtain ⟨i, hi⟩ := List.mem_iff_getElem?.1 (List.contains_iff_mem.1 hin)
    rw [place_eq_set h hi, Indexed.map_set_eq Passage.title hi]
  · rename_i hin
    rw [place_of_notMem (mt List.contains_iff_mem.2 hin), List.map_append, List.map_singleton]

theorem find?_place (p : Passage) (ps : List Passage) (title : String) :
    (place p ps).find? (·.title == title) =
      if p.title = title then some p else ps.find? (·.title == title) := by
  induction ps with
  | nil =>
      rw [place, List.find?_singleton]
      simp
  | cons q ps ih =>
      rw [place]
      split
      · rename_i hq
        -- the earlier passage had the same title, so it was found for no other
        rw [List.find?_cons, List.find?_cons, hq]
        by_cases htitle : p.title = title
        · rw [beq_iff_eq.2 htitle, if_pos htitle]
        · rw [beq_false_of_ne htitle, if_neg htitle]
      · rename_i hq
        rw [List.find?_cons, List.find?_cons, ih]
        by_cases htitle : q.title = title
        · have hp : p.title ≠ title := fun heq => hq (htitle.trans heq.symm)
          rw [beq_iff_eq.2 htitle, if_neg hp, if_neg hp]
        · rw [beq_false_of_ne htitle]

theorem ofRecords_concat (records : List Record) (record : Record) :
    ofRecords (records ++ [record]) = (ofRecords records).insert record := by
  rw [ofRecords, List.foldl_append]
  rfl

/-- **The titles of a store are those of its records**, in the order of first occurrence. -/
theorem firstSeen_ofRecords (records : List Record) :
    FirstSeen (records.map Record.title) ((ofRecords records).passages.map Passage.title) := by
  induction records using List.reverseRecOn with
  | nil => exact .nil
  | append_singleton records record ih =>
      have htitles : (ofRecords (records ++ [record])).passages.map Passage.title = _ :=
        (congrArg (fun s => s.passages.map Passage.title) (ofRecords_concat records record)).trans
          (titles_place (Passage.ofRecord record) _ (ofRecords records).titles_nodup)
      rw [htitles, List.map_append]
      exact ih.concat record.title

/-- **The passage of a title is that of the last record of that title.** -/
theorem find?_ofRecords (records : List Record) (title : String) :
    (ofRecords records).find? title = (Record.last? records title).map Passage.ofRecord := by
  induction records using List.reverseRecOn with
  | nil => rfl
  | append_singleton records record ih =>
      have hplace : (ofRecords (records ++ [record])).find? title = _ :=
        (congrArg (find? · title) (ofRecords_concat records record)).trans
          (find?_place (Passage.ofRecord record) _ title)
      rw [hplace, Record.last?_concat]
      change (if record.title = title then _ else (ofRecords records).find? title) = _
      rw [ih]
      split <;> rfl

/-- Each passage of a store has what the last record of its title says. -/
theorem exists_holds_ofRecords {records : List Record} {p : Passage}
    (hp : p ∈ (ofRecords records).passages) :
    ∃ record, Record.last? records p.title = some record ∧ p.Holds record := by
  have hfind := find?_title hp
  rw [find?_ofRecords] at hfind
  obtain ⟨record, hlast, rfl⟩ := Option.map_eq_some_iff.1 hfind
  exact ⟨record, hlast, Passage.holds_ofRecord record⟩

/-- **An id is not found if only replaced records had it.** -/
theorem findId?_ofRecords_eq_none_iff {records : List Record} {id : UInt32} :
    (ofRecords records).findId? id = none ↔
      ∀ record ∈ records, record.order = id → Record.last? records record.title ≠ some record := by
  rw [findId?, List.find?_eq_none]
  constructor
  · rintro h record - rfl hlast
    have hfind := find?_ofRecords records record.title
    rw [hlast] at hfind
    exact h (Passage.ofRecord record) (mem_of_find? hfind) (by simp [Passage.ofRecord])
  · intro h p hp hid
    obtain ⟨record, hlast, hholds⟩ := exists_holds_ofRecords hp
    have horder : record.order = id := by
      rw [hholds.id] at hid
      simpa using hid
    exact h record (Record.mem_of_last? hlast).1 horder (hholds.title ▸ hlast)

namespace Indexed

variable {s : Indexed} {title : String} {p : Passage} {id : UInt32}

/-! ### The ways to look up -/

/-- Every look up of a title finds a passage, and it is this one that is changed under the title. -/
structure Finds (s : Indexed) (title : String) (p : Passage) : Prop where
  mem : p ∈ s.passages
  title_eq : p.title = title
  has : s.has (.title title) = true
  find : s.find? (.title title) = some p
  get : s.get title = p
  modify : ∀ f hf, ∃ before after s', s.passages = before ++ p :: after ∧
    s.modify? title f hf = some s' ∧ s'.passages = before ++ f p :: after

/-- No look up of a title finds a passage, and a stand-in is handed out for it. -/
structure Misses (s : Indexed) (title : String) : Prop where
  notMem : title ∉ s.passages.map Passage.title
  has : s.has (.title title) = false
  find : s.find? (.title title) = none
  get : s.get title =
    { title := title, id := none, rawText := s.missingText, text := s.missingText, tags := [] }
  modify : ∀ f hf, s.modify? title f hf = none

theorem finds_of_mem (h : p ∈ s.passages) : s.Finds p.title p := by
  have hfind : s.find? (.title p.title) = some p := (find?_toStore s _).trans (find?_title h)
  refine ⟨h, rfl, ?_, hfind, ?_, fun f hf => passages_modify? hfind⟩
  · rw [has_toStore, Store.has, ← find?_toStore, hfind]
    rfl
  · rw [get_toStore]
    exact get_title h

theorem misses_of_notMem (h : title ∉ s.passages.map Passage.title) : s.Misses title := by
  have hplace := place?_eq_none_iff.2 h
  have hfind : s.find? (.title title) = none := Option.map_eq_none_iff.2 hplace
  refine ⟨h, ?_, hfind, ?_, fun f hf => modify?_of_none hplace⟩
  · rw [has_toStore, Store.has, ← find?_toStore, hfind]
    rfl
  · rw [get, hplace]
    rfl

/-- **An id finds the first passage that has it.** -/
theorem findId?_eq_some_iff : s.findId? id = some p ↔ ∃ before after,
    s.passages = before ++ p :: after ∧ p.id = some id ∧ ∀ q ∈ before, q.id ≠ some id := by
  rw [findId?, List.find?_eq_some_iff_append]
  simp only [beq_iff_eq, Bool.not_eq_true', beq_eq_false_iff_ne]
  constructor
  · rintro ⟨hid, before, after, hparts, hbefore⟩
    exact ⟨before, after, hparts, hid, hbefore⟩
  · rintro ⟨before, after, hparts, hid, hbefore⟩
    exact ⟨hid, before, after, hparts, hbefore⟩

theorem has_id (s : Indexed) (id : UInt32) : s.has (.id id) = (s.findId? id).isSome :=
  List.isSome_find?.symm

/-- Going back to the texts that were loaded undoes any number of changes. -/
theorem resetAll_setTexts (s : Indexed) (edits : List (String × String)) :
    (edits.foldl (fun s edit => s.setText edit.1 edit.2) s).resetAll = s.resetAll := by
  induction edits generalizing s with
  | nil => rfl
  | cons edit edits ih => rw [List.foldl_cons, ih, resetAll_setText]

/-- A store is the map from titles that some records give. -/
structure Keyed (records : List Record) (s : Indexed) : Prop where
  /-- There is one passage for each title, in the order of first occurrence. -/
  titles : FirstSeen (records.map Record.title) (s.passages.map Passage.title)
  /-- It has what the last record of its title says. -/
  holds : ∀ p ∈ s.passages, ∃ record, Record.last? records p.title = some record ∧ p.Holds record
  finds : ∀ title ∈ records.map Record.title, ∃ p, s.Finds title p
  misses : ∀ title ∉ records.map Record.title, s.Misses title
  has_id : ∀ id, s.has (.id id) = (s.findId? id).isSome
  find?_id : ∀ id, s.find? (.id id) = s.findId? id
  /-- An id finds the first passage that has it. -/
  findId? : ∀ id p, s.findId? id = some p ↔ ∃ before after,
    s.passages = before ++ p :: after ∧ p.id = some id ∧ ∀ q ∈ before, q.id ≠ some id
  /-- It finds none if only replaced records had it. -/
  findId?_none : ∀ id, s.findId? id = none ↔ ∀ record ∈ records, record.order = id →
    Record.last? records record.title ≠ some record
  /-- Whatever texts are changed, going back to those that were loaded restores them all. -/
  restores : ∀ edits : List (String × String),
    (edits.foldl (fun s edit => s.setText edit.1 edit.2) s).resetAll = s

theorem passages_ofRecords (records : List Record) :
    (ofRecords records).passages = (Store.ofRecords records).passages :=
  congrArg Store.passages (toStore_ofRecords records)

theorem missingText_ofRecords (records : List Record) :
    (ofRecords records).missingText = defaultMissingText := by
  have hfold : ∀ s : Store, (records.foldl Store.insert s).missingText = s.missingText := by
    induction records with
    | nil => exact fun _ => rfl
    | cons record records ih => exact fun s => ih (s.insert record)
  exact (congrArg Store.missingText (toStore_ofRecords records)).trans (hfold {})

/-- **A store of records is a map from titles, in the order in which they are first seen.**  It has
one passage for each title, with what the last record of that title says.  All ways to look up a
title agree, and so do all ways to look up an id.  Whatever texts are changed, going back to those
that were loaded restores the store.  With the index or without it is the same store. -/
theorem ofRecords_keyed (records : List Record) (missingText : String) :
    (ofRecords records).missingText = defaultMissingText ∧
      ((ofRecords records).withMissingText missingText).missingText = missingText ∧
      ((ofRecords records).withMissingText missingText).toStore =
        (Store.ofRecords records).withMissingText missingText ∧
      Keyed records ((ofRecords records).withMissingText missingText) := by
  have hpassages := passages_ofRecords records
  have htitles := firstSeen_ofRecords records
  rw [← hpassages] at htitles
  have hloaded : ∀ p ∈ (ofRecords records).passages, p.reset = p := by
    rw [hpassages]
    exact forall_mem_ofRecords fun _ _ => rfl
  have hreset : ((ofRecords records).withMissingText missingText).resetAll =
      (ofRecords records).withMissingText missingText :=
    ext ((List.map_congr_left hloaded).trans (List.map_id _)) rfl rfl
  refine ⟨missingText_ofRecords records, rfl, ?_, ?_⟩
  · exact congrArg (Store.withMissingText · missingText) (toStore_ofRecords records)
  · refine ⟨htitles, ?_, ?_, ?_, has_id _, fun _ => rfl, fun _ _ => findId?_eq_some_iff, ?_, ?_⟩
    · exact fun p hp => exists_holds_ofRecords (hpassages ▸ hp)
    · intro title htitle
      obtain ⟨p, hp, rfl⟩ := List.mem_map.1 ((htitles.mem_iff title).2 htitle)
      exact ⟨p, finds_of_mem hp⟩
    · exact fun title htitle => misses_of_notMem fun hin => htitle ((htitles.mem_iff title).1 hin)
    · intro id
      rw [← findId?_ofRecords_eq_none_iff, Store.findId?, ← hpassages]
      rfl
    · exact fun edits => (resetAll_setTexts _ edits).trans hreset

end Indexed

end Store

end Gamebook
