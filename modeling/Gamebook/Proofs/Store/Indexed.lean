/-
**The index finds what is there.**

A store with an index of its titles answers every question as one that goes through its passages,
and changes as one: the index is nothing but a shorter way.

Main definitions:

* `Store.Indexed.toStore` — the passages of a store without the index.

Main results:

* `Store.Indexed.place?_eq_some_iff`, `Store.Indexed.place?_eq_none_iff` — what the index tells;
* `Store.Indexed.toStore_ofRecords` — **both have the same passages** of a list of records;
* `Store.Indexed.find?_toStore`, `Store.Indexed.get_toStore`, `Store.Indexed.has_toStore` — **both
  find the same passage** for a title;
* `Store.Indexed.passages_modify?` — what changing a passage by its title does;
* `Store.Indexed.resetAll_setText` — going back to the texts that were loaded.
-/

import Gamebook.Proofs.Store.LookUp
import Gamebook.Store.Indexed

set_option relaxedAutoImplicit false
set_option autoImplicit false

namespace Gamebook.Store

/-! ### The place of a passage -/

theorem place_of_notMem {p : Passage} {ps : List Passage} (h : p.title ∉ ps.map Passage.title) :
    place p ps = ps ++ [p] := by
  induction ps with
  | nil => rfl
  | cons q ps ih =>
      obtain ⟨hq, hps⟩ := not_or.1 (mt List.mem_cons.2 h)
      rw [place, if_neg (Ne.symm hq), ih hps, List.cons_append]

/-- The passage of a title is replaced where the title stands. -/
theorem place_eq_set {p : Passage} {ps : List Passage} {i : Nat}
    (hnodup : (ps.map Passage.title).Nodup) (h : (ps.map Passage.title)[i]? = some p.title) :
    place p ps = ps.set i p := by
  induction ps generalizing i with
  | nil => cases h
  | cons q ps ih =>
      obtain ⟨hq, hps⟩ := List.nodup_cons.1 hnodup
      cases i with
      | zero =>
          have htitle : q.title = p.title := Option.some.inj h
          rw [place, if_pos htitle, List.set_cons_zero]
      | succ i =>
          have hbehind : (ps.map Passage.title)[i]? = some p.title := h
          have hne : q.title ≠ p.title := fun heq => hq (heq ▸ List.mem_of_getElem? hbehind)
          rw [place, if_neg hne, ih hps hbehind, List.set_cons_succ]

namespace Indexed

variable {s : Indexed} {title : String} {p : Passage}

theorem ext {s t : Indexed} (hpassages : s.passages = t.passages) (hplaces : s.places = t.places)
    (hmissing : s.missingText = t.missingText) : s = t := by
  cases s
  cases t
  cases hpassages
  cases hplaces
  cases hmissing
  rfl

theorem titles_nodup (s : Indexed) : (s.passages.map Passage.title).Nodup := by
  rw [List.Nodup, List.pairwise_iff_getElem]
  intro i j hi hj hij heq
  -- one title has one place
  have hfirst := (s.inStep _ i).2 (List.getElem?_eq_getElem hi)
  have hsecond := (s.inStep _ j).2 (List.getElem?_eq_getElem hj)
  rw [← heq, hfirst] at hsecond
  exact Nat.ne_of_lt hij (Option.some.inj hsecond)

/-- The passages of a store, without the index. -/
def toStore (s : Indexed) : Store :=
  { passages := s.passages
    missingText := s.missingText
    titles_nodup := s.titles_nodup }

/-! ### What the index tells -/

theorem val_place? (s : Indexed) (title : String) :
    (s.place? title).map Fin.val = s.places.get? title := by
  rw [place?]
  split
  · rename_i i hi
    exact hi.symm
  · rename_i hnone
    exact hnone.symm

/-- The index tells a place where a passage with the title stands. -/
theorem place?_eq_some_iff {i : Fin s.passages.length} :
    s.place? title = some i ↔ (s.passages.get i).title = title := by
  have htitle : s.places.get? title = some i.1 ↔ (s.passages.get i).title = title := by
    rw [s.inStep]
    simp
  rw [← htitle, ← val_place?]
  exact (Option.map_inj_right fun _ _ => Fin.eq_of_val_eq).symm

/-- It tells none only if there is no such passage. -/
theorem place?_eq_none_iff : s.place? title = none ↔ title ∉ s.passages.map Passage.title := by
  rw [Option.eq_none_iff_forall_ne_some]
  constructor
  · intro h hin
    obtain ⟨p, hp, rfl⟩ := List.mem_map.1 hin
    obtain ⟨i, hi, rfl⟩ := List.getElem_of_mem hp
    exact h ⟨i, hi⟩ (place?_eq_some_iff.2 rfl)
  · intro h i hi
    exact h (place?_eq_some_iff.1 hi ▸ List.mem_map_of_mem (List.getElem_mem i.2))

theorem contains_places : s.places.contains title = (s.place? title).isSome := by
  rw [Dict.contains, ← val_place?, Option.isSome_map]

/-! ### Building a store -/

theorem toStore_insert (s : Indexed) (record : Record) :
    (s.insert record).toStore = s.toStore.insert record := by
  refine ext_passages ?_ ?_
  · change (s.insert record).passages = place (Passage.ofRecord record) s.passages
    rw [insert]
    split
    · rename_i i hi
      exact (place_eq_set s.titles_nodup ((s.inStep _ _).1 hi)).symm
    · rename_i hnone
      refine (place_of_notMem fun hin => ?_).symm
      obtain ⟨i, hi⟩ := List.mem_iff_getElem?.1 hin
      rw [(s.inStep _ i).2 hi] at hnone
      cases hnone
  · change (s.insert record).missingText = s.missingText
    rw [insert]
    split <;> rfl

/-- **With the index or without, a list of records gives the same passages.** -/
theorem toStore_ofRecords (records : List Record) :
    (ofRecords records).toStore = Store.ofRecords records := by
  have hfold : ∀ s : Indexed,
      (records.foldl insert s).toStore = records.foldl Store.insert s.toStore := by
    induction records with
    | nil => exact fun _ => rfl
    | cons record records ih =>
        intro s
        rw [List.foldl_cons, List.foldl_cons, ih, toStore_insert]
  exact hfold {}

/-! ### Look up -/

/-- **The index finds the passage of a title**, and nothing for a title that is not held. -/
theorem find?_toStore (s : Indexed) (title : String) :
    s.find? (.title title) = s.toStore.find? title := by
  rw [find?]
  cases hplace : s.place? title with
  | none =>
      have hnone : s.toStore.find? title = none := by
        refine List.find?_eq_none.2 fun p hp htitle => place?_eq_none_iff.1 hplace ?_
        exact beq_iff_eq.1 htitle ▸ List.mem_map_of_mem hp
      exact hnone.symm
  | some i =>
      have hmem : s.passages.get i ∈ s.toStore.passages := List.getElem_mem i.2
      rw [← place?_eq_some_iff.1 hplace]
      exact (find?_title hmem).symm

theorem get_toStore (s : Indexed) (title : String) : s.get title = s.toStore.get title := by
  rw [Store.get, ← find?_toStore, find?, get]
  cases s.place? title <;> rfl

theorem has_toStore (s : Indexed) (title : String) :
    s.has (.title title) = s.toStore.has title := by
  rw [Store.has, ← find?_toStore, find?, Option.isSome_map]
  exact contains_places

/-! ### Changing texts -/

variable {f : Passage → Passage} {hf : ∀ p, (f p).title = p.title}

theorem modify?_of_place {i : Fin s.passages.length} (h : s.place? title = some i) :
    s.modify? title f hf = some (s.change f hf i) := by
  rw [modify?, h]
  rfl

theorem modify?_of_none (h : s.place? title = none) : s.modify? title f hf = none := by
  rw [modify?, h]
  rfl

/-- **The passage that is changed is the one that is found**, and all others stay as they are. -/
theorem passages_modify? (h : s.find? (.title title) = some p) :
    ∃ before after s', s.passages = before ++ p :: after ∧ s.modify? title f hf = some s' ∧
      s'.passages = before ++ f p :: after := by
  obtain ⟨i, hplace, rfl⟩ := Option.map_eq_some_iff.1 h
  have hparts : s.passages = s.passages.take i ++ s.passages.get i :: s.passages.drop (i + 1) := by
    rw [List.get_eq_getElem, ← List.drop_eq_getElem_cons i.2, List.take_append_drop]
  exact ⟨_, _, _, hparts, modify?_of_place hplace,
    List.set_eq_take_append_cons_drop.trans (if_pos i.2)⟩

/-- **Changing a text is undone** by going back to the texts that were loaded. -/
theorem resetAll_setText (s : Indexed) (title text : String) :
    (s.setText title text).resetAll = s.resetAll := by
  rw [setText]
  cases hplace : s.place? title with
  | none => rw [modify?_of_none hplace, Option.getD_none]
  | some i =>
      rw [modify?_of_place hplace, Option.getD_some]
      have hreset : (s.passages.map Passage.reset)[i.1]? =
          some ((s.passages.get i).setText text).reset := by
        rw [List.getElem?_map, List.getElem?_eq_getElem i.2]
        rfl
      exact ext (map_set_eq Passage.reset hreset) rfl rfl

end Indexed

end Gamebook.Store
