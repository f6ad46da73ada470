/-
**Stores with an index of their titles.**

To find a passage by its title without going through all of them, a store may keep the place of each
title.  A record with a title that is held already puts its passage in the place of the earlier one,
and any other one gets the next place.  The index and the passages stay in step by their type, so a
place that the index tells is always there.

Main definitions:

* `Store.Key` — what passages are looked up by;
* `Store.Indexed`, `Store.Indexed.ofRecords` — a store with its index, and that of a list of records;
* `Store.Indexed.has`, `Store.Indexed.find?`, `Store.Indexed.get`, `Store.Indexed.findId?` — look up;
* `Store.Indexed.modify?`, `Store.Indexed.resetAll` — changing the passage of a title, and going back
  to the texts that were loaded.
-/

import Gamebook.Dict
import Gamebook.Store

set_option relaxedAutoImplicit false
set_option autoImplicit false

namespace Gamebook.Store

/-- What a passage is looked up by. -/
inductive Key where
  | title (title : String)
  | id (id : UInt32)
  deriving DecidableEq, Repr

/-- Passages with the place of each title. -/
structure Indexed where
  passages : List Passage := []
  places : Dict Nat := .empty
  /-- The text of the stand-in for a title that is not held. -/
  missingText : String := defaultMissingText
  inStep : ∀ title i, places.get? title = some i ↔ (passages.map Passage.title)[i]? = some title := by
    simp

namespace Indexed

/-! ### Building a store -/

/-- Other passages in the same places, with the same titles. -/
def withPassages (s : Indexed) (passages : List Passage)
    (h : passages.map Passage.title = s.passages.map Passage.title) : Indexed :=
  { s with
    passages := passages
    inStep := h ▸ s.inStep }

/-- A member that `f` does not tell from the one in its place. -/
theorem map_set_eq {α β : Type} (f : α → β) {l : List α} {i : Nat} {a : α}
    (h : (l.map f)[i]? = some (f a)) : (l.set i a).map f = l.map f := by
  obtain ⟨hi, ha⟩ := List.getElem?_eq_some_iff.1 h
  rw [List.map_set, ← ha, List.set_getElem_self]

/-- Puts a passage in the place of one with its title. -/
def put (s : Indexed) (i : Nat) (p : Passage)
    (h : (s.passages.map Passage.title)[i]? = some p.title) : Indexed :=
  s.withPassages (s.passages.set i p) (map_set_eq Passage.title h)

/-- Behind the last passage a title that is not held yet gets a place. -/
theorem push_inStep (s : Indexed) {p : Passage} (h : s.places.get? p.title = none)
    (title : String) (i : Nat) :
    (s.places.insert p.title s.passages.length).get? title = some i ↔
      ((s.passages ++ [p]).map Passage.title)[i]? = some title := by
  have hnew : ∀ j : Nat, (s.passages.map Passage.title)[j]? ≠ some p.title := by
    intro j hj
    rw [(s.inStep p.title j).2 hj] at h
    cases h
  rw [Dict.get?_insert, List.map_append, List.map_singleton, List.getElem?_append, List.length_map]
  split
  · rename_i htitle
    subst htitle
    split
    · rename_i hi
      simp only [Option.some.injEq, hnew i, iff_false]
      exact (Nat.ne_of_lt hi).symm
    · rename_i hi
      have hlast : i - s.passages.length = 0 ↔ s.passages.length = i := by omega
      cases hj : i - s.passages.length with
      | zero => simpa using hlast.1 hj
      | succ j => simpa [hj] using hlast
  · rename_i htitle
    rw [s.inStep]
    split
    · rfl
    · rename_i hi
      have hnone : (s.passages.map Passage.title)[i]? = none :=
        List.getElem?_eq_none (by simpa using hi)
      rw [hnone]
      cases i - s.passages.length with
      | zero => simpa using Ne.symm htitle
      | succ j => simp

/-- Adds a passage of a title that is not held yet. -/
def push (s : Indexed) (p : Passage) (h : s.places.get? p.title = none) : Indexed :=
  { s with
    passages := s.passages ++ [p]
    places := s.places.insert p.title s.passages.length
    inStep := s.push_inStep h }

/-- Adds the passage of a record. -/
def insert (s : Indexed) (record : Record) : Indexed :=
  let p := Passage.ofRecord record
  match h : s.places.get? p.title with
  | some i => s.put i p ((s.inStep _ _).1 h)
  | none => s.push p h

/-- The store of a list of records. -/
def ofRecords (records : List Record) : Indexed := records.foldl insert {}

/-- The store with another text for titles that it does not hold. -/
def withMissingText (s : Indexed) (text : String) : Indexed := { s with missingText := text }

/-! ### Look up -/

/-- The place of a title. -/
def place? (s : Indexed) (title : String) : Option (Fin s.passages.length) :=
  match h : s.places.get? title with
  | some i => some ⟨i, by
      have hi := (List.getElem?_eq_some_iff.1 ((s.inStep title i).1 h)).1
      rwa [List.length_map] at hi⟩
  | none => none

/-- The first passage with an id. -/
def findId? (s : Indexed) (id : UInt32) : Option Passage := s.passages.find? (·.id == some id)

/-- Whether there is a passage for a key. -/
def has (s : Indexed) : Key → Bool
  | .title title => s.places.contains title
  | .id id => s.passages.any (·.id == some id)

/-- The passage for a key. -/
def find? (s : Indexed) : Key → Option Passage
  | .title title => (s.place? title).map s.passages.get
  | .id id => s.findId? id

/-- The passage of a title, or the stand-in for it. -/
def get (s : Indexed) (title : String) : Passage :=
  match s.place? title with
  | some i => s.passages.get i
  | none => Passage.missing title s.missingText

/-! ### Changing texts -/

theorem title_change (s : Indexed) {f : Passage → Passage} (hf : ∀ p, (f p).title = p.title)
    (i : Fin s.passages.length) :
    (s.passages.map Passage.title)[i.1]? = some (f (s.passages.get i)).title := by
  rw [List.getElem?_map, List.getElem?_eq_getElem i.2, hf]
  rfl

/-- Changes the passage at a place, but for its title. -/
def change (s : Indexed) (f : Passage → Passage) (hf : ∀ p, (f p).title = p.title)
    (i : Fin s.passages.length) : Indexed :=
  s.put i (f (s.passages.get i)) (s.title_change hf i)

/-- Changes the passage of a title, but for the title; `none` if there is no such passage. -/
def modify? (s : Indexed) (title : String) (f : Passage → Passage)
    (hf : ∀ p, (f p).title = p.title) : Option Indexed :=
  (s.place? title).map (s.change f hf)

/-- Changes the text of the passage of a title. -/
def setText (s : Indexed) (title text : String) : Indexed :=
  (s.modify? title (·.setText text) fun p => p.title_setText text).getD s

/-- Gives every passage the text that was loaded. -/
def resetAll (s : Indexed) : Indexed :=
  s.withPassages (s.passages.map Passage.reset) (by rw [List.map_map]; rfl)

end Indexed

end Gamebook.Store
