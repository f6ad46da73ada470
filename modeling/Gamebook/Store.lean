/-
**The passages of a story.**

A store holds the passages of a story in the order in which their titles were first seen, one for
each title.  A later record with the same title takes the place of the earlier one.

Main definitions:

* `Store`, `Store.ofRecords` — a store, and that of a list of records;
* `Store.find?`, `Store.get`, `Store.findId?` — look up by title and by id;
* `Store.setText`, `Store.resetAll` — changing texts and undoing it;
* `Store.select` — the passages with a tag or a title, in order.
-/

import Gamebook.Passage.Basic

set_option relaxedAutoImplicit false
set_option autoImplicit false

namespace Gamebook

/-- What shows a title that the story does not have. -/
def defaultMissingText : String := "@@This passage does not exist.@@"

/-- The passages of a story, no two of one title. -/
structure Store where
  passages : List Passage := []
  /-- The text of the stand-in for a title that is not held. -/
  missingText : String := defaultMissingText
  titles_nodup : (passages.map Passage.title).Nodup := by simp
  deriving DecidableEq

instance : Inhabited Store := ⟨{}⟩

namespace Store

/-! ### Building a store -/

/-- Puts a passage in the place of the one with its title, or at the end. -/
def place (p : Passage) : List Passage → List Passage
  | [] => [p]
  | q :: qs => if q.title = p.title then p :: qs else q :: place p qs

theorem mem_titles_place (p : Passage) (ps : List Passage) (title : String) :
    title ∈ (place p ps).map Passage.title ↔ title = p.title ∨ title ∈ ps.map Passage.title := by
  induction ps with
  | nil => simp [place]
  | cons q qs ih =>
      rw [place]
      split
      · rename_i h
        simp [h]
      · simp only [List.map_cons, List.mem_cons, ih]
        constructor <;> rintro (h | h | h) <;> simp [h]

theorem place_nodup (p : Passage) (ps : List Passage) (h : (ps.map Passage.title).Nodup) :
    ((place p ps).map Passage.title).Nodup := by
  induction ps with
  | nil => simp [place]
  | cons q qs ih =>
      have hq := List.nodup_cons.mp h
      rw [place]
      split
      · rename_i heq
        exact List.nodup_cons.mpr ⟨heq ▸ hq.1, hq.2⟩
      · rename_i hne
        refine List.nodup_cons.mpr ⟨fun hm => ?_, ih hq.2⟩
        rcases (mem_titles_place p qs q.title).mp hm with hm | hm
        · exact hne hm
        · exact hq.1 hm

/-- Adds the passage of a record. -/
def insert (s : Store) (record : Record) : Store :=
  { s with
    passages := place (Passage.ofRecord record) s.passages
    titles_nodup := place_nodup _ _ s.titles_nodup }

/-- The store of a list of records. -/
def ofRecords (records : List Record) : Store := records.foldl insert {}

/-- The store with another text for titles that it does not hold. -/
def withMissingText (s : Store) (text : String) : Store := { s with missingText := text }

/-! ### Look up -/

/-- The passage of a title. -/
def find? (s : Store) (title : String) : Option Passage := s.passages.find? (·.title == title)

/-- Whether there is a passage of a title. -/
def has (s : Store) (title : String) : Bool := (s.find? title).isSome

/-- The passage of a title, or the stand-in for it. -/
def get (s : Store) (title : String) : Passage :=
  (s.find? title).getD (Passage.missing title s.missingText)

/-- The first passage with an id. -/
def findId? (s : Store) (id : UInt32) : Option Passage := s.passages.find? (·.id == some id)

/-! ### Changing texts -/

/-- The store with every passage changed, its title apart. -/
def mapPassages (s : Store) (f : Passage → Passage) (h : ∀ p, (f p).title = p.title) : Store :=
  { s with
    passages := s.passages.map f
    titles_nodup := by
      have ht : (s.passages.map f).map Passage.title = s.passages.map Passage.title := by
        simp [h]
      exact ht ▸ s.titles_nodup }

/-- Changes the text of the passage of a title. -/
def setText (s : Store) (title text : String) : Store :=
  s.mapPassages (fun p => if p.title = title then p.setText text else p) fun p => by
    split <;> rfl

/-- Gives every passage the text that was loaded. -/
def resetAll (s : Store) : Store := s.mapPassages Passage.reset fun _ => rfl

/-! ### Selections -/

/-- What passages are selected by. -/
inductive Field where
  | tags
  | title
  deriving DecidableEq, Repr

/-- What passages are ordered by. -/
inductive SortKey where
  | title
  | id
  deriving DecidableEq, Repr

/-- Whether a passage is selected by a value of a field. -/
def Field.selects (field : Field) (value : String) (p : Passage) : Bool :=
  match field with
  | tags => p.hasTag value
  | title => p.title == value

/-- Whether a passage may stand before another in ascending order. -/
def SortKey.le (key : SortKey) (p q : Passage) : Bool :=
  match key with
  | title => p.title ≤ q.title
  | id => p.id.all fun i => q.id.any fun j => i ≤ j

/-- The passages that a value of a field selects, in ascending or descending order.  Passages that
the order does not tell apart stay in the order of the store. -/
def select (s : Store) (field : Field) (value : String) (key : SortKey) (ascending : Bool) :
    List Passage :=
  (s.passages.filter (field.selects value)).mergeSort fun p q =>
    if ascending then key.le p q else key.le q p

end Store

end Gamebook
