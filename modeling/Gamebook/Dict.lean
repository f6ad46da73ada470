/-
**Dictionaries in the order of their keys.**

A dictionary maps strings to values and lists its entries in ascending order of the keys, code
point by code point.  The order is part of the type, so two dictionaries that answer every
question alike are equal.

Main definitions:

* `Dict` — a list of entries whose keys ascend;
* `Dict.get?`, `Dict.insert`, `Dict.erase`, `Dict.filter` — the operations.

Main results:

* `Dict.get?_insert`, `Dict.get?_erase`, `Dict.get?_filter` — what each operation does to a look
  up;
* `Dict.ext_get?` — **dictionaries with the same look up are equal**.
-/

set_option relaxedAutoImplicit false
set_option autoImplicit false

namespace Gamebook

/-- A map from strings, its entries in ascending order of the keys. -/
structure Dict (α : Type) where
  entries : List (String × α)
  ascending : entries.Pairwise fun a b => a.1 < b.1 := by simp
  deriving DecidableEq

namespace Dict

variable {α : Type}

/-! ### Entries in ascending order -/

/-- Puts an entry in its place, instead of one with the same key. -/
def place (key : String) (value : α) : List (String × α) → List (String × α)
  | [] => [(key, value)]
  | entry :: entries =>
      -- the first greater key marks the place
      if key < entry.1 then (key, value) :: entry :: entries
      else if key = entry.1 then (key, value) :: entries
      else entry :: place key value entries

theorem mem_place (key : String) (value : α) (entries : List (String × α)) (e : String × α)
    (h : e ∈ place key value entries) : e = (key, value) ∨ e ∈ entries := by
  induction entries with
  | nil => simpa [place] using h
  | cons entry entries ih =>
      rw [place] at h
      split at h
      · simpa using h
      · split at h
        · rcases List.mem_cons.mp h with h | h
          · exact Or.inl h
          · exact Or.inr (List.mem_cons_of_mem _ h)
        · rcases List.mem_cons.mp h with h | h
          · exact Or.inr (h ▸ List.mem_cons_self)
          · exact (ih h).imp id (List.mem_cons_of_mem _)

theorem place_ascending (key : String) (value : α) (entries : List (String × α))
    (h : entries.Pairwise fun a b => a.1 < b.1) :
    (place key value entries).Pairwise fun a b => a.1 < b.1 := by
  induction entries with
  | nil => simp [place]
  | cons entry entries ih =>
      have hp := List.pairwise_cons.mp h
      rw [place]
      split
      · rename_i hlt
        refine List.pairwise_cons.mpr ⟨fun e he => ?_, h⟩
        rcases List.mem_cons.mp he with rfl | he
        · exact hlt
        · exact String.lt_trans hlt (hp.1 e he)
      · split
        · rename_i heq
          exact List.pairwise_cons.mpr ⟨fun e he => heq ▸ hp.1 e he, hp.2⟩
        · rename_i hlt hne
          refine List.pairwise_cons.mpr ⟨fun e he => ?_, ih hp.2⟩
          rcases mem_place key value entries e he with rfl | he
          · show entry.1 < key
            grind
          · exact hp.1 e he

/-! ### Operations -/

/-- The dictionary without entries. -/
def empty : Dict α := ⟨[], by simp⟩

instance : Inhabited (Dict α) := ⟨empty⟩

/-- The value that a list of entries has under `key`. -/
def look (key : String) : List (String × α) → Option α
  | [] => none
  | entry :: entries => if key = entry.1 then some entry.2 else look key entries

/-- The value under `key`. -/
def get? (d : Dict α) (key : String) : Option α := look key d.entries

/-- Whether `key` has a value. -/
def contains (d : Dict α) (key : String) : Bool := (d.get? key).isSome

/-- `d` with `value` under `key`. -/
def insert (d : Dict α) (key : String) (value : α) : Dict α :=
  ⟨place key value d.entries, place_ascending key value d.entries d.ascending⟩

/-- The entries that pass the test. -/
def filter (d : Dict α) (keep : String → α → Bool) : Dict α :=
  ⟨d.entries.filter fun e => keep e.1 e.2, d.ascending.filter _⟩

/-- `d` without `key`. -/
def erase (d : Dict α) (key : String) : Dict α := d.filter fun k _ => k != key

/-- The number of entries. -/
def size (d : Dict α) : Nat := d.entries.length

/-- Whether there are no entries. -/
def isEmpty (d : Dict α) : Bool := d.entries.isEmpty

/-- The keys, in ascending order. -/
def keys (d : Dict α) : List String := d.entries.map Prod.fst

/-- The dictionary of a list of entries; of two with one key the later counts. -/
def ofList (entries : List (String × α)) : Dict α :=
  entries.foldl (fun d e => d.insert e.1 e.2) empty

/-! ### Look up -/

@[simp] theorem get?_empty (key : String) : (empty : Dict α).get? key = none := rfl

theorem look_place (key other : String) (value : α) (entries : List (String × α)) :
    look other (place key value entries) =
      if other = key then some value else look other entries := by
  induction entries with
  | nil => simp [place, look]
  | cons entry entries ih => grind [place, look]

/-- After an insertion the new value is found under its key, and all else as before. -/
theorem get?_insert (d : Dict α) (key other : String) (value : α) :
    (d.insert key value).get? other = if other = key then some value else d.get? other :=
  look_place key other value d.entries

@[simp] theorem get?_insert_self (d : Dict α) (key : String) (value : α) :
    (d.insert key value).get? key = some value := by simp [get?_insert]

theorem get?_eq_some_iff (d : Dict α) (key : String) (value : α) :
    d.get? key = some value ↔ (key, value) ∈ d.entries := by
  obtain ⟨entries, h⟩ := d
  simp only [get?]
  induction entries with
  | nil => simp [look]
  | cons entry entries ih =>
      have hp := List.pairwise_cons.mp h
      obtain ⟨first, held⟩ := entry
      by_cases hk : key = first
      · subst hk
        have hn : (key, value) ∉ entries := fun hm => String.lt_irrefl key (hp.1 _ hm)
        simp [look, hn, eq_comm]
      · simp [look, hk, ih hp.2]

/-- A look up in a filtered dictionary. -/
theorem get?_filter (d : Dict α) (keep : String → α → Bool) (key : String) :
    (d.filter keep).get? key = (d.get? key).filter (keep key) := by
  ext value
  rw [Option.filter_eq_some_iff, get?_eq_some_iff, get?_eq_some_iff, filter, List.mem_filter]

/-- A look up after an entry is taken away. -/
theorem get?_erase (d : Dict α) (key other : String) :
    (d.erase key).get? other = if other = key then none else d.get? other := by
  rw [erase, get?_filter]
  by_cases h : other = key
  · subst h
    cases d.get? other <;> simp
  · cases d.get? other <;> simp [h]

/-! ### Extensionality -/

theorem eq_of_mem_iff (l₁ l₂ : List (String × α))
    (h₁ : l₁.Pairwise fun a b => a.1 < b.1) (h₂ : l₂.Pairwise fun a b => a.1 < b.1)
    (h : ∀ e, e ∈ l₁ ↔ e ∈ l₂) : l₁ = l₂ := by
  induction l₁ generalizing l₂ with
  | nil =>
      cases l₂ with
      | nil => rfl
      | cons e l₂ => simpa using (h e).mpr List.mem_cons_self
  | cons a l₁ ih =>
      cases l₂ with
      | nil => simpa using (h a).mp List.mem_cons_self
      | cons b l₂ =>
          have hp := List.pairwise_cons.mp h₁
          have hq := List.pairwise_cons.mp h₂
          have hab : a = b := by
            rcases List.mem_cons.mp ((h a).mp List.mem_cons_self) with hab | ha
            · exact hab
            · rcases List.mem_cons.mp ((h b).mpr List.mem_cons_self) with hba | hb
              · exact hba.symm
              · exact absurd (hp.1 _ hb) (String.lt_asymm (hq.1 _ ha))
          subst hab
          congr 1
          refine ih l₂ hp.2 hq.2 fun e => ⟨fun he => ?_, fun he => ?_⟩
          · rcases List.mem_cons.mp ((h e).mp (List.mem_cons_of_mem _ he)) with rfl | hm
            · exact absurd (hp.1 _ he) (String.lt_irrefl _)
            · exact hm
          · rcases List.mem_cons.mp ((h e).mpr (List.mem_cons_of_mem _ he)) with rfl | hm
            · exact absurd (hq.1 _ he) (String.lt_irrefl _)
            · exact hm

/-- **Dictionaries with the same look up are equal.** -/
theorem ext_get? (d₁ d₂ : Dict α) (h : ∀ key, d₁.get? key = d₂.get? key) : d₁ = d₂ := by
  obtain ⟨l₁, h₁⟩ := d₁
  obtain ⟨l₂, h₂⟩ := d₂
  have hm : ∀ e, e ∈ l₁ ↔ e ∈ l₂ := fun e => by
    have := h e.1
    rw [← get?_eq_some_iff ⟨l₁, h₁⟩ e.1 e.2, ← get?_eq_some_iff ⟨l₂, h₂⟩ e.1 e.2, this]
  have := eq_of_mem_iff l₁ l₂ h₁ h₂ hm
  subst this
  rfl

end Dict

end Gamebook
