/-
**The tokens of a history.**

Apart from its variables a history only grows: what was shown stays where it is.  The oldest entry
shows no passage, and the token of every later one stands for the ids up to it; an entry for a
missing passage takes a place in the history, but none in a token.  So every token of a history
stands for a beginning of its ids.

Main definitions:

* `Entry.bare`, `History.outline` — entries without their variables;
* `History.Sound` — tokens stand for the ids up to their entries.

Main results:

* `History.outline_push`, `History.outline_withVariables` — what the operations do to the outline;
* `History.Sound.push`, `History.Sound.withVariables` — **the operations keep a history sound**;
* `History.Sound.decode_token` — **every token of a sound history decodes to a beginning of its
  ids**.
-/

import Gamebook.History
import Gamebook.Proofs.Trail.RoundTrip

set_option relaxedAutoImplicit false
set_option autoImplicit false

namespace Gamebook

/-- The entry without its variables. -/
def Entry.bare (e : Entry) : Entry := { e with vars := {} }

namespace History

variable {h h' : History} {p : Passage} {e : Entry}

/-! ### Entries without their variables -/

/-- The entries without their variables, oldest first. -/
def outline (h : History) : List Entry := h.oldestFirst.map Entry.bare

theorem oldestFirst_eq (h : History) : h.oldestFirst = h.earlier.reverse ++ [h.current] := by
  simp [oldestFirst, entries]

theorem oldestFirst_push (h : History) (p : Passage) :
    (h.push p).oldestFirst = h.oldestFirst ++ [(h.push p).current] := by
  simp [oldestFirst, entries_push]

/-- The entry of a passage, without variables, behind some ids. -/
def entryOf (ids : List UInt32) (p : Passage) : Entry :=
  { title := some p.title, id := p.id, vars := {}, token := Trail.encode (ids ++ p.id.toList) }

theorem outline_push (h : History) (p : Passage) :
    (h.push p).outline = h.outline ++ [entryOf h.ids p] := by
  rw [outline, oldestFirst_push, List.map_append]
  rfl

@[simp] theorem outline_withVariables (h : History) (vars : Variables) :
    (h.withVariables vars).outline = h.outline := by
  rw [outline, outline, oldestFirst_eq, oldestFirst_eq, List.map_append, List.map_append]
  rfl

theorem ids_eq_outline (h : History) : h.ids = h.outline.filterMap Entry.id := by
  rw [outline, List.filterMap_map]
  rfl

@[simp] theorem ids_click (h : History) (title : String) : (h.click title).ids = h.ids :=
  ids_withVariables h _

@[simp] theorem outline_click (h : History) (title : String) :
    (h.click title).outline = h.outline := outline_withVariables h _

theorem getElem?_outline (h : History) (i : Nat) :
    h.outline[i]? = h.oldestFirst[i]?.map Entry.bare := List.getElem?_map

/-- A passage read leaves the oldest entry alone. -/
theorem head?_push (h : History) (p : Passage) (vars : Variables) :
    ((h.push p).withVariables vars).oldestFirst.head? = h.oldestFirst.head? := by
  have hearlier : ((h.push p).withVariables vars).earlier.reverse = h.oldestFirst := rfl
  rw [oldestFirst_eq, hearlier, List.head?_append]
  cases hold : h.oldestFirst.head? with
  | none => simp [oldestFirst_eq] at hold
  | some e => rfl

/-- So do other variables, once there are later entries. -/
theorem head?_withVariables (hne : h.earlier ≠ []) (vars : Variables) :
    (h.withVariables vars).oldestFirst.head? = h.oldestFirst.head? := by
  have hearlier : (h.withVariables vars).earlier = h.earlier := rfl
  rw [oldestFirst_eq, oldestFirst_eq, hearlier, List.head?_append, List.head?_append]
  cases hold : h.earlier.reverse.head? with
  | none => simp [hne] at hold
  | some e => rfl

/-! ### Sound histories -/

/-- The oldest entry shows no passage; every later one does, and its token stands for the ids up to
it. -/
structure Sound (h : History) : Prop where
  oldest : ∃ vars, h.oldestFirst.head? = some (Entry.opening vars)
  later : ∀ i e, h.oldestFirst[i + 1]? = some e →
    e.isOpening = false ∧ e.token = Trail.encode ((h.oldestFirst.take (i + 2)).filterMap Entry.id)

theorem start_sound (vars : Variables) : (start vars).Sound where
  oldest := ⟨vars, rfl⟩
  later i e he := by simp [start, oldestFirst, entries] at he

theorem filterMap_take_outline (h : History) (n : Nat) :
    (h.oldestFirst.take n).filterMap Entry.id = (h.outline.take n).filterMap Entry.id := by
  rw [outline, ← List.map_take, List.filterMap_map]
  rfl

/-- Whether a history is sound does not depend on its variables. -/
theorem Sound.of_outline (hs : h.Sound) (ho : h'.outline = h.outline) : h'.Sound := by
  have hget : ∀ i : Nat, h'.oldestFirst[i]?.map Entry.bare = h.oldestFirst[i]?.map Entry.bare := by
    intro i
    rw [← getElem?_outline, ← getElem?_outline, ho]
  refine ⟨?_, fun i e he => ?_⟩
  · obtain ⟨vars, hold⟩ := hs.oldest
    have h₀ := hget 0
    rw [← List.head?_eq_getElem?, ← List.head?_eq_getElem?, hold] at h₀
    obtain ⟨e, he, hbare⟩ := Option.map_eq_some_iff.1 h₀
    obtain ⟨title, id, vars', token⟩ := e
    cases hbare
    exact ⟨vars', he⟩
  · have hi := hget (i + 1)
    rw [he] at hi
    obtain ⟨e₀, he₀, hbare⟩ := Option.map_eq_some_iff.1 hi.symm
    obtain ⟨hopening, htoken⟩ := hs.later i e₀ he₀
    have htitle : e.bare.title = e₀.bare.title := by rw [hbare]
    have htoken' : e.bare.token = e₀.bare.token := by rw [hbare]
    change e.title = e₀.title at htitle
    change e.token = e₀.token at htoken'
    rw [filterMap_take_outline, ho, ← filterMap_take_outline, htoken', Entry.isOpening, htitle]
    exact ⟨hopening, htoken⟩

theorem Sound.withVariables (hs : h.Sound) (vars : Variables) : (h.withVariables vars).Sound :=
  hs.of_outline (outline_withVariables h vars)

theorem Sound.click (hs : h.Sound) (title : String) : (h.click title).Sound :=
  hs.withVariables _

/-- **A passage read keeps a history sound**, whether the story has it or not. -/
theorem Sound.push (hs : h.Sound) (p : Passage) : (h.push p).Sound := by
  refine ⟨?_, fun i e he => ?_⟩
  · obtain ⟨vars, hold⟩ := hs.oldest
    refine ⟨vars, ?_⟩
    rw [oldestFirst_push, List.head?_append, hold]
    rfl
  · rw [oldestFirst_push] at he ⊢
    by_cases hi : i + 1 < h.oldestFirst.length
    · rw [List.getElem?_append_left hi] at he
      rw [List.take_append_of_le_length (by omega)]
      exact hs.later i e he
    · have hlen := List.getElem?_eq_some_iff.1 he
      obtain ⟨hlt, hget⟩ := hlen
      rw [List.length_append, List.length_singleton] at hlt
      have hlast : i + 1 = h.oldestFirst.length := by omega
      rw [List.getElem?_append_right (by omega), hlast, Nat.sub_self] at he
      cases he
      refine ⟨rfl, ?_⟩
      rw [token_push, token, ids, oldestFirst_push, List.take_of_length_le]
      simp [hlast]

/-- The first entries have the first ids. -/
theorem filterMap_take (entries : List Entry) (n : Nat) :
    (entries.take n).filterMap Entry.id <+: entries.filterMap Entry.id := by
  have htake := List.take_prefix n entries
  exact htake.filterMap _

/-- The token of an entry that shows a passage stands for the ids up to it: those before, and its
own. -/
theorem Sound.token_of_mem (hs : h.Sound) (he : e ∈ h.oldestFirst) (ht : e.isOpening = false) :
    ∃ before, e.token = Trail.encode (before ++ e.id.toList) ∧ before ++ e.id.toList <+: h.ids := by
  obtain ⟨i, hi⟩ := List.mem_iff_getElem?.1 he
  cases i with
  | zero =>
      -- the oldest entry shows no passage
      obtain ⟨vars, hold⟩ := hs.oldest
      rw [← List.head?_eq_getElem?, hold] at hi
      cases hi
      simp [Entry.isOpening, Entry.opening] at ht
  | succ i =>
      obtain ⟨-, htoken⟩ := hs.later i e hi
      have hids : (h.oldestFirst.take (i + 2)).filterMap Entry.id =
          (h.oldestFirst.take (i + 1)).filterMap Entry.id ++ e.id.toList := by
        rw [List.take_add_one, hi, List.filterMap_append]
        cases hid : e.id <;> simp [hid]
      refine ⟨_, htoken.trans (congrArg Trail.encode hids), ?_⟩
      rw [← hids]
      exact filterMap_take _ _

/-- **Every token of a sound history decodes to a beginning of its ids.** -/
theorem Sound.decode_token (hs : h.Sound) (he : e ∈ h.oldestFirst) (ht : e.isOpening = false) :
    ∃ ids, Trail.decode e.token = .ok ids ∧ ids <+: h.ids := by
  obtain ⟨before, htoken, hbegin⟩ := hs.token_of_mem he ht
  refine ⟨before ++ e.id.toList, ?_, hbegin⟩
  rw [htoken, Trail.decode_encode]

/-- **The token of an entry before the current one stands for fewer ids**, if the current passage
has an id. -/
theorem Sound.token_of_earlier (hs : h.Sound) (he : e ∈ h.earlier) (ht : e.isOpening = false)
    (hid : h.current.id.isSome) :
    ∃ ids, e.token = Trail.encode ids ∧ ids <+: h.ids ∧ ids.length < h.ids.length ∧
      ∀ id, e.id = some id → id ∈ ids := by
  obtain ⟨i, hi⟩ := List.mem_iff_getElem?.1 (List.mem_reverse.2 he)
  have hlt := (List.getElem?_eq_some_iff.1 hi).1
  have hget : h.oldestFirst[i]? = some e := by
    rw [oldestFirst_eq, List.getElem?_append_left hlt, hi]
  cases i with
  | zero =>
      obtain ⟨vars, hold⟩ := hs.oldest
      rw [← List.head?_eq_getElem?, hold] at hget
      cases hget
      simp [Entry.isOpening, Entry.opening] at ht
  | succ i =>
      obtain ⟨-, htoken⟩ := hs.later i e hget
      refine ⟨_, htoken, filterMap_take _ _, ?_, fun id hid' => ?_⟩
      · -- the current passage comes behind all that the token stands for
        obtain ⟨id, hid⟩ := Option.isSome_iff_exists.1 hid
        have htake : h.oldestFirst.take (i + 2) = h.earlier.reverse.take (i + 2) := by
          rw [oldestFirst_eq, List.take_append_of_le_length (by omega)]
        have hids : h.ids = h.earlier.reverse.filterMap Entry.id ++ [id] := by
          rw [ids, oldestFirst_eq, List.filterMap_append]
          simp [hid]
        have hle := (filterMap_take h.earlier.reverse (i + 2)).length_le
        rw [htake, hids, List.length_append, List.length_singleton]
        omega
      · refine List.mem_filterMap.2 ⟨e, ?_, hid'⟩
        exact List.mem_iff_getElem?.2 ⟨i + 1, by rw [List.getElem?_take_of_lt (by omega), hget]⟩

end History

end Gamebook
