/-
**Tokens read back.**

The token of a list of ids is read as that very list.  So different lists have different tokens,
and the only token that carries no reading is the one of no ids at all.

Main results:

* `Trail.value?_digits` — the digits of a number have its value;
* `Trail.segments_join` — segments without points are found again between points;
* `Trail.decode_encode` — **a token reads back**, and so `Trail.encode_injective`;
* `Trail.eq_marker_of_decode_nil` — only the bare marker stands for no ids;
* `Trail.isEmptyAddress_encode` — a token of ids is not an empty address.
-/

import Gamebook.Navigator
import Gamebook.Trail

set_option relaxedAutoImplicit false
set_option autoImplicit false

namespace Gamebook

namespace Trail

/-! ### Digits -/

theorem digitValue?_digit {n : Nat} (h : n < 36) : digitValue? (digit n) = some n := by
  have hall : ∀ m : Fin 36, digitValue? (digit m.val) = some m.val := by decide
  exact hall ⟨n, h⟩

theorem digit_ne_point {n : Nat} (h : n < 36) : digit n ≠ '.' := by
  have hall : ∀ m : Fin 36, digit m.val ≠ '.' := by decide
  exact hall ⟨n, h⟩

theorem digits_of_lt {n : Nat} (h : n < 36) : digits n = [digit n] := by
  rw [digits, if_pos h]

theorem digits_of_ge {n : Nat} (h : ¬n < 36) : digits n = digits (n / 36) ++ [digit (n % 36)] := by
  rw [digits, if_neg h]

theorem digits_ne_nil (n : Nat) : digits n ≠ [] := by
  by_cases h : n < 36
  · simp [digits_of_lt h]
  · simp [digits_of_ge h]

theorem point_notMem_digits (n : Nat) : '.' ∉ digits n := by
  induction n using digits.induct with
  | case1 n h =>
      rw [digits_of_lt h]
      simpa using (digit_ne_point h).symm
  | case2 n h ih =>
      rw [digits_of_ge h]
      have hlow : digit (n % 36) ≠ '.' := digit_ne_point (Nat.mod_lt n (by omega))
      simp [ih, hlow.symm]

/-- A row of digits is read from the left. -/
theorem valueFrom?_append (high : Nat) (xs ys : List Char) :
    valueFrom? high (xs ++ ys) = (valueFrom? high xs).bind fun m => valueFrom? m ys := by
  induction xs generalizing high with
  | nil => rfl
  | cons c xs ih =>
      simp only [List.cons_append, valueFrom?]
      cases digitValue? c with
      | none => rfl
      | some d => exact ih (36 * high + d)

/-- The digits of a number have its value. -/
theorem value?_digits (n : Nat) : value? (digits n) = some n := by
  induction n using digits.induct with
  | case1 n h =>
      rw [digits_of_lt h]
      simp [value?, valueFrom?, digitValue?_digit h]
  | case2 n h ih =>
      have hlow : digitValue? (digit (n % 36)) = some (n % 36) :=
        digitValue?_digit (Nat.mod_lt n (by omega))
      rw [value?] at ih
      rw [digits_of_ge h, value?, valueFrom?_append, ih]
      simp only [Option.bind_some, valueFrom?, hlow]
      congr 1
      omega

/-! ### Segments -/

theorem segments_ne_nil (text : List Char) : segments text ≠ [] := by
  cases text with
  | nil => simp [segments]
  | cons c cs =>
      rw [segments]
      split
      · simp
      · split <;> simp

/-- A segment in front of other text ends at the first point. -/
theorem segments_append_point (segment rest : List Char) (h : '.' ∉ segment) :
    segments (segment ++ '.' :: rest) = segment :: segments rest := by
  induction segment with
  | nil => simp [segments]
  | cons c cs ih =>
      have hc : c ≠ '.' := fun hc => h (hc ▸ List.mem_cons_self)
      have hcs : '.' ∉ cs := fun hm => h (List.mem_cons_of_mem _ hm)
      rw [List.cons_append, segments, if_neg hc, ih hcs]

theorem segments_of_notMem (segment : List Char) (h : '.' ∉ segment) :
    segments segment = [segment] := by
  induction segment with
  | nil => rfl
  | cons c cs ih =>
      have hc : c ≠ '.' := fun hc => h (hc ▸ List.mem_cons_self)
      have hcs : '.' ∉ cs := fun hm => h (List.mem_cons_of_mem _ hm)
      rw [segments, if_neg hc, ih hcs]

/-- Segments without points are found again. -/
theorem segments_join (parts : List (List Char)) (hne : parts ≠ [])
    (h : ∀ part ∈ parts, '.' ∉ part) : segments (join parts) = parts := by
  induction parts with
  | nil => exact absurd rfl hne
  | cons part parts ih =>
      have hpart : '.' ∉ part := h part List.mem_cons_self
      cases parts with
      | nil => rw [join, segments_of_notMem part hpart]
      | cons next parts =>
          rw [join, segments_append_point part _ hpart, ih (by simp)
            fun p hp => h p (List.mem_cons_of_mem _ hp)]
          simp

theorem join_eq_nil {parts : List (List Char)} (h : ∀ part ∈ parts, part ≠ [])
    (hj : join parts = []) : parts = [] := by
  cases parts with
  | nil => rfl
  | cons part parts =>
      cases parts with
      | nil => exact absurd hj (h part List.mem_cons_self)
      | cons next parts => simp [join] at hj

/-! ### Tokens -/

theorem decodeSegment_digits (position : Nat) (id : UInt32) :
    decodeSegment position (digits id.toNat) = .ok id := by
  have hlt : id.toNat < UInt32.size := id.toNat_lt
  rw [decodeSegment, if_neg (digits_ne_nil _), value?_digits]
  simp only [if_pos hlt, UInt32.ofNat_toNat]

theorem decodeSegments_map_digits (position : Nat) (ids : List UInt32) :
    decodeSegments position (ids.map fun id => digits id.toNat) = .ok ids := by
  induction ids generalizing position with
  | nil => rfl
  | cons id ids ih =>
      simp only [List.map_cons, decodeSegments, decodeSegment_digits, ih]

theorem toList_encode (ids : List UInt32) :
    (encode ids).toList = '#' :: join (ids.map fun id => digits id.toNat) := by
  rw [encode, String.toList_ofList]

theorem join_digits_eq_nil {ids : List UInt32}
    (h : join (ids.map fun id => digits id.toNat) = []) : ids = [] := by
  have hparts : ids.map (fun id => digits id.toNat) = [] := by
    refine join_eq_nil ?_ h
    intro part hpart
    obtain ⟨id, -, rfl⟩ := List.mem_map.1 hpart
    exact digits_ne_nil _
  exact List.map_eq_nil_iff.1 hparts

/-- **A token reads back.** -/
theorem decode_encode (ids : List UInt32) : decode (encode ids) = .ok ids := by
  rw [decode, toList_encode]
  cases hbody : join (ids.map fun id => digits id.toNat) with
  | nil =>
      rw [join_digits_eq_nil hbody]
      rfl
  | cons c cs =>
      have hne : ids ≠ [] := by
        rintro rfl
        simp [join] at hbody
      have hparts : segments (c :: cs) = ids.map fun id => digits id.toNat := by
        rw [← hbody]
        refine segments_join _ (by simpa using hne) ?_
        intro part hpart
        obtain ⟨id, -, rfl⟩ := List.mem_map.1 hpart
        exact point_notMem_digits _
      simp only [hparts]
      exact decodeSegments_map_digits 0 ids

/-- Different lists of ids have different tokens. -/
theorem encode_injective {ids ids' : List UInt32} (h : encode ids = encode ids') : ids = ids' := by
  have hok : Except.ok (ε := TrailError) ids = Except.ok ids' := by
    rw [← decode_encode ids, ← decode_encode ids', h]
  exact Except.ok.inj hok

theorem encode_nil : encode [] = "#" := by decide

/-- The text of a token is not empty. -/
theorem encode_ne_empty (ids : List UInt32) : encode ids ≠ "" := by
  intro h
  have hlist := congrArg String.toList h
  rw [toList_encode] at hlist
  simp at hlist

/-- A token of ids is not an empty address. -/
theorem isEmptyAddress_encode {ids : List UInt32} (h : ids ≠ []) :
    isEmptyAddress (encode ids) = false := by
  have hmarker : encode ids ≠ "#" := fun he => h (encode_injective (he.trans encode_nil.symm))
  simp [isEmptyAddress, encode_ne_empty, hmarker]

theorem isEmptyAddress_iff (address : String) :
    isEmptyAddress address = true ↔ address = "" ∨ address = "#" := by
  simp [isEmptyAddress]

theorem decodeSegments_eq_nil {position : Nat} {parts : List (List Char)}
    (h : decodeSegments position parts = .ok []) : parts = [] := by
  cases parts with
  | nil => rfl
  | cons part parts =>
      rw [decodeSegments] at h
      split at h
      · cases h
      · split at h
        · cases h
        · cases h

/-- Only the bare marker stands for no ids. -/
theorem eq_marker_of_decode_nil {token : String} (h : decode token = .ok []) : token = "#" := by
  rw [decode] at h
  split at h
  · rename_i hl
    rw [← String.ofList_toList (s := token), hl]
  · exact absurd (decodeSegments_eq_nil h) (segments_ne_nil _)
  · cases h

end Trail

end Gamebook
