/-
**The shortest decimal lies around its number.**

The shortest decimal is looked for on grids of powers of ten, the coarsest first, in a unit in
which the number, the ends of the interval around it and all grids are integers.

Main definitions:

* `Number.decimal` — `digits * 10 ^ power` as a rational.

Main results:

* `Number.Parts.around_of_contains` — the interval of integers is the interval of rationals;
* `Number.Span.contains_search` — **what the search finds lies in the interval**;
* `Number.around_shortest` — the shortest decimal lies around its number.
-/

import Gamebook.Number.Shortest
import Gamebook.Proofs.Number.Rounding

set_option relaxedAutoImplicit false
set_option autoImplicit false

namespace Gamebook.Number

/-- `digits * 10 ^ power` as a rational. -/
def decimal (digits : Nat) (power : Int) : ℚ := digits * 10 ^ power

/-! ### The interval -/

/-- A quarter of the unit of the significand, in the unit of the interval. -/
theorem Parts.quarter_eq (p : Parts) :
    ((if p.exponent - 2 < 0 then Nat.pow 5 (p.exponent - 2).natAbs
      else Nat.pow 2 (p.exponent - 2).natAbs : Nat) : ℚ) * 10 ^ min (p.exponent - 2) 0 =
      2 ^ p.exponent / 4 := by
  have hquarter : (2 : ℚ) ^ p.exponent / 4 = 2 ^ (p.exponent - 2) := by
    rw [zpow_sub₀ (by norm_num)]
    norm_num
  rw [hquarter]
  generalize p.exponent - 2 = quarter
  split
  · rename_i hneg
    obtain ⟨n, rfl⟩ : ∃ n : Nat, quarter = -n := ⟨quarter.natAbs, by omega⟩
    rw [min_eq_left (by omega), Int.natAbs_neg, Int.natAbs_natCast, Nat.pow_eq]
    push_cast
    rw [zpow_neg, zpow_neg, zpow_natCast, zpow_natCast, show (10 : ℚ) = 5 * 2 by norm_num, mul_pow,
      mul_inv, ← mul_assoc, mul_inv_cancel₀ (by positivity), one_mul]
  · rename_i hnonneg
    obtain ⟨n, rfl⟩ : ∃ n : Nat, quarter = n := ⟨quarter.natAbs, by omega⟩
    rw [min_eq_right (by omega), Int.natAbs_natCast, Nat.pow_eq]
    push_cast
    rw [mul_one, zpow_natCast]

/-- How far the interval reaches down, in quarters of the unit of the significand. -/
theorem Parts.quarters_gap (p : Parts) :
    ((if p.significand = Nat.pow 2 52 ∧ p.exponent > -1074 then 1 else 2 : Nat) : ℚ) =
      4 * p.gap := by
  by_cases hedge : p.significand = 2 ^ 52 ∧ -1074 < p.exponent
  · have hedge' : p.significand = Nat.pow 2 52 ∧ p.exponent > -1074 := hedge
    rw [gap, if_pos hedge, if_pos hedge']
    norm_num
  · have hedge' : ¬ (p.significand = Nat.pow 2 52 ∧ p.exponent > -1074) := hedge
    rw [gap, if_neg hedge, if_neg hedge']
    norm_num

/-- The lower end of the interval. -/
theorem Parts.decimal_low {p : Parts} (hpos : 0 < p.significand) :
    decimal p.span.low p.span.unit = (p.significand - p.gap) * 2 ^ p.exponent := by
  have hquarter := p.quarter_eq
  have hgap := p.quarters_gap
  have hle : (if p.significand = Nat.pow 2 52 ∧ p.exponent > -1074 then 1 else 2) ≤
      4 * p.significand := by
    split <;> omega
  rw [decimal, span]
  push_cast [Nat.cast_sub hle]
  push_cast at hquarter hgap
  rw [mul_assoc, hquarter, hgap]
  ring

/-- The upper end of the interval. -/
theorem Parts.decimal_high (p : Parts) :
    decimal p.span.high p.span.unit = (p.significand + 1 / 2) * 2 ^ p.exponent := by
  have hquarter := p.quarter_eq
  rw [decimal, span]
  push_cast
  push_cast at hquarter
  rw [mul_assoc, hquarter]
  ring

theorem decimal_le {a b : Nat} (h : a ≤ b) (power : Int) : decimal a power ≤ decimal b power :=
  mul_le_mul_of_nonneg_right (by exact_mod_cast h) (zpow_nonneg (by norm_num) _)

theorem decimal_lt {a b : Nat} (h : a < b) (power : Int) : decimal a power < decimal b power :=
  mul_lt_mul_of_pos_right (by exact_mod_cast h) (zpow_pos (by norm_num) _)

/-- The interval of integers in the unit of a number is the interval around it. -/
theorem Parts.around_of_contains {p : Parts} (hpos : 0 < p.significand) {n : Nat}
    (h : p.span.contains n = true) : p.Around (decimal n p.span.unit) := by
  have hlow := Parts.decimal_low hpos
  have hhigh := p.decimal_high
  rw [Span.contains] at h
  split at h
  · rename_i hclosed
    simp only [Bool.and_eq_true, decide_eq_true_eq] at h
    refine ⟨hlow ▸ decimal_le h.1 _, hhigh ▸ decimal_le h.2 _, fun hodd => ?_⟩
    have heven : p.significand % 2 = 0 := by simpa [span] using hclosed
    omega
  · simp only [Bool.and_eq_true, decide_eq_true_eq] at h
    have habove := hlow ▸ decimal_lt h.1 p.span.unit
    have hbelow := hhigh ▸ decimal_lt h.2 p.span.unit
    exact ⟨habove.le, hbelow.le, fun _ => ⟨habove, hbelow⟩⟩

/-- The number lies in its interval. -/
theorem Parts.contains_value (p : Parts) (hpos : 0 < p.significand) :
    p.span.contains p.span.value = true := by
  have hfactor : 0 < if p.exponent - 2 < 0 then Nat.pow 5 (p.exponent - 2).natAbs
      else Nat.pow 2 (p.exponent - 2).natAbs := by
    split
    · exact Nat.pow_pos (by decide)
    · exact Nat.pow_pos (by decide)
  have hlow : p.span.low < p.span.value :=
    Nat.mul_lt_mul_of_pos_right (by split <;> omega) hfactor
  have hhigh : p.span.value < p.span.high := Nat.mul_lt_mul_of_pos_right (by omega) hfactor
  rw [Span.contains]
  split
  · simp only [Bool.and_eq_true, decide_eq_true_eq]
    omega
  · simp only [Bool.and_eq_true, decide_eq_true_eq]
    omega

/-! ### The search -/

namespace Span

variable {s : Span}

/-- A point that is picked lies in the interval. -/
theorem contains_pick? {grid digits : Nat} (h : s.pick? grid = some digits) :
    s.contains (digits * grid) = true := by
  unfold pick? at h
  dsimp only at h
  split at h
  · rename_i hbelow habove
    cases h
    split
    · exact hbelow
    · exact habove
  · rename_i hbelow habove
    cases h
    exact hbelow
  · rename_i hbelow habove
    cases h
    exact habove
  · cases h

/-- **What the search finds lies in the interval.** -/
theorem contains_search (h : s.contains s.value = true) (more : Nat) :
    ∃ grid : Nat, (s.search more).2 = s.unit + grid ∧
      s.contains ((s.search more).1 * 10 ^ grid) = true := by
  induction more with
  | zero => exact ⟨0, by simp [search], by simpa [search] using h⟩
  | succ more ih =>
      rw [search]
      split
      · rename_i digits hpick
        exact ⟨more + 1, rfl, contains_pick? hpick⟩
      · exact ih

end Span

/-- Zeros at the end of the digits may stand in the power. -/
theorem decimal_dropZeros (fuel digits : Nat) (power : Int) :
    decimal (dropZeros fuel digits power).1 (dropZeros fuel digits power).2 =
      decimal digits power := by
  induction fuel generalizing digits power with
  | zero => rfl
  | succ fuel ih =>
      rw [dropZeros]
      split
      · rename_i hzero
        rw [ih]
        have hdigits : digits = 10 * (digits / 10) := by omega
        generalize digits / 10 = tens at hdigits ⊢
        rw [hdigits, decimal, decimal, zpow_add_one₀ (by norm_num)]
        push_cast
        ring
      · rfl

/-- **The shortest decimal lies around its number.** -/
theorem around_shortest {p : Parts} (hpos : 0 < p.significand) :
    p.Around (decimal (shortest p).1 (shortest p).2) := by
  obtain ⟨grid, hpower, hcontains⟩ := Span.contains_search (p.contains_value hpos)
    ((Nat.toDigits 10 p.span.value).length - 1)
  have haround := Parts.around_of_contains hpos hcontains
  rw [shortest, decimal_dropZeros, hpower]
  have hvalue : ∀ digits : Nat, decimal digits (p.span.unit + grid) =
      decimal (digits * 10 ^ grid) p.span.unit := by
    intro digits
    rw [decimal, decimal, zpow_add₀ (by norm_num), zpow_natCast]
    push_cast
    ring
  rw [hvalue]
  exact haround

end Gamebook.Number
