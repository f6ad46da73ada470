/-
**What rounds to a number.**

Around every double lies an interval of rationals that are nearer to it than to any other double.
Below it the interval reaches half a unit of its significand, or a quarter of one where the doubles
get closer, and above it half a unit; the ends belong to it if the significand is even.  Whatever
lies in the interval is rounded to the number.

Main definitions:

* `Number.Parts.value` — the magnitude as a rational;
* `Number.Parts.Around` — the interval of rationals around a magnitude.

Main results:

* `Number.exists_scale` — the unit in which a quotient is rounded;
* `Number.nearestBits_of_around` — **what lies around a number is rounded to it**.
-/

import Mathlib.Algebra.Order.Field.Power
import Mathlib.Algebra.Order.Field.Rat
import Mathlib.Tactic.FieldSimp
import Mathlib.Tactic.Linarith
import Mathlib.Tactic.Positivity
import Mathlib.Tactic.Ring
import Gamebook.Proofs.Number.Bits

set_option relaxedAutoImplicit false
set_option autoImplicit false

namespace Gamebook.Number

/-! ### Rounding to an integer -/

/-- What is within half a unit of an integer is rounded to it; at half a unit if it is even. -/
theorem halfEven_eq_of_nat {num den m : Nat} (hd : 0 < den) (hlow : 2 * (m * den) ≤ 2 * num + den)
    (hhigh : 2 * num ≤ 2 * (m * den) + den)
    (hodd : m % 2 = 1 → 2 * (m * den) < 2 * num + den ∧ 2 * num < 2 * (m * den) + den) :
    halfEven num den = m := by
  have hdiv := Nat.div_add_mod num den
  have hmod := Nat.mod_lt num hd
  rw [halfEven]
  generalize num / den = low at hdiv ⊢
  generalize num % den = r at hdiv hmod ⊢
  -- the integer is one of the two neighbours
  have hnear : m = low ∨ m = low + 1 := by
    have h₁ : low ≤ m := by
      by_contra hlt
      have : (m + 1) * den ≤ low * den := Nat.mul_le_mul_right _ (by omega)
      nlinarith
    have h₂ : m ≤ low + 1 := by
      by_contra hlt
      have : (low + 2) * den ≤ m * den := Nat.mul_le_mul_right _ (by omega)
      nlinarith
    omega
  have hmul : den * low = low * den := Nat.mul_comm _ _
  rcases hnear with rfl | rfl
  · split
    · rfl
    · split
      · omega
      · split
        · rfl
        · omega
  · have hsucc : (low + 1) * den = low * den + den := Nat.succ_mul _ _
    split
    · omega
    · split
      · rfl
      · split
        · omega
        · rfl

/-- A quotient within half a unit of an integer is rounded to it; at half a unit if it is even. -/
theorem halfEven_eq {num den m : Nat} (hd : 0 < den) (hlow : (m : ℚ) - 1 / 2 ≤ num / den)
    (hhigh : (num : ℚ) / den ≤ m + 1 / 2)
    (hodd : m % 2 = 1 → (m : ℚ) - 1 / 2 < num / den ∧ (num : ℚ) / den < m + 1 / 2) :
    halfEven num den = m := by
  have hd' : (0 : ℚ) < den := Nat.cast_pos.2 hd
  rw [le_div_iff₀ hd'] at hlow
  rw [div_le_iff₀ hd'] at hhigh
  have hlow' : (2 * (m * den) : ℚ) ≤ 2 * num + den := by linarith
  have hhigh' : (2 * num : ℚ) ≤ 2 * (m * den) + den := by linarith
  refine halfEven_eq_of_nat hd (by exact_mod_cast hlow') (by exact_mod_cast hhigh') fun hm => ?_
  obtain ⟨h₁, h₂⟩ := hodd hm
  rw [lt_div_iff₀ hd'] at h₁
  rw [div_lt_iff₀ hd'] at h₂
  have h₁' : (2 * (m * den) : ℚ) < 2 * num + den := by linarith
  have h₂' : (2 * num : ℚ) < 2 * (m * den) + den := by linarith
  exact ⟨by exact_mod_cast h₁', by exact_mod_cast h₂'⟩

/-! ### The unit -/

/-- A quotient in units of `2 ^ exponent`, as a quotient. -/
def scale (num den : Nat) (exponent : Int) : Nat × Nat :=
  if exponent < 0 then (num * 2 ^ exponent.natAbs, den) else (num, den * 2 ^ exponent.natAbs)

theorem scale_pos (num : Nat) {den : Nat} (hd : 0 < den) (exponent : Int) :
    0 < (scale num den exponent).2 := by
  rw [scale]
  split
  · exact hd
  · exact Nat.mul_pos hd (Nat.two_pow_pos _)

theorem scale_div (num den : Nat) (exponent : Int) :
    ((scale num den exponent).1 : ℚ) / (scale num den exponent).2 =
      num / den / 2 ^ exponent := by
  rw [scale]
  split
  · rename_i hneg
    obtain ⟨n, rfl⟩ : ∃ n : Nat, exponent = -n := ⟨exponent.natAbs, by omega⟩
    simp only [Int.natAbs_neg, Int.natAbs_natCast, zpow_neg, zpow_natCast]
    push_cast
    rw [div_inv_eq_mul]
    ring
  · rename_i hnonneg
    obtain ⟨n, rfl⟩ : ∃ n : Nat, exponent = n := ⟨exponent.natAbs, by omega⟩
    simp only [Int.natAbs_natCast, zpow_natCast]
    push_cast
    rw [div_div]

/-- The numerator has no more bits than its logarithm tells. -/
theorem log2_bounds {n : Nat} (hn : 0 < n) :
    (2 : ℚ) ^ (n.log2 : Int) ≤ n ∧ (n : ℚ) < 2 ^ ((n.log2 : Int) + 1) := by
  have hlow := Nat.log2_self_le (Nat.ne_of_gt hn)
  have hhigh := Nat.lt_log2_self (n := n)
  constructor
  · rw [zpow_natCast]
    exact_mod_cast hlow
  · rw [← Nat.cast_succ, zpow_natCast]
    exact_mod_cast hhigh

/-- The logarithms of both numbers tell a quotient up to a factor of four. -/
theorem log2_sub_bounds {num den : Nat} (hn : 0 < num) (hd : 0 < den) :
    (2 : ℚ) ^ ((num.log2 : Int) - den.log2 - 1) < num / den ∧
      (num : ℚ) / den < 2 ^ ((num.log2 : Int) - den.log2 + 1) := by
  have hd' : (0 : ℚ) < den := Nat.cast_pos.2 hd
  have htwo : (2 : ℚ) ≠ 0 := by norm_num
  obtain ⟨hn₁, hn₂⟩ := log2_bounds hn
  obtain ⟨hd₁, hd₂⟩ := log2_bounds hd
  constructor
  · rw [lt_div_iff₀ hd']
    calc (2 : ℚ) ^ ((num.log2 : Int) - den.log2 - 1) * den
        < 2 ^ ((num.log2 : Int) - den.log2 - 1) * 2 ^ ((den.log2 : Int) + 1) :=
          mul_lt_mul_of_pos_left hd₂ (zpow_pos (by norm_num) _)
      _ = 2 ^ (num.log2 : Int) := by rw [← zpow_add₀ htwo]; congr 1; ring
      _ ≤ num := hn₁
  · rw [div_lt_iff₀ hd']
    calc (num : ℚ) < 2 ^ ((num.log2 : Int) + 1) := hn₂
      _ = 2 ^ ((num.log2 : Int) - den.log2 + 1) * 2 ^ (den.log2 : Int) := by
          rw [← zpow_add₀ htwo]; congr 1; ring
      _ ≤ 2 ^ ((num.log2 : Int) - den.log2 + 1) * den :=
          mul_le_mul_of_nonneg_left hd₁ (zpow_nonneg (by norm_num) _)

/-- A quotient has at most 53 bits in a unit if it lies below `2 ^ 53` units. -/
theorem scale_lt_iff (num : Nat) {den : Nat} (hd : 0 < den) (exponent : Int) :
    (scale num den exponent).1 / (scale num den exponent).2 < 2 ^ 53 ↔
      (num : ℚ) / den < 2 ^ (exponent + 53) := by
  have hpos : (0 : ℚ) < (scale num den exponent).2 := Nat.cast_pos.2 (scale_pos num hd exponent)
  rw [Nat.div_lt_iff_lt_mul (scale_pos num hd exponent), ← Nat.cast_lt (α := ℚ)]
  push_cast
  rw [← div_lt_iff₀ hpos, scale_div, div_lt_iff₀ (zpow_pos (by norm_num) _),
    zpow_add₀ (by norm_num), mul_comm]
  norm_cast

/-- **The unit in which a quotient is rounded**: the quotient has 53 bits in it, or fewer if the
unit is the smallest one. -/
theorem exists_scale {num den : Nat} (hn : 0 < num) (hd : 0 < den) :
    ∃ exponent : Int, -1074 ≤ exponent ∧ (num : ℚ) / den < 2 ^ (exponent + 53) ∧
      (exponent = -1074 ∨ (2 : ℚ) ^ (exponent + 52) ≤ num / den) ∧
      nearestBits num den = min ((exponent + 1074).toNat * 2 ^ 52 +
        halfEven (scale num den exponent).1 (scale num den exponent).2) (2047 * 2 ^ 52) := by
  obtain ⟨hlow, hhigh⟩ := log2_sub_bounds hn hd
  generalize hguess : (num.log2 : Int) - den.log2 - 53 = guess
  rw [show (num.log2 : Int) - den.log2 - 1 = guess + 52 by omega] at hlow
  rw [show (num.log2 : Int) - den.log2 + 1 = guess + 54 by omega] at hhigh
  generalize hbase : max (-1074) guess = base
  have hbits : nearestBits num den =
      let exponent := if (scale num den base).1 / (scale num den base).2 < 2 ^ 53 then base
        else base + 1
      min ((exponent + 1074).toNat * 2 ^ 52 +
        halfEven (scale num den exponent).1 (scale num den exponent).2) (2047 * 2 ^ 52) := by
    rw [nearestBits, if_neg (by omega), ← hbase, ← hguess]
    rfl
  by_cases hfits : (num : ℚ) / den < 2 ^ (base + 53)
  · rw [if_pos ((scale_lt_iff num hd base).2 hfits)] at hbits
    refine ⟨base, by omega, hfits, ?_, hbits⟩
    rcases Int.le_total guess (-1074) with hle | hle
    · exact .inl (by omega)
    · have heq : base = guess := by omega
      exact .inr (heq ▸ hlow.le)
  · -- the guess was one too small
    rw [if_neg (fun h => hfits ((scale_lt_iff num hd base).1 h))] at hbits
    have hle : base ≤ guess := by
      by_contra hgt
      have hpow : (2 : ℚ) ^ (guess + 54) ≤ 2 ^ (base + 53) :=
        zpow_le_zpow_right₀ (by norm_num) (by omega)
      exact absurd (hhigh.trans_le hpow) hfits
    have heq : base = guess := by omega
    refine ⟨base + 1, by omega, ?_, .inr ?_, hbits⟩
    · rw [heq, show guess + 1 + 53 = guess + 54 by ring]
      exact hhigh
    · rw [show base + 1 + 52 = base + 53 by ring]
      exact not_lt.1 hfits

/-! ### The interval around a number -/

/-- The magnitude as a rational. -/
def Parts.value (p : Parts) : ℚ := p.significand * 2 ^ p.exponent

/-- How far the interval reaches down, in units of the significand: below a power of two the doubles
lie twice as close. -/
def Parts.gap (p : Parts) : ℚ :=
  if p.significand = 2 ^ 52 ∧ -1074 < p.exponent then 1 / 4 else 1 / 2

theorem Parts.gap_le (p : Parts) : p.gap ≤ 1 / 2 := by
  rw [gap]
  split <;> norm_num

theorem Parts.gap_pos (p : Parts) : 0 < p.gap := by
  rw [gap]
  split <;> norm_num

/-- A rational lies in the interval around a magnitude. -/
structure Parts.Around (p : Parts) (q : ℚ) : Prop where
  low : (p.significand - p.gap) * 2 ^ p.exponent ≤ q
  high : q ≤ (p.significand + 1 / 2) * 2 ^ p.exponent
  odd : p.significand % 2 = 1 →
    (p.significand - p.gap) * 2 ^ p.exponent < q ∧ q < (p.significand + 1 / 2) * 2 ^ p.exponent

/-- A number lies in the interval around it. -/
theorem Parts.around_value (p : Parts) : p.Around p.value := by
  have hpos : (0 : ℚ) < 2 ^ p.exponent := zpow_pos (by norm_num) _
  have hgap := p.gap_pos
  have hlow : (p.significand - p.gap) * 2 ^ p.exponent < p.value :=
    mul_lt_mul_of_pos_right (by linarith) hpos
  have hhigh : p.value < (p.significand + 1 / 2) * 2 ^ p.exponent :=
    mul_lt_mul_of_pos_right (by linarith) hpos
  exact ⟨hlow.le, hhigh.le, fun _ => ⟨hlow, hhigh⟩⟩

/-- The unit in which what lies around a number is rounded is that of the number; only below a power
of two it may be half of that. -/
theorem Parts.Around.unit {p : Parts} (hp : p.Sound) {q : ℚ} (h : p.Around q) {exponent : Int}
    (hleast : -1074 ≤ exponent) (hhigh : q < 2 ^ (exponent + 53))
    (hlow : exponent = -1074 ∨ (2 : ℚ) ^ (exponent + 52) ≤ q) :
    exponent = p.exponent ∨
      exponent = p.exponent - 1 ∧ p.significand = 2 ^ 52 ∧ -1074 < p.exponent := by
  have htwo : (2 : ℚ) ≠ 0 := by norm_num
  have hpos : (0 : ℚ) < 2 ^ p.exponent := zpow_pos (by norm_num) _
  have hmono : ∀ {a b : Int}, (2 : ℚ) ^ a < 2 ^ b → a < b :=
    fun hlt => (zpow_lt_zpow_iff_right₀ (by norm_num)).1 hlt
  have hshift : ∀ n : Nat, (2 : ℚ) ^ n * 2 ^ p.exponent = 2 ^ (p.exponent + n) := by
    intro n
    rw [← zpow_natCast, ← zpow_add₀ htwo, add_comm]
  rcases lt_trichotomy exponent p.exponent with hlt | heq | hgt
  · -- the quotient has one bit less than the number
    right
    have hdeep : -1074 < p.exponent := by omega
    have hnormal : 2 ^ 52 ≤ p.significand := hp.normal.resolve_right (by omega)
    have hsignificand : p.significand = 2 ^ 52 := by
      by_contra hne
      have hlarge : (2 ^ 52 + 1 : ℚ) ≤ p.significand := by
        exact_mod_cast (by omega : 2 ^ 52 + 1 ≤ p.significand)
      have hq : (2 : ℚ) ^ (p.exponent + 52) < 2 ^ (exponent + 53) := by
        refine lt_of_lt_of_le ?_ ((h.low.trans hhigh.le))
        rw [← Nat.cast_ofNat (n := 52), ← hshift]
        refine mul_lt_mul_of_pos_right ?_ hpos
        linarith [p.gap_le]
      have := hmono hq
      omega
    refine ⟨?_, hsignificand, hdeep⟩
    have hgap : p.gap = 1 / 4 := if_pos ⟨hsignificand, hdeep⟩
    have hq : (2 : ℚ) ^ (p.exponent + 51) < 2 ^ (exponent + 53) := by
      refine lt_of_lt_of_le ?_ (h.low.trans hhigh.le)
      rw [← Nat.cast_ofNat (n := 51), ← hshift]
      refine mul_lt_mul_of_pos_right ?_ hpos
      rw [hgap, hsignificand]
      norm_num
    have := hmono hq
    omega
  · exact .inl heq
  · exfalso
    have hq := hlow.resolve_left (by have := hp.least; omega)
    have hlarge : (p.significand : ℚ) + 1 ≤ 2 ^ 53 := by exact_mod_cast hp.significand
    have hup : (2 : ℚ) ^ (exponent + 52) < 2 ^ (p.exponent + 53) := by
      refine lt_of_le_of_lt (hq.trans h.high) ?_
      rw [← Nat.cast_ofNat (n := 53), ← hshift]
      refine mul_lt_mul_of_pos_right ?_ hpos
      linarith
    have := hmono hup
    omega

/-- What is within half a unit of some units is rounded to them. -/
theorem halfEven_scale_eq {num den m : Nat} (hd : 0 < den) {exponent : Int}
    (hlow : (m - 1 / 2) * (2 : ℚ) ^ exponent ≤ num / den)
    (hhigh : (num : ℚ) / den ≤ (m + 1 / 2) * 2 ^ exponent)
    (hodd : m % 2 = 1 → (m - 1 / 2) * (2 : ℚ) ^ exponent < num / den ∧
      (num : ℚ) / den < (m + 1 / 2) * 2 ^ exponent) :
    halfEven (scale num den exponent).1 (scale num den exponent).2 = m := by
  have hunit : (0 : ℚ) < 2 ^ exponent := zpow_pos (by norm_num) _
  refine halfEven_eq (scale_pos num hd exponent) ?_ ?_ fun hm => ⟨?_, ?_⟩
  · rw [scale_div, le_div_iff₀ hunit]
    exact hlow
  · rw [scale_div, div_le_iff₀ hunit]
    exact hhigh
  · rw [scale_div, lt_div_iff₀ hunit]
    exact (hodd hm).1
  · rw [scale_div, div_lt_iff₀ hunit]
    exact (hodd hm).2

/-- **What lies around a number is rounded to it.** -/
theorem nearestBits_of_around {p : Parts} (hp : p.Sound) {num den : Nat} (hn : 0 < num)
    (hd : 0 < den) (h : p.Around (num / den)) : nearestBits num den = p.bits := by
  have hpos : (0 : ℚ) < 2 ^ p.exponent := zpow_pos (by norm_num) _
  obtain ⟨exponent, hleast, hhigh, hlow, hbits⟩ := exists_scale hn hd
  have hunit := h.unit hp hleast hhigh hlow
  obtain ⟨hsleast, hsgreatest, hssignificand, -⟩ := hp
  rcases hunit with rfl | ⟨rfl, hsignificand, hdeep⟩
  · have hgap : (p.significand - 1 / 2 : ℚ) * 2 ^ p.exponent ≤
        (p.significand - p.gap) * 2 ^ p.exponent :=
      mul_le_mul_of_nonneg_right (by linarith [p.gap_le]) hpos.le
    rw [hbits, halfEven_scale_eq hd (hgap.trans h.low) h.high fun hodd =>
      ⟨hgap.trans_lt (h.odd hodd).1, (h.odd hodd).2⟩, Parts.bits]
    omega
  · -- just below a power of two the quotient is rounded up to it
    have hgap : p.gap = 1 / 4 := if_pos ⟨hsignificand, hdeep⟩
    have hdown := h.low
    rw [hgap, hsignificand] at hdown
    have htwo : (2 : ℚ) ≠ 0 := by norm_num
    have hhalf : (2 : ℚ) ^ (p.exponent - 1) = 2 ^ p.exponent / 2 := by
      rw [zpow_sub_one₀ htwo, div_eq_mul_inv]
    have hhalf' : (2 : ℚ) ^ (p.exponent - 1 + 53) = 2 ^ 53 * 2 ^ (p.exponent - 1) := by
      rw [zpow_add₀ htwo, mul_comm]
      norm_cast
    rw [hhalf', hhalf] at hhigh
    have hm : halfEven (scale num den (p.exponent - 1)).1 (scale num den (p.exponent - 1)).2 =
        2 ^ 53 := by
      refine halfEven_scale_eq hd ?_ ?_ fun hodd => absurd hodd (by norm_num)
      all_goals
        rw [hhalf]
        push_cast at hdown ⊢
        linarith
    rw [hbits, hm, Parts.bits, hsignificand]
    omega

end Gamebook.Number
