/-
**The bits of a number.**

A number is its 64 bits: the sign, eleven bits of the exponent and fifty-two of the fraction, with
one pattern only for NaN.  Taking the bits apart and putting them together again gives the same
number, and negation turns the sign bit around.

Main results:

* `Number.eq_of_toBits` — a number is known by its bits;
* `Number.ofBits_toBits` — **the number of the bits of a number is that number**;
* `Number.toBits_neg` — **negation turns the sign bit around**;
* `Number.eq_of_parts?_none` — the numbers that are not finite.
-/

import Mathlib
import Gamebook.Number.Binary

set_option relaxedAutoImplicit false
set_option autoImplicit false

namespace Gamebook.Number

open Float.Model Float.Model.UnpackedFloat

/-- Sixty-four bits. -/
abbrev Word : Type := BitVec Format.binary64.numBits

/-! ### Taking bits apart -/

theorem toNat_mantissa (b : Word) : (unpackMantissa b).toNat = b.toNat % 2 ^ 52 := by
  simp [unpackMantissa]

theorem toNat_exponent (b : Word) : (unpackExponent b).toNat = b.toNat / 2 ^ 52 % 2 ^ 11 := by
  simp [unpackExponent, BitVec.extractLsb, Nat.shiftRight_eq_div_pow]

theorem toNat_sign (b : Word) : (unpackSign b).toNat = b.toNat / 2 ^ 63 := by
  have hlt : b.toNat < 2 ^ 64 := b.isLt
  simp [unpackSign, BitVec.extractLsb, Nat.shiftRight_eq_div_pow]
  omega

/-- The sign bit as a number. -/
def signBit : Sign → Nat
  | .negative => 1
  | .positive => 0

theorem toNat_packComponents (s : Sign) (e : BitVec 11) (m : BitVec 52) :
    (packComponents .binary64 s e m : Word).toNat =
      signBit s * 2 ^ 63 + e.toNat * 2 ^ 52 + m.toNat := by
  have he := e.isLt
  have hm := m.isLt
  have hs : s.toBitVec.toNat = signBit s := by cases s <;> rfl
  rw [packComponents]
  simp only [BitVec.toNat_append, hs]
  rw [← Nat.shiftLeft_add_eq_or_of_lt hm, ← Nat.shiftLeft_add_eq_or_of_lt he]
  simp only [Nat.shiftLeft_eq]
  omega

theorem signBit_ofBitVec (v : BitVec 1) : signBit (Sign.ofBitVec v) = v.toNat := by
  revert v
  decide

theorem signBit_neg (s : Sign) : signBit (-s) = 1 - signBit s := by cases s <;> rfl

/-- The bits are those of the sign, the exponent and the fraction. -/
theorem packComponents_unpack (b : Word) :
    packComponents .binary64 (.ofBitVec (unpackSign b)) (unpackExponent b) (unpackMantissa b) =
      b := by
  have hlt : b.toNat < 2 ^ 64 := b.isLt
  refine BitVec.eq_of_toNat_eq ?_
  rw [toNat_packComponents, signBit_ofBitVec, toNat_sign, toNat_exponent, toNat_mantissa]
  omega

/-! ### Putting bits together again -/

/-- A number with another sign. -/
def withSign (s : Sign) : UnpackedFloat → UnpackedFloat
  | .infinity _ => .infinity s
  | .notANumber => .notANumber
  | .zero _ => .zero s
  | .finite _ m e h => .finite s m e h

theorem withSign_unpack (b : Word) :
    withSign (.ofBitVec (unpackSign b)) (unpack .binary64 b) = unpack .binary64 b := by
  rw [UnpackedFloat.unpack]
  split
  · split <;> rfl
  · split
    · split <;> rfl
    · rfl

theorem neg_unpack (b : Word) :
    (unpack .binary64 b).neg = withSign (-.ofBitVec (unpackSign b)) (unpack .binary64 b) := by
  rw [UnpackedFloat.unpack]
  split
  · split <;> rfl
  · split
    · split <;> rfl
    · rfl

/-- The bits of NaN. -/
def IsNaNBits (b : Word) : Prop := unpackExponent b = -1#11 ∧ unpackMantissa b ≠ 0#52

theorem log2_eq {m n : Nat} (hlow : 2 ^ n ≤ m) (hhigh : m < 2 ^ (n + 1)) : m.log2 = n := by
  have hpos : m ≠ 0 := by
    have := Nat.two_pow_pos n
    omega
  have hle : n ≤ m.log2 := (Nat.le_log2 hpos).2 hlow
  have hlt : m.log2 < n + 1 := (Nat.log2_lt hpos).2 hhigh
  omega

theorem pack_normal (s : Sign) {m : Nat} {e : Int} (h : 0 < m) (hlow : 2 ^ 52 ≤ m)
    (hhigh : m < 2 ^ 53) {exponent : BitVec 11} (he : e + 1075 = exponent.toNat)
    (hfinite : exponent.toNat ≠ 2047) :
    UnpackedFloat.pack .binary64 (.finite s m e h) =
      packComponents .binary64 s exponent (BitVec.ofNat 52 m) := by
  have hlt : exponent.toNat < 2 ^ 11 := exponent.isLt
  have hbiased : (e + (Format.binary64.exponentBias : Int) + ((52 : Nat) : Int)).toNat =
      exponent.toNat := by
    change (e + 1023 + 52).toNat = _
    omega
  have hbits : 52 + 1 = Format.binary64.mantissaBits := rfl
  rw [UnpackedFloat.pack]
  simp only [hbiased, log2_eq hlow hhigh]
  rw [if_neg (by omega), if_pos hbits, BitVec.ofNat_toNat, BitVec.setWidth_eq]

theorem pack_subnormal (s : Sign) {m : Nat} {e : Int} (h : 0 < m) (hhigh : m < 2 ^ 52)
    (he : e = -1074) :
    UnpackedFloat.pack .binary64 (.finite s m e h) =
      packComponents .binary64 s 0#11 (BitVec.ofNat 52 m) := by
  have hbiased : (e + (Format.binary64.exponentBias : Int) + ((52 : Nat) : Int)).toNat = 1 := by
    rw [he]
    rfl
  have hlog : m.log2 + 1 ≠ Format.binary64.mantissaBits := by
    have := (Nat.log2_lt (Nat.ne_of_gt h)).2 hhigh
    change m.log2 + 1 ≠ 53
    omega
  rw [UnpackedFloat.pack]
  simp only [hbiased]
  rw [if_neg (by decide), if_neg hlog]

/-- **Putting bits together again with a sign** changes nothing but the sign. -/
theorem pack_withSign {b : Word} (hb : ¬ IsNaNBits b) (s : Sign) :
    UnpackedFloat.pack .binary64 (withSign s (UnpackedFloat.unpack .binary64 b)) =
      packComponents .binary64 s (unpackExponent b) (unpackMantissa b) := by
  have hexponent : (unpackExponent b).toNat < 2 ^ 11 := (unpackExponent b).isLt
  have hmantissa : (unpackMantissa b).toNat < 2 ^ 52 := (unpackMantissa b).isLt
  rw [UnpackedFloat.unpack]
  split
  · rename_i hone
    split
    · rename_i hzero
      rw [hone, hzero]
      rfl
    · rename_i hne
      exact absurd ⟨hone, hne⟩ hb
  · rename_i hone
    have hfinite : (unpackExponent b).toNat ≠ 2047 :=
      fun h => hone (BitVec.eq_of_toNat_eq (h.trans rfl))
    split
    · rename_i hzero
      rw [hzero]
      split
      · rename_i hm
        rw [hm]
        rfl
      · have he : ((0#11).toNat : Int) - ((Format.binary64.exponentBias : Int) +
            ((52 : Nat) : Int)) + 1 = -1074 := rfl
        rw [withSign, pack_subnormal s _ hmantissa he, BitVec.ofNat_toNat, BitVec.setWidth_eq]
    · have hjoin : (1#1 ++ unpackMantissa b).toNat = 2 ^ 52 + (unpackMantissa b).toNat := by
        rw [BitVec.toNat_append, ← Nat.shiftLeft_add_eq_or_of_lt hmantissa]
        rfl
      have he : ((unpackExponent b).toNat : Int) - ((Format.binary64.exponentBias : Int) +
          ((52 : Nat) : Int)) + 1075 = (unpackExponent b).toNat := by
        change ((unpackExponent b).toNat : Int) - (1023 + 52) + 1075 = _
        omega
      have hm : BitVec.ofNat 52 (1#1 ++ unpackMantissa b).toNat = unpackMantissa b := by
        refine BitVec.eq_of_toNat_eq ?_
        rw [hjoin, BitVec.toNat_ofNat]
        omega
      rw [withSign, pack_normal s _ (by omega) (by omega) he hfinite, hm]

/-! ### Numbers -/

/-- A number is known by its bits. -/
theorem eq_of_toBits {x y : Float} (h : x.toBits.toNat = y.toBits.toNat) : x = y := by
  obtain ⟨⟨bx, hx⟩⟩ := x
  obtain ⟨⟨by', hy⟩⟩ := y
  have hbits : bx = by' := UInt64.toNat_inj.1 h
  subst hbits
  rfl

/-- The bits of a number as a word. -/
def word (x : Float) : Word := x.toBits.toBitVec

theorem toNat_word (x : Float) : (word x).toNat = x.toBits.toNat := rfl

/-- NaN has one pattern of bits. -/
theorem eq_nan_of_isNaNBits {x : Float} (h : IsNaNBits (word x)) : x = nan := by
  have hbits : word x = packedNaN .binary64 := x.toModel.valid.eq_packedNaN h.1 h.2
  refine eq_of_toBits ?_
  rw [← toNat_word, hbits]
  decide +kernel

/-- The bits of a number that is given by its bits, but for NaN. -/
theorem toBits_ofBits {w : UInt64} (h : ¬ IsNaNBits w.toBitVec) :
    (Float.ofBits w).toBits.toNat = w.toNat := by
  change (UnpackedFloat.pack .binary64 (UnpackedFloat.unpack .binary64 w.toBitVec)).toNat = _
  rw [← withSign_unpack, pack_withSign h, packComponents_unpack]
  rfl

/-- **The number of the bits of a number is that number.** -/
theorem ofBits_toBits (x : Float) : Float.ofBits (UInt64.ofNat x.toBits.toNat) = x := by
  rw [UInt64.ofNat_toNat]
  by_cases hnan : IsNaNBits (word x)
  · rw [eq_nan_of_isNaNBits hnan]
    decide +kernel
  · exact eq_of_toBits (toBits_ofBits hnan)

/-- **Negation turns the sign bit around**, but for NaN. -/
theorem toBits_neg {x : Float} (hx : x ≠ nan) :
    (-x).toBits.toNat =
      (1 - x.toBits.toNat / 2 ^ 63) * 2 ^ 63 + x.toBits.toNat % 2 ^ 63 := by
  have hnan : ¬ IsNaNBits (word x) := fun h => hx (eq_nan_of_isNaNBits h)
  have hlt : (word x).toNat < 2 ^ 64 := (word x).isLt
  change (UnpackedFloat.pack .binary64 (UnpackedFloat.unpack .binary64 (word x)).neg).toNat = _
  rw [neg_unpack, pack_withSign hnan, toNat_packComponents, signBit_neg, signBit_ofBitVec,
    toNat_sign, toNat_exponent, toNat_mantissa, ← toNat_word]
  omega

/-! ### The parts of a number -/

/-- The bits of a magnitude. -/
def Parts.bits (p : Parts) : Nat := (p.exponent + 1074).toNat * 2 ^ 52 + p.significand

/-- The parts of a double: the significand has its leading bit but for the smallest exponent. -/
structure Parts.Sound (p : Parts) : Prop where
  least : -1074 ≤ p.exponent
  greatest : p.exponent ≤ 971
  significand : p.significand < 2 ^ 53
  normal : 2 ^ 52 ≤ p.significand ∨ p.exponent = -1074

/-- The number is finite and has these parts. -/
structure HasParts (x : Float) (p : Parts) : Prop where
  sound : p.Sound
  bits : x.toBits.toNat = (if p.negative then 2 ^ 63 else 0) + p.bits

theorem isNegative_eq (x : Float) : isNegative x = decide (2 ^ 63 ≤ x.toBits.toNat) := by
  have hlt : x.toBits.toNat < 2 ^ 64 := x.toBits.toNat_lt
  have hdiv : x.toBits.toNat / 2 ^ 63 = 1 ↔ 2 ^ 63 ≤ x.toBits.toNat := by omega
  rw [isNegative, ← decide_eq_decide.2 hdiv]
  rfl

/-- The parts of a number, read off its bits. -/
theorem parts?_eq (x : Float) :
    parts? x = match x.toBits.toNat / 2 ^ 52 % 2 ^ 11 with
      | 0 => some ⟨isNegative x, x.toBits.toNat % 2 ^ 52, -1074⟩
      | 2047 => none
      | biased =>
          some ⟨isNegative x, x.toBits.toNat % 2 ^ 52 + 2 ^ 52, (biased : Int) - 1075⟩ := rfl

/-- **Taking a number apart** tells its bits. -/
theorem hasParts_of_parts? {x : Float} {p : Parts} (h : parts? x = some p) : HasParts x p := by
  have hlt : x.toBits.toNat < 2 ^ 64 := x.toBits.toNat_lt
  have hsign : (if isNegative x then 2 ^ 63 else 0) = x.toBits.toNat / 2 ^ 63 * 2 ^ 63 := by
    rw [isNegative_eq]
    split
    · rename_i hn
      have := of_decide_eq_true hn
      omega
    · rename_i hn
      have := of_decide_eq_false (Bool.eq_false_iff.2 hn)
      omega
  rw [parts?_eq] at h
  generalize hbiased : x.toBits.toNat / 2 ^ 52 % 2 ^ 11 = biased at h
  split at h
  · cases h
    refine ⟨⟨Int.le_refl _, by simp, ?_, .inr rfl⟩, ?_⟩
    · change x.toBits.toNat % 2 ^ 52 < 2 ^ 53
      omega
    · simp only [hsign, Parts.bits]
      omega
  · cases h
  · rename_i hzero hones
    cases h
    have hpos : biased ≠ 0 := hzero
    have hfinite : biased ≠ 2047 := hones
    refine ⟨⟨?_, ?_, ?_, .inl ?_⟩, ?_⟩
    all_goals simp only [hsign, Parts.bits]
    all_goals omega

theorem negative_of_parts? {x : Float} {p : Parts} (h : parts? x = some p) :
    p.negative = isNegative x := by
  rw [parts?] at h
  split at h
  · cases h
    rfl
  · cases h
  · cases h
    rfl

/-- Numbers with the same parts are the same. -/
theorem HasParts.eq {x y : Float} {p : Parts} (hx : HasParts x p) (hy : HasParts y p) : x = y :=
  eq_of_toBits (hx.bits.trans hy.bits.symm)

theorem toNat_infinity : infinity.toBits.toNat = 2047 * 2 ^ 52 := by decide +kernel

theorem toNat_neg_infinity : (-infinity).toBits.toNat = 4095 * 2 ^ 52 := by decide +kernel

/-- **What is not finite** is one of three numbers. -/
theorem eq_of_parts?_none {x : Float} (h : parts? x = none) :
    x = nan ∨ x = infinity ∨ x = -infinity := by
  have hlt : x.toBits.toNat < 2 ^ 64 := x.toBits.toNat_lt
  rw [parts?_eq] at h
  generalize hbiased : x.toBits.toNat / 2 ^ 52 % 2 ^ 11 = biased at h
  split at h
  · cases h
  · by_cases hzero : x.toBits.toNat % 2 ^ 52 = 0
    · have hinfinity := toNat_infinity
      have hnegative := toNat_neg_infinity
      by_cases hsign : x.toBits.toNat < 2 ^ 63
      · exact .inr (.inl (eq_of_toBits (by omega)))
      · exact .inr (.inr (eq_of_toBits (by omega)))
    · refine .inl (eq_nan_of_isNaNBits ⟨BitVec.eq_of_toNat_eq ?_, fun hm => hzero ?_⟩)
      · rw [toNat_exponent, toNat_word, hbiased]
        rfl
      · rw [← toNat_word, ← toNat_mantissa, hm]
        rfl
  · cases h

/-- The parts of a number are those that it is taken apart into. -/
theorem parts?_of_hasParts {x : Float} {p : Parts} (h : HasParts x p) : parts? x = some p := by
  obtain ⟨⟨hleast, hgreatest, hsignificand, hnormal⟩, hbits⟩ := h
  cases hx : parts? x with
  | none =>
      exfalso
      have hnan : nan.toBits.toNat = 4095 * 2 ^ 51 := by decide +kernel
      rw [Parts.bits] at hbits
      rcases eq_of_parts?_none hx with rfl | rfl | rfl
      · rw [hnan] at hbits
        split at hbits <;> omega
      · rw [toNat_infinity] at hbits
        split at hbits <;> omega
      · rw [toNat_neg_infinity] at hbits
        split at hbits <;> omega
  | some q =>
      obtain ⟨⟨hleast', hgreatest', hsignificand', hnormal'⟩, hbits'⟩ := hasParts_of_parts? hx
      obtain ⟨negative, significand, exponent⟩ := p
      obtain ⟨negative', significand', exponent'⟩ := q
      rw [hbits, Parts.bits, Parts.bits] at hbits'
      dsimp only at *
      have hsign : negative = negative' := by
        cases negative <;> cases negative' <;>
          simp only [if_true, Bool.false_eq_true, if_false] at hbits' <;> first | rfl | omega
      subst hsign
      have hrest := Nat.add_left_cancel hbits'
      have hexponent : exponent = exponent' := by omega
      have hsame : significand = significand' := by omega
      rw [hexponent, hsame]

/-- The parts of the number with the other sign. -/
theorem HasParts.neg {x : Float} {p : Parts} (h : HasParts x p) (hx : x ≠ nan) :
    HasParts (-x) { p with negative := !p.negative } := by
  obtain ⟨⟨hleast, hgreatest, hsignificand, hnormal⟩, hbits⟩ := h
  refine ⟨⟨hleast, hgreatest, hsignificand, hnormal⟩, ?_⟩
  have hsmall : p.bits < 2 ^ 63 := by
    rw [Parts.bits]
    omega
  have hbits' : Parts.bits { p with negative := !p.negative } = p.bits := rfl
  rw [toBits_neg hx, hbits, hbits']
  cases p.negative
  · simp only [Bool.not_false, if_true, Bool.false_eq_true, if_false]
    omega
  · simp only [Bool.not_true, if_true, Bool.false_eq_true, if_false]
    omega

theorem ne_nan_of_parts? {x : Float} {p : Parts} (h : parts? x = some p) : x ≠ nan := by
  rintro rfl
  have hnone : parts? nan = none := by decide +kernel
  rw [hnone] at h
  cases h

/-- A finite number with a sign, without it. -/
theorem parts?_neg {x : Float} {p : Parts} (h : parts? x = some p) :
    parts? (-x) = some { p with negative := !p.negative } :=
  parts?_of_hasParts ((hasParts_of_parts? h).neg (ne_nan_of_parts? h))

/-- Two signs of a finite number cancel out. -/
theorem neg_neg_of_parts? {x : Float} {p : Parts} (h : parts? x = some p) : -(-x) = x := by
  have hback := parts?_neg (parts?_neg h)
  rw [Bool.not_not] at hback
  exact (hasParts_of_parts? hback).eq (hasParts_of_parts? h)

/-- The one number with a sign and no magnitude. -/
theorem eq_neg_zero {x : Float} {p : Parts} (h : parts? x = some p) (hs : p.negative = true)
    (hzero : p.significand = 0) : x = -0 := by
  have hx := hasParts_of_parts? h
  have hexponent : p.exponent = -1074 := hx.sound.normal.resolve_left (by omega)
  have hbits : (-0 : Float).toBits.toNat = 2 ^ 63 := by decide +kernel
  refine eq_of_toBits ?_
  rw [hx.bits, hs, Parts.bits, hzero, hexponent, hbits]
  rfl

end Gamebook.Number
