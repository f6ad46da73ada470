/-
**A number is read back from its text.**

The text of a finite number is a decimal that lies around it, and what lies around a number is read
as that number.

Main results:

* `Number.ofChars?_positional`, `Number.ofChars?_partsText` — the decimal that is read from a text;
* `Number.toFloat_of_around` — a decimal around a number is read as it;
* `Number.read?_text` — **a number is read back from its text**;
* `Number.isNegative_read?` — a number that is written without a sign has none.
-/

import Gamebook.Number.Printing
import Gamebook.Number.Reading
import Gamebook.Proofs.Number.Numeral
import Gamebook.Proofs.Number.Shortest
import Mathlib.Data.List.TakeWhile

set_option relaxedAutoImplicit false
set_option autoImplicit false

namespace Gamebook.Number

/-! ### Digits -/

theorem ofDigits_toDigits (n : Nat) : ofDigits (Nat.toDigits 10 n) = n :=
  Nat.ofDigitChars_ten_toDigits

theorem ofDigits_append_zeros (digits : List Char) (n : Nat) :
    ofDigits (digits ++ List.replicate n '0') = 10 ^ n * ofDigits digits := by
  change Nat.ofDigitChars 10 (digits ++ List.replicate n '0') 0 = _
  rw [Nat.ofDigitChars_append, Nat.ofDigitChars_replicate_zero]
  rfl

theorem ofDigits_zeros_append (n : Nat) (digits : List Char) :
    ofDigits (List.replicate n '0' ++ digits) = ofDigits digits := by
  change Nat.ofDigitChars 10 (List.replicate n '0' ++ digits) 0 = _
  rw [Nat.ofDigitChars_append, Nat.ofDigitChars_replicate_zero, Nat.mul_zero]
  rfl

theorem takeWhile_isDigit {digits : List Char} (hd : digits.all Char.isDigit = true) :
    digits.takeWhile Char.isDigit = digits ∧ digits.dropWhile Char.isDigit = [] := by
  have hall := List.all_eq_true.1 hd
  exact ⟨List.takeWhile_eq_self_iff.2 hall, List.dropWhile_eq_nil_iff.2 hall⟩

theorem ofChars?_whole {digits : List Char} (hne : digits ≠ [])
    (hd : digits.all Char.isDigit = true) :
    Decimal.ofChars? digits = some ⟨ofDigits digits, 0⟩ := by
  obtain ⟨htake, hdrop⟩ := takeWhile_isDigit hd
  simp [Decimal.ofChars?, htake, hdrop, hne, exponent?]

theorem ofChars?_pointed {digits places : List Char} (hne : digits ≠ [])
    (hd : digits.all Char.isDigit = true) (hp : places.all Char.isDigit = true) :
    Decimal.ofChars? (digits ++ '.' :: places) =
      some ⟨ofDigits (digits ++ places), -places.length⟩ := by
  have hall := List.all_eq_true.1 hd
  obtain ⟨htake, hdrop⟩ := takeWhile_isDigit hp
  have hwhole : (digits ++ '.' :: places).takeWhile Char.isDigit = digits := by
    rw [List.takeWhile_append_of_pos hall, List.takeWhile_cons_of_neg (by decide), List.append_nil]
  have hrest : (digits ++ '.' :: places).dropWhile Char.isDigit = '.' :: places := by
    rw [List.dropWhile_append_of_pos hall, List.dropWhile_cons_of_neg (by decide)]
  simp [Decimal.ofChars?, hwhole, hrest, htake, hdrop, hne, exponent?]

/-- **A decimal is read back from its text**, up to zeros at its end. -/
theorem ofChars?_positional (digits : Nat) (power : Int) :
    ∃ d, Decimal.ofChars? (positional digits power) = some d ∧
      decimal d.digits d.power = decimal digits power := by
  have hne : Nat.toDigits 10 digits ≠ [] := Nat.toDigits_ne_nil
  rw [positional]
  split
  · rename_i hnonneg
    obtain ⟨n, rfl⟩ : ∃ n : Nat, power = n := ⟨power.natAbs, by omega⟩
    have hall : (Nat.toDigits 10 digits ++ List.replicate n '0').all Char.isDigit = true := by
      rw [List.all_append, all_isDigit_toDigits, all_isDigit_zeros]
      rfl
    refine ⟨_, ofChars?_whole (List.append_ne_nil_of_left_ne_nil hne _) hall, ?_⟩
    rw [ofDigits_append_zeros, ofDigits_toDigits, decimal, decimal]
    push_cast
    rw [Int.natAbs_natCast, zpow_natCast]
    ring
  · rename_i hneg
    dsimp only
    generalize hpadded : List.replicate (power.natAbs + 1 - (Nat.toDigits 10 digits).length) '0' ++
      Nat.toDigits 10 digits = padded
    have hall : padded.all Char.isDigit = true := by
      rw [← hpadded, List.all_append, all_isDigit_zeros, all_isDigit_toDigits]
      rfl
    have hlength : power.natAbs < padded.length := by
      rw [← hpadded, List.length_append, List.length_replicate]
      omega
    have hdigit := List.all_eq_true.1 hall
    have hwhole : padded.take (padded.length - power.natAbs) ≠ [] := by
      refine List.ne_nil_of_length_pos ?_
      rw [List.length_take]
      omega
    have hbefore : (padded.take (padded.length - power.natAbs)).all Char.isDigit = true :=
      List.all_eq_true.2 fun c hc => hdigit c (List.mem_of_mem_take hc)
    have hplaces : (padded.drop (padded.length - power.natAbs)).all Char.isDigit = true :=
      List.all_eq_true.2 fun c hc => hdigit c (List.mem_of_mem_drop hc)
    refine ⟨_, ofChars?_pointed hwhole hbefore hplaces, ?_⟩
    have hpower : -((padded.drop (padded.length - power.natAbs)).length : Int) = power := by
      rw [List.length_drop]
      omega
    rw [hpower, List.take_append_drop, ← hpadded, ofDigits_zeros_append, ofDigits_toDigits]

/-! ### The text of a magnitude -/

/-- A whole number is the value of its parts. -/
theorem Parts.value_of_whole? {p : Parts} {n : Nat} (h : p.whole? = some n) : p.value = n := by
  rw [whole?] at h
  rw [value]
  split at h
  · rename_i hnonneg
    obtain ⟨e, he⟩ : ∃ e : Nat, p.exponent = e := ⟨p.exponent.natAbs, by omega⟩
    cases h
    rw [he, Int.natAbs_natCast, zpow_natCast, Nat.pow_eq]
    push_cast
    rfl
  · rename_i hneg
    obtain ⟨e, he⟩ : ∃ e : Nat, p.exponent = -e := ⟨p.exponent.natAbs, by omega⟩
    split at h
    · rename_i hmod
      cases h
      rw [he, Int.natAbs_neg, Int.natAbs_natCast, Nat.pow_eq] at hmod ⊢
      have hexact : p.significand = 2 ^ e * (p.significand / 2 ^ e) := by
        have h := Nat.div_add_mod p.significand (2 ^ e)
        omega
      generalize p.significand / 2 ^ e = n at hexact ⊢
      rw [hexact, zpow_neg, zpow_natCast]
      push_cast
      rw [mul_comm, ← mul_assoc, inv_mul_cancel₀ (by positivity), one_mul]
    · cases h

/-- **The decimal that is read from the text of a magnitude lies around it.** -/
theorem ofChars?_partsText {p : Parts} (hpos : 0 < p.significand) :
    ∃ d, Decimal.ofChars? p.text = some d ∧ p.Around (decimal d.digits d.power) := by
  have hfewest : ∃ d, Decimal.ofChars? (positional (shortest p).1 (shortest p).2) = some d ∧
      p.Around (decimal d.digits d.power) := by
    obtain ⟨d, hread, hvalue⟩ := ofChars?_positional (shortest p).1 (shortest p).2
    exact ⟨d, hread, hvalue ▸ around_shortest hpos⟩
  rw [Parts.text]
  split
  · rename_i n hwhole
    split
    · refine ⟨_, ofChars?_whole Nat.toDigits_ne_nil (all_isDigit_toDigits n), ?_⟩
      have hvalue : decimal n 0 = p.value := by
        rw [Parts.value_of_whole? hwhole, decimal, zpow_zero, mul_one]
      rw [ofDigits_toDigits, hvalue]
      exact p.around_value
    · exact hfewest
  · exact hfewest

/-! ### Reading -/

/-- What lies around a number is no smaller than half the smallest double, and not too large for
one. -/
theorem Parts.Around.bounds {p : Parts} (hp : p.Sound) (hpos : 0 < p.significand) {q : ℚ}
    (h : p.Around q) : (2 : ℚ) ^ (-1075 : Int) ≤ q ∧ q < 2 ^ (1024 : Int) := by
  have hone : (1 : ℚ) ≤ p.significand := by exact_mod_cast hpos
  have hlarge : (p.significand : ℚ) + 1 ≤ 2 ^ 53 := by exact_mod_cast hp.significand
  refine ⟨le_trans ?_ h.low, lt_of_le_of_lt h.high ?_⟩
  · calc (2 : ℚ) ^ (-1075 : Int) = 1 / 2 * 2 ^ (-1074 : Int) := by
          rw [show (-1075 : Int) = -1 + -1074 by norm_num, zpow_add₀ (by norm_num)]
          norm_num
      _ ≤ (p.significand - p.gap) * 2 ^ p.exponent := by
          refine mul_le_mul (by linarith [p.gap_le]) ?_ (zpow_nonneg (by norm_num) _)
            (by linarith [p.gap_le])
          exact zpow_le_zpow_right₀ (by norm_num) hp.least
  · calc (p.significand + 1 / 2) * (2 : ℚ) ^ p.exponent
        < 2 ^ 53 * 2 ^ p.exponent :=
          mul_lt_mul_of_pos_right (by linarith) (zpow_pos (by norm_num) _)
      _ ≤ 2 ^ 53 * 2 ^ (971 : Int) :=
          mul_le_mul_of_nonneg_left (zpow_le_zpow_right₀ (by norm_num) hp.greatest) (by norm_num)
      _ = 2 ^ (1024 : Int) := by
          rw [← zpow_natCast, ← zpow_add₀ (by norm_num)]
          norm_num

/-- The digits of a decimal and its power tell it up to a factor of ten. -/
theorem decimal_bounds {digits : Nat} (hd : digits ≠ 0) (power : Int) :
    (10 : ℚ) ^ ((Nat.toDigits 10 digits).length + power - 1) ≤ decimal digits power ∧
      decimal digits power < 10 ^ ((Nat.toDigits 10 digits).length + power) := by
  have hten : (10 : ℚ) ≠ 0 := by norm_num
  have hunit : (0 : ℚ) < 10 ^ power := zpow_pos (by norm_num) _
  obtain ⟨before, hbefore⟩ : ∃ before, (Nat.toDigits 10 digits).length = before + 1 :=
    Nat.exists_eq_succ_of_ne_zero (Nat.ne_of_gt Nat.length_toDigits_pos)
  have hlt : digits < 10 ^ (before + 1) :=
    (Nat.length_toDigits_le_iff (by decide) (Nat.succ_pos _)).1 hbefore.le
  have hge : 10 ^ before ≤ digits := by
    by_contra hlt
    rcases Nat.eq_zero_or_pos before with rfl | hpos
    · omega
    · have := (Nat.length_toDigits_le_iff (by decide) hpos).2 (not_le.1 hlt)
      omega
  rw [hbefore, decimal]
  constructor
  · rw [show ((before + 1 : Nat) : Int) + power - 1 = before + power by push_cast; ring,
      zpow_add₀ hten, zpow_natCast]
    exact mul_le_mul_of_nonneg_right (by exact_mod_cast hge) hunit.le
  · rw [zpow_add₀ hten, zpow_natCast]
    exact mul_lt_mul_of_pos_right (by exact_mod_cast hlt) hunit

/-- A decimal around a number is not out of the range of doubles. -/
theorem top_bounds {p : Parts} (hp : p.Sound) (hpos : 0 < p.significand) {d : Decimal}
    (h : p.Around (decimal d.digits d.power)) :
    d.digits ≠ 0 ∧ ¬ ((Nat.toDigits 10 d.digits).length + d.power < -330) ∧
      ¬ ((Nat.toDigits 10 d.digits).length + d.power > 310) := by
  obtain ⟨hlow, hhigh⟩ := h.bounds hp hpos
  have hdigits : d.digits ≠ 0 := by
    intro hzero
    rw [hzero, decimal, Nat.cast_zero, zero_mul] at hlow
    exact absurd hlow (not_le.2 (zpow_pos (by norm_num) _))
  obtain ⟨hbig, hsmall⟩ := decimal_bounds hdigits d.power
  refine ⟨hdigits, fun htop => ?_, fun htop => ?_⟩
  · have hle : (10 : ℚ) ^ ((Nat.toDigits 10 d.digits).length + d.power) ≤ 10 ^ (-331 : Int) :=
      zpow_le_zpow_right₀ (by norm_num) (by omega)
    have hnum : (10 : ℚ) ^ (-331 : Int) < 2 ^ (-1075 : Int) := by
      have hnat : 2 ^ 1075 < 10 ^ 331 := by decide +kernel
      rw [zpow_neg, zpow_neg]
      exact inv_strictAnti₀ (zpow_pos (by norm_num) _) (by exact_mod_cast hnat)
    exact lt_irrefl _ (((hlow.trans_lt hsmall).trans_le hle).trans hnum)
  · have hle : (10 : ℚ) ^ (310 : Int) ≤ 10 ^ ((Nat.toDigits 10 d.digits).length + d.power - 1) :=
      zpow_le_zpow_right₀ (by norm_num) (by omega)
    have hnum : (2 : ℚ) ^ (1024 : Int) < 10 ^ (310 : Int) := by
      have hnat : 2 ^ 1024 < 10 ^ 310 := by decide +kernel
      exact_mod_cast hnat
    exact lt_irrefl _ ((hnum.trans_le (hle.trans hbig)).trans hhigh)

/-- **A decimal around a number is read as that number.** -/
theorem toFloat_of_around {x : Float} {p : Parts} (hx : HasParts x p) (hpos : 0 < p.significand)
    {d : Decimal} (h : p.Around (decimal d.digits d.power)) : d.toFloat p.negative = x := by
  obtain ⟨hdigits, hlow, hhigh⟩ := top_bounds hx.sound hpos h
  have hnearest : ∀ {num den : Nat}, 0 < num → 0 < den →
      (num : ℚ) / den = decimal d.digits d.power → nearest p.negative num den = x := by
    intro num den hnum hden hvalue
    have hbits := nearestBits_of_around hx.sound hnum hden (hvalue ▸ h)
    have hword : p.bits + (if p.negative then Nat.pow 2 63 else 0) = x.toBits.toNat :=
      (Nat.add_comm _ _).trans hx.bits.symm
    rw [nearest, hbits, hword, ofBits_toBits]
  rw [Decimal.toFloat]
  rw [if_neg (by simp [hdigits, hlow]), if_neg hhigh]
  split
  · rename_i hneg
    obtain ⟨n, hn⟩ : ∃ n : Nat, d.power = -n := ⟨d.power.natAbs, by omega⟩
    refine hnearest (Nat.pos_of_ne_zero hdigits) (Nat.pow_pos (by decide)) ?_
    rw [decimal, hn, Int.natAbs_neg, Int.natAbs_natCast, Nat.pow_eq, zpow_neg, zpow_natCast]
    push_cast
    rw [div_eq_mul_inv]
  · rename_i hnonneg
    obtain ⟨n, hn⟩ : ∃ n : Nat, d.power = n := ⟨d.power.natAbs, by omega⟩
    refine hnearest (Nat.mul_pos (Nat.pos_of_ne_zero hdigits) (Nat.pow_pos (by decide)))
      Nat.one_pos ?_
    rw [decimal, hn, Int.natAbs_natCast, Nat.pow_eq, zpow_natCast]
    push_cast
    rw [div_one]

/-- What is plain is read as a decimal. -/
theorem read?_plain {text : List Char} (h : IsPlain text) :
    read? text = (Decimal.ofChars? text).map fun d => d.toFloat false := by
  obtain ⟨c, behind, rfl, hc, -⟩ := Token.startsNumber_plain h []
  have hminus : c ≠ '-' := fun heq => absurd hc (by rw [heq]; decide)
  have hplus : c ≠ '+' := fun heq => absurd hc (by rw [heq]; decide)
  have hword : ∀ (word : String) (first : Char), word.toList.head? = some first →
      first.isDigit = false → String.ofList ((c :: behind).map Char.toLower) ≠ word := by
    rintro word first hhead hfirst rfl
    have hlower : c.toLower = c := by
      simp only [Char.isDigit, Bool.and_eq_true, decide_eq_true_eq] at hc
      refine dif_neg fun hcapital => ?_
      have h₁ : 65 ≤ c.val.toNat := hcapital.1
      have h₂ : c.val.toNat ≤ 57 := hc.2
      omega
    rw [String.toList_ofList, List.map_cons, List.head?_cons, hlower, Option.some.injEq] at hhead
    rw [hhead, hfirst] at hc
    cases hc
  have hinf := hword "inf" 'i' (by decide) (by decide)
  have hinfinity := hword "infinity" 'i' (by decide) (by decide)
  have hnan := hword "nan" 'n' (by decide) (by decide)
  rw [read?]
  · rw [if_neg hnan, decide_eq_false hinf, decide_eq_false hinfinity]
    rfl
  · intro digits heq
    cases heq
    exact hminus rfl
  · intro digits heq
    cases heq
    exact hplus rfl

/-- **A number is read back from its text.** -/
theorem read?_text {x : Float} {p : Parts} (hp : parts? x = some p) (hs : p.negative = false) :
    read? (text x).toList = some x := by
  have hx := hasParts_of_parts? hp
  have htext : (text x).toList = p.text := by
    rw [text, hp]
    simp only [hs, Bool.false_and, Bool.false_eq_true, if_false, String.toList_ofList]
  rw [read?_plain (plain_text hp hs), htext]
  rcases Nat.eq_zero_or_pos p.significand with hzero | hpos
  · have hexponent : p.exponent = -1074 := hx.sound.normal.resolve_left (by omega)
    have hbits : x.toBits.toNat = 0 := by
      rw [hx.bits, hs, Parts.bits, hzero, hexponent]
      rfl
    obtain ⟨negative, significand, exponent⟩ := p
    simp only at hzero hexponent hs
    subst hzero hexponent hs
    have hx0 : Float.ofBits (UInt64.ofNat 0) = x := hbits ▸ ofBits_toBits x
    rw [← hx0]
    decide +kernel
  · obtain ⟨d, hread, haround⟩ := ofChars?_partsText hpos
    rw [hread, Option.map_some, ← hs, toFloat_of_around hx hpos haround]

/-! ### The sign of what is read -/

/-- A quotient without a sign is rounded to a number without one. -/
theorem isNegative_nearest (num den : Nat) : isNegative (nearest false num den) = false := by
  have hle : nearestBits num den ≤ 2047 * 2 ^ 52 := by
    rw [nearestBits]
    split
    · exact Nat.zero_le _
    · exact Nat.min_le_right _ _
  have hbits : (UInt64.ofNat (nearestBits num den)).toBitVec.toNat = nearestBits num den := by
    change nearestBits num den % 2 ^ 64 = _
    omega
  have hnan : ¬ IsNaNBits (UInt64.ofNat (nearestBits num den)).toBitVec := by
    rintro ⟨hexponent, hmantissa⟩
    have hones := toNat_exponent (UInt64.ofNat (nearestBits num den)).toBitVec
    rw [hexponent, hbits] at hones
    change 2047 = _ at hones
    refine hmantissa (BitVec.eq_of_toNat_eq ?_)
    rw [toNat_mantissa, hbits]
    change _ = 0
    omega
  rw [isNegative_eq, nearest, if_neg Bool.false_ne_true, Nat.add_zero, toBits_ofBits hnan]
  exact decide_eq_false (by rw [← UInt64.toNat_toBitVec, hbits]; omega)

theorem isNegative_toFloat (d : Decimal) : isNegative (d.toFloat false) = false := by
  rw [Decimal.toFloat]
  split
  · exact isNegative_nearest _ _
  · split
    · decide +kernel
    · split
      · exact isNegative_nearest _ _
      · exact isNegative_nearest _ _

/-- **A number that is written without a sign has none.** -/
theorem isNegative_read? {text : List Char} {n : Float} (hminus : text.head? ≠ some '-')
    (h : read? text = some n) : isNegative n = false := by
  have hsign : ∀ rest, text ≠ '-' :: rest := by
    rintro rest rfl
    exact hminus rfl
  rw [read?.eq_def] at h
  split at h
  rename_i negative rest hread
  have hpositive : negative = false := by
    split at hread
    · exact absurd rfl (hsign _)
    · cases hread
      rfl
    · cases hread
      rfl
  subst hpositive
  dsimp only at h
  split at h
  · cases h
    decide +kernel
  · split at h
    · cases h
      decide +kernel
    · obtain ⟨d, -, rfl⟩ := Option.map_eq_some_iff.1 h
      exact isNegative_toFloat d

/-! ### The text of a number with a sign -/

/-- A finite number with a sign is shown as its magnitude behind the sign. -/
theorem text_of_negative {x : Float} {p : Parts} (h : parts? x = some p)
    (hs : p.negative = true) (hzero : p.significand ≠ 0) :
    (text x).toList = '-' :: (text (-x)).toList := by
  have hsome : (p.significand != 0) = true := by simpa using hzero
  rw [text, text, h, parts?_neg h]
  simp only [hs, hsome, Bool.and_self, if_true, Bool.not_true, Bool.false_and, Bool.false_eq_true,
    if_false, String.toList_ofList]
  rfl

end Gamebook.Number
