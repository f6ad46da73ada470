/-
**Letters and digits of ASCII.**

What holds of all of them is found by looking at each: there are few enough.

Main results:

* `Text.forall_isAlphanum` — **what holds of the characters of ASCII, one by one**, holds of letters
  and digits;
* `Text.toLower_toLower`, `Text.toLower_of_not_isUpper` — small letters.
-/

set_option relaxedAutoImplicit false
set_option autoImplicit false

namespace Gamebook.Text

variable {c : Char}

/-- Letters and digits are those of ASCII. -/
theorem isAlphanum_iff (c : Char) : c.isAlphanum ↔
    (('A' ≤ c ∧ c ≤ 'Z') ∨ ('a' ≤ c ∧ c ≤ 'z')) ∨ ('0' ≤ c ∧ c ≤ '9') := by
  have hranges : c.isAlphanum = ((decide ('A' ≤ c ∧ c ≤ 'Z') ||
      (decide ('a' ≤ c) && decide (c ≤ 'z'))) || (decide ('0' ≤ c) && decide (c ≤ '9'))) := rfl
  rw [hranges]
  simp only [Bool.or_eq_true, Bool.and_eq_true, decide_eq_true_eq]

theorem toNat_lt_of_isAlphanum (h : c.isAlphanum) : c.toNat < 128 := by
  have hle : c ≤ 'z' := by
    rcases (isAlphanum_iff c).1 h with (⟨-, h⟩ | ⟨-, h⟩) | ⟨-, h⟩
    · exact UInt32.le_trans h (by decide)
    · exact h
    · exact UInt32.le_trans h (by decide)
  have hcode : c.toNat ≤ 'z'.toNat := UInt32.le_iff_toNat_le.1 hle
  simp only [Char.reduceToNat] at hcode
  omega

/-- What holds of the characters of ASCII, checked one by one, holds of letters and digits. -/
theorem forall_isAlphanum {P : Char → Prop} (h : ∀ n : Fin 128, (Char.ofNat n).isAlphanum →
    P (Char.ofNat n)) (hc : c.isAlphanum) : P c := by
  have hP := h ⟨c.toNat, toNat_lt_of_isAlphanum hc⟩
  simp only [Char.ofNat_toNat] at hP
  exact hP hc

theorem isAlphanum_of_isAlpha (h : c.isAlpha) : c.isAlphanum := Bool.or_eq_true_iff.2 (.inl h)

theorem isAlpha_of_isUpper (h : c.isUpper) : c.isAlpha := Bool.or_eq_true_iff.2 (.inl h)

theorem isAlphanum_toLower (h : c.isAlphanum) : c.toLower.isAlphanum :=
  forall_isAlphanum (P := fun c => c.toLower.isAlphanum) (by decide) h

theorem toLower_of_not_isUpper (h : c.isUpper = false) : c.toLower = c :=
  dif_neg (of_decide_eq_false h)

theorem toLower_toLower (c : Char) : c.toLower.toLower = c.toLower := by
  cases h : c.isUpper with
  | true =>
      exact forall_isAlphanum (P := fun c => c.toLower.toLower = c.toLower) (by decide)
        (isAlphanum_of_isAlpha (isAlpha_of_isUpper h))
  | false => rw [toLower_of_not_isUpper h, toLower_of_not_isUpper h]

end Gamebook.Text
