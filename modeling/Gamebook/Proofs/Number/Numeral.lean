/-
**The shape of the text of a number.**

The text of a finite number without a sign is a row of digits, or two rows with a point between
them.  Such a text is read whole: nothing behind it can belong to it but digits, a point and an
exponent.

Main definitions:

* `Number.IsPlain` — digits, with a point between them or not.

Main results:

* `Number.plain_positional`, `Number.plain_text` — **the text of a finite number is plain**;
* `Token.numberLexeme_plain` — a plain text is read whole.
-/

import Gamebook.Expr.Token
import Gamebook.Number.Printing

set_option relaxedAutoImplicit false
set_option autoImplicit false

namespace Gamebook

namespace Number

/-- Digits, with a point between them or not. -/
inductive IsPlain : List Char → Prop
  | whole {digits : List Char} (hne : digits ≠ []) (hd : digits.all Char.isDigit = true) :
      IsPlain digits
  | pointed {digits places : List Char} (hne : digits ≠ []) (hd : digits.all Char.isDigit = true)
      (hp : places.all Char.isDigit = true) : IsPlain (digits ++ '.' :: places)

theorem all_isDigit_toDigits (n : Nat) : (Nat.toDigits 10 n).all Char.isDigit = true :=
  List.all_eq_true.2 fun _ hc => Nat.isDigit_of_mem_toDigits (by decide) (by decide) hc

theorem all_isDigit_zeros (n : Nat) : (List.replicate n '0').all Char.isDigit = true := by
  rw [List.all_replicate]
  split
  · rfl
  · decide

/-- A decimal written without an exponent is plain. -/
theorem plain_positional (digits : Nat) (power : Int) : IsPlain (positional digits power) := by
  have hne : Nat.toDigits 10 digits ≠ [] := Nat.toDigits_ne_nil
  rw [positional]
  split
  · refine .whole (List.append_ne_nil_of_left_ne_nil hne _) ?_
    rw [List.all_append, all_isDigit_toDigits, all_isDigit_zeros]
    rfl
  · dsimp only
    generalize hpadded : List.replicate (power.natAbs + 1 - (Nat.toDigits 10 digits).length) '0' ++
      Nat.toDigits 10 digits = padded
    have hall : padded.all Char.isDigit = true := by
      rw [← hpadded, List.all_append, all_isDigit_zeros, all_isDigit_toDigits]
      rfl
    have hlength : power.natAbs < padded.length := by
      rw [← hpadded, List.length_append, List.length_replicate]
      omega
    have hdigit := List.all_eq_true.1 hall
    refine .pointed (List.ne_nil_of_length_pos ?_) ?_ ?_
    · rw [List.length_take]
      omega
    · exact List.all_eq_true.2 fun c hc => hdigit c (List.mem_of_mem_take hc)
    · exact List.all_eq_true.2 fun c hc => hdigit c (List.mem_of_mem_drop hc)

theorem plain_partsText (p : Parts) : IsPlain p.text := by
  rw [Parts.text]
  split
  · split
    · exact .whole Nat.toDigits_ne_nil (all_isDigit_toDigits _)
    · exact plain_positional _ _
  · exact plain_positional _ _

/-- **The text of a finite number without a sign is plain.** -/
theorem plain_text {x : Float} {p : Parts} (hp : parts? x = some p) (hs : p.negative = false) :
    IsPlain (text x).toList := by
  rw [text, hp]
  simp only [hs, Bool.false_and, Bool.false_eq_true, if_false, String.toList_ofList]
  exact plain_partsText p

end Number

namespace Token

/-- Nothing at the beginning of a text can belong to a number before it. -/
structure EndsNumber (text : List Char) : Prop where
  digits : text.takeWhile Char.isDigit = []
  point : text.head? ≠ some '.'
  exponent : exponentLexeme text = []

/-- A plain text is read whole. -/
theorem numberLexeme_plain {text rest : List Char} (h : Number.IsPlain text)
    (hrest : EndsNumber rest) : numberLexeme (text ++ rest) = text := by
  have hread : ∀ {digits : List Char} {behind : List Char}, digits.all Char.isDigit = true →
      behind.takeWhile Char.isDigit = [] →
        (digits ++ behind).takeWhile Char.isDigit = digits ∧
          (digits ++ behind).dropWhile Char.isDigit = behind := by
    intro digits behind hd hb
    have hall := List.all_eq_true.1 hd
    have hdrop : behind.dropWhile Char.isDigit = behind := by
      have h := List.takeWhile_append_dropWhile (p := Char.isDigit) (l := behind)
      rwa [hb, List.nil_append] at h
    rw [List.takeWhile_append_of_pos hall, List.dropWhile_append_of_pos hall, hb, hdrop,
      List.append_nil]
    exact ⟨rfl, rfl⟩
  cases h with
  | whole hne hd =>
      obtain ⟨htake, hdrop⟩ := hread hd hrest.digits
      simp only [numberLexeme, htake, hdrop]
      split
      · exact absurd rfl hrest.point
      · simp [hrest.exponent]
  | @pointed digits places hne hd hp =>
      have hpoint : ('.' :: (places ++ rest)).takeWhile Char.isDigit = [] :=
        List.takeWhile_cons_of_neg (by decide)
      obtain ⟨htake, hdrop⟩ := hread hd hpoint
      rw [List.append_assoc, List.cons_append]
      simp only [numberLexeme, htake, hdrop, (hread hp hrest.digits).1]
      rw [List.length_cons, List.drop_succ_cons, List.drop_left, hrest.exponent, List.append_nil]

/-- A plain text starts a number. -/
theorem startsNumber_plain {text : List Char} (h : Number.IsPlain text) (rest : List Char) :
    ∃ c behind, text = c :: behind ∧ c.isDigit = true ∧
      startsNumber (c :: (behind ++ rest)) = true := by
  have hstart : ∀ {c : Char} {behind : List Char}, c.isDigit = true →
      startsNumber (c :: behind) = true := by
    intro c behind hc
    unfold startsNumber
    split
    · rename_i heq
      cases heq
      exact absurd hc (by decide)
    · rename_i heq
      cases heq
      exact hc
    · rename_i heq
      cases heq
  cases h with
  | whole hne hd =>
      obtain ⟨c, behind, rfl⟩ := List.exists_cons_of_ne_nil hne
      have hc : c.isDigit = true := List.all_eq_true.1 hd c List.mem_cons_self
      exact ⟨c, behind, rfl, hc, hstart hc⟩
  | @pointed digits places hne hd hp =>
      obtain ⟨c, behind, rfl⟩ := List.exists_cons_of_ne_nil hne
      have hc : c.isDigit = true := List.all_eq_true.1 hd c List.mem_cons_self
      exact ⟨c, behind ++ '.' :: places, rfl, hc, hstart hc⟩

end Token

end Gamebook
