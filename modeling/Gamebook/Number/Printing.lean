/-
**The text of a number.**

A story shows a number without any exponent.  A whole number below `10 ^ 21` is shown with all its
digits; any other finite number by the fewest digits that read back as it, padded with zeros up to
the point.  Both zeros are shown as `0`.

Main definitions:

* `Number.positional` — a decimal written without an exponent;
* `Number.text` — the text of a number;
* `Number.signedText` — the same, but telling the two zeros apart.
-/

import Gamebook.Number.Shortest

set_option relaxedAutoImplicit false
set_option autoImplicit false

namespace Gamebook.Number

/-- `digits * 10 ^ power` written without an exponent. -/
def positional (digits : Nat) (power : Int) : List Char :=
  let written := Nat.toDigits 10 digits
  if 0 ≤ power then written ++ List.replicate power.natAbs '0'
  else
    let places := power.natAbs
    let padded := List.replicate (places + 1 - written.length) '0' ++ written
    padded.take (padded.length - places) ++ '.' :: padded.drop (padded.length - places)

/-- The magnitude of `p`, if it is a whole number. -/
def Parts.whole? (p : Parts) : Option Nat :=
  let divisor := Nat.pow 2 p.exponent.natAbs
  if 0 ≤ p.exponent then some (p.significand * divisor)
  else if p.significand % divisor = 0 then some (p.significand / divisor)
  else none

/-- The text of the magnitude of a finite number. -/
def Parts.text (p : Parts) : List Char :=
  let fewest := positional (shortest p).1 (shortest p).2
  match p.whole? with
  | some n => if n < Nat.pow 10 21 then Nat.toDigits 10 n else fewest
  | none => fewest

/-- The text of a number. -/
def text (x : Float) : String :=
  match parts? x with
  | some p =>
      String.ofList (if p.negative && p.significand != 0 then '-' :: p.text else p.text)
  | none =>
      if x.isNaN then "NaN" else if isNegative x then "-Infinity" else "Infinity"

/-- The text of a number, with the sign of a negative zero shown. -/
def signedText (x : Float) : String :=
  if x == 0 && isNegative x then "-0" else text x

end Gamebook.Number
