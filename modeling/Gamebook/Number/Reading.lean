/-
**Reading a number.**

A number is written as an optional sign and then either one of the words `inf`, `infinity`, `nan`
in any case, or digits with at most one point and an optional exponent, with a digit on at least
one side of the point.  The number read is the double nearest to the decimal.

Main definitions:

* `Number.Decimal` — a written magnitude `digits * 10 ^ power`;
* `Number.Decimal.ofChars?` — the grammar of magnitudes;
* `Number.read?` — the number that a text stands for.
-/

import Gamebook.Number.Binary

set_option relaxedAutoImplicit false
set_option autoImplicit false

namespace Gamebook.Number

/-- The value of a row of decimal digits. -/
def ofDigits (digits : List Char) : Nat :=
  digits.foldl (fun n c => 10 * n + (c.toNat - '0'.toNat)) 0

/-- A written magnitude: `digits * 10 ^ power`. -/
structure Decimal where
  digits : Nat
  power : Int
  deriving DecidableEq

/-- The exponent that a text consists of: nothing, or an `e` with a signed row of digits. -/
def exponent? : List Char → Option Int
  | [] => some 0
  | mark :: rest =>
      if mark != 'e' && mark != 'E' then none
      else
        let (negative, digits) := match rest with
          | '-' :: digits => (true, digits)
          | '+' :: digits => (false, digits)
          | digits => (false, digits)
        if digits.isEmpty || !digits.all Char.isDigit then none
        else some (if negative then -(ofDigits digits : Int) else ofDigits digits)

/-- Reads a magnitude: digits with at most one point, and an optional exponent. -/
def Decimal.ofChars? (text : List Char) : Option Decimal :=
  let whole := text.takeWhile Char.isDigit
  let (places, rest) := match text.dropWhile Char.isDigit with
    | '.' :: rest => (rest.takeWhile Char.isDigit, rest.dropWhile Char.isDigit)
    | rest => ([], rest)
  if whole.isEmpty && places.isEmpty then none
  else (exponent? rest).map fun e => ⟨ofDigits (whole ++ places), e - places.length⟩

/-- The double nearest to the decimal.  Powers that leave the range of doubles for certain are not
worked out. -/
def Decimal.toFloat (d : Decimal) (negative : Bool) : Float :=
  -- the decimal lies between `10 ^ (top - 1)` and `10 ^ top`
  let top := (Nat.toDigits 10 d.digits).length + d.power
  if d.digits = 0 || top < -330 then nearest negative 0 1
  else if top > 310 then (if negative then -infinity else infinity)
  else if d.power < 0 then nearest negative d.digits (Nat.pow 10 d.power.natAbs)
  else nearest negative (d.digits * Nat.pow 10 d.power.natAbs) 1

/-- The number that `text` stands for, if it is written as one. -/
def read? (text : List Char) : Option Float :=
  let (negative, rest) := match text with
    | '-' :: rest => (true, rest)
    | '+' :: rest => (false, rest)
    | rest => (false, rest)
  let word := String.ofList (rest.map Char.toLower)
  if word = "nan" then some nan
  else if word = "inf" || word = "infinity" then some (if negative then -infinity else infinity)
  else (Decimal.ofChars? rest).map fun d => d.toFloat negative

end Gamebook.Number
