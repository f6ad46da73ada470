/-
**Numbers as integers times powers of two.**

Story numbers are IEEE double-precision floats.  Where their exact value matters (printing,
reading, remainders) a finite number is taken apart into a sign and a value
`significand * 2 ^ exponent`, on which exact integer arithmetic works; the way back rounds a
quotient of integers to the nearest double, a tie going to the even one.

Main definitions:

* `Number.Parts`, `Number.parts?` — a finite number taken apart;
* `Number.nearestBits`, `Number.nearest` — the double nearest to a quotient;
* `Number.remainder` — the remainder of a division that rounds its quotient toward zero.

Main results:

* `Number.halfEven_dist` — rounding a quotient to an integer is off by at most one half;
* `Number.halfEven_tie` — a quotient halfway between two integers goes to the even one.
-/

set_option relaxedAutoImplicit false
set_option autoImplicit false

namespace Gamebook.Number

/-! ### Taking a number apart -/

/-- A finite number: its sign and its magnitude `significand * 2 ^ exponent`. -/
structure Parts where
  negative : Bool
  significand : Nat
  exponent : Int
  deriving DecidableEq, Repr

/-- The sign bit of `x`. -/
def isNegative (x : Float) : Bool := x.toBits.toNat / Nat.pow 2 63 == 1

/-- Takes a finite number apart; `none` for an infinity and for NaN. -/
def parts? (x : Float) : Option Parts :=
  let bits := x.toBits.toNat
  let fraction := bits % Nat.pow 2 52
  match bits / Nat.pow 2 52 % Nat.pow 2 11 with
  | 0 => some ⟨isNegative x, fraction, -1074⟩
  | 2047 => none
  | biased => some ⟨isNegative x, fraction + Nat.pow 2 52, (biased : Int) - 1075⟩

/-! ### Rounding -/

/-- `num / den` rounded to an integer, a tie going to the even neighbour. -/
def halfEven (num den : Nat) : Nat :=
  let low := num / den
  let twice := 2 * (num % den)
  if twice < den then low
  else if twice > den then low + 1
  else if low % 2 = 0 then low else low + 1

/-- Rounding a quotient to an integer is off by at most one half. -/
theorem halfEven_dist (num den : Nat) (h : 0 < den) :
    2 * num ≤ (2 * halfEven num den + 1) * den ∧ 2 * halfEven num den * den ≤ 2 * num + den := by
  have hd := Nat.div_add_mod num den
  have hm := Nat.mod_lt num h
  have hc := Nat.mul_comm den (num / den)
  simp only [halfEven]
  split
  · constructor <;> grind
  · split
    · constructor <;> grind
    · split <;> constructor <;> grind

/-- A quotient halfway between two integers goes to the even one. -/
theorem halfEven_tie (num den : Nat) (h : 2 * (num % den) = den) :
    halfEven num den % 2 = 0 := by
  simp only [halfEven, h, Nat.lt_irrefl, if_false, gt_iff_lt]
  split <;> omega

/-- The bits of the double nearest to `num / den`, a tie going to the even one; past the largest
finite double, those of infinity. -/
def nearestBits (num den : Nat) : Nat :=
  if num = 0 ∨ den = 0 then 0
  else
    let scale (exponent : Int) : Nat × Nat :=
      if exponent < 0 then (num * Nat.pow 2 exponent.natAbs, den)
      else (num, den * Nat.pow 2 exponent.natAbs)
    -- in these units the quotient has 53 or 54 bits, or fewer close to zero
    let low := max (-1074) ((num.log2 : Int) - den.log2 - 53)
    let (n, d) := scale low
    let exponent := if n / d < Nat.pow 2 53 then low else low + 1
    let (n, d) := scale exponent
    min ((exponent + 1074).toNat * Nat.pow 2 52 + halfEven n d) (2047 * Nat.pow 2 52)

/-- The double nearest to `num / den`, with the given sign. -/
def nearest (negative : Bool) (num den : Nat) : Float :=
  Float.ofBits (UInt64.ofNat (nearestBits num den + if negative then Nat.pow 2 63 else 0))

/-- The double nearest to a natural number. -/
def ofNat (n : Nat) : Float := nearest false n 1

/-! ### Remainders -/

/-- `significand * 2 ^ exponent` as a number. -/
def Parts.toFloat (p : Parts) : Float :=
  if p.exponent < 0 then nearest p.negative p.significand (Nat.pow 2 p.exponent.natAbs)
  else nearest p.negative (p.significand * Nat.pow 2 p.exponent.natAbs) 1

/-- The magnitude of `p` in units of `2 ^ unit`, for a `unit` not above its exponent. -/
def Parts.inUnits (p : Parts) (unit : Int) : Nat :=
  p.significand * Nat.pow 2 (p.exponent - unit).toNat

/-- Not a number. -/
def nan : Float := 0.0 / 0.0

/-- Infinity. -/
def infinity : Float := 1.0 / 0.0

/-- What is left of `x` after taking away `y` as often as it fits, toward zero.  The remainder has
the sign of `x` and is exact. -/
def remainder (x y : Float) : Float :=
  match parts? x, parts? y with
  | some p, some q =>
      if q.significand = 0 then nan
      else
        let unit := min p.exponent q.exponent
        Parts.toFloat ⟨p.negative, p.inUnits unit % q.inUnits unit, unit⟩
  | some _, none => if y.isNaN then nan else x
  | none, _ => nan

end Gamebook.Number
