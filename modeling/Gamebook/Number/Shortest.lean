/-
**The fewest digits that read back.**

Every double has an interval of reals that round to it.  Its shortest decimal is the one with the
fewest significant digits that lies in this interval; of two with as many digits the nearer one,
and of two equally near the larger.

All of it is exact integer arithmetic: the number, the ends of its interval and the decimal grid
are written in one unit, a power of ten fine enough for all of them.

Main definitions:

* `Number.Span` — a number and its interval in units of `10 ^ unit`;
* `Number.Span.pick?` — the point of a decimal grid chosen for a number, if one reads back;
* `Number.shortest` — the digits and the power of ten of the shortest decimal.
-/

import Gamebook.Number.Binary

set_option relaxedAutoImplicit false
set_option autoImplicit false

namespace Gamebook.Number

/-- A positive number with the ends of the interval of reals that round to it, all in units of
`10 ^ unit`.  The ends belong to the interval if `closed`. -/
structure Span where
  low : Nat
  value : Nat
  high : Nat
  unit : Int
  closed : Bool

/-- The interval of reals that round to `significand * 2 ^ exponent`.  Below a power of two the
doubles lie twice as close, so there the lower end is nearer. -/
def Parts.span (p : Parts) : Span :=
  let quarter := p.exponent - 2
  let gap := if p.significand = Nat.pow 2 52 ∧ p.exponent > -1074 then 1 else 2
  let factor := if quarter < 0 then Nat.pow 5 quarter.natAbs else Nat.pow 2 quarter.natAbs
  { low := (4 * p.significand - gap) * factor
    value := 4 * p.significand * factor
    high := (4 * p.significand + 2) * factor
    unit := min quarter 0
    closed := p.significand % 2 == 0 }

/-- Whether `n` lies in the interval. -/
def Span.contains (s : Span) (n : Nat) : Bool :=
  if s.closed then s.low ≤ n && n ≤ s.high else s.low < n && n < s.high

/-- The multiple of `grid` chosen for the number, divided by `grid`: of its two neighbours the
one that reads back, of two such the nearer, of two equally near the larger. -/
def Span.pick? (s : Span) (grid : Nat) : Option Nat :=
  let below := s.value / grid
  match s.contains (below * grid), s.contains ((below + 1) * grid) with
  -- both neighbours read back: the nearer, or the larger of two equally near
  | true, true => some (if 2 * (s.value % grid) < grid then below else below + 1)
  | true, false => some below
  | false, true => some (below + 1)
  | false, false => none

/-- Tries the grids from the coarsest on; `more` digits after the first have been left out. -/
def Span.search (s : Span) : Nat → Nat × Int
  | 0 => (s.value, s.unit)
  | more + 1 =>
      match s.pick? (Nat.pow 10 (more + 1)) with
      | some digits => (digits, s.unit + (more + 1 : Nat))
      | none => s.search more

/-- Moves the zeros that `digits` ends with into the power of ten, at most `fuel` of them. -/
def dropZeros : Nat → Nat → Int → Nat × Int
  | 0, digits, power => (digits, power)
  | fuel + 1, digits, power =>
      if digits % 10 = 0 then dropZeros fuel (digits / 10) (power + 1) else (digits, power)

/-- The shortest decimal `digits * 10 ^ power` that reads back as the positive number `p`. -/
def shortest (p : Parts) : Nat × Int :=
  let s := p.span
  let found := s.search ((Nat.toDigits 10 s.value).length - 1)
  dropZeros (Nat.toDigits 10 found.1).length found.1 found.2

end Gamebook.Number
