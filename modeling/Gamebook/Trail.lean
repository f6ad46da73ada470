/-
**The token that resumes a reading.**

A reading is resumed from the ids of the passages read, oldest first.  Their token is a `#` and
behind it the ids in base 36, with points between them.  Any case and any leading zeros are read.

Main definitions:

* `Trail.digits`, `Trail.value?` — a number in base 36, and back;
* `Trail.encode` — the token of a list of ids;
* `Trail.decode` — the ids of a token, or what is wrong with it.
-/

set_option relaxedAutoImplicit false
set_option autoImplicit false

namespace Gamebook

/-- What is wrong with a token. -/
inductive TrailError where
  | missingMarker
  | emptySegment (position : Nat)
  | invalidId (segment : String)
  deriving DecidableEq, Repr

/-- The text of an error. -/
def TrailError.message : TrailError → String
  | missingMarker => "token does not start with '#'"
  | emptySegment position => "empty id at position " ++ toString position
  | invalidId segment => "invalid passage id \"" ++ segment ++ "\""

namespace Trail

/-! ### Base 36 -/

/-- The digit of a number below 36. -/
def digit (n : Nat) : Char :=
  if n < 10 then Char.ofNat ('0'.toNat + n) else Char.ofNat ('a'.toNat + (n - 10))

/-- The digits of a number in base 36, the first one first. -/
def digits (n : Nat) : List Char :=
  if n < 36 then [digit n] else digits (n / 36) ++ [digit (n % 36)]

/-- The value of a digit, a letter in either case. -/
def digitValue? (c : Char) : Option Nat :=
  if '0' ≤ c ∧ c ≤ '9' then some (c.toNat - '0'.toNat)
  else if 'a' ≤ c ∧ c ≤ 'z' then some (c.toNat - 'a'.toNat + 10)
  else if 'A' ≤ c ∧ c ≤ 'Z' then some (c.toNat - 'A'.toNat + 10)
  else none

/-- The value of a row of digits read behind digits of value `high`. -/
def valueFrom? (high : Nat) : List Char → Option Nat
  | [] => some high
  | c :: cs =>
      match digitValue? c with
      | some d => valueFrom? (36 * high + d) cs
      | none => none

/-- The value of a row of digits. -/
def value? (segment : List Char) : Option Nat := valueFrom? 0 segment

/-! ### Tokens -/

/-- The segments of a text between points. -/
def segments : List Char → List (List Char)
  | [] => [[]]
  | c :: cs =>
      if c = '.' then [] :: segments cs
      else
        match segments cs with
        | segment :: rest => (c :: segment) :: rest
        | [] => [[c]]

/-- Segments with points between them. -/
def join : List (List Char) → List Char
  | [] => []
  | [segment] => segment
  | segment :: rest => segment ++ '.' :: join rest

/-- The token of a list of ids. -/
def encode (ids : List UInt32) : String :=
  String.ofList ('#' :: join (ids.map fun id => digits id.toNat))

/-- The id that the segment at `position` stands for. -/
def decodeSegment (position : Nat) (segment : List Char) : Except TrailError UInt32 :=
  if segment = [] then .error (.emptySegment position)
  else
    match value? segment with
    | some n =>
        if n < UInt32.size then .ok (UInt32.ofNat n) else .error (.invalidId (String.ofList segment))
    | none => .error (.invalidId (String.ofList segment))

/-- The ids that segments stand for, the first of them at `position`; the leftmost error counts. -/
def decodeSegments (position : Nat) : List (List Char) → Except TrailError (List UInt32)
  | [] => .ok []
  | segment :: rest =>
      match decodeSegment position segment with
      | .error e => .error e
      | .ok id =>
          match decodeSegments (position + 1) rest with
          | .error e => .error e
          | .ok ids => .ok (id :: ids)

/-- The ids of a token.  The marker alone stands for no ids. -/
def decode (token : String) : Except TrailError (List UInt32) :=
  match token.toList with
  | '#' :: [] => .ok []
  | '#' :: body => decodeSegments 0 (segments body)
  | _ => .error .missingMarker

end Trail

end Gamebook
