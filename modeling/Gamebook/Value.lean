/-
**Values of story variables.**

A variable holds a truth value, a number or a string; a name that was never set reads as
undefined.  Values of different kinds meet in one expression, so each kind has a truth value, a
number and a text of its own.

Main definitions:

* `Value` — the four kinds;
* `Value.isTruthy`, `Value.toNumber`, `Value.text` — a value as a truth value, a number, a text;
* `Value.looseEq`, `Value.strictEq`, `Value.holds` — the comparisons.
-/

import Gamebook.Number.Printing
import Gamebook.Number.Reading
import Gamebook.Text.Blank

set_option relaxedAutoImplicit false
set_option autoImplicit false

namespace Gamebook

/-- A value of a story variable. -/
inductive Value where
  | bool (b : Bool)
  | num (n : Float)
  | str (s : String)
  | undefined
  deriving DecidableEq

instance : Inhabited Value := ⟨.undefined⟩

namespace Value

/-- The name of a value's kind in messages. -/
def kind : Value → String
  | .bool _ => "boolean"
  | .num _ => "number"
  | .str _ => "string"
  | .undefined => "undefined"

/-- The value as a condition: false, zero, NaN, the empty string and undefined do not hold. -/
def isTruthy : Value → Bool
  | .bool b => b
  | .num n => n != 0 && !n.isNaN
  | .str s => !s.isEmpty
  | .undefined => false

/-- The number that a string stands for; a blank string is zero, and one that is no number is
NaN. -/
def numberOfText (s : String) : Float :=
  let trimmed := Text.trim s.toList
  if trimmed.isEmpty then 0 else (Number.read? trimmed).getD Number.nan

/-- The value as a number. -/
def toNumber : Value → Float
  | .bool b => if b then 1 else 0
  | .num n => n
  | .str s => numberOfText s
  | .undefined => Number.nan

/-- The value as a reader sees it. -/
def text : Value → String
  | .bool b => if b then "true" else "false"
  | .num n => Number.text n
  | .str s => s
  | .undefined => "undefined"

/-- Equality across kinds: undefined equals only itself, two strings are compared as they stand,
and any other two values as numbers. -/
def looseEq : Value → Value → Bool
  | .undefined, .undefined => true
  | .undefined, _ => false
  | _, .undefined => false
  | .str a, .str b => a == b
  | .bool a, .bool b => a == b
  | a, b => a.toNumber == b.toNumber

/-- Equality within a kind. -/
def strictEq : Value → Value → Bool
  | .num a, .num b => a == b
  | .str a, .str b => a == b
  | .bool a, .bool b => a == b
  | .undefined, .undefined => true
  | _, _ => false

/-- An order between two values. -/
inductive Relation where
  | less
  | lessEq
  | greater
  | greaterEq
  deriving DecidableEq, Repr

/-- Whether two values stand in an order.  Two strings are compared character by character and
any other two values as numbers; with NaN on either side nothing holds. -/
def holds (relation : Relation) : Value → Value → Bool
  | .str a, .str b =>
      match relation with
      | .less => a < b
      | .lessEq => a ≤ b
      | .greater => b < a
      | .greaterEq => b ≤ a
  | a, b =>
      match relation with
      | .less => a.toNumber < b.toNumber
      | .lessEq => a.toNumber ≤ b.toNumber
      | .greater => b.toNumber < a.toNumber
      | .greaterEq => b.toNumber ≤ a.toNumber

end Value

end Gamebook
