/-
**Expressions over story variables.**

An expression reads and assigns the variables of one point in a reading and computes a value.  It
can reach nothing else: there are no calls, no properties and no names but the variables.

Main definitions:

* `Expr` — literals, variables, the operators, assignment and sequences;
* `ExprError`, `ExprError.message` — what can be wrong with the source of an expression.
-/

import Gamebook.Value

set_option relaxedAutoImplicit false
set_option autoImplicit false

namespace Gamebook

/-- An operator written before its operand. -/
inductive UnaryOp where
  | not
  | neg
  | plus
  deriving DecidableEq, Repr

/-- An operator between two operands that are both always evaluated. -/
inductive BinaryOp where
  | add
  | sub
  | mul
  | div
  | rem
  | eq
  | notEq
  | strictEq
  | strictNotEq
  | relation (r : Value.Relation)
  deriving DecidableEq, Repr

/-- An expression. -/
inductive Expr where
  | lit (value : Value)
  | var (name : String)
  | unary (op : UnaryOp) (operand : Expr)
  | binary (op : BinaryOp) (left right : Expr)
  | and (left right : Expr)
  | or (left right : Expr)
  /-- `$name = value`, or with an operator `$name op= value`. -/
  | assign (name : String) (op : Option BinaryOp) (value : Expr)
  /-- All items in turn; the value is that of the last. -/
  | sequence (items : List Expr)

instance : Inhabited Expr := ⟨.lit .undefined⟩

/-- What is wrong with the source of an expression.  Positions are byte offsets. -/
inductive ExprError where
  | unterminatedString (offset : Nat)
  | invalidNumber (text : String)
  | unexpectedChar (ch : Char) (offset : Nat)
  | unexpectedToken (found : String) (offset : Nat)
  | unexpectedEnd
  | empty
  | unknownIdentifier (word : String) (offset : Nat)
  | invalidAssignmentTarget (offset : Nat)
  deriving DecidableEq, Repr

namespace ExprError

/-- The text of an error. -/
def message : ExprError → String
  | unterminatedString offset => "unterminated string starting at " ++ toString offset
  | invalidNumber text => "invalid number: " ++ text
  | unexpectedChar ch offset =>
      "unexpected character '" ++ String.singleton ch ++ "' at " ++ toString offset
  | unexpectedToken found offset => "unexpected " ++ found ++ " at " ++ toString offset
  | unexpectedEnd => "unexpected end of expression"
  | empty => "empty expression"
  | unknownIdentifier word _ => word ++ " is not defined"
  | invalidAssignmentTarget offset => "invalid assignment target at " ++ toString offset

/-- The position that an error names. -/
def offset? : ExprError → Option Nat
  | unterminatedString offset => some offset
  | unexpectedChar _ offset => some offset
  | unexpectedToken _ offset => some offset
  | unknownIdentifier _ offset => some offset
  | invalidAssignmentTarget offset => some offset
  | invalidNumber _ => none
  | unexpectedEnd => none
  | empty => none

end ExprError

end Gamebook
