/-
**Evaluating expressions.**

Evaluation reads and writes the variables of one point in a reading.  It cannot fail: an operation
on operands of the wrong kind turns them into numbers, or into strings if one of them is a string
and they are added.

Main definitions:

* `BinaryOp.apply`, `UnaryOp.apply` — the operations on values;
* `Expr.eval` — the value of an expression and the variables afterwards;
* `Expr.evaluate` — the same for the source of an expression.
-/

import Gamebook.Expr.Parse
import Gamebook.Variables

set_option relaxedAutoImplicit false
set_option autoImplicit false

namespace Gamebook

/-- The sum of two values: their texts in a row if one of them is a string, else their sum as
numbers. -/
def Value.add : Value → Value → Value
  | .str a, b => .str (a ++ b.text)
  | a, .str b => .str (a.text ++ b)
  | a, b => .num (a.toNumber + b.toNumber)

/-- The value of an operation on two values. -/
def BinaryOp.apply (op : BinaryOp) (l r : Value) : Value :=
  match op with
  | .add => l.add r
  | .sub => .num (l.toNumber - r.toNumber)
  | .mul => .num (l.toNumber * r.toNumber)
  | .div => .num (l.toNumber / r.toNumber)
  | .rem => .num (Number.remainder l.toNumber r.toNumber)
  | .eq => .bool (l.looseEq r)
  | .notEq => .bool (!l.looseEq r)
  | .strictEq => .bool (l.strictEq r)
  | .strictNotEq => .bool (!l.strictEq r)
  | .relation order => .bool (Value.holds order l r)

/-- The value of an operation on one value. -/
def UnaryOp.apply (op : UnaryOp) (v : Value) : Value :=
  match op with
  | .not => .bool (!v.isTruthy)
  | .neg => .num (-v.toNumber)
  | .plus => .num v.toNumber

namespace Expr

mutual

/-- The value of an expression, and the variables after its assignments. -/
def eval : Expr → Variables → Value × Variables
  | .lit v, vars => (v, vars)
  | .var name, vars => (vars.get name, vars)
  | .unary op operand, vars =>
      let (v, vars) := eval operand vars
      (op.apply v, vars)
  | .binary op left right, vars =>
      let (l, vars) := eval left vars
      let (r, vars) := eval right vars
      (op.apply l r, vars)
  | .and left right, vars =>
      let (l, vars) := eval left vars
      if l.isTruthy then eval right vars else (l, vars)
  | .or left right, vars =>
      let (l, vars) := eval left vars
      if l.isTruthy then (l, vars) else eval right vars
  | .assign name op value, vars =>
      let (r, vars) := eval value vars
      -- the value before the assignment is read only now, after the operand
      let result := match op with
        | some op => op.apply (vars.get name) r
        | none => r
      (result, vars.set name result)
  | .sequence items, vars => evalItems items .undefined vars

/-- Evaluates the items of a sequence in turn; the value is that of the last, or `value` if there
are none. -/
def evalItems : List Expr → Value → Variables → Value × Variables
  | [], value, vars => (value, vars)
  | item :: items, _, vars =>
      let (value, vars) := eval item vars
      evalItems items value vars

end

/-- The value of an expression given by its source, and the variables afterwards.  Nothing is
assigned if the source is no expression. -/
def evaluateChars (source : List Char) (vars : Variables) :
    Except ExprError (Value × Variables) :=
  match parseChars source with
  | .error e => .error e
  | .ok e => .ok (e.eval vars)

/-- The value of an expression given by its source, and the variables afterwards. -/
def evaluate (source : String) (vars : Variables) : Except ExprError (Value × Variables) :=
  evaluateChars source.toList vars

end Expr

end Gamebook
