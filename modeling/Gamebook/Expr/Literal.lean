/-
**Literals, and the variable that a text names first.**

A value that is kept between readings is kept as the source of an expression.

Main definitions:

* `Value.literal?` — a value as the source of an expression;
* `Expr.firstVariable?` — the first variable that a text names.
-/

import Gamebook.Value
import Gamebook.Text.Word

set_option relaxedAutoImplicit false
set_option autoImplicit false

namespace Gamebook

/-- How one character stands in a string literal. -/
def Value.literalChar (c : Char) : List Char :=
  if c = '"' ∨ c = '\\' then ['\\', c] else if c = '\n' then ['\\', 'n'] else [c]

/-- The value as the source of an expression; undefined has none. -/
def Value.literal? : Value → Option String
  | .str s => some (String.ofList ('"' :: (s.toList.flatMap Value.literalChar ++ ['"'])))
  | .num n => some (Value.num n).text
  | .bool b => some (Value.bool b).text
  | .undefined => none

/-- The first variable that a text names, without its sign: the word characters behind the first
`$` that has any. -/
def Expr.firstVariable? : List Char → Option (List Char)
  | [] => none
  | c :: rest =>
      let name := rest.takeWhile Text.isWord
      if c = '$' ∧ name ≠ [] then some name else firstVariable? rest

end Gamebook
