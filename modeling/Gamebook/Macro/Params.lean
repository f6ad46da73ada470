/-
**Parameters of macro calls.**

The arguments of a macro call are a row of parameters with blanks between them: between quotes of
either kind, between double brackets, or bare.  Empty parameters do not count, and a quote that no
other closes is passed over.

Main definitions:

* `Params.param?` — the parameter that a text starts with;
* `Params.read` — the parameters of a text.
-/

import Gamebook.Text.Blank
import Gamebook.Text.Pieces

set_option relaxedAutoImplicit false
set_option autoImplicit false

namespace Gamebook.Params

/-- The text between the mark `quote` that was just read and the next one, and the length of both
marks and what stands between them. -/
def quoted? (quote : Char) (text : List Char) : Option (List Char × Nat) :=
  let body := text.takeWhile (· != quote)
  if body.length < text.length then some (body, body.length + 2) else none

/-- A bare parameter and its length. -/
def bare? (text : List Char) : Option (List Char × Nat) :=
  let word := text.takeWhile fun c => !Text.isBlank c
  if word = [] then none else some (word, word.length)

/-- The parameter that a text starts with, and its length. -/
def param? (text : List Char) : Option (List Char × Nat) :=
  match text with
  | '"' :: rest => quoted? '"' rest
  | '\'' :: rest => quoted? '\'' rest
  -- brackets that are not closed twice are no brackets
  | '[' :: '[' :: rest =>
      let body := rest.takeWhile (· != ']')
      match rest.drop body.length with
      | ']' :: ']' :: _ => some (body, body.length + 4)
      | _ => bare? text
  | _ => bare? text

/-- The parameters of a text. -/
def read (text : List Char) : List (List Char) :=
  (Text.collect param? text).filter (· != [])

end Gamebook.Params
