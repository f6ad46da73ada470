/-
**The variables of one point in a reading.**

Each point in the reader's history owns its variables, by name, and the set of one-shot actions
that were followed from it.

Main definitions:

* `Variables` — the values by name and the actions followed;
* `Variables.get`, `Variables.set` — reading and writing a variable;
* `Variables.isClicked`, `Variables.click` — the actions followed.

Main results:

* `Variables.get_set` — a write is seen under its own name and under no other.
-/

import Gamebook.Dict
import Gamebook.Value

set_option relaxedAutoImplicit false
set_option autoImplicit false

namespace Gamebook

/-- The variables of one point in a reading and the titles of the one-shot actions followed from
it. -/
structure Variables where
  values : Dict Value := .empty
  clicked : Dict Unit := .empty
  deriving DecidableEq

instance : Inhabited Variables := ⟨{}⟩

namespace Variables

/-- The value of a variable; a name that was never set reads as undefined. -/
def get (vars : Variables) (name : String) : Value := (vars.values.get? name).getD .undefined

/-- Gives a variable a value. -/
def set (vars : Variables) (name : String) (value : Value) : Variables :=
  { vars with values := vars.values.insert name value }

/-- Whether a variable was ever set. -/
def contains (vars : Variables) (name : String) : Bool := vars.values.contains name

/-- Whether the action `title` was followed from here. -/
def isClicked (vars : Variables) (title : String) : Bool := vars.clicked.contains title

/-- Notes that the action `title` was followed from here. -/
def click (vars : Variables) (title : String) : Variables :=
  { vars with clicked := vars.clicked.insert title () }

/-- A write is seen under its own name and under no other. -/
theorem get_set (vars : Variables) (name other : String) (value : Value) :
    (vars.set name value).get other = if other = name then value else vars.get other := by
  simp only [get, set, Dict.get?_insert]
  split <;> rfl

@[simp] theorem clicked_set (vars : Variables) (name : String) (value : Value) :
    (vars.set name value).clicked = vars.clicked := rfl

end Variables

end Gamebook
