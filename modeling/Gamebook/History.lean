/-
**The history of a reading.**

The history lists the points of a reading: which passage was shown, with the variables as they
stood while it was.  Every point owns its variables, so a change made at one point does not reach
the points before it.  The first point shows no passage; it holds the variables that the reading
starts with.

Main definitions:

* `Entry` — a point of a reading;
* `History` — the current point and the ones before it, so that a history is never empty;
* `History.push`, `History.withVariables`, `History.start` — the operations;
* `History.ids`, `History.token` — the ids of the passages read, and the token that resumes here.

Main results:

* `History.entries_push` — **a passage read adds one entry** and leaves the others alone;
* `History.ids_push` — and adds its id, if it has one.
-/

import Gamebook.Passage.Basic
import Gamebook.Trail
import Gamebook.Variables

set_option relaxedAutoImplicit false
set_option autoImplicit false

namespace Gamebook

/-- A point of a reading. -/
structure Entry where
  /-- The title of the passage shown; the first point shows none. -/
  title : Option String
  id : Option UInt32
  vars : Variables
  /-- The token that resumes the reading at this point. -/
  token : String
  deriving DecidableEq

/-- The point before any passage is shown. -/
def Entry.opening (vars : Variables) : Entry :=
  { title := none, id := none, vars := vars, token := "" }

/-- Whether no passage is shown at this point. -/
def Entry.isOpening (e : Entry) : Bool := e.title.isNone

/-- The history of a reading: the current point, and the earlier ones from the latest on. -/
structure History where
  current : Entry
  earlier : List Entry := []
  deriving DecidableEq

namespace History

/-- The history of a reading that starts with the given variables. -/
def start (vars : Variables) : History := { current := Entry.opening vars }

instance : Inhabited History := ⟨start {}⟩

/-- All entries, from the current one backwards. -/
def entries (h : History) : List Entry := h.current :: h.earlier

/-- All entries, from the oldest one on. -/
def oldestFirst (h : History) : List Entry := h.entries.reverse

/-- The number of entries. -/
def size (h : History) : Nat := h.entries.length

/-- Whether a passage was shown. -/
def hasPassages (h : History) : Bool := h.entries.any fun e => !e.isOpening

/-- The entry so many steps back from the current one. -/
def get? (h : History) (steps : Nat) : Option Entry := h.entries[steps]?

/-- The ids of the passages read, oldest first. -/
def ids (h : History) : List UInt32 := h.oldestFirst.filterMap Entry.id

/-- The token that resumes the reading at the current entry. -/
def token (h : History) : String := Trail.encode h.ids

/-- The variables of the current entry. -/
def vars (h : History) : Variables := h.current.vars

/-- The history with other variables in the current entry. -/
def withVariables (h : History) (vars : Variables) : History :=
  { h with current := { h.current with vars := vars } }

/-- Notes that an action was followed from the current entry. -/
def click (h : History) (title : String) : History :=
  h.withVariables (h.vars.click title)

/-- Shows a passage: a new entry, with a copy of the variables of the one before. -/
def push (h : History) (p : Passage) : History :=
  { current :=
      { title := some p.title
        id := p.id
        vars := h.vars
        token := Trail.encode (h.ids ++ p.id.toList) }
    earlier := h.entries }

/-! ### What the operations do -/

/-- **A passage read adds one entry** and leaves the others alone. -/
theorem entries_push (h : History) (p : Passage) :
    (h.push p).entries = (h.push p).current :: h.entries := rfl

/-- A passage read adds its id, if it has one. -/
theorem ids_push (h : History) (p : Passage) : (h.push p).ids = h.ids ++ p.id.toList := by
  simp only [ids, oldestFirst, entries_push, List.reverse_cons, List.filterMap_append]
  cases hp : p.id <;> simp [push, hp]

@[simp] theorem ids_withVariables (h : History) (vars : Variables) :
    (h.withVariables vars).ids = h.ids := by
  simp [ids, oldestFirst, entries, withVariables, List.filterMap_cons]

/-- The token of a new entry resumes at it. -/
theorem token_push (h : History) (p : Passage) :
    (h.push p).current.token = (h.push p).token := by
  rw [token, ids_push]
  rfl

end History

end Gamebook
