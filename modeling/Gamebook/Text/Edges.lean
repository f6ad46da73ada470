/-
**Sets of characters given by their edges.**

A class of characters of a text standard is a union of intervals of code points.  It is written
down here as the ascending list of its *edges*: the code points at which membership changes.  A
code point lies in the class exactly when an odd number of edges lie at or below it.

Main definitions:

* `Text.insideEdges` — membership of a code point in a class given by its edges.

Main results:

* `Text.insideEdges_of_lt` — below the first edge nothing belongs to the class;
* `Text.insideEdges_cons` — **passing an edge changes membership**.
-/

set_option relaxedAutoImplicit false
set_option autoImplicit false

namespace Gamebook.Text

/-- Whether `code` lies in the class with the given edges: an odd number of them is at or below
it. -/
def insideEdges (code : Nat) : List Nat → Bool
  | [] => false
  | edge :: edges => if edge ≤ code then !insideEdges code edges else false

/-- Below the first edge nothing belongs to the class. -/
theorem insideEdges_of_lt (code edge : Nat) (edges : List Nat) (h : code < edge) :
    insideEdges code (edge :: edges) = false := by
  simp [insideEdges, Nat.not_le.mpr h]

/-- Passing an edge changes membership. -/
theorem insideEdges_cons (code edge : Nat) (edges : List Nat) (h : edge ≤ code) :
    insideEdges code (edge :: edges) = !insideEdges code edges := by
  simp [insideEdges, h]

end Gamebook.Text
