/-
**What a story asks of its host.**

The host has an address, which carries the token of the reading, and a document title; it can start
the story over and bring the top of a passage into view.

Main definitions:

* `Request`, `Navigator` — what a host is asked to do, and a host: its address and what it was asked
  so far;
* `Navigator.title`, `Navigator.reloads`, `Navigator.focuses` — what has come of the requests;
* `isEmptyAddress` — whether an address carries no reading;
* `PollOutcome` — what a look at the address found.
-/

set_option relaxedAutoImplicit false
set_option autoImplicit false

namespace Gamebook

/-- What a host is asked to do. -/
inductive Request where
  /-- To write the address. -/
  | address (token : String)
  /-- To write the title of the document. -/
  | title (title : String)
  /-- To bring the top of a passage into view. -/
  | focus
  /-- To start the story over. -/
  | reload
  deriving DecidableEq, Repr

/-- The title that a request writes. -/
def Request.title? : Request → Option String
  | title t => some t
  | _ => none

/-- The address of a host, and all that it was asked to do, the latest first. -/
structure Navigator where
  address : String := ""
  requests : List Request := []
  deriving DecidableEq, Repr

namespace Navigator

instance : Inhabited Navigator := ⟨{}⟩

/-- Notes a request. -/
def note (n : Navigator) (r : Request) : Navigator := { n with requests := r :: n.requests }

/-- Writes the address. -/
def setAddress (n : Navigator) (address : String) : Navigator :=
  { n.note (.address address) with address := address }

/-- Writes the title of the document. -/
def setTitle (n : Navigator) (title : String) : Navigator := n.note (.title title)

/-- Asks the host to start the story over. -/
def requestReload (n : Navigator) : Navigator := n.note .reload

/-- Asks the host to bring the top of the passage into view. -/
def focusTop (n : Navigator) : Navigator := n.note .focus

/-- The title of the document. -/
def title (n : Navigator) : String := (n.requests.findSome? Request.title?).getD ""

/-- How often the host was asked to start over. -/
def reloads (n : Navigator) : Nat := n.requests.count .reload

/-- How often the host was asked to bring the top of a passage into view. -/
def focuses (n : Navigator) : Nat := n.requests.count .focus

end Navigator

/-- Whether an address carries no reading. -/
def isEmptyAddress (address : String) : Bool := address == "" || address == "#"

/-- What a look at the address found. -/
inductive PollOutcome where
  | unchanged
  /-- The reading that the address carries was restored. -/
  | restored (token : String)
  | restoreFailed (token reason : String)
  /-- The address was emptied, and the host was asked to start over. -/
  | reloadRequested
  deriving DecidableEq, Repr

/-- Whether the address had changed. -/
def PollOutcome.changed (o : PollOutcome) : Bool := o != .unchanged

end Gamebook
