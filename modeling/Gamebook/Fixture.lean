/-
**Small stories for trying things out.**

Main definitions:

* `Fixture`, `Fixture.build` — a few passages, numbered as they are added, and their story;
* `Fixture.renderText`, `Fixture.renderHtml` — a text rendered in an otherwise empty story;
* `Story.findLink?`, `Story.reads`, `Story.isAt`, `Story.holds` — what a story shows.
-/

import Gamebook.Story.Reading

set_option relaxedAutoImplicit false
set_option autoImplicit false

namespace Gamebook

/-- A few passages and what their story starts from. -/
structure Fixture where
  records : List Record := []
  config : Config := {}
  jar : Jar := .empty
  address : Option String := none

namespace Fixture

/-- Adds a passage.  Passages are numbered from 1 in the order in which they are added. -/
def addPassage (f : Fixture) (title text : String) (tags : List String) : Fixture :=
  let order := UInt32.ofNat (f.records.length + 1)
  { f with records := f.records ++ [{ title, text, tags, order }] }

/-- The story, not begun yet. -/
def build (f : Fixture) (now : Nat) : Story :=
  .new (.ofRecords f.records) f.config f.jar { address := f.address.getD "" } now

/-- The story, begun. -/
def begun (f : Fixture) (now : Nat) : Story := (f.build now).start.2

/-- A text rendered in a story that has nothing but an empty start passage. -/
def renderNodes (text : String) (now : Nat) : List Node :=
  (((({} : Fixture).addPassage "Start" "" []).begun now).renderSource text).1

/-- What a text says. -/
def renderText (text : String) (now : Nat) : String := Node.textContent (renderNodes text now)

/-- A text as HTML. -/
def renderHtml (text : String) (now : Nat) : String := Node.toHtml (renderNodes text now)

end Fixture

/-- Whether a link leads to a passage of this title, as an action or not. -/
def Link.leadsTo (title : String) : Link → Bool
  | passage t _ => t == title
  | action t _ => t == title
  | external _ => false
  | back _ => false

/-- Whether a link leads to an earlier point of the reading. -/
def Link.isBack : Link → Bool
  | back _ => true
  | _ => false

namespace Story

/-- The first link that a passage shows to a title. -/
def findLink? (s : Story) (title : String) : Option Link :=
  s.current.bind fun r => r.links.find? (Link.leadsTo title)

/-- The first link that a passage shows to an earlier point of the reading. -/
def findBackLink? (s : Story) : Option Link := s.current.bind fun r => r.links.find? Link.isBack

/-- Whether the passage shown says just this. -/
def reads (s : Story) (text : String) : Bool := (s.current.map Rendered.text).getD "" == text

/-- Whether the passage shown has this title. -/
def isAt (s : Story) (title : String) : Bool := s.current.map Rendered.title == some title

/-- Whether a variable has this value at the current point of the reading. -/
def holds (s : Story) (name : String) (value : Value) : Bool :=
  (s.history.vars.get name).strictEq value

end Story

end Gamebook
