/-
**Scanners.**

A scanner goes through one text and collects the nodes that it renders to.  Beside these it carries
the page: all that rendering may change.

Main definitions:

* `Page`, `Setting` — what a render may change, and what it may only look at;
* `Scanner` — a cursor, the latest mark found, the nodes so far and the page;
* `Scanner.say`, `Scanner.emit`, `Scanner.find` — the steps of a scanner;
* `Scanner.enter`, `Scanner.leave` — counting the renders that are open.
-/

import Gamebook.Config
import Gamebook.History
import Gamebook.Jar.Basic
import Gamebook.Markup.Cursor
import Gamebook.Markup.Node

set_option relaxedAutoImplicit false
set_option autoImplicit false

namespace Gamebook

/-- What a render may change. -/
structure Page where
  store : Store
  /-- The history; the render happens at its current entry. -/
  history : History
  jar : Jar
  /-- The titles of the actions offered so far. -/
  offered : List String := []
  /-- The number of renders that are open, one inside the other. -/
  depth : Nat := 0

namespace Page

/-- The variables of the current entry. -/
def vars (p : Page) : Variables := p.history.vars

/-- The page with other variables in the current entry. -/
def withVariables (p : Page) (vars : Variables) : Page :=
  { p with history := p.history.withVariables vars }

/-- The page inside one more render. -/
def enter (p : Page) : Page := { p with depth := p.depth + 1 }

/-- The page behind the innermost render. -/
def leave (p : Page) : Page := { p with depth := p.depth - 1 }

end Page

/-- What a render may only look at. -/
structure Setting where
  config : Config
  /-- What the keys of remembered values start with. -/
  keyStart : String
  /-- The time, in seconds. -/
  now : Nat

/-- A scanner in a text. -/
structure Scanner where
  cursor : Cursor
  /-- Where the latest mark starts. -/
  foundAt : Cursor
  /-- The latest mark. -/
  found : List Char
  /-- The nodes so far, the latest first. -/
  nodes : List Node
  page : Page

/-- Adds text behind the nodes so far, to the latest node if that is text too. -/
def Node.addText (text : List Char) (nodes : List Node) : List Node :=
  match text, nodes with
  | [], nodes => nodes
  | text, .text s :: nodes => .text (s ++ String.ofList text) :: nodes
  | text, nodes => .text (String.ofList text) :: nodes

namespace Scanner

/-- The scanner at the beginning of a text, with the nodes so far. -/
def start (text : List Char) (nodes : List Node) (page : Page) : Scanner :=
  { cursor := .start text, foundAt := .start text, found := [], nodes := nodes, page := page }

/-- Adds plain text. -/
def say (s : Scanner) (text : List Char) : Scanner := { s with nodes := Node.addText text s.nodes }

/-- Adds a node. -/
def emit (s : Scanner) (node : Node) : Scanner := { s with nodes := node :: s.nodes }

/-- Moves the cursor on. -/
def forward (s : Scanner) (n : Nat) : Scanner := { s with cursor := s.cursor.forward n }

/-- Moves the cursor to the end. -/
def toEnd (s : Scanner) : Scanner := { s with cursor := s.cursor.toEnd }

/-- Says the text up to a mark and passes the mark. -/
def find (s : Scanner) (skipped : List Char) (length : Nat) : Scanner :=
  let start := s.cursor.forward skipped.length
  { s.say skipped with
    cursor := start.forward length
    foundAt := start
    found := start.rest.take length }

/-- Says the rest of the text. -/
def finish (s : Scanner) : Scanner := (s.say s.cursor.rest).toEnd

/-- The scanner inside one more render. -/
def enter (s : Scanner) : Scanner := { s with page := s.page.enter }

/-- The scanner behind the innermost render. -/
def leave (s : Scanner) : Scanner := { s with page := s.page.leave }

end Scanner

end Gamebook
