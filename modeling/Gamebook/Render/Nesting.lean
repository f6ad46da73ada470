/-
**Quoted lines and lists.**

The number of marks at the start of a line tells how deep it lies: in how many quotations, or in
how many lists.  Lines that follow one another share the elements that are open.

Main definitions:

* `Nesting.Frame`, `Nesting.goTo`, `Nesting.close` — the elements that are open, the innermost
  first;
* `Nesting.readQuotes`, `Nesting.readItems` — reading lines;
* `Nesting.quotes`, `Nesting.lists` — the formatters.
-/

import Gamebook.Render.Rule

set_option relaxedAutoImplicit false
set_option autoImplicit false

namespace Gamebook

namespace Nesting

/-! ### Open elements -/

/-- An open element: its kind, and what it holds so far, the latest node first. -/
structure Frame where
  tag : Tag
  content : List Node := []

/-- The node of an element that is closed. -/
def Frame.toNode (f : Frame) : Node := .element { tag := f.tag } f.content.reverse

/-- Opens elements inside those that are open. -/
def openTags (tag : Tag) (count : Nat) (frames : List Frame) : List Frame :=
  List.replicate count { tag := tag } ++ frames

/-- Closes the innermost element: it becomes part of the one around it, or of `nodes`. -/
def closeOne : List Frame → List Node → List Frame × List Node
  | [], nodes => ([], nodes)
  | [frame], nodes => ([], frame.toNode :: nodes)
  | frame :: outer :: frames, nodes =>
      ({ outer with content := frame.toNode :: outer.content } :: frames, nodes)

/-- Closes elements from the innermost one on. -/
def close : Nat → List Frame → List Node → List Frame × List Node
  | 0, frames, nodes => (frames, nodes)
  | count + 1, frames, nodes =>
      let (frames, nodes) := closeOne frames nodes
      close count frames nodes

/-- Closes all elements. -/
def closeAll (frames : List Frame) (nodes : List Node) : List Node :=
  (close frames.length frames nodes).2

/-- Goes to a level: opens elements of a kind, or closes elements, until there are as many. -/
def goTo (tag : Tag) (level : Nat) (frames : List Frame) (nodes : List Node) :
    List Frame × List Node :=
  if frames.length < level then (openTags tag (level - frames.length) frames, nodes)
  else close (frames.length - level) frames nodes

/-! ### Quoted lines -/

/-- Reads the quoted lines that follow one another.  The cursor stands behind the marks of the
first one, and `level` is their number. -/
def readQuotes (ctx : Context) (level : Nat) (frames : List Frame) (s : Scanner) : Scanner :=
  match goTo .blockQuote level frames s.nodes with
  | ([], nodes) => { s with nodes := nodes }
  | (frame :: frames, nodes) =>
      -- the line goes on with what the innermost quotation already holds
      let (content, s') := ctx.scanInside Mark.newline frame.content { s with nodes := nodes }
      -- every line ends with its break, the last one too
      let content := Node.element { tag := .lineBreak } [] :: content
      let frames := { frame with content := content } :: frames
      match Mark.quoteLine s'.cursor.previous s'.cursor.rest with
      | none => { s' with nodes := closeAll frames s'.nodes }
      | some marks =>
          let s'' := s'.forward marks
          if s''.cursor.rest.length < s.cursor.rest.length then readQuotes ctx marks frames s''
          else { s'' with nodes := closeAll frames s''.nodes }
termination_by s.cursor.rest.length

/-- Quoted lines. -/
def quotes : Formatter :=
  { name := "quoteByLine"
    start := Mark.quoteLine
    handle := fun _ ctx s => some (readQuotes ctx s.found.length [] s) }

/-! ### Lists -/

/-- The marks of a list item at a cursor: the kind of list, and their number. -/
def itemAt? (c : Cursor) : Option (Tag × Nat) :=
  match Mark.bullets c.previous c.rest with
  | some n => some (.unorderedList, n)
  | none => (Mark.numbers c.previous c.rest).map (.orderedList, ·)

/-- Puts a node into the innermost element that is open, or behind `nodes`. -/
def put (node : Node) : List Frame → List Node → List Frame × List Node
  | [], nodes => ([], node :: nodes)
  | frame :: frames, nodes => ({ frame with content := node :: frame.content } :: frames, nodes)

/-- Opens and closes lists for an item of the kind `tag` at `level`.  If the level stays and the
kind is not that of the item before, another list takes the place of the innermost one. -/
def enterItem (tag : Tag) (level : Nat) (latest : Option Tag) (frames : List Frame)
    (nodes : List Node) : List Frame × List Node :=
  -- on another level the lists that are open stay, whatever their kind
  if level = frames.length ∧ latest ≠ some tag then
    let (frames, nodes) := close 1 frames nodes
    (openTags tag 1 frames, nodes)
  else goTo tag level frames nodes

/-- Reads the list items that follow one another from the cursor on.  `latest` is the kind of the
item before. -/
def readItems (ctx : Context) (latest : Option Tag) (frames : List Frame) (s : Scanner) : Scanner :=
  match itemAt? s.cursor with
  | none => { s with nodes := closeAll frames s.nodes }
  | some (tag, level) =>
      let (frames, nodes) := enterItem tag level latest frames s.nodes
      let (content, s') :=
        ctx.scanInside Mark.newline [] { s.forward level with nodes := nodes }
      let item := Node.element { tag := .listItem } content.reverse
      let (frames, nodes) := put item frames s'.nodes
      let s'' := { s' with nodes := nodes }
      if s''.cursor.rest.length < s.cursor.rest.length then readItems ctx (some tag) frames s''
      else { s'' with nodes := closeAll frames s''.nodes }
termination_by s.cursor.rest.length

/-- Lists. -/
def lists : Formatter :=
  { name := "list"
    start := Mark.listItem
    handle := fun _ ctx s => some (readItems ctx none [] { s with cursor := s.foundAt }) }

end Nesting

end Gamebook
