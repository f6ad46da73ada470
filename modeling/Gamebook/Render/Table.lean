/-
**Tables.**

A table is a row of lines between bars.  The letter behind the last bar of a line tells the section
that the row belongs to; rows of one kind that follow one another share a section.  A cell that
holds only `~` lets the cell above it reach further down, and one that holds only `>` lets the next
cell reach further to the left.

Main definitions:

* `Table.Cell`, `Table.Section`, `Table.Grid` — a table while it is read;
* `Table.slot?` — what stands at the bar in front of a cell;
* `Table.readCells`, `Table.readRows` — reading a row and a table;
* `Table.handle` — the formatter.
-/

import Gamebook.Markup.Style
import Gamebook.Render.Rule

set_option relaxedAutoImplicit false
set_option autoImplicit false

namespace Gamebook

namespace Table

open Mark (RowKind)

/-! ### A table while it is read -/

/-- A cell: its element and what it holds. -/
structure Cell where
  element : Element
  content : List Node

/-- A section of a table.  A caption holds text, any other section holds rows. -/
structure Section where
  kind : RowKind
  element : Element
  /-- The text of a caption, the latest node first. -/
  content : List Node := []
  rows : List (List Cell) := []

/-- The cell of a column that a `~` below it makes longer. -/
structure Anchor where
  column : Nat
  sectionIndex : Nat
  rowIndex : Nat
  cellIndex : Nat
  /-- The number of rows that the cell reaches over. -/
  height : Nat
  deriving DecidableEq

/-- A table while it is read: its sections, and the latest cell of each column, the latest
first. -/
structure Grid where
  sections : List Section := []
  anchors : List Anchor := []

/-- The element of a section. -/
def sectionTag : RowKind → Tag
  | .caption => .caption
  | .head => .tableHead
  | .foot => .tableFoot
  | .body => .tableBody

/-- The node of a cell. -/
def Cell.toNode (c : Cell) : Node := .element c.element c.content

/-- The node of a row. -/
def rowNode (cells : List Cell) : Node := .element { tag := .row } (cells.map Cell.toNode)

/-- The node of a section. -/
def Section.toNode (s : Section) : Node :=
  match s.kind with
  | .caption => .element s.element s.content.reverse
  | _ => .element s.element (s.rows.map rowNode)

/-- The node of a table. -/
def Grid.toNode (g : Grid) : Node := .element { tag := .table } (g.sections.map Section.toNode)

/-- Changes the last section. -/
def Grid.modifyLast (g : Grid) (f : Section → Section) : Grid :=
  { g with sections := g.sections.modify (g.sections.length - 1) f }

/-- Goes on with a row of a kind: in the last section if it is of that kind, else in a new one. -/
def Grid.enter (g : Grid) (kind : RowKind) : Grid :=
  if (g.sections.getLast?.map Section.kind) = some kind then g
  else
    let fresh : Section := { kind := kind, element := { tag := sectionTag kind } }
    { g with sections := g.sections ++ [fresh] }

/-- The cell that now reaches over `height` rows. -/
def Cell.stretch (c : Cell) (height : Nat) : Cell :=
  { c with
    element := (c.element.setAttr "rowspan" (toString height)).setAttr "valign" "center" }

/-- Lets the latest cell of a column reach one row further down. -/
def Grid.stretch (g : Grid) (column : Nat) : Grid :=
  match g.anchors.find? (·.column == column) with
  | none => g
  | some anchor =>
      let height := anchor.height + 1
      { anchors := { anchor with height := height } :: g.anchors
        sections := g.sections.modify anchor.sectionIndex fun s =>
          { s with
            rows := s.rows.modify anchor.rowIndex fun cells =>
              cells.modify anchor.cellIndex fun c => c.stretch height } }

/-- Notes the cell that is about to be put in a column, behind `cells` of its row. -/
def Grid.anchor (g : Grid) (column : Nat) (cells : List Cell) : Grid :=
  let current := g.sections.length - 1
  let anchor : Anchor :=
    { column := column
      sectionIndex := current
      rowIndex := (g.sections[current]?.map fun s => s.rows.length).getD 0
      cellIndex := cells.length
      height := 1 }
  { g with anchors := anchor :: g.anchors }

/-! ### Reading cells -/

/-- What stands at the bar in front of a cell. -/
inductive Slot where
  /-- The row ends; the number of characters up to the next line. -/
  | rowEnd (length : Nat)
  /-- A cell that holds only `~`. -/
  | above
  /-- A cell that holds only `>`. -/
  | next
  /-- Any other cell. -/
  | content
  deriving DecidableEq, Repr

/-- What stands at a bar: a cell up to the next bar of the line, or the end of the row. -/
def slot? (text : List Char) : Option Slot :=
  match text with
  | '|' :: rest =>
      let inside := rest.takeWhile fun c => c != '|' && c != '\n'
      match rest.drop inside.length with
      | '|' :: _ =>
          if inside = ['~'] then some .above
          else if inside = ['>'] then some .next
          else some .content
      -- no further bar on the line, so this one ends the row
      | _ => (Mark.rowEnd none text).map .rowEnd
  | _ => none

/-- Whether the latest mark shows a space before the bar that ends a cell. -/
def spaceBefore (found : List Char) : Bool :=
  match found.reverse with
  | bar :: ' ' :: _ => bar.utf8Size == 1
  | _ => false

/-- The side to which a cell with spaces at its ends is set. -/
def align (left right : Bool) (e : Element) : Element :=
  match left, right with
  | true, true => e.setAttr "align" "center"
  | true, false => e.setAttr "align" "right"
  | false, true => e.setAttr "align" "left"
  | false, false => e

/-- What stands in front of the text of a cell: the element that it asks for, whether there are
spaces, and the length of it all. -/
def cellOpening (text : List Char) : Element × Bool × Nat :=
  let (styles, length) := Style.declarations text
  let spaces := ((text.drop length).takeWhile (· == ' ')).length
  match text.drop (length + spaces) with
  | '!' :: _ => ({ tag := .headerCell, styles := styles }, 0 < spaces, length + spaces + 1)
  | _ => ({ tag := .cell, styles := styles }, 0 < spaces, length + spaces)

/-- Reads a cell from the bar in front of it up to the bar behind it.  `width` is the number of
columns that it reaches over. -/
def readCell (ctx : Context) (width : Nat) (s : Scanner) : Cell × Scanner :=
  let s := s.forward 1
  let (element, spaced, length) := cellOpening s.cursor.rest
  let element := if 1 < width then element.setAttr "colspan" (toString width) else element
  let (content, s) := ctx.scanInside Mark.cellEnd [] (s.forward length)
  let element := align spaced (spaceBefore s.found) element
  -- the bar behind this cell is also the bar in front of the next one
  ({ element := element, content := content.reverse }, { s with cursor := s.cursor.stepBack })

/-- Reads the cells of a row from the bar in front of them on.  `cells` are those read so far,
`column` is the number of bars passed, and `width` the number of columns that the next cell reaches
over. -/
def readCells (ctx : Context) (g : Grid) (cells : List Cell) (column width : Nat) (s : Scanner) :
    (Grid × List Cell) × Scanner :=
  match slot? s.cursor.rest with
  | none => ((g, cells), s)
  | some (.rowEnd length) => ((g, cells), s.forward length)
  | some slot =>
      let (g', cells', width', s') := match slot with
        -- a `~` keeps the width that `>` cells before it have gathered
        | .above => (g.stretch column, cells, width, s.forward 2)
        | .next => (g, cells, width + 1, s.forward 2)
        | _ =>
            let (cell, s') := readCell ctx width s
            (g.anchor column cells, cells ++ [cell], 1, s')
      if s'.cursor.rest.length < s.cursor.rest.length then
        readCells ctx g' cells' (column + 1) width' s'
      else ((g', cells'), s')
termination_by s.cursor.rest.length

/-! ### Reading a table -/

/-- Reads a caption from the bar in front of it to the end of its row.  It stands above the table
if no row comes before it, else below. -/
def readCaption (ctx : Context) (isFirst : Bool) (g : Grid) (s : Scanner) : Grid × Scanner :=
  let inside := (g.sections.getLast?.map Section.content).getD []
  let (content, s) := ctx.scanInside Mark.rowEnd inside (s.forward 1)
  (g.modifyLast fun part =>
    { part with
      element := part.element.setAttr "align" (if isFirst then "top" else "bottom")
      content := content }, s)

/-- Reads the row of a kind that starts at the cursor. -/
def readRow (ctx : Context) (kind : RowKind) (isFirst : Bool) (g : Grid) (s : Scanner) :
    Grid × Scanner :=
  let g := g.enter kind
  match kind with
  | .caption => readCaption ctx isFirst g s
  | _ =>
      let ((g, cells), s) := readCells ctx g [] 0 1 s
      (g.modifyLast fun part => { part with rows := part.rows ++ [cells] }, s)

/-- The kind of the row that starts at a cursor. -/
def rowAt? (c : Cursor) : Option RowKind :=
  if Pattern.startsLine c.previous then Mark.rowKind? (Mark.line c.rest) else none

/-- Reads the rows that follow one another from the cursor on. -/
def readRows (ctx : Context) (isFirst : Bool) (g : Grid) (s : Scanner) : Grid × Scanner :=
  match rowAt? s.cursor with
  | none => (g, s)
  | some kind =>
      let (g', s') := readRow ctx kind isFirst g s
      if s'.cursor.rest.length < s.cursor.rest.length then readRows ctx false g' s' else (g', s')
termination_by s.cursor.rest.length

/-- Handles the mark of a table, which is its first row. -/
def handle (_ : Macros) (ctx : Context) (s : Scanner) : Option Scanner :=
  let (g, s) := readRows ctx true {} { s with cursor := s.foundAt }
  if g.sections.isEmpty then none else some (s.emit g.toNode)

/-- Tables. -/
def formatter : Formatter := { name := "table", start := Mark.row, handle := handle }

end Table

end Gamebook
