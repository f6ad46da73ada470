/-
**Text is said once.**

Every formatter moves the cursor by itself, and what it says it has passed.  So what a render has
said, with what it has still to read, never grows, however constructs are nested, crossed or left
open.  There is one exception: a cell gives back the bar that ends it, and where it has run to the
end of the text without one, what it gives back is the last character.

Main definitions:

* `Context.SaysOnce`, `Formatter.SaysOnce` — what lies further in, or a formatter, says nothing
  twice.

Main results:

* `Context.SaysOnce.scanInside` — nothing inside an element is said twice;
* `Nesting.quotes_once`, `Nesting.lists_once`, `Table.formatter_once` — nor in the constructs made
  of several lines.
-/

import Gamebook.Proofs.Render.Said
import Gamebook.Render.Standard

set_option relaxedAutoImplicit false
set_option autoImplicit false

namespace Gamebook

open Node (said)

variable {text : List Char} {ctx : Context} {s t : Scanner}

/-! ### Contexts and formatters -/

@[simp] theorem Context.nodes_scanInside (ctx : Context) (stop : Pattern) (inside : List Node)
    (s : Scanner) : (ctx.scanInside stop inside s).2.nodes = s.nodes := rfl

/-- The scanner stands behind the mark that was waited for, in front of which nothing was said
twice. -/
def StopsOnce (stop : Option Pattern) (s t : Scanner) : Prop :=
  ∃ p, stop = some p ∧ t.IsAt p ∧ GoesOn (said s.nodes) s.cursor (said t.nodes) t.foundAt

/-- What lies further in moves on and says nothing of a text twice, up to the mark that it waits
for or to the end. -/
structure Context.SaysOnce (text : List Char) (ctx : Context) : Prop where
  advances : ctx.Advances
  scan : ∀ stop s, s.cursor.text = text →
    GoesOn (said s.nodes) s.cursor (said (ctx.scan stop s).nodes) (ctx.scan stop s).cursor
  stops : ∀ stop s, s.cursor.text = text →
    (ctx.scan stop s).cursor.rest = [] ∨ StopsOnce stop s (ctx.scan stop s)

/-- Behind its mark a formatter says nothing of a text twice, from the mark on. -/
def Formatter.SaysOnce (text : List Char) (f : Formatter) : Prop :=
  ∀ macros ctx s t, ctx.SaysOnce text → s.foundAt.text = text → s.IsAt f.start →
    f.handle macros ctx s = some t → GoesOn (said s.nodes) s.foundAt (said t.nodes) t.cursor

/-- Passing a mark says nothing. -/
theorem Scanner.IsAt.goesOn {p : Pattern} (h : s.IsAt p) (m : List Char) :
    GoesOn m s.foundAt m s.cursor := by
  obtain ⟨n, -, -, -, hcursor⟩ := h
  rw [hcursor]
  exact (GoesOn.refl m s.foundAt).forward n

/-- A mark that does not occur in a text is not met. -/
theorem Scanner.not_isAt_literal {mark : List Char} (h : ¬ mark <:+: text)
    (htext : s.foundAt.text = text) : ¬ s.IsAt (Pattern.literal mark) := by
  rintro ⟨n, -, hmark, -⟩
  rw [Pattern.literal] at hmark
  split at hmark
  · rename_i hpre
    exact h (htext ▸ (List.isPrefixOf_iff_prefix.1 hpre).isInfix.trans
      s.foundAt.rest_suffix_text.isInfix)
  · cases hmark

namespace Context.SaysOnce

/-- What stands inside an element is not said twice. -/
theorem scanInside (hctx : ctx.SaysOnce text) (stop : Pattern) (inside : List Node)
    (h : s.cursor.text = text) :
    GoesOn (said inside) s.cursor (said (ctx.scanInside stop inside s).1)
      (ctx.scanInside stop inside s).2.cursor :=
  hctx.scan (some stop) { s with nodes := inside } h

/-- An element around what stands behind a point. -/
theorem enclose (hctx : ctx.SaysOnce text) (stop : Pattern) (e : Element)
    (h : s.cursor.text = text) :
    GoesOn (said s.nodes) s.cursor
      (said (((ctx.scanInside stop [] s).2.emit
        (.element e (ctx.scanInside stop [] s).1.reverse)).nodes))
      (ctx.scanInside stop [] s).2.cursor := by
  have hin := (hctx.scanInside stop [] h).behind (said s.nodes)
  rw [Node.said_nil, List.append_nil] at hin
  simpa only [Scanner.emit, Node.said_cons, Node.chars_element_reverse, nodes_scanInside] using hin

end Context.SaysOnce

/-! ### Quoted lines and lists -/

namespace Nesting

/-- One quoted line. -/
theorem readQuote_once (hctx : ctx.SaysOnce text) (level : Nat) (frames : List Frame)
    (h : s.cursor.text = text) :
    GoesOn (heard frames s.nodes) s.cursor
      (heard (readQuote ctx level frames s).1 (readQuote ctx level frames s).2.nodes)
      (readQuote ctx level frames s).2.cursor := by
  have hgo := heard_goTo .blockQuote level frames s.nodes
  rw [readQuote]
  split
  · rename_i nodes heq
    rw [heq] at hgo
    rw [← hgo]
    exact GoesOn.refl _ _
  · rename_i frame outer nodes heq
    rw [heq] at hgo
    rw [← hgo]
    have hline := (hctx.scanInside Mark.newline frame.content (s := { s with nodes := nodes })
      h).behind (heard outer nodes)
    simpa [heard, Node.chars_element] using hline

theorem readQuotes_once (hctx : ctx.SaysOnce text) (level : Nat) (frames : List Frame)
    (h : s.cursor.text = text) :
    GoesOn (heard frames s.nodes) s.cursor (said (readQuotes ctx level frames s).nodes)
      (readQuotes ctx level frames s).cursor := by
  induction level, frames, s using readQuotes_induction hctx.advances with
  | none frames s =>
      rw [readQuotes_zero, said_closeAll]
      exact GoesOn.refl _ _
  | last level frames s hlevel hmark =>
      have hline := readQuote_once hctx level frames h
      rw [readQuotes_of_none hlevel hmark, said_closeAll]
      exact hline
  | more level frames s marks hlevel hmark ih =>
      have hline := readQuote_once hctx level frames h
      have hmarks := hline.forward marks
      rw [readQuotes_of_some hctx.advances hlevel hmark]
      exact hmarks.trans (ih (hmarks.text.trans h))

theorem quotes_once : quotes.SaysOnce text := by
  rintro macros ctx s t hctx htext hat ⟨⟩
  have hmark := hat.goesOn (said s.nodes)
  exact hmark.trans (readQuotes_once hctx s.found.length [] (hmark.text.trans htext))

/-- One list item. -/
theorem readItem_once (hctx : ctx.SaysOnce text) (tag : Tag) (level : Nat) (latest : Option Tag)
    (frames : List Frame) (h : s.cursor.text = text) :
    GoesOn (heard frames s.nodes) s.cursor
      (heard (readItem ctx tag level latest frames s).1
        (readItem ctx tag level latest frames s).2.nodes)
      (readItem ctx tag level latest frames s).2.cursor := by
  have hgo := heard_enterItem tag level latest frames s.nodes
  rw [readItem]
  generalize enterItem tag level latest frames s.nodes = entered at hgo ⊢
  obtain ⟨entered, nodes⟩ := entered
  have hmarks := (GoesOn.refl (heard frames s.nodes) s.cursor).forward level
  have hline := (hctx.scanInside Mark.newline [] (s := { s.forward level with nodes := nodes })
    (hmarks.text.trans h)).behind (heard entered nodes)
  rw [Node.said_nil, List.append_nil, hgo] at hline
  dsimp only
  rw [heard_put, Node.chars_element_reverse, Context.nodes_scanInside, hgo]
  exact hmarks.trans hline

theorem readItems_once (hctx : ctx.SaysOnce text) (latest : Option Tag) (frames : List Frame)
    (h : s.cursor.text = text) :
    GoesOn (heard frames s.nodes) s.cursor (said (readItems ctx latest frames s).nodes)
      (readItems ctx latest frames s).cursor := by
  induction latest, frames, s using readItems_induction hctx.advances with
  | last latest frames s hitem =>
      rw [readItems_of_none hitem, said_closeAll]
      exact GoesOn.refl _ _
  | more latest frames s tag level hitem ih =>
      have hread := readItem_once hctx tag level latest frames h
      rw [readItems_of_some hctx.advances hitem]
      exact hread.trans (ih (hread.text.trans h))

theorem lists_once : lists.SaysOnce text := by
  rintro macros ctx s t hctx htext - ⟨⟩
  exact readItems_once hctx none [] (s := { s with cursor := s.foundAt }) htext

end Nesting

/-! ### Tables -/

namespace Table

/-- Behind a cell the cursor gives one character back: the bar that ends the cell, or the last
character of the text. -/
theorem stepBack_once (hctx : ctx.SaysOnce text) (h : s.cursor.text = text) (hrow : HasRow text) :
    GoesOn [] s.cursor (said (ctx.scanInside Mark.cellEnd [] s).1)
      (ctx.scanInside Mark.cellEnd [] s).2.cursor.stepBack := by
  have hin := hctx.scanInside Mark.cellEnd [] h
  rw [Node.said_nil] at hin
  rcases hctx.stops (some Mark.cellEnd) { s with nodes := [] } h with hend | hstop
  · exact hin.stepBack_end hend (h ▸ hrow)
  · obtain ⟨p, hp, ⟨n, hpos, hmark, -, hcursor⟩, hgoes⟩ := hstop
    cases hp
    have hbar : (ctx.scan (some Mark.cellEnd) { s with nodes := [] }).foundAt.rest ≠ [] := by
      intro hnil
      rw [hnil] at hmark
      cases hmark
    have hback := hgoes.stepBack_mark hbar hpos
    rwa [← hcursor] at hback

theorem readCell_once (hctx : ctx.SaysOnce text) (width : Nat) (h : s.cursor.text = text)
    (hrow : HasRow text) :
    GoesOn [] s.cursor (readCell ctx width s).1.toNode.chars (readCell ctx width s).2.cursor := by
  let inside := (s.forward 1).forward (cellOpening (s.forward 1).cursor.rest).2.2
  have hinside : GoesOn [] s.cursor [] inside.cursor :=
    ((GoesOn.refl [] s.cursor).forward 1).forward _
  have hcell := hinside.trans (stepBack_once hctx (hinside.text.trans h) hrow)
  have hchars : (readCell ctx width s).1.toNode.chars =
      said (ctx.scanInside Mark.cellEnd [] inside).1 := Node.chars_element_reverse _ _
  rw [hchars]
  exact hcell

/-- The cells of a row are said behind what the table and the row say so far. -/
theorem readCells_once (hctx : ctx.SaysOnce text) (g : Grid) (cells : List Cell)
    (column width : Nat) (h : s.cursor.text = text)
    (hrow : HasRow text) :
    (readCells ctx g cells column width s).2.nodes = s.nodes ∧
      GoesOn (g.chars ++ charsOfCells cells) s.cursor
        ((readCells ctx g cells column width s).1.1.chars ++
          charsOfCells (readCells ctx g cells column width s).1.2)
        (readCells ctx g cells column width s).2.cursor := by
  induction g, cells, column, width, s using readCells_induction hctx.advances with
  | none g cells column width s hslot =>
      rw [readCells_of_none hslot]
      exact ⟨rfl, GoesOn.refl _ _⟩
  | rowEnd g cells column width s length hslot =>
      rw [readCells_of_rowEnd hslot]
      exact ⟨rfl, (GoesOn.refl _ _).forward length⟩
  | above g cells column width s hslot ih =>
      rw [readCells_of_above hslot]
      obtain ⟨hnodes, hread⟩ := ih ((Cursor.text_forward _ _).trans h)
      rw [Grid.chars_stretch] at hread
      exact ⟨hnodes, ((GoesOn.refl _ _).forward 2).trans hread⟩
  | next g cells column width s hslot ih =>
      rw [readCells_of_next hslot]
      obtain ⟨hnodes, hread⟩ := ih ((Cursor.text_forward _ _).trans h)
      exact ⟨hnodes, ((GoesOn.refl _ _).forward 2).trans hread⟩
  | content g cells column width s hslot ih =>
      have hcell := (readCell_once hctx width h hrow).behind (g.chars ++ charsOfCells cells)
      rw [readCells_of_content hctx.advances hslot]
      obtain ⟨hnodes, hread⟩ := ih (hcell.text.trans h)
      refine ⟨hnodes, GoesOn.trans ?_ hread⟩
      simpa [charsOfCells, Grid.chars_anchor] using hcell

/-- A row is said behind what the table says so far. -/
theorem readRow_once (hctx : ctx.SaysOnce text) (kind : Mark.RowKind) (isFirst : Bool) (g : Grid)
    (h : s.cursor.text = text)
    (hrow : HasRow text) :
    (readRow ctx kind isFirst g s).2.nodes = s.nodes ∧
      GoesOn g.chars s.cursor (readRow ctx kind isFirst g s).1.chars
        (readRow ctx kind isFirst g s).2.cursor := by
  have hcells : ∀ g : Grid, (readCells ctx g [] 0 1 s).2.nodes = s.nodes ∧
      GoesOn g.chars s.cursor
        ((readCells ctx g [] 0 1 s).1.1.modifyLast fun part =>
          { part with rows := part.rows ++ [(readCells ctx g [] 0 1 s).1.2] }).chars
        (readCells ctx g [] 0 1 s).2.cursor := by
    intro g
    obtain ⟨hnodes, hread⟩ := readCells_once hctx g [] 0 1 h hrow
    rw [charsOfCells, List.flatMap_nil, List.append_nil] at hread
    exact ⟨hnodes, hread.trans (.of_sublist rfl ((Grid.chars_addRow _ _).append_right _))⟩
  rw [← Grid.chars_enter g kind]
  cases kind with
  | caption =>
      obtain ⟨before, part, hsections, hkind⟩ := Grid.exists_enter g .caption
      have hinside : ((g.enter .caption).sections.getLast?.map Section.content).getD [] =
          part.content := by simp [hsections]
      have hin := ((GoesOn.refl _ _).forward 1).trans (hctx.scanInside Mark.rowEnd part.content
        (s := s.forward 1) ((Cursor.text_forward _ _).trans h))
      have hcaption := hin.behind (before.flatMap (·.toNode.chars))
      simp only [readRow, readCaption, hinside]
      rw [Grid.chars_setCaption hsections hkind, Grid.chars_eq hsections, Section.chars_toNode,
        if_pos hkind]
      exact ⟨rfl, hcaption⟩
  | head => exact hcells _
  | foot => exact hcells _
  | body => exact hcells _

theorem readRows_once (hctx : ctx.SaysOnce text) (isFirst : Bool) (g : Grid)
    (h : s.cursor.text = text)
    (hrow : HasRow text) :
    (readRows ctx isFirst g s).2.nodes = s.nodes ∧
      GoesOn g.chars s.cursor (readRows ctx isFirst g s).1.chars
        (readRows ctx isFirst g s).2.cursor := by
  induction isFirst, g, s using readRows_induction hctx.advances with
  | last isFirst g s hkind =>
      rw [readRows_of_none hkind]
      exact ⟨rfl, GoesOn.refl _ _⟩
  | more isFirst g s kind hkind ih =>
      obtain ⟨hnodes, hread⟩ := readRow_once hctx kind isFirst g h hrow
      rw [readRows_of_some hctx.advances hkind]
      obtain ⟨hnodes', hread'⟩ := ih (hread.text.trans h)
      exact ⟨hnodes'.trans hnodes, hread.trans hread'⟩

theorem formatter_once : formatter.SaysOnce text := by
  intro macros ctx s t hctx htext ⟨n, _, hstart, _⟩ ht
  obtain ⟨hnodes, hread⟩ := readRows_once hctx true {} (s := { s with cursor := s.foundAt }) htext
    ⟨s.foundAt, htext, Option.isSome_of_eq_some hstart⟩
  simp only [formatter, handle] at ht
  split at ht
  · cases ht
  · cases ht
    have hread' := hread.behind (said s.nodes)
    simpa [Scanner.emit, hnodes, Grid.chars_toNode, Grid.chars] using hread'

end Table

end Gamebook
