/-
**Tables keep every bond.**

A table is read row by row into a grid.  The page changes only through what stands in the cells,
and a grid has no links but those inside its cells and captions.

Main definitions:

* `Table.SectionShows`, `Table.GridShows` — the links of a table are allowed.

Main results:

* `Table.readCells_moves`, `Table.readRows_moves` — **reading rows keeps a bond**;
* `Table.formatter_transparent` — the formatter is transparent.
-/

import Gamebook.Proofs.Render.Bond
import Gamebook.Proofs.Render.Parts

set_option relaxedAutoImplicit false
set_option autoImplicit false

namespace Gamebook

variable {B : Bond} {p q : Page} {s : Scanner} {c d : Context}

@[simp] theorem Element.target?_setAttr (e : Element) (name value : String) :
    (e.setAttr name value).target? = e.target? := rfl

namespace Table

/-! ### Links of a table -/

/-- The links of a section are allowed. -/
structure SectionShows (B : Bond) (p : Page) (part : Section) : Prop where
  plain : part.element.target? = none
  content : B.Shows p part.content
  rows : ∀ cells ∈ part.rows, ∀ cell ∈ cells, B.ShowsNode p cell.toNode

/-- The links of a table are allowed. -/
def GridShows (B : Bond) (p : Page) (g : Grid) : Prop :=
  ∀ part ∈ g.sections, SectionShows B p part

theorem SectionShows.later {part : Section} (h : SectionShows B p part) (hl : B.later p q) :
    SectionShows B q part where
  plain := h.plain
  content := h.content.later hl
  rows := fun cells hcells cell hcell => (h.rows cells hcells cell hcell).later hl

theorem GridShows.later {g : Grid} (h : GridShows B p g) (hl : B.later p q) : GridShows B q g :=
  fun part hpart => (h part hpart).later hl

theorem rowNode_shows {cells : List Cell} (h : ∀ cell ∈ cells, B.ShowsNode p cell.toNode) :
    B.ShowsNode p (rowNode cells) := by
  refine Bond.showsNode_plain rfl fun node hnode => ?_
  obtain ⟨cell, hcell, rfl⟩ := List.mem_map.1 hnode
  exact h cell hcell

theorem SectionShows.toNode {part : Section} (h : SectionShows B p part) :
    B.ShowsNode p part.toNode := by
  unfold Section.toNode
  split
  · exact Bond.showsNode_plain h.plain (Bond.shows_reverse.2 h.content)
  · refine Bond.showsNode_plain h.plain fun node hnode => ?_
    obtain ⟨cells, hcells, rfl⟩ := List.mem_map.1 hnode
    exact rowNode_shows (h.rows cells hcells)

theorem GridShows.toNode {g : Grid} (h : GridShows B p g) : B.ShowsNode p g.toNode := by
  refine Bond.showsNode_plain rfl fun node hnode => ?_
  obtain ⟨part, hpart, rfl⟩ := List.mem_map.1 hnode
  exact (h part hpart).toNode

/-! ### Changing a table -/

/-- The links of a table are those of its sections and cells. -/
theorem gridShows_iff {g : Grid} :
    GridShows B p g ↔ g.All (fun _ e content => e.target? = none ∧ B.Shows p content)
      fun cell => B.ShowsNode p cell.toNode :=
  ⟨fun h part hpart => ⟨⟨(h part hpart).plain, (h part hpart).content⟩, (h part hpart).rows⟩,
    fun h part hpart => ⟨(h part hpart).1.1, (h part hpart).1.2, (h part hpart).2⟩⟩

theorem GridShows.enter {g : Grid} (h : GridShows B p g) (kind : Mark.RowKind) :
    GridShows B p (g.enter kind) :=
  gridShows_iff.2 ((gridShows_iff.1 h).enter ⟨by cases kind <;> rfl, Bond.shows_nil⟩)

theorem stretch_shows {cell : Cell} (h : B.ShowsNode p cell.toNode) (height : Nat) :
    B.ShowsNode p (cell.stretch height).toNode := by
  obtain ⟨htarget, hcontent⟩ := Bond.showsNode_element.1 h
  exact Bond.showsNode_element.2 ⟨htarget, hcontent⟩

theorem GridShows.stretch {g : Grid} (h : GridShows B p g) (column : Nat) :
    GridShows B p (g.stretch column) :=
  gridShows_iff.2 ((gridShows_iff.1 h).stretch (fun _ height hcell => stretch_shows hcell height)
    column)

theorem GridShows.anchor {g : Grid} (h : GridShows B p g) (column : Nat) (cells : List Cell) :
    GridShows B p (g.anchor column cells) := h

/-! ### Reading cells -/

theorem target?_align (left right : Bool) (e : Element) :
    (align left right e).target? = e.target? := by
  cases left <;> cases right <;> rfl

theorem target?_cellOpening (text : List Char) : (cellOpening text).1.target? = none := by
  simp only [cellOpening]
  split <;> rfl

/-- **Reading a cell keeps a bond.** -/
theorem readCell_moves (hc : B.Contexts c d) (width : Nat) (hj : B.Joins s q) :
    B.MovesWith (fun p cell => B.ShowsNode p cell.toNode) s (readCell c width s)
      (readCell d width (s.withPage q)) := by
  have hplain := target?_cellOpening (s.forward 1).cursor.rest
  unfold readCell
  have hopening : cellOpening ((s.withPage q).forward 1).cursor.rest =
    cellOpening (s.forward 1).cursor.rest := rfl
  simp only [hopening]
  generalize cellOpening (s.forward 1).cursor.rest = opening at hplain ⊢
  obtain ⟨element, spaced, length⟩ := opening
  have hj₀ : B.Joins ((s.forward 1).forward length) q := hj.move rfl rfl
  obtain ⟨q', hd, hj', hin, hl⟩ := hc.scanInside Mark.cellEnd [] hj₀ Bond.shows_nil
  have hd' : d.scanInside Mark.cellEnd [] (((s.withPage q).forward 1).forward length) = _ := hd
  simp only [hd']
  refine ⟨q', rfl, hj'.move rfl rfl, Bond.showsNode_plain ?_ (Bond.shows_reverse.2 hin), hl⟩
  rw [target?_align]
  split
  · rw [Element.target?_setAttr]
    exact hplain
  · exact hplain

/-- The links of a table and of a row that is being read are allowed. -/
structure RowShows (B : Bond) (p : Page) (row : Grid × List Cell) : Prop where
  grid : GridShows B p row.1
  cells : ∀ cell ∈ row.2, B.ShowsNode p cell.toNode

theorem RowShows.later {row : Grid × List Cell} (h : RowShows B p row) (hl : B.later p q) :
    RowShows B q row := ⟨h.grid.later hl, fun cell hcell => (h.cells cell hcell).later hl⟩

/-- **Reading the cells of a row keeps a bond.** -/
theorem readCells_moves (hc : B.Contexts c d) (g : Grid) (cells : List Cell) (column width : Nat)
    (s : Scanner) (q : Page) (hj : B.Joins s q) (hrow : RowShows B s.page (g, cells)) :
    B.MovesWith (RowShows B) s (readCells c g cells column width s)
      (readCells d g cells column width (s.withPage q)) := by
  induction hn : s.cursor.rest.length using Nat.strongRecOn
    generalizing g cells column width s q with
  | ind n ih =>
      -- whatever stands in the slot, the row is gone on with in the same way
      have hgo : ∀ (g' : Grid) (cells' : List Cell) (width' : Nat) (s' : Scanner) (q' : Page),
          B.Joins s' q' → RowShows B s'.page (g', cells') → B.later s.page s'.page →
            B.MovesWith (RowShows B) s
              (if s'.cursor.rest.length < s.cursor.rest.length then
                readCells c g' cells' (column + 1) width' s' else ((g', cells'), s'))
              (if (s'.withPage q').cursor.rest.length < s.cursor.rest.length then
                readCells d g' cells' (column + 1) width' (s'.withPage q')
                else ((g', cells'), s'.withPage q')) := by
        intro g' cells' width' s' q' hj' hrow' hl
        have hlen : (s'.withPage q').cursor.rest.length = s'.cursor.rest.length := rfl
        simp only [hlen]
        split
        · rename_i hlt
          exact (ih _ (hn ▸ hlt) g' cells' (column + 1) width' s' q' hj' hrow' rfl).after hl
        · exact ⟨q', rfl, hj', hrow', hl⟩
      rw [readCells, readCells.eq_def d]
      simp only [Scanner.cursor_withPage]
      cases slot? s.cursor.rest with
      | none => exact ⟨q, rfl, hj, hrow, B.later_refl _⟩
      | some slot =>
          cases slot with
          | rowEnd length => exact ⟨q, rfl, hj.move rfl rfl, hrow, B.later_refl _⟩
          | above =>
              have hrow' : RowShows B s.page (g.stretch column, cells) :=
                ⟨hrow.grid.stretch column, hrow.cells⟩
              exact hgo _ _ _ (s.forward 2) q (hj.move rfl rfl) hrow' (B.later_refl _)
          | next => exact hgo _ _ _ (s.forward 2) q (hj.move rfl rfl) hrow (B.later_refl _)
          | content =>
              obtain ⟨q', hd, hj', hcell, hl⟩ := readCell_moves hc width hj
              simp only [hd]
              have hrow' := hrow.later hl
              refine hgo _ _ _ _ q' hj' ⟨hrow'.grid.anchor column cells, fun cell hin => ?_⟩ hl
              rcases List.mem_append.1 hin with hin | hin
              · exact hrow'.cells cell hin
              · rw [List.mem_singleton.1 hin]
                exact hcell

/-! ### Reading rows -/

theorem content_shows {g : Grid} (hg : GridShows B p g) :
    B.Shows p ((g.sections.getLast?.map Section.content).getD []) :=
  (gridShows_iff.1 hg).caption Bond.shows_nil fun _ _ _ => And.right

theorem readCaption_moves (hc : B.Contexts c d) (isFirst : Bool) {g : Grid} (hj : B.Joins s q)
    (hg : GridShows B s.page g) :
    B.MovesWith (GridShows B) s (readCaption c isFirst g s)
      (readCaption d isFirst g (s.withPage q)) := by
  have hj₀ : B.Joins (s.forward 1) q := hj.move rfl rfl
  obtain ⟨q', hd, hj', hin, hl⟩ := hc.scanInside Mark.rowEnd
    ((g.sections.getLast?.map Section.content).getD []) hj₀ (content_shows hg)
  have hd' : d.scanInside Mark.rowEnd ((g.sections.getLast?.map Section.content).getD [])
    ((s.withPage q).forward 1) = _ := hd
  simp only [readCaption, hd']
  refine ⟨q', rfl, hj', gridShows_iff.2 ?_, hl⟩
  exact (gridShows_iff.1 (hg.later hl)).setCaption fun _ _ _ h => ⟨h.1, hin⟩

/-- **Reading a row keeps a bond.** -/
theorem readRow_moves (hc : B.Contexts c d) (kind : Mark.RowKind) (isFirst : Bool) {g : Grid}
    (hj : B.Joins s q) (hg : GridShows B s.page g) :
    B.MovesWith (GridShows B) s (readRow c kind isFirst g s)
      (readRow d kind isFirst g (s.withPage q)) := by
  have hg' := hg.enter kind
  have hrow : RowShows B s.page (g.enter kind, []) :=
    ⟨hg', fun cell hcell => absurd hcell List.not_mem_nil⟩
  obtain ⟨q', hd, hj', hread, hl⟩ := readCells_moves hc (g.enter kind) [] 0 1 s q hj hrow
  have hcells : B.MovesWith (GridShows B) s
      ((readCells c (g.enter kind) [] 0 1 s).1.1.modifyLast fun part =>
          { part with rows := part.rows ++ [(readCells c (g.enter kind) [] 0 1 s).1.2] },
        (readCells c (g.enter kind) [] 0 1 s).2)
      ((readCells d (g.enter kind) [] 0 1 (s.withPage q)).1.1.modifyLast fun part =>
          { part with
            rows := part.rows ++ [(readCells d (g.enter kind) [] 0 1 (s.withPage q)).1.2] },
        (readCells d (g.enter kind) [] 0 1 (s.withPage q)).2) := by
    rw [hd]
    exact ⟨q', rfl, hj', gridShows_iff.2 ((gridShows_iff.1 hread.grid).addRow hread.cells), hl⟩
  cases kind with
  | caption => exact readCaption_moves hc isFirst hj hg'
  | head => exact hcells
  | foot => exact hcells
  | body => exact hcells

/-- **Reading rows keeps a bond.** -/
theorem readRows_moves (hc : B.Contexts c d) (isFirst : Bool) (g : Grid) (s : Scanner) (q : Page)
    (hj : B.Joins s q) (hg : GridShows B s.page g) :
    B.MovesWith (GridShows B) s (readRows c isFirst g s) (readRows d isFirst g (s.withPage q)) := by
  induction hn : s.cursor.rest.length using Nat.strongRecOn generalizing isFirst g s q with
  | ind n ih =>
      rw [readRows, readRows.eq_def d]
      simp only [Scanner.cursor_withPage]
      cases rowAt? s.cursor with
      | none => exact ⟨q, rfl, hj, hg, B.later_refl _⟩
      | some kind =>
          obtain ⟨q', hd, hj', hg', hl⟩ := readRow_moves hc kind isFirst hj hg
          simp only [hd]
          generalize readRow c kind isFirst g s = r at hj' hg' hl ⊢
          have hlen : (r.2.withPage q').cursor.rest.length = r.2.cursor.rest.length := rfl
          simp only [hlen]
          split
          · rename_i hlt
            exact (ih _ (hn ▸ hlt) false r.1 r.2 q' hj' hg' rfl).after hl
          · exact ⟨q', rfl, hj', hg', hl⟩

theorem formatter_transparent : formatter.Transparent := by
  intro B macros c d s q _ hc hj
  have hj₀ : B.Joins { s with cursor := s.foundAt } q := hj.move rfl rfl
  have hg₀ : GridShows B s.page {} := fun part hpart => absurd hpart List.not_mem_nil
  obtain ⟨q', hd, hj', hg, hl⟩ := readRows_moves hc true {} _ q hj₀ hg₀
  have hd' : readRows d true {} { s.withPage q with cursor := (s.withPage q).foundAt } = _ := hd
  simp only [formatter, handle, hd']
  generalize readRows c true {} { s with cursor := s.foundAt } = r at hj' hg hl ⊢
  cases r.1.sections.isEmpty with
  | true => trivial
  | false => exact ⟨q', rfl, hj'.emit hg.toNode, hl⟩

end Table

end Gamebook
