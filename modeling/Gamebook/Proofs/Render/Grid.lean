/-
**A table while it is read.**

The rows of a table lie in sections, one after another, and the table notes the latest cell of each
column by the section and the place in it.  So a cell may grow that lies in a section which is
closed already.  This module says that a table which is read square by square holds the cells that
the squares read so far stand for, wherever its sections begin and end.

Main definitions:

* `Table.flat` — the rows of all sections;
* `Table.place` — the section of a row, and its place in that;
* `Table.Grid.Holds`, `Table.Grid.Reads` — a table holds rows, and some squares of one more row.

Main results:

* `Table.flat_modify` — a change of a row is one of the section that it lies in;
* `Table.Grid.Holds.enter`, `Table.Grid.Reads.stretch`, `Table.Grid.Reads.next`,
  `Table.Grid.Reads.anchor`, `Table.Grid.Reads.addRow` — **each step of reading a row keeps what
  the table holds**;
* `Table.Grid.Holds.toNode_eq` — the node of a table that holds rows.
-/

import Mathlib.Algebra.GroupWithZero.Nat
import Mathlib.Data.List.SplitBy
import Gamebook.Proofs.Render.Said
import Gamebook.Proofs.Render.Squares

set_option relaxedAutoImplicit false
set_option autoImplicit false

namespace Gamebook.Table

open Mark (RowKind)

/-! ### Rows and sections -/

/-- The rows of sections, with their kinds. -/
def flat (parts : List Section) : List (RowKind × List Cell) :=
  parts.flatMap fun part => part.rows.map fun cells => (part.kind, cells)

/-- A section without its cells. -/
structure Outline where
  kind : RowKind
  element : Element
  height : Nat

/-- What a section is but for its cells. -/
def Section.outline (part : Section) : Outline := ⟨part.kind, part.element, part.rows.length⟩

/-- The sections of a table, without their cells. -/
def Grid.outlines (g : Grid) : List Outline := g.sections.map Section.outline

/-- The heights of the sections that are closed, all but the last. -/
def closed (outlines : List Outline) : List Nat := outlines.dropLast.map Outline.height

/-- The section of a row, and its place in that, by the heights of the sections that are closed. -/
def place : List Nat → Nat → Nat × Nat
  | [], r => (0, r)
  | h :: heights, r =>
      if r < h then (0, r) else ((place heights (r - h)).1 + 1, (place heights (r - h)).2)

variable {g : Grid} {parts : List Section} {rows : List Row} {row : Row} {kind : RowKind}
  {before : List Square} {heights : List Nat} {letters : List Char} {column : Nat}

theorem place_sum (heights : List Nat) (r : Nat) :
    place heights (heights.sum + r) = (heights.length, r) := by
  induction heights with
  | nil => simp [place]
  | cons h heights ih =>
      have hnot : ¬ h + heights.sum + r < h := by omega
      have hrest : h + heights.sum + r - h = heights.sum + r := by omega
      rw [List.sum_cons, place, if_neg hnot, hrest, ih, List.length_cons]

/-- A row stays in its section when the next one is opened. -/
theorem place_concat {h r : Nat} (hlt : r < heights.sum + h) :
    place (heights ++ [h]) r = place heights r := by
  induction heights generalizing r with
  | nil => simpa [place] using hlt
  | cons h' heights ih =>
      rw [List.cons_append, place, place]
      split
      · rfl
      · rw [List.sum_cons] at hlt
        rw [ih (by omega)]

theorem length_flat (parts : List Section) :
    (flat parts).length = (parts.map fun part => part.rows.length).sum := by
  simp [flat]

/-- **A change of a row is one of the section that it lies in.** -/
theorem flat_modify (f : List Cell → List Cell) (parts : List Section) (r : Nat) :
    flat (parts.modify (place (closed (parts.map Section.outline)) r).1 fun part =>
        { part with
          rows := part.rows.modify (place (closed (parts.map Section.outline)) r).2 f }) =
      (flat parts).modify r fun row => (row.1, f row.2) := by
  have hrows : ∀ (part : Section) (i : Nat),
      (part.rows.modify i f).map (fun cells => (part.kind, cells)) =
        (part.rows.map fun cells => (part.kind, cells)).modify i fun row => (row.1, f row.2) :=
    fun part i => map_modify (fun cells => (part.kind, cells)) (fun row => (row.1, f row.2))
      (fun _ => rfl) part.rows i
  induction parts generalizing r with
  | nil => simp [flat]
  | cons part parts ih =>
      cases parts with
      | nil => simp [flat, closed, place, hrows]
      | cons next parts =>
          have hclosed : closed ((part :: next :: parts).map Section.outline) =
              part.rows.length :: closed ((next :: parts).map Section.outline) := by
            simp [closed, Section.outline]
          have hflat : ∀ (part : Section) (parts : List Section), flat (part :: parts) =
              part.rows.map (fun cells => (part.kind, cells)) ++ flat parts :=
            fun _ _ => List.flatMap_cons
          rw [hclosed, place, hflat, modify_append, List.length_map]
          split
          · rw [List.modify_zero_cons, hflat]
            exact congrArg (· ++ flat (next :: parts)) (hrows part r)
          · rw [List.modify_succ_cons, hflat, ih]

/-! ### What a table holds -/

/-- What is noted about the latest cell of a column, by the heights of the closed sections. -/
def anchorOf (heights : List Nat) (column : Nat) (spot : Spot) : Anchor where
  column := column
  sectionIndex := (place heights spot.row).1
  rowIndex := (place heights spot.row).2
  cellIndex := spot.place
  height := spot.height

/-- The latest cell of each column is noted, and where it stands. -/
def Grid.Notes (g : Grid) (squares : List (List Square)) : Prop :=
  ∀ column, g.anchors.find? (·.column == column) =
    (latest column squares).map (anchorOf (closed g.outlines) column)

/-- Sections as rows make them: none is a caption, and no two that follow one another are of one
kind. -/
structure Tidy (outlines : List Outline) : Prop where
  plain : ∀ o ∈ outlines, o.kind ≠ .caption ∧ o.element = { tag := sectionTag o.kind }
  kinds : outlines.IsChain fun o next => o.kind ≠ next.kind

/-- A table holds rows, and nothing else. -/
structure Grid.Holds (g : Grid) (rows : List Row) : Prop where
  flat_eq : flat g.sections = cellRows [] rows
  notes : g.Notes (rows.map Row.squares)
  tidy : Tidy g.outlines
  full : ∀ o ∈ g.outlines, 0 < o.height

/-- A table holds rows, and what the squares `before` of one more row have changed in them; its last
section is the one that the row belongs to. -/
structure Grid.Reads (g : Grid) (rows : List Row) (kind : RowKind) (before : List Square) :
    Prop where
  flat_eq : flat g.sections = cellRows [before] rows
  notes : g.Notes (rows.map Row.squares ++ [before])
  tidy : Tidy g.outlines
  opened : ∃ earlier last, g.outlines = earlier ++ [last] ∧ last.kind = kind ∧
    ∀ o ∈ earlier, 0 < o.height

theorem length_cellRows (below : List (List Square)) (rows : List Row) :
    (cellRows below rows).length = rows.length := by
  induction rows with
  | nil => rfl
  | cons row rows ih => simp [cellRows, ih]

/-- The sections are as high as there are rows. -/
theorem sum_heights {below : List (List Square)} (h : flat g.sections = cellRows below rows) :
    (g.outlines.map Outline.height).sum = rows.length := by
  rw [← length_cellRows below rows, ← h, length_flat, Grid.outlines, List.map_map]
  rfl

/-- What is noted stays when the next section is opened. -/
theorem anchorOf_concat {outlines : List Outline} {spot : Spot}
    (h : spot.row < (outlines.map Outline.height).sum) (o : Outline) (column : Nat) :
    anchorOf (closed (outlines ++ [o])) column spot = anchorOf (closed outlines) column spot := by
  rcases List.eq_nil_or_concat outlines with rfl | ⟨earlier, last, rfl⟩
  · exact absurd h (Nat.not_lt_zero _)
  · rw [List.concat_eq_append, List.map_append, List.sum_append] at h
    have hplace : place (closed (earlier.concat last ++ [o])) spot.row =
        place (closed (earlier.concat last)) spot.row := by
      simp only [closed, List.concat_eq_append, List.dropLast_concat, List.map_append]
      exact place_concat (by simpa using h)
    simp only [anchorOf, hplace]

namespace Grid

theorem holds_nil : Holds {} [] where
  flat_eq := rfl
  notes := fun _ => rfl
  tidy := ⟨fun _ ho => absurd ho List.not_mem_nil, .nil⟩
  full := fun _ ho => absurd ho List.not_mem_nil

theorem Reads.exists_sections (h : g.Reads rows kind before) :
    ∃ parts part, g.sections = parts ++ [part] ∧ part.kind = kind ∧
      ∀ o ∈ parts.map Section.outline, 0 < o.height := by
  obtain ⟨earlier, last, houtlines, hkind, hfull⟩ := h.opened
  obtain ⟨parts, tail, hsections, rfl, htail⟩ := List.map_eq_append_iff.1 houtlines
  obtain ⟨part, rfl, rfl⟩ := List.map_eq_singleton_iff.1 htail
  exact ⟨parts, part, hsections, hkind, hfull⟩

/-! ### The steps of reading a row -/

/-- A row of the kind of the last section goes on there. -/
theorem Holds.goOn (h : g.Holds rows) (hlast : g.sections.getLast?.map Section.kind = some kind) :
    g.Reads rows kind [] where
  flat_eq := h.flat_eq.trans (cellRows_nil_row rows).symm
  notes := fun column => by rw [latest_nil_row, h.notes]
  tidy := h.tidy
  opened := by
    obtain ⟨part, hpart, hkind⟩ := Option.map_eq_some_iff.1 hlast
    obtain ⟨earlier, hearlier⟩ := List.getLast?_eq_some_iff.1 hpart
    have houtlines : g.outlines = earlier.map Section.outline ++ [part.outline] := by
      simp [outlines, hearlier]
    exact ⟨_, _, houtlines, hkind, fun o ho => h.full o (houtlines ▸ List.mem_append_left _ ho)⟩

/-- For a row of another kind a section is opened. -/
theorem Holds.opens (h : g.Holds rows) (hkind : kind ≠ .caption)
    (hlast : g.sections.getLast?.map Section.kind ≠ some kind) {fresh : Section}
    (hfresh : fresh = { kind := kind, element := { tag := sectionTag kind } }) :
    ({ g with sections := g.sections ++ [fresh] } : Grid).Reads rows kind [] := by
  have houtlines : ({ g with sections := g.sections ++ [fresh] } : Grid).outlines =
      g.outlines ++ [fresh.outline] := by simp [outlines]
  subst hfresh
  refine ⟨?_, fun column => ?_, ⟨?_, ?_⟩, _, _, houtlines, rfl, h.full⟩
  · rw [cellRows_nil_row, ← h.flat_eq]
    simp [flat]
  · -- the sections are closed up to the last one now, but no cell has been noted further down
    rw [latest_nil_row]
    refine (h.notes column).trans (Option.map_congr fun spot hspot => ?_)
    rw [houtlines, anchorOf_concat]
    rw [sum_heights h.flat_eq, ← List.length_map (f := Row.squares)]
    exact row_lt_of_latest hspot
  · rw [houtlines]
    exact List.forall_mem_append.2 ⟨h.tidy.plain, List.forall_mem_singleton.2 ⟨hkind, rfl⟩⟩
  · rw [houtlines, List.isChain_append]
    refine ⟨h.tidy.kinds, List.isChain_singleton _, fun o ho next hnext => ?_⟩
    cases hnext
    rintro rfl
    obtain ⟨part, hpart, rfl⟩ := Option.map_eq_some_iff.1 (List.getLast?_map.symm.trans ho)
    exact hlast (congrArg (Option.map Section.kind) hpart)

/-- **Before a row is read there is a section for it.** -/
theorem Holds.enter (h : g.Holds rows) (hkind : kind ≠ .caption) :
    (g.enter kind).Reads rows kind [] := by
  rw [Grid.enter]
  split
  · rename_i hlast
    exact h.goOn hlast
  · rename_i hlast
    exact h.opens hkind hlast rfl

theorem stretch_of_none (h : g.anchors.find? (·.column == column) = none) :
    g.stretch column = g := by
  rw [Grid.stretch, h]

theorem stretch_of_some {anchor : Anchor}
    (h : g.anchors.find? (·.column == column) = some anchor) :
    g.stretch column =
      { anchors := { anchor with height := anchor.height + 1 } :: g.anchors
        sections := g.sections.modify anchor.sectionIndex fun part =>
          { part with
            rows := part.rows.modify anchor.rowIndex fun cells =>
              cells.modify anchor.cellIndex (·.stretch (anchor.height + 1)) } } := by
  rw [Grid.stretch, h]

/-- A cell that grows is no matter of the outlines. -/
theorem outlines_stretch (g : Grid) (column : Nat) : (g.stretch column).outlines = g.outlines := by
  cases h : g.anchors.find? (·.column == column) with
  | none => rw [stretch_of_none h]
  | some anchor =>
      rw [stretch_of_some h]
      refine (map_modify Section.outline id (fun part => ?_) g.sections _).trans
        (List.modify_id _ _)
      simp [Section.outline]

/-- A `~` lets the cell above grow. -/
theorem Reads.stretch (h : g.Reads rows kind before) :
    (g.stretch before.length).Reads rows kind (before ++ [.above]) := by
  have hnotes := h.notes before.length
  cases hlatest : latest before.length (rows.map Row.squares ++ [before]) with
  | none =>
      rw [hlatest] at hnotes
      rw [stretch_of_none hnotes]
      refine ⟨?_, fun column => ?_, h.tidy, h.opened⟩
      · rw [cellRows_above, hlatest]
        exact h.flat_eq
      · by_cases hcolumn : column = before.length
        · rw [hcolumn, latest_above, hlatest]
          exact hnotes
        · rw [latest_snoc_of_ne hcolumn]
          exact h.notes column
  | some spot =>
      rw [hlatest] at hnotes
      refine ⟨?_, fun column => ?_, outlines_stretch g _ ▸ h.tidy, outlines_stretch g _ ▸ h.opened⟩
      · rw [stretch_of_some hnotes, cellRows_above, hlatest, ← h.flat_eq]
        exact flat_modify _ g.sections spot.row
      · -- the changed note stands in front of the one that it was made of
        rw [outlines_stretch, stretch_of_some hnotes]
        by_cases hcolumn : column = before.length
        · rw [hcolumn, latest_above, hlatest]
          exact List.find?_cons_of_pos (beq_self_eq_true _)
        · rw [latest_snoc_of_ne hcolumn, ← h.notes]
          exact List.find?_cons_of_neg (by simpa [anchorOf] using Ne.symm hcolumn)

theorem Reads.next (h : g.Reads rows kind before) : g.Reads rows kind (before ++ [.next]) where
  flat_eq := h.flat_eq.trans (cellRows_snoc (by decide)).symm
  notes := fun column => by rw [latest_next, h.notes]
  tidy := h.tidy
  opened := h.opened

/-- A row is about to stand behind all rows of the last section. -/
theorem Reads.anchors_anchor (h : g.Reads rows kind before) (column : Nat) (cells : List Cell) :
    (g.anchor column cells).anchors =
      anchorOf (closed g.outlines) column ⟨rows.length, cells.length, 1⟩ :: g.anchors := by
  obtain ⟨parts, part, hsections, -, -⟩ := h.exists_sections
  have hclosed : closed g.outlines = parts.map fun part => part.rows.length := by
    simp [closed, outlines, hsections, Section.outline, Function.comp_def]
  have hrow : rows.length = (closed g.outlines).sum + part.rows.length := by
    rw [← sum_heights h.flat_eq, hclosed]
    simp [outlines, hsections, Section.outline, Function.comp_def]
  rw [anchorOf, hrow, place_sum]
  simp [Grid.anchor, hclosed, hsections]

/-- A text is noted as the latest cell of its column. -/
theorem Reads.anchor (h : g.Reads rows kind before) (letters : List Char) :
    (g.anchor before.length (cellsBehind [] [] before)).Reads rows kind
      (before ++ [.word letters]) where
  flat_eq := h.flat_eq.trans (cellRows_snoc (by simp)).symm
  notes := fun column => by
    by_cases hcolumn : column = before.length
    · rw [hcolumn, latest_word, Option.map_some, h.anchors_anchor, List.length_map]
      exact List.find?_cons_of_pos (beq_self_eq_true _)
    · rw [latest_snoc_of_ne hcolumn]
      exact (List.find?_cons_of_neg (by simpa using Ne.symm hcolumn)).trans (h.notes column)
  tidy := h.tidy
  opened := h.opened

/-- The table with one more row in its last section. -/
def addRow (g : Grid) (cells : List Cell) : Grid :=
  g.modifyLast fun part => { part with rows := part.rows ++ [cells] }

theorem outlines_addRow {part : Section} (h : g.sections = parts ++ [part]) (cells : List Cell) :
    (g.addRow cells).outlines =
      parts.map Section.outline ++ [⟨part.kind, part.element, part.rows.length + 1⟩] := by
  rw [outlines, addRow, sections_modifyLast h]
  simp [Section.outline]

/-- Behind its last square the row is added to the last section. -/
theorem Reads.addRow (h : g.Reads rows row.kind row.squares) :
    (g.addRow (cellsBehind [] [] row.squares)).Holds (rows ++ [row]) := by
  obtain ⟨parts, part, hsections, hkind, hfull⟩ := h.exists_sections
  have houtlines : g.outlines = parts.map Section.outline ++ [part.outline] := by
    simp [outlines, hsections]
  have houtlines' := outlines_addRow hsections (cellsBehind [] [] row.squares)
  obtain ⟨hplain, hkinds⟩ := h.tidy
  rw [houtlines] at hplain hkinds
  refine ⟨?_, fun column => ?_, ⟨?_, ?_⟩, ?_⟩
  · rw [Grid.addRow, sections_modifyLast hsections, cellRows_concat, ← h.flat_eq, hsections,
      ← hkind]
    simp [flat]
  · rw [List.map_append]
    refine (h.notes column).trans ?_
    rw [houtlines, houtlines', closed, closed, List.dropLast_concat, List.dropLast_concat]
    rfl
  · rw [houtlines']
    obtain ⟨hearlier, hpart⟩ := List.forall_mem_append.1 hplain
    have hlast := hpart part.outline (List.mem_singleton_self _)
    exact List.forall_mem_append.2 ⟨hearlier, List.forall_mem_singleton.2 hlast⟩
  · rw [houtlines', List.isChain_append]
    obtain ⟨hearlier, -, hnext⟩ := List.isChain_append.1 hkinds
    refine ⟨hearlier, List.isChain_singleton _, fun o ho next hin => ?_⟩
    cases hin
    exact hnext o ho part.outline rfl
  · rw [houtlines']
    exact List.forall_mem_append.2 ⟨hfull, List.forall_mem_singleton.2 (Nat.succ_pos _)⟩

/-! ### The node of a table -/

theorem Holds.sections_ne_nil (h : g.Holds rows) (hrows : rows ≠ []) : g.sections ≠ [] := by
  intro hnil
  have hlength := congrArg List.length h.flat_eq
  rw [hnil, length_cellRows] at hlength
  exact hrows (List.eq_nil_of_length_eq_zero hlength.symm)

/-- The rows of a section are a run of rows of one kind. -/
theorem runNode_section {part : Section} (hrows : part.rows ≠ []) (hkind : part.kind ≠ .caption)
    (helement : part.element = { tag := sectionTag part.kind }) :
    runNode (part.rows.map fun cells => (part.kind, cells)) = part.toNode := by
  obtain ⟨cells, others, hcons⟩ := List.exists_cons_of_ne_nil hrows
  have hnode : part.toNode = .element part.element (part.rows.map rowNode) := by
    rw [Section.toNode]
    split
    · rename_i hcaption
      exact absurd hcaption hkind
    · rfl
  rw [hnode, helement, runNode, List.map_map, hcons]
  rfl

/-- **The node of a table that holds rows.** -/
theorem Holds.toNode_eq (h : g.Holds rows) : g.toNode = tableNode rows := by
  have hrows : ∀ part ∈ g.sections, part.rows ≠ [] := fun part hpart =>
    List.ne_nil_of_length_pos (h.full part.outline (List.mem_map_of_mem hpart))
  have hruns : (cellRows [] rows).splitBy (fun row next => row.1 == next.1) =
      g.sections.map fun part => part.rows.map fun cells => (part.kind, cells) := by
    rw [← h.flat_eq, flat, List.flatMap_def]
    refine List.splitBy_flatten ?_ ?_ ?_
    · intro hin
      obtain ⟨part, hpart, hnil⟩ := List.mem_map.1 hin
      exact hrows part hpart (List.map_eq_nil_iff.1 hnil)
    · intro run hrun
      obtain ⟨part, -, rfl⟩ := List.mem_map.1 hrun
      refine (List.isChain_map _).2 (List.pairwise_of_forall fun _ _ => ?_).isChain
      exact beq_self_eq_true _
    · have hkinds := (List.isChain_map _).1 h.tidy.kinds
      refine (List.isChain_map _).2 (hkinds.imp_of_mem_imp fun part next hpart hnext hne => ?_)
      have hkind : part.kind ≠ next.kind := hne
      refine ⟨by simpa using hrows part hpart, by simpa using hrows next hnext, ?_⟩
      simpa using hkind
  rw [toNode, tableNode, hruns, List.map_map]
  refine congrArg (Node.element _) (List.map_congr_left fun part hpart => ?_)
  obtain ⟨hkind, helement⟩ := h.tidy.plain part.outline (List.mem_map_of_mem hpart)
  exact (runNode_section (hrows part hpart) hkind helement).symm

end Grid

end Gamebook.Table
