/-
**Squares of a table.**

A table is written in squares, one between each two bars.  A square holds the text of a cell, or a
sign that lets another cell grow into it: `~` the cell above and `>` the next cell of the row.  This
module says which cells such squares stand for, and what becomes of the cells of a table when one
more square is read.  A `~` lets one cell grow, the latest one of its column; no other square
changes any cell that is already there.

Main definitions:

* `Table.Square`, `Table.Row` — a square and a row of squares of a table;
* `Table.gathered`, `Table.reach` — the number of `>` in front of a square since the latest text,
  and of `~` below it up to the next text of its column;
* `Table.cellRows`, `Table.tableNode` — **the cells that rows of squares stand for**, and the table
  of them;
* `Table.Spot`, `Table.latest` — where a cell stands, and the latest cell of a column.

Main results:

* `Table.latest_above`, `Table.latest_next`, `Table.latest_word` — the latest cells after one more
  square;
* `Table.cellRows_snoc` — one more square that is no `~` changes no cell above;
* `Table.cellRows_above` — **a `~` lets the latest cell of its column grow**, and no other.
-/

import Gamebook.Proofs.Render.Parts

set_option relaxedAutoImplicit false
set_option autoImplicit false

namespace Gamebook.Table

/-! ### Squares and rows -/

/-- What stands between two bars. -/
inductive Square where
  /-- The cell above grows into this square. -/
  | above
  /-- The next cell grows into this square. -/
  | next
  | word (letters : List Char)
  deriving DecidableEq, Repr

namespace Square

/-- The text of a square. -/
def letters? : Square → Option (List Char)
  | above | next => none
  | word letters => some letters

/-- A square as it is written. -/
def source : Square → List Char
  | above => ['~']
  | next => ['>']
  | word letters => letters

/-- Whether the text of a square is made of letters and digits. -/
def isPlain (q : Square) : Bool := q.letters?.all (·.all Char.isAlphanum)

end Square

/-- A row of a table. -/
structure Row where
  kind : Mark.RowKind
  squares : List Square
  kind_ne : kind ≠ .caption := by decide
  squares_ne : squares ≠ [] := by decide
  plain : squares.all Square.isPlain = true := by decide

/-! ### Cells -/

/-- The number of `>` in front of a square since the latest text. -/
def gathered (before : List Square) : Nat :=
  (before.reverse.takeWhile (·.letters? == none)).count .next

/-- The number of `~` in a column of the rows below, up to the next text there. -/
def reach (column : Nat) : List (List Square) → Nat
  | [] => 0
  | row :: below =>
      match row[column]? with
      | some (.word _) => 0
      | some .above => reach column below + 1
      | _ => reach column below

/-- The cell that holds a text, with `more` columns to its left and `further` rows below it that it
grows into. -/
def cell (letters : List Char) (more further : Nat) : Cell :=
  { element :=
      { tag := .cell
        attrs := (if 0 < more then [("colspan", toString (more + 1))] else []) ++
          if 0 < further then [("rowspan", toString (further + 1)), ("valign", "center")] else [] }
    content := if letters = [] then [] else [.text (String.ofList letters)] }

/-- The cells of squares that stand behind `before` in a row, with the squares of the rows below. -/
def cellsBehind (below : List (List Square)) (before : List Square) : List Square → List Cell
  | [] => []
  | .word letters :: after =>
      cell letters (gathered before) (reach before.length below) ::
        cellsBehind below (before ++ [.word letters]) after
  | q :: after => cellsBehind below (before ++ [q]) after

/-- **The cells of rows**, and the kinds of the rows; `below` are the squares further down. -/
def cellRows (below : List (List Square)) : List Row → List (Mark.RowKind × List Cell)
  | [] => []
  | row :: rows =>
      (row.kind, cellsBehind (rows.map Row.squares ++ below) [] row.squares) :: cellRows below rows

/-- The node of rows of one kind that follow one another. -/
def runNode (run : List (Mark.RowKind × List Cell)) : Node :=
  .element { tag := sectionTag ((run.head?.map Prod.fst).getD .body) }
    (run.map fun row => rowNode row.2)

/-- **The node of a table.**  Rows of one kind that follow one another share a section. -/
def tableNode (rows : List Row) : Node :=
  .element { tag := .table }
    (((cellRows [] rows).splitBy fun row next => row.1 == next.1).map runNode)

/-- Where a cell stands, and how far it reaches. -/
structure Spot where
  row : Nat
  /-- Its place among the cells of the row. -/
  place : Nat
  /-- The number of rows that it reaches over. -/
  height : Nat

/-- The latest cell of a column. -/
def latest (column : Nat) : List (List Square) → Option Spot
  | [] => none
  | row :: below =>
      match latest column below with
      | some spot => some { spot with row := spot.row + 1 }
      | none =>
          match row[column]? with
          | some (.word _) =>
              some ⟨0, (cellsBehind [] [] (row.take column)).length, reach column below + 1⟩
          | _ => none

variable {below rows : List (List Square)} {before after squares : List Square} {q : Square}
  {letters : List Char} {column : Nat}

@[simp] theorem gathered_above : gathered (before ++ [.above]) = gathered before := by
  simp [gathered, Square.letters?]

@[simp] theorem gathered_next : gathered (before ++ [.next]) = gathered before + 1 := by
  simp [gathered, Square.letters?]

@[simp] theorem gathered_word : gathered (before ++ [.word letters]) = 0 := by
  simp [gathered, Square.letters?]

/-- A cell that grows by one row. -/
theorem stretch_cell (letters : List Char) (more further : Nat) :
    (cell letters more further).stretch (further + 2) = cell letters more (further + 1) := by
  by_cases hmore : 0 < more <;> by_cases hfurther : 0 < further <;>
    simp [cell, Cell.stretch, Element.setAttr, Element.putAttr, hmore, hfurther]

theorem cellsBehind_append (below : List (List Square)) (before squares after : List Square) :
    cellsBehind below before (squares ++ after) =
      cellsBehind below before squares ++ cellsBehind below (before ++ squares) after := by
  induction squares generalizing before with
  | nil => simp [cellsBehind]
  | cons q squares ih => cases q <;> simp [cellsBehind, ih]

/-- How many cells there are does not depend on the rows below. -/
theorem length_cellsBehind (below below' : List (List Square))
    (before before' squares : List Square) :
    (cellsBehind below before squares).length = (cellsBehind below' before' squares).length := by
  induction squares generalizing before before' with
  | nil => rfl
  | cons q squares ih =>
      cases q with
      | word letters => exact congrArg (· + 1) (ih _ _)
      | above => exact ih _ _
      | next => exact ih _ _

/-- The cells of a row depend on the rows below only through those columns where it has a text. -/
theorem cellsBehind_congr {below' : List (List Square)}
    (h : ∀ i letters, after[i]? = some (.word letters) →
      reach (before.length + i) below' = reach (before.length + i) below) :
    cellsBehind below' before after = cellsBehind below before after := by
  induction after generalizing before with
  | nil => rfl
  | cons q after ih =>
      have hrest : ∀ i letters, after[i]? = some (.word letters) →
          reach ((before ++ [q]).length + i) below' = reach ((before ++ [q]).length + i) below := by
        intro i letters hi
        have hnext := h (i + 1) letters hi
        rwa [List.length_append, List.length_singleton, Nat.add_assoc, Nat.add_comm 1]
      cases q with
      | word letters =>
          have hfirst := h 0 letters rfl
          rw [Nat.add_zero] at hfirst
          simp only [cellsBehind, hfirst, ih hrest]
      | above => exact ih hrest
      | next => exact ih hrest

/-! ### One more square -/

/-- A square is no part of another column. -/
theorem getElem?_snoc_of_ne (h : column ≠ before.length) (q : Square) :
    (before ++ [q])[column]? = before[column]? := by
  rcases Nat.lt_or_gt_of_ne h with hlt | hgt
  · exact List.getElem?_append_left hlt
  · rw [List.getElem?_eq_none (by simp; omega), List.getElem?_eq_none (by omega)]

theorem reach_snoc_of_ne (h : column ≠ before.length) (q : Square) (rows : List (List Square)) :
    reach column (rows ++ [before ++ [q]]) = reach column (rows ++ [before]) := by
  induction rows with
  | nil => simp only [List.nil_append, reach, getElem?_snoc_of_ne h]
  | cons row rows ih => simp only [List.cons_append, reach, ih]

/-- A `>` and a text let no cell above grow. -/
theorem reach_snoc_of_ne_above (h : q ≠ .above) (rows : List (List Square)) :
    reach column (rows ++ [before ++ [q]]) = reach column (rows ++ [before]) := by
  by_cases hcolumn : column = before.length
  · induction rows with
    | nil =>
        rw [hcolumn]
        cases q with
        | above => exact absurd rfl h
        | next | word => simp [reach]
    | cons row rows ih => simp only [List.cons_append, reach, ih]
  · exact reach_snoc_of_ne hcolumn q rows

/-- A `~` does not let a cell grow that has another one below. -/
theorem reach_snoc_of_latest (h : latest before.length (rows ++ [before]) ≠ none) :
    reach before.length (rows ++ [before ++ [.above]]) =
      reach before.length (rows ++ [before]) := by
  induction rows with
  | nil => simp [latest] at h
  | cons row rows ih =>
      rw [List.cons_append, latest] at h
      simp only [List.cons_append, reach]
      cases hlatest : latest before.length (rows ++ [before]) with
      | some found => rw [ih (by simp [hlatest])]
      | none =>
          rw [hlatest] at h
          dsimp only at h
          split at h
          · rename_i hword
            rw [hword]
          · exact absurd rfl h

/-- It lets every other cell of its column grow. -/
theorem reach_snoc_above (h : latest before.length (rows ++ [before]) = none) :
    reach before.length (rows ++ [before ++ [.above]]) =
      reach before.length (rows ++ [before]) + 1 := by
  induction rows with
  | nil => simp [reach]
  | cons row rows ih =>
      rw [List.cons_append, latest] at h
      cases hlatest : latest before.length (rows ++ [before]) with
      | some found => simp [hlatest] at h
      | none =>
          rw [hlatest] at h
          dsimp only at h
          simp only [List.cons_append, reach, ih hlatest]
          split at h
          · cases h
          · rename_i hword
            split
            · rename_i letters hletters
              exact absurd hletters (hword letters)
            · rfl
            · rfl

theorem reach_nil_row (column : Nat) (rows : List (List Square)) :
    reach column (rows ++ [[]]) = reach column rows := by
  induction rows with
  | nil => rfl
  | cons row rows ih => simp only [List.cons_append, reach, ih]

/-! ### The latest cells -/

theorem latest_snoc_of_ne (h : column ≠ before.length) (q : Square) (rows : List (List Square)) :
    latest column (rows ++ [before ++ [q]]) = latest column (rows ++ [before]) := by
  induction rows with
  | nil =>
      simp only [List.nil_append, latest, getElem?_snoc_of_ne h]
      rcases Nat.lt_or_gt_of_ne h with hlt | hgt
      · rw [List.take_append_of_le_length (Nat.le_of_lt hlt)]
      · rw [List.getElem?_eq_none (Nat.le_of_lt hgt)]
  | cons row rows ih => simp only [List.cons_append, latest, ih, reach_snoc_of_ne h]

/-- A `>` is no cell. -/
theorem latest_next (column : Nat) (before : List Square) (rows : List (List Square)) :
    latest column (rows ++ [before ++ [.next]]) = latest column (rows ++ [before]) := by
  by_cases hcolumn : column = before.length
  · have hnext : Square.next ≠ .above := by decide
    induction rows with
    | nil => simp [latest, hcolumn]
    | cons row rows ih =>
        simp only [List.cons_append, latest, ih, reach_snoc_of_ne_above hnext]
  · exact latest_snoc_of_ne hcolumn .next rows

/-- A `~` lets the latest cell of its column reach one row further. -/
theorem latest_above (before : List Square) (rows : List (List Square)) :
    latest before.length (rows ++ [before ++ [.above]]) =
      (latest before.length (rows ++ [before])).map fun spot =>
        { spot with height := spot.height + 1 } := by
  induction rows with
  | nil => simp [latest]
  | cons row rows ih =>
      rw [List.cons_append, List.cons_append, latest, latest, ih]
      cases hlatest : latest before.length (rows ++ [before]) with
      | some found => rfl
      | none =>
          rw [reach_snoc_above hlatest]
          dsimp only [Option.map_none]
          split
          · rfl
          · rfl

/-- A text is the latest cell of its column. -/
theorem latest_word (before : List Square) (letters : List Char) (rows : List (List Square)) :
    latest before.length (rows ++ [before ++ [.word letters]]) =
      some ⟨rows.length, (cellsBehind [] [] before).length, 1⟩ := by
  induction rows with
  | nil => simp [latest, reach]
  | cons row rows ih => rw [List.cons_append, latest, ih, List.length_cons]

theorem latest_nil_row (column : Nat) (rows : List (List Square)) :
    latest column (rows ++ [[]]) = latest column rows := by
  induction rows with
  | nil => rfl
  | cons row rows ih => simp only [List.cons_append, latest, ih, reach_nil_row]

theorem row_lt_of_latest {spot : Spot} (h : latest column rows = some spot) :
    spot.row < rows.length := by
  induction rows generalizing spot with
  | nil => cases h
  | cons row rows ih =>
      rw [latest] at h
      split at h
      · rename_i hlatest
        cases h
        exact Nat.succ_lt_succ (ih hlatest)
      · split at h
        · cases h
          exact Nat.succ_pos _
        · cases h

/-! ### The cells of rows -/

variable {table : List Row}

/-- Rows that make the same cells grow make the same cells. -/
theorem cellRows_congr {below' : List (List Square)}
    (h : ∀ column rows, reach column (rows ++ below') = reach column (rows ++ below)) :
    cellRows below' table = cellRows below table := by
  induction table with
  | nil => rfl
  | cons row table ih =>
      rw [cellRows, cellRows, ih, cellsBehind_congr fun i letters _ => h _ _]

/-- A `>` and a text change no cell above. -/
theorem cellRows_snoc (h : q ≠ .above) :
    cellRows [before ++ [q]] table = cellRows [before] table :=
  cellRows_congr fun _ rows => reach_snoc_of_ne_above h rows

theorem cellRows_nil_row (table : List Row) : cellRows [[]] table = cellRows [] table :=
  cellRows_congr fun column rows => by rw [reach_nil_row, List.append_nil]

theorem cellRows_concat (below : List (List Square)) (table : List Row) (row : Row) :
    cellRows below (table ++ [row]) =
      cellRows (row.squares :: below) table ++
        [(row.kind, cellsBehind below [] row.squares)] := by
  induction table with
  | nil => rfl
  | cons row' table ih => simp [cellRows, ih]

/-- The cells of a row with a text in a column, if that grows by one row. -/
theorem cellsBehind_modify {below' : List (List Square)}
    (h : squares[column]? = some (.word letters))
    (hcolumn : reach column below' = reach column below + 1)
    (hothers : ∀ column', column' ≠ column → reach column' below' = reach column' below) :
    cellsBehind below' [] squares = (cellsBehind below [] squares).modify
      (cellsBehind [] [] (squares.take column)).length (·.stretch (reach column below + 2)) := by
  obtain ⟨hlt, hget⟩ := List.getElem?_eq_some_iff.1 h
  have hsquares : squares = squares.take column ++ .word letters :: squares.drop (column + 1) := by
    rw [← hget, List.getElem_cons_drop, List.take_append_drop]
  have hlength : (squares.take column).length = column :=
    List.length_take_of_le (Nat.le_of_lt hlt)
  generalize squares.take column = before at hsquares hlength ⊢
  generalize squares.drop (column + 1) = after at hsquares
  subst hsquares hlength
  -- in the columns to the left and to the right nothing changes
  have hbefore : cellsBehind below' [] before = cellsBehind below [] before := by
    refine cellsBehind_congr fun i letters' hi => hothers _ ?_
    have hi := (List.getElem?_eq_some_iff.1 hi).1
    simp only [List.length_nil, Nat.zero_add]
    omega
  have hafter : cellsBehind below' (before ++ [.word letters]) after =
      cellsBehind below (before ++ [.word letters]) after := by
    refine cellsBehind_congr fun i letters' _ => hothers _ ?_
    simp only [List.length_append, List.length_singleton]
    omega
  rw [cellsBehind_append, cellsBehind_append, List.nil_append, cellsBehind, cellsBehind, hbefore,
    hafter, hcolumn, length_cellsBehind [] below [] [] before, modify_append_cons, stretch_cell]

/-- A `~` lets no cell grow that does not stand in its column. -/
theorem cellsBehind_snoc_of_not_word
    (h : ∀ letters, squares[before.length]? ≠ some (.word letters)) (q : Square) :
    cellsBehind (rows ++ [before ++ [q]]) [] squares =
      cellsBehind (rows ++ [before]) [] squares := by
  refine cellsBehind_congr fun i letters hi => reach_snoc_of_ne ?_ q rows
  rintro heq
  rw [List.length_nil, Nat.zero_add] at heq
  exact h letters (heq ▸ hi)

/-- Nor does it one that has another one below. -/
theorem cellsBehind_snoc_of_latest (h : latest before.length (rows ++ [before]) ≠ none)
    (squares : List Square) :
    cellsBehind (rows ++ [before ++ [.above]]) [] squares =
      cellsBehind (rows ++ [before]) [] squares := by
  refine cellsBehind_congr fun i letters _ => ?_
  by_cases hi : ([] : List Square).length + i = before.length
  · rw [hi]
    exact reach_snoc_of_latest h
  · exact reach_snoc_of_ne hi _ _

/-- **A `~` lets the latest cell of its column grow**, and no other. -/
theorem cellRows_above (before : List Square) (table : List Row) :
    cellRows [before ++ [.above]] table =
      (latest before.length (table.map Row.squares ++ [before])).elim (cellRows [before] table)
        fun spot => (cellRows [before] table).modify spot.row fun row =>
          (row.1, row.2.modify spot.place (·.stretch (spot.height + 1))) := by
  induction table with
  | nil =>
      cases latest before.length ([].map Row.squares ++ [before]) with
      | none => rfl
      | some spot => simp [cellRows]
  | cons row table ih =>
      rw [List.map_cons, List.cons_append, latest, cellRows, cellRows, ih]
      cases hlatest : latest before.length (table.map Row.squares ++ [before]) with
      | some spot =>
          rw [cellsBehind_snoc_of_latest (by simp [hlatest])]
          rfl
      | none =>
          cases hsquare : row.squares[before.length]? with
          | none =>
              rw [cellsBehind_snoc_of_not_word (by simp [hsquare])]
              rfl
          | some q =>
              cases q with
              | word letters =>
                  rw [cellsBehind_modify hsquare (reach_snoc_above hlatest)
                    fun column' hne => reach_snoc_of_ne hne _ _]
                  rfl
              | above | next =>
                  rw [cellsBehind_snoc_of_not_word (by simp [hsquare])]
                  rfl

end Gamebook.Table
