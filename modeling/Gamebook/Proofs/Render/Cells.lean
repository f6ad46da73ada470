/-
**Rendering a table.**

The rows of a table are written one below the other, each as its squares with a bar in front of each
and one behind the last.  A cell shares each of its bars with a neighbour: the scan that reads it
passes the bar behind it, and steps back to it.  So a row is read square by square, and what the
table holds is what the squares stand for.

Main definitions:

* `Table.Row.source`, `Table.source` — a row and a table as they are written;
* `Table.Reaches` — the scanner stands where the next rows start.

Main results:

* `Table.slot?_square`, `Table.slot?_rowEnd` — what stands at a bar of a row;
* `Table.readCell_word` — **a cell is read as it was written**, up to the bar behind it;
* `Table.readCells_reads`, `Table.readRows_holds` — **so are rows and tables**;
* `Story.render_table` — **what a table is rendered to**.
-/

import Gamebook.Proofs.Render.Grid
import Gamebook.Proofs.Render.Outline

set_option relaxedAutoImplicit false
set_option autoImplicit false

namespace Gamebook

theorem Standard.notMem_signs_of_isAlphanum {c : Char} (hc : c.isAlphanum = true) : c ∉ signs :=
  notMem_signs (by decide) hc

/-- Going over a character of one byte and back changes nothing. -/
theorem Cursor.stepBack_forward {c : Cursor} {ch : Char} {rest : List Char}
    (hrest : c.rest = ch :: rest) (hsize : ch.utf8Size = 1) : (c.forward 1).stepBack = c := by
  obtain ⟨before, rest'⟩ := c
  cases hrest
  exact if_pos hsize

namespace Table

open Mark (RowKind)

/-! ### Tables as they are written -/

/-- The letter behind the last bar of a row. -/
def kindLetter : RowKind → List Char
  | .body => []
  | .head => ['h']
  | .foot => ['f']
  | .caption => ['c']

/-- Squares as they are written, each behind a bar. -/
def written (squares : List Square) : List Char := squares.flatMap fun q => '|' :: q.source

/-- A row as it is written. -/
def Row.source (row : Row) : List Char := written row.squares ++ '|' :: kindLetter row.kind

/-- What stands behind a row. -/
def behind (final : Bool) : List Row → List Char
  | [] => if final then ['\n'] else []
  | row :: rows => '\n' :: (row.source ++ behind final rows)

/-- **Rows as they are written**, one below the other.  The last one may end with a line break of
its own, too. -/
def source (final : Bool) : List Row → List Char
  | [] => []
  | row :: rows => row.source ++ behind final rows

variable {final : Bool} {rows done : List Row} {row : Row} {kind : RowKind} {g : Grid}
  {before squares : List Square} {q : Square} {letters more : List Char} {s : Scanner}

/-- A row is followed by a line break, or by nothing. -/
theorem behind_eq (final : Bool) (rows : List Row) :
    behind final rows = '\n' :: source final rows ∨ behind final rows = [] ∧ rows = [] := by
  cases rows with
  | cons row rows => exact .inl rfl
  | nil =>
      cases final with
      | true => exact .inl rfl
      | false => exact .inr ⟨rfl, rfl⟩

theorem of_mem_source_square (hq : q.isPlain = true) :
    ∀ c ∈ q.source, c.isAlphanum = true ∨ c = '~' ∨ c = '>' := by
  intro c hc
  cases q with
  | above => exact .inr (.inl (List.mem_singleton.1 hc))
  | next => exact .inr (.inr (List.mem_singleton.1 hc))
  | word letters => exact .inl (List.all_eq_true.1 hq c hc)

/-- A row is made of few characters. -/
theorem of_mem_source_row (row : Row) :
    ∀ c ∈ row.source, c.isAlphanum = true ∨ c = '~' ∨ c = '>' ∨ c = '|' := by
  intro c hc
  rcases List.mem_append.1 hc with hc | hc
  · obtain ⟨q, hq, hc⟩ := List.mem_flatMap.1 hc
    rcases List.mem_cons.1 hc with rfl | hc
    · simp
    · have hplain := of_mem_source_square (List.all_eq_true.1 row.plain q hq) c hc
      grind
  · have hletter : (kindLetter row.kind).all Char.isAlphanum = true := by
      cases row.kind <;> decide
    rcases List.mem_cons.1 hc with rfl | hc
    · simp
    · exact .inl (List.all_eq_true.1 hletter c hc)

theorem notMem_source_row (row : Row) : '\n' ∉ row.source ∧ ':' ∉ row.source := by
  constructor <;> exact fun hin => absurd (of_mem_source_row row _ hin) (by decide)

theorem colon_notMem_behind (final : Bool) (rows : List Row) : ':' ∉ behind final rows := by
  induction rows with
  | nil => cases final <;> decide
  | cons row rows ih =>
      simp only [behind, List.mem_cons, List.mem_append, not_or]
      exact ⟨by decide, (notMem_source_row row).2, ih⟩

/-! ### What stands at a bar -/

/-- What a square is read as. -/
def Square.slot : Square → Slot
  | above => .above
  | next => .next
  | word _ => .content

theorem slot?_square (hq : q.isPlain = true) (more : List Char) :
    slot? ('|' :: (q.source ++ '|' :: more)) = some q.slot := by
  have hinside : (q.source ++ '|' :: more).takeWhile (fun c => c != '|' && c != '\n') =
      q.source := by
    rw [List.takeWhile_append_of_pos, List.takeWhile_cons_of_neg (by decide), List.append_nil]
    intro c hc
    rcases of_mem_source_square hq c hc with hc | rfl | rfl
    · have hbar : c ≠ '|' := by rintro rfl; exact absurd hc (by decide)
      have hbreak : c ≠ '\n' := by rintro rfl; exact absurd hc (by decide)
      simp [hbar, hbreak]
    · decide
    · decide
  simp only [slot?, hinside, List.drop_left]
  cases q with
  | above => rfl
  | next => rfl
  | word letters =>
      have habove : letters ≠ ['~'] := by
        rintro rfl
        exact absurd hq (by decide)
      have hnext : letters ≠ ['>'] := by
        rintro rfl
        exact absurd hq (by decide)
      rw [Square.source, if_neg habove, if_neg hnext]
      rfl

/-- The scanner stands where the next rows start, if there are any. -/
structure Reaches (final : Bool) (rows : List Row) (s t : Scanner) : Prop where
  nodes : t.nodes = s.nodes
  page : t.page = s.page
  rest : t.cursor.rest = source final rows
  previous : rows ≠ [] → Pattern.startsLine t.cursor.previous = true

/-- The last bar of a row ends it, and behind it the next rows start. -/
theorem slot?_rowEnd (hrest : s.cursor.rest = '|' :: (kindLetter kind ++ behind final rows)) :
    ∃ length, slot? s.cursor.rest = some (.rowEnd length) ∧
      Reaches final rows s (s.forward length) := by
  rcases behind_eq final rows with hbehind | ⟨hbehind, rfl⟩
  · rw [hbehind] at hrest
    have hslot : slot? s.cursor.rest = some (.rowEnd ((kindLetter kind).length + 2)) := by
      rw [hrest]
      cases kind <;> rfl
    refine ⟨_, hslot, rfl, rfl, ?_, fun _ => ?_⟩
    · change s.cursor.rest.drop _ = _
      rw [hrest]
      cases kind <;> rfl
    · change Pattern.startsLine (s.cursor.forward _).previous = true
      rw [Cursor.forward, hrest]
      cases kind <;> rfl
  · rw [hbehind] at hrest
    have hslot : slot? s.cursor.rest = some (.rowEnd ((kindLetter kind).length + 1)) := by
      rw [hrest]
      cases kind <;> rfl
    refine ⟨_, hslot, rfl, rfl, ?_, fun hne => absurd rfl hne⟩
    change s.cursor.rest.drop _ = _
    rw [hrest]
    cases kind <;> rfl

/-! ### The kind of a row -/

theorem isBarred_written (row : Row) : Mark.isBarred (written row.squares ++ ['|']) = true := by
  obtain ⟨q, squares, hsquares⟩ := List.exists_cons_of_ne_nil row.squares_ne
  have hwritten : written row.squares = '|' :: (q.source ++ written squares) := by
    rw [hsquares, written, List.flatMap_cons]
    rfl
  have htwo : 2 ≤ (written row.squares ++ ['|']).length := by
    simp [hwritten]
    omega
  simp only [Mark.isBarred, List.getLast?_concat, decide_eq_true htwo, Bool.and_true]
  rw [hwritten]
  rfl

/-- **The kind of a row is read as it was written.** -/
theorem rowKind?_source (row : Row) : Mark.rowKind? row.source = some row.kind := by
  have hmarked : ∀ letter kind, RowKind.ofLetter? letter = some kind →
      Mark.rowKind? (written row.squares ++ ['|', letter]) = some kind := by
    intro letter kind hletter
    have hne : letter ≠ '|' := by
      rintro rfl
      cases hletter
    have hnot : Mark.isBarred (written row.squares ++ ['|', letter]) = false := by
      simp [Mark.isBarred, hne]
    have hlast : (written row.squares ++ ['|', letter]).getLast? = some letter := by simp
    have hdrop : (written row.squares ++ ['|', letter]).dropLast =
        written row.squares ++ ['|'] := by simp
    rw [Mark.rowKind?, hnot, hlast, Option.bind_some, hletter, hdrop, isBarred_written]
    rfl
  rw [Row.source]
  cases row.kind with
  | body =>
      rw [Mark.rowKind?, kindLetter, isBarred_written]
      rfl
  | head => exact hmarked 'h' _ rfl
  | foot => exact hmarked 'f' _ rfl
  | caption => exact hmarked 'c' _ rfl

theorem line_source (row : Row) (final : Bool) (rows : List Row) :
    Mark.line (row.source ++ behind final rows) = row.source := by
  have hbehind : (behind final rows).takeWhile (· != '\n') = [] := by
    rcases behind_eq final rows with hbehind | ⟨hbehind, -⟩ <;> rw [hbehind]
    · exact List.takeWhile_cons_of_neg (by decide)
    · rfl
  rw [Mark.line, List.takeWhile_append_of_pos, hbehind, List.append_nil]
  intro c hc
  exact bne_iff_ne.2 (ne_of_mem_of_not_mem hc (notMem_source_row row).1)

/-! ### Reading a cell -/

/-- No declaration stands in front of a text. -/
theorem declarations_word (hletters : ∀ c ∈ letters, c.isAlphanum = true) (more : List Char) :
    Style.declarations (letters ++ '|' :: more) = ([], 0) := by
  have hnameChar : ∀ c ∈ letters, Style.isNameChar c = true := by
    intro c hc
    simp only [Style.isNameChar, hletters c hc, Bool.true_or]
  have hname : (letters ++ '|' :: more).takeWhile Style.isNameChar = letters := by
    rw [List.takeWhile_append_of_pos hnameChar, List.takeWhile_cons_of_neg (by decide),
      List.append_nil]
  refine Style.declarations_of_none ?_
  rw [Style.declaration?, hname, List.drop_left]
  split
  · rfl
  · rfl

/-- Neither a declaration nor a space nor an exclamation mark does. -/
theorem cellOpening_word (hletters : ∀ c ∈ letters, c.isAlphanum = true) (more : List Char) :
    cellOpening (letters ++ '|' :: more) = ({ tag := .cell }, false, 0) := by
  rw [cellOpening, declarations_word hletters]
  cases letters with
  | nil => rfl
  | cons c letters =>
      obtain ⟨hspace, hheader⟩ : c ≠ ' ' ∧ c ≠ '!' := by
        have hc := hletters c List.mem_cons_self
        constructor <;> rintro rfl <;> exact absurd hc (by decide)
      simp [hspace, hheader]

theorem absent_cellEnd {c : Char} (hc : c.isAlphanum = true) (text : List Char) :
    Mark.cellEnd.Absent (c :: text) := by
  intro previous
  obtain ⟨hspace, hbar⟩ : c ≠ ' ' ∧ c ≠ '|' := by
    constructor <;> rintro rfl <;> exact absurd hc (by decide)
  rw [Mark.cellEnd, List.dropWhile_cons_of_neg (by simpa using hspace)]
  split
  · rename_i heq
    cases heq
    exact absurd rfl hbar
  · rfl

/-- A text in a cell is said, and the scan passes the bar behind it. -/
theorem run_cell {kit : Kit} (hformatters : kit.formatters = .standard) (ctx : Context)
    (hletters : ∀ c ∈ letters, c.isAlphanum = true) (hrest : s.cursor.rest = letters ++ '|' :: more)
    (hcolon : ':' ∉ s.cursor.rest) :
    kit.run ctx (some Mark.cellEnd) s = ((s.say letters).forward letters.length).find [] 1 := by
  have hcolon' : ':' ∉ (letters ++ '|' :: more).takeWhile (· != '<') := fun hin =>
    hcolon (hrest ▸ (List.takeWhile_sublist _).subset hin)
  exact Kit.run_plain_stop hformatters
    (fun c hc => Standard.notMem_signs_of_isAlphanum (hletters c hc))
    (fun c hc text => absent_cellEnd (hletters c hc) text) hcolon' hrest (List.cons_ne_nil _ _)
    (fun _ => rfl) (Nat.succ_pos 0)

/-- The scan inside a cell stops behind the bar, from where it steps back to it. -/
theorem scanInside_cell {kit : Kit} (hformatters : kit.formatters = .standard) (left : Nat)
    (hletters : ∀ c ∈ letters, c.isAlphanum = true) (hrest : s.cursor.rest = letters ++ '|' :: more)
    (hcolon : ':' ∉ s.cursor.rest) :
    ∃ t, (kit.context (left + 1)).scanInside Mark.cellEnd [] s = (Node.addText letters [], t) ∧
      t.nodes = s.nodes ∧ t.page = s.page ∧ t.found = ['|'] ∧
      t.cursor.stepBack.rest = '|' :: more := by
  let inside : Scanner := { s with nodes := [] }.enter
  let said : Scanner := (inside.say letters).forward letters.length
  have hrun : kit.run (kit.context left) (some Mark.cellEnd) inside = said.find [] 1 :=
    run_cell hformatters _ hletters hrest hcolon
  have hbar : said.cursor.rest = '|' :: more := Scanner.rest_behind (s := inside) hrest letters
  refine ⟨{ (said.find [] 1).leave with nodes := s.nodes }, Kit.scanInside_of_run hrun, rfl, rfl,
    ?_, ?_⟩
  · change said.cursor.rest.take 1 = _
    rw [hbar]
    rfl
  · exact (congrArg Cursor.rest (Cursor.stepBack_forward hbar (by decide))).trans hbar

/-- **A cell is read as it was written**, up to the bar behind it. -/
theorem readCell_word {kit : Kit} (hformatters : kit.formatters = .standard) (left : Nat)
    (hletters : ∀ c ∈ letters, c.isAlphanum = true)
    (hrest : s.cursor.rest = '|' :: (letters ++ '|' :: more)) (hcolon : ':' ∉ s.cursor.rest)
    (width : Nat) :
    ∃ t, readCell (kit.context (left + 1)) (width + 1) s = (cell letters width 0, t) ∧
      t.nodes = s.nodes ∧ t.page = s.page ∧ t.cursor.rest = '|' :: more := by
  have hinside : ((s.forward 1).forward 0).cursor.rest = letters ++ '|' :: more := by
    change (s.cursor.rest.drop 1).drop 0 = _
    rw [hrest]
    rfl
  obtain ⟨t, hscan, hnodes, hpage, hfound, hback⟩ :=
    scanInside_cell hformatters left hletters hinside fun hin => hcolon (List.mem_of_mem_drop hin)
  have hcontent : (Node.addText letters []).reverse =
      if letters = [] then [] else [.text (String.ofList letters)] := by
    cases letters <;> rfl
  refine ⟨{ t with cursor := t.cursor.stepBack }, ?_, hnodes, hpage, hback⟩
  have hopening : cellOpening (s.forward 1).cursor.rest = ({ tag := .cell }, false, 0) :=
    (congrArg cellOpening hinside).trans (cellOpening_word hletters more)
  simp only [readCell, hopening, hscan, hfound, hcontent]
  by_cases hwidth : 0 < width
  · simp [cell, hwidth, spaceBefore, align, Element.setAttr, Element.putAttr]
  · simp [cell, hwidth, spaceBefore, align]

/-! ### Reading a row -/

/-- The squares of a row that are still to be read, and what stands behind them. -/
theorem written_cons (q : Square) (squares : List Square) (more : List Char) :
    written (q :: squares) ++ more = '|' :: (q.source ++ (written squares ++ more)) := by
  simp [written]

theorem exists_written (squares : List Square) (more : List Char) :
    ∃ more', written squares ++ '|' :: more = '|' :: more' := by
  cases squares with
  | nil => exact ⟨more, rfl⟩
  | cons q squares => exact ⟨_, written_cons q squares _⟩

/-- Reads a row on behind some of its squares. -/
def readBehind (ctx : Context) (g : Grid) (before : List Square) (s : Scanner) :
    (Grid × List Cell) × Scanner :=
  readCells ctx g (cellsBehind [] [] before) before.length (gathered before + 1) s

/-- The cells of a row when one more square is read. -/
theorem cellsBehind_snoc (below : List (List Square)) (before : List Square) (q : Square) :
    cellsBehind below [] (before ++ [q]) =
      cellsBehind below [] before ++ cellsBehind below before [q] := by
  rw [cellsBehind_append, List.nil_append]

/-- **A square is read as what it stands for**, up to the bar behind it. -/
theorem readBehind_square {kit : Kit} (hformatters : kit.formatters = .standard) (left : Nat)
    (h : g.Reads done kind before) (hq : q.isPlain = true)
    (hrest : s.cursor.rest = '|' :: (q.source ++ '|' :: more)) (hcolon : ':' ∉ s.cursor.rest) :
    ∃ g' t, readBehind (kit.context (left + 1)) g before s =
        readBehind (kit.context (left + 1)) g' (before ++ [q]) t ∧
      g'.Reads done kind (before ++ [q]) ∧
      t.nodes = s.nodes ∧ t.page = s.page ∧ t.cursor.rest = '|' :: more := by
  have hslot : slot? s.cursor.rest = some q.slot := hrest ▸ slot?_square hq more
  cases q with
  | above =>
      refine ⟨g.stretch before.length, s.forward 2, ?_, h.stretch, rfl, rfl, ?_⟩
      · rw [readBehind, readBehind, readCells_of_above hslot, gathered_above, cellsBehind_snoc,
          List.length_append]
        simp [cellsBehind]
      · exact congrArg (List.drop 2) hrest
  | next =>
      refine ⟨g, s.forward 2, ?_, h.next, rfl, rfl, ?_⟩
      · rw [readBehind, readBehind, readCells_of_next hslot, gathered_next, cellsBehind_snoc,
          List.length_append]
        simp [cellsBehind]
      · exact congrArg (List.drop 2) hrest
  | word letters =>
      obtain ⟨t, hread, hnodes, hpage, hmore⟩ :=
        readCell_word hformatters left (List.all_eq_true.1 hq) hrest hcolon (gathered before)
      refine ⟨g.anchor before.length (cellsBehind [] [] before), t, ?_, h.anchor letters, hnodes,
        hpage, hmore⟩
      rw [readBehind, readBehind, readCells_of_content (kit.context_advances _) hslot, hread,
        gathered_word, cellsBehind_snoc, List.length_append]
      rfl

/-- **The squares of a row are read one after another**, up to the end of the row. -/
theorem readBehind_squares {kit : Kit} (hformatters : kit.formatters = .standard) (left : Nat)
    (h : g.Reads done kind before) (hsquares : ∀ q ∈ squares, q.isPlain = true)
    (hrest : s.cursor.rest = written squares ++ '|' :: (kindLetter kind ++ behind final rows))
    (hcolon : ':' ∉ s.cursor.rest) :
    ∃ g' t, readBehind (kit.context (left + 1)) g before s =
        ((g', cellsBehind [] [] (before ++ squares)), t) ∧
      g'.Reads done kind (before ++ squares) ∧ Reaches final rows s t := by
  induction squares generalizing g before s with
  | nil =>
      obtain ⟨length, hslot, hreaches⟩ := slot?_rowEnd hrest
      rw [List.append_nil]
      exact ⟨g, s.forward length, readCells_of_rowEnd hslot, h, hreaches⟩
  | cons q squares ih =>
      obtain ⟨hq, hsquares⟩ := List.forall_mem_cons.1 hsquares
      obtain ⟨more, hmore⟩ := exists_written squares (kindLetter kind ++ behind final rows)
      rw [written_cons, hmore] at hrest
      obtain ⟨g', t, hread, h', hnodes, hpage, hnext⟩ :=
        readBehind_square hformatters left h hq hrest hcolon
      have hcolon' : ':' ∉ t.cursor.rest := by
        rw [hnext]
        exact fun hin => hcolon (hrest ▸ List.mem_cons_of_mem _ (List.mem_append_right _ hin))
      obtain ⟨g'', t', hrun, hreads, hreaches⟩ := ih h' hsquares (hnext.trans hmore.symm) hcolon'
      have hsplit : before ++ q :: squares = before ++ [q] ++ squares := by simp
      rw [hsplit]
      exact ⟨g'', t', hread.trans hrun, hreads, hreaches.nodes.trans hnodes,
        hreaches.page.trans hpage, hreaches.rest, hreaches.previous⟩

/-! ### Reading a table -/

/-- The scanner stands at the start of the rows that are still to be read. -/
structure AtRows (final : Bool) (rows : List Row) (s : Scanner) : Prop where
  rest : s.cursor.rest = source final rows
  previous : rows ≠ [] → Pattern.startsLine s.cursor.previous = true

theorem rowAt?_source (h : AtRows final (row :: rows) s) : rowAt? s.cursor = some row.kind := by
  rw [rowAt?, if_pos (h.previous (List.cons_ne_nil _ _)), h.rest, source, line_source,
    rowKind?_source]

/-- A row that is no caption is added to the section of its kind. -/
theorem readRow_of_ne {ctx : Context} (hkind : kind ≠ .caption) (isFirst : Bool) {g' : Grid}
    {cells : List Cell} {t : Scanner}
    (hread : readCells ctx (g.enter kind) [] 0 1 s = ((g', cells), t)) :
    readRow ctx kind isFirst g s = (g'.addRow cells, t) := by
  cases kind with
  | caption => exact absurd rfl hkind
  | body | head | foot => simp only [readRow, hread, Grid.addRow]

theorem readRow_holds {kit : Kit} (hformatters : kit.formatters = .standard) (left : Nat)
    (h : g.Holds done) (hs : AtRows final (row :: rows) s) (isFirst : Bool) :
    ∃ g' t, readRow (kit.context (left + 1)) row.kind isFirst g s = (g', t) ∧
      g'.Holds (done ++ [row]) ∧ Reaches final rows s t := by
  have hrest : s.cursor.rest =
      written row.squares ++ '|' :: (kindLetter row.kind ++ behind final rows) := by
    rw [hs.rest, source, Row.source, List.append_assoc, List.cons_append]
  have hcolon : ':' ∉ s.cursor.rest := by
    rw [hs.rest, source, List.mem_append, not_or]
    exact ⟨(notMem_source_row row).2, colon_notMem_behind final rows⟩
  obtain ⟨g', t, hread, hreads, hreaches⟩ :=
    readBehind_squares hformatters left (h.enter row.kind_ne) (List.all_eq_true.1 row.plain)
      hrest hcolon
  exact ⟨_, t, readRow_of_ne row.kind_ne isFirst hread, hreads.addRow, hreaches⟩

/-- **The rows of a table are read one after another**, and the table holds all of them. -/
theorem readRows_holds {kit : Kit} (hformatters : kit.formatters = .standard) (left : Nat)
    (h : g.Holds done) (hs : AtRows final rows s) (isFirst : Bool) :
    ∃ g' t, readRows (kit.context (left + 1)) isFirst g s = (g', t) ∧ g'.Holds (done ++ rows) ∧
      Reaches final [] s t := by
  induction rows generalizing g done isFirst s with
  | nil =>
      have hnone : rowAt? s.cursor = none := by
        rw [rowAt?, hs.rest]
        exact ite_self _
      rw [readRows_of_none hnone, List.append_nil]
      exact ⟨g, s, rfl, h, rfl, rfl, hs.rest, fun hne => absurd rfl hne⟩
  | cons row rows ih =>
      obtain ⟨g', t, hread, hholds, hreaches⟩ := readRow_holds hformatters left h hs isFirst
      obtain ⟨g'', t', hrun, hholds', hreaches'⟩ :=
        ih hholds ⟨hreaches.rest, hreaches.previous⟩ false
      have hsplit : done ++ row :: rows = done ++ [row] ++ rows := by simp
      rw [readRows_of_some (kit.context_advances _) (rowAt?_source hs), hread, hsplit]
      exact ⟨g'', t', hrun, hholds', hreaches'.nodes.trans hreaches.nodes,
        hreaches'.page.trans hreaches.page, hreaches'.rest, hreaches'.previous⟩

end Table

/-! ### Rendering a table -/

open Table (source tableNode)

/-- A table is handed to its formatter. -/
theorem Formatters.hit?_row (final : Bool) (row : Table.Row) (rows : List Table.Row) :
    Formatters.standard.hit? none none (source final (row :: rows)) =
      some (.rule 0 Table.formatter row.source.length) := by
  have hmark : Table.formatter.start none (source final (row :: rows)) =
      some row.source.length := by
    change (Mark.rowKind? (Mark.line (row.source ++ Table.behind final rows))).map
      (fun _ => (Mark.line (row.source ++ Table.behind final rows)).length) = _
    rw [Table.line_source, Table.rowKind?_source]
    rfl
  have hpos : 0 < row.source.length := by
    rw [Table.Row.source, List.length_append]
    exact Nat.succ_pos _
  exact hit?_of_first (Standard.inOrder.drop 1) (fun f hf => absurd hf List.not_mem_nil) hpos hmark

/-- **A table is rendered to the node of its rows**, and nothing else. -/
theorem Kit.render_rows {kit : Kit} (hformatters : kit.formatters = .standard)
    (hdepth : 2 ≤ kit.setting.config.maxDepth) (final : Bool) {rows : List Table.Row}
    (hrows : rows ≠ []) (page : Page) :
    kit.render (source final rows) page = ([tableNode rows], page) := by
  obtain ⟨row, rows, rfl⟩ := List.exists_cons_of_ne_nil hrows
  -- one level is for the table, and one for what stands in its cells
  obtain ⟨left, hleft⟩ := Nat.exists_eq_add_of_le' hdepth
  have hhit : kit.formatters.hit? none none (source final (row :: rows)) =
      some (.rule 0 Table.formatter row.source.length) := by
    rw [hformatters]
    exact Formatters.hit?_row final row rows
  let s : Scanner :=
    (Scanner.start (source final (row :: rows)) [] page.enter).find [] row.source.length
  -- the table is read from its first row on
  have hs : Table.AtRows final (row :: rows) { s with cursor := s.foundAt } := ⟨rfl, fun _ => rfl⟩
  obtain ⟨g, t, hread, hholds, hreaches⟩ :=
    Table.readRows_holds hformatters left Table.Grid.holds_nil hs true
  have hne : g.sections.isEmpty = false :=
    List.isEmpty_eq_false_iff.2 (hholds.sections_ne_nil (List.cons_ne_nil _ _))
  have hhandle : Table.formatter.handle kit.macros (kit.context (left + 1)) s =
      some (t.emit g.toNode) := by
    change Table.handle kit.macros _ s = _
    rw [Table.handle, hread]
    simp only [hne]
    rfl
  have htext : source final (row :: rows) ≠ [] := by simp [source, Table.Row.source]
  rw [render_first hleft htext hhit hhandle hreaches.rest]
  have hnodes : (t.emit g.toNode).nodes = [tableNode (row :: rows)] := by
    change g.toNode :: t.nodes = _
    rw [hholds.toNode_eq, hreaches.nodes]
    rfl
  rw [hnodes]
  exact Prod.ext rfl (congrArg Page.leave hreaches.page)

namespace Story

/-- **A table keeps its grid.**  Rows of squares are rendered to one table, the sections of which
are the runs of rows of one kind.  Every text is a cell of its row, in order; it reaches over the
columns of the `>` before it and over the rows of the `~` below it. -/
theorem render_table (s : Story) (hformatters : s.formatters = .standard)
    (hdepth : 2 ≤ s.config.maxDepth) (final : Bool) (rows : List Table.Row) (hrows : rows ≠ []) :
    s.render (String.ofList (source final rows)) = ([tableNode rows], [], s) := by
  have hkit : s.kit.formatters = .standard := hformatters
  exact render_of_kit (Kit.render_rows hkit hdepth final hrows s.page)

/-- Rows of three kinds, with cells that reach over columns, over rows and into the next section. -/
def trellis : List Table.Row :=
  [{ kind := .head, squares := [.word ['a'], .next, .word ['b']] },
    { kind := .body, squares := [.word [], .word ['1'], .above] },
    { kind := .body, squares := [.next, .above, .word ['c', '2']] },
    { kind := .foot, squares := [.above, .above] }]

/-- The cells of the trellis reach as far as its squares tell. -/
theorem render_table_trellis :
    shed.formatters = .standard ∧ 2 ≤ shed.config.maxDepth ∧ trellis ≠ [] ∧
      String.ofList (source true trellis) = "|a|>|b|h\n||1|~|\n|>|~|c2|\n|~|~|f\n" ∧
      shed.render "|a|>|b|h\n||1|~|\n|>|~|c2|\n|~|~|f\n" =
        ([.element { tag := .table }
          [.element { tag := .tableHead }
            [.element { tag := .row }
              [.element { tag := .cell } [.text "a"],
                .element
                  { tag := .cell
                    attrs := [("colspan", "2"), ("rowspan", "2"), ("valign", "center")] }
                  [.text "b"]]],
          .element { tag := .tableBody }
            [.element { tag := .row }
              [.element { tag := .cell, attrs := [("rowspan", "2"), ("valign", "center")] } [],
                .element { tag := .cell, attrs := [("rowspan", "3"), ("valign", "center")] }
                  [.text "1"]],
            .element { tag := .row }
              [.element { tag := .cell, attrs := [("colspan", "2")] } [.text "c2"]]],
          .element { tag := .tableFoot } [.element { tag := .row } []]]], [], shed) := by
  have hsource : String.ofList (source true trellis) =
      "|a|>|b|h\n||1|~|\n|>|~|c2|\n|~|~|f\n" := by decide
  have hrender : shed.render (String.ofList (source true trellis)) =
      ([tableNode trellis], [], shed) :=
    render_table shed rfl (by decide) true trellis (List.cons_ne_nil _ _)
  rw [hsource] at hrender
  exact ⟨rfl, by decide, List.cons_ne_nil _ _, hsource, hrender.trans rfl⟩

end Story

end Gamebook
