/-
**Scanning always moves on.**

Wherever a formatter puts the cursor, a scan goes on behind the mark, so every round of it leaves
less of the text.  The loops of quoted lines, lists and tables go on from where such a scan has
ended, and pass a mark of their own in every round; a cell gives one character back, but it has
passed two.  So these loops move on too, and the test that would stop one that does not is never
the one that ends it.

Main definitions:

* `Cursor.Precedes` — a cursor stands further on than another;
* `Kit.Round` — one round of a scan;
* `Context.Advances` — going on in a text leaves less of it;
* `Nesting.readQuote`, `Nesting.readItem` — one round of the loops over lines.

Main results:

* `Kit.Round.precedes` — **every round of a scan moves the cursor on**;
* `Kit.contextOver_advances` — and so does a scan at any level;
* `Nesting.readQuotes_of_some`, `Nesting.readItems_of_some`, `Table.readCells_of_content`,
  `Table.readRows_of_some` — a loop goes on after each round, without a further test;
* `Nesting.readQuotes_induction`, `Nesting.readItems_induction`, `Table.readCells_induction`,
  `Table.readRows_induction` — **induction along the loops**.
-/

import Gamebook.Proofs.Render.Run
import Gamebook.Render.Nesting
import Gamebook.Render.Table

set_option relaxedAutoImplicit false
set_option autoImplicit false

namespace Gamebook

/-! ### Cursors -/

/-- The second cursor stands further on: less of the text is to come, so that in one text its
offset is greater. -/
structure Cursor.Precedes (c d : Cursor) : Prop where
  rest_lt : d.rest.length < c.rest.length
  offset_lt : d.text = c.text → c.offset < d.offset

namespace Cursor

theorem size_text (c : Cursor) : Text.size c.text = c.offset + Text.size c.rest := by
  have hreverse : ∀ text : List Char, Text.size text.reverse = Text.size text := by
    intro text
    induction text with
    | nil => rfl
    | cons ch text ih => simp [Text.size_append, ih, Nat.add_comm]
  rw [text, Text.size_append, hreverse, offset]

theorem rest_suffix_text (c : Cursor) : c.rest <:+ c.text := List.suffix_append _ _

/-- In one text, what is to come at a later point is a part of what is to come at an earlier one. -/
theorem rest_suffix_rest {c d : Cursor} (h : d.text = c.text)
    (hle : d.rest.length ≤ c.rest.length) : d.rest <:+ c.rest :=
  List.suffix_of_suffix_length_le (h ▸ d.rest_suffix_text) c.rest_suffix_text hle

theorem precedes_of_rest_lt {c d : Cursor} (h : d.rest.length < c.rest.length) : c.Precedes d where
  rest_lt := h
  offset_lt := by
    intro htext
    obtain ⟨skipped, hskipped⟩ := rest_suffix_rest htext (Nat.le_of_lt h)
    have hne : skipped ≠ [] := by
      rintro rfl
      rw [← hskipped] at h
      simp at h
    obtain ⟨ch, others, rfl⟩ := List.exists_cons_of_ne_nil hne
    have hsize := congrArg Text.size htext
    have hch := ch.utf8Size_pos
    rw [size_text, size_text, ← hskipped, Text.size_append, Text.size_cons] at hsize
    omega

theorem length_stepBack_le (c : Cursor) : c.stepBack.rest.length ≤ c.rest.length + 1 := by
  unfold stepBack
  split
  · split <;> simp
  · omega

end Cursor

/-! ### Scans -/

/-- Going on in a text leaves less of it, if there was anything left. -/
def Context.Advances (ctx : Context) : Prop :=
  ∀ stop s, (ctx.scan stop s).cursor.rest.length ≤ s.cursor.rest.length - 1

theorem Context.Advances.scanInside {ctx : Context} (h : ctx.Advances) (stop : Pattern)
    (inside : List Node) (s : Scanner) :
    (ctx.scanInside stop inside s).2.cursor.rest.length ≤ s.cursor.rest.length - 1 :=
  h (some stop) { s with nodes := inside }

namespace Kit

/-- One round of a scan: a mark is found, and its formatter handles it. -/
def Round (kit : Kit) (ctx : Context) (stop : Option Pattern) (s t : Scanner) : Prop :=
  ∃ skipped index f length, kit.formatters.next? stop s.cursor.previous s.cursor.rest =
    some (skipped, .rule index f length) ∧ t = kit.handled ctx f (s.find skipped length)

/-- **Every round of a scan moves the cursor on**, whatever the formatter does. -/
theorem Round.precedes {kit : Kit} {ctx : Context} {stop : Option Pattern} {s t : Scanner}
    (h : kit.Round ctx stop s t) : s.cursor.Precedes t.cursor := by
  obtain ⟨skipped, index, f, length, hnext, rfl⟩ := h
  exact Cursor.precedes_of_rest_lt (length_rest_handled ctx hnext)

theorem run_advances (kit : Kit) (ctx : Context) (stop : Option Pattern) (s : Scanner) :
    (kit.run ctx stop s).cursor.rest.length ≤ s.cursor.rest.length - 1 := by
  induction s using run_induction kit ctx stop with
  | none s hn =>
      rw [run_of_none hn]
      simp [Scanner.finish, Scanner.toEnd]
  | stopped s skipped length hn =>
      rw [run_of_stop hn]
      have hlt : (s.find skipped length).cursor.rest.length < s.cursor.rest.length :=
        length_rest_find hn
      omega
  | rule s skipped index f length hn ih =>
      rw [run_of_rule hn]
      have hlt := length_rest_handled ctx hn
      omega

theorem bottom_advances (kit : Kit) : kit.bottom.Advances := by
  intro stop s
  simp [bottom, Scanner.toEnd]

/-- **A scan at any level moves the cursor on**, whatever the tables hold. -/
theorem contextOver_advances (kit : Kit) {deepest : Context} (h : deepest.Advances) (left : Nat) :
    (kit.contextOver deepest left).Advances := by
  cases left with
  | zero => exact h
  | succ left => exact fun stop s => kit.run_advances _ stop s.enter

theorem context_advances (kit : Kit) (left : Nat) : (kit.context left).Advances :=
  kit.contextOver_advances kit.bottom_advances left

end Kit

/-! ### Quoted lines and lists -/

theorem Pattern.run_eq_some {p : Char → Bool} {previous : Option Char} {text : List Char} {n : Nat}
    (h : Pattern.run p previous text = some n) : 0 < n ∧ n ≤ text.length := by
  have hlength : (text.takeWhile p).length ≤ text.length := (List.takeWhile_sublist p).length_le
  rw [run] at h
  cases hn : (text.takeWhile p).length with
  | zero => simp [hn] at h
  | succ k =>
      rw [hn] at h hlength
      cases h
      exact ⟨Nat.succ_pos k, hlength⟩

theorem Pattern.of_onLine {p : Pattern} {previous : Option Char} {text : List Char} {n : Nat}
    (h : Pattern.onLine p previous text = some n) : p previous text = some n := by
  rw [onLine] at h
  split at h
  · exact h
  · cases h

namespace Nesting

variable {ctx : Context} {frames : List Frame} {s : Scanner}

theorem length_close (count : Nat) (frames : List Frame) (nodes : List Node) :
    (close count frames nodes).1.length = frames.length - count := by
  induction count generalizing frames nodes with
  | zero => rfl
  | succ count ih =>
      rw [close, ih]
      match frames with
      | [] => simp [closeOne]
      | [frame] => simp [closeOne]
      | frame :: outer :: frames =>
          simp only [closeOne, List.length_cons]
          omega

/-- After going to a level there are as many open elements. -/
theorem length_goTo (tag : Tag) (level : Nat) (frames : List Frame) (nodes : List Node) :
    (goTo tag level frames nodes).1.length = level := by
  rw [goTo]
  split
  · simp only [openTags, List.length_append, List.length_replicate]
    omega
  · rw [length_close]
    omega

/-- At a level there is an innermost element. -/
theorem exists_of_goTo (tag : Tag) {level : Nat} (hlevel : 0 < level) (frames : List Frame)
    (nodes : List Node) :
    ∃ frame outer nodes', goTo tag level frames nodes = (frame :: outer, nodes') := by
  have hlength := length_goTo tag level frames nodes
  match hgo : goTo tag level frames nodes with
  | ([], nodes') =>
      rw [hgo, List.length_nil] at hlength
      omega
  | (frame :: outer, nodes') => exact ⟨frame, outer, nodes', rfl⟩

/-- Reads the quoted line that the cursor stands in, behind its marks. -/
def readQuote (ctx : Context) (level : Nat) (frames : List Frame) (s : Scanner) :
    List Frame × Scanner :=
  match goTo .blockQuote level frames s.nodes with
  | ([], nodes) => ([], { s with nodes := nodes })
  | (frame :: frames, nodes) =>
      let (content, s') := ctx.scanInside Mark.newline frame.content { s with nodes := nodes }
      ({ frame with content := .element { tag := .lineBreak } [] :: content } :: frames, s')

theorem readQuote_advances (hctx : ctx.Advances) {level : Nat} (hlevel : 0 < level)
    (frames : List Frame) (s : Scanner) :
    (readQuote ctx level frames s).2.cursor.rest.length ≤ s.cursor.rest.length - 1 := by
  obtain ⟨frame, outer, nodes, hgo⟩ := exists_of_goTo .blockQuote hlevel frames s.nodes
  simp only [readQuote, hgo]
  exact hctx.scanInside _ _ _

/-- The marks of a further quoted line behind one that was read. -/
theorem quoteLine_advances (hctx : ctx.Advances) {level marks : Nat} (hlevel : 0 < level)
    (h : Mark.quoteLine (readQuote ctx level frames s).2.cursor.previous
      (readQuote ctx level frames s).2.cursor.rest = some marks) :
    0 < marks ∧ ((readQuote ctx level frames s).2.forward marks).cursor.rest.length <
      s.cursor.rest.length := by
  have hline := readQuote_advances hctx hlevel frames s
  obtain ⟨hpos, hle⟩ := Pattern.run_eq_some (Pattern.of_onLine h)
  refine ⟨hpos, ?_⟩
  simp only [Scanner.forward, Cursor.rest_forward, List.length_drop]
  omega

/-- The last of the quoted lines closes the quotations. -/
theorem readQuotes_of_none {level : Nat} (hlevel : 0 < level)
    (h : Mark.quoteLine (readQuote ctx level frames s).2.cursor.previous
      (readQuote ctx level frames s).2.cursor.rest = none) :
    readQuotes ctx level frames s =
      { (readQuote ctx level frames s).2 with
        nodes := closeAll (readQuote ctx level frames s).1
          (readQuote ctx level frames s).2.nodes } := by
  obtain ⟨frame, outer, nodes, hgo⟩ := exists_of_goTo .blockQuote hlevel frames s.nodes
  rw [readQuotes]
  simp only [readQuote, hgo] at h ⊢
  simp only [h]

/-- Behind a quoted line the next one is read. -/
theorem readQuotes_of_some (hctx : ctx.Advances) {level marks : Nat} (hlevel : 0 < level)
    (h : Mark.quoteLine (readQuote ctx level frames s).2.cursor.previous
      (readQuote ctx level frames s).2.cursor.rest = some marks) :
    readQuotes ctx level frames s =
      readQuotes ctx marks (readQuote ctx level frames s).1
        ((readQuote ctx level frames s).2.forward marks) := by
  obtain ⟨frame, outer, nodes, hgo⟩ := exists_of_goTo .blockQuote hlevel frames s.nodes
  have hlt := (quoteLine_advances hctx hlevel h).2
  rw [readQuotes.eq_def ctx level frames s]
  simp only [readQuote, hgo] at h hlt ⊢
  simp only [h]
  exact if_pos hlt

/-- Without a mark there is no line to read. -/
theorem readQuotes_zero :
    readQuotes ctx 0 frames s = { s with nodes := closeAll frames s.nodes } := by
  have hlength := length_close frames.length frames s.nodes
  have hgo : goTo .blockQuote 0 frames s.nodes = close frames.length frames s.nodes := by
    simp [goTo]
  rw [readQuotes, hgo, closeAll]
  rw [Nat.sub_self, List.length_eq_zero_iff] at hlength
  generalize close frames.length frames s.nodes = closed at hlength
  obtain ⟨outer, nodes⟩ := closed
  cases hlength
  rfl

/-- **Induction along quoted lines.** -/
theorem readQuotes_induction (hctx : ctx.Advances) {motive : Nat → List Frame → Scanner → Prop}
    (none : ∀ frames s, motive 0 frames s)
    (last : ∀ level frames s, 0 < level →
      Mark.quoteLine (readQuote ctx level frames s).2.cursor.previous
        (readQuote ctx level frames s).2.cursor.rest = Option.none → motive level frames s)
    (more : ∀ level frames s marks, 0 < level →
      Mark.quoteLine (readQuote ctx level frames s).2.cursor.previous
        (readQuote ctx level frames s).2.cursor.rest = some marks →
      motive marks (readQuote ctx level frames s).1
        ((readQuote ctx level frames s).2.forward marks) → motive level frames s)
    (level : Nat) (frames : List Frame) (s : Scanner) : motive level frames s := by
  induction hn : s.cursor.rest.length using Nat.strongRecOn generalizing level frames s with
  | ind n ih =>
      rcases Nat.eq_zero_or_pos level with rfl | hlevel
      · exact none frames s
      · cases h : Mark.quoteLine (readQuote ctx level frames s).2.cursor.previous
          (readQuote ctx level frames s).2.cursor.rest with
        | none => exact last level frames s hlevel h
        | some marks =>
            have hlt := (quoteLine_advances hctx hlevel h).2
            exact more level frames s marks hlevel h (ih _ (hn ▸ hlt) _ _ _ rfl)

/-- Reads the list item that starts at the cursor. -/
def readItem (ctx : Context) (tag : Tag) (level : Nat) (latest : Option Tag) (frames : List Frame)
    (s : Scanner) : List Frame × Scanner :=
  let (frames, nodes) := enterItem tag level latest frames s.nodes
  let (content, s') := ctx.scanInside Mark.newline [] { s.forward level with nodes := nodes }
  let (frames, nodes) := put (.element { tag := .listItem } content.reverse) frames s'.nodes
  (frames, { s' with nodes := nodes })

/-- The marks of an item are those of one of the two kinds of lists. -/
theorem itemAt?_eq_some {c : Cursor} {tag : Tag} {level : Nat} (h : itemAt? c = some (tag, level)) :
    (tag = .unorderedList ∨ tag = .orderedList) ∧ 0 < level ∧ level ≤ c.rest.length := by
  rw [itemAt?] at h
  split at h
  · rename_i n hn
    cases h
    exact ⟨.inl rfl, Pattern.run_eq_some (Pattern.of_onLine hn)⟩
  · obtain ⟨n, hn, heq⟩ := Option.map_eq_some_iff.1 h
    cases heq
    exact ⟨.inr rfl, Pattern.run_eq_some (Pattern.of_onLine hn)⟩

theorem readItem_advances (hctx : ctx.Advances) {tag : Tag} {level : Nat}
    (h : itemAt? s.cursor = some (tag, level)) (latest : Option Tag) (frames : List Frame) :
    (readItem ctx tag level latest frames s).2.cursor.rest.length < s.cursor.rest.length := by
  obtain ⟨-, hpos, hle⟩ := itemAt?_eq_some h
  have hin := hctx.scanInside Mark.newline []
    { s.forward level with nodes := (enterItem tag level latest frames s.nodes).2 }
  simp only [Scanner.forward, Cursor.rest_forward, List.length_drop] at hin
  simp only [readItem, Scanner.forward]
  omega

/-- Behind the last item the lists are closed. -/
theorem readItems_of_none {latest : Option Tag} (h : itemAt? s.cursor = none) :
    readItems ctx latest frames s = { s with nodes := closeAll frames s.nodes } := by
  rw [readItems]
  simp only [h]

/-- Behind an item the next one is read. -/
theorem readItems_of_some (hctx : ctx.Advances) {tag : Tag} {level : Nat} {latest : Option Tag}
    (h : itemAt? s.cursor = some (tag, level)) :
    readItems ctx latest frames s =
      readItems ctx (some tag) (readItem ctx tag level latest frames s).1
        (readItem ctx tag level latest frames s).2 := by
  have hlt := readItem_advances hctx h latest frames
  rw [readItems.eq_def ctx latest frames s]
  simp only [h]
  exact if_pos hlt

/-- **Induction along the items of lists.** -/
theorem readItems_induction (hctx : ctx.Advances)
    {motive : Option Tag → List Frame → Scanner → Prop}
    (last : ∀ latest frames s, itemAt? s.cursor = none → motive latest frames s)
    (more : ∀ latest frames s tag level, itemAt? s.cursor = some (tag, level) →
      motive (some tag) (readItem ctx tag level latest frames s).1
        (readItem ctx tag level latest frames s).2 → motive latest frames s)
    (latest : Option Tag) (frames : List Frame) (s : Scanner) : motive latest frames s := by
  induction hn : s.cursor.rest.length using Nat.strongRecOn generalizing latest frames s with
  | ind n ih =>
      cases h : itemAt? s.cursor with
      | none => exact last latest frames s h
      | some item =>
          have hlt := readItem_advances hctx h latest frames
          exact more latest frames s item.1 item.2 h (ih _ (hn ▸ hlt) _ _ _ rfl)

end Nesting

/-! ### Tables -/

namespace Table

variable {ctx : Context} {g : Grid} {cells : List Cell} {column width : Nat} {s : Scanner}

/-- In front of a cell there are two bars to come. -/
theorem two_le_of_slot? {text : List Char} {slot : Slot} (h : slot? text = some slot)
    (hslot : ∀ length, slot ≠ .rowEnd length) : 2 ≤ text.length := by
  unfold slot? at h
  split at h
  · rename_i rest
    dsimp only at h
    split at h
    · rename_i rest' hdrop
      have hlength := congrArg List.length hdrop
      simp only [List.length_drop, List.length_cons] at hlength ⊢
      omega
    · obtain ⟨length, -, rfl⟩ := Option.map_eq_some_iff.1 h
      exact absurd rfl (hslot length)
  · cases h

theorem readCell_advances (hctx : ctx.Advances) (width : Nat) (h : 2 ≤ s.cursor.rest.length) :
    (readCell ctx width s).2.cursor.rest.length < s.cursor.rest.length := by
  -- two bars are passed, and one of them is given back
  let inside := (s.forward 1).forward (cellOpening (s.forward 1).cursor.rest).2.2
  have hinside : inside.cursor.rest.length ≤ s.cursor.rest.length - 1 := by
    simp only [inside, Scanner.forward, Cursor.rest_forward, List.length_drop]
    omega
  have hscan := hctx.scanInside Mark.cellEnd [] inside
  have hback := Cursor.length_stepBack_le (ctx.scanInside Mark.cellEnd [] inside).2.cursor
  calc (readCell ctx width s).2.cursor.rest.length
      = (ctx.scanInside Mark.cellEnd [] inside).2.cursor.stepBack.rest.length := rfl
    _ < s.cursor.rest.length := by omega

theorem readCells_of_none (h : slot? s.cursor.rest = none) :
    readCells ctx g cells column width s = ((g, cells), s) := by
  rw [readCells]
  simp only [h]

theorem readCells_of_rowEnd {length : Nat} (h : slot? s.cursor.rest = some (.rowEnd length)) :
    readCells ctx g cells column width s = ((g, cells), s.forward length) := by
  rw [readCells]
  simp only [h]

theorem length_forward_two (h : 2 ≤ s.cursor.rest.length) :
    (s.forward 2).cursor.rest.length < s.cursor.rest.length := by
  simp only [Scanner.forward, Cursor.rest_forward, List.length_drop]
  omega

theorem readCells_of_above (h : slot? s.cursor.rest = some .above) :
    readCells ctx g cells column width s =
      readCells ctx (g.stretch column) cells (column + 1) width (s.forward 2) := by
  rw [readCells.eq_def ctx g cells column width s]
  simp only [h]
  exact if_pos (length_forward_two (two_le_of_slot? h (by simp)))

theorem readCells_of_next (h : slot? s.cursor.rest = some .next) :
    readCells ctx g cells column width s =
      readCells ctx g cells (column + 1) (width + 1) (s.forward 2) := by
  rw [readCells.eq_def ctx g cells column width s]
  simp only [h]
  exact if_pos (length_forward_two (two_le_of_slot? h (by simp)))

/-- Behind a cell the next one is read. -/
theorem readCells_of_content (hctx : ctx.Advances) (h : slot? s.cursor.rest = some .content) :
    readCells ctx g cells column width s =
      readCells ctx (g.anchor column cells) (cells ++ [(readCell ctx width s).1]) (column + 1) 1
        (readCell ctx width s).2 := by
  rw [readCells.eq_def ctx g cells column width s]
  simp only [h]
  exact if_pos (readCell_advances hctx width (two_le_of_slot? h (by simp)))

/-- **Induction along the cells of a row.** -/
theorem readCells_induction (hctx : ctx.Advances)
    {motive : Grid → List Cell → Nat → Nat → Scanner → Prop}
    (none : ∀ g cells column width s, slot? s.cursor.rest = none → motive g cells column width s)
    (rowEnd : ∀ g cells column width s length, slot? s.cursor.rest = some (.rowEnd length) →
      motive g cells column width s)
    (above : ∀ g cells column width s, slot? s.cursor.rest = some .above →
      motive (g.stretch column) cells (column + 1) width (s.forward 2) →
        motive g cells column width s)
    (next : ∀ g cells column width s, slot? s.cursor.rest = some .next →
      motive g cells (column + 1) (width + 1) (s.forward 2) → motive g cells column width s)
    (content : ∀ g cells column width s, slot? s.cursor.rest = some .content →
      motive (g.anchor column cells) (cells ++ [(readCell ctx width s).1]) (column + 1) 1
        (readCell ctx width s).2 → motive g cells column width s)
    (g : Grid) (cells : List Cell) (column width : Nat) (s : Scanner) :
    motive g cells column width s := by
  induction hn : s.cursor.rest.length using Nat.strongRecOn generalizing g cells column width s with
  | ind n ih =>
      cases h : slot? s.cursor.rest with
      | none => exact none g cells column width s h
      | some slot =>
          cases slot with
          | rowEnd length => exact rowEnd g cells column width s length h
          | above =>
              have hlt := length_forward_two (two_le_of_slot? h (by simp))
              exact above g cells column width s h (ih _ (hn ▸ hlt) _ _ _ _ _ rfl)
          | next =>
              have hlt := length_forward_two (two_le_of_slot? h (by simp))
              exact next g cells column width s h (ih _ (hn ▸ hlt) _ _ _ _ _ rfl)
          | content =>
              have hlt := readCell_advances hctx width (two_le_of_slot? h (by simp))
              exact content g cells column width s h (ih _ (hn ▸ hlt) _ _ _ _ _ rfl)

theorem readCells_le (hctx : ctx.Advances) (g : Grid) (cells : List Cell) (column width : Nat)
    (s : Scanner) :
    (readCells ctx g cells column width s).2.cursor.rest.length ≤ s.cursor.rest.length := by
  induction g, cells, column, width, s using readCells_induction hctx with
  | none g cells column width s h => simp [readCells_of_none h]
  | rowEnd g cells column width s length h => simp [readCells_of_rowEnd h, Scanner.forward]
  | above g cells column width s h ih =>
      rw [readCells_of_above h]
      exact Nat.le_trans ih (Nat.le_of_lt (length_forward_two (two_le_of_slot? h (by simp))))
  | next g cells column width s h ih =>
      rw [readCells_of_next h]
      exact Nat.le_trans ih (Nat.le_of_lt (length_forward_two (two_le_of_slot? h (by simp))))
  | content g cells column width s h ih =>
      rw [readCells_of_content hctx h]
      exact Nat.le_trans ih
        (Nat.le_of_lt (readCell_advances hctx width (two_le_of_slot? h (by simp))))

/-- At the bar in front of a cell, reading the row moves on. -/
theorem readCells_advances (hctx : ctx.Advances) {slot : Slot} (h : slot? s.cursor.rest = some slot)
    (hslot : ∀ length, slot ≠ .rowEnd length) :
    (readCells ctx g cells column width s).2.cursor.rest.length < s.cursor.rest.length := by
  have htwo := two_le_of_slot? h hslot
  cases slot with
  | rowEnd length => exact absurd rfl (hslot length)
  | above =>
      rw [readCells_of_above h]
      exact Nat.lt_of_le_of_lt (readCells_le hctx _ _ _ _ _) (length_forward_two htwo)
  | next =>
      rw [readCells_of_next h]
      exact Nat.lt_of_le_of_lt (readCells_le hctx _ _ _ _ _) (length_forward_two htwo)
  | content =>
      rw [readCells_of_content hctx h]
      exact Nat.lt_of_le_of_lt (readCells_le hctx _ _ _ _ _) (readCell_advances hctx width htwo)

/-! ### Rows -/

/-- A line with two bars starts with one and holds another. -/
theorem exists_of_rowKind? {line : List Char} {kind : Mark.RowKind}
    (h : Mark.rowKind? line = some kind) : ∃ rest, line = '|' :: rest ∧ '|' ∈ rest := by
  have hbarred : ∀ line : List Char, Mark.isBarred line = true →
      ∃ rest, line = '|' :: rest ∧ '|' ∈ rest := by
    intro line h
    simp only [Mark.isBarred, Bool.and_eq_true, beq_iff_eq, decide_eq_true_eq] at h
    obtain ⟨⟨hhead, hlast⟩, htwo⟩ := h
    obtain ⟨rest, rfl⟩ := List.head?_eq_some_iff.1 hhead
    refine ⟨rest, rfl, ?_⟩
    cases rest with
    | nil => simp at htwo
    | cons c rest =>
        rw [List.getLast?_cons_cons] at hlast
        exact List.mem_of_getLast? hlast
  unfold Mark.rowKind? at h
  split at h
  · rename_i hbar
    exact hbarred line hbar
  · split at h
    · split at h
      · rename_i hbar
        obtain ⟨rest, hrest, hmem⟩ := hbarred line.dropLast hbar
        have hline : line.dropLast ++ [line.getLast (by rintro rfl; cases hrest)] = line :=
          List.dropLast_concat_getLast _
        rw [hrest, List.cons_append] at hline
        exact ⟨_, hline.symm, List.mem_append_left _ hmem⟩
      · cases h
    · cases h

/-- What is found behind a bar, if there is another bar on the line. -/
theorem drop_inside {rest : List Char} (h : '|' ∈ Mark.line rest) :
    ∃ rest', rest.drop (rest.takeWhile fun c => c != '|' && c != '\n').length = '|' :: rest' := by
  induction rest with
  | nil => simp [Mark.line] at h
  | cons c rest ih =>
      by_cases hc : c = '|'
      · exact ⟨rest, by simp [hc]⟩
      · rw [Mark.line, List.takeWhile_cons] at h
        split at h
        · rename_i hn
          have hmem : '|' ∈ Mark.line rest := by
            rcases List.mem_cons.1 h with h | h
            · exact absurd h.symm hc
            · exact h
          obtain ⟨rest', hrest'⟩ := ih hmem
          have hinside : (c != '|' && c != '\n') = true := by
            simpa [hc] using hn
          exact ⟨rest', by simpa only [List.takeWhile_cons, hinside, if_true, List.length_cons,
            List.drop_succ_cons] using hrest'⟩
        · cases h

/-- A row starts with the bar in front of a cell. -/
theorem slot?_of_rowAt? {c : Cursor} {kind : Mark.RowKind} (h : rowAt? c = some kind) :
    ∃ slot, slot? c.rest = some slot ∧ ∀ length, slot ≠ .rowEnd length := by
  rw [rowAt?] at h
  split at h
  · obtain ⟨inside, hline, hmem⟩ := exists_of_rowKind? h
    cases hrest : c.rest with
    | nil => simp [hrest, Mark.line] at hline
    | cons ch rest =>
        rw [hrest, Mark.line, List.takeWhile_cons] at hline
        split at hline
        · obtain ⟨rfl, rfl⟩ := List.cons.inj hline
          obtain ⟨rest', hrest'⟩ := drop_inside hmem
          simp only [slot?, hrest']
          split
          · exact ⟨_, rfl, by simp⟩
          · split
            · exact ⟨_, rfl, by simp⟩
            · exact ⟨_, rfl, by simp⟩
        · cases hline
  · cases h

theorem readRow_advances (hctx : ctx.Advances) {kind : Mark.RowKind}
    (h : rowAt? s.cursor = some kind) (isFirst : Bool) (g : Grid) :
    (readRow ctx kind isFirst g s).2.cursor.rest.length < s.cursor.rest.length := by
  obtain ⟨slot, hslot, hne⟩ := slot?_of_rowAt? h
  have hcells : ∀ g, (readCells ctx g [] 0 1 s).2.cursor.rest.length < s.cursor.rest.length :=
    fun g => readCells_advances hctx hslot hne
  cases kind with
  | caption =>
      have htwo := two_le_of_slot? hslot hne
      have hin := hctx.scanInside Mark.rowEnd
        (((g.enter .caption).sections.getLast?.map Section.content).getD []) (s.forward 1)
      simp only [Scanner.forward, Cursor.rest_forward, List.length_drop] at hin
      simp only [readRow, readCaption, Scanner.forward]
      omega
  | head => exact hcells _
  | foot => exact hcells _
  | body => exact hcells _

theorem readRows_of_none {isFirst : Bool} (h : rowAt? s.cursor = none) :
    readRows ctx isFirst g s = (g, s) := by
  rw [readRows]
  simp only [h]

/-- Behind a row the next one is read. -/
theorem readRows_of_some (hctx : ctx.Advances) {kind : Mark.RowKind} {isFirst : Bool}
    (h : rowAt? s.cursor = some kind) :
    readRows ctx isFirst g s =
      readRows ctx false (readRow ctx kind isFirst g s).1 (readRow ctx kind isFirst g s).2 := by
  have hlt := readRow_advances hctx h isFirst g
  rw [readRows.eq_def ctx isFirst g s]
  simp only [h]
  exact if_pos hlt

/-- **Induction along the rows of a table.** -/
theorem readRows_induction (hctx : ctx.Advances) {motive : Bool → Grid → Scanner → Prop}
    (last : ∀ isFirst g s, rowAt? s.cursor = none → motive isFirst g s)
    (more : ∀ isFirst g s kind, rowAt? s.cursor = some kind →
      motive false (readRow ctx kind isFirst g s).1 (readRow ctx kind isFirst g s).2 →
        motive isFirst g s)
    (isFirst : Bool) (g : Grid) (s : Scanner) : motive isFirst g s := by
  induction hn : s.cursor.rest.length using Nat.strongRecOn generalizing isFirst g s with
  | ind n ih =>
      cases h : rowAt? s.cursor with
      | none => exact last isFirst g s h
      | some kind =>
          have hlt := readRow_advances hctx h isFirst g
          exact more isFirst g s kind h (ih _ (hn ▸ hlt) _ _ _ rfl)

end Table

end Gamebook
