/-
**A text is never deeper than it is long.**

What a formatter renders further in stands behind its mark, so that every level of a text has less
of it to read than the one around it.  If no other text is called in, the levels that a text needs
are therefore no more than its characters.

Main definitions:

* `Context.AgreeBelow` — two contexts go on alike where little enough is left of a text;
* `Formatter.LooksBehind` — a formatter goes on only behind its mark.

Main results:

* `Nesting.quotes_looksBehind`, `Nesting.lists_looksBehind`, `Table.formatter_looksBehind` — the
  constructs made of several lines go on behind their marks;
* `Formatters.standard_looksBehind` — **so do all standard formatters**, but for macro calls.
-/

import Gamebook.Proofs.Render.Once

set_option relaxedAutoImplicit false
set_option autoImplicit false

namespace Gamebook

variable {text : List Char} {c d : Context} {n : Nat} {s : Scanner}

/-- Two contexts go on alike in a text wherever fewer than `n` characters of it are left. -/
def Context.AgreeBelow (text : List Char) (n : Nat) (c d : Context) : Prop :=
  ∀ stop s, s.cursor.text = text → s.cursor.rest.length < n → c.scan stop s = d.scan stop s

theorem Context.AgreeBelow.mono {m : Nat} (h : Context.AgreeBelow text n c d) (hle : m ≤ n) :
    Context.AgreeBelow text m c d :=
  fun stop s htext hlt => h stop s htext (Nat.lt_of_lt_of_le hlt hle)

theorem Context.AgreeBelow.scanInside (h : Context.AgreeBelow text n c d) (stop : Pattern)
    (inside : List Node) (htext : s.cursor.text = text) (hlt : s.cursor.rest.length < n) :
    c.scanInside stop inside s = d.scanInside stop inside s := by
  simp only [Context.scanInside, h (some stop) { s with nodes := inside } htext hlt]

theorem Context.SaysOnce.text_scanInside (h : c.SaysOnce text) (stop : Pattern)
    (inside : List Node) (htext : s.cursor.text = text) :
    (c.scanInside stop inside s).2.cursor.text = text :=
  (h.scanInside stop inside htext).text.trans htext

/-- A formatter goes on in a text only behind its mark: it makes no difference to it what happens
where more is left. -/
def Formatter.LooksBehind (text : List Char) (f : Formatter) : Prop :=
  ∀ macros c d s, c.SaysOnce text → s.foundAt.text = text → s.IsAt f.start →
    s.cursor.rest.length < s.foundAt.rest.length →
    Context.AgreeBelow text s.foundAt.rest.length c d → f.handle macros c s = f.handle macros d s

theorem Scanner.IsAt.text_cursor {p : Pattern} (h : s.IsAt p) : s.cursor.text = s.foundAt.text :=
  (h.goesOn []).text

theorem Cursor.length_forward_lt {k : Nat} {cursor : Cursor} (hpos : 0 < k)
    (hne : 0 < cursor.rest.length) : (cursor.forward k).rest.length < cursor.rest.length := by
  rw [Cursor.rest_forward, List.length_drop]
  omega

/-! ### Quoted lines and lists -/

namespace Nesting

theorem readQuotes_congr (hc : c.SaysOnce text) (hagree : Context.AgreeBelow text n c d)
    (level : Nat) (frames : List Frame) (htext : s.cursor.text = text)
    (hlt : s.cursor.rest.length < n) :
    readQuotes c level frames s = readQuotes d level frames s := by
  induction hrest : s.cursor.rest.length using Nat.strongRecOn generalizing level frames s with
  | ind k ih =>
      rw [readQuotes.eq_def c, readQuotes.eq_def d]
      split
      · rfl
      · rename_i frame outer nodes _
        have hline := hagree.scanInside Mark.newline frame.content (s := { s with nodes := nodes })
          htext hlt
        have hread := hc.text_scanInside Mark.newline frame.content (s := { s with nodes := nodes })
          htext
        rw [← hline]
        dsimp only
        split
        · rfl
        · split
          · rename_i hless
            exact ih _ (hrest ▸ hless) _ _ ((Cursor.text_forward _ _).trans hread)
              (Nat.lt_trans hless hlt) rfl
          · rfl

theorem quotes_looksBehind : quotes.LooksBehind text := by
  intro macros c d s hc htext hat hlt hagree
  exact congrArg some (readQuotes_congr hc hagree _ _ (hat.text_cursor.trans htext) hlt)

theorem readItems_congr (hc : c.SaysOnce text) (hagree : Context.AgreeBelow text n c d)
    (latest : Option Tag) (frames : List Frame) (htext : s.cursor.text = text)
    (hle : s.cursor.rest.length ≤ n) :
    readItems c latest frames s = readItems d latest frames s := by
  induction hrest : s.cursor.rest.length using Nat.strongRecOn generalizing latest frames s with
  | ind k ih =>
      rw [readItems.eq_def c, readItems.eq_def d]
      split
      · rfl
      · rename_i tag level hitem
        obtain ⟨-, hpos, hlevel⟩ := itemAt?_eq_some hitem
        dsimp only
        generalize enterItem tag level latest frames s.nodes = entered
        have hmarks : (s.cursor.forward level).text = text := (Cursor.text_forward _ _).trans htext
        have hline := hagree.scanInside Mark.newline []
          (s := { s.forward level with nodes := entered.2 }) hmarks
          (Nat.lt_of_lt_of_le (Cursor.length_forward_lt hpos (Nat.lt_of_lt_of_le hpos hlevel)) hle)
        have hread := hc.text_scanInside Mark.newline []
          (s := { s.forward level with nodes := entered.2 }) hmarks
        rw [← hline]
        split
        · rename_i hless
          exact ih _ (hrest ▸ hless) _ _ hread (Nat.le_trans (Nat.le_of_lt hless) hle) rfl
        · rfl

theorem lists_looksBehind : lists.LooksBehind text := by
  intro macros c d s hc htext hat hlt hagree
  exact congrArg some (readItems_congr hc hagree _ _ (s := { s with cursor := s.foundAt }) htext
    (Nat.le_refl _))

end Nesting

/-! ### Tables -/

namespace Table

theorem readCell_congr (hagree : Context.AgreeBelow text n c d) (width : Nat)
    (htext : s.cursor.text = text) (hle : s.cursor.rest.length ≤ n)
    (hne : 0 < s.cursor.rest.length) : readCell c width s = readCell d width s := by
  have hinside : ∀ k, c.scanInside Mark.cellEnd [] ((s.forward 1).forward k) =
      d.scanInside Mark.cellEnd [] ((s.forward 1).forward k) := by
    intro k
    refine hagree.scanInside Mark.cellEnd [] ?_ ?_
    · exact (Cursor.text_forward _ _).trans ((Cursor.text_forward _ _).trans htext)
    · simp only [Scanner.forward, Cursor.rest_forward, List.length_drop]
      omega
  simp only [readCell, hinside]

theorem text_readCell (hc : c.SaysOnce text) (width : Nat) (htext : s.cursor.text = text) :
    (readCell c width s).2.cursor.text = text := by
  have hinside : ((s.forward 1).forward (cellOpening (s.forward 1).cursor.rest).2.2).cursor.text =
      text := (Cursor.text_forward _ _).trans ((Cursor.text_forward _ _).trans htext)
  exact (Cursor.text_stepBack _).trans (hc.text_scanInside Mark.cellEnd [] hinside)

theorem readCells_congr (hc : c.SaysOnce text) (hagree : Context.AgreeBelow text n c d) (g : Grid)
    (cells : List Cell) (column width : Nat) (htext : s.cursor.text = text)
    (hle : s.cursor.rest.length ≤ n) :
    readCells c g cells column width s = readCells d g cells column width s := by
  induction g, cells, column, width, s using readCells_induction hc.advances with
  | none g cells column width s hslot => rw [readCells_of_none hslot, readCells_of_none hslot]
  | rowEnd g cells column width s length hslot =>
      rw [readCells_of_rowEnd hslot, readCells_of_rowEnd hslot]
  | above g cells column width s hslot ih =>
      have htwo := length_forward_two (two_le_of_slot? hslot (by simp))
      rw [readCells_of_above hslot, readCells_of_above hslot]
      exact ih ((Cursor.text_forward _ _).trans htext) (by omega)
  | next g cells column width s hslot ih =>
      have htwo := length_forward_two (two_le_of_slot? hslot (by simp))
      rw [readCells_of_next hslot, readCells_of_next hslot]
      exact ih ((Cursor.text_forward _ _).trans htext) (by omega)
  | content g cells column width s hslot ih =>
      have htwo := two_le_of_slot? hslot (by simp)
      have hcell := readCell_congr hagree width htext hle (by omega)
      have hlt := readCell_advances hc.advances width htwo
      rw [readCells_of_content hc.advances hslot, readCells.eq_def d]
      simp only [hslot, ← hcell]
      rw [if_pos hlt]
      exact ih (text_readCell hc width htext) (by omega)

theorem readRow_congr (hc : c.SaysOnce text) (hagree : Context.AgreeBelow text n c d)
    {kind : Mark.RowKind} (hkind : rowAt? s.cursor = some kind) (isFirst : Bool) (g : Grid)
    (htext : s.cursor.text = text) (hle : s.cursor.rest.length ≤ n) :
    readRow c kind isFirst g s = readRow d kind isFirst g s := by
  obtain ⟨slot, hslot, hne⟩ := slot?_of_rowAt? hkind
  have htwo := two_le_of_slot? hslot hne
  have hcells : ∀ g, readCells c g [] 0 1 s = readCells d g [] 0 1 s :=
    fun g => readCells_congr hc hagree g [] 0 1 htext hle
  cases kind with
  | caption =>
      have hcaption := fun inside => hagree.scanInside Mark.rowEnd inside (s := s.forward 1)
        ((Cursor.text_forward _ _).trans htext)
        (Nat.lt_of_lt_of_le
          (Cursor.length_forward_lt Nat.one_pos (Nat.lt_of_lt_of_le Nat.two_pos htwo)) hle)
      simp only [readRow, readCaption, hcaption]
  | head => simp only [readRow, hcells]
  | foot => simp only [readRow, hcells]
  | body => simp only [readRow, hcells]

theorem readRows_congr (hc : c.SaysOnce text) (hagree : Context.AgreeBelow text n c d)
    (isFirst : Bool) (g : Grid) (htext : s.cursor.text = text) (hle : s.cursor.rest.length ≤ n)
    (hrow : HasRow text) :
    readRows c isFirst g s = readRows d isFirst g s := by
  induction isFirst, g, s using readRows_induction hc.advances with
  | last isFirst g s hkind => rw [readRows_of_none hkind, readRows_of_none hkind]
  | more isFirst g s kind hkind ih =>
      have hread := (readRow_once hc kind isFirst g htext hrow).2.text
      have hlt := readRow_advances hc.advances hkind isFirst g
      rw [readRows_of_some hc.advances hkind, readRows.eq_def d]
      simp only [hkind, ← readRow_congr hc hagree hkind isFirst g htext hle]
      rw [if_pos hlt]
      exact ih (hread.trans htext) (Nat.le_trans (Nat.le_of_lt hlt) hle)

theorem formatter_looksBehind : formatter.LooksBehind text := by
  intro macros c d s hc htext ⟨_, _, hstart, _⟩ _ hagree
  have hrows := readRows_congr hc hagree true {} (s := { s with cursor := s.foundAt }) htext
    (Nat.le_refl _) ⟨s.foundAt, htext, Option.isSome_of_eq_some hstart⟩
  simp only [formatter, handle, hrows]

end Table

/-! ### The standard formatters -/

namespace Standard

theorem fixed_looksBehind (name : String) (start : Pattern) (node : Node) :
    (fixed name start node).LooksBehind text := fun _ _ _ _ _ _ _ _ _ => rfl

theorem whole_looksBehind {α : Type} (name : String) (start : Pattern)
    (read? : List Char → Option (α × Nat)) (build : Store → α → Option Node) :
    (whole name start read? build).LooksBehind text := fun _ _ _ _ _ _ _ _ _ => rfl

theorem wrap_looksBehind (name : String) (start stop : Pattern) (tag : Tag) :
    (wrap name start stop tag).LooksBehind text := by
  intro macros c d s _ htext hat hlt hagree
  simp only [wrap, hagree.scanInside stop [] (hat.text_cursor.trans htext) hlt]

theorem heading_looksBehind : heading.LooksBehind text := by
  intro macros c d s _ htext hat hlt hagree
  simp only [heading, hagree.scanInside Mark.newline [] (hat.text_cursor.trans htext) hlt]

theorem comment_looksBehind : comment.LooksBehind text :=
  fun _ _ _ s _ htext hat hlt hagree =>
    congrArg some (hagree (some Mark.commentEnd) s (hat.text_cursor.trans htext) hlt)

theorem styled_looksBehind : styled.LooksBehind text := by
  intro macros c d s _ htext hat hlt hagree
  have hinside := hagree.scanInside Mark.style []
    (s := s.forward (Style.declarations s.cursor.rest).2)
    ((Cursor.text_forward _ _).trans (hat.text_cursor.trans htext))
    (Nat.lt_of_le_of_lt (by simp [Scanner.forward]) hlt)
  simp only [styled, hinside]

end Standard

open Standard in
/-- **The standard formatters go on only behind their marks**, in a text without macro calls. -/
theorem Formatters.standard_looksBehind (hcall : ¬ ['<', '<'] <:+: text) :
    ∀ f ∈ Formatters.standard, f.LooksBehind text := by
  simp only [Formatters.standard, inOrder, List.forall_mem_cons]
  refine ⟨Table.formatter_looksBehind, fixed_looksBehind _ _ _, fixed_looksBehind _ _ _,
    heading_looksBehind, whole_looksBehind _ _ _ _, whole_looksBehind _ _ _ _, comment_looksBehind,
    wrap_looksBehind _ _ _ _, Nesting.quotes_looksBehind, Nesting.lists_looksBehind,
    whole_looksBehind _ _ _ _, fun _ _ _ _ _ _ _ _ _ => rfl, whole_looksBehind _ _ _ _, ?_,
    whole_looksBehind _ _ _ _, whole_looksBehind _ _ _ _, wrap_looksBehind _ _ _ _,
    wrap_looksBehind _ _ _ _, wrap_looksBehind _ _ _ _, wrap_looksBehind _ _ _ _,
    wrap_looksBehind _ _ _ _, wrap_looksBehind _ _ _ _, whole_looksBehind _ _ _ _,
    styled_looksBehind, fixed_looksBehind _ _ _, fun f hf => absurd hf List.not_mem_nil⟩
  exact fun macros c d s _ htext hat _ _ => absurd hat (Scanner.not_isAt_literal hcall htext)

end Gamebook
