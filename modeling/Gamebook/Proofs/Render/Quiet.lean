/-
**Without macro calls a render changes nothing.**

Only a macro call changes the page.  Every other construct reads its own text and renders what lies
inside it, one level further in; and all levels go on in the same text.  So in a text without the
mark of a macro call none is ever met, and the page is left as it was, whatever macros there are.

Main definitions:

* `Scanner.Quiet` — a scanner that has stayed in its text and has not changed the page;
* `Context.QuietIn`, `Formatter.QuietIn` — what lies further in, or a formatter, that does so.

Main results:

* `Nesting.quotes_quiet`, `Nesting.lists_quiet`, `Table.formatter_quiet` — the constructs made of
  several lines change nothing;
* `Formatters.standard_quiet` — **nor does any standard formatter**;
* `Kit.render_quiet` — so a text without macro calls changes nothing.
-/

import Gamebook.Proofs.Render.Shallow

set_option relaxedAutoImplicit false
set_option autoImplicit false

namespace Gamebook

variable {text : List Char} {ctx : Context} {s t u : Scanner}

/-! ### Contexts and formatters -/

/-- The scanner has stayed in its text, and the page is as it was. -/
structure Scanner.Quiet (s t : Scanner) : Prop where
  text : t.cursor.text = s.cursor.text
  page : t.page = s.page

namespace Scanner.Quiet

theorem refl (s : Scanner) : s.Quiet s := ⟨rfl, rfl⟩

theorem trans (h : s.Quiet t) (h' : t.Quiet u) : s.Quiet u :=
  ⟨h'.text.trans h.text, h'.page.trans h.page⟩

theorem forward (h : s.Quiet t) (n : Nat) : s.Quiet (t.forward n) :=
  ⟨(Cursor.text_forward _ _).trans h.text, h.page⟩

end Scanner.Quiet

/-- What lies further in moves on and changes nothing while it is in a text. -/
structure Context.QuietIn (text : List Char) (ctx : Context) : Prop where
  advances : ctx.Advances
  scan : ∀ stop (s : Scanner), s.cursor.text = text → s.Quiet (ctx.scan stop s)

/-- Behind its mark a formatter changes nothing while it is in a text. -/
def Formatter.QuietIn (text : List Char) (f : Formatter) : Prop :=
  ∀ macros ctx s t, ctx.QuietIn text → s.foundAt.text = text → s.IsAt f.start →
    f.handle macros ctx s = some t → s.Quiet t

theorem Context.QuietIn.scanInside (hctx : ctx.QuietIn text) (stop : Pattern) (inside : List Node)
    (h : s.cursor.text = text) : s.Quiet (ctx.scanInside stop inside s).2 :=
  have hscan := hctx.scan (some stop) { s with nodes := inside } h
  ⟨hscan.text, hscan.page⟩

/-! ### Quoted lines and lists -/

namespace Nesting

theorem readQuote_quiet (hctx : ctx.QuietIn text) (level : Nat) (frames : List Frame)
    (h : s.cursor.text = text) : s.Quiet (readQuote ctx level frames s).2 := by
  rw [readQuote]
  split
  · exact ⟨rfl, rfl⟩
  · rename_i frame outer nodes _
    have hline := hctx.scanInside Mark.newline frame.content (s := { s with nodes := nodes }) h
    exact ⟨hline.text, hline.page⟩

theorem readQuotes_quiet (hctx : ctx.QuietIn text) (level : Nat) (frames : List Frame)
    (h : s.cursor.text = text) : s.Quiet (readQuotes ctx level frames s) := by
  induction level, frames, s using readQuotes_induction hctx.advances with
  | none frames s =>
      rw [readQuotes_zero]
      exact ⟨rfl, rfl⟩
  | last level frames s hlevel hmark =>
      have hline := readQuote_quiet hctx level frames h
      rw [readQuotes_of_none hlevel hmark]
      exact ⟨hline.text, hline.page⟩
  | more level frames s marks hlevel hmark ih =>
      have hmarks := (readQuote_quiet hctx level frames h).forward marks
      rw [readQuotes_of_some hctx.advances hlevel hmark]
      exact hmarks.trans (ih (hmarks.text.trans h))

theorem quotes_quiet : quotes.QuietIn text := by
  rintro macros ctx s t hctx htext hat ⟨⟩
  exact readQuotes_quiet hctx s.found.length [] (hat.text_cursor.trans htext)

theorem readItem_quiet (hctx : ctx.QuietIn text) (tag : Tag) (level : Nat) (latest : Option Tag)
    (frames : List Frame) (h : s.cursor.text = text) :
    s.Quiet (readItem ctx tag level latest frames s).2 := by
  have hmarks := (Scanner.Quiet.refl s).forward level
  have hline := hctx.scanInside Mark.newline []
    (s := { s.forward level with nodes := (enterItem tag level latest frames s.nodes).2 })
    (hmarks.text.trans h)
  exact ⟨hline.text.trans hmarks.text, hline.page⟩

theorem readItems_quiet (hctx : ctx.QuietIn text) (latest : Option Tag) (frames : List Frame)
    (h : s.cursor.text = text) : s.Quiet (readItems ctx latest frames s) := by
  induction latest, frames, s using readItems_induction hctx.advances with
  | last latest frames s hitem =>
      rw [readItems_of_none hitem]
      exact ⟨rfl, rfl⟩
  | more latest frames s tag level hitem ih =>
      have hread := readItem_quiet hctx tag level latest frames h
      rw [readItems_of_some hctx.advances hitem]
      exact hread.trans (ih (hread.text.trans h))

theorem lists_quiet : lists.QuietIn text := by
  rintro macros ctx s t hctx htext hat ⟨⟩
  have hread := readItems_quiet hctx none [] (s := { s with cursor := s.foundAt }) htext
  exact ⟨hread.text.trans hat.text_cursor.symm, hread.page⟩

end Nesting

/-! ### Tables -/

namespace Table

theorem readCell_quiet (hctx : ctx.QuietIn text) (width : Nat) (h : s.cursor.text = text) :
    s.Quiet (readCell ctx width s).2 := by
  let inside := (s.forward 1).forward (cellOpening (s.forward 1).cursor.rest).2.2
  have hinside : s.Quiet inside := ((Scanner.Quiet.refl s).forward 1).forward _
  have hcell := hinside.trans
    (hctx.scanInside Mark.cellEnd [] (s := inside) (hinside.text.trans h))
  exact ⟨(Cursor.text_stepBack _).trans hcell.text, hcell.page⟩

theorem readCells_quiet (hctx : ctx.QuietIn text) (g : Grid) (cells : List Cell)
    (column width : Nat) (h : s.cursor.text = text) :
    s.Quiet (readCells ctx g cells column width s).2 := by
  induction g, cells, column, width, s using readCells_induction hctx.advances with
  | none g cells column width s hslot =>
      rw [readCells_of_none hslot]
      exact .refl s
  | rowEnd g cells column width s length hslot =>
      rw [readCells_of_rowEnd hslot]
      exact (Scanner.Quiet.refl s).forward length
  | above g cells column width s hslot ih =>
      have hbars := (Scanner.Quiet.refl s).forward 2
      rw [readCells_of_above hslot]
      exact hbars.trans (ih (hbars.text.trans h))
  | next g cells column width s hslot ih =>
      have hbars := (Scanner.Quiet.refl s).forward 2
      rw [readCells_of_next hslot]
      exact hbars.trans (ih (hbars.text.trans h))
  | content g cells column width s hslot ih =>
      have hcell := readCell_quiet hctx width h
      rw [readCells_of_content hctx.advances hslot]
      exact hcell.trans (ih (hcell.text.trans h))

theorem readRow_quiet (hctx : ctx.QuietIn text) (kind : Mark.RowKind) (isFirst : Bool) (g : Grid)
    (h : s.cursor.text = text) : s.Quiet (readRow ctx kind isFirst g s).2 := by
  cases kind with
  | caption =>
      have hbar := (Scanner.Quiet.refl s).forward 1
      exact hbar.trans (hctx.scanInside Mark.rowEnd _ (hbar.text.trans h))
  | head => exact readCells_quiet hctx _ [] 0 1 h
  | foot => exact readCells_quiet hctx _ [] 0 1 h
  | body => exact readCells_quiet hctx _ [] 0 1 h

theorem readRows_quiet (hctx : ctx.QuietIn text) (isFirst : Bool) (g : Grid)
    (h : s.cursor.text = text) : s.Quiet (readRows ctx isFirst g s).2 := by
  induction isFirst, g, s using readRows_induction hctx.advances with
  | last isFirst g s hkind =>
      rw [readRows_of_none hkind]
      exact .refl s
  | more isFirst g s kind hkind ih =>
      have hrow := readRow_quiet hctx kind isFirst g h
      rw [readRows_of_some hctx.advances hkind]
      exact hrow.trans (ih (hrow.text.trans h))

theorem formatter_quiet : formatter.QuietIn text := by
  intro macros ctx s t hctx htext hat ht
  have hread := readRows_quiet hctx true {} (s := { s with cursor := s.foundAt }) htext
  simp only [formatter, handle] at ht
  split at ht
  · cases ht
  · cases ht
    exact ⟨hread.text.trans hat.text_cursor.symm, hread.page⟩

end Table

/-! ### The standard formatters -/

namespace Standard

theorem fixed_quiet (name : String) (start : Pattern) (node : Node) :
    (fixed name start node).QuietIn text := by
  rintro macros ctx s t - - - ⟨⟩
  exact ⟨rfl, rfl⟩

/-- An element around what stands behind a point. -/
theorem enclose_quiet (hctx : ctx.QuietIn text) (stop : Pattern) (node : Node)
    (h : s.cursor.text = text) : s.Quiet ((ctx.scanInside stop [] s).2.emit node) :=
  have hin := hctx.scanInside stop [] h
  ⟨hin.text, hin.page⟩

theorem wrap_quiet (name : String) (start stop : Pattern) (tag : Tag) :
    (wrap name start stop tag).QuietIn text := by
  rintro macros ctx s t hctx htext hat ⟨⟩
  exact enclose_quiet hctx stop _ (hat.text_cursor.trans htext)

theorem whole_quiet {α : Type} (name : String) (start : Pattern)
    (read? : List Char → Option (α × Nat)) (build : Store → α → Option Node) :
    (whole name start read? build).QuietIn text := by
  intro macros ctx s t _ _ hat ht
  obtain ⟨⟨a, length⟩, -, rfl⟩ := Option.map_eq_some_iff.1 ht
  have hpassed : s.Quiet { s with cursor := s.foundAt.forward length } :=
    ⟨(Cursor.text_forward _ _).trans hat.text_cursor.symm, rfl⟩
  dsimp only
  split
  · exact ⟨hpassed.text, hpassed.page⟩
  · exact hpassed

theorem heading_quiet : heading.QuietIn text := by
  rintro macros ctx s t hctx htext hat ⟨⟩
  exact enclose_quiet hctx Mark.newline _ (hat.text_cursor.trans htext)

theorem comment_quiet : comment.QuietIn text := by
  rintro macros ctx s t hctx htext hat ⟨⟩
  exact hctx.scan (some Mark.commentEnd) s (hat.text_cursor.trans htext)

theorem address_quiet : address.QuietIn text := by
  rintro macros ctx s t - - - ⟨⟩
  exact ⟨rfl, rfl⟩

theorem styled_quiet : styled.QuietIn text := by
  rintro macros ctx s t hctx htext hat ⟨⟩
  have hstyles := (Scanner.Quiet.refl s).forward (Style.declarations s.cursor.rest).2
  exact hstyles.trans (enclose_quiet hctx Mark.style _
    (hstyles.text.trans (hat.text_cursor.trans htext)))

/-- Without its mark there is no macro call. -/
theorem call_quiet (hcall : ¬ ['<', '<'] <:+: text) : call.QuietIn text :=
  fun _ _ _ _ _ htext hat _ => absurd hat (Scanner.not_isAt_literal hcall htext)

end Standard

open Standard in
/-- **No standard formatter changes anything** in a text without macro calls. -/
theorem Formatters.standard_quiet (hcall : ¬ ['<', '<'] <:+: text) :
    ∀ f ∈ Formatters.standard, f.QuietIn text := by
  simp only [Formatters.standard, inOrder, List.forall_mem_cons]
  exact ⟨Table.formatter_quiet, fixed_quiet _ _ _, fixed_quiet _ _ _, heading_quiet,
    whole_quiet _ _ _ _, whole_quiet _ _ _ _, comment_quiet, wrap_quiet _ _ _ _,
    Nesting.quotes_quiet, Nesting.lists_quiet, whole_quiet _ _ _ _, address_quiet,
    whole_quiet _ _ _ _, call_quiet hcall, whole_quiet _ _ _ _, whole_quiet _ _ _ _,
    wrap_quiet _ _ _ _, wrap_quiet _ _ _ _, wrap_quiet _ _ _ _, wrap_quiet _ _ _ _,
    wrap_quiet _ _ _ _, wrap_quiet _ _ _ _, whole_quiet _ _ _ _, styled_quiet,
    fixed_quiet _ _ _, fun f hf => absurd hf List.not_mem_nil⟩

/-! ### Runs and levels -/

namespace Kit

variable {kit : Kit}

theorem handled_quiet (kit : Kit) (hctx : ctx.QuietIn text) {f : Formatter} (hf : f.QuietIn text)
    (htext : s.foundAt.text = text) (hat : s.IsAt f.start) :
    s.Quiet (kit.handled ctx f s) := by
  rw [handled]
  split
  · exact ⟨rfl, rfl⟩
  · rename_i t ht
    have hquiet := hf kit.macros ctx s t hctx htext hat ht
    split
    · exact hquiet
    · exact ⟨rfl, hquiet.page⟩

theorem find_quiet (s : Scanner) (skipped : List Char) (length : Nat) :
    s.Quiet (s.find skipped length) :=
  ⟨(Cursor.text_forward _ _).trans (Cursor.text_forward _ _), rfl⟩

/-- **A run changes nothing** if what lies further in does not. -/
theorem run_quiet (hctx : ctx.QuietIn text) (hkit : ∀ f ∈ kit.formatters, f.QuietIn text)
    (stop : Option Pattern) (htext : s.cursor.text = text) : s.Quiet (kit.run ctx stop s) := by
  induction s using run_induction kit ctx stop with
  | none s hn =>
      rw [run_of_none hn]
      exact ⟨Cursor.text_forward _ _, rfl⟩
  | stopped s skipped length hn =>
      rw [run_of_stop hn]
      exact find_quiet s skipped length
  | rule s skipped index f length hn ih =>
      have hfound : (s.find skipped length).foundAt.text = text :=
        (Cursor.text_forward _ _).trans htext
      have hmark := (find_quiet s skipped length).trans (kit.handled_quiet hctx
        (hkit f (Formatters.mem_of_next? hn)) hfound (Scanner.isAt_find hn))
      rw [run_of_rule hn]
      exact hmark.trans (ih (hmark.text.trans htext))

/-- To enter a render and to leave it again is no change. -/
theorem leave_quiet (h : s.enter.Quiet t) : s.Quiet t.leave :=
  ⟨h.text, congrArg Page.leave h.page⟩

theorem bottom_quiet (kit : Kit) (text : List Char) : kit.bottom.QuietIn text where
  advances := kit.bottom_advances
  scan _ _ _ := ⟨Cursor.text_forward _ _, rfl⟩

/-- **No level changes anything.** -/
theorem context_quiet (hkit : ∀ f ∈ kit.formatters, f.QuietIn text) (left : Nat) :
    (kit.context left).QuietIn text := by
  induction left with
  | zero => exact kit.bottom_quiet text
  | succ left ih =>
      refine ⟨kit.context_advances (left + 1), fun stop s htext => ?_⟩
      exact leave_quiet (run_quiet ih hkit stop (s := s.enter) htext)

/-- **Without macro calls a render changes nothing**, whatever macros there are. -/
theorem render_quiet (hstandard : kit.formatters = .standard) (hcall : ¬ ['<', '<'] <:+: text)
    (page : Page) : (kit.render text page).2 = page := by
  have hkit : ∀ f ∈ kit.formatters, f.QuietIn text := hstandard ▸ Formatters.standard_quiet hcall
  rw [render]
  cases kit.setting.config.maxDepth with
  | zero => rfl
  | succ left =>
      have hrun := run_quiet (context_quiet hkit left) hkit none
        (s := (Scanner.start text [] page).enter) rfl
      exact (leave_quiet hrun).page

end Kit

end Gamebook
