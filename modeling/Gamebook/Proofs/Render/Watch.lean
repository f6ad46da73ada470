/-
**Renders under watch.**

Whether a render ever gets to its limit cannot be told from what it shows, since `silently` throws
away what is shown inside.  So a render is watched: where the limit is reached, one more render is
entered and never left, and from then on the count of open renders is too high.  A watched render
that ends with the count it began with has not been to its limit, and any other render of the text
has gone the same way, whatever that one finds below.

Formatters and macros are followed step by step: a step of the watched render either raises the
count for good, or is the step of the other render too.

Main definitions:

* `UnlessRaised` — what holds unless a count has risen;
* `Context.Watches` — a context whose count tells where another one may go another way;
* `Formatter.Watched`, `Macro.Watched`, `Macros.Watched` — formatters and macros that can be
  followed.

Main results:

* `Formatters.standard_watched` — **every standard formatter can be followed**;
* `Macros.standard_watched` — **so can every standard macro**.
-/

import Gamebook.Macro.Standard
import Gamebook.Proofs.Render.Advance
import Gamebook.Proofs.Render.Macros
import Gamebook.Proofs.Render.Parts

set_option relaxedAutoImplicit false
set_option autoImplicit false

namespace Gamebook

/-! ### Counts that rise -/

/-- A count has not fallen, and unless it has risen `P` holds. -/
structure UnlessRaised (before after : Nat) (P : Prop) : Prop where
  le : before ≤ after
  holds : after = before → P

namespace UnlessRaised

variable {n m k : Nat} {P Q R : Prop}

theorem refl (n : Nat) (h : P) : UnlessRaised n n P := ⟨Nat.le_refl n, fun _ => h⟩

theorem imp (h : UnlessRaised n m P) (hPQ : P → Q) : UnlessRaised n m Q :=
  ⟨h.le, fun heq => hPQ (h.holds heq)⟩

/-- Of two steps neither raises the count if both together do not. -/
theorem trans (h : UnlessRaised n m P) (h' : UnlessRaised m k Q) (hR : P → Q → R) :
    UnlessRaised n k R := by
  refine ⟨Nat.le_trans h.le h'.le, fun heq => ?_⟩
  have hle := h.le
  have hle' := h'.le
  have hm : m = n := by omega
  have hk : k = m := by omega
  exact hR (h.holds hm) (h'.holds hk)

end UnlessRaised

/-! ### Contexts -/

/-- The setting with another limit. -/
def Setting.withMaxDepth (setting : Setting) (limit : Nat) : Setting :=
  { setting with config := { setting.config with maxDepth := limit } }

/-- The first context watches over the second one: where it does not raise the count of open
renders, the second one does the same. -/
structure Context.Watches (c d : Context) : Prop where
  setting : ∃ limit, d.setting = c.setting.withMaxDepth limit
  advances : c.Advances
  advances_other : d.Advances
  scan : ∀ stop s, UnlessRaised s.page.depth (c.scan stop s).page.depth
    (d.scan stop s = c.scan stop s)
  render : ∀ text nodes page, ∃ nodes' page', c.render text nodes page = .ok (nodes', page') ∧
    UnlessRaised page.depth page'.depth (d.render text nodes page = .ok (nodes', page'))

variable {c d : Context} {s : Scanner}

namespace Context.Watches

theorem scanInside (h : c.Watches d) (stop : Pattern) (inside : List Node) (s : Scanner) :
    UnlessRaised s.page.depth (c.scanInside stop inside s).2.page.depth
      (d.scanInside stop inside s = c.scanInside stop inside s) := by
  have hscan := h.scan (some stop) { s with nodes := inside }
  refine hscan.imp fun heq => ?_
  simp only [Context.scanInside, heq]

/-- What stands up to a mark, enclosed in an element. -/
theorem enclose (h : c.Watches d) (stop : Pattern) (e : Element) (s : Scanner) :
    UnlessRaised s.page.depth (c.scanInside stop [] s).2.page.depth
      (some ((d.scanInside stop [] s).2.emit (.element e (d.scanInside stop [] s).1.reverse)) =
        some ((c.scanInside stop [] s).2.emit (.element e (c.scanInside stop [] s).1.reverse))) := by
  have hinside := h.scanInside stop [] s
  exact hinside.imp fun heq => by rw [heq]

theorem renderHere (h : c.Watches d) (text : List Char) (s : Scanner) :
    UnlessRaised s.page.depth (c.renderHere text s).1.page.depth
      (d.renderHere text s = c.renderHere text s) := by
  obtain ⟨nodes, page, hc, hr⟩ := h.render text s.nodes s.page
  have hhere : c.renderHere text s = ({ s with nodes := nodes, page := page }, none) := by
    simp only [Context.renderHere, hc]
  rw [hhere]
  refine hr.imp fun hd => ?_
  simp only [Context.renderHere, hd]

end Context.Watches

/-! ### Formatters and macros -/

/-- A macro can be followed. -/
def Macro.Watched (m : Macro) : Prop :=
  ∀ c d call s, c.Watches d →
    UnlessRaised s.page.depth (m.run c call s).1.page.depth (m.run d call s = m.run c call s)

/-- All macros of a table can be followed. -/
def Macros.Watched (macros : Macros) : Prop := ∀ name m, macros.get? name = some m → m.Watched

/-- A formatter can be followed, and what it declines it declines in both renders. -/
def Formatter.Watched (f : Formatter) : Prop :=
  ∀ macros c d s, macros.Watched → c.Watches d →
    match f.handle macros c s with
    | none => f.handle macros d s = none
    | some t => UnlessRaised s.page.depth t.page.depth (f.handle macros d s = some t)

/-- A macro call can be followed, whatever comes of it. -/
theorem Macros.Watched.call {macros : Macros} (hm : macros.Watched) (h : c.Watches d)
    (call : MacroCall) (s : Scanner) :
    UnlessRaised s.page.depth (macros.call c call s).page.depth
      (macros.call d call s = macros.call c call s) := by
  unfold Macros.call
  cases hget : macros.get? call.name with
  | none => exact .refl _ rfl
  | some m =>
      have hrun := hm call.name m hget c d call s h
      dsimp only
      -- an error is shown on the page that the macro leaves
      cases hc : m.run c call s with
      | mk t error =>
          rw [hc] at hrun
          cases error with
          | none => exact hrun.imp fun hd => by rw [hd]
          | some e => exact hrun.imp fun hd => by rw [hd]

/-! ### Quoted lines and lists -/

namespace Nesting

theorem readQuote_watched (h : c.Watches d) (level : Nat) (frames : List Frame) (s : Scanner) :
    UnlessRaised s.page.depth (readQuote c level frames s).2.page.depth
      (readQuote d level frames s = readQuote c level frames s) := by
  unfold readQuote
  cases goTo .blockQuote level frames s.nodes with
  | mk opened nodes =>
      cases opened with
      | nil => exact .refl _ rfl
      | cons frame outer =>
          have hline := h.scanInside Mark.newline frame.content { s with nodes := nodes }
          refine hline.imp fun heq => ?_
          dsimp only
          rw [heq]

theorem readQuotes_watched (h : c.Watches d) (level : Nat) (frames : List Frame) (s : Scanner) :
    UnlessRaised s.page.depth (readQuotes c level frames s).page.depth
      (readQuotes d level frames s = readQuotes c level frames s) := by
  induction level, frames, s using readQuotes_induction h.advances with
  | none frames s =>
      rw [readQuotes_zero, readQuotes_zero]
      exact .refl _ rfl
  | last level frames s hlevel hmark =>
      have hline := readQuote_watched h level frames s
      rw [readQuotes_of_none hlevel hmark]
      refine hline.imp fun heq => ?_
      rw [← heq] at hmark ⊢
      exact readQuotes_of_none hlevel hmark
  | more level frames s marks hlevel hmark ih =>
      have hline := readQuote_watched h level frames s
      rw [readQuotes_of_some h.advances hlevel hmark]
      refine hline.trans ih fun heq hrest => ?_
      rw [← heq] at hmark hrest ⊢
      rw [readQuotes_of_some h.advances_other hlevel hmark]
      exact hrest

theorem quotes_watched : quotes.Watched := by
  intro macros c d s _ h
  have hread := readQuotes_watched h s.found.length [] s
  exact hread.imp fun heq => congrArg some heq

theorem readItem_watched (h : c.Watches d) (tag : Tag) (level : Nat) (latest : Option Tag)
    (frames : List Frame) (s : Scanner) :
    UnlessRaised s.page.depth (readItem c tag level latest frames s).2.page.depth
      (readItem d tag level latest frames s = readItem c tag level latest frames s) := by
  unfold readItem
  have hline := h.scanInside Mark.newline []
    { s.forward level with nodes := (enterItem tag level latest frames s.nodes).2 }
  refine hline.imp fun heq => ?_
  dsimp only
  rw [heq]

theorem readItems_watched (h : c.Watches d) (latest : Option Tag) (frames : List Frame)
    (s : Scanner) :
    UnlessRaised s.page.depth (readItems c latest frames s).page.depth
      (readItems d latest frames s = readItems c latest frames s) := by
  induction latest, frames, s using readItems_induction h.advances with
  | last latest frames s hitem =>
      rw [readItems_of_none hitem, readItems_of_none hitem]
      exact .refl _ rfl
  | more latest frames s tag level hitem ih =>
      have hline := readItem_watched h tag level latest frames s
      rw [readItems_of_some h.advances hitem, readItems_of_some h.advances_other hitem]
      refine hline.trans ih fun heq hrest => ?_
      rw [heq]
      exact hrest

theorem lists_watched : lists.Watched := by
  intro macros c d s _ h
  have hread := readItems_watched h none [] { s with cursor := s.foundAt }
  exact hread.imp fun heq => congrArg some heq

end Nesting

/-! ### Tables -/

namespace Table

theorem readCell_watched (h : c.Watches d) (width : Nat) (s : Scanner) :
    UnlessRaised s.page.depth (readCell c width s).2.page.depth
      (readCell d width s = readCell c width s) := by
  unfold readCell
  have hinside := h.scanInside Mark.cellEnd []
    ((s.forward 1).forward (cellOpening (s.forward 1).cursor.rest).2.2)
  refine hinside.imp fun heq => ?_
  dsimp only
  rw [heq]

theorem readCells_watched (h : c.Watches d) (g : Grid) (cells : List Cell) (column width : Nat)
    (s : Scanner) :
    UnlessRaised s.page.depth (readCells c g cells column width s).2.page.depth
      (readCells d g cells column width s = readCells c g cells column width s) := by
  induction g, cells, column, width, s using readCells_induction h.advances with
  | none g cells column width s hslot =>
      rw [readCells_of_none hslot, readCells_of_none hslot]
      exact .refl _ rfl
  | rowEnd g cells column width s length hslot =>
      rw [readCells_of_rowEnd hslot, readCells_of_rowEnd hslot]
      exact .refl _ rfl
  | above g cells column width s hslot ih =>
      rw [readCells_of_above hslot, readCells_of_above hslot]
      exact ih
  | next g cells column width s hslot ih =>
      rw [readCells_of_next hslot, readCells_of_next hslot]
      exact ih
  | content g cells column width s hslot ih =>
      have hcell := readCell_watched h width s
      rw [readCells_of_content h.advances hslot, readCells_of_content h.advances_other hslot]
      refine hcell.trans ih fun heq hrest => ?_
      rw [heq]
      exact hrest

theorem readRow_watched (h : c.Watches d) (kind : Mark.RowKind) (isFirst : Bool) (g : Grid)
    (s : Scanner) :
    UnlessRaised s.page.depth (readRow c kind isFirst g s).2.page.depth
      (readRow d kind isFirst g s = readRow c kind isFirst g s) := by
  have hcells := readCells_watched h (g.enter kind) [] 0 1 s
  cases kind with
  | caption =>
      have hcaption := h.scanInside Mark.rowEnd
        (((g.enter .caption).sections.getLast?.map Section.content).getD []) (s.forward 1)
      refine hcaption.imp fun heq => ?_
      simp only [readRow, readCaption, heq]
  | head => exact hcells.imp fun heq => by simp only [readRow, heq]
  | foot => exact hcells.imp fun heq => by simp only [readRow, heq]
  | body => exact hcells.imp fun heq => by simp only [readRow, heq]

theorem readRows_watched (h : c.Watches d) (isFirst : Bool) (g : Grid) (s : Scanner) :
    UnlessRaised s.page.depth (readRows c isFirst g s).2.page.depth
      (readRows d isFirst g s = readRows c isFirst g s) := by
  induction isFirst, g, s using readRows_induction h.advances with
  | last isFirst g s hkind =>
      rw [readRows_of_none hkind, readRows_of_none hkind]
      exact .refl _ rfl
  | more isFirst g s kind hkind ih =>
      have hrow := readRow_watched h kind isFirst g s
      rw [readRows_of_some h.advances hkind, readRows_of_some h.advances_other hkind]
      refine hrow.trans ih fun heq hrest => ?_
      rw [heq]
      exact hrest

/-! A table that has a row has a section, so no table is declined for what stands in its cells. -/

theorem length_sections_stretch (g : Grid) (column : Nat) :
    (g.stretch column).sections.length = g.sections.length := by
  unfold Grid.stretch
  split
  · rfl
  · exact List.length_modify _ _ _

theorem length_sections_readCells (hctx : c.Advances) (g : Grid) (cells : List Cell)
    (column width : Nat) (s : Scanner) :
    (readCells c g cells column width s).1.1.sections.length = g.sections.length := by
  induction g, cells, column, width, s using readCells_induction hctx with
  | none g cells column width s hslot => rw [readCells_of_none hslot]
  | rowEnd g cells column width s length hslot => rw [readCells_of_rowEnd hslot]
  | above g cells column width s hslot ih =>
      rw [readCells_of_above hslot, ih]
      exact length_sections_stretch g column
  | next g cells column width s hslot ih => rw [readCells_of_next hslot, ih]
  | content g cells column width s hslot ih =>
      rw [readCells_of_content hctx hslot, ih]
      rfl

theorem length_sections_enter_pos (g : Grid) (kind : Mark.RowKind) :
    0 < (g.enter kind).sections.length := by
  unfold Grid.enter
  split
  · rename_i hlast
    cases hsections : g.sections with
    | nil => simp [hsections] at hlast
    | cons part parts => exact Nat.succ_pos _
  · simp

theorem length_sections_readRow_pos (hctx : c.Advances) (kind : Mark.RowKind) (isFirst : Bool)
    (g : Grid) (s : Scanner) : 0 < (readRow c kind isFirst g s).1.sections.length := by
  have henter := length_sections_enter_pos g kind
  have hcells := length_sections_readCells hctx (g.enter kind) [] 0 1 s
  cases kind with
  | caption =>
      simp only [readRow, readCaption, Grid.modifyLast, List.length_modify]
      exact henter
  | head =>
      simp only [readRow, Grid.modifyLast, List.length_modify, hcells]
      exact henter
  | foot =>
      simp only [readRow, Grid.modifyLast, List.length_modify, hcells]
      exact henter
  | body =>
      simp only [readRow, Grid.modifyLast, List.length_modify, hcells]
      exact henter

theorem length_sections_readRows_pos (hctx : c.Advances) (isFirst : Bool) (g : Grid) (s : Scanner)
    (h : 0 < g.sections.length) : 0 < (readRows c isFirst g s).1.sections.length := by
  induction isFirst, g, s using readRows_induction hctx with
  | last isFirst g s hkind =>
      rw [readRows_of_none hkind]
      exact h
  | more isFirst g s kind hkind ih =>
      rw [readRows_of_some hctx hkind]
      exact ih (length_sections_readRow_pos hctx kind isFirst g s)

theorem isEmpty_sections_readRows (hctx : c.Advances) (s : Scanner) :
    (readRows c true {} s).1.sections.isEmpty = (rowAt? s.cursor).isNone := by
  cases hkind : rowAt? s.cursor with
  | none =>
      rw [readRows_of_none hkind]
      rfl
  | some kind =>
      have hpos := length_sections_readRows_pos hctx false _ (readRow c kind true {} s).2
        (length_sections_readRow_pos hctx kind true {} s)
      rw [readRows_of_some hctx hkind]
      cases hsections : (readRows c false (readRow c kind true {} s).1
          (readRow c kind true {} s).2).1.sections with
      | nil => simp [hsections] at hpos
      | cons part parts => rfl

theorem formatter_watched : formatter.Watched := by
  intro macros c d s _ h
  have hread := readRows_watched h true {} { s with cursor := s.foundAt }
  have hc := isEmpty_sections_readRows h.advances { s with cursor := s.foundAt }
  have hd := isEmpty_sections_readRows h.advances_other { s with cursor := s.foundAt }
  simp only [formatter, handle, hc, hd]
  cases rowAt? s.foundAt with
  | none => rfl
  | some kind =>
      refine hread.imp fun heq => ?_
      rw [heq]
      rfl

end Table

/-! ### The standard formatters -/

namespace Standard

theorem fixed_watched (name : String) (start : Pattern) (node : Node) :
    (fixed name start node).Watched := fun _ _ _ s _ _ => .refl s.page.depth rfl

theorem whole_watched {α : Type} (name : String) (start : Pattern)
    (read? : List Char → Option (α × Nat)) (build : Store → α → Option Node) :
    (whole name start read? build).Watched := by
  intro macros c d s _ _
  dsimp only [whole]
  cases read? s.foundAt.rest with
  | none => rfl
  | some found =>
      dsimp only [Option.map_some]
      cases build s.page.store found.1 with
      | none => exact .refl _ rfl
      | some node => exact .refl _ rfl

theorem wrap_watched (name : String) (start stop : Pattern) (tag : Tag) :
    (wrap name start stop tag).Watched := by
  intro macros c d s _ h
  exact h.enclose stop { tag := tag } s

theorem heading_watched : heading.Watched := by
  intro macros c d s _ h
  exact h.enclose Mark.newline { tag := .heading s.found.length } s

theorem comment_watched : comment.Watched := by
  intro macros c d s _ h
  have hscan := h.scan (some Mark.commentEnd) s
  exact hscan.imp fun heq => congrArg some heq

theorem address_watched : address.Watched := fun _ _ _ s _ _ => .refl s.page.depth rfl

theorem styled_watched : styled.Watched := by
  intro macros c d s _ h
  exact h.enclose Mark.style _ (s.forward (Style.declarations s.cursor.rest).2)

theorem call_watched : call.Watched := by
  intro macros c d s hm h
  simp only [call]
  cases Construct.call? s.foundAt.rest with
  | none => rfl
  | some found =>
      simp only [Option.map_some]
      have hcall := hm.call h
        { name := String.ofList found.1.name, arguments := found.1.arguments,
          params := (Params.read found.1.arguments).map String.ofList }
        { s with cursor := s.foundAt.forward found.2 }
      exact hcall.imp fun heq => by rw [heq]

end Standard

open Standard in
/-- **Every standard formatter can be followed.** -/
theorem Formatters.standard_watched : ∀ f ∈ Formatters.standard, f.Watched := by
  simp only [Formatters.standard, inOrder, List.forall_mem_cons]
  exact ⟨Table.formatter_watched, fixed_watched _ _ _, fixed_watched _ _ _, heading_watched,
    whole_watched _ _ _ _, whole_watched _ _ _ _, comment_watched, wrap_watched _ _ _ _,
    Nesting.quotes_watched, Nesting.lists_watched, whole_watched _ _ _ _, address_watched,
    whole_watched _ _ _ _, call_watched, whole_watched _ _ _ _, whole_watched _ _ _ _,
    wrap_watched _ _ _ _, wrap_watched _ _ _ _, wrap_watched _ _ _ _, wrap_watched _ _ _ _,
    wrap_watched _ _ _ _, wrap_watched _ _ _ _, whole_watched _ _ _ _, styled_watched,
    fixed_watched _ _ _, fun f hf => absurd hf List.not_mem_nil⟩

/-! ### The standard macros -/

namespace Macro

theorem closing_watched : closing.Watched := fun _ _ _ s _ => .refl s.page.depth rfl

/-- Evaluation opens no renders. -/
theorem depth_evaluate {page page' : Page} {source : List Char} {v : Value}
    (h : page.evaluate source = .ok (v, page')) : page'.depth = page.depth := by
  unfold Page.evaluate at h
  split at h
  · cases h
  · cases h
    rfl

theorem conditional_watched : conditional.Watched := by
  intro c d call s h
  unfold conditional
  dsimp only
  cases Block.find? Block.conditional s.cursor.rest with
  | none => exact .refl _ rfl
  | some block =>
      dsimp only
      cases hvalue : (s.forward block.length).page.evaluate call.arguments with
      | error e => exact .refl _ rfl
      | ok found =>
          obtain ⟨v, page⟩ := found
          have hdepth : page.depth = s.page.depth := depth_evaluate hvalue
          have hhere := h.renderHere
            (Text.trim (if v.isTruthy then block.body else block.alternate.getD []))
            { s.forward block.length with page := page }
          rw [← hdepth]
          exact hhere

theorem silently_watched : silently.Watched := by
  intro c d call s h
  unfold silently
  dsimp only
  cases Block.find? Block.silent s.cursor.rest with
  | none => exact .refl _ rfl
  | some block =>
      dsimp only
      obtain ⟨nodes, page, hc, hr⟩ := h.render block.body [] (s.forward block.length).page
      rw [hc]
      exact hr.imp fun hd => by rw [hd]

theorem set_watched : set.Watched := by
  intro c d call s _
  unfold set
  dsimp only
  cases hvalue : s.page.evaluate call.arguments with
  | error e => exact .refl _ rfl
  | ok found =>
      dsimp only
      rw [depth_evaluate hvalue]
      exact .refl _ rfl

theorem print_watched : print.Watched := by
  intro c d call s h
  unfold print
  dsimp only
  cases hvalue : s.page.evaluate call.arguments with
  | error e => exact .refl _ rfl
  | ok found =>
      obtain ⟨v, page⟩ := found
      have hdepth : page.depth = s.page.depth := depth_evaluate hvalue
      dsimp only
      rw [← hdepth]
      split
      · exact .refl _ rfl
      · exact h.renderHere v.text.toList { s with page := page }

theorem remember_watched : remember.Watched := by
  intro c d call s h
  obtain ⟨limit, hsetting⟩ := h.setting
  unfold remember
  dsimp only
  cases hvalue : s.page.evaluate call.arguments with
  | error e => exact .refl _ rfl
  | ok found =>
      obtain ⟨v, page⟩ := found
      have hdepth : page.depth = s.page.depth := depth_evaluate hvalue
      dsimp only
      cases Expr.firstVariable? call.arguments with
      | none =>
          dsimp only
          rw [hdepth]
          exact .refl _ rfl
      | some name =>
          dsimp only
          cases (page.vars.get (String.ofList name)).literal? with
          | none =>
              dsimp only
              rw [hdepth]
              exact .refl _ rfl
          | some literal =>
              -- the limit is no part of a key or of a time
              dsimp only
              rw [hsetting, hdepth]
              exact .refl _ rfl

theorem back_watched : back.Watched := by
  intro c d call s _
  unfold back
  dsimp only
  cases backTarget s.page.history.earlier call.params with
  | error e => exact .refl _ rfl
  | ok token => exact .refl _ rfl

theorem actions_watched : actions.Watched := fun _ _ _ s _ => .refl s.page.depth rfl

theorem choice_watched : choice.Watched := by
  intro c d call s _
  unfold choice
  dsimp only
  cases call.params with
  | nil => exact .refl _ rfl
  | cons title titles => exact .refl _ rfl

theorem display_watched : display.Watched := by
  intro c d call s h
  unfold display
  dsimp only
  cases call.params with
  | nil => exact .refl _ rfl
  | cons title titles => exact h.renderHere _ s

end Macro

open Macro in
/-- **Every standard macro can be followed.** -/
theorem Macros.standard_watched : Macros.standard.Watched := by
  intro name m hget
  have hin := Dict.mem_of_get?_ofList hget
  simp only [List.mem_cons, Prod.mk.injEq, List.not_mem_nil, or_false] at hin
  rcases hin with ⟨-, rfl⟩ | ⟨-, rfl⟩ | ⟨-, rfl⟩ | ⟨-, rfl⟩ | ⟨-, rfl⟩ | ⟨-, rfl⟩ | ⟨-, rfl⟩ |
    ⟨-, rfl⟩ | ⟨-, rfl⟩ | ⟨-, rfl⟩ | ⟨-, rfl⟩ | ⟨-, rfl⟩
  · exact conditional_watched
  · exact closing_watched
  · exact closing_watched
  · exact set_watched
  · exact print_watched
  · exact remember_watched
  · exact back_watched
  · exact actions_watched
  · exact display_watched
  · exact silently_watched
  · exact closing_watched
  · exact choice_watched

end Gamebook
