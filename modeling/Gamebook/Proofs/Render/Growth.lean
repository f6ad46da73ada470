/-
**What has been shown stays.**

Rendering only adds.  The nodes that are there stay where they are; new ones come behind them, and
only the latest text may get longer.  So whatever is kept when a node or a text is added holds
behind a render if it held before, and a text that has been shown first is still there at the end.

Main definitions:

* `Node.Growing` — something said of the nodes so far is kept when a node or a text is added;
* `Context.Grows`, `Macro.Grows`, `Formatter.Grows` — what is done from there only adds;
* `Node.SaysFirst` — the first node shown is a text that begins with these characters.

Main results:

* `Formatters.standard_grows`, `Macros.standard_grows` — **the standard formatters and macros only
  add**;
* `Kit.run_grows` — **so does a run of them**;
* `Kit.render_declined` — a mark that its formatter declines is shown first by a render that begins
  with it.
-/

import Gamebook.Macro.Standard
import Gamebook.Proofs.Macro.Calls
import Gamebook.Proofs.Render.Macros
import Gamebook.Proofs.Render.Parts

set_option relaxedAutoImplicit false
set_option autoImplicit false

namespace Gamebook

variable {Q : List Node → Prop} {ctx : Context} {s t : Scanner} {nodes : List Node}

/-! ### What is kept when something is added -/

/-- What is said of the nodes so far, the latest first, is kept when a node or a text is added. -/
structure Node.Growing (Q : List Node → Prop) : Prop where
  cons : ∀ {nodes : List Node} (node : Node), Q nodes → Q (node :: nodes)
  addText : ∀ {nodes : List Node} (text : List Char), Q nodes → Q (addText text nodes)

/-- What lies further in moves on and only adds. -/
structure Context.Grows (Q : List Node → Prop) (ctx : Context) : Prop where
  advances : ctx.Advances
  scan : ∀ stop s, Q s.nodes → Q (ctx.scan stop s).nodes
  render : ∀ text nodes page nodes' page', Q nodes →
    ctx.render text nodes page = .ok (nodes', page') → Q nodes'

/-- A macro only adds. -/
def Macro.Grows (m : Macro) : Prop :=
  ∀ Q ctx call s, Node.Growing Q → ctx.Grows Q → Q s.nodes → Q (m.run ctx call s).1.nodes

/-- All macros of a table only add. -/
def Macros.Grow (macros : Macros) : Prop := ∀ name m, Dict.get? macros name = some m → m.Grows

/-- A formatter only adds behind its mark, whatever macros do so. -/
def Formatter.Grows (f : Formatter) : Prop :=
  ∀ Q macros ctx s t, Node.Growing Q → macros.Grow → ctx.Grows Q → Q s.nodes →
    f.handle macros ctx s = some t → Q t.nodes

theorem Context.Grows.renderHere (hctx : ctx.Grows Q) (text : List Char) (h : Q s.nodes) :
    Q (ctx.renderHere text s).1.nodes := by
  rw [Context.renderHere]
  cases hr : ctx.render text s.nodes s.page with
  | error e => exact h
  | ok r => exact hctx.render _ _ _ _ _ h hr

/-! ### Quoted lines and lists -/

namespace Nesting

/-- Open elements hold their own nodes; all that they add to those around them is a node when they
are closed. -/
theorem stacks_growing (hQ : Node.Growing Q) : Stacks (fun _ => True) Q where
  inner _ _ := trivial
  outermost _ hnodes := hQ.cons _ hnodes

theorem readQuote_grows (hQ : Node.Growing Q) (level : Nat) (frames : List Frame)
    (h : Q s.nodes) : Q (readQuote ctx level frames s).2.nodes := by
  have hframes : ∀ frame ∈ frames, True := fun _ _ => trivial
  have hgo := ((stacks_growing hQ).goTo .blockQuote trivial level hframes h).2
  rw [readQuote]
  split
  · rename_i nodes heq
    rwa [heq] at hgo
  · rename_i frame outer nodes heq
    rwa [heq] at hgo

theorem readQuotes_grows (hQ : Node.Growing Q) (hctx : ctx.Advances) (level : Nat)
    (frames : List Frame) (h : Q s.nodes) : Q (readQuotes ctx level frames s).nodes := by
  induction level, frames, s using readQuotes_induction hctx with
  | none frames s =>
      rw [readQuotes_zero]
      exact (stacks_growing hQ).closeAll (fun _ _ => trivial) h
  | last level frames s hlevel hmark =>
      rw [readQuotes_of_none hlevel hmark]
      exact (stacks_growing hQ).closeAll (fun _ _ => trivial) (readQuote_grows hQ level frames h)
  | more level frames s marks hlevel hmark ih =>
      rw [readQuotes_of_some hctx hlevel hmark]
      exact ih (readQuote_grows hQ level frames h)

theorem quotes_grows : quotes.Grows := by
  rintro Q macros ctx s t hQ - hctx h ⟨⟩
  exact readQuotes_grows hQ hctx.advances _ [] h

theorem put_grows (hQ : Node.Growing Q) (node : Node) (frames : List Frame) (h : Q nodes) :
    Q (put node frames nodes).2 := by
  cases frames with
  | nil => exact hQ.cons node h
  | cons frame frames => exact h

theorem readItem_grows (hQ : Node.Growing Q) (tag : Tag) (level : Nat) (latest : Option Tag)
    (frames : List Frame) (h : Q s.nodes) : Q (readItem ctx tag level latest frames s).2.nodes :=
  put_grows hQ _ _ ((stacks_growing hQ).enterItem trivial level latest (fun _ _ => trivial) h).2

theorem readItems_grows (hQ : Node.Growing Q) (hctx : ctx.Advances) (latest : Option Tag)
    (frames : List Frame) (h : Q s.nodes) : Q (readItems ctx latest frames s).nodes := by
  induction latest, frames, s using readItems_induction hctx with
  | last latest frames s hitem =>
      rw [readItems_of_none hitem]
      exact (stacks_growing hQ).closeAll (fun _ _ => trivial) h
  | more latest frames s tag level hitem ih =>
      rw [readItems_of_some hctx hitem]
      exact ih (readItem_grows hQ tag level latest frames h)

theorem lists_grows : lists.Grows := by
  rintro Q macros ctx s t hQ - hctx h ⟨⟩
  exact readItems_grows hQ hctx.advances none [] h

end Nesting

/-! ### Tables -/

namespace Table

theorem nodes_readCells (hctx : ctx.Advances) (g : Grid) (cells : List Cell)
    (column width : Nat) (s : Scanner) :
    (readCells ctx g cells column width s).2.nodes = s.nodes := by
  induction g, cells, column, width, s using readCells_induction hctx with
  | none g cells column width s hslot => rw [readCells_of_none hslot]
  | rowEnd g cells column width s length hslot =>
      rw [readCells_of_rowEnd hslot]
      rfl
  | above g cells column width s hslot ih =>
      rw [readCells_of_above hslot]
      exact ih
  | next g cells column width s hslot ih =>
      rw [readCells_of_next hslot]
      exact ih
  | content g cells column width s hslot ih =>
      rw [readCells_of_content hctx hslot]
      exact ih

theorem nodes_readRow (hctx : ctx.Advances) (kind : Mark.RowKind) (isFirst : Bool) (g : Grid)
    (s : Scanner) : (readRow ctx kind isFirst g s).2.nodes = s.nodes := by
  cases kind with
  | caption => rfl
  | head | foot | body => exact nodes_readCells hctx _ [] 0 1 s

/-- The rows of a table are put into its grid, and nothing is shown before it is read. -/
theorem nodes_readRows (hctx : ctx.Advances) (isFirst : Bool) (g : Grid) (s : Scanner) :
    (readRows ctx isFirst g s).2.nodes = s.nodes := by
  induction isFirst, g, s using readRows_induction hctx with
  | last isFirst g s hkind => rw [readRows_of_none hkind]
  | more isFirst g s kind hkind ih =>
      rw [readRows_of_some hctx hkind, ih, nodes_readRow hctx]

theorem formatter_grows : formatter.Grows := by
  intro Q macros ctx s t hQ _ hctx h ht
  have hnodes := nodes_readRows hctx.advances true {} { s with cursor := s.foundAt }
  simp only [formatter, handle] at ht
  split at ht
  · cases ht
  · cases ht
    have hread : Q (readRows ctx true {} { s with cursor := s.foundAt }).2.nodes := by
      rw [hnodes]
      exact h
    exact hQ.cons _ hread

end Table

/-! ### The standard formatters -/

namespace Standard

theorem fixed_grows (name : String) (start : Pattern) (node : Node) :
    (fixed name start node).Grows := by
  rintro Q macros ctx s t hQ - - h ⟨⟩
  exact hQ.cons node h

theorem wrap_grows (name : String) (start stop : Pattern) (tag : Tag) :
    (wrap name start stop tag).Grows := by
  rintro Q macros ctx s t hQ - - h ⟨⟩
  exact hQ.cons _ h

theorem whole_grows {α : Type} (name : String) (start : Pattern)
    (read? : List Char → Option (α × Nat)) (build : Store → α → Option Node) :
    (whole name start read? build).Grows := by
  intro Q macros ctx s t hQ _ _ h ht
  obtain ⟨⟨a, length⟩, -, rfl⟩ := Option.map_eq_some_iff.1 ht
  dsimp only
  split
  · exact hQ.cons _ h
  · exact h

theorem heading_grows : heading.Grows := by
  rintro Q macros ctx s t hQ - - h ⟨⟩
  exact hQ.cons _ h

theorem comment_grows : comment.Grows := by
  rintro Q macros ctx s t - - hctx h ⟨⟩
  exact hctx.scan (some Mark.commentEnd) s h

theorem address_grows : address.Grows := by
  rintro Q macros ctx s t hQ - - h ⟨⟩
  exact hQ.cons _ h

theorem styled_grows : styled.Grows := by
  rintro Q macros ctx s t hQ - - h ⟨⟩
  exact hQ.cons _ h

end Standard

/-- A macro call only adds, whatever comes of it. -/
theorem Macros.call_grows {macros : Macros} (hQ : Node.Growing Q) (hmacros : macros.Grow)
    (hctx : ctx.Grows Q) (call : MacroCall) (h : Q s.nodes) :
    Q (macros.call ctx call s).nodes := by
  unfold Macros.call
  split
  · exact hQ.cons _ h
  · rename_i m hm
    have hrun := hmacros _ m hm Q ctx call s hQ hctx h
    split
    · rename_i heq
      rwa [heq] at hrun
    · rename_i heq
      rw [heq] at hrun
      exact hQ.cons _ hrun

theorem Standard.call_grows : Standard.call.Grows := by
  intro Q macros ctx s t hQ hmacros hctx h ht
  obtain ⟨⟨written, length⟩, -, rfl⟩ := Option.map_eq_some_iff.1 ht
  exact Macros.call_grows hQ hmacros hctx _ h

open Standard in
/-- **The standard formatters only add.** -/
theorem Formatters.standard_grows : ∀ f ∈ Formatters.standard, f.Grows := by
  simp only [Formatters.standard, inOrder, List.forall_mem_cons]
  exact ⟨Table.formatter_grows, fixed_grows _ _ _, fixed_grows _ _ _, heading_grows,
    whole_grows _ _ _ _, whole_grows _ _ _ _, comment_grows, wrap_grows _ _ _ _,
    Nesting.quotes_grows, Nesting.lists_grows, whole_grows _ _ _ _, address_grows,
    whole_grows _ _ _ _, call_grows, whole_grows _ _ _ _, whole_grows _ _ _ _,
    wrap_grows _ _ _ _, wrap_grows _ _ _ _, wrap_grows _ _ _ _, wrap_grows _ _ _ _,
    wrap_grows _ _ _ _, wrap_grows _ _ _ _, whole_grows _ _ _ _, styled_grows, fixed_grows _ _ _,
    fun f hf => absurd hf List.not_mem_nil⟩

/-! ### The standard macros -/

namespace Macro

theorem closing_grows : closing.Grows := fun _ _ _ _ _ _ h => h

theorem conditional_grows : conditional.Grows := by
  intro Q ctx call s _ hctx h
  simp only [conditional]
  split
  · exact h
  · split
    · exact h
    · exact hctx.renderHere _ h

theorem silently_grows : silently.Grows := by
  intro Q ctx call s _ _ h
  simp only [silently]
  split
  · exact h
  · split <;> exact h

theorem set_grows : set.Grows := by
  intro Q ctx call s _ _ h
  simp only [set]
  split <;> exact h

theorem print_grows : print.Grows := by
  intro Q ctx call s _ hctx h
  simp only [print]
  split
  · exact h
  · split
    · exact h
    · exact hctx.renderHere _ h

theorem remember_grows : remember.Grows := by
  intro Q ctx call s _ _ h
  simp only [remember]
  split
  · exact h
  · split
    · exact h
    · split <;> exact h

theorem back_grows : back.Grows := by
  intro Q ctx call s hQ _ h
  simp only [back]
  split
  · exact h
  · exact hQ.cons _ h

theorem actions_grows : actions.Grows := fun _ _ _ _ hQ _ h => hQ.cons _ h

theorem choice_grows : choice.Grows := by
  intro Q ctx call s hQ _ h
  simp only [choice]
  split
  · exact h
  · exact hQ.cons _ h

theorem display_grows : display.Grows := by
  intro Q ctx call s _ hctx h
  simp only [display]
  split
  · exact h
  · exact hctx.renderHere _ h

end Macro

/-- **The standard macros only add.** -/
theorem Macros.standard_grows : Macros.standard.Grow := by
  intro name m hget
  have hin := Dict.mem_of_get?_ofList hget
  simp only [List.mem_cons, Prod.mk.injEq, List.not_mem_nil, or_false] at hin
  rcases hin with ⟨-, rfl⟩ | ⟨-, rfl⟩ | ⟨-, rfl⟩ | ⟨-, rfl⟩ | ⟨-, rfl⟩ | ⟨-, rfl⟩ | ⟨-, rfl⟩ |
    ⟨-, rfl⟩ | ⟨-, rfl⟩ | ⟨-, rfl⟩ | ⟨-, rfl⟩ | ⟨-, rfl⟩
  · exact Macro.conditional_grows
  · exact Macro.closing_grows
  · exact Macro.closing_grows
  · exact Macro.set_grows
  · exact Macro.print_grows
  · exact Macro.remember_grows
  · exact Macro.back_grows
  · exact Macro.actions_grows
  · exact Macro.display_grows
  · exact Macro.silently_grows
  · exact Macro.closing_grows
  · exact Macro.choice_grows

/-! ### Runs and renders -/

namespace Kit

variable {kit : Kit}

theorem handled_grows (hQ : Node.Growing Q) (hmacros : kit.macros.Grow) (hctx : ctx.Grows Q)
    {f : Formatter} (hf : f.Grows) (h : Q s.nodes) : Q (kit.handled ctx f s).nodes := by
  rw [handled]
  split
  · exact hQ.addText _ h
  · rename_i t ht
    have hhandle := hf Q _ _ _ _ hQ hmacros hctx h ht
    split <;> exact hhandle

/-- **A run only adds.** -/
theorem run_grows (hQ : Node.Growing Q) (hformatters : ∀ f ∈ kit.formatters, f.Grows)
    (hmacros : kit.macros.Grow) (hctx : ctx.Grows Q) (stop : Option Pattern) (h : Q s.nodes) :
    Q (kit.run ctx stop s).nodes := by
  induction s using run_induction kit ctx stop with
  | none s hn =>
      rw [run_of_none hn]
      exact hQ.addText _ h
  | stopped s skipped length hn =>
      rw [run_of_stop hn]
      exact hQ.addText _ h
  | rule s skipped index f length hn ih =>
      rw [run_of_rule hn]
      exact ih (handled_grows hQ hmacros hctx (hformatters f (Formatters.mem_of_next? hn))
        (hQ.addText skipped h))

theorem bottom_grows (kit : Kit) (hQ : Node.Growing Q) : kit.bottom.Grows Q where
  advances := kit.bottom_advances
  scan _ _ h := hQ.cons _ h
  render _ _ _ _ _ _ hr := by cases hr

theorem context_grows (hQ : Node.Growing Q) (hformatters : ∀ f ∈ kit.formatters, f.Grows)
    (hmacros : kit.macros.Grow) (left : Nat) : (kit.context left).Grows Q := by
  induction left with
  | zero => exact kit.bottom_grows hQ
  | succ left ih =>
      refine ⟨kit.context_advances (left + 1), fun stop s h => ?_, ?_⟩
      · exact run_grows hQ hformatters hmacros ih stop (s := s.enter) h
      · rintro text nodes page nodes' page' h ⟨⟩
        exact run_grows hQ hformatters hmacros ih none (s := .start text nodes page.enter) h

end Kit

/-! ### What is said first -/

namespace Node

/-- The node shown first, the latest ones first, is a text that begins with these characters. -/
def SaysFirst (text : List Char) (nodes : List Node) : Prop :=
  ∃ more rest, nodes = more ++ [.text (String.ofList (text ++ rest))]

theorem saysFirst_growing (text : List Char) : Growing (SaysFirst text) where
  cons node h := by
    obtain ⟨more, rest, rfl⟩ := h
    exact ⟨node :: more, rest, rfl⟩
  addText added h := by
    obtain ⟨more, rest, rfl⟩ := h
    cases added with
    | nil => exact ⟨more, rest, rfl⟩
    | cons c added =>
        cases more with
        | nil =>
            have hjoin : String.ofList (text ++ (rest ++ c :: added)) =
                String.ofList (text ++ rest) ++ String.ofList (c :: added) := by
              rw [← List.append_assoc, String.ofList_append]
            exact ⟨[], rest ++ c :: added, by rw [hjoin]; rfl⟩
        | cons node more =>
            cases node with
            | text said =>
                exact ⟨.text (said ++ String.ofList (c :: added)) :: more, rest, rfl⟩
            | html said =>
                exact ⟨.text (String.ofList (c :: added)) :: .html said :: more, rest, rfl⟩
            | element e children =>
                exact ⟨.text (String.ofList (c :: added)) :: .element e children :: more, rest, rfl⟩

theorem saysFirst_addText {text : List Char} (hne : text ≠ []) : SaysFirst text (addText text []) := by
  cases text with
  | nil => exact absurd rfl hne
  | cons c text =>
      refine ⟨[], [], ?_⟩
      rw [List.append_nil]
      rfl

end Node

namespace Kit

variable {kit : Kit}

/-- **A mark that its formatter declines is said**, and it stays what is shown first. -/
theorem render_declined (hformatters : ∀ f ∈ kit.formatters, f.Grows) (hmacros : kit.macros.Grow)
    {left : Nat} (hdepth : kit.setting.config.maxDepth = left + 1) {c : Char} {rest : List Char}
    {index length : Nat} {f : Formatter} {page : Page}
    (hhit : kit.formatters.hit? none none (c :: rest) = some (.rule index f length))
    (hdecline : f.handle kit.macros (kit.context left)
      ((Scanner.start (c :: rest) [] page.enter).find [] length) = none) :
    ∃ behind nodes, (kit.render (c :: rest) page).1 =
      .text (String.ofList ((c :: rest).take length ++ behind)) :: nodes := by
  have hnext : kit.formatters.next? none none (c :: rest) = some ([], .rule index f length) := by
    rw [Formatters.next?, hhit]
  have hpos : 0 < length := Formatters.length_pos_of_hit? _ _ _ _ _ hhit
  have hmark : (c :: rest).take length ≠ [] := by
    obtain ⟨n, rfl⟩ := Nat.exists_eq_succ_of_ne_zero (Nat.ne_of_gt hpos)
    exact List.cons_ne_nil _ _
  have hgrows := Node.saysFirst_growing ((c :: rest).take length)
  have hsaid : Node.SaysFirst ((c :: rest).take length) (kit.handled (kit.context left) f
      ((Scanner.start (c :: rest) [] page.enter).find [] length)).nodes := by
    rw [handled, hdecline]
    exact Node.saysFirst_addText hmark
  have hctx := context_grows hgrows hformatters hmacros left
  obtain ⟨more, behind, hnodes⟩ := run_grows hgrows hformatters hmacros hctx none hsaid
  have hrender : (kit.render (c :: rest) page).1 =
      (kit.run (kit.context left) none (kit.handled (kit.context left) f
        ((Scanner.start (c :: rest) [] page.enter).find [] length))).nodes.reverse := by
    rw [render, renderIn, hdepth]
    change (kit.run (kit.context left) none (.start (c :: rest) [] page.enter)).nodes.reverse = _
    rw [run_of_rule hnext]
  refine ⟨behind, more.reverse, ?_⟩
  rw [hrender, hnodes, List.reverse_append]
  rfl

end Kit

end Gamebook
