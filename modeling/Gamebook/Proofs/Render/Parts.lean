/-
**Parts that are put together.**

Quoted lines and lists are put together on a stack of open elements, and tables in a grid.  What is
said of every open element, or of every section and cell, is kept as they grow if it is kept by the
few ways in which one part gets into another.

Main definitions:

* `Nesting.Stacks` — what is said of open elements is kept when the innermost one is closed;
* `Table.Grid.All` — something is said of all sections and all cells of a table.

Main results:

* `Nesting.Stacks.close`, `Nesting.Stacks.goTo`, `Nesting.Stacks.enterItem` — the ways of opening
  and closing elements keep it;
* `Table.Grid.All.enter`, `Table.Grid.All.stretch`, `Table.Grid.All.anchor`,
  `Table.Grid.All.addRow`, `Table.Grid.All.setCaption` — so do the ways in which a table changes.
-/

import Gamebook.Render.Nesting
import Gamebook.Render.Table

set_option relaxedAutoImplicit false
set_option autoImplicit false

namespace Gamebook

namespace Nesting

/-! ### Open elements -/

/-- When an element is closed, `P` still holds of the one around it, and `Q` of the nodes behind
them all. -/
structure Stacks (P : Frame → Prop) (Q : List Node → Prop) : Prop where
  inner : ∀ {frame outer : Frame}, P frame → P outer →
    P { outer with content := frame.toNode :: outer.content }
  outermost : ∀ {frame : Frame} {nodes : List Node}, P frame → Q nodes → Q (frame.toNode :: nodes)

namespace Stacks

variable {P : Frame → Prop} {Q : List Node → Prop} {frames : List Frame} {nodes : List Node}

theorem closeOne (h : Stacks P Q) (hframes : ∀ frame ∈ frames, P frame) (hnodes : Q nodes) :
    (∀ frame ∈ (closeOne frames nodes).1, P frame) ∧ Q (Nesting.closeOne frames nodes).2 := by
  match frames with
  | [] => exact ⟨hframes, hnodes⟩
  | [frame] =>
      exact ⟨fun f hf => absurd hf List.not_mem_nil, h.outermost (List.forall_mem_singleton.1 hframes)
        hnodes⟩
  | frame :: outer :: frames =>
      obtain ⟨hframe, hrest⟩ := List.forall_mem_cons.1 hframes
      obtain ⟨houter, hrest⟩ := List.forall_mem_cons.1 hrest
      exact ⟨List.forall_mem_cons.2 ⟨h.inner hframe houter, hrest⟩, hnodes⟩

theorem close (h : Stacks P Q) (count : Nat) (hframes : ∀ frame ∈ frames, P frame)
    (hnodes : Q nodes) :
    (∀ frame ∈ (close count frames nodes).1, P frame) ∧ Q (Nesting.close count frames nodes).2 := by
  induction count generalizing frames nodes with
  | zero => exact ⟨hframes, hnodes⟩
  | succ count ih =>
      obtain ⟨hframes', hnodes'⟩ := h.closeOne hframes hnodes
      exact ih hframes' hnodes'

theorem closeAll (h : Stacks P Q) (hframes : ∀ frame ∈ frames, P frame) (hnodes : Q nodes) :
    Q (closeAll frames nodes) := (h.close _ hframes hnodes).2

end Stacks

variable {P : Frame → Prop} {Q : List Node → Prop} {frames : List Frame} {nodes : List Node}

theorem forall_openTags {tag : Tag} (hnew : P { tag := tag }) (count : Nat)
    (hframes : ∀ frame ∈ frames, P frame) : ∀ frame ∈ openTags tag count frames, P frame := by
  intro frame hframe
  rcases List.mem_append.1 hframe with hframe | hframe
  · rw [List.eq_of_mem_replicate hframe]
    exact hnew
  · exact hframes frame hframe

namespace Stacks

theorem goTo (h : Stacks P Q) (tag : Tag) (hnew : P { tag := tag }) (level : Nat)
    (hframes : ∀ frame ∈ frames, P frame) (hnodes : Q nodes) :
    (∀ frame ∈ (goTo tag level frames nodes).1, P frame) ∧
      Q (Nesting.goTo tag level frames nodes).2 := by
  rw [Nesting.goTo]
  split
  · exact ⟨forall_openTags hnew _ hframes, hnodes⟩
  · exact h.close _ hframes hnodes

theorem enterItem (h : Stacks P Q) {tag : Tag} (hnew : P { tag := tag }) (level : Nat)
    (latest : Option Tag) (hframes : ∀ frame ∈ frames, P frame) (hnodes : Q nodes) :
    (∀ frame ∈ (enterItem tag level latest frames nodes).1, P frame) ∧
      Q (Nesting.enterItem tag level latest frames nodes).2 := by
  rw [Nesting.enterItem]
  split
  · obtain ⟨hframes', hnodes'⟩ := h.close 1 hframes hnodes
    exact ⟨forall_openTags hnew 1 hframes', hnodes'⟩
  · exact h.goTo tag hnew level hframes hnodes

end Stacks

end Nesting

namespace Table

/-! ### Tables -/

/-- What holds of the members of a list, and is kept by a change, holds when one member is
changed. -/
theorem forall_mem_modify {α : Type} {P : α → Prop} {f : α → α} {l : List α} (i : Nat)
    (hl : ∀ a ∈ l, P a) (hf : ∀ a, P a → P (f a)) : ∀ a ∈ l.modify i f, P a := by
  intro a ha
  obtain ⟨j, hj⟩ := List.mem_iff_getElem?.1 ha
  rw [List.getElem?_modify] at hj
  obtain ⟨b, hb, rfl⟩ := Option.map_eq_some_iff.1 hj
  have hPb := hl b (List.mem_of_getElem? hb)
  split
  · exact hf b hPb
  · exact hPb

/-- What is told of the members of a list, when one of them is changed. -/
theorem map_modify {α β : Type} {f : α → α} (tell : α → β) (f' : β → β)
    (h : ∀ a, tell (f a) = f' (tell a)) (l : List α) (i : Nat) :
    (l.modify i f).map tell = (l.map tell).modify i f' := by
  induction l generalizing i with
  | nil => simp
  | cons a l ih => cases i <;> simp [h, ih]

theorem modify_append {α : Type} (f : α → α) (before after : List α) (i : Nat) :
    (before ++ after).modify i f =
      if i < before.length then before.modify i f ++ after
      else before ++ after.modify (i - before.length) f := by
  induction before generalizing i with
  | nil => simp
  | cons b before ih =>
      cases i with
      | zero => simp
      | succ i =>
          rw [List.cons_append, List.modify_succ_cons, ih]
          split <;> simp [*]

theorem modify_append_cons {α : Type} (f : α → α) (before after : List α) (a : α) :
    (before ++ a :: after).modify before.length f = before ++ f a :: after := by
  simp [modify_append]

/-- Of every section `P` holds, with its kind, its element and the text of a caption, and of every
cell `C`. -/
def Grid.All (P : Mark.RowKind → Element → List Node → Prop) (C : Cell → Prop) (g : Grid) : Prop :=
  ∀ part ∈ g.sections,
    P part.kind part.element part.content ∧ ∀ cells ∈ part.rows, ∀ cell ∈ cells, C cell

namespace Grid.All

variable {P : Mark.RowKind → Element → List Node → Prop} {C : Cell → Prop} {g : Grid}

theorem empty : Grid.All P C {} := fun _ hpart => absurd hpart List.not_mem_nil

theorem enter (h : g.All P C) {kind : Mark.RowKind}
    (hnew : P kind { tag := sectionTag kind } []) : (g.enter kind).All P C := by
  rw [Grid.enter]
  split
  · exact h
  · intro part hpart
    rcases List.mem_append.1 hpart with hpart | hpart
    · exact h part hpart
    · rw [List.mem_singleton.1 hpart]
      exact ⟨hnew, fun cells hcells => absurd hcells List.not_mem_nil⟩

theorem stretch (h : g.All P C) (hC : ∀ cell height, C cell → C (cell.stretch height))
    (column : Nat) : (g.stretch column).All P C := by
  rw [Grid.stretch]
  split
  · exact h
  · refine forall_mem_modify _ h fun part hpart => ⟨hpart.1, ?_⟩
    refine forall_mem_modify _ hpart.2 fun cells hcells => ?_
    exact forall_mem_modify _ hcells fun cell hcell => hC cell _ hcell

theorem anchor (h : g.All P C) (column : Nat) (cells : List Cell) :
    (g.anchor column cells).All P C := h

theorem addRow (h : g.All P C) {cells : List Cell} (hcells : ∀ cell ∈ cells, C cell) :
    (g.modifyLast fun part => { part with rows := part.rows ++ [cells] }).All P C := by
  refine forall_mem_modify _ h fun part hpart => ⟨hpart.1, fun row hrow => ?_⟩
  rcases List.mem_append.1 hrow with hrow | hrow
  · exact hpart.2 row hrow
  · rw [List.mem_singleton.1 hrow]
    exact hcells

theorem setCaption (h : g.All P C) {side : String} {content : List Node}
    (hP : ∀ kind e before, P kind e before → P kind (e.setAttr "align" side) content) :
    (g.modifyLast fun part =>
      { part with element := part.element.setAttr "align" side, content := content }).All P C :=
  forall_mem_modify _ h fun _ hpart => ⟨hP _ _ _ hpart.1, hpart.2⟩

/-- The caption so far, which is that of the last section. -/
theorem caption (h : g.All P C) {Q : List Node → Prop} (hnil : Q [])
    (hP : ∀ kind e content, P kind e content → Q content) :
    Q ((g.sections.getLast?.map Section.content).getD []) := by
  cases hlast : g.sections.getLast? with
  | none => exact hnil
  | some part => exact hP _ _ _ (h part (List.mem_of_getLast? hlast)).1

end Grid.All

end Table

end Gamebook
