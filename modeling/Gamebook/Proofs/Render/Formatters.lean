/-
**The standard formatters are transparent.**

The standard formatters look at the store to tell whether a link is broken, and at nothing else of
the page; all changes of the page come from what lies further in and from macros.  The links that
they make lead to passages or out of the story.  So they keep any bond between two renders.

Main results:

* `Formatters.standard_transparent` — **every standard formatter keeps every bond**.
-/

import Gamebook.Proofs.Render.Nesting
import Gamebook.Proofs.Render.Table
import Gamebook.Render.Standard

set_option relaxedAutoImplicit false
set_option autoImplicit false

namespace Gamebook

variable {B : Bond} {p : Page}

/-! ### Kinds of formatters -/

namespace Standard

theorem fixed_transparent (name : String) (start : Pattern) {node : Node}
    (hn : Node.linksOf node = []) : (fixed name start node).Transparent := by
  intro B macros c d s q _ _ hj
  have hnode : B.ShowsNode s.page node := fun l hl => by simp [hn] at hl
  exact ⟨q, rfl, hj.emit hnode, B.later_refl _⟩

theorem wrap_transparent (name : String) (start stop : Pattern) {tag : Tag}
    (ht : ({ tag := tag } : Element).target? = none) :
    (wrap name start stop tag).Transparent := by
  intro B macros c d s q _ hc hj
  obtain ⟨q', hd, hj', hin, hl⟩ := hc.scanInside stop [] hj Bond.shows_nil
  simp only [wrap, hd]
  exact ⟨q', rfl, hj'.emit (Bond.showsNode_plain ht (by simpa using hin)), hl⟩

/-- A construct read whole is shown by the node that is built for it, with the store of the page. -/
theorem whole_transparent {α : Type} (name : String) (start : Pattern)
    (read? : List Char → Option (α × Nat)) (build : Store → α → Option Node)
    (hb : ∀ (B : Bond) p a node, build p.store a = some node → B.ShowsNode p node) :
    (whole name start read? build).Transparent := by
  intro B macros c d s q _ _ hj
  simp only [whole, Scanner.foundAt_withPage]
  cases read? s.foundAt.rest with
  | none => trivial
  | some found =>
      obtain ⟨a, length⟩ := found
      have hmove : B.Joins { s with cursor := s.foundAt.forward length } q := hj.move rfl rfl
      simp only [Option.map_some, Scanner.page_withPage, ← B.store_eq hj.pages]
      cases hnode : build s.page.store a with
      | none => exact ⟨q, rfl, hmove, B.later_refl _⟩
      | some node => exact ⟨q, rfl, hmove.emit (hb B _ _ _ hnode), B.later_refl _⟩

/-! ### Links -/

theorem linkTo_shows (title : String) {children : List Node} (h : B.Shows p children) :
    B.ShowsNode p (.element (p.store.linkTo title) children) :=
  Bond.showsNode_link (B.link_passage p title) h

theorem linkAnywhere_shows (target : String) {children : List Node} (h : B.Shows p children) :
    B.ShowsNode p (.element (p.store.linkAnywhere target) children) := by
  rw [Store.linkAnywhere]
  split
  · exact linkTo_shows target h
  · exact Bond.showsNode_link (B.link_external p target) h

theorem link_transparent : link.Transparent := by
  refine whole_transparent _ _ _ _ fun B p found node hnode => ?_
  obtain ⟨label, target?⟩ := found
  have htext : B.Shows p [.text (String.ofList label)] := by simp
  cases target? with
  | none =>
      cases hnode
      exact linkTo_shows _ htext
  | some target =>
      cases hnode
      exact linkAnywhere_shows _ htext

theorem target?_imageElement (image : Construct.Image) : (imageElement image).target? = none := by
  obtain ⟨side, title, source, target⟩ := image
  rcases side with _ | ⟨_ | _⟩ <;> cases title <;> rfl

theorem image_transparent : image.Transparent := by
  refine whole_transparent _ _ _ _ fun B p found node hnode => ?_
  have himage : B.ShowsNode p (.element (imageElement found) []) :=
    Bond.showsNode_plain (target?_imageElement found) Bond.shows_nil
  dsimp only at hnode
  split at hnode
  · cases hnode
    exact linkAnywhere_shows _ (Bond.shows_cons.2 ⟨himage, Bond.shows_nil⟩)
  · cases hnode
    exact himage

theorem address_transparent : address.Transparent := by
  intro B macros c d s q _ _ hj
  have hnode : B.ShowsNode s.page (.element (.ofLink (.external (String.ofList s.found)))
      [.text (String.ofList s.found)]) :=
    Bond.showsNode_link (B.link_external s.page _) (by simp)
  exact ⟨q, rfl, hj.emit hnode, B.later_refl _⟩

/-! ### Elements, comments and macro calls -/

theorem heading_transparent : heading.Transparent := by
  intro B macros c d s q _ hc hj
  obtain ⟨q', hd, hj', hin, hl⟩ := hc.scanInside Mark.newline [] hj Bond.shows_nil
  simp only [heading, hd, Scanner.found_withPage]
  exact ⟨q', rfl, hj'.emit (Bond.showsNode_plain rfl (Bond.shows_reverse.2 hin)), hl⟩

theorem comment_transparent : comment.Transparent := by
  intro B macros c d s q _ hc hj
  exact hc.scan (some Mark.commentEnd) s q hj

theorem styled_transparent : styled.Transparent := by
  intro B macros c d s q _ hc hj
  have hj₀ : B.Joins (s.forward (Style.declarations s.cursor.rest).2) q := hj.move rfl rfl
  obtain ⟨q', hd, hj', hin, hl⟩ := hc.scanInside Mark.style [] hj₀ Bond.shows_nil
  have hd' : d.scanInside Mark.style []
    ((s.withPage q).forward (Style.declarations (s.withPage q).cursor.rest).2) = _ := hd
  simp only [styled, hd']
  refine ⟨q', rfl, hj'.emit (Bond.showsNode_plain ?_ (Bond.shows_reverse.2 hin)), hl⟩
  split <;> rfl

/-- A macro call keeps the bonds that the macros keep. -/
theorem call_transparent : call.Transparent := by
  intro B macros c d s q hm hc hj
  simp only [call, Scanner.foundAt_withPage]
  cases Construct.call? s.foundAt.rest with
  | none => trivial
  | some found =>
      obtain ⟨written, length⟩ := found
      have hj₀ : B.Joins { s with cursor := s.foundAt.forward length } q := hj.move rfl rfl
      exact Bond.call_moves hm hc _ hj₀

end Standard

/-! ### The table -/

open Standard in
/-- **Every standard formatter keeps every bond.** -/
theorem Formatters.standard_transparent : ∀ f ∈ Formatters.standard, f.Transparent := by
  simp only [Formatters.standard, inOrder, List.forall_mem_cons]
  refine ⟨Table.formatter_transparent, fixed_transparent _ _ rfl, fixed_transparent _ _ rfl,
    heading_transparent, ?_, ?_, comment_transparent, wrap_transparent _ _ _ rfl,
    Nesting.quotes_transparent, Nesting.lists_transparent, link_transparent, address_transparent,
    image_transparent, call_transparent, ?_, ?_, wrap_transparent _ _ _ rfl,
    wrap_transparent _ _ _ rfl, wrap_transparent _ _ _ rfl, wrap_transparent _ _ _ rfl,
    wrap_transparent _ _ _ rfl, wrap_transparent _ _ _ rfl, ?_, styled_transparent,
    fixed_transparent _ _ rfl, fun f hf => absurd hf List.not_mem_nil⟩
  -- what is left is read whole and shown as text, or not at all
  case refine_1 | refine_2 | refine_3 | refine_5 =>
    refine whole_transparent _ _ _ _ fun B p text node hnode => ?_
    cases hnode
    exact Bond.showsNode_plain rfl (by simp)
  case refine_4 =>
    exact whole_transparent _ _ _ _ fun B p text node hnode => by cases hnode

end Gamebook
