/-
**What is rendered is well formed.**

All standard formatters and macros keep trees well formed, whatever the markup.  So a run does, by
induction along the run, and a render on every level, the errors at the limit included: however
malformed a passage is, the tree that a host gets is not.

Main results:

* `Formatters.standard_tidy`, `Macros.standard_tidy` — **the standard formatters and macros keep
  trees well formed**;
* `Kit.KeepsTidy.context_tidy` — so do the contexts of all levels;
* `Kit.render_wellFormed` — **what is rendered is well formed**, and its choices are its links.
-/

import Gamebook.Macro.Standard
import Gamebook.Proofs.Render.Macros
import Gamebook.Proofs.Render.Tidy

set_option relaxedAutoImplicit false
set_option autoImplicit false

namespace Gamebook

variable {store : Store} {ctx : Context} {s t : Scanner} {nodes : List Node}

/-! ### Links -/

open Node in
theorem Store.linkTo_fits (store : Store) (title : String) {children : List Node}
    (hlinks : links children = []) (h : WellFormed store children) :
    (element (store.linkTo title) children).Stands store :=
  Fits.stands (Fits.of_link (.passage title (!store.has title)) rfl hlinks h)
    (by simp [Store.linkTo, Element.ofLink])

open Node in
theorem Store.linkAnywhere_fits (store : Store) (target : String) {children : List Node}
    (hlinks : links children = []) (h : WellFormed store children) :
    (element (store.linkAnywhere target) children).Stands store := by
  rw [Store.linkAnywhere]
  split
  · exact store.linkTo_fits target hlinks h
  · exact Fits.stands (Fits.of_link (.external target) trivial hlinks h)
      (by simp [Element.ofLink])

/-! ### Kinds of formatters -/

namespace Standard

theorem fixed_tidy (name : String) (start : Pattern) {node : Node}
    (hnode : ∀ store, node.Stands store) : (fixed name start node).KeepsTidy := by
  rintro store macros ctx s t - - - h ⟨⟩
  exact h.emit (hnode store)

theorem wrap_tidy (name : String) (start stop : Pattern) {tag : Tag} (hflow : tag.IsFlow)
    (hitem : tag ≠ .listItem) : (wrap name start stop tag).KeepsTidy := by
  rintro store macros ctx s t - hctx - h ⟨⟩
  obtain ⟨hcontent, hscan⟩ := hctx.scanInside stop [] h Node.wellFormed_nil
  exact hscan.emit ((Node.Fits.of_flow hflow (Node.wellFormed_reverse.2 hcontent)).stands hitem)

theorem whole_tidy {α : Type} (name : String) (start : Pattern)
    (read? : List Char → Option (α × Nat)) (build : Store → α → Option Node)
    (hbuild : ∀ store a node, build store a = some node → node.Stands store) :
    (whole name start read? build).KeepsTidy := by
  intro store macros ctx s t _ _ _ h ht
  obtain ⟨⟨a, length⟩, -, rfl⟩ := Option.map_eq_some_iff.1 ht
  have hmove : ({ s with cursor := s.foundAt.forward length } : Scanner).Tidy store :=
    h.move rfl rfl
  dsimp only
  split
  · rename_i node hnode
    rw [h.store_eq] at hnode
    exact hmove.emit (hbuild store a node hnode)
  · exact hmove

/-- A construct that is shown as the text in it. -/
theorem stands_around {e : Element} {node : Node} (hflow : e.tag.IsFlow) (hitem : e.tag ≠ .listItem)
    (h : Node.WellFormed store [node]) : (Node.element e [node]).Stands store :=
  (Node.Fits.of_flow hflow h).stands hitem

/-- The mark of a heading is no longer than five characters. -/
theorem length_headingMark {previous : Option Char} {text : List Char} {n : Nat}
    (h : Mark.heading previous text = some n) : n ≤ 5 ∧ n ≤ text.length := by
  have hle : (text.takeWhile (· == '!')).length ≤ text.length :=
    (List.takeWhile_sublist _).length_le
  have hmark := Pattern.of_onLine h
  split at hmark
  · cases hmark
  · cases hmark
    omega

theorem heading_tidy : heading.KeepsTidy := by
  rintro store macros ctx s t - hctx ⟨n, hpos, hstart, hfound, -⟩ h ⟨⟩
  have hlevel : 1 ≤ s.found.length ∧ s.found.length ≤ 5 := by
    obtain ⟨hfive, hle⟩ := length_headingMark hstart
    rw [hfound, List.length_take]
    omega
  obtain ⟨hcontent, hscan⟩ := hctx.scanInside Mark.newline [] h Node.wellFormed_nil
  exact hscan.emit (Node.Fits.stands (Node.Fits.of_flow hlevel (Node.wellFormed_reverse.2 hcontent))
    (by simp))

theorem comment_tidy : comment.KeepsTidy := by
  rintro store macros ctx s t - hctx - h ⟨⟩
  exact hctx.scan (some Mark.commentEnd) s h

theorem styled_tidy : styled.KeepsTidy := by
  rintro store macros ctx s t - hctx - h ⟨⟩
  obtain ⟨hcontent, hscan⟩ := hctx.scanInside Mark.style []
    (s := s.forward (Style.declarations s.cursor.rest).2) (h.move rfl rfl) Node.wellFormed_nil
  refine hscan.emit ((Node.Fits.of_flow ?_ (Node.wellFormed_reverse.2 hcontent)).stands ?_) <;>
    split <;> simp [Tag.IsFlow]

/-! ### Links, images and macro calls -/

theorem link_tidy : link.KeepsTidy := by
  refine whole_tidy _ _ _ _ fun store construct node hnode => ?_
  obtain ⟨label, target?⟩ := construct
  cases hnode
  cases target? with
  | none => exact store.linkTo_fits _ (by simp [Node.links, Node.linksOf]) (Node.wellFormed_text _)
  | some target =>
      exact store.linkAnywhere_fits _ (by simp [Node.links, Node.linksOf]) (Node.wellFormed_text _)

theorem address_tidy : address.KeepsTidy := by
  rintro store macros ctx s t - - - h ⟨⟩
  exact h.emit (Node.Fits.stands (Node.Fits.of_link (.external _) trivial
    (by simp [Node.links, Node.linksOf]) (Node.wellFormed_text _)) (by simp [Element.ofLink]))

theorem tag_imageElement (image : Construct.Image) : (imageElement image).tag = .image := by
  unfold imageElement
  cases image.side with
  | none => cases image.title <;> rfl
  | some side => cases side <;> cases image.title <;> rfl

theorem image_tidy : image.KeepsTidy := by
  refine whole_tidy _ _ _ _ fun store image node hnode => ?_
  have htag := tag_imageElement image
  have himage : (Node.element (imageElement image) []).Stands store :=
    (Node.Fits.of_empty (by simp [htag, Tag.IsEmpty])).stands (by simp [htag])
  have hlinks : Node.links [.element (imageElement image) []] = [] := by
    simp [Node.links, Node.linksOf, Element.target?, htag]
  dsimp only at hnode
  split at hnode
  · cases hnode
    exact store.linkAnywhere_fits _ hlinks (Node.wellFormed_nil.cons himage)
  · cases hnode
    exact himage

end Standard

/-- A macro call keeps trees well formed, whatever comes of it. -/
theorem Macros.call_tidy {macros : Macros}
    (hmacros : ∀ name m, Dict.get? macros name = some m → m.KeepsTidy) (hctx : ctx.Tidy store)
    (call : MacroCall) (h : s.Tidy store) : (macros.call ctx call s).Tidy store := by
  unfold Macros.call
  split
  · exact h.emit (Node.stands_marked _)
  · rename_i m hm
    have hrun := hmacros _ m hm store ctx call s hctx h
    split
    · rename_i heq
      rwa [heq] at hrun
    · rename_i heq
      rw [heq] at hrun
      exact hrun.emit (Node.stands_error _)

theorem Standard.call_tidy : Standard.call.KeepsTidy := by
  intro store macros ctx s t hmacros hctx _ h ht
  obtain ⟨⟨written, length⟩, -, rfl⟩ := Option.map_eq_some_iff.1 ht
  exact Macros.call_tidy hmacros hctx _ (h.move rfl rfl)

/-! ### The table of formatters -/

open Standard in
/-- **Every standard formatter keeps trees well formed.** -/
theorem Formatters.standard_tidy : ∀ f ∈ Formatters.standard, f.KeepsTidy := by
  have hempty : ∀ {tag : Tag}, tag.IsEmpty → tag ≠ .listItem → ∀ store,
      (Node.element { tag := tag } []).Stands store := fun htag hitem _ =>
    (Node.Fits.of_empty htag).stands hitem
  simp only [Formatters.standard, inOrder, List.forall_mem_cons]
  refine ⟨Table.formatter_tidy, fixed_tidy _ _ (hempty (by simp [Tag.IsEmpty]) (by simp)),
    fixed_tidy _ _ fun _ => stands_around trivial (by simp) (Node.wellFormed_text _), heading_tidy,
    ?_, ?_, comment_tidy, wrap_tidy _ _ _ trivial (by simp), Nesting.quotes_tidy,
    Nesting.lists_tidy, link_tidy, address_tidy, image_tidy, call_tidy, ?_, ?_,
    wrap_tidy _ _ _ trivial (by simp), wrap_tidy _ _ _ trivial (by simp),
    wrap_tidy _ _ _ trivial (by simp), wrap_tidy _ _ _ trivial (by simp),
    wrap_tidy _ _ _ trivial (by simp), wrap_tidy _ _ _ trivial (by simp), ?_, styled_tidy,
    fixed_tidy _ _ (hempty (by simp [Tag.IsEmpty]) (by simp)),
    fun f hf => absurd hf List.not_mem_nil⟩
  -- what is left is read whole and shown as text, or not at all
  case refine_1 | refine_2 | refine_5 =>
    refine whole_tidy _ _ _ _ fun store text node hnode => ?_
    cases hnode
    exact stands_around trivial (by simp) (Node.wellFormed_text _)
  case refine_3 =>
    refine whole_tidy _ _ _ _ fun store text node hnode => ?_
    cases hnode
    exact stands_around trivial (by simp) (Node.wellFormed_html _)
  case refine_4 =>
    exact whole_tidy _ _ _ _ fun store text node hnode => by cases hnode

/-! ### The table of macros -/

theorem Page.store_evaluate {page page' : Page} {source : List Char} {v : Value}
    (h : page.evaluate source = .ok (v, page')) : page'.store = page.store := by
  rw [Page.evaluate] at h
  split at h
  · cases h
  · cases h
    rfl

namespace Macro

theorem closing_tidy : closing.KeepsTidy := fun _ _ _ _ _ h => h

theorem conditional_tidy : conditional.KeepsTidy := by
  intro store ctx call s hctx h
  simp only [conditional]
  split
  · exact h
  · rename_i block _
    have h₀ : (s.forward block.length).Tidy store := h.move rfl rfl
    split
    · exact h₀
    · rename_i heval
      exact hctx.renderHere _ (h₀.turn (Page.store_evaluate heval))

theorem silently_tidy : silently.KeepsTidy := by
  intro store ctx call s hctx h
  simp only [silently]
  split
  · exact h
  · rename_i block _
    have h₀ : (s.forward block.length).Tidy store := h.move rfl rfl
    split
    · rename_i hr
      have hpage := (hctx.render _ _ _ _ _ h₀.store_eq Node.wellFormed_nil hr).1
      exact h₀.turn (hpage.trans h₀.store_eq.symm)
    · exact h₀

theorem set_tidy : set.KeepsTidy := by
  intro store ctx call s hctx h
  simp only [set]
  split
  · exact h
  · rename_i heval
    exact h.turn (Page.store_evaluate heval)

theorem print_tidy : print.KeepsTidy := by
  intro store ctx call s hctx h
  simp only [print]
  split
  · exact h
  · rename_i heval
    have h₀ := h.turn (Page.store_evaluate heval)
    split
    · exact h₀
    · exact hctx.renderHere _ h₀

theorem remember_tidy : remember.KeepsTidy := by
  intro store ctx call s hctx h
  simp only [remember]
  split
  · exact h
  · rename_i heval
    have h₀ := h.turn (Page.store_evaluate heval)
    split
    · exact h₀
    · split
      · exact h₀
      · exact h₀.turn rfl

theorem back_tidy : back.KeepsTidy := by
  intro store ctx call s hctx h
  simp only [back]
  split
  · exact h
  · rename_i token _
    have hlabel : Node.WellFormed store
        [.element { tag := .strong } [.text "\u00ab"], .text " Back"] :=
      (Node.wellFormed_text _).cons
        (Standard.stands_around trivial (by simp) (Node.wellFormed_text _))
    exact h.emit (Node.Fits.stands (Node.Fits.of_link (.back token) trivial
      (by simp [Node.links, Node.linksOf, Element.target?]) hlabel) (by simp [Element.ofLink]))

theorem actionItem_fits (store : Store) (title : String) : (actionItem store title).Fits store := by
  have hlink : (Node.element (.ofLink (.action title (!store.has title))) [.text title]).Stands
      store :=
    Node.Fits.stands (Node.Fits.of_link (.action title (!store.has title)) rfl
      (by simp [Node.links, Node.linksOf]) (Node.wellFormed_text _)) (by simp [Element.ofLink])
  exact Node.Fits.of_flow trivial (Node.wellFormed_nil.cons hlink)

theorem actions_tidy : actions.KeepsTidy := by
  intro store ctx call s hctx h
  have hitems : ∀ titles : List String, (Node.element { tag := .unorderedList }
      (titles.map (actionItem s.page.store))).Stands store := by
    intro titles
    rw [h.store_eq]
    refine Node.Fits.stands (Node.Fits.of_parts (by simp [Tag.parts]) (fun node hnode => ?_)
      fun node hnode => ?_) (by simp) <;>
      obtain ⟨title, -, rfl⟩ := List.mem_map.1 hnode
    · exact actionItem_fits store title
    · exact ⟨.listItem, by simp [Tag.parts], rfl⟩
  have hpage : ∀ titles, ({ s with page := s.page.offer titles } : Scanner).Tidy store :=
    fun _ => h.turn rfl
  exact (hpage _).emit (hitems _)

theorem choice_tidy : choice.KeepsTidy := by
  intro store ctx call s hctx h
  simp only [choice]
  split
  · exact h
  · rw [h.store_eq]
    exact h.emit (store.linkTo_fits _ (by simp [Node.links, Node.linksOf]) (Node.wellFormed_text _))

theorem display_tidy : display.KeepsTidy := by
  intro store ctx call s hctx h
  simp only [display]
  split
  · exact h
  · exact hctx.renderHere _ h

end Macro

/-- **Every standard macro keeps trees well formed.** -/
theorem Macros.standard_tidy (name : String) (m : Macro)
    (hget : Dict.get? Macros.standard name = some m) : m.KeepsTidy := by
  have hin := Dict.mem_of_get?_ofList hget
  simp only [List.mem_cons, Prod.mk.injEq, List.not_mem_nil, or_false] at hin
  rcases hin with ⟨-, rfl⟩ | ⟨-, rfl⟩ | ⟨-, rfl⟩ | ⟨-, rfl⟩ | ⟨-, rfl⟩ | ⟨-, rfl⟩ | ⟨-, rfl⟩ |
    ⟨-, rfl⟩ | ⟨-, rfl⟩ | ⟨-, rfl⟩ | ⟨-, rfl⟩ | ⟨-, rfl⟩
  · exact Macro.conditional_tidy
  · exact Macro.closing_tidy
  · exact Macro.closing_tidy
  · exact Macro.set_tidy
  · exact Macro.print_tidy
  · exact Macro.remember_tidy
  · exact Macro.back_tidy
  · exact Macro.actions_tidy
  · exact Macro.display_tidy
  · exact Macro.silently_tidy
  · exact Macro.closing_tidy
  · exact Macro.choice_tidy

/-! ### Renders -/

namespace Kit

variable {kit : Kit}

/-- Formatters and macros that keep trees well formed. -/
structure KeepsTidy (kit : Kit) : Prop where
  formatters : ∀ f ∈ kit.formatters, f.KeepsTidy
  macros : ∀ name m, Dict.get? kit.macros name = some m → m.KeepsTidy

namespace KeepsTidy

theorem handled_tidy (hkit : kit.KeepsTidy) (hctx : ctx.Tidy store) {f : Formatter}
    (hf : f ∈ kit.formatters) (hat : s.IsAt f.start) (h : s.Tidy store) :
    (kit.handled ctx f s).Tidy store := by
  rw [Kit.handled]
  split
  · exact h.say s.found
  · rename_i t ht
    have h' := hkit.formatters f hf store kit.macros ctx s t hkit.macros hctx hat h ht
    split
    · exact h'
    · exact h'.move rfl rfl

/-- **A run keeps trees well formed.** -/
theorem run_tidy (hkit : kit.KeepsTidy) (hctx : ctx.Tidy store) (stop : Option Pattern)
    (h : s.Tidy store) : (kit.run ctx stop s).Tidy store := by
  induction s using run_induction kit ctx stop with
  | none s hn =>
      rw [run_of_none hn]
      exact (h.say s.cursor.rest).move rfl rfl
  | stopped s skipped length hn =>
      rw [run_of_stop hn]
      exact (h.say skipped).move rfl rfl
  | rule s skipped index f length hn ih =>
      rw [run_of_rule hn]
      exact ih (hkit.handled_tidy hctx (Formatters.mem_of_next? hn) (Scanner.isAt_find hn)
        ((h.say skipped).move rfl rfl))

/-- With no levels left an error is shown. -/
theorem bottom_tidy (kit : Kit) (store : Store) : kit.bottom.Tidy store where
  advances := kit.bottom_advances
  scan _ _ h := (h.emit (Node.stands_error _)).move rfl rfl
  render _ _ _ _ _ _ _ hr := by cases hr

theorem context_tidy (hkit : kit.KeepsTidy) (store : Store) (left : Nat) :
    (kit.context left).Tidy store := by
  induction left with
  | zero => exact bottom_tidy kit store
  | succ left ih =>
      refine ⟨kit.context_advances (left + 1), fun stop s h => ?_,
        fun text nodes page nodes' page' hpage hnodes hr => ?_⟩
      · have hrun := hkit.run_tidy ih stop (s := s.enter) ⟨h.store_eq, h.nodes⟩
        exact ⟨hrun.store_eq, hrun.nodes⟩
      · have hrun := hkit.run_tidy ih none (s := .start text nodes page.enter) ⟨hpage, hnodes⟩
        cases hr
        exact ⟨hrun.store_eq, hrun.nodes⟩

theorem render_tidy (hkit : kit.KeepsTidy) (text : List Char) (page : Page) :
    Node.WellFormed page.store (kit.render text page).1 := by
  rw [Kit.render, Kit.renderIn]
  split
  · rename_i hr
    have hcontext := hkit.context_tidy page.store kit.setting.config.maxDepth
    exact Node.wellFormed_reverse.2 (hcontext.render _ _ _ _ _ rfl Node.wellFormed_nil hr).2
  · exact Node.wellFormed_nil.cons (Node.stands_error _)

end KeepsTidy

/-- The standard formatters and macros under a setting. -/
def standard (setting : Setting) : Kit :=
  { formatters := .standard, macros := .standard, setting := setting }

/-- **What is rendered with the standard formatters and macros is well formed**, and the choices
that a reader gets are its links, in the same order. -/
theorem render_wellFormed (setting : Setting) (text : List Char) (page : Page) :
    let nodes := ((standard setting).render text page).1
    Node.WellFormed page.store nodes ∧ (Node.choices nodes).map Choice.link = Node.links nodes := by
  intro nodes
  have hkit : (standard setting).KeepsTidy := ⟨Formatters.standard_tidy, Macros.standard_tidy⟩
  have hwell : Node.WellFormed page.store nodes := hkit.render_tidy text page
  exact ⟨hwell, hwell.links_choices⟩

/-- Texts may well stand side by side, with a line break between them. -/
theorem texts_around_break :
    ¬ ((standard { config := {}, keyStart := "", now := 0 }).render ['a', '\n', 'b']
      { store := .ofRecords [], history := .start {}, jar := Dict.empty }).1.Pairwise
        fun node other => ¬ (node.IsText ∧ other.IsText) := by
  decide +kernel

end Kit

end Gamebook
