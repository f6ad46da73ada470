/-
**Renders of one text keep a bond.**

A render goes from mark to mark on one level, and what lies inside is rendered one level further
in.  So a bond that all formatters and macros of a kit keep is kept by a run, by induction along the
run, and then by the contexts of all levels, by induction on the levels that are left.  A bond may
speak of the number of open renders; then there is one for each level.

Main definitions:

* `Bond.Kits` — kits with the same tables, which keep a bond;
* `Bond.Nests` — what a bond says outside a render, another one says inside;
* `Kit.Changes` — all that happens inside a render changes the page in one way.

Main results:

* `Bond.Kits.run_moves` — a run keeps the bond if what lies further in does;
* `Bond.Nests.contexts` — so a context keeps a bond if the next one keeps the bond inside;
* `Bond.Kits.context` — so the bond is kept on every level;
* `Bond.Kits.render` — **two renders of one text keep the bond**;
* `Bond.Kits.changes` — so all that happens inside a render changes the page as a bond says;
* `Bond.later_render` — and a render that keeps a bond with itself changes it so.
-/

import Gamebook.Proofs.Render.Bond
import Gamebook.Proofs.Render.Run

set_option relaxedAutoImplicit false
set_option autoImplicit false

namespace Gamebook

namespace Bond

variable {B C : Bond} {p q : Page} {s : Scanner} {c d : Context} {k l : Kit}

/-- Kits with the same tables that keep a bond. -/
structure Kits (B : Bond) (k l : Kit) : Prop where
  formatters_eq : l.formatters = k.formatters
  macros_eq : l.macros = k.macros
  maxDepth_eq : l.setting.config.maxDepth = k.setting.config.maxDepth
  settings : B.settings k.setting l.setting
  formatters : ∀ f ∈ k.formatters, B.KeptBy f
  macros : B.KeptByMacros k.macros

namespace Kits

/-! ### One level -/

theorem handled_moves (h : B.Kits k l) (hc : B.Contexts c d) {f : Formatter}
    (hf : f ∈ k.formatters) (hj : B.Joins s q) :
    B.Moves s (k.handled c f s) (l.handled d f (s.withPage q)) := by
  have hm := h.formatters f hf k.macros c d s q h.macros hc hj
  rw [Kit.handled, Kit.handled, h.macros_eq]
  generalize f.handle k.macros c s = t at hm ⊢
  generalize f.handle k.macros d (s.withPage q) = u at hm ⊢
  cases t with
  | none =>
      cases u with
      | none => exact ⟨q, rfl, hj.say s.found, B.later_refl _⟩
      | some u => exact hm.elim
  | some t =>
      cases u with
      | none => exact hm.elim
      | some u =>
          obtain ⟨q', rfl, hj', hl⟩ := hm
          have hlen : (t.withPage q').cursor.rest.length = t.cursor.rest.length := rfl
          have hfound : (s.withPage q).foundAt.rest.length = s.foundAt.rest.length := rfl
          simp only [hlen, hfound]
          split
          · exact ⟨q', rfl, hj', hl⟩
          · exact ⟨q', rfl, hj'.move rfl rfl, hl⟩

/-- **A run keeps a bond** if what lies further in does. -/
theorem run_moves (h : B.Kits k l) (hc : B.Contexts c d) (stop : Option Pattern) (s : Scanner)
    (q : Page) (hj : B.Joins s q) :
    B.Moves s (k.run c stop s) (l.run d stop (s.withPage q)) := by
  -- the other run finds the same marks, since both read the same text
  have hnext : ∀ (s : Scanner) (q : Page),
      l.formatters.next? stop (s.withPage q).cursor.previous (s.withPage q).cursor.rest =
        k.formatters.next? stop s.cursor.previous s.cursor.rest := by
    intro s q
    rw [h.formatters_eq, Scanner.cursor_withPage]
  induction s using Kit.run_induction k c stop generalizing q with
  | none s hn =>
      rw [Kit.run_of_none hn, Kit.run_of_none ((hnext s q).trans hn)]
      exact ⟨q, rfl, (hj.say s.cursor.rest).move rfl rfl, B.later_refl _⟩
  | stopped s skipped length hn =>
      rw [Kit.run_of_stop hn, Kit.run_of_stop ((hnext s q).trans hn)]
      exact ⟨q, rfl, (hj.say skipped).move rfl rfl, B.later_refl _⟩
  | rule s skipped index f length hn ih =>
      rw [Kit.run_of_rule hn, Kit.run_of_rule ((hnext s q).trans hn)]
      have hfound : B.Joins (s.find skipped length) q := (hj.say skipped).move rfl rfl
      obtain ⟨q', hu, hj', hl⟩ := h.handled_moves hc (Formatters.mem_of_next? hn) hfound
      have hu' : l.handled d f ((s.withPage q).find skipped length) = _ := hu
      rw [hu']
      exact (ih q' hj').after hl

end Kits

/-! ### All levels -/

/-- What the first bond says outside a render, the second one says inside. -/
structure Nests (B C : Bond) : Prop where
  pages_enter : ∀ {p q}, B.pages p q → C.pages p.enter q.enter
  link_enter : ∀ {p l}, B.link p l → C.link p.enter l
  pages_leave : ∀ {p q}, C.pages p q → B.pages p.leave q.leave
  link_leave : ∀ {p l}, C.link p l → B.link p.leave l
  later_leave : ∀ {p q}, C.later p.enter q → B.later p q.leave

namespace Nests

theorem shows_enter (hn : B.Nests C) {nodes : List Node} (h : B.Shows p nodes) :
    C.Shows p.enter nodes := fun node hnode l hl => hn.link_enter (h node hnode l hl)

theorem shows_leave (hn : B.Nests C) {nodes : List Node} (h : C.Shows p nodes) :
    B.Shows p.leave nodes := fun node hnode l hl => hn.link_leave (h node hnode l hl)

/-- **A context keeps a bond** if the one inside keeps the bond that holds there. -/
theorem contexts (hn : B.Nests C) (hs : B.settings k.setting l.setting) (h : C.Kits k l) {left : Nat}
    (hc : C.Contexts (k.contextOver c left) (l.contextOver d left)) :
    B.Contexts (k.contextOver c (left + 1)) (l.contextOver d (left + 1)) where
  settings := hs
  scan stop s q hj := by
    have hj₀ : C.Joins s.enter q.enter := ⟨hn.pages_enter hj.pages, hn.shows_enter hj.shows⟩
    obtain ⟨q', hu, hj', hl⟩ := h.run_moves hc stop s.enter q.enter hj₀
    have hu' : l.run (l.contextOver d left) stop (s.withPage q).enter = _ := hu
    simp only [Kit.contextOver, hu']
    exact ⟨q'.leave, rfl, ⟨hn.pages_leave hj'.pages, hn.shows_leave hj'.shows⟩, hn.later_leave hl⟩
  render text nodes p q hp hs := by
    have hj₀ : C.Joins (Scanner.start text nodes p.enter) q.enter :=
      ⟨hn.pages_enter hp, hn.shows_enter hs⟩
    obtain ⟨q', hu, hj', hl⟩ := h.run_moves hc none _ q.enter hj₀
    have hu' : l.run (l.contextOver d left) none (Scanner.start text nodes q.enter) = _ := hu
    simp only [Kit.contextOver, hu']
    exact ⟨rfl, hn.pages_leave hj'.pages, hn.shows_leave hj'.shows, hn.later_leave hl⟩

end Nests

namespace Kits

/-- With no levels left the same error is shown. -/
theorem bottom (h : B.Kits k l) : B.Contexts k.bottom l.bottom := by
  have hdeep : l.tooDeep = k.tooDeep := by
    rw [Kit.tooDeep, Kit.tooDeep, h.maxDepth_eq]
  refine ⟨h.settings, fun stop s q hj => ?_, fun text nodes p q _ _ => ?_⟩
  · simp only [Kit.bottom, hdeep]
    exact ⟨q, rfl, (hj.emit showsNode_error).move rfl rfl, B.later_refl _⟩
  · simp only [Kit.bottom, hdeep]
    rfl

/-- **Every level keeps a bond** that the tables keep. -/
theorem context (h : B.Kits k l) (hn : B.Nests B) (left : Nat) :
    B.Contexts (k.context left) (l.context left) := by
  induction left with
  | zero => exact h.bottom
  | succ left ih => exact hn.contexts h.settings h ih

/-- **Two renders of one text keep a bond** that the tables keep. -/
theorem render (h : B.Kits k l) (hn : B.Nests B) (text : List Char) (hp : B.pages p q) :
    (l.render text q).1 = (k.render text p).1 ∧ B.pages (k.render text p).2 (l.render text q).2 ∧
      B.Shows (k.render text p).2 (k.render text p).1 ∧ B.later p (k.render text p).2 := by
  have hr := (h.context hn k.setting.config.maxDepth).render text [] p q hp shows_nil
  rw [Kit.render, Kit.render, h.maxDepth_eq, Kit.renderIn, Kit.renderIn]
  generalize (k.context k.setting.config.maxDepth).render text [] p = r at hr ⊢
  generalize (l.context k.setting.config.maxDepth).render text [] q = r' at hr ⊢
  cases r with
  | error e =>
      cases r' with
      | ok yield' => exact hr.elim
      | error e' =>
          cases hr
          exact ⟨rfl, hp, shows_cons.2 ⟨showsNode_error, shows_nil⟩, B.later_refl _⟩
  | ok yield =>
      cases r' with
      | error e' => exact hr.elim
      | ok yield' =>
          obtain ⟨hn, hp', hs, hl⟩ := hr
          exact ⟨congrArg List.reverse hn.symm, hp', shows_reverse.2 hs, hl⟩

end Kits

end Bond

/-- All that happens inside a render changes the page in one way: macro calls, texts rendered in
place and what lies inside elements, with any number of levels left. -/
structure Kit.Changes (kit : Kit) (later : Page → Page → Prop) : Prop where
  call : ∀ left c (sc : Scanner), later sc.page (kit.macros.call (kit.context left) c sc).page
  scan : ∀ left stop (sc : Scanner), later sc.page ((kit.context left).scan stop sc).page
  text : ∀ left text nodes (page : Page) nodes' page',
    (kit.context left).render text nodes page = .ok (nodes', page') → later page page'
  render : ∀ text (page : Page), later page (kit.render text page).2

/-- **All that happens inside a render changes the page as a bond says**, if the bond allows any
page and any link. -/
theorem Bond.Kits.changes {B : Bond} {kit : Kit} (h : B.Kits kit kit) (hn : B.Nests B)
    (hpages : ∀ p, B.pages p p) (hlinks : ∀ p l, B.link p l) : kit.Changes B.later := by
  have hshows : ∀ p nodes, B.Shows p nodes := fun p _ _ _ l _ => hlinks p l
  have hjoins : ∀ sc : Scanner, B.Joins sc sc.page := fun sc => ⟨hpages sc.page, hshows _ _⟩
  refine ⟨fun left c sc => ?_, fun left stop sc => ?_, ?_, fun text page => ?_⟩
  · obtain ⟨q, -, -, hlater⟩ := Bond.call_moves h.macros (h.context hn left) c (hjoins sc)
    exact hlater
  · obtain ⟨q, -, -, hlater⟩ := (h.context hn left).scan stop sc sc.page (hjoins sc)
    exact hlater
  · intro left text nodes page nodes' page' hr
    have hrenders := (h.context hn left).render text nodes page page (hpages page) (hshows _ _)
    rw [hr] at hrenders
    exact hrenders.2.2.2
  · obtain ⟨-, -, -, hlater⟩ := h.render hn text (hpages page)
    exact hlater

/-- **A render that keeps a bond with itself changes its page as the bond says**, if to enter the
render and to leave it is no change. -/
theorem Bond.later_render {settings : Setting → Prop} {later : Page → Page → Prop}
    {h : Page.IsLater later} {kit : Kit} (hsettings : settings kit.setting)
    (hformatters : ∀ f ∈ kit.formatters, (itself settings later h).KeptBy f)
    (hmacros : (itself settings later h).KeptByMacros kit.macros)
    (hleave : ∀ {p q : Page}, later p.enter q → later p q.leave) (text : List Char) (page : Page) :
    later page (kit.render text page).2 := by
  have hkits : (itself settings later h).Kits kit kit :=
    ⟨rfl, rfl, rfl, ⟨rfl, hsettings⟩, hformatters, hmacros⟩
  have hnests : (itself settings later h).Nests (itself settings later h) := {
    pages_enter := fun h => congrArg Page.enter h
    link_enter := fun h => h
    pages_leave := fun h => congrArg Page.leave h
    link_leave := fun h => h
    later_leave := hleave }
  exact (hkits.changes hnests (fun _ => rfl) (fun _ _ => trivial)).render text page

end Gamebook
