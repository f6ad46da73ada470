/-
**What a render touches.**

Menus and other parts of a page may be rendered at any point of a reading, and so may any text.  All
that such a render can change is what its macros write: the values of the current variables, and the
values kept under the keys of the story.  A text without macro calls changes nothing, so that it can
be rendered again and comes out the same; and a passage without any comes out the same when it is
shown again.

Main definitions:

* `Jar.Under` — a key with a given start;
* `Bond.confining` — the bond of renders that keep values under such keys alone;
* `Story.Touches` — a story of which a render has touched no more than it may.

Main results:

* `Bond.confining_standard` — **the standard macros keep values under the keys of their story**;
* `Story.touches_renderSource` — a render touches no more than it may;
* `Story.renderSource_quiet` — **without macro calls it touches nothing**;
* `Story.rerender_display` — and a passage shown again stays as it is;
* `Story.render_touches` — all of this, for texts, parts of the page and passages.
-/

import Gamebook.Fixture
import Gamebook.Proofs.Render.Quiet
import Gamebook.Proofs.Story.Isolation

set_option relaxedAutoImplicit false
set_option autoImplicit false

namespace Gamebook

/-! ### Jars -/

namespace Jar

/-- The key begins with `start`. -/
def Under (start key : String) : Prop := start.toList <+: key.toList

theorem under_append (start name : String) : Under start (start ++ name) := by
  rw [Under, String.toList_append]
  exact List.prefix_append _ _

end Jar

/-! ### Renders -/

/-- Evaluation keeps no values. -/
theorem Page.jar_evaluate {p p' : Page} {source : List Char} {v : Value}
    (h : p.evaluate source = .ok (v, p')) : p'.jar = p.jar := by
  rw [evaluate] at h
  split at h
  · cases h
  · cases h
    rfl

namespace Bond

/-- Renders that keep values under keys with a given start alone. -/
def confining (start : String) : Bond :=
  .itself (fun σ => σ.keyStart = start) (fun p q => p.jar.SameOutside (Jar.Under start) q.jar)
    { refl := fun p => .refl _ p.jar
      trans := fun h h' => h.trans h' }

theorem confining_mindful (start : String) : (confining start).Mindful :=
  .of_later (fun {p _ _} _ _ => .refl _ p.jar) (fun p _ => .refl _ p.jar)

/-- **The standard macros keep values under the keys of their story alone.** -/
theorem confining_standard (start : String) :
    (confining start).KeptByMacros Macros.standard := by
  refine (confining_mindful start).standard_kept ?_
  refine (confining_mindful start).remember_kept (fun h => congrArg Setting.keyStart h.1) ?_ ?_
  · rintro p q σ τ key value ⟨rfl, -⟩ rfl
    rfl
  · rintro c d call s t q ⟨-, rfl⟩ - hrun
    obtain ⟨v, page, name, literal, heval, -, -, rfl⟩ := Macro.remember_run hrun
    change Jar.SameOutside (Jar.Under c.setting.keyStart) s.page.jar _
    rw [← Page.jar_evaluate heval]
    exact Jar.sameOutside_keep (Jar.under_append _ _) _ _ _

end Bond

namespace Story

variable {s : Story} {text title : String} {mode : DisplayMode}

/-- A render has touched no more of a story than the values of the current variables and the values
kept under keys of the story. -/
structure Touches (s t : Story) : Prop where
  frame : t = { s with history := t.history, jar := t.jar }
  entries : s.history.UpToValues t.history
  jar : s.jar.SameOutside (Jar.Under s.keyStart) t.jar

/-- **A render touches no more than it may.** -/
theorem touches_renderSource (hs : s.Regular) (text : String) :
    s.Touches (s.renderSource text).2 := by
  have hmacros := Bond.confining_standard s.keyStart
  rw [← hs.macros] at hmacros
  have hformatters : ∀ f ∈ s.kit.formatters, (Bond.confining s.keyStart).KeptBy f :=
    fun f hf => hs.formatters f hf _
  have hstart : s.kit.setting.keyStart = s.keyStart := rfl
  exact {
    frame := by simp only [renderSource, render_eq hs]
    entries := renderSource_upToValues hs text
    jar := Bond.later_render hstart hformatters hmacros id text.toList s.page }

/-! ### Without macro calls -/

/-- Without macro calls a render yields its nodes alone. -/
theorem render_quiet (hstandard : s.formatters = .standard)
    (hcall : ¬ ['<', '<'] <:+: text.toList) : s.render text = ((s.yield text).nodes, [], s) := by
  have hpage : (s.kit.render text.toList s.page).2 = s.page :=
    Kit.render_quiet hstandard hcall s.page
  simp only [render, hpage]
  rfl

/-- **Without macro calls a render touches nothing.** -/
theorem renderSource_quiet (hstandard : s.formatters = .standard)
    (hcall : ¬ ['<', '<'] <:+: text.toList) : (s.renderSource text).2 = s := by
  rw [renderSource, render_quiet hstandard hcall]

/-- A passage without macro calls that is shown leaves the history and the jar as they are. -/
theorem showPassage_quiet (hstandard : s.formatters = .standard) {p : Passage}
    (hcall : ¬ ['<', '<'] <:+: p.text.toList) (mode : DisplayMode) :
    s.showPassage p mode =
      { s with
        offeredActions := []
        offeredPassages := Node.passageTitles (s.yield p.text).nodes
        current := some (s.rendered p mode) } := by
  rw [showPassage, render_quiet hstandard hcall]
  rfl

/-- **A passage without macro calls that is shown again stays as it is**, and so does all else. -/
theorem rerender_display (hstandard : s.formatters = .standard)
    (hcall : ¬ ['<', '<'] <:+: (s.store.get title).text.toList) (mode : DisplayMode) :
    (s.display title mode).rerender = some (s.display title mode) := by
  -- whatever the host was told, the passage is shown as before
  let shown (navigator : Navigator) (lastAddress : String) : Story :=
    { s.pushed title with
      navigator := navigator
      lastAddress := lastAddress
      offeredActions := []
      offeredPassages := Node.passageTitles (s.yieldOf title).nodes
      current := some ((s.pushed title).rendered (s.store.get title) mode) }
  have hagain : ∀ navigator lastAddress,
      (shown navigator lastAddress).rerender = some (shown navigator lastAddress) := by
    intro navigator lastAddress
    have htitle : (shown navigator lastAddress).history.current.title =
        some (s.store.get title).title := rfl
    rw [rerender, htitle, Store.title_get]
    exact congrArg some (showPassage_quiet (s := shown navigator lastAddress) hstandard hcall mode)
  have hshow := showPassage_quiet (s := s.pushed title) hstandard hcall mode
  by_cases hm : mode = .offscreen
  · subst hm
    rw [display_offscreen, hshow]
    exact hagain _ _
  · rw [display_of_ne s title hm, hshow]
    exact hagain _ _

/-! ### Every render -/

/-- The text that a part of the page is rendered from. -/
def elementText (s : Story) (title default : String) : String :=
  ((s.store.find? title).map Passage.text).getD default

/-- **What a render touches.**  With the standard macros, the render of a text or of a part of the
page touches the values of the current variables and the values kept under keys of the story, and
no more.  If there is no macro call in its text, it touches nothing, so that it comes out the same
when it is done again; and a passage without macro calls that was shown and is shown again leaves
the story as it is, down to what is shown of it. -/
theorem render_touches (hmacros : s.macros = .standard) (hformatters : s.formatters = .standard) :
    (∀ text, s.Touches (s.renderSource text).2) ∧
      (∀ title default, s.Touches (s.pageElement title default).2) ∧
      (∀ text, ¬ ['<', '<'] <:+: text.toList → (s.renderSource text).2 = s ∧
        (s.renderSource text).2.renderSource text = s.renderSource text) ∧
      (∀ title default, ¬ ['<', '<'] <:+: (s.elementText title default).toList →
        (s.pageElement title default).2 = s ∧
          (s.pageElement title default).2.pageElement title default =
            s.pageElement title default) ∧
      ∀ title mode, ¬ ['<', '<'] <:+: (s.store.get title).text.toList →
        (s.display title mode).rerender = some (s.display title mode) := by
  have hs : s.Regular := ⟨hmacros, hformatters ▸ Formatters.standard_transparent⟩
  refine ⟨touches_renderSource hs, fun title default => touches_renderSource hs _,
    fun text hcall => ?_, fun title default hcall => ?_,
    fun title mode hcall => rerender_display hformatters hcall mode⟩
  · have hquiet := renderSource_quiet hformatters hcall
    exact ⟨hquiet, by rw [hquiet]⟩
  · have hquiet : (s.pageElement title default).2 = s := renderSource_quiet hformatters hcall
    exact ⟨hquiet, by rw [hquiet]⟩

/-- A story with a passage that calls no macros. -/
def lantern : Story :=
  (({} : Fixture).addPassage "Start" "|''Dark''|//cold//|\n* [[Cave]]" []).build 0

/-- There, a value that is remembered is all that a render touches, and the passage is shown again
as it was. -/
theorem render_touches_lantern :
    lantern.macros = .standard ∧ lantern.formatters = .standard ∧
      lantern.Touches (lantern.renderSource "<<remember $lit = true>>").2 ∧
      lantern.Touches (lantern.pageElement "Menu" "<<set $lit = false>>").2 ∧
      (lantern.renderSource "@@a < b@@").2 = lantern ∧
      (lantern.pageElement "Start" "").2 = lantern ∧
      (lantern.display "Start" .normal).rerender = some (lantern.display "Start" .normal) := by
  have htext : ¬ ['<', '<'] <:+: "@@a < b@@".toList := by decide +kernel
  have helement : ¬ ['<', '<'] <:+: (lantern.elementText "Start" "").toList := by decide +kernel
  have hpassage : ¬ ['<', '<'] <:+: (lantern.store.get "Start").text.toList := by decide +kernel
  obtain ⟨hsource, hpart, hquiet, hquietPart, hagain⟩ := render_touches (s := lantern) rfl rfl
  exact ⟨rfl, rfl, hsource _, hpart _ _, (hquiet _ htext).1, (hquietPart _ _ helement).1,
    hagain _ _ hpassage⟩

end Story

end Gamebook
