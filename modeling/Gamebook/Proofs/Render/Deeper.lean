/-
**A higher limit changes nothing.**

A render that never gets to its limit comes out the same under any higher one.  What it shows does
not tell whether it has got there, since what is shown inside `silently` is thrown away; so the
render is watched.  The watched render goes along with the one below it until the limit is reached,
and if it never is, the two are the same to the end, whatever lies below the last level: an error,
or further levels.

Main definitions:

* `Kit.tripwire` — what is at hand with no levels left, under watch;
* `Kit.NeverTooDeep`, `Story.NeverTooDeep` — **a render that never gets too deep**.

Main results:

* `Kit.run_watched` — a run raises the count, or the other run is the same;
* `Kit.contextOver_watches` — so it is on all levels, whatever lies below the last one;
* `Story.render_withMaxDepth` — **raising the limit is invisible to renders that did not hit it**.
-/

import Gamebook.Proofs.Render.Watch
import Gamebook.Story.Basic

set_option relaxedAutoImplicit false
set_option autoImplicit false

namespace Gamebook

namespace UnlessRaised

variable {n m : Nat} {P : Prop}

/-- A render that is entered before and left behind makes no difference. -/
theorem around (h : UnlessRaised (n + 1) m P) : UnlessRaised n (m - 1) P := by
  have hle := h.le
  refine ⟨by omega, fun heq => h.holds ?_⟩
  omega

end UnlessRaised

namespace Kit

variable {kit : Kit} {c d : Context}

/-! ### Limits -/

/-- The kit with another limit. -/
def withMaxDepth (kit : Kit) (limit : Nat) : Kit :=
  { kit with setting := kit.setting.withMaxDepth limit }

/-- What is at hand with no levels left, under watch: one more render is entered and never left.
The count of the page tells of it ever after, also where nothing of it is shown. -/
def tripwire (kit : Kit) : Context where
  setting := kit.setting
  scan _ s := ((s.emit (Node.error kit.tooDeep.message)).toEnd).enter
  render _ nodes page := .ok (nodes, page.enter)

/-- **The render never gets too deep**: no scan and no render in it, shown or not, is refused for
lying too deep. -/
def NeverTooDeep (kit : Kit) (text : List Char) (page : Page) : Prop :=
  (renderIn (kit.contextOver kit.tripwire kit.setting.config.maxDepth) text page).2.depth =
    page.depth

instance (kit : Kit) (text : List Char) (page : Page) : Decidable (kit.NeverTooDeep text page) :=
  inferInstanceAs (Decidable (_ = _))

/-- Levels above levels. -/
theorem contextOver_add (deepest : Context) (m n : Nat) :
    kit.contextOver deepest (m + n) = kit.contextOver (kit.contextOver deepest m) n := by
  induction n with
  | zero => rfl
  | succ n ih => rw [← Nat.add_assoc, contextOver, contextOver, ih]

/-! ### Watching a run -/

theorem handled_watched (limit : Nat) (hmacros : kit.macros.Watched) {f : Formatter}
    (hf : f.Watched) (h : c.Watches d) (s : Scanner) :
    UnlessRaised s.page.depth (kit.handled c f s).page.depth
      ((kit.withMaxDepth limit).handled d f s = kit.handled c f s) := by
  have hhandle := hf kit.macros c d s hmacros h
  unfold handled
  have hother : (kit.withMaxDepth limit).macros = kit.macros := rfl
  rw [hother]
  cases hc : f.handle kit.macros c s with
  | none =>
      rw [hc] at hhandle
      rw [hhandle]
      exact .refl _ rfl
  | some t =>
      rw [hc] at hhandle
      dsimp only
      split
      · rename_i hlt
        refine hhandle.imp fun hd => ?_
        rw [hd]
        exact if_pos hlt
      · rename_i hge
        refine hhandle.imp fun hd => ?_
        rw [hd]
        exact if_neg hge

/-- **A run raises the count, or the other run is the same.** -/
theorem run_watched (limit : Nat) (hmacros : kit.macros.Watched)
    (hformatters : ∀ f ∈ kit.formatters, f.Watched) (h : c.Watches d) (stop : Option Pattern)
    (s : Scanner) :
    UnlessRaised s.page.depth (kit.run c stop s).page.depth
      ((kit.withMaxDepth limit).run d stop s = kit.run c stop s) := by
  -- both runs find the same marks, for the tables are the same
  have hsame : (kit.withMaxDepth limit).formatters = kit.formatters := rfl
  induction s using run_induction kit c stop with
  | none s hn =>
      have hn' := hn
      rw [← hsame] at hn'
      rw [run_of_none hn, run_of_none hn']
      exact .refl _ rfl
  | stopped s skipped length hn =>
      have hn' := hn
      rw [← hsame] at hn'
      rw [run_of_stop hn, run_of_stop hn']
      exact .refl _ rfl
  | rule s skipped index f length hn ih =>
      have hn' := hn
      rw [← hsame] at hn'
      have hf := hformatters f (Formatters.mem_of_next? hn)
      have hmark := handled_watched limit hmacros hf h (s.find skipped length)
      rw [run_of_rule hn, run_of_rule hn']
      refine hmark.trans ih fun heq hrest => ?_
      rw [heq]
      exact hrest

/-! ### Watching all levels -/

theorem tripwire_advances (kit : Kit) : kit.tripwire.Advances := by
  intro stop s
  simp [tripwire, Scanner.toEnd, Scanner.enter]

/-- Where the levels end the count is raised, and nothing is said about the other context. -/
theorem tripwire_watches {limit : Nat} (hd : d.Advances)
    (hsetting : d.setting = kit.setting.withMaxDepth limit) : kit.tripwire.Watches d where
  setting := ⟨limit, hsetting⟩
  advances := kit.tripwire_advances
  advances_other := hd
  scan _ s := ⟨Nat.le_succ s.page.depth, fun h => absurd h (Nat.succ_ne_self s.page.depth)⟩
  render _ nodes page :=
    ⟨nodes, page.enter, rfl, Nat.le_succ page.depth,
      fun h => absurd h (Nat.succ_ne_self page.depth)⟩

/-- **All levels can be watched, whatever lies below the last one.** -/
theorem contextOver_watches {limit : Nat} (hmacros : kit.macros.Watched)
    (hformatters : ∀ f ∈ kit.formatters, f.Watched) (hd : d.Advances)
    (hsetting : d.setting = kit.setting.withMaxDepth limit) (left : Nat) :
    (kit.contextOver kit.tripwire left).Watches ((kit.withMaxDepth limit).contextOver d left) := by
  induction left with
  | zero => exact tripwire_watches hd hsetting
  | succ left ih =>
      refine ⟨⟨limit, rfl⟩, kit.contextOver_advances kit.tripwire_advances (left + 1),
        contextOver_advances _ hd (left + 1), fun stop s => ?_, fun text nodes page => ?_⟩
      · have hrun := run_watched limit hmacros hformatters ih stop s.enter
        exact hrun.around.imp fun heq => congrArg Scanner.leave heq
      · have hrun := run_watched limit hmacros hformatters ih none
          (Scanner.start text nodes page.enter)
        refine ⟨_, _, rfl, hrun.around.imp fun heq => ?_⟩
        simp only [contextOver, heq]

/-- A render that never gets too deep does not look at what lies below its levels. -/
theorem NeverTooDeep.renderIn_contextOver {text : List Char} {page : Page} {limit : Nat}
    (h : kit.NeverTooDeep text page) (hmacros : kit.macros.Watched)
    (hformatters : ∀ f ∈ kit.formatters, f.Watched) (hd : d.Advances)
    (hsetting : d.setting = kit.setting.withMaxDepth limit) :
    renderIn ((kit.withMaxDepth limit).contextOver d kit.setting.config.maxDepth) text page =
      renderIn (kit.contextOver kit.tripwire kit.setting.config.maxDepth) text page := by
  have hwatch := contextOver_watches hmacros hformatters hd hsetting kit.setting.config.maxDepth
  obtain ⟨nodes, page', hc, hother⟩ := hwatch.render text [] page
  have hwatched : renderIn (kit.contextOver kit.tripwire kit.setting.config.maxDepth) text page =
      (nodes.reverse, page') := by
    simp only [renderIn, hc]
  rw [NeverTooDeep, hwatched] at h
  rw [hwatched]
  simp only [renderIn, hother.holds h]

/-- Under a higher limit such a render comes out the same. -/
theorem NeverTooDeep.render_of_le {text : List Char} {page : Page}
    (h : kit.NeverTooDeep text page) (hformatters : kit.formatters = .standard)
    (hmacros : kit.macros = .standard) {limit : Nat}
    (hle : kit.setting.config.maxDepth ≤ limit) :
    (kit.withMaxDepth limit).render text page = kit.render text page := by
  have hm : kit.macros.Watched := by
    rw [hmacros]
    exact Macros.standard_watched
  have hf : ∀ f ∈ kit.formatters, f.Watched := by
    rw [hformatters]
    exact Formatters.standard_watched
  obtain ⟨more, hlimit⟩ := Nat.exists_eq_add_of_le' hle
  have hother : (kit.withMaxDepth limit).context limit =
      (kit.withMaxDepth limit).contextOver ((kit.withMaxDepth limit).context more)
        kit.setting.config.maxDepth := by
    rw [hlimit]
    exact contextOver_add _ more _
  have hsetting : ((kit.withMaxDepth limit).context more).setting =
      kit.setting.withMaxDepth limit := by
    cases more <;> rfl
  -- one render is watched, and it goes along with both of the others
  have hdeeper := h.renderIn_contextOver hm hf
    ((kit.withMaxDepth limit).context_advances more) hsetting
  have hsame : kit.bottom.setting = kit.setting.withMaxDepth kit.setting.config.maxDepth := rfl
  have hown := h.renderIn_contextOver hm hf kit.bottom_advances hsame
  calc (kit.withMaxDepth limit).render text page
      = renderIn ((kit.withMaxDepth limit).context limit) text page := rfl
    _ = renderIn (kit.contextOver kit.tripwire kit.setting.config.maxDepth) text page := by
        rw [hother, hdeeper]
    _ = kit.render text page := hown.symm

end Kit

/-! ### Stories -/

namespace Story

/-- The story with another limit. -/
def withMaxDepth (s : Story) (limit : Nat) : Story :=
  { s with config := { s.config with maxDepth := limit } }

/-- Rendering the text at the current point of the reading never gets too deep. -/
def NeverTooDeep (s : Story) (text : String) : Prop := s.kit.NeverTooDeep text.toList s.page

instance (s : Story) (text : String) : Decidable (s.NeverTooDeep text) :=
  inferInstanceAs (Decidable (Kit.NeverTooDeep _ _ _))

/-- **Raising the limit is invisible to renders that did not hit it**: the same nodes are shown,
the same actions are offered, and the story afterwards is the same but for its limit. -/
theorem render_withMaxDepth (s : Story) (hformatters : s.formatters = .standard)
    (hmacros : s.macros = .standard) (text : String) {low high : Nat} (hle : low ≤ high)
    (h : (s.withMaxDepth low).NeverTooDeep text) :
    (s.withMaxDepth high).render text =
      (((s.withMaxDepth low).render text).1, ((s.withMaxDepth low).render text).2.1,
        ((s.withMaxDepth low).render text).2.2.withMaxDepth high) := by
  have hkit : (s.withMaxDepth high).kit.render text.toList (s.withMaxDepth high).page =
      (s.withMaxDepth low).kit.render text.toList (s.withMaxDepth low).page :=
    Kit.NeverTooDeep.render_of_le h hformatters hmacros hle
  simp only [render, hkit]
  rfl

/-- A story in which one passage is shown inside another, where nobody sees it. -/
def cellar : Story :=
  new (.ofRecords [{ title := "Cellar", text := "''<<set $seen = 1>>''", order := 0 }]) {} .empty
    {} 0

/-- Displaying a passage out of sight. -/
def downstairs : String := "<<silently>><<display Cellar>><<endsilently>>up"

/-- Four levels are enough for it, and with nine it is the same. -/
theorem render_withMaxDepth_downstairs :
    (cellar.withMaxDepth 4).NeverTooDeep downstairs ∧
      (cellar.withMaxDepth 9).render downstairs =
        (((cellar.withMaxDepth 4).render downstairs).1,
          ((cellar.withMaxDepth 4).render downstairs).2.1,
          ((cellar.withMaxDepth 4).render downstairs).2.2.withMaxDepth 9) := by
  have hnever : (cellar.withMaxDepth 4).NeverTooDeep downstairs := by decide +kernel
  exact ⟨hnever, render_withMaxDepth cellar rfl rfl downstairs (by decide) hnever⟩

/-- With three levels the error is raised, though nothing is seen of it. -/
example : ¬ (cellar.withMaxDepth 3).NeverTooDeep downstairs ∧
    Node.textContent ((cellar.withMaxDepth 3).render downstairs).1 = "up" := by decide +kernel

end Story

end Gamebook
