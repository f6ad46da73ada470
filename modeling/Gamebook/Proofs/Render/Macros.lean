/-
**The standard macros.**

The standard macros change the page in few ways: they write variables, they keep values in the jar,
and they offer actions, apart from those that were followed.  A bond that allows these changes, and
the links of `back` and of the actions, is kept by all of them.

Main definitions:

* `Bond.Mindful`, `Bond.Lawful` — a bond that allows what the standard macros do, to keep values in
  the jar apart or not.

Main results:

* `Expr.clicked_evaluateChars` — the source of an expression follows no actions;
* `Bond.Lawful.standard_kept` — **a lawful bond is kept by every standard macro**.
-/

import Gamebook.Macro.Standard
import Gamebook.Proofs.Expr.Mentions
import Gamebook.Proofs.Render.Bond

set_option relaxedAutoImplicit false
set_option autoImplicit false

namespace Gamebook

/-! ### Expressions -/

namespace Expr

/-- **The source of an expression follows no actions.** -/
theorem clicked_evaluateChars {source : List Char} {vars vars' : Variables} {v : Value}
    (h : evaluateChars source vars = .ok (v, vars')) : vars'.clicked = vars.clicked := by
  rw [evaluateChars] at h
  split at h
  · cases h
  · rename_i e hparse
    have hvars : (e.eval vars).2 = vars' := congrArg Prod.snd (Except.ok.inj h)
    exact hvars ▸ (e.eval_changes vars).clicked

end Expr

/-! ### Tables -/

namespace Dict

variable {α : Type}

theorem mem_of_get?_foldl {entries : List (String × α)} {d : Dict α} {key : String} {value : α}
    (h : (entries.foldl (fun d e => d.insert e.1 e.2) d).get? key = some value) :
    d.get? key = some value ∨ (key, value) ∈ entries := by
  induction entries generalizing d with
  | nil => exact .inl h
  | cons entry entries ih =>
      rcases ih h with h | h
      · rw [get?_insert] at h
        split at h
        · rename_i hkey
          cases h
          exact .inr (List.mem_cons.2 (.inl (Prod.ext hkey rfl)))
        · exact .inl h
      · exact .inr (List.mem_cons_of_mem _ h)

/-- What is found in the dictionary of a list is an entry of the list. -/
theorem mem_of_get?_ofList {entries : List (String × α)} {key : String} {value : α}
    (h : (ofList entries).get? key = some value) : (key, value) ∈ entries := by
  rcases mem_of_get?_foldl h with h | h
  · simp at h
  · exact h

end Dict

/-- The page that offers further actions. -/
def Page.offer (p : Page) (titles : List String) : Page :=
  { p with offered := p.offered ++ titles }

namespace Macro

variable {ctx : Context} {c : MacroCall} {before after : Scanner}

/-- A call of `remember` goes well if its text can be evaluated and the first variable named there
then has a value that can be kept. -/
theorem run_remember {v : Value} {page : Page} {name : List Char} {literal : String}
    (he : before.page.evaluate c.arguments = .ok (v, page))
    (hname : Expr.firstVariable? c.arguments = some name)
    (hliteral : (page.vars.get (String.ofList name)).literal? = some literal) :
    remember.run ctx c before =
      ({ before with page := { page with
        jar := page.jar.keep (ctx.setting.keyStart ++ String.ofList name) literal
          (ctx.setting.now + ctx.setting.config.rememberFor.seconds) } }, none) := by
  simp only [remember, he, hname, hliteral]

/-- A call of `remember` that goes well evaluates its text and then keeps the value of the first
variable named there. -/
theorem remember_run (h : remember.run ctx c before = (after, none)) :
    ∃ v page name literal, before.page.evaluate c.arguments = .ok (v, page) ∧
      Expr.firstVariable? c.arguments = some name ∧
      (page.vars.get (String.ofList name)).literal? = some literal ∧
      after = { before with page := { page with
        jar := page.jar.keep (ctx.setting.keyStart ++ String.ofList name) literal
          (ctx.setting.now + ctx.setting.config.rememberFor.seconds) } } := by
  rw [remember] at h
  dsimp only at h
  split at h
  · cases h
  · rename_i v page heval
    split at h
    · cases h
    · rename_i name hname
      split at h
      · cases h
      · rename_i literal hliteral
        cases h
        exact ⟨v, page, name, literal, heval, hname, hliteral, rfl⟩

end Macro

namespace Bond

variable {B : Bond} {p q p' : Page} {s : Scanner} {c d : Context}

/-! ### Lawful bonds -/

/-- A bond that allows what the standard macros do to the history and the nodes. -/
structure Mindful (B : Bond) : Prop where
  history_eq : ∀ {p q}, B.pages p q → q.history = p.history
  /-- To write the variables that an expression leaves. -/
  write : ∀ {p q source v} (vars : Variables), B.pages p q →
    Expr.evaluateChars source p.vars = .ok (v, vars) →
      B.pages (p.withVariables vars) (q.withVariables vars) ∧ B.later p (p.withVariables vars)
  /-- To offer actions that were not followed. -/
  offer : ∀ {p q} (titles : List String), B.pages p q →
    (∀ title ∈ titles, p.vars.isClicked title = false) →
      B.pages (p.offer titles) (q.offer titles) ∧ B.later p (p.offer titles) ∧
        ∀ title ∈ titles, B.link (p.offer titles) (.action title (!p.store.has title))
  /-- To link to an earlier point of the reading. -/
  back : ∀ (p : Page) (params : List String) (token : String),
    Macro.backTarget p.history.earlier params = .ok token → B.link p (.back token)

/-- A bond that also allows any value to be kept. -/
structure Lawful (B : Bond) : Prop extends Mindful B where
  keyStart_eq : ∀ {σ τ}, B.settings σ τ → τ.keyStart = σ.keyStart
  /-- To keep a value, up to the times that the two settings give. -/
  keep : ∀ {p q σ τ} (key value : String), B.settings σ τ → B.pages p q →
    B.pages { p with jar := p.jar.keep key value (σ.now + σ.config.rememberFor.seconds) }
        { q with jar := q.jar.keep key value (τ.now + τ.config.rememberFor.seconds) } ∧
      B.later p { p with jar := p.jar.keep key value (σ.now + σ.config.rememberFor.seconds) }

namespace Mindful

/-- A bond of a render with itself allows what it says of variables and of offers. -/
theorem of_later {settings : Setting → Prop} {later : Page → Page → Prop}
    {h : Page.IsLater later}
    (hwrite : ∀ {p source v} (vars : Variables), Expr.evaluateChars source p.vars = .ok (v, vars) →
      later p (p.withVariables vars))
    (hoffer : ∀ p titles, later p (p.offer titles)) :
    (itself settings later h).Mindful where
  history_eq h := congrArg Page.history h
  write := by
    rintro p q source v vars rfl he
    exact ⟨rfl, hwrite vars he⟩
  offer := by
    rintro p q titles rfl -
    exact ⟨rfl, hoffer _ _, fun _ _ => trivial⟩
  back _ _ _ _ := trivial

theorem vars_eq (h : B.Mindful) (hp : B.pages p q) : q.vars = p.vars :=
  congrArg History.vars (h.history_eq hp)

/-- Evaluation goes alike in both renders. -/
theorem evaluate (h : B.Mindful) (hp : B.pages p q) (source : List Char) :
    match p.evaluate source with
    | .error e => q.evaluate source = .error e
    | .ok (v, p') => ∃ q', q.evaluate source = .ok (v, q') ∧ B.pages p' q' ∧ B.later p p' := by
  rw [Page.evaluate, Page.evaluate, h.vars_eq hp]
  cases he : Expr.evaluateChars source p.vars with
  | error e => rfl
  | ok r =>
      obtain ⟨v, vars⟩ := r
      obtain ⟨hpages, hl⟩ := h.write vars hp he
      exact ⟨_, rfl, hpages, hl⟩

theorem evaluate_ok (h : B.Mindful) (hp : B.pages p q) {source : List Char} {v : Value}
    (he : p.evaluate source = .ok (v, p')) :
    ∃ q', q.evaluate source = .ok (v, q') ∧ B.pages p' q' ∧ B.later p p' := by
  have hboth := h.evaluate hp source
  rw [he] at hboth
  exact hboth

/-- A macro that goes on with a value keeps a bond if it does so for every value. -/
theorem after_evaluate (h : B.Mindful) (hj : B.Joins s q) (source : List Char)
    (cause : ExprError → MacroError) {f g : Value → Page → Scanner × Option MacroError}
    (hfg : ∀ v p' q', s.page.evaluate source = .ok (v, p') → B.pages p' q' →
      B.later s.page p' → B.Ends s (f v p') (g v q')) :
    B.Ends s
      (match s.page.evaluate source with
        | .error e => (s, some (cause e))
        | .ok (v, p) => f v p)
      (match q.evaluate source with
        | .error e => (s.withPage q, some (cause e))
        | .ok (v, p) => g v p) := by
  have he := h.evaluate hj.pages source
  cases hs : s.page.evaluate source with
  | error e =>
      rw [hs] at he
      rw [he]
      exact ⟨rfl, hj.refl⟩
  | ok r =>
      obtain ⟨v, p'⟩ := r
      rw [hs] at he
      obtain ⟨q', hq', hp', hl⟩ := he
      rw [hq']
      exact hfg v p' q' hs hp' hl

/-! ### Blocks -/

theorem closing_kept : B.KeptByMacro Macro.closing := fun _ _ _ _ _ _ hj => ⟨rfl, hj.refl⟩

theorem conditional_kept (h : B.Mindful) : B.KeptByMacro Macro.conditional := by
  intro c d call s q hc hj
  simp only [Macro.conditional, Scanner.cursor_withPage]
  cases Block.find? Block.conditional s.cursor.rest with
  | none => exact ⟨rfl, hj.refl⟩
  | some block =>
      have hj₀ : B.Joins (s.forward block.length) q := hj.move rfl rfl
      refine (h.after_evaluate hj₀ call.arguments .badCondition fun v p' q' _ hp' hl => ?_).after
        (B.later_refl _)
      exact (hc.renderHere _ (hj₀.turn hp' hl)).after hl

theorem silently_kept : B.KeptByMacro Macro.silently := by
  intro c d call s q hc hj
  simp only [Macro.silently, Scanner.cursor_withPage]
  cases Block.find? Block.silent s.cursor.rest with
  | none => exact ⟨rfl, hj.refl⟩
  | some block =>
      have hj₀ : B.Joins (s.forward block.length) q := hj.move rfl rfl
      have hr := hc.render block.body [] s.page q hj.pages shows_nil
      have hp₀ : ((s.withPage q).forward block.length).page = q := rfl
      have hp₁ : (s.forward block.length).page = s.page := rfl
      simp only [hp₀, hp₁]
      generalize c.render block.body [] s.page = r at hr ⊢
      generalize d.render block.body [] q = r' at hr ⊢
      match r, r', hr with
      | .error e, .error e', hr =>
          cases hr
          exact ⟨rfl, q, rfl, hj₀, B.later_refl _⟩
      | .ok (_, p'), .ok (_, q'), ⟨_, hp', _, hl⟩ => exact ⟨rfl, q', rfl, hj₀.turn hp' hl, hl⟩

/-! ### Evaluation -/

theorem set_kept (h : B.Mindful) : B.KeptByMacro Macro.set := by
  intro c d call s q _ hj
  refine h.after_evaluate hj call.arguments .badExpression fun v p' q' _ hp' hl => ?_
  exact ⟨rfl, q', rfl, hj.turn hp' hl, hl⟩

theorem print_kept (h : B.Mindful) : B.KeptByMacro Macro.print := by
  intro c d call s q hc hj
  refine h.after_evaluate hj call.arguments .badExpression fun v p' q' _ hp' hl => ?_
  have hj' := hj.turn hp' hl
  by_cases hv : v = .undefined ∨ v = .str ""
  · simp only [if_pos hv]
    exact ⟨rfl, q', rfl, hj', hl⟩
  · simp only [if_neg hv]
    exact (hc.renderHere _ hj').after hl

/-- `remember` keeps a bond of pages whose values kept do not matter, or matter in the same way, if
its calls that go well lead to later pages. -/
theorem remember_kept (h : B.Mindful) (hkey : ∀ {σ τ}, B.settings σ τ → τ.keyStart = σ.keyStart)
    (hkeep : ∀ {p q σ τ} (key value : String), B.settings σ τ → B.pages p q →
      B.pages { p with jar := p.jar.keep key value (σ.now + σ.config.rememberFor.seconds) }
        { q with jar := q.jar.keep key value (τ.now + τ.config.rememberFor.seconds) })
    (hlater : ∀ {c d : Context} {call : MacroCall} {s t : Scanner} {q : Page},
      B.settings c.setting d.setting → B.pages s.page q →
        Macro.remember.run c call s = (t, none) → B.later s.page t.page) :
    B.KeptByMacro Macro.remember := by
  intro c d call s q hc hj
  refine h.after_evaluate hj call.arguments .badExpression fun v p' q' he hp' hl => ?_
  have hj' := hj.turn hp' hl
  cases hfirst : Expr.firstVariable? call.arguments with
  | none => exact ⟨rfl, q', rfl, hj', hl⟩
  | some name =>
      have hvalue : q'.vars.get (String.ofList name) = p'.vars.get (String.ofList name) := by
        rw [h.vars_eq hp']
      simp only [hvalue]
      cases hliteral : (p'.vars.get (String.ofList name)).literal? with
      | none => exact ⟨rfl, q', rfl, hj', hl⟩
      | some literal =>
          -- only the time up to which the value is kept may differ
          have hp'' := hkeep (c.setting.keyStart ++ String.ofList name) literal hc.settings hp'
          have hl'' := hlater hc.settings hj.pages (Macro.run_remember he hfirst hliteral)
          simp only [hkey hc.settings]
          exact ⟨rfl, _, rfl, hj.turn hp'' hl'', hl''⟩

/-! ### Links -/

theorem back_kept (h : B.Mindful) : B.KeptByMacro Macro.back := by
  intro c d call s q _ hj
  simp only [Macro.back, Scanner.page_withPage, h.history_eq hj.pages]
  cases htarget : Macro.backTarget s.page.history.earlier call.params with
  | error e => exact ⟨rfl, hj.refl⟩
  | ok token =>
      have hlink := h.back s.page call.params token htarget
      have hlabel : B.Shows s.page
          [.element { tag := .strong } [.text "\u00ab"], .text " Back"] :=
        shows_cons.2 ⟨showsNode_plain rfl (by simp), by simp⟩
      exact ⟨rfl, q, rfl, hj.emit (showsNode_link hlink hlabel), B.later_refl _⟩

theorem actions_kept (h : B.Mindful) : B.KeptByMacro Macro.actions := by
  intro c d call s q _ hj
  generalize htitles : call.params.filter (fun title => !s.page.vars.isClicked title) = titles
  have htitles' : call.params.filter (fun title => !q.vars.isClicked title) = titles := by
    rw [h.vars_eq hj.pages]
    exact htitles
  have hopen : ∀ title ∈ titles, s.page.vars.isClicked title = false := by
    intro title hin
    rw [← htitles, List.mem_filter] at hin
    simpa using hin.2
  obtain ⟨hp', hl, hlink⟩ := h.offer titles hj.pages hopen
  have hitems : B.ShowsNode (s.page.offer titles)
      (.element { tag := .unorderedList } (titles.map (Macro.actionItem s.page.store))) := by
    refine showsNode_plain rfl fun node hnode => ?_
    obtain ⟨title, hin, rfl⟩ := List.mem_map.1 hnode
    refine showsNode_plain rfl (shows_cons.2 ⟨?_, shows_nil⟩)
    exact showsNode_link (hlink title hin) (by simp)
  have hstore : titles.map (Macro.actionItem q.store) =
      titles.map (Macro.actionItem s.page.store) := by
    rw [B.store_eq hj.pages]
  simp only [Macro.actions, Scanner.page_withPage, htitles, htitles', hstore]
  exact ⟨rfl, _, rfl, (hj.turn hp' hl).emit hitems, hl⟩

theorem choice_kept : B.KeptByMacro Macro.choice := by
  intro c d call s q _ hj
  simp only [Macro.choice, Scanner.page_withPage, ← B.store_eq hj.pages]
  cases call.params with
  | nil => exact ⟨rfl, hj.refl⟩
  | cons title titles =>
      have hnode : B.ShowsNode s.page (.element (s.page.store.linkTo title) [.text title]) :=
        showsNode_link (B.link_passage s.page title) (by simp)
      exact ⟨rfl, q, rfl, hj.emit hnode, B.later_refl _⟩

/-! ### Other passages -/

theorem display_kept : B.KeptByMacro Macro.display := by
  intro c d call s q hc hj
  simp only [Macro.display, Scanner.page_withPage, ← B.store_eq hj.pages]
  cases call.params with
  | nil => exact ⟨rfl, hj.refl⟩
  | cons title titles => exact hc.renderHere _ hj

/-! ### The table -/

/-- A mindful bond is kept by every standard macro if `remember` keeps it. -/
theorem standard_kept (h : B.Mindful) (hr : B.KeptByMacro Macro.remember) :
    B.KeptByMacros Macros.standard := by
  intro name m hget
  have hin := Dict.mem_of_get?_ofList hget
  simp only [List.mem_cons, Prod.mk.injEq, List.not_mem_nil, or_false] at hin
  rcases hin with ⟨-, rfl⟩ | ⟨-, rfl⟩ | ⟨-, rfl⟩ | ⟨-, rfl⟩ | ⟨-, rfl⟩ | ⟨-, rfl⟩ | ⟨-, rfl⟩ |
    ⟨-, rfl⟩ | ⟨-, rfl⟩ | ⟨-, rfl⟩ | ⟨-, rfl⟩ | ⟨-, rfl⟩
  · exact h.conditional_kept
  · exact closing_kept
  · exact closing_kept
  · exact h.set_kept
  · exact h.print_kept
  · exact hr
  · exact h.back_kept
  · exact h.actions_kept
  · exact display_kept
  · exact silently_kept
  · exact closing_kept
  · exact choice_kept

end Mindful

namespace Lawful

theorem remember_kept (h : B.Lawful) : B.KeptByMacro Macro.remember := by
  refine h.toMindful.remember_kept h.keyStart_eq (fun key value hs hp => (h.keep key value hs hp).1)
    fun {c d call s t q} hs hp hrun => ?_
  obtain ⟨v, page, name, literal, heval, -, -, rfl⟩ := Macro.remember_run hrun
  obtain ⟨q', -, hp', hl⟩ := h.toMindful.evaluate_ok hp heval
  exact B.later_trans hl (h.keep _ literal hs hp').2

/-- **A lawful bond is kept by every standard macro.** -/
theorem standard_kept (h : B.Lawful) : B.KeptByMacros Macros.standard :=
  h.toMindful.standard_kept h.remember_kept

end Lawful

end Bond

end Gamebook
