/-
**Expressions in macro calls.**

A call of `set` evaluates its argument.  But where the argument ends is settled before it is read as
an expression: at the first closing bracket, wherever that stands.  A single one does not close a
call, and there is then no call at all.  So an expression that compares with `>`, and one with a
closing bracket in a text, is not evaluated but shown.

Main definitions:

* `Program.Enclosed` — a text that seems to stand safely between the brackets of a call;
* `Macro.setName` — the name of the macro `set`.

Main results:

* `Construct.call?_broken` — a call with a closing bracket in its argument is none;
* `Kit.render_set` — a text that is one call of `set` turns the page, and no more;
* `Kit.render_broken` — a call that is none is shown;
* `Story.render_assignment` — **which expressions work in a call of `set`**.
-/

import Gamebook.Proofs.Expr.Source
import Gamebook.Proofs.Render.Growth
import Gamebook.Proofs.Render.Outline

set_option relaxedAutoImplicit false
set_option autoImplicit false

namespace Gamebook

/-! ### What stands between the brackets -/

/-- A text seems to stand safely between the brackets of a call: it neither starts nor ends with a
blank or a closing bracket, and no two closing brackets follow each other in it. -/
structure Program.Enclosed (text : List Char) : Prop where
  tight : Tight text
  head : text.head? ≠ some '>'
  last : text.getLast? ≠ some '>'
  single : ¬ ['>', '>'] <:+: text

/-- Behind the first closing bracket of such a text stands a character that is none. -/
theorem Program.Enclosed.exists_bracket {text : List Char} (h : Enclosed text) (hin : '>' ∈ text) :
    ∃ before c after, text = before ++ '>' :: c :: after ∧ '>' ∉ before ∧ c ≠ '>' := by
  obtain ⟨before, after, htext, hbefore⟩ := List.eq_append_cons_of_mem hin
  cases after with
  | nil =>
      refine absurd ?_ h.last
      rw [htext, List.getLast?_concat]
  | cons c after =>
      refine ⟨before, c, after, htext, hbefore, ?_⟩
      rintro rfl
      refine h.single ⟨before, after, ?_⟩
      rw [htext, List.append_assoc]
      rfl

/-- The name of the macro `set`. -/
def Macro.setName : List Char := ['s', 'e', 't']

/-- **A closing bracket in the argument of a call breaks it**: the call ends there, and another
bracket does not follow. -/
theorem Construct.call?_broken {name written : List Char} (hne : name ≠ [])
    (hname : name.all isCallNameChar = true) (ha : Program.Enclosed written)
    (hin : '>' ∈ written) : call? (Program.call name written) = none := by
  obtain ⟨before, c, after, rfl, hbefore, hc⟩ := ha.exists_bracket hin
  have htext : Program.call name (before ++ '>' :: c :: after) =
      '<' :: '<' :: (name ++ ([' '] ++ (before ++ '>' :: (c :: after ++ ['>', '>'])))) := by
    simp [Program.call]
  have hblanks : ∀ c ∈ [' '], Text.isBlank c = true := List.forall_mem_singleton.2 (by decide)
  have hplain : ∀ c ∈ before, (c != '>') = true :=
    fun c hin => bne_iff_ne.2 (ne_of_mem_of_not_mem hin hbefore)
  have htight : (before ++ '>' :: (c :: after ++ ['>', '>'])).takeWhile Text.isBlank = [] := by
    cases before with
    | nil => exact List.takeWhile_cons_of_neg (by decide)
    | cons d before => exact List.takeWhile_cons_of_neg (by simp [ha.tight.head d rfl])
  have hedge : ([' '] ++ (before ++ '>' :: (c :: after ++ ['>', '>']))).takeWhile
      isCallNameChar = [] := List.takeWhile_cons_of_neg (by decide)
  rw [htext, call?_of_parts hne hname hblanks hplain hedge htight, if_neg]
  simpa using hc

/-- Nothing is lost of an argument that does not start with a blank. -/
theorem Program.Tight.argument_eq {written : List Char} (h : Tight written) :
    argument written = written := by
  cases written with
  | nil => rfl
  | cons c written => exact List.dropWhile_cons_of_neg (by simp [h.head c rfl])

/-! ### Renders -/

namespace Kit

variable {kit : Kit} {left : Nat} {page : Page} {written : List Char}

/-- **A text that is one call of `set`** turns the page as its argument does, and shows nothing. -/
theorem render_set (hformatters : kit.formatters = .standard) (hmacros : kit.macros = .standard)
    (hdepth : kit.setting.config.maxDepth = left + 1) (ha : '>' ∉ written) {v : Value}
    {vars : Variables}
    (heval : Expr.evaluateChars (Program.argument written) page.vars = .ok (v, vars)) :
    kit.render (Program.call Macro.setName written) page = ([], page.withVariables vars) := by
  have hget : kit.macros.get? (String.ofList Macro.setName) = some Macro.set := by
    rw [hmacros]
    rfl
  have hrun : ∀ call : MacroCall, call.arguments = Program.argument written →
      ∀ s : Scanner, s.page = page.enter → Macro.set.run (kit.context left) call s =
        ({ s with page := page.enter.withVariables vars }, none) := by
    intro call harguments s hs
    have hturn : s.page.evaluate call.arguments = .ok (v, page.enter.withVariables vars) := by
      have heval' : Expr.evaluateChars (Program.argument written) page.enter.vars = .ok (v, vars) :=
        heval
      rw [hs, harguments, Page.evaluate, heval']
    simp only [Macro.set, hturn]
  exact render_macro hformatters hdepth (by decide) (by decide) ha hget hrun

/-- **A call that is none is shown**, whatever stands in it: its opening brackets are what is shown
first. -/
theorem render_broken (hformatters : kit.formatters = .standard) (hmacros : kit.macros = .standard)
    (hdepth : kit.setting.config.maxDepth = left + 1) {first : Char} {others : List Char}
    (hfirst : first ≠ '<') (hname : (first :: others).all Construct.isCallNameChar = true)
    (ha : Program.Enclosed written) (hin : '>' ∈ written) (page : Page) :
    ∃ behind nodes, (kit.render (Program.call (first :: others) written) page).1 =
      .text (String.ofList ('<' :: '<' :: behind)) :: nodes := by
  have hbroken := Construct.call?_broken (List.cons_ne_nil first others) hname ha hin
  have hgrows : ∀ f ∈ kit.formatters, f.Grows := hformatters ▸ Formatters.standard_grows
  have hmacros' : kit.macros.Grow := hmacros ▸ Macros.standard_grows
  have hhit := hformatters ▸ Formatters.hit?_call hfirst (others ++ ' ' :: (written ++ ['>', '>']))
    none
  refine render_declined hgrows hmacros' hdepth hhit ?_
  exact congrArg (Option.map _) hbroken

end Kit

namespace Story

/-- A call of `set` with a closing bracket in its argument is shown. -/
theorem render_broken_set (s : Story) (hformatters : s.formatters = .standard)
    (hmacros : s.macros = .standard) (hdepth : 0 < s.config.maxDepth) {written : List Char}
    (ha : Program.Enclosed written) (hin : '>' ∈ written) :
    ∃ behind nodes, (s.render (String.ofList (Program.call Macro.setName written))).1 =
      .text (String.ofList ('<' :: '<' :: behind)) :: nodes := by
  obtain ⟨left, hleft⟩ := Nat.exists_eq_add_of_le' hdepth
  rw [render, String.toList_ofList]
  exact Kit.render_broken hformatters hmacros hleft (by decide) (by decide) ha hin s.page

/-- **Which expressions work in a call of `set`.**  A text that is one call of `set` with an
expression shows nothing and leaves the variables as the expression does, if the expression holds no
closing bracket.  If it does hold one, as one that compares with `>` does, the call is none, and its
text is shown. -/
theorem render_assignment (s : Story) (hformatters : s.formatters = .standard)
    (hmacros : s.macros = .standard) {written : List Char} {e : Expr}
    (he : Expr.parseChars written = .ok e) (ha : Program.Enclosed written) :
    ∃ v vars, Expr.evaluate (String.ofList written) s.history.vars = .ok (v, vars) ∧
      (s.render (String.ofList (Program.call Macro.setName written)) =
          ([], [], { s with history := s.history.withVariables vars }) ↔
        0 < s.config.maxDepth ∧ '>' ∉ written) ∧
      (0 < s.config.maxDepth → '>' ∈ written → ∃ behind nodes,
        (s.render (String.ofList (Program.call Macro.setName written))).1 =
          .text (String.ofList ('<' :: '<' :: behind)) :: nodes) := by
  have heval : Expr.evaluateChars written s.history.vars = .ok (e.eval s.history.vars) := by
    rw [Expr.evaluateChars, he]
  have hshown : 0 < s.config.maxDepth → '>' ∈ written → ∃ behind nodes,
      (s.render (String.ofList (Program.call Macro.setName written))).1 =
        .text (String.ofList ('<' :: '<' :: behind)) :: nodes :=
    fun hdepth hin => render_broken_set s hformatters hmacros hdepth ha hin
  refine ⟨(e.eval s.history.vars).1, (e.eval s.history.vars).2, ?_, ⟨fun hrender => ?_, ?_⟩, hshown⟩
  · rw [Expr.evaluate, String.toList_ofList, heval]
  · have hnone := congrArg Prod.fst hrender
    have hdepth : 0 < s.config.maxDepth := by
      refine Nat.pos_of_ne_zero fun hzero => ?_
      have hkit : s.kit.setting.config.maxDepth = 0 := hzero
      rw [render, Kit.render, hkit] at hnone
      exact List.cons_ne_nil _ _ hnone
    refine ⟨hdepth, fun hin => ?_⟩
    obtain ⟨behind, nodes, hnodes⟩ := hshown hdepth hin
    exact List.cons_ne_nil _ _ (hnodes.symm.trans hnone)
  · rintro ⟨hdepth, hin⟩
    obtain ⟨left, hleft⟩ := Nat.exists_eq_add_of_le' hdepth
    have hdepth' : s.kit.setting.config.maxDepth = left + 1 := hleft
    have hargument : Expr.evaluateChars (Program.argument written) s.page.vars =
        .ok (e.eval s.history.vars) := by
      rw [ha.tight.argument_eq]
      exact heval
    have hrender := Kit.render_set hformatters hmacros hdepth' hin hargument
    rw [render, String.toList_ofList, hrender]
    rfl

/-- An assignment of a comparison of two texts. -/
def compared (r : Value.Relation) : Expr :=
  .assign "a" none (.binary (.relation r) (.lit (.str "b")) (.lit (.str "a")))

theorem parseChars_compared (r : Value.Relation) :
    Expr.parseChars (Token.spaced (compared r).tokens) = .ok (compared r) :=
  Expr.parseChars_spaced ⟨⟨by decide, by decide⟩, trivial, trivial, trivial⟩
    ⟨List.mem_cons_self, trivial, trivial, trivial⟩

theorem enclosed_compared (r : Value.Relation) :
    Program.Enclosed (Token.spaced (compared r).tokens) := by
  refine ⟨⟨?_, ?_⟩, ?_, ?_, ?_⟩
  · rintro c ⟨⟩
    decide
  · intro c hc
    cases r <;> cases hc <;> decide
  · cases r <;> decide
  · cases r <;> decide
  · cases r <;> decide

/-- An assignment that compares with `<=` works in a call. -/
theorem render_assignment_at_most :
    shed.formatters = .standard ∧ shed.macros = .standard ∧
      Token.spaced (compared .lessEq).tokens = "$a = \"b\" <= \"a\"".toList ∧
      Expr.parseChars (Token.spaced (compared .lessEq).tokens) = .ok (compared .lessEq) ∧
      Program.Enclosed (Token.spaced (compared .lessEq).tokens) ∧
      ∃ v vars, Expr.evaluate (String.ofList (Token.spaced (compared .lessEq).tokens))
          shed.history.vars = .ok (v, vars) ∧
        shed.render (String.ofList (Program.call Macro.setName
          (Token.spaced (compared .lessEq).tokens))) =
            ([], [], { shed with history := shed.history.withVariables vars }) := by
  have hparse := parseChars_compared .lessEq
  have henclosed := enclosed_compared .lessEq
  obtain ⟨v, vars, heval, hrender, -⟩ := render_assignment shed rfl rfl hparse henclosed
  exact ⟨rfl, rfl, by decide, hparse, henclosed, v, vars, heval, hrender.2 (by decide)⟩

/-- One that compares with `>` does not: its value would be that `"b"` comes after `"a"`, but the
brackets of its call are shown, and what is behind them. -/
theorem comparison_shown :
    shed.formatters = .standard ∧ shed.macros = .standard ∧
      Token.spaced (compared .greater).tokens = "$a = \"b\" > \"a\"".toList ∧
      Expr.parseChars "$a = \"b\" > \"a\"".toList = .ok (compared .greater) ∧
      Program.Enclosed "$a = \"b\" > \"a\"".toList ∧
      Expr.evaluate "$a = \"b\" > \"a\"" shed.history.vars =
        .ok (.bool true, shed.history.vars.set "a" (.bool true)) ∧
      (∃ behind nodes, (shed.render "<<set $a = \"b\" > \"a\">>").1 =
        .text (String.ofList ('<' :: '<' :: behind)) :: nodes) ∧
      shed.render "<<set $a = \"b\" > \"a\">>" ≠ ([], [], { shed with
        history := shed.history.withVariables (shed.history.vars.set "a" (.bool true)) }) := by
  have hsource : Token.spaced (compared .greater).tokens = "$a = \"b\" > \"a\"".toList := by
    decide
  have hparse := parseChars_compared .greater
  have henclosed := enclosed_compared .greater
  rw [hsource] at hparse henclosed
  have heval : Expr.evaluate "$a = \"b\" > \"a\"" shed.history.vars =
      .ok (.bool true, shed.history.vars.set "a" (.bool true)) := by
    rw [Expr.evaluate, Expr.evaluateChars, hparse]
    rfl
  have hcall : String.ofList (Program.call Macro.setName "$a = \"b\" > \"a\"".toList) =
      "<<set $a = \"b\" > \"a\">>" := by decide
  have hshown := render_broken_set shed rfl rfl (by decide) henclosed (by decide)
  rw [hcall] at hshown
  refine ⟨rfl, rfl, hsource, hparse, henclosed, heval, hshown, fun hrender => ?_⟩
  obtain ⟨behind, nodes, hnodes⟩ := hshown
  rw [hrender] at hnodes
  exact List.cons_ne_nil _ _ hnodes.symm

end Story

end Gamebook
