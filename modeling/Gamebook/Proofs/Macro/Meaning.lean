/-
**Block macros mean their program.**

A written program is rendered by scanning its text: a block is cut out of it, trimmed and rendered
by a scanner of its own, one level further in.  What comes out is what the program means, item by
item, whatever blanks stand in its calls, as long as the search for the ends of its blocks finds
them: the induction is on the program, and at every item the rest of the text is that of the rest of
the program.

Main definitions:

* `Scanner.Yields` — from one scanner to another a program was run;
* `Context.Shows`, `Context.Means` — a context renders a text as what a program means.

Main results:

* `Macro.set_yields`, `Macro.conditional_yields`, `Macro.silently_yields` — what the calls do;
* `Kit.run_spaced` — **scanning a written program runs it**, as long as there are levels for it;
* `Story.render_program` — **rendering a written program shows its output and leaves its
  variables**.
-/

import Gamebook.Proofs.Macro.Calls
import Gamebook.Proofs.Macro.Spaced
import Gamebook.Story.Basic

set_option relaxedAutoImplicit false
set_option autoImplicit false

namespace Gamebook

open Program (Outcome isLetter)

/-! ### What is yielded -/

/-- From one scanner to another a program was run: its output is shown behind the nodes, and the
page has the variables that it leaves. -/
structure Scanner.Yields (s t : Scanner) (o : Outcome) : Prop where
  nodes : t.nodes = Output.showAfter s.nodes o.1
  page : t.page = s.page.withVariables o.2

/-- A context renders a text as what a program means. -/
def Context.Shows (ctx : Context) (text : List Char) (o : Variables → Outcome) : Prop :=
  ∀ nodes page, ctx.render text nodes page =
    .ok (Output.showAfter nodes (o page.vars).1, page.withVariables (o page.vars).2)

/-- A context renders a written program as what it means. -/
def Context.Means (ctx : Context) (p : Program) : Prop :=
  ∀ nodes page, ctx.render p.source nodes page =
    .ok (Output.showAfter nodes (p.run page.vars).1, page.withVariables (p.run page.vars).2)

namespace Scanner.Yields

variable {s t u : Scanner} {o : Outcome} {next : Variables → Outcome}

theorem vars (h : s.Yields t o) : t.page.vars = o.2 := by
  rw [h.page]
  rfl

/-- One behind the other. -/
theorem andThen (h : s.Yields t o) (h' : t.Yields u (next t.page.vars)) :
    s.Yields u (o.andThen next) := by
  obtain ⟨hnodes, hpage⟩ := h'
  rw [h.vars] at hnodes hpage
  rw [h.nodes, ← Output.showAfter_append] at hnodes
  rw [h.page] at hpage
  exact ⟨hnodes, hpage⟩

end Scanner.Yields

/-! ### The calls -/

namespace Macro

variable (ctx : Context) (s : Scanner) (params : List String)

/-- A call of one of the standard macros. -/
def callOf (name written : List Char) (params : List String) : MacroCall :=
  { name := String.ofList name, arguments := Program.argument written, params := params }

/-- **An assignment is run in place.** -/
theorem set_yields (statement : List Char) :
    s.Yields (Macros.standard.call ctx (callOf ['s', 'e', 't'] statement params) s)
        (Program.assign statement s.page.vars) ∧
      (Macros.standard.call ctx (callOf ['s', 'e', 't'] statement params) s).cursor = s.cursor := by
  have hget : Macros.standard.get? (String.ofList ['s', 'e', 't']) = some set := rfl
  simp only [Macros.call, callOf, hget, set, Page.evaluate, Program.assign]
  cases Expr.evaluateChars (Program.argument statement) s.page.vars with
  | error e => exact ⟨⟨rfl, rfl⟩, rfl⟩
  | ok result => exact ⟨⟨rfl, rfl⟩, rfl⟩

/-- **A condition is evaluated once, and one branch is run**; behind its block the cursor stands
whatever comes of it. -/
theorem conditional_yields (condition : List Char) {body alternate : Variables → Outcome}
    {block : Block} (hblock : Block.find? Block.conditional s.cursor.rest = some block)
    (hb : ctx.Shows (Text.trim block.body) body)
    (ha : ctx.Shows (Text.trim (block.alternate.getD [])) alternate) :
    s.Yields (Macros.standard.call ctx (callOf ['i', 'f'] condition params) s)
        (Program.branch condition body alternate s.page.vars) ∧
      (Macros.standard.call ctx (callOf ['i', 'f'] condition params) s).cursor =
        s.cursor.forward block.length := by
  have hget : Macros.standard.get? (String.ofList ['i', 'f']) = some conditional := rfl
  have hpage : (s.forward block.length).page = s.page := rfl
  have hnodes : (s.forward block.length).nodes = s.nodes := rfl
  simp only [Macros.call, callOf, hget, conditional, hblock, Page.evaluate, hpage, Program.branch]
  cases Expr.evaluateChars (Program.argument condition) s.page.vars with
  | error e => exact ⟨⟨rfl, rfl⟩, rfl⟩
  | ok result =>
      obtain ⟨v, vars⟩ := result
      by_cases hv : v.isTruthy = true
      · simp only [hv, if_true, Context.renderHere, hb _ _, hnodes]
        exact ⟨⟨rfl, rfl⟩, rfl⟩
      · simp only [hv, Bool.false_eq_true, if_false, Context.renderHere, ha _ _, hnodes]
        exact ⟨⟨rfl, rfl⟩, rfl⟩

/-- A condition that is not closed is an error, and what stands behind its call is read on. -/
theorem conditional_unclosed (condition : List Char)
    (hblock : Block.find? Block.conditional s.cursor.rest = none) :
    s.Yields (Macros.standard.call ctx (callOf ['i', 'f'] condition params) s)
        ([.error (.missingEnd "endif")], s.page.vars) ∧
      (Macros.standard.call ctx (callOf ['i', 'f'] condition params) s).cursor = s.cursor := by
  have hget : Macros.standard.get? (String.ofList ['i', 'f']) = some conditional := rfl
  simp only [Macros.call, callOf, hget, conditional, hblock]
  exact ⟨⟨rfl, rfl⟩, rfl⟩

/-- What closes a condition does nothing by itself. -/
theorem endif_yields (written : List Char) :
    s.Yields (Macros.standard.call ctx (callOf ['e', 'n', 'd', 'i', 'f'] written params) s)
        ([], s.page.vars) ∧
      (Macros.standard.call ctx (callOf ['e', 'n', 'd', 'i', 'f'] written params) s).cursor =
        s.cursor := ⟨⟨rfl, rfl⟩, rfl⟩

/-- **What is silent is run, and its output is discarded.** -/
theorem silently_yields {body : Variables → Outcome} {block : Block}
    (hblock : Block.find? Block.silent s.cursor.rest = some block)
    (hb : ctx.Shows block.body body) :
    s.Yields (Macros.standard.call ctx
        (callOf ['s', 'i', 'l', 'e', 'n', 't', 'l', 'y'] [] params) s)
        ([], (body s.page.vars).2) ∧
      (Macros.standard.call ctx
        (callOf ['s', 'i', 'l', 'e', 'n', 't', 'l', 'y'] [] params) s).cursor =
        s.cursor.forward block.length := by
  have hget : Macros.standard.get? (String.ofList ['s', 'i', 'l', 'e', 'n', 't', 'l', 'y']) =
      some silently := rfl
  have hpage : (s.forward block.length).page = s.page := rfl
  simp only [Macros.call, callOf, hget, silently, hblock, hb _ _, hpage]
  exact ⟨⟨rfl, rfl⟩, rfl⟩

end Macro

/-! ### Scanning a program -/

namespace Kit

variable {kit : Kit} {ctx : Context} {s : Scanner}

/-- Words are said. -/
theorem run_word (hformatters : kit.formatters = .standard) (letters : List Char) {next : Spaced}
    (hp : (Spaced.word letters next).program.WellFormed)
    (hrest : s.cursor.rest = letters ++ next.source) :
    kit.run ctx none s = kit.run ctx none ((s.say letters).forward letters.length) := by
  have hcolon := Spaced.colon_notMem (q := .word letters next) hp
  refine run_plain hformatters (fun c hc => ?_) (fun p hp => absurd hp (by simp)) hcolon hrest
  exact Standard.notMem_signs_of_isLetter (List.all_eq_true.1 hp.1 c hc)

/-- A text is a call: it stands between angle brackets and is read as a name and what was written
behind it. -/
structure IsCall (text name written : List Char) : Prop where
  shape : ∃ first tail, text = '<' :: '<' :: first :: tail ∧ first ≠ '<'
  reads : ∀ rest, Construct.call? (text ++ rest) =
    some (⟨name, Program.argument written⟩, text.length)

theorem isCall_call (blanks : Blanks) {first : Char} {others written : List Char}
    (hfirst : first ≠ '<') (hname : (first :: others).all Construct.isCallNameChar = true)
    (hgap : blanks.text = [] → written = []) (ha : Program.IsArgument written) :
    IsCall (blanks.call (first :: others) written) (first :: others) written :=
  ⟨⟨first, _, rfl, hfirst⟩,
    Construct.call?_spaced (List.cons_ne_nil _ _) hname (List.all_eq_true.1 blanks.isBlank) hgap
      ha.2⟩

/-- A call with an argument. -/
theorem isCall_gap (gap : Gap) {first : Char} {others written : List Char} (hfirst : first ≠ '<')
    (hname : (first :: others).all Construct.isCallNameChar = true)
    (ha : Program.IsArgument written) :
    IsCall (gap.call (first :: others) written) (first :: others) written :=
  isCall_call gap.toBlanks hfirst hname (fun h => absurd h gap.ne_nil) ha

/-- An item is run where its call stands, and then the rest of the program, which is `next`. -/
theorem run_item (hformatters : kit.formatters = .standard) (hmacros : kit.macros = .standard)
    {text name written behind : List Char} (hcall : IsCall text name written)
    (hrest : s.cursor.rest = text ++ behind) {rest : List Char} {o next : Variables → Outcome}
    (hitem : ∀ (t : Scanner) (params : List String), t.cursor.rest = behind →
      t.Yields (Macros.standard.call ctx (Macro.callOf name written params) t) (o t.page.vars) ∧
        (Macros.standard.call ctx (Macro.callOf name written params) t).cursor.rest = rest)
    (hle : rest.length ≤ behind.length)
    (hnext : ∀ t : Scanner, t.cursor.rest = rest →
      t.Yields (kit.run ctx none t) (next t.page.vars)) :
    s.Yields (kit.run ctx none s) ((o s.page.vars).andThen next) := by
  obtain ⟨⟨first, tail, htext, hfirst⟩, hreads⟩ := hcall
  have hread := hreads behind
  rw [← hrest] at hread
  obtain ⟨hyields, hbehind⟩ := hitem (s.behindCall text.length)
    ((Params.read (Program.argument written)).map String.ofList) (s.rest_behindCall hrest)
  have hcalled : kit.called ctx ⟨name, Program.argument written⟩ text.length s =
      Macros.standard.call ctx (Macro.callOf name written
        ((Params.read (Program.argument written)).map String.ofList))
        (s.behindCall text.length) := by
    rw [called, hmacros]
    rfl
  rw [← hcalled] at hyields hbehind
  have hyields' : s.Yields (kit.called ctx ⟨name, Program.argument written⟩ text.length s)
      (o s.page.vars) := ⟨hyields.nodes, hyields.page⟩
  have hlt :
      (kit.called ctx ⟨name, Program.argument written⟩ text.length s).cursor.rest.length <
        s.cursor.rest.length := by
    have hlength := congrArg List.length hrest
    rw [htext] at hlength
    simp only [List.length_append, List.length_cons] at hlength
    rw [hbehind]
    omega
  have hstart : s.cursor.rest = '<' :: '<' :: first :: (tail ++ behind) := by
    rw [hrest, htext]
    rfl
  rw [run_call hformatters hfirst hstart hread hlt]
  exact hyields'.andThen (hnext _ hbehind)

/-- A block is run where its call stands, and then the rest of the program: `inside` is what lies
between the call and the rest. -/
theorem run_block (hformatters : kit.formatters = .standard) (hmacros : kit.macros = .standard)
    {text name written behind inside : List Char} (hcall : IsCall text name written)
    (hrest : s.cursor.rest = text ++ behind) {rest : List Char} {o next : Variables → Outcome}
    (hbehind : behind = inside ++ rest)
    (hitem : ∀ (t : Scanner) (params : List String), t.cursor.rest = behind →
      t.Yields (Macros.standard.call ctx (Macro.callOf name written params) t) (o t.page.vars) ∧
        (Macros.standard.call ctx (Macro.callOf name written params) t).cursor =
          t.cursor.forward inside.length)
    (hnext : ∀ t : Scanner, t.cursor.rest = rest →
      t.Yields (kit.run ctx none t) (next t.page.vars)) :
    s.Yields (kit.run ctx none s) ((o s.page.vars).andThen next) := by
  refine run_item hformatters hmacros hcall hrest (fun t params ht => ?_) ?_ hnext
  · obtain ⟨hyields, hcursor⟩ := hitem t params ht
    refine ⟨hyields, ?_⟩
    rw [hcursor, Cursor.rest_forward, ht, hbehind, List.drop_left]
  · rw [hbehind, List.length_append]
    omega

/-! ### One case for each kind of block -/

section Blocks

variable {gap : Gap} {condition : List Char} {blanks divide close : Blanks}
  {body alternate next : Spaced}

theorem run_guarded (hformatters : kit.formatters = .standard) (hmacros : kit.macros = .standard)
    (hcondition : Program.IsArgument condition) (hbody : body.program.WellFormed)
    (husual : body.UsualConditions true) (hclose : close.text = [])
    (hb : ctx.Shows body.source body.program.run) (ha : ctx.Shows [] Program.done.run)
    (hrest : s.cursor.rest = (Spaced.guarded gap condition body close next).source)
    (hnext : ∀ t : Scanner, t.cursor.rest = next.source →
      t.Yields (kit.run ctx none t) (next.program.run t.page.vars)) :
    s.Yields (kit.run ctx none s)
      ((Spaced.guarded gap condition body close next).program.run s.page.vars) := by
  have hblock := Block.find?_closed Block.conditional_distinct
    (Spaced.passed_conditional hbody husual) next.source
  have hmark := Spaced.call_eq hclose ['e', 'n', 'd', 'i', 'f']
  rw [Spaced.source, hmark] at hrest
  refine run_block hformatters hmacros (isCall_gap gap (by decide) (by decide) hcondition) hrest
    (o := Program.branch condition body.program.run Program.done.run)
    (List.append_assoc ..).symm (fun t params ht => ?_) hnext
  rw [← Spaced.trim_source hbody] at hb
  have hrun := Macro.conditional_yields ctx t params condition ((congrArg _ ht).trans hblock) hb ha
  rwa [← List.length_append] at hrun

theorem run_choose (hformatters : kit.formatters = .standard) (hmacros : kit.macros = .standard)
    (hcondition : Program.IsArgument condition) (hbody : body.program.WellFormed)
    (halternate : alternate.program.WellFormed) (husual : body.UsualConditions true)
    (husual' : alternate.UsualConditions true) (hdivide : divide.text = [])
    (hclose : close.text = []) (hb : ctx.Shows body.source body.program.run)
    (ha : ctx.Shows alternate.source alternate.program.run)
    (hrest : s.cursor.rest =
      (Spaced.choose gap condition body divide alternate close next).source)
    (hnext : ∀ t : Scanner, t.cursor.rest = next.source →
      t.Yields (kit.run ctx none t) (next.program.run t.page.vars)) :
    s.Yields (kit.run ctx none s)
      ((Spaced.choose gap condition body divide alternate close next).program.run
        s.page.vars) := by
  have hblock := Block.find?_divided Block.conditional_distinct rfl
    (Spaced.passed_conditional hbody husual) (Spaced.passed_conditional halternate husual')
    next.source
  have hmark := Spaced.call_eq hclose ['e', 'n', 'd', 'i', 'f']
  have hdivider := Spaced.call_eq hdivide ['e', 'l', 's', 'e']
  rw [Spaced.source, hmark, hdivider] at hrest
  have hinside : body.source ++ (Program.mark ['e', 'l', 's', 'e'] ++
        (alternate.source ++ (Program.mark ['e', 'n', 'd', 'i', 'f'] ++ next.source))) =
      (body.source ++ (Program.mark ['e', 'l', 's', 'e'] ++
        (alternate.source ++ Program.mark ['e', 'n', 'd', 'i', 'f']))) ++ next.source := by
    simp only [List.append_assoc]
  refine run_block hformatters hmacros (isCall_gap gap (by decide) (by decide) hcondition) hrest
    (o := Program.branch condition body.program.run alternate.program.run) hinside
    (fun t params ht => ?_) hnext
  rw [← Spaced.trim_source hbody] at hb
  rw [← Spaced.trim_source halternate] at ha
  have hrun := Macro.conditional_yields ctx t params condition ((congrArg _ ht).trans hblock) hb ha
  simp only [List.length_append]
  exact hrun

theorem run_silently (hformatters : kit.formatters = .standard) (hmacros : kit.macros = .standard)
    (hbody : body.program.WellFormed) (husual : body.UsualSilence true) (hclose : close.text = [])
    (hb : ctx.Shows body.source body.program.run)
    (hrest : s.cursor.rest = (Spaced.silently blanks body close next).source)
    (hnext : ∀ t : Scanner, t.cursor.rest = next.source →
      t.Yields (kit.run ctx none t) (next.program.run t.page.vars)) :
    s.Yields (kit.run ctx none s)
      ((Spaced.silently blanks body close next).program.run s.page.vars) := by
  have hblock := Block.find?_closed Block.silent_distinct (Spaced.passed_silent hbody husual)
    next.source
  have hmark :=
    Spaced.call_eq hclose ['e', 'n', 'd', 's', 'i', 'l', 'e', 'n', 't', 'l', 'y']
  rw [Spaced.source, hmark] at hrest
  refine run_block hformatters hmacros
    (isCall_call blanks (by decide) (by decide) (fun _ => rfl) (by decide)) hrest
    (o := fun vars => ([], (body.program.run vars).2)) (List.append_assoc ..).symm
    (fun t params ht => ?_) hnext
  have hrun := Macro.silently_yields ctx t params ((congrArg _ ht).trans hblock) hb
  rwa [← List.length_append] at hrun

end Blocks

/-! ### All of a program -/

/-- What scanning a text runs, rendering it one level further out runs too. -/
theorem shows_of_run {text : List Char} {o : Variables → Outcome} {left : Nat}
    (h : ∀ s : Scanner, s.cursor.rest = text →
      s.Yields (kit.run (kit.context left) none s) (o s.page.vars)) :
    (kit.context (left + 1)).Shows text o := by
  intro nodes page
  have hrun := h (Scanner.start text nodes page.enter) rfl
  have hrender : (kit.context (left + 1)).render text nodes page =
      .ok ((kit.run (kit.context left) none (Scanner.start text nodes page.enter)).nodes,
        (kit.run (kit.context left) none
          (Scanner.start text nodes page.enter)).page.leave) := rfl
  rw [hrender, hrun.nodes, hrun.page]
  rfl

theorem means_of_run {p : Program} {left : Nat}
    (h : ∀ s : Scanner, s.cursor.rest = p.source →
      s.Yields (kit.run (kit.context left) none s) (p.run s.page.vars)) :
    (kit.context (left + 1)).Means p := shows_of_run h

/-- Where nothing is written, nothing is run. -/
theorem run_done {left : Nat} (hrest : s.cursor.rest = []) :
    s.Yields (kit.run (kit.context left) none s) (Program.done.run s.page.vars) := by
  have hnext : kit.formatters.next? none s.cursor.previous s.cursor.rest = none := by
    rw [hrest]
    rfl
  rw [run_of_none hnext]
  refine ⟨?_, rfl⟩
  simp only [Scanner.finish, Scanner.toEnd, Scanner.say, hrest]
  rfl

/-- **Scanning a written program runs it**, as long as there are levels for its blocks. -/
theorem run_spaced (hformatters : kit.formatters = .standard) (hmacros : kit.macros = .standard)
    {q : Spaced} (hq : q.program.WellFormed) (hconditions : q.UsualConditions false)
    (hsilence : q.UsualSilence false) {left : Nat} (hdepth : q.program.depth ≤ left) (s : Scanner)
    (hrest : s.cursor.rest = q.source) :
    s.Yields (kit.run (kit.context left) none s) (q.program.run s.page.vars) := by
  -- at every item the scanner may stand anywhere, as long as the rest of its text is the program;
  -- inside a block it is another scanner, with one level less
  induction q generalizing left s with
  | done => exact run_done hrest
  | word letters next ih =>
      rw [run_word hformatters letters hq hrest]
      have hsaid : s.Yields ((s.say letters).forward letters.length)
          ([.text letters], s.page.vars) := ⟨rfl, rfl⟩
      have hrest' : ((s.say letters).forward letters.length).cursor.rest = next.source :=
        Scanner.rest_behind hrest letters
      exact hsaid.andThen (ih hq.2 hconditions hsilence hdepth _ hrest')
  | set statement next ih =>
      have hcall : IsCall (Gap.space.call ['s', 'e', 't'] statement) ['s', 'e', 't'] statement :=
        isCall_gap .space (by decide) (by decide) hq.1
      refine run_item hformatters hmacros hcall hrest (o := Program.assign statement)
        (fun t params ht => ?_) (Nat.le_refl _) (ih hq.2 hconditions hsilence hdepth)
      obtain ⟨hyields, hcursor⟩ :=
        Macro.set_yields (kit.context left) t params statement
      exact ⟨hyields, by rw [hcursor, ht]⟩
  | guarded gap condition body close next ihb ihn =>
      obtain ⟨hcondition, hbody, hnext⟩ := hq
      obtain ⟨-, hclose, husual, hconditions⟩ := hconditions
      obtain ⟨hdeep, hshallow⟩ := Nat.max_le.1 hdepth
      obtain ⟨left, rfl⟩ := Nat.exists_eq_add_of_le' (Nat.le_trans (Nat.le_add_left 1 _) hdeep)
      have hb : (kit.context (left + 1)).Shows body.source body.program.run :=
        shows_of_run fun s => ihb hbody husual.outside hsilence.1 (by omega) s
      have ha : (kit.context (left + 1)).Shows [] Program.done.run :=
        shows_of_run fun s => run_done
      exact run_guarded hformatters hmacros hcondition hbody husual hclose hb ha hrest
        (ihn hnext hconditions hsilence.2 hshallow)
  | choose gap condition body divide alternate close next ihb iha ihn =>
      obtain ⟨hcondition, hbody, halternate, hnext⟩ := hq
      obtain ⟨-, hdivide, hclose, husual, husual', hconditions⟩ := hconditions
      obtain ⟨hsilence, hsilence', hsilence''⟩ := hsilence
      obtain ⟨hdeep, hshallow⟩ := Nat.max_le.1 hdepth
      obtain ⟨hdeepb, hdeepa⟩ := Nat.max_le.1 hdeep
      obtain ⟨left, rfl⟩ := Nat.exists_eq_add_of_le' (Nat.le_trans (Nat.le_add_left 1 _) hdeepb)
      have hb : (kit.context (left + 1)).Shows body.source body.program.run :=
        shows_of_run fun s => ihb hbody husual.outside hsilence (by omega) s
      have ha : (kit.context (left + 1)).Shows alternate.source alternate.program.run :=
        shows_of_run fun s => iha halternate husual'.outside hsilence' (by omega) s
      exact run_choose hformatters hmacros hcondition hbody halternate husual husual' hdivide hclose
        hb ha hrest (ihn hnext hconditions hsilence'' hshallow)
  | silently blanks body close next ihb ihn =>
      obtain ⟨hbody, hnext⟩ := hq
      obtain ⟨-, hclose, husual, hsilence⟩ := hsilence
      obtain ⟨hdeep, hshallow⟩ := Nat.max_le.1 hdepth
      obtain ⟨left, rfl⟩ := Nat.exists_eq_add_of_le' (Nat.le_trans (Nat.le_add_left 1 _) hdeep)
      have hb : (kit.context (left + 1)).Shows body.source body.program.run :=
        shows_of_run fun s => ihb hbody hconditions.1 husual.outside (by omega) s
      exact run_silently hformatters hmacros hbody husual hclose hb hrest
        (ihn hnext hconditions.2 hsilence hshallow)

/-- A program that is written as usual. -/
theorem run_source (hformatters : kit.formatters = .standard) (hmacros : kit.macros = .standard)
    {p : Program} (hp : p.WellFormed) {left : Nat} (hdepth : p.depth ≤ left) (s : Scanner)
    (hrest : s.cursor.rest = p.source) :
    s.Yields (kit.run (kit.context left) none s) (p.run s.page.vars) := by
  obtain ⟨hconditions, hsilence⟩ := Spaced.usual_spaced p false
  rw [← Spaced.source_spaced] at hrest
  rw [← Spaced.program_spaced p] at hp hdepth ⊢
  exact run_spaced hformatters hmacros hp hconditions hsilence hdepth s hrest

end Kit

/-! ### Rendering a program -/

namespace Story

/-- **Rendering a written program shows its output and leaves its variables**, and changes nothing
else, as long as its blocks lie less deep inside one another than the limit allows. -/
theorem render_program (s : Story) (hformatters : s.formatters = .standard)
    (hmacros : s.macros = .standard) (p : Program) (hp : p.WellFormed)
    (hdepth : p.depth < s.config.maxDepth) :
    s.render (String.ofList p.source) =
      (Output.shown (p.run s.history.vars).1, [],
        { s with history := s.history.withVariables (p.run s.history.vars).2 }) := by
  obtain ⟨left, hleft⟩ := Nat.exists_eq_add_of_lt hdepth
  have hmeans : (s.kit.context s.kit.setting.config.maxDepth).Means p := by
    change (s.kit.context s.config.maxDepth).Means p
    rw [hleft]
    refine Kit.means_of_run fun t ht => ?_
    exact Kit.run_source hformatters hmacros hp (Nat.le_add_right _ _) t ht
  have hrender : s.kit.render p.source s.page =
      (Output.shown (p.run s.history.vars).1, s.page.withVariables (p.run s.history.vars).2) := by
    rw [Kit.render, Kit.renderIn, hmeans]
    rfl
  rw [render, String.toList_ofList, hrender]
  rfl

/-- A program with a condition inside a condition, an assignment out of sight and a statement that
cannot be read. -/
def stairs : Program :=
  .set "$up = true".toList <|
  .choose "$up".toList
    (.word "up".toList <|
      .guarded "!$up".toList (.word "never".toList .done) <|
      .choose "$up = false".toList (.word "never".toList .done)
        (.silently (.word "unseen".toList <| .set "$down = \"yes\"".toList .done) .done) .done)
    (.word "never".toList .done) <|
  .set "$up = (".toList <|
  .guarded "$down == \"yes\"".toList (.word "down".toList .done) .done

/-- A story in which blocks may lie three deep inside one another. -/
def landing : Story := new (.ofRecords []) { maxDepth := 4 } .empty {} 0

/-- On that landing the program shows what it means. -/
theorem render_program_stairs :
    landing.formatters = .standard ∧ landing.macros = .standard ∧ stairs.WellFormed ∧
      stairs.depth < landing.config.maxDepth ∧
      landing.render (String.ofList stairs.source) =
        (Output.shown (stairs.run landing.history.vars).1, [],
          { landing with
            history := landing.history.withVariables (stairs.run landing.history.vars).2 }) := by
  have hwell : stairs.WellFormed := by decide +kernel
  have hdepth : stairs.depth < landing.config.maxDepth := by decide
  exact ⟨rfl, rfl, hwell, hdepth, render_program landing rfl rfl stairs hwell hdepth⟩

example : (stairs.run {}).2.get "down" = .str "yes" ∧ (stairs.run {}).1.length = 3 := by
  decide +kernel

end Story

end Gamebook
