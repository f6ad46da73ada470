/-
**Which variable is remembered.**

A call of `remember` runs its statement and then keeps the value of the variable that the statement
names first.  But the statement is run by its tokens, and the name is looked for in its text, where a
dollar sign in a text in quotes counts as that of a variable.  So the variable that is kept is the
first one of the statement unless a text in quotes in front of it names another one: then that one is
kept, or it has no value and nothing is.

Main definitions:

* `Page.remembering`, `Story.remembering` — what becomes of a page and of a story by a call of
  `remember` that is about some variable.

Main results:

* `Macro.remember_run_eq`, `Story.render_remember` — **a call of `remember` is about the variable
  that its text names first**;
* `Story.get?_remembering` — no other value is kept or lost;
* `Story.remembering_injective` — what becomes of a story tells which variable the call was about;
* `Story.remembers_first_iff` — **when that is the first variable of the statement**.
-/

import Gamebook.Proofs.Expr.Naming
import Gamebook.Proofs.Macro.Calls
import Gamebook.Story.Basic

set_option relaxedAutoImplicit false
set_option autoImplicit false

namespace Gamebook

/-- The name of the macro `remember`. -/
def Macro.rememberName : List Char := ['r', 'e', 'm', 'e', 'm', 'b', 'e', 'r']

/-- What becomes of a page by a call of `remember` whose statement has been run, if `found` is the
variable that the call is about: its value is kept if it has one, and otherwise something is
wrong. -/
def Page.remembering (p : Page) (setting : Setting) (statement : List Char) :
    Option String → Page × Option MacroError
  | none => (p, some (.nothingToRemember (String.ofList statement)))
  | some name =>
      match (p.vars.get name).literal? with
      | none => (p, some (.cannotRemember name (p.vars.get name).kind))
      | some literal =>
          let expiresAt := setting.now + setting.config.rememberFor.seconds
          ({ p with jar := p.jar.keep (setting.keyStart ++ name) literal expiresAt }, none)

namespace Page

variable {p : Page} {setting : Setting} {statement : List Char} {found other : Option String}

/-- Either there is no variable, or it has no value, or its value is kept. -/
theorem remembering_cases (p : Page) (setting : Setting) (statement : List Char)
    (found : Option String) :
    found = none ∧ p.remembering setting statement found =
        (p, some (.nothingToRemember (String.ofList statement))) ∨
      (∃ name, found = some name ∧ p.remembering setting statement found =
        (p, some (.cannotRemember name Value.undefined.kind))) ∨
      ∃ name literal expiresAt, found = some name ∧ p.remembering setting statement found =
        ({ p with jar := p.jar.keep (setting.keyStart ++ name) literal expiresAt }, none) := by
  cases found with
  | none => exact .inl ⟨rfl, rfl⟩
  | some name =>
      rw [remembering]
      cases hvalue : p.vars.get name with
      | undefined => exact .inr (.inl ⟨name, rfl, rfl⟩)
      | str | num | bool => exact .inr (.inr ⟨name, _, _, rfl, rfl⟩)

/-- How deep a render is plays no part in what is kept. -/
theorem remembering_enter (p : Page) (setting : Setting) (statement : List Char)
    (found : Option String) :
    (p.enter.remembering setting statement found).1.leave =
        (p.remembering setting statement found).1 ∧
      (p.enter.remembering setting statement found).2 =
        (p.remembering setting statement found).2 := by
  cases found with
  | none => exact ⟨rfl, rfl⟩
  | some name =>
      have hget : p.enter.vars.get name = p.vars.get name := rfl
      simp only [remembering, hget]
      cases (p.vars.get name).literal? <;> exact ⟨rfl, rfl⟩

theorem offered_remembering (p : Page) (setting : Setting) (statement : List Char)
    (found : Option String) : (p.remembering setting statement found).1.offered = p.offered := by
  rcases p.remembering_cases setting statement found with ⟨-, h⟩ | ⟨name, -, h⟩ |
    ⟨name, literal, expiresAt, -, h⟩ <;> rw [h]

/-- **No other value is kept or lost.** -/
theorem get?_remembering {key : String}
    (hkey : ∀ name, found = some name → key ≠ setting.keyStart ++ name) :
    (p.remembering setting statement found).1.jar.get? key = p.jar.get? key := by
  rcases p.remembering_cases setting statement found with ⟨-, h⟩ | ⟨name, -, h⟩ |
    ⟨name, literal, expiresAt, hfound, h⟩
  · rw [h]
  · rw [h]
  · rw [h, Jar.keep, Dict.get?_insert, if_neg (hkey name hfound)]

end Page

namespace MacroError

theorem message_nothingToRemember (statement : String) : (nothingToRemember statement).message =
    "no $variable to remember in \"" ++ statement ++ "\"" := rfl

theorem message_cannotRemember (name kind : String) : (cannotRemember name kind).message =
    "can't remember $" ++ name ++ " (" ++ kind ++ ")" := rfl

theorem nothingToRemember_ne (statement name kind : String) :
    (nothingToRemember statement).message ≠ (cannotRemember name kind).message := by
  intro h
  have hno : (nothingToRemember statement).message.toList.head? = some 'n' := by
    rw [message_nothingToRemember, String.toList_append, String.toList_append]
    rfl
  have hcannot : (cannotRemember name kind).message.toList.head? = some 'c' := by
    rw [message_cannotRemember, String.toList_append, String.toList_append, String.toList_append,
      String.toList_append]
    rfl
  rw [h, hcannot] at hno
  cases hno

theorem cannotRemember_injective {name other kind : String}
    (h : (cannotRemember name kind).message = (cannotRemember other kind).message) :
    name = other := by
  rw [message_cannotRemember, message_cannotRemember, String.append_left_inj,
    String.append_left_inj, String.append_left_inj, String.append_right_inj] at h
  exact h

end MacroError

/-- What a call leaves of a page where nothing was kept, and what is said to be wrong, tell which
variable the call is about. -/
theorem Page.remembering_injective {p : Page} {setting : Setting} {statement : List Char}
    {found other : Option String} (hjar : p.jar = .empty)
    (hwrong : (p.remembering setting statement found).2.map MacroError.message =
      (p.remembering setting statement other).2.map MacroError.message)
    (hkept : (p.remembering setting statement found).1.jar =
      (p.remembering setting statement other).1.jar) : found = other := by
  rcases p.remembering_cases setting statement found with ⟨hfound, h⟩ | ⟨name, hfound, h⟩ |
      ⟨name, literal, expiresAt, hfound, h⟩ <;>
    rcases p.remembering_cases setting statement other with ⟨hother, h'⟩ | ⟨name', hother, h'⟩ |
      ⟨name', literal', expiresAt', hother, h'⟩ <;>
    rw [h, h'] at hwrong hkept <;> rw [hfound, hother]
  case inl.inr.inl => exact absurd (Option.some.inj hwrong) (MacroError.nothingToRemember_ne _ _ _)
  case inr.inl.inl =>
    exact absurd (Option.some.inj hwrong).symm (MacroError.nothingToRemember_ne _ _ _)
  case inr.inl.inr.inl => rw [MacroError.cannotRemember_injective (Option.some.inj hwrong)]
  case inr.inr.inr.inr =>
    by_contra hne
    have hkey : setting.keyStart ++ name ≠ setting.keyStart ++ name' := fun heq =>
      hne (congrArg some ((String.append_right_inj _).1 heq))
    have hget := congrArg (fun jar : Jar => jar.get? (setting.keyStart ++ name)) hkept
    simp only [hjar, Jar.keep, Dict.get?_insert, if_true, if_neg hkey] at hget
    cases hget
  -- in the other cases something is wrong with one of the calls alone
  all_goals cases hwrong

/-- **A call of `remember` is about the variable that its text names first**, if the text can be
evaluated. -/
theorem Macro.remember_run_eq {ctx : Context} {c : MacroCall} {s : Scanner} {v : Value} {page : Page}
    (he : s.page.evaluate c.arguments = .ok (v, page)) :
    remember.run ctx c s =
      let (kept, wrong) := page.remembering ctx.setting c.arguments (Expr.named? c.arguments)
      ({ s with page := kept }, wrong) := by
  simp only [remember, he, Expr.named?]
  cases Expr.firstVariable? c.arguments with
  | none => rfl
  | some name =>
      simp only [Option.map_some, Page.remembering]
      cases (page.vars.get (String.ofList name)).literal? <;> rfl

namespace Story

variable {s : Story} {vars : Variables} {statement : List Char} {found other : Option String}

/-- What becomes of a story by a call of `remember` whose statement leaves the variables `vars`, if
`found` is the variable that the call is about; what is wrong is shown. -/
def remembering (s : Story) (statement : List Char) (vars : Variables) (found : Option String) :
    List Node × List String × Story :=
  let (page, wrong) := (s.page.withVariables vars).remembering s.kit.setting statement found
  ((wrong.map fun e => Node.error e.message).toList, [], s.withPage page)

/-- **A text that is one call of `remember`** is about the variable that the text of the call names
first. -/
theorem render_remember (hformatters : s.formatters = .standard) (hmacros : s.macros = .standard)
    (hdepth : 0 < s.config.maxDepth) {written : List Char} (ha : '>' ∉ written) {v : Value}
    (heval : Expr.evaluateChars (Program.argument written) s.history.vars = .ok (v, vars)) :
    s.render (String.ofList (Program.call Macro.rememberName written)) =
      s.remembering (Program.argument written) vars (Expr.named? (Program.argument written)) := by
  obtain ⟨left, hleft⟩ := Nat.exists_eq_add_of_le' hdepth
  have hdepth' : s.kit.setting.config.maxDepth = left + 1 := hleft
  have hget : s.kit.macros.get? (String.ofList Macro.rememberName) = some Macro.remember := by
    rw [kit, hmacros]
    rfl
  let page := s.page.withVariables vars
  let inner := page.enter.remembering s.kit.setting (Program.argument written)
    (Expr.named? (Program.argument written))
  have hrun : ∀ call : MacroCall, call.arguments = Program.argument written →
      ∀ t : Scanner, t.page = s.page.enter → Macro.remember.run (s.kit.context left) call t =
        ({ t with page := inner.1 }, inner.2) := by
    intro call harguments t ht
    have heval' : Expr.evaluateChars (Program.argument written) s.page.enter.vars = .ok (v, vars) :=
      heval
    have hturn : t.page.evaluate call.arguments = .ok (v, page.enter) := by
      rw [ht, harguments, Page.evaluate, heval']
      rfl
    rw [Macro.remember_run_eq hturn, s.kit.setting_context, harguments]
  have hrender : s.kit.render (Program.call Macro.rememberName written) s.page =
      ((inner.2.map fun e => Node.error e.message).toList, inner.1.leave) :=
    Kit.render_outcome hformatters hdepth' (by decide) (by decide) ha hget hrun
  obtain ⟨hleave, hwrong⟩ := page.remembering_enter s.kit.setting (Program.argument written)
    (Expr.named? (Program.argument written))
  rw [hleave, hwrong] at hrender
  rw [render, String.toList_ofList, hrender]
  dsimp only
  rw [Page.offered_remembering]
  rfl

theorem jar_remembering {name literal : String}
    (hliteral : (vars.get name).literal? = some literal) (statement : List Char) :
    (s.remembering statement vars (some name)).2.2.jar =
      s.jar.keep (s.keyStart ++ name) literal (s.now + s.config.rememberFor.seconds) := by
  have hget : ((s.page.withVariables vars).vars.get name).literal? = some literal := hliteral
  simp only [remembering, Page.remembering, hget]
  rfl

/-- **No other value is kept or lost.** -/
theorem get?_remembering (s : Story) (statement : List Char) (vars : Variables) {key : String}
    (hkey : ∀ name, found = some name → key ≠ s.keyStart ++ name) :
    (s.remembering statement vars found).2.2.jar.get? key = s.jar.get? key :=
  Page.get?_remembering hkey

/-- What becomes of a story that has kept nothing yet tells which variable the call was about. -/
theorem remembering_injective (hjar : s.jar = .empty)
    (h : s.remembering statement vars found = s.remembering statement vars other) :
    found = other := by
  have herror : ∀ a b : String, Node.error a = Node.error b → a = b := by
    intro a b heq
    simpa [Node.error, Node.marked] using heq
  have hwrong : ∀ w w' : Option MacroError, (w.map fun e => Node.error e.message).toList =
      (w'.map fun e => Node.error e.message).toList →
        w.map MacroError.message = w'.map MacroError.message := by
    rintro (_ | e) (_ | e') heq
    · rfl
    · cases heq
    · cases heq
    · exact congrArg some (herror _ _ (List.cons.inj heq).1)
  refine Page.remembering_injective hjar (hwrong _ _ (congrArg Prod.fst h)) ?_
  exact congrArg (fun r : List Node × List String × Story => r.2.2.jar) h

/-- A story without passages whose keys begin with `start`. -/
def untitled (start : String) : Story :=
  .new (.ofRecords []) { defaultKeyStart := start } .empty {} 0

/-- **Which variable is remembered.**  A call of `remember` whose statement can be read is about what
the first one of its lexemes names that names a variable, be it a variable itself or a text in
quotes.  So it is about the first variable of its statement, for all stories, just when no text in
quotes in front of that names another one; and so it is if no text in quotes has a dollar sign. -/
theorem remembers_first_iff {written : List Char} (ha : '>' ∉ written) {e : Expr}
    (he : Expr.parseChars (Program.argument written) = .ok e) :
    ∃ tokens row, Token.ofChars (Program.argument written) = .ok tokens ∧
      Token.Spells (Program.argument written) row ∧
      tokens.map Token.kind = row.map Token.Lexeme.kind ++ [.eof] ∧
      (∀ s : Story, s.formatters = .standard → s.macros = .standard → 0 < s.config.maxDepth →
        s.render (String.ofList (Program.call Macro.rememberName written)) =
          s.remembering (Program.argument written) (e.eval s.history.vars).2
            (row.findSome? fun l => Expr.named? l.text)) ∧
      ((∀ s : Story, s.formatters = .standard → s.macros = .standard → 0 < s.config.maxDepth →
        s.render (String.ofList (Program.call Macro.rememberName written)) =
          s.remembering (Program.argument written) (e.eval s.history.vars).2
            (tokens.findSome? fun t => t.kind.varName?)) ↔
        (row.findSome? fun l => Expr.named? l.text) =
          tokens.findSome? fun t => t.kind.varName?) ∧
      ((∀ lexeme s, ⟨lexeme, .str s⟩ ∈ row → '$' ∉ lexeme) →
        (row.findSome? fun l => Expr.named? l.text) =
          tokens.findSome? fun t => t.kind.varName?) := by
  have hrender : ∀ s : Story, s.formatters = .standard → s.macros = .standard →
      0 < s.config.maxDepth →
        s.render (String.ofList (Program.call Macro.rememberName written)) =
          s.remembering (Program.argument written) (e.eval s.history.vars).2
            (Expr.named? (Program.argument written)) := by
    intro s hformatters hmacros hdepth
    have heval : Expr.evaluateChars (Program.argument written) s.history.vars =
        .ok (e.eval s.history.vars) := by
      rw [Expr.evaluateChars, he]
    exact render_remember hformatters hmacros hdepth ha heval
  rw [Expr.parseChars] at he
  split at he
  · cases he
  rename_i tokens htokens
  obtain ⟨row, hrow, hkinds⟩ := Token.exists_spells htokens
  rw [hrow.named?_eq] at hrender
  refine ⟨tokens, row, htokens, hrow, hkinds, hrender, ⟨fun hfirst => ?first, fun heq => heq ▸ hrender⟩,
    fun hstr => ?plain⟩
  case first =>
    -- a story that has kept nothing yet tells the two apart
    have hsame := (hrender (untitled "") rfl rfl (by decide)).symm.trans
      (hfirst (untitled "") rfl rfl (by decide))
    exact remembering_injective rfl hsame
  case plain => rw [← hrow.named?_eq, hrow.named?_eq_varName? hstr, Token.findSome?_varName? hkinds]

/-- A price for gold. -/
def priced : Expr := .assign "gold" none (.lit (.str "$5"))

/-- A price, and then an amount of gold. -/
def pricedFirst : Expr := .sequence [.lit (.str "$5"), .assign "gold" none (.lit (.num 7))]

theorem parseChars_priced :
    Expr.parseChars (Token.spaced priced.tokens) = .ok priced ∧
      Expr.parseChars (Token.spaced pricedFirst.tokens) = .ok pricedFirst := by
  have hname : IsName "gold" := ⟨by decide, by decide⟩
  have hseven : Number.isNegative 7 = false := by decide +kernel
  constructor
  · refine Expr.parseChars_spaced ?_ ?_ <;> simp [priced, Expr.Every, Expr.Proper, Expr.Signed, hname]
  · refine Expr.parseChars_spaced ?_ ?_ <;>
      simp [pricedFirst, Expr.Every, Expr.EveryItem, Expr.Proper, Expr.Signed, hname, hseven]

/-- A text in quotes behind the variable of its statement: the variable is remembered. -/
theorem remembers_first_iff_priced :
    Token.spaced priced.tokens = "$gold = \"$5\"".toList ∧ '>' ∉ Token.spaced priced.tokens ∧
      Expr.parseChars (Program.argument (Token.spaced priced.tokens)) = .ok priced ∧
      ∀ s : Story, s.formatters = .standard → s.macros = .standard → 0 < s.config.maxDepth →
        s.render (String.ofList (Program.call Macro.rememberName (Token.spaced priced.tokens))) =
          s.remembering (Program.argument (Token.spaced priced.tokens))
            (s.history.vars.set "gold" (.str "$5")) (some "gold") := by
  have hno : '>' ∉ Token.spaced priced.tokens := by decide
  have hparse : Expr.parseChars (Program.argument (Token.spaced priced.tokens)) = .ok priced :=
    parseChars_priced.1
  obtain ⟨tokens, row, -, hrow, -, hrender, -, -⟩ := remembers_first_iff hno hparse
  have hfirst : Expr.named? (Program.argument (Token.spaced priced.tokens)) = some "gold" := by
    decide +kernel
  rw [← hrow.named?_eq, hfirst] at hrender
  exact ⟨by decide, hno, hparse, hrender⟩

/-- **A text in quotes is taken for a variable**: the statement gives `gold` the value 7, and its first
variable is that one, but what the call is about is the price in front of it, which has no value.  So
nothing is kept. -/
theorem price_mistaken :
    Token.spaced pricedFirst.tokens = "\"$5\" ; $gold = 7".toList ∧
      '>' ∉ Token.spaced pricedFirst.tokens ∧
      Expr.parseChars (Program.argument (Token.spaced pricedFirst.tokens)) = .ok pricedFirst ∧
      (∃ tokens, Token.ofChars (Token.spaced pricedFirst.tokens) = .ok tokens ∧
        (tokens.findSome? fun t => t.kind.varName?) = some "gold") ∧
      (untitled "Cave_").render "<<remember \"$5\" ; $gold = 7>>" =
        ([Node.error "can't remember $5 (undefined)"], [], { untitled "Cave_" with
          history := (untitled "Cave_").history.withVariables
            ((untitled "Cave_").history.vars.set "gold" (.num 7)) }) ∧
      (untitled "Cave_").jar.get? "Cave_gold" = none ∧
      ((untitled "Cave_").remembering (Token.spaced pricedFirst.tokens)
        (pricedFirst.eval (untitled "Cave_").history.vars).2 (some "gold")).2.2.jar.get?
          "Cave_gold" = some ⟨"7", 365 * 24 * 60 * 60⟩ := by
  have hno : '>' ∉ Token.spaced pricedFirst.tokens := by decide
  have hparse : Expr.parseChars (Program.argument (Token.spaced pricedFirst.tokens)) =
      .ok pricedFirst := parseChars_priced.2
  have htokens : Token.ofChars (Token.spaced pricedFirst.tokens) =
      .ok [⟨.str "$5", 0⟩, ⟨.semicolon, 5⟩, ⟨.var "gold", 7⟩, ⟨.eq, 13⟩, ⟨.number 7, 15⟩,
        ⟨.eof, 16⟩] := by decide +kernel
  have hcall : String.ofList (Program.call Macro.rememberName (Token.spaced pricedFirst.tokens)) =
      "<<remember \"$5\" ; $gold = 7>>" := by decide
  have heval : Expr.evaluateChars (Program.argument (Token.spaced pricedFirst.tokens))
      (untitled "Cave_").history.vars = .ok (pricedFirst.eval (untitled "Cave_").history.vars) := by
    rw [Expr.evaluateChars, hparse]
  have hfirst : Expr.named? (Program.argument (Token.spaced pricedFirst.tokens)) = some "5" := by
    decide +kernel
  have hrender := render_remember rfl rfl (by decide) hno heval
  rw [hcall, hfirst] at hrender
  have hmessage : "can't remember $" ++ "5" ++ " (" ++ "undefined" ++ ")" =
      "can't remember $5 (undefined)" := by decide
  rw [← hmessage]
  exact ⟨by decide, hno, hparse, ⟨_, htokens, rfl⟩, hrender.trans rfl, rfl, by decide +kernel⟩

end Story

end Gamebook
