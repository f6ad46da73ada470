/-
**The standard macros.**

Main definitions:

* `Macro.conditional`, `Macro.silently` — the block macros;
* `Macro.set`, `Macro.print`, `Macro.remember` — macros that evaluate;
* `Macro.back`, `Macro.actions`, `Macro.choice` — macros that offer links;
* `Macro.display` — another passage in place;
* `Macros.standard` — the table of the standard macros.
-/

import Gamebook.Expr.Eval
import Gamebook.Expr.Literal
import Gamebook.Macro.Block
import Gamebook.Render.Standard

set_option relaxedAutoImplicit false
set_option autoImplicit false

namespace Gamebook

/-- Evaluates an expression in the variables of the current entry. -/
def Page.evaluate (page : Page) (source : List Char) : Except ExprError (Value × Page) :=
  match Expr.evaluateChars source page.vars with
  | .error e => .error e
  | .ok (v, vars) => .ok (v, page.withVariables vars)

namespace Macro

/-! ### Blocks -/

/-- What closes a block, which means nothing without it. -/
def closing : Macro := { run := fun _ _ s => (s, none) }

/-- `<<if condition>> … <<else>> … <<endif>>` -/
def conditional : Macro where
  run ctx c s :=
    match Block.find? Block.conditional s.cursor.rest with
    | none => (s, some (.missingEnd "endif"))
    | some block =>
        -- the block is passed before its condition is looked at, so an error shows nothing of it
        let s := s.forward block.length
        match s.page.evaluate c.arguments with
        | .error e => (s, some (.badCondition e))
        | .ok (v, page) =>
            let branch := if v.isTruthy then block.body else block.alternate.getD []
            ctx.renderHere (Text.trim branch) { s with page := page }

/-- `<<silently>> … <<endsilently>>` runs what is inside and shows nothing of it. -/
def silently : Macro where
  run ctx _ s :=
    match Block.find? Block.silent s.cursor.rest with
    | none => (s, some (.missingEnd "endsilently"))
    | some block =>
        let s := s.forward block.length
        match ctx.render block.body [] s.page with
        | .ok (_, page) => ({ s with page := page }, none)
        | .error e => (s, some e)

/-! ### Evaluation -/

/-- `<<set $name = value>>` -/
def set : Macro where
  run _ c s :=
    match s.page.evaluate c.arguments with
    | .error e => (s, some (.badExpression e))
    | .ok (_, page) => ({ s with page := page }, none)

/-- `<<print value>>` renders the text of a value; undefined shows nothing. -/
def print : Macro where
  run ctx c s :=
    match s.page.evaluate c.arguments with
    | .error e => (s, some (.badExpression e))
    | .ok (v, page) =>
        let s := { s with page := page }
        if v = .undefined ∨ v = .str "" then (s, none) else ctx.renderHere v.text.toList s

/-- The statement that gives a variable a remembered value. -/
def recallStatement (name value : String) : String := "$" ++ name ++ "=" ++ value

/-- Gives a variable its remembered value; what cannot be read gives nothing. -/
def recallOne (vars : Variables) (name value : String) : Variables :=
  match Expr.evaluate (recallStatement name value) vars with
  | .ok (_, vars) => vars
  | .error _ => vars

/-- Gives the variables of a reading their remembered values. -/
def recallAll (prelude : Prelude) (vars : Variables) : Variables :=
  (prelude.jar.liveUnder prelude.now prelude.keyStart).foldl (fun vars (key, value) =>
    recallOne vars (String.ofList (key.toList.drop prelude.keyStart.length)) value) vars

/-- `<<remember $name = value>>` keeps the value of the first variable named, for readings to
come. -/
def remember : Macro where
  run ctx c s :=
    match s.page.evaluate c.arguments with
    | .error e => (s, some (.badExpression e))
    | .ok (_, page) =>
        let s := { s with page := page }
        -- the name is looked for in the text as it stands, in a string too
        match Expr.firstVariable? c.arguments with
        | none => (s, some (.nothingToRemember (String.ofList c.arguments)))
        | some name =>
            let name := String.ofList name
            let value := page.vars.get name
            match value.literal? with
            | none => (s, some (.cannotRemember name value.kind))
            | some literal =>
                let expiresAt := ctx.setting.now + ctx.setting.config.rememberFor.seconds
                let jar := page.jar.keep (ctx.setting.keyStart ++ name) literal expiresAt
                ({ s with page := { page with jar := jar } }, none)
  prepare prelude vars := .ok (recallAll prelude vars)

/-! ### Links -/

/-- The token of the point of the reading that a call of `back` names. -/
def backTarget (earlier : List Entry) : List String → Except MacroError String
  | title :: _ =>
      match earlier.find? fun e => e.title == some title with
      | some e => .ok e.token
      | none => .error (.notInHistory title)
  | [] =>
      match earlier.head? with
      | some e => if e.isOpening then .error .noHistory else .ok e.token
      | none => .error .noHistory

/-- `<<back>>` or `<<back "Title">>` links to an earlier point of the reading. -/
def back : Macro where
  run _ c s :=
    match backTarget s.page.history.earlier c.params with
    | .error e => (s, some e)
    | .ok token =>
        (s.emit (.element (.ofLink (.back token))
          [.element { tag := .strong } [.text "\u00ab"], .text " Back"]), none)

/-- The list item that offers an action. -/
def actionItem (store : Store) (title : String) : Node :=
  .element { tag := .listItem }
    [.element (.ofLink (.action title (!store.has title))) [.text title]]

/-- `<<actions "A" "B">>` offers actions, apart from those that were followed. -/
def actions : Macro where
  run _ c s :=
    let titles := c.params.filter fun title => !s.page.vars.isClicked title
    let page := { s.page with offered := s.page.offered ++ titles }
    ({ s with page := page }.emit
      (.element { tag := .unorderedList } (titles.map (actionItem s.page.store))), none)

/-- `<<choice "Title">>` links to a passage. -/
def choice : Macro where
  run _ c s :=
    match c.params with
    | [] => (s, some (.missingParameter c.name))
    | title :: _ => (s.emit (.element (s.page.store.linkTo title) [.text title]), none)

/-! ### Other passages -/

/-- `<<display "Title">>` renders another passage in place. -/
def display : Macro where
  run ctx c s :=
    match c.params with
    | [] => (s, some (.missingParameter c.name))
    | title :: _ => ctx.renderHere (s.page.store.get title).text.toList s

end Macro

/-- The standard macros by their names. -/
def Macros.standard : Macros :=
  Dict.ofList
    [("if", Macro.conditional), ("else", Macro.closing), ("endif", Macro.closing),
      ("set", Macro.set), ("print", Macro.print), ("remember", Macro.remember),
      ("back", Macro.back), ("actions", Macro.actions), ("display", Macro.display),
      ("silently", Macro.silently), ("endsilently", Macro.closing), ("choice", Macro.choice)]

end Gamebook
