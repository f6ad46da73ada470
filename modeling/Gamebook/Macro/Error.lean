/-
**What can go wrong in a macro.**

Main definitions:

* `MacroError`, `MacroError.message` — the causes, and the text that the reader sees.
-/

import Gamebook.Expr.Basic

set_option relaxedAutoImplicit false
set_option autoImplicit false

namespace Gamebook

/-- Why a macro failed. -/
inductive MacroError where
  | badExpression (e : ExprError)
  | badCondition (e : ExprError)
  /-- Nothing closes the block. -/
  | missingEnd (closing : String)
  /-- The value has no form in which it could be kept. -/
  | cannotRemember (name kind : String)
  | nothingToRemember (statement : String)
  | noHistory
  | notInHistory (title : String)
  | missingParameter (name : String)
  /-- Renders lie too deep inside one another. -/
  | tooDeep (limit : Nat)
  /-- A macro of the host has a message of its own. -/
  | custom (message : String)
  deriving DecidableEq, Repr

/-- The text that the reader sees. -/
def MacroError.message : MacroError → String
  | badExpression e => "bad expression: " ++ e.message
  | badCondition e => "bad condition: " ++ e.message
  | missingEnd closing => "can't find matching " ++ closing
  | cannotRemember name kind => "can't remember $" ++ name ++ " (" ++ kind ++ ")"
  | nothingToRemember statement => "no $variable to remember in \"" ++ statement ++ "\""
  | noHistory => "can't go back from the first passage read"
  | notInHistory title => "can't find passage \"" ++ title ++ "\" in history"
  | missingParameter name => "<<" ++ name ++ ">> needs a passage title"
  | tooDeep limit => "passages nested more than " ++ toString limit ++ " deep"
  | custom message => message

end Gamebook
