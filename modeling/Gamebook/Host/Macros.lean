/-
**Macros of a host.**

Main definitions:

* `Macro.scrawl`, `Macro.oops`, `Macro.whereabouts` — examples: one that changes a passage, one
  that always fails, and one that tells where it stands and seeds variables;
* `MacroTable` — the tables of macros that a host can choose from.
-/

import Gamebook.Macro.Standard

set_option relaxedAutoImplicit false
set_option autoImplicit false

namespace Gamebook

namespace Macro

/-- `<<scrawl "Title" "text">>` changes the text of a passage. -/
def scrawl : Macro where
  run _ c s :=
    match c.params with
    | [title, text] =>
        ({ s with page := { s.page with store := s.page.store.setText title text } }, none)
    | _ => (s, none)

/-- Always fails. -/
def oops : Macro where
  run _ c s := (s, some (.custom ("oops: " ++ String.ofList c.arguments)))
  prepare _ _ := .error (.custom "oops")

/-- Where a call stands: how deep, its mark, and what comes next, in bytes. -/
def whereText (c : MacroCall) (s : Scanner) : String :=
  "(" ++ c.name ++ " " ++ "/".intercalate c.params ++ " depth " ++ toString s.page.depth ++ " at " ++
    toString s.foundAt.offset ++ "+" ++ toString (Text.size s.found) ++ " next " ++
    toString s.cursor.offset ++ ")"

/-- Tells where it stands.  It seeds variables with what there is when the reading starts. -/
def whereabouts : Macro where
  run _ c s := (s.emit (.text (whereText c s)), none)
  prepare prelude vars :=
    let kept := (prelude.jar.liveUnder prelude.now prelude.keyStart).length
    .ok (((vars.set "passages" (.num (Number.ofNat prelude.store.passages.length))).set "kept"
      (.num (Number.ofNat kept))).set "prefix" (.str prelude.keyStart))

end Macro

/-- The tables of macros that a host can choose from. -/
inductive MacroTable where
  | standard
  /-- No macros at all. -/
  | none
  /-- The standard macros, `print` replaced by one that tells where it stands. -/
  | noPrint
  /-- The standard macros and the examples. -/
  | extended
  deriving DecidableEq, Repr

/-- The macros of a table. -/
def MacroTable.macros : MacroTable → Macros
  | standard => .standard
  | none => .empty
  | noPrint => Macros.standard.insert "print" Macro.whereabouts
  | extended =>
      ((Macros.standard.insert "scrawl" Macro.scrawl).insert "oops" Macro.oops).insert "where"
        Macro.whereabouts

end Gamebook
