/-
**Formatters of a host.**

A host may add formatters of its own to the standard ones.  It describes the mark that such a
formatter starts with; a description that is not well formed has no pattern, and with it there is
no table.

Main definitions:

* `Extension`, `Formatters.insertBefore?` — a formatter offered by a host, and a table with it;
* `Extension.smile`, `Extension.shrug`, `Extension.stuck`, `Extension.broken` — examples: one that
  shows something, one that always declines, one that stays where it is, and one whose mark is not
  well formed.
-/

import Gamebook.Render.Rule

set_option relaxedAutoImplicit false
set_option autoImplicit false

namespace Gamebook

/-- A formatter as a host offers it. -/
structure Extension where
  name : String
  /-- The mark, if its description is well formed. -/
  start? : Option Pattern
  handle : Macros → Context → Scanner → Option Scanner

/-- A table with a formatter in front of the first one named `before`, or at the end if there is
none. -/
def Formatters.insertBefore (before : String) (f : Formatter) : List Formatter → List Formatter
  | [] => [f]
  | g :: gs => if g.name = before then f :: g :: gs else g :: insertBefore before f gs

/-- A table with a formatter of a host, if its mark is well formed. -/
def Formatters.insertBefore? (fs : Formatters) (before : String) (e : Extension) :
    Option Formatters :=
  e.start?.map fun start =>
    Formatters.insertBefore before { name := e.name, start, handle := e.handle } fs

namespace Extension

/-- Shows a smile. -/
def smile : Extension where
  name := "smile"
  start? := some (Pattern.orElse (Pattern.literal [':', '(']) (Pattern.literal [':', ')']))
  handle _ _ s :=
    some (s.emit
      (.element { tag := .span, class? := some "smile" } [.text (String.ofList s.found)]))

/-- Always declines. -/
def shrug : Extension where
  name := "shrug"
  start? := some (Pattern.orElse (Pattern.literal ['!', '!'])
    (Pattern.orElse (Pattern.literal ['-', '-']) (Pattern.literal ['\'', '\''])))
  handle _ _ _ := none

/-- Goes back to the start of its mark. -/
def stuck : Extension where
  name := "stuck"
  start? := some (Pattern.literal ['%', '%'])
  handle _ _ s := some { s with cursor := s.foundAt }

/-- Has a mark that is not well formed. -/
def broken : Extension where
  name := "broken"
  start? := none
  handle _ _ s := some s

/-- The examples by their names. -/
def ofName? (name : String) : Option Extension :=
  [smile, shrug, stuck, broken].find? (·.name == name)

end Extension

end Gamebook
