/-
**Excerpts of passages.**

An excerpt shows how a passage begins: what stands before its seventh blank, after macro calls,
headings and the punctuation of links have been taken out.

Main definitions:

* `Excerpt.dropCalls`, `Excerpt.dropHeadings`, `Excerpt.dropPunctuation` — what is taken out;
* `Excerpt.beforeBlank?` — what stands before the blank of a given number;
* `Passage.excerpt` — the excerpt.
-/

import Gamebook.Passage.Basic

set_option relaxedAutoImplicit false
set_option autoImplicit false

namespace Gamebook

namespace Excerpt

/-- The length of what stands up to the first `>>` of the first line, with it. -/
def callEnd? : List Char → Option Nat
  | [] => none
  | '>' :: '>' :: _ => some 2
  | c :: rest => if c = '\n' then none else (callEnd? rest).map (· + 1)

/-- The length of the macro call that a text starts with; it does not reach over a line break. -/
def call? : List Char → Option Nat
  | '<' :: '<' :: body => (callEnd? body).map (· + 2)
  | _ => none

/-- The length of what stands from an exclamation mark that starts a text up to the next line
break, with it. -/
def heading? : List Char → Option Nat
  | '!' :: rest =>
      let line := rest.takeWhile (· != '\n')
      if line.length < rest.length then some (line.length + 2) else none
  | _ => none

/-- `text` without its macro calls. -/
def dropCalls (text : List Char) : List Char := Text.remove call? text

/-- `text` without what stands from an exclamation mark to the end of its line. -/
def dropHeadings (text : List Char) : List Char := Text.remove heading? text

/-- `text` without brackets and slashes. -/
def dropPunctuation (text : List Char) : List Char :=
  text.filter fun c => c != '[' && c != ']' && c != '/'

/-- What stands before the blank number `n`, counted from 0, if there are as many. -/
def beforeBlank? : Nat → List Char → Option (List Char)
  | _, [] => none
  | 0, c :: rest => if Text.isBlank c then some [] else (beforeBlank? 0 rest).map (c :: ·)
  | n + 1, c :: rest =>
      (beforeBlank? (if Text.isBlank c then n else n + 1) rest).map (c :: ·)

end Excerpt

/-- The excerpt of a passage. -/
def Passage.excerpt (p : Passage) : String :=
  let plain := Excerpt.dropPunctuation (Excerpt.dropHeadings (Excerpt.dropCalls p.text.toList))
  String.ofList ((Excerpt.beforeBlank? 6 plain).getD (Text.trim plain)) ++ "..."

end Gamebook
