/-
**Macros and formatters.**

A formatter handles a construct of the markup from where its mark is found, and a macro handles a
call of its name.  Both work on a scanner.  To render what lies inside, they are handed a context.

Main definitions:

* `Context` — rendering one level further in;
* `MacroCall`, `Macro`, `Macros` — macros and tables of them by name;
* `Formatter`, `Formatters` — formatters and tables of them in order of precedence;
* `Formatters.next?` — the next mark in a text.

Main results:

* `Formatters.next?_eq_some` — **the next mark is not empty**, and behind it the text is shorter.
-/

import Gamebook.Macro.Error
import Gamebook.Markup.Pattern
import Gamebook.Render.Scanner

set_option relaxedAutoImplicit false
set_option autoImplicit false

namespace Gamebook

/-! ### Rendering further in -/

/-- What a macro or a formatter has at hand. -/
structure Context where
  setting : Setting
  /-- Goes on in the same text, one level further in, up to a mark or to the end. -/
  scan : Option Pattern → Scanner → Scanner
  /-- Renders another text, one level further in, behind nodes that are already there. -/
  render : List Char → List Node → Page → Except MacroError (List Node × Page)

namespace Context

/-- Goes on in the same text up to a mark, with the nodes `inside` of an element.  Returns these
with the new ones, the latest first, and the scanner behind the mark with its own nodes. -/
def scanInside (ctx : Context) (stop : Pattern) (inside : List Node) (s : Scanner) :
    List Node × Scanner :=
  let t := ctx.scan (some stop) { s with nodes := inside }
  (t.nodes, { t with nodes := s.nodes })

/-- Renders another text in the place of the cursor. -/
def renderHere (ctx : Context) (text : List Char) (s : Scanner) : Scanner × Option MacroError :=
  match ctx.render text s.nodes s.page with
  | .ok (nodes, page) => ({ s with nodes := nodes, page := page }, none)
  | .error e => (s, some e)

end Context

/-! ### Macros -/

/-- A macro call. -/
structure MacroCall where
  name : String
  /-- All that stands between the name and the end of the call. -/
  arguments : List Char
  params : List String
  deriving DecidableEq

/-- What a macro may look at before a reading starts. -/
structure Prelude where
  store : Store
  jar : Jar
  keyStart : String
  now : Nat

/-- A macro.  It works on the scanner behind its call, and tells what went wrong if anything
did. -/
structure Macro where
  run : Context → MacroCall → Scanner → Scanner × Option MacroError
  /-- Gives the variables of a reading that is about to start. -/
  prepare : Prelude → Variables → Except MacroError Variables := fun _ vars => .ok vars

/-- Macros by their names. -/
abbrev Macros : Type := Dict Macro

namespace Macros

/-- Runs a call.  What goes wrong is shown in its place. -/
def call (macros : Macros) (ctx : Context) (c : MacroCall) (s : Scanner) : Scanner :=
  match macros.get? c.name with
  | none => s.emit (Node.marked ("macro not found: " ++ c.name))
  | some m =>
      match m.run ctx c s with
      | (s', none) => s'
      | (s', some e) => s'.emit (Node.error e.message)

/-- The variables of a reading that is about to start, given by all macros in the order of their
names.  A macro that fails gives nothing. -/
def initialVariables (macros : Macros) (prelude : Prelude) : Variables :=
  macros.entries.foldl (fun vars (_, m) =>
    match m.prepare prelude vars with
    | .ok vars => vars
    | .error _ => vars) {}

end Macros

/-! ### Formatters -/

/-- A formatter.  It works on the scanner behind its mark.  If it declines, which leaves no trace,
the mark is plain text. -/
structure Formatter where
  name : String
  start : Pattern
  handle : Macros → Context → Scanner → Option Scanner

/-- Formatters in order of precedence. -/
abbrev Formatters : Type := List Formatter

/-- A mark in a text. -/
inductive Hit where
  /-- The mark that was waited for. -/
  | stop (length : Nat)
  /-- The mark of the formatter at a place of the table. -/
  | rule (index : Nat) (formatter : Formatter) (length : Nat)

/-- The length of a mark. -/
def Hit.length : Hit → Nat
  | stop length => length
  | rule _ _ length => length

/-- A mark of at least one character. -/
def Pattern.nonempty? (p : Pattern) (previous : Option Char) (text : List Char) : Option Nat :=
  (p previous text).filter (0 < ·)

namespace Formatters

/-- The first formatter whose mark stands at a point; the table starts at place `index`. -/
def hitFrom? (index : Nat) (previous : Option Char) (text : List Char) : Formatters → Option Hit
  | [] => none
  | f :: fs =>
      match f.start.nonempty? previous text with
      | some n => some (.rule index f n)
      | none => hitFrom? (index + 1) previous text fs

/-- The mark at a point.  The one that is waited for comes before all formatters. -/
def hit? (fs : Formatters) (stop : Option Pattern) (previous : Option Char) (text : List Char) :
    Option Hit :=
  match stop.bind fun p => p.nonempty? previous text with
  | some n => some (.stop n)
  | none => fs.hitFrom? 0 previous text

/-- The next mark in a text, and what stands before it. -/
def next? (fs : Formatters) (stop : Option Pattern) :
    Option Char → List Char → Option (List Char × Hit)
  | _, [] => none
  | previous, c :: rest =>
      match fs.hit? stop previous (c :: rest) with
      | some hit => some ([], hit)
      | none => (next? fs stop (some c) rest).map fun (skipped, hit) => (c :: skipped, hit)

theorem length_pos_of_hitFrom? (fs : Formatters) (index : Nat) (previous : Option Char)
    (text : List Char) (hit : Hit) (h : fs.hitFrom? index previous text = some hit) :
    0 < hit.length := by
  induction fs generalizing index with
  | nil => simp [hitFrom?] at h
  | cons f fs ih =>
      rw [hitFrom?] at h
      split at h
      · rename_i n hn
        have hpos := (Option.filter_eq_some_iff.mp hn).2
        cases h
        simpa [Hit.length] using hpos
      · exact ih _ h

theorem length_pos_of_hit? (fs : Formatters) (stop : Option Pattern) (previous : Option Char)
    (text : List Char) (hit : Hit) (h : fs.hit? stop previous text = some hit) :
    0 < hit.length := by
  rw [hit?] at h
  split at h
  · rename_i n hn
    obtain ⟨p, -, hp⟩ := Option.bind_eq_some_iff.mp hn
    have hpos := (Option.filter_eq_some_iff.mp hp).2
    cases h
    simpa [Hit.length] using hpos
  · exact length_pos_of_hitFrom? fs _ _ _ _ h

/-- **The next mark is not empty**, and stands in the text behind what is skipped. -/
theorem next?_eq_some (fs : Formatters) (stop : Option Pattern) (previous : Option Char)
    (text skipped : List Char) (hit : Hit) (h : fs.next? stop previous text = some (skipped, hit)) :
    0 < hit.length ∧ skipped.length < text.length ∧ skipped <+: text := by
  induction text generalizing previous skipped with
  | nil => simp [next?] at h
  | cons c rest ih =>
      rw [next?] at h
      split at h
      · rename_i found hf
        cases h
        exact ⟨length_pos_of_hit? fs stop previous _ _ hf, by simp, List.nil_prefix⟩
      · obtain ⟨⟨skipped', hit'⟩, hn, heq⟩ := Option.map_eq_some_iff.mp h
        cases heq
        obtain ⟨h₁, h₂, h₃⟩ := ih _ _ hn
        exact ⟨h₁, by simpa using h₂, by simpa using h₃⟩

/-- Behind a mark the text is shorter. -/
theorem length_drop_lt (fs : Formatters) (stop : Option Pattern) (previous : Option Char)
    (text skipped : List Char) (hit : Hit) (h : fs.next? stop previous text = some (skipped, hit)) :
    ((text.drop skipped.length).drop hit.length).length < text.length := by
  obtain ⟨h₁, h₂, -⟩ := next?_eq_some fs stop previous text skipped hit h
  simp only [List.length_drop]
  omega

/-- All marks from a cursor on, each looked for behind the one before: the place of its formatter
in the table, and where it starts and ends in bytes. -/
def findAll (fs : Formatters) (c : Cursor) : List (Formatter × Nat × Nat × Nat) :=
  match h : fs.next? none c.previous c.rest with
  | some (skipped, .rule index f length) =>
      have _shorter := length_drop_lt fs none _ _ _ _ h
      let start := c.forward skipped.length
      let stop := start.forward length
      (f, index, start.offset, stop.offset) :: findAll fs stop
  | _ => []
termination_by c.rest.length
decreasing_by exact _shorter

end Formatters

end Gamebook
