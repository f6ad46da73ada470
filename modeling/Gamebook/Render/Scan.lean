/-
**Rendering.**

To render a text, a scanner goes from mark to mark.  What stands before a mark is plain text; at
the mark itself its formatter takes over, and scanning goes on from where it has left the cursor,
but at least behind the mark.  Formatters and macros render what lies inside them one level further
in, and there is a limit to the number of levels.  So rendering always ends: on one level the text
that is left gets shorter, and inside a level there are fewer levels left.

Main definitions:

* `Kit` — the tables and the setting of a render;
* `Kit.run` — scanning on one level;
* `Kit.bottom`, `Kit.context` — what is at hand with no levels left, and with so many;
* `Kit.render` — rendering a text.
-/

import Gamebook.Render.Rule

set_option relaxedAutoImplicit false
set_option autoImplicit false

namespace Gamebook

/-- The tables and the setting of a render. -/
structure Kit where
  formatters : Formatters
  macros : Macros
  setting : Setting

namespace Kit

/-- The scanner behind a mark after its formatter.  A formatter that declines leaves the mark as
plain text, and one that does not move the cursor on is taken to end with its mark. -/
def handled (kit : Kit) (ctx : Context) (f : Formatter) (atMark : Scanner) : Scanner :=
  match f.handle kit.macros ctx atMark with
  | none => atMark.say atMark.found
  | some s =>
      if s.cursor.rest.length < atMark.foundAt.rest.length then s
      -- a cursor at the mark or before it would find the same mark for ever
      else { s with cursor := atMark.cursor }

/-- Scans on one level, up to the mark `stop` or to the end of the text. -/
def run (kit : Kit) (ctx : Context) (stop : Option Pattern) (s : Scanner) : Scanner :=
  match h : kit.formatters.next? stop s.cursor.previous s.cursor.rest with
  | none => s.finish
  | some (skipped, .stop length) => s.find skipped length
  | some (skipped, .rule index f length) =>
      -- the text falls at every mark, wherever the formatter has put the cursor
      have hd := Formatters.length_drop_lt _ _ _ _ _ _ h
      have : (kit.handled ctx f (s.find skipped length)).cursor.rest.length <
          s.cursor.rest.length := by
        have hm : (s.find skipped length).cursor.rest.length < s.cursor.rest.length := by
          simpa [Scanner.find, Hit.length] using hd
        unfold handled
        split
        · exact hm
        · split
          · rename_i hlt
            refine Nat.lt_of_lt_of_le hlt ?_
            simp [Scanner.find]
          · exact hm
      run kit ctx stop (kit.handled ctx f (s.find skipped length))
termination_by s.cursor.rest.length

/-- The message where renders lie too deep inside one another. -/
def tooDeep (kit : Kit) : MacroError := .tooDeep kit.setting.config.maxDepth

/-- What is at hand with no levels left: a text that would be gone on with is passed over and an
error shown in its place. -/
def bottom (kit : Kit) : Context where
  setting := kit.setting
  scan _ s := (s.emit (Node.error kit.tooDeep.message)).toEnd
  render _ _ _ := .error kit.tooDeep

/-- What is at hand with so many levels left above those that `deepest` stands for. -/
def contextOver (kit : Kit) (deepest : Context) : Nat → Context
  | 0 => deepest
  | left + 1 =>
      { setting := kit.setting
        scan := fun stop s => (kit.run (kit.contextOver deepest left) stop s.enter).leave
        render := fun text nodes page =>
          let s := kit.run (kit.contextOver deepest left) none (Scanner.start text nodes page.enter)
          .ok (s.nodes, s.page.leave) }

/-- What is at hand with so many levels left. -/
def context (kit : Kit) (left : Nat) : Context := kit.contextOver kit.bottom left

/-- Renders a text in a context; if that cannot even start, an error is shown in its place. -/
def renderIn (ctx : Context) (text : List Char) (page : Page) : List Node × Page :=
  match ctx.render text [] page with
  | .ok (nodes, page) => (nodes.reverse, page)
  | .error e => ([Node.error e.message], page)

/-- Renders a text with all levels left. -/
def render (kit : Kit) (text : List Char) (page : Page) : List Node × Page :=
  renderIn (kit.context kit.setting.config.maxDepth) text page

end Kit

end Gamebook
