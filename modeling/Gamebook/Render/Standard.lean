/-
**The standard formatters.**

Main definitions:

* `Store.linkTo`, `Store.linkAnywhere` — links to passages and to places outside the story;
* `Standard.fixed`, `Standard.wrap`, `Standard.whole` — a formatter that shows one node, one that
  encloses what it finds in an element, and one that reads a construct whole;
* `Formatters.standard` — the table of the standard formatters.
-/

import Gamebook.Macro.Params
import Gamebook.Markup.Construct
import Gamebook.Render.Nesting
import Gamebook.Render.Table

set_option relaxedAutoImplicit false
set_option autoImplicit false

namespace Gamebook

/-! ### Links -/

/-- The link to a passage, broken if there is none of that title. -/
def Store.linkTo (store : Store) (title : String) : Element :=
  .ofLink (.passage title (!store.has title))

/-- The link to a passage if there is one of that title, else to a place outside the story. -/
def Store.linkAnywhere (store : Store) (target : String) : Element :=
  if store.has target then store.linkTo target else .ofLink (.external target)

namespace Standard

/-! ### Kinds of formatters -/

/-- The formatter that shows a node in the place of its mark. -/
def fixed (name : String) (start : Pattern) (node : Node) : Formatter :=
  { name := name, start := start, handle := fun _ _ s => some (s.emit node) }

/-- The formatter that encloses what stands up to a closing mark in an element. -/
def wrap (name : String) (start stop : Pattern) (tag : Tag) : Formatter :=
  { name := name
    start := start
    handle := fun _ ctx s =>
      let (content, s) := ctx.scanInside stop [] s
      some (s.emit (.element { tag := tag } content.reverse)) }

/-- The formatter that reads a construct whole, from its mark on, and declines if there is none.
`build` makes of it the nodes that are shown. -/
def whole {α : Type} (name : String) (start : Pattern) (read? : List Char → Option (α × Nat))
    (build : Store → α → Option Node) : Formatter :=
  { name := name
    start := start
    handle := fun _ _ s =>
      (read? s.foundAt.rest).map fun (a, length) =>
        let s' := { s with cursor := s.foundAt.forward length }
        match build s.page.store a with
        | some node => s'.emit node
        | none => s' }

/-! ### Blocks -/

/-- Rules across the page. -/
def rule : Formatter := fixed "rule" Mark.rule (.element { tag := .rule } [])

/-- Headings, one level for each exclamation mark. -/
def heading : Formatter :=
  { name := "heading"
    start := Mark.heading
    handle := fun _ ctx s =>
      let level := s.found.length
      let (content, s) := ctx.scanInside Mark.newline [] s
      some (s.emit (.element { tag := .heading level } content.reverse)) }

/-- Preformatted lines. -/
def preformatted : Formatter :=
  whole "monospacedByLine" Mark.preformatted Construct.preformatted? fun _ text =>
    some (.element { tag := .preformatted } [.text (String.ofList text)])

/-- Preformatted lines whose marks stand behind slashes. -/
def slashedPreformatted : Formatter :=
  whole "monospacedByLineForPlugin" Mark.slashedPreformatted Construct.slashedPreformatted?
    fun _ text => some (.element { tag := .preformatted } [.text (String.ofList text)])

/-- Block comments, the text of which is rendered in place. -/
def comment : Formatter :=
  { name := "wikifyCommentForPlugin"
    start := Mark.comment
    handle := fun _ ctx s => some (ctx.scan (some Mark.commentEnd) s) }

/-- Blocks of quoted text. -/
def quoteBlock : Formatter := wrap "quoteByBlock" Mark.quoteBlock Mark.quoteBlock .blockQuote

/-! ### Links, images, macro calls and texts that are not looked into -/

/-- Links to passages and, if there is no such passage, to places outside the story. -/
def link : Formatter :=
  whole "prettyLink" Mark.link
    (fun text => (Construct.link? text).map fun (label, target?, n) => ((label, target?), n))
    fun store (label, target?) =>
      let label := String.ofList label
      let e := match target? with
        | none => store.linkTo label
        | some target => store.linkAnywhere (String.ofList target)
      some (.element e [.text label])

/-- Addresses of places outside the story. -/
def address : Formatter :=
  { name := "urlLink"
    start := Mark.address
    handle := fun _ _ s =>
      let url := String.ofList s.found
      some (s.emit (.element (.ofLink (.external url)) [.text url])) }

/-- The element of an image. -/
def imageElement (image : Construct.Image) : Element :=
  let e : Element := { tag := .image }
  let e := match image.side with
    | some .left => e.setAttr "align" "left"
    | some .right => e.setAttr "align" "right"
    | none => e
  let e := match image.title with
    | some title => e.setAttr "title" (String.ofList title)
    | none => e
  e.setAttr "src" (String.ofList image.source)

/-- Images. -/
def image : Formatter :=
  whole "image" Mark.image Construct.image? fun store image =>
    let node := Node.element (imageElement image) []
    match image.target with
    | some target => some (.element (store.linkAnywhere (String.ofList target)) [node])
    | none => some node

/-- Macro calls. -/
def call : Formatter :=
  { name := "macro"
    start := Mark.call
    handle := fun macros ctx s =>
      (Construct.call? s.foundAt.rest).map fun (c, length) =>
        macros.call ctx
          { name := String.ofList c.name
            arguments := c.arguments
            params := (Params.read c.arguments).map String.ofList }
          { s with cursor := s.foundAt.forward length } }

/-- Markup written out in HTML. -/
def html : Formatter :=
  whole "html" Mark.html (Construct.enclosed? 6 Mark.htmlEnd) fun _ text =>
    some (.element { tag := .span } [.html (String.ofList text)])

/-- Comments, of which nothing is shown. -/
def hidden : Formatter :=
  whole "commentByBlock" Mark.hidden (Construct.enclosed? 2 Mark.hiddenEnd) fun _ _ => none

/-! ### Formats of characters -/

/-- Dashes. -/
def dash : Formatter := fixed "emdash" Mark.dash (.element { tag := .span } [.text "\u2014"])

/-- Strong text. -/
def strong : Formatter := wrap "boldByChar" Mark.strong Mark.strong .strong

/-- Struck text. -/
def strike : Formatter := wrap "strikeByChar" Mark.strike Mark.strike .strike

/-- Underlined text. -/
def underline : Formatter := wrap "underlineByChar" Mark.underline Mark.underline .underline

/-- Emphasised text. -/
def emphasis : Formatter := wrap "italicByChar" Mark.emphasis Mark.emphasis .emphasis

/-- Subscripts. -/
def subscript : Formatter := wrap "subscriptByChar" Mark.subscript Mark.subscript .subscript

/-- Superscripts. -/
def superscript : Formatter :=
  wrap "superscriptByChar" Mark.superscript Mark.superscript .superscript

/-- Code. -/
def code : Formatter :=
  whole "monospacedByChar" Mark.code (Construct.enclosed? 3 Mark.codeEnd) fun _ text =>
    some (.element { tag := .code } [.text (String.ofList text)])

/-- Styled text; without any declaration it is marked out. -/
def styled : Formatter :=
  { name := "styleByChar"
    start := Mark.style
    handle := fun _ ctx s =>
      let (styles, length) := Style.declarations s.cursor.rest
      let e : Element :=
        if styles.isEmpty then { tag := .span, class? := some "marked" }
        else { tag := .span, styles := styles }
      let (content, s) := ctx.scanInside Mark.style [] (s.forward length)
      some (s.emit (.element e content.reverse)) }

/-- Line breaks. -/
def lineBreak : Formatter := fixed "lineBreak" Mark.newline (.element { tag := .lineBreak } [])

/-- All standard formatters, in order of precedence. -/
def inOrder : Formatters :=
  [Table.formatter, rule, dash, heading, preformatted, slashedPreformatted, comment, quoteBlock,
    Nesting.quotes, Nesting.lists, link, address, image, call, html, hidden, strong, strike,
    underline, emphasis, subscript, superscript, code, styled, lineBreak]

end Standard

/-- The standard formatters, in order of precedence. -/
def Formatters.standard : Formatters := Standard.inOrder

end Gamebook
