/-
**A story and its reading.**

A story holds its passages, the tables that render them, the history of the reading, the values
that outlive it, and the host.  Time is what the host says it is.

Main definitions:

* `Story`, `Story.new` — a story, and one of which nothing has been read;
* `Story.initialVariables`, `Story.resetHistory` — the start of a reading;
* `Story.render` — rendering a text at the current point of the reading.
-/

import Gamebook.Jar.Basic
import Gamebook.Macro.Standard
import Gamebook.Markup.Html
import Gamebook.Navigator
import Gamebook.Passage.Excerpt
import Gamebook.Render.Scan

set_option relaxedAutoImplicit false
set_option autoImplicit false

namespace Gamebook

/-- How a passage is shown. -/
inductive DisplayMode where
  | normal
  /-- Without effects. -/
  | quietly
  /-- Rendered for what its macros do, out of sight of the host. -/
  | offscreen
  deriving DecidableEq, Repr

/-- A passage as it was last rendered. -/
structure Rendered where
  title : String
  id : Option UInt32
  tags : List String
  nodes : List Node
  /-- The token that resumes the reading at this passage. -/
  token : String
  mode : DisplayMode

namespace Rendered

/-- What the passage says. -/
def text (r : Rendered) : String := Node.textContent r.nodes

/-- The passage as HTML. -/
def html (r : Rendered) : String := Node.toHtml r.nodes

/-- The links of the passage. -/
def links (r : Rendered) : List Link := Node.links r.nodes

end Rendered

/-- A story and its reading. -/
structure Story where
  store : Store
  history : History
  formatters : Formatters
  macros : Macros
  config : Config
  jar : Jar
  navigator : Navigator
  /-- The title of the story. -/
  title : String
  /-- What the keys of remembered values start with. -/
  keyStart : String
  /-- The address as the story last saw it. -/
  lastAddress : String := ""
  /-- The actions that the latest passage offered. -/
  offeredActions : List String := []
  /-- The passages that the latest passage linked to. -/
  offeredPassages : List String := []
  /-- The passage shown last. -/
  current : Option Rendered := none
  /-- The time of the host, in seconds. -/
  now : Nat

namespace Story

/-! ### The start of a reading -/

/-- The title of the passage that names the story. -/
def titlePassage : String := "StoryTitle"

/-- What macros may look at before the reading starts. -/
def prelude (s : Story) : Prelude :=
  { store := s.store, jar := s.jar, keyStart := s.keyStart, now := s.now }

/-- The variables that a reading starts with. -/
def initialVariables (s : Story) : Variables := s.macros.initialVariables s.prelude

/-- Starts the history over. -/
def resetHistory (s : Story) : Story :=
  { s with
    history := .start s.initialVariables
    offeredActions := []
    offeredPassages := [] }

/-- A story of which nothing has been read. -/
def new (store : Store) (config : Config) (jar : Jar) (navigator : Navigator) (now : Nat) : Story :=
  let name := (store.find? titlePassage).map Passage.text
  resetHistory
    { store := store.withMissingText config.missingText
      history := .start {}
      formatters := .standard
      macros := .standard
      config := config
      jar := jar
      navigator := navigator
      title := name.getD config.defaultTitle
      keyStart := (name.map (· ++ "_")).getD config.defaultKeyStart
      now := now }

/-- The story with other formatters. -/
def withFormatters (s : Story) (formatters : Formatters) : Story :=
  { s with formatters := formatters }

/-- The story with other macros, which take part in the start of the reading. -/
def withMacros (s : Story) (macros : Macros) : Story :=
  { s with macros := macros }.resetHistory

/-! ### Rendering -/

/-- The tables and the setting of a render at the current point of the reading. -/
def kit (s : Story) : Kit :=
  { formatters := s.formatters
    macros := s.macros
    setting := { config := s.config, keyStart := s.keyStart, now := s.now } }

/-- What a render at the current point of the reading may change. -/
def page (s : Story) : Page :=
  { store := s.store, history := s.history, jar := s.jar }

/-- The story with what a render has changed. -/
def withPage (s : Story) (page : Page) : Story :=
  { s with
    store := page.store
    history := page.history
    jar := page.jar }

/-- Renders a text at the current point of the reading: its nodes, the actions that it offers, and
the story afterwards. -/
def render (s : Story) (text : String) : List Node × List String × Story :=
  let (nodes, page) := s.kit.render text.toList s.page
  (nodes, page.offered, s.withPage page)

/-- Renders any text.  The history stays as it is, the variables of the current entry apart. -/
def renderSource (s : Story) (text : String) : List Node × Story :=
  let (nodes, _, s) := s.render text
  (nodes, s)

/-- Renders the passage of a title for a region of the page, or another text if there is none. -/
def pageElement (s : Story) (title default : String) : List Node × Story :=
  s.renderSource (((s.store.find? title).map Passage.text).getD default)

/-! ### Selected passages -/

/-- The texts of the style sheets, in the order of their titles. -/
def stylesheets (s : Story) : List String :=
  (s.store.select .tags "stylesheet" .title true).map Passage.text

/-- The titles of the scripts, in order.  They are never run. -/
def scripts (s : Story) : List String :=
  (s.store.select .tags "script" .title true).map Passage.title

/-- A passage of the reading to which the reader can return. -/
structure Bookmark where
  title : String
  excerpt : String
  token : String
  deriving DecidableEq, Repr

/-- The bookmark at an entry, if its passage has the tag for one. -/
def bookmark? (s : Story) (e : Entry) : Option Bookmark := do
  let p ← s.store.find? (← e.title)
  if p.hasTag "bookmark" then some ⟨p.title, p.excerpt, e.token⟩ else none

/-- The bookmarks of the reading, oldest first. -/
def bookmarks (s : Story) : List Bookmark := s.history.oldestFirst.filterMap s.bookmark?

end Story

end Gamebook
