/-
**Passages.**

A passage is a named unit of a story.  Its text may be changed while the story is read; the text
as it was loaded is kept beside it.

Main definitions:

* `Passage`, `Passage.ofRecord`, `Passage.missing` — a passage, that of a record, and the stand-in
  for a title that the story does not have;
* `Passage.setText`, `Passage.reset` — changing the text and undoing it.
-/

import Gamebook.Passage.Record

set_option relaxedAutoImplicit false
set_option autoImplicit false

namespace Gamebook

/-- A passage of a story. -/
structure Passage where
  title : String
  /-- The id; a stand-in has none. -/
  id : Option UInt32
  /-- The text as it was loaded. -/
  rawText : String
  text : String
  tags : List String
  deriving DecidableEq, Repr

namespace Passage

/-- The passage of a record.  A tag that is repeated counts once. -/
def ofRecord (record : Record) : Passage :=
  { title := record.title
    id := some record.order
    rawText := record.text
    text := record.text
    tags := record.tags.eraseDups }

/-- The stand-in for a title that the story does not have. -/
def missing (title placeholder : String) : Passage :=
  { title := title, id := none, rawText := placeholder, text := placeholder, tags := [] }

/-- Whether the passage is a stand-in. -/
def isMissing (p : Passage) : Bool := p.id.isNone

/-- Whether the passage has a tag. -/
def hasTag (p : Passage) (tag : String) : Bool := p.tags.contains tag

/-- Changes the text. -/
def setText (p : Passage) (text : String) : Passage := { p with text := text }

@[simp] theorem title_setText (p : Passage) (text : String) : (p.setText text).title = p.title := rfl

/-- Gives the passage the text that was loaded. -/
def reset (p : Passage) : Passage := { p with text := p.rawText }

/-- The name of the passage in a page: its title with underscores for spaces. -/
def domId (p : Passage) : String :=
  "passage" ++ String.ofList (p.title.toList.map fun c => if c = ' ' then '_' else c)

end Passage

end Gamebook
