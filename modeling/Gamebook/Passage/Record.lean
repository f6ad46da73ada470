/-
**Records of passages.**

A loader hands over each passage as a record.  In the storage format of a tiddler the text has its
line breaks escaped and the tags stand in one string, a tag with blanks in it between double
brackets.

Main definitions:

* `Record`, `Record.ofTiddler` — a record, and the record of a tiddler;
* `Record.unescapeLines` — a stored text with its line breaks;
* `Record.readTags` — the tags that a string lists;
* `Record.ofJson?` — the record that a document stands for.
-/

import Gamebook.Json.Basic
import Gamebook.Text.Blank
import Gamebook.Text.Pieces

set_option relaxedAutoImplicit false
set_option autoImplicit false

namespace Gamebook

/-- A passage as a loader hands it over. -/
structure Record where
  title : String
  text : String
  tags : List String := []
  /-- The place of the passage in its document, which becomes its id. -/
  order : UInt32
  deriving DecidableEq, Repr

namespace Record

/-- A stored text with its line breaks: a backslash and an `n` stand for one, and carriage returns
are left out. -/
def unescapeLines : List Char → List Char
  | [] => []
  | '\\' :: 'n' :: rest => '\n' :: unescapeLines rest
  | c :: rest => if c = '\r' then unescapeLines rest else c :: unescapeLines rest

/-- Whether `c` can stand in a tag without brackets. -/
def isTagChar (c : Char) : Bool := !Text.isBlank c && c != '$'

/-- The tag that a text starts with and its length: one between double brackets, or a run of tag
characters. -/
def tag? (text : List Char) : Option (List Char × Nat) :=
  -- brackets that hold no tag are read as a bare one
  let bare := text.takeWhile isTagChar
  let bare? := if bare = [] then none else some (bare, bare.length)
  match text with
  | '[' :: '[' :: body =>
      let tag := body.takeWhile (· != ']')
      match body.dropWhile (· != ']') with
      | ']' :: ']' :: _ => if tag = [] then bare? else some (tag, tag.length + 4)
      | _ => bare?
  | _ => bare?

/-- The tags that a text lists. -/
def readTags (text : List Char) : List (List Char) := Text.collect tag? text

/-- The tags that a string lists. -/
def readTagList (text : String) : List String := (readTags text.toList).map String.ofList

/-- The record of a tiddler. -/
def ofTiddler (title text : String) (tags : Option String) (order : UInt32) : Record :=
  { title := title
    text := String.ofList (unescapeLines text.toList)
    tags := match tags with
      | some tags => readTagList tags
      | none => []
    order := order }

/-- The record that a document stands for. -/
def ofJson? (json : Json) : Option Record :=
  match json.fields? ["title", "text", "tags", "source_order"] with
  | some [some title, some text, tags, some order] => do
      let tags ← match tags with
        | some tags => tags.list? Json.str?
        | none => some []
      let order ← order.nat? UInt32.size
      return {
        title := ← title.str?
        text := ← text.str?
        tags := tags
        order := UInt32.ofNat order }
  | _ => none

end Record

end Gamebook
