/-
**Rendered trees as JSON documents.**

A host that draws the tree elsewhere is handed it as a document.  A kind that carries something is
an object with one member, whose name is the kind; a kind that carries nothing is a string.

Main definitions:

* `Link.toJson`, `Link.ofJson?` — links;
* `Tag.toJson`, `Tag.ofJson?` — kinds of elements;
* `Node.toJson`, `Node.ofJson?`, `Node.listOfJson?` — nodes.
-/

import Gamebook.Json.Basic
import Gamebook.Markup.Node

set_option relaxedAutoImplicit false
set_option autoImplicit false

namespace Gamebook

/-! ### Links -/

namespace Link

/-- The document of a link. -/
def toJson : Link → Json
  | passage title broken =>
      .obj [("Passage", .obj [("title", .str title), ("broken", .bool broken)])]
  | external url => .obj [("External", .obj [("url", .str url)])]
  | back token => .obj [("Back", .obj [("token", .str token)])]
  | action title broken => .obj [("Action", .obj [("title", .str title), ("broken", .bool broken)])]

/-- The link that a document stands for. -/
def ofJson? : Json → Option Link
  | .obj [(kind, content)] =>
      match kind with
      | "Passage" => do
          return passage (← (← content.get? "title").str?) (← (← content.get? "broken").bool?)
      | "External" => do return external (← (← content.get? "url").str?)
      | "Back" => do return back (← (← content.get? "token").str?)
      | "Action" => do
          return action (← (← content.get? "title").str?) (← (← content.get? "broken").bool?)
      | _ => none
  | _ => none

end Link

/-! ### Elements -/

namespace Tag

/-- The kinds of elements that carry nothing, by their names in documents. -/
def plain : List (String × Tag) :=
  [("Table", table), ("Caption", caption), ("TableHead", tableHead), ("TableBody", tableBody),
    ("TableFoot", tableFoot), ("Row", row), ("Cell", cell), ("HeaderCell", headerCell),
    ("Rule", rule), ("Preformatted", preformatted), ("Code", code), ("BlockQuote", blockQuote),
    ("UnorderedList", unorderedList), ("OrderedList", orderedList), ("ListItem", listItem),
    ("Strong", strong), ("Emphasis", emphasis), ("Underline", underline), ("Strike", strike),
    ("Subscript", subscript), ("Superscript", superscript), ("Span", span),
    ("LineBreak", lineBreak), ("Image", image)]

/-- The document of a kind of element. -/
def toJson : Tag → Json
  | heading level => .obj [("Heading", .ofNat level)]
  | link target => .obj [("Link", target.toJson)]
  | tag => .str (((plain.find? fun entry => entry.2 == tag).map Prod.fst).getD "")

/-- The kind of element that a document stands for; the level of a heading is below 256. -/
def ofJson? : Json → Option Tag
  | .str name => plain.lookup name
  | .obj [("Heading", level)] => (level.nat? 256).map heading
  | .obj [("Link", target)] => (Link.ofJson? target).map link
  | _ => none

end Tag

namespace Element

/-- The document of a list of named values. -/
def pairsToJson (pairs : List (String × String)) : Json :=
  .arr (pairs.map fun (name, value) => .arr [.str name, .str value])

/-- The named value that a document stands for. -/
def pairOfJson? : Json → Option (String × String)
  | .arr [.str name, .str value] => some (name, value)
  | _ => none

/-- The document of an element around that of its children. -/
def toJson (e : Element) (children : Json) : Json :=
  .obj [("tag", e.tag.toJson),
    ("class", match e.class? with
      | some c => .str c
      | none => .null),
    ("attrs", pairsToJson e.attrs), ("styles", pairsToJson e.styles), ("children", children)]

/-- The element that a document stands for, without its children. -/
def ofJson? (json : Json) : Option Element := do
  let class? ← match ← json.get? "class" with
    | .null => some none
    | c => c.str?.map some
  return {
    tag := ← Tag.ofJson? (← json.get? "tag")
    class? := class?
    attrs := ← (← json.get? "attrs").list? pairOfJson?
    styles := ← (← json.get? "styles").list? pairOfJson? }

end Element

/-! ### Nodes -/

namespace Node

mutual

/-- The document of a node. -/
def toJson : Node → Json
  | text s => .obj [("Text", .str s)]
  | html s => .obj [("Html", .str s)]
  | element e children => .obj [("Element", e.toJson (.arr (listToJson children)))]

/-- The documents of a list of nodes. -/
def listToJson : List Node → List Json
  | [] => []
  | node :: nodes => toJson node :: listToJson nodes

end

mutual

/-- The node that a document stands for. -/
def ofJson? : Json → Option Node
  | .obj [("Text", .str s)] => some (text s)
  | .obj [("Html", .str s)] => some (html s)
  | .obj [("Element", .obj members)] =>
      match Element.ofJson? (.obj members), childrenOf? members with
      | some e, some children => some (element e children)
      | _, _ => none
  | _ => none

/-- The nodes that a list of documents stands for. -/
def ofItems? : List Json → Option (List Node)
  | [] => some []
  | item :: items =>
      match ofJson? item, ofItems? items with
      | some node, some nodes => some (node :: nodes)
      | _, _ => none

/-- The nodes that the last member named `children` stands for. -/
def childrenOf? : List (String × Json) → Option (List Node)
  | [] => none
  | (name, children) :: members =>
      if name = "children" ∧ (members.lookup "children").isNone then
        match children with
        | .arr items => ofItems? items
        | _ => none
      else childrenOf? members

end

/-- The nodes that a document stands for. -/
def listOfJson? : Json → Option (List Node)
  | .arr items => ofItems? items
  | _ => none

end Node

end Gamebook
