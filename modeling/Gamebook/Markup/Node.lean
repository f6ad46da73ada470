/-
**The tree that a text renders to.**

A rendered text is a list of nodes: plain text, markup that the author wrote out in HTML, and
elements.  A host turns them into whatever display it has.

Main definitions:

* `Link`, `Tag`, `Node`, `Element` — the tree;
* `Element.setAttr`, `Element.attr?` — the attributes of an element;
* `Node.textContent`, `Node.links` — what a list of nodes says and where it leads;
* `Node.error` — the node that stands where something went wrong.
-/

set_option relaxedAutoImplicit false
set_option autoImplicit false

namespace Gamebook

/-- Where a link leads. -/
inductive Link where
  /-- A passage; the link is broken if there was none of that title. -/
  | passage (title : String) (broken : Bool)
  /-- A place outside the story. -/
  | external (url : String)
  /-- An earlier point of the reading. -/
  | back (token : String)
  /-- A passage that is offered until the link has been followed. -/
  | action (title : String) (broken : Bool)
  deriving DecidableEq, Repr

/-- The class that tells a reader what kind of link this is. -/
def Link.class : Link → String
  | passage _ broken => if broken then "brokenLink" else "internalLink"
  | action _ broken => if broken then "brokenLink" else "internalLink"
  | external _ => "externalLink"
  | back _ => "back"

/-- The kind of an element. -/
inductive Tag where
  | table
  | caption
  | tableHead
  | tableBody
  | tableFoot
  | row
  | cell
  | headerCell
  | rule
  | heading (level : Nat)
  | preformatted
  | code
  | blockQuote
  | unorderedList
  | orderedList
  | listItem
  | strong
  | emphasis
  | underline
  | strike
  | subscript
  | superscript
  | span
  | lineBreak
  | image
  | link (target : Link)
  deriving DecidableEq, Repr

/-- What an element carries besides its children. -/
structure Element where
  tag : Tag
  class? : Option String := none
  /-- The attributes, in the order in which they were first set. -/
  attrs : List (String × String) := []
  /-- Style declarations: properties and their values. -/
  styles : List (String × String) := []
  deriving DecidableEq, Repr

/-- A node of the tree. -/
inductive Node where
  | text (s : String)
  /-- Markup written out by the author. -/
  | html (s : String)
  | element (e : Element) (children : List Node)

instance : Inhabited Node := ⟨.text ""⟩

/-! ### Building elements -/

namespace Element

/-- The link to a target, with its class. -/
def ofLink (target : Link) : Element := { tag := .link target, class? := some target.class }

/-- A list of named values with the value of `name` set. -/
def putAttr (name value : String) : List (String × String) → List (String × String)
  | [] => [(name, value)]
  | attr :: attrs =>
      if attr.1 = name then (name, value) :: attrs else attr :: putAttr name value attrs

/-- Sets an attribute, in the place of an earlier value. -/
def setAttr (e : Element) (name value : String) : Element :=
  { e with attrs := putAttr name value e.attrs }

/-- The value of an attribute. -/
def attr? (e : Element) (name : String) : Option String :=
  (e.attrs.find? fun attr => attr.1 == name).map Prod.snd

/-- Where the element leads, if it is a link. -/
def target? (e : Element) : Option Link :=
  match e.tag with
  | .link target => some target
  | _ => none

end Element

namespace Node

/-- A piece of text marked out for the reader. -/
def marked (s : String) : Node :=
  .element { tag := .span, class? := some "marked" } [.text s]

/-- What stands where something went wrong. -/
def error (message : String) : Node := .element { tag := .strong } [marked message]

/-! ### What nodes say and where they lead -/

mutual

/-- The text of a node, without its markup. -/
def textOf : Node → String
  | text s => s
  | html s => s
  | element _ children => textContent children

/-- The text of a list of nodes, without its markup. -/
def textContent : List Node → String
  | [] => ""
  | node :: nodes => textOf node ++ textContent nodes

end

mutual

/-- The links of a node, itself before its children. -/
def linksOf : Node → List Link
  | text _ => []
  | html _ => []
  | element e children => e.target?.toList ++ links children

/-- All links of a list of nodes, in reading order. -/
def links : List Node → List Link
  | [] => []
  | node :: nodes => linksOf node ++ links nodes

end

/-- The titles of the passages that a list of nodes links to. -/
def passageTitles (nodes : List Node) : List String :=
  (links nodes).filterMap fun
    | .passage title _ => some title
    | _ => none

end Node

end Gamebook
