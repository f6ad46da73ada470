/-
**Writing nodes as HTML.**

Text is escaped, markup of the author is passed through, and an element is written with its class,
its attributes and its style.  Rules, line breaks and images have no closing tag.

Main definitions:

* `Html.escape` — a text between tags or in the value of an attribute;
* `Html.property` — the name of a style property as a style sheet has it;
* `Node.toHtml` — a list of nodes.
-/

import Gamebook.Markup.Node

set_option relaxedAutoImplicit false
set_option autoImplicit false

namespace Gamebook

/-- The name of an element in HTML. -/
def Tag.htmlName : Tag → String
  | table => "table"
  | caption => "caption"
  | tableHead => "thead"
  | tableBody => "tbody"
  | tableFoot => "tfoot"
  | row => "tr"
  | cell => "td"
  | headerCell => "th"
  | rule => "hr"
  | heading level => "h" ++ toString level
  | preformatted => "pre"
  | code => "code"
  | blockQuote => "blockquote"
  | unorderedList => "ul"
  | orderedList => "ol"
  | listItem => "li"
  | strong => "strong"
  | emphasis => "em"
  | underline => "u"
  | strike => "strike"
  | subscript => "sub"
  | superscript => "sup"
  | span => "span"
  | lineBreak => "br"
  | image => "img"
  | link _ => "a"

/-- Whether an element of this kind has no content and no closing tag. -/
def Tag.isVoid : Tag → Bool
  | rule => true
  | lineBreak => true
  | image => true
  | _ => false

/-- The address that a link carries. -/
def Link.href : Link → String
  | external url => url
  | back token => token
  | passage _ _ => "javascript:void(0)"
  | action _ _ => "javascript:void(0)"

namespace Html

/-- How one character stands between tags or in the value of an attribute. -/
def escapeChar (c : Char) : List Char :=
  if c = '&' then ['&', 'a', 'm', 'p', ';']
  else if c = '<' then ['&', 'l', 't', ';']
  else if c = '>' then ['&', 'g', 't', ';']
  else if c = '"' then ['&', 'q', 'u', 'o', 't', ';']
  else [c]

/-- A text between tags or in the value of an attribute. -/
def escape (s : String) : List Char := s.toList.flatMap escapeChar

/-- The name of a style property as a style sheet has it: a capital is a hyphen and a small
letter. -/
def property (name : String) : List Char :=
  name.toList.flatMap fun c => if c.isUpper then ['-', c.toLower] else [c]

/-- An attribute in an opening tag. -/
def writeAttr (name : String) (value : String) : List Char :=
  ' ' :: (name.toList ++ '=' :: '"' :: (escape value ++ ['"']))

/-- The value of the style attribute. -/
def styleValue (styles : List (String × String)) : String :=
  "; ".intercalate (styles.map fun (name, value) => String.ofList (property name) ++ ": " ++ value)

/-- The attributes that a link is written with. -/
def linkAttributes : Tag → List Char
  | .link target =>
      let newPage := match target with
        | .external _ => writeAttr "target" "_blank"
        | _ => []
      writeAttr "href" target.href ++ newPage
  | _ => []

/-- The opening tag of an element. -/
def opening (e : Element) : List Char :=
  let classAttribute := match e.class? with
    | some c => writeAttr "class" c
    | none => []
  let styleAttribute := if e.styles.isEmpty then [] else writeAttr "style" (styleValue e.styles)
  '<' :: (e.tag.htmlName.toList ++ linkAttributes e.tag ++ classAttribute ++
    (e.attrs.flatMap fun (name, value) => writeAttr name value) ++ styleAttribute ++ ['>'])

/-- The closing tag of an element. -/
def closing (e : Element) : List Char := '<' :: '/' :: (e.tag.htmlName.toList ++ ['>'])

mutual

/-- A node as HTML. -/
def ofNode : Node → List Char
  | .text s => escape s
  | .html s => s.toList
  | .element e children =>
      if e.tag.isVoid then opening e else opening e ++ ofNodes children ++ closing e

/-- A list of nodes as HTML. -/
def ofNodes : List Node → List Char
  | [] => []
  | node :: nodes => ofNode node ++ ofNodes nodes

end

end Html

/-- A list of nodes as HTML. -/
def Node.toHtml (nodes : List Node) : String := String.ofList (Html.ofNodes nodes)

end Gamebook
