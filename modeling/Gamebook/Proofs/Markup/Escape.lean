/-
**Text stays text in HTML.**

Whatever an author writes gets into HTML as text between tags or as the value of an attribute, and
it is escaped there, once.  So the tags can be taken out again without a look at what they mean, and
what is left is the text, once its entities are decoded; and a quotation mark only ever stands at an
end of the value of an attribute.  Two things are written as they are: the names of attributes and
markup that the author wrote out in HTML.

Main definitions:

* `Html.strip`, `Html.decode` — taking out the tags, and decoding the entities;
* `Html.Quotes` — all quotation marks of a text enclose the values of attributes;
* `Html.attributes`, `Node.attributes` — the attributes that are written;
* `Node.Escapes`, `Node.AllEscape` — nodes of which everything is escaped but the names of
  attributes, and these do not need to be.

Main results:

* `Html.decode_escape` — **decoding undoes escaping**;
* `Html.opening_eq` — an opening tag with its attributes;
* `Html.strip_ofNodes` — what is left without the tags is the text, escaped;
* `Html.quotes_ofNodes` — quotation marks enclose values;
* `Node.toHtml_escapes` — **text stays text**.
-/

import Gamebook.Markup.Html
import Gamebook.Proofs.Markup.Shape

set_option relaxedAutoImplicit false
set_option autoImplicit false

namespace Gamebook

namespace Html

variable {w rest : List Char} {attrs : List (String × String)} {c d : Char}

/-! ### Reading HTML back -/

/-- What is left of a text without its stretches from a `<` to the next `>`, if all of them have an
end.  `inside` tells whether the text begins in such a stretch. -/
def strip : (inside : Bool) → List Char → Option (List Char)
  | false, [] => some []
  | true, [] => none
  | false, c :: rest => if c = '<' then strip true rest else (strip false rest).map (c :: ·)
  | true, c :: rest => strip (c != '>') rest

/-- A text with the entities for `&`, `<`, `>` and `"` decoded. -/
def decode : List Char → List Char
  | '&' :: 'a' :: 'm' :: 'p' :: ';' :: rest => '&' :: decode rest
  | '&' :: 'l' :: 't' :: ';' :: rest => '<' :: decode rest
  | '&' :: 'g' :: 't' :: ';' :: rest => '>' :: decode rest
  | '&' :: 'q' :: 'u' :: 'o' :: 't' :: ';' :: rest => '"' :: decode rest
  | c :: rest => c :: decode rest
  | [] => []

/-- The quotation marks of a text stand at the two ends of the values of these attributes, each
behind the name of its attribute, and nowhere else. -/
inductive Quotes : List (String × String) → List Char → Prop
  | plain {text : List Char} (h : '"' ∉ text) : Quotes [] text
  | attr {before written rest : List Char} {name value : String} {attrs : List (String × String)}
      (hbefore : '"' ∉ before ++ ' ' :: (name.toList ++ ['='])) (hwritten : '"' ∉ written)
      (hvalue : decode written = value.toList) (hrest : Quotes attrs rest) :
      Quotes ((name, value) :: attrs)
        (before ++ ' ' :: (name.toList ++ ['=']) ++ '"' :: (written ++ '"' :: rest))

/-! ### Escaped text -/

/-- The characters that are escaped, and what they are escaped as. -/
def entities : List (Char × List Char) :=
  [('&', ['&', 'a', 'm', 'p', ';']), ('<', ['&', 'l', 't', ';']), ('>', ['&', 'g', 't', ';']),
    ('"', ['&', 'q', 'u', 'o', 't', ';'])]

theorem escapeChar_cases (c : Char) :
    (c, escapeChar c) ∈ entities ∨
      (c ≠ '&' ∧ c ≠ '<' ∧ c ≠ '>' ∧ c ≠ '"') ∧ escapeChar c = [c] := by
  by_cases hc : c = '&' ∨ c = '<' ∨ c = '>' ∨ c = '"'
  · left
    rcases hc with rfl | rfl | rfl | rfl <;> decide
  · simp only [not_or] at hc
    obtain ⟨hamp, hlt, hgt, hquot⟩ := hc
    exact .inr ⟨⟨hamp, hlt, hgt, hquot⟩, by simp [escapeChar, hamp, hlt, hgt, hquot]⟩

/-- What is escaped can neither begin a tag, nor end one or the value of an attribute. -/
theorem ne_of_mem_escape {s : String} (h : c ∈ escape s) : c ≠ '<' ∧ c ≠ '>' ∧ c ≠ '"' := by
  have hentities : entities.all (·.2.all fun c => c ≠ '<' ∧ c ≠ '>' ∧ c ≠ '"') = true := by decide
  obtain ⟨d, -, hd⟩ := List.mem_flatMap.1 h
  rcases escapeChar_cases d with hentity | ⟨⟨-, hd'⟩, hplain⟩
  · exact of_decide_eq_true (List.all_eq_true.1 (List.all_eq_true.1 hentities _ hentity) c hd)
  · rw [hplain] at hd
    rw [List.mem_singleton.1 hd]
    exact hd'

theorem escape_append (s t : String) : escape (s ++ t) = escape s ++ escape t := by
  rw [escape, String.toList_append, List.flatMap_append]
  rfl

theorem decode_cons (h : c ≠ '&') (rest : List Char) : decode (c :: rest) = c :: decode rest := by
  rw [decode]
  all_goals
    rintro rest' rfl
    exact absurd rfl h

theorem decode_escapeChar (c : Char) (rest : List Char) :
    decode (escapeChar c ++ rest) = c :: decode rest := by
  rcases escapeChar_cases c with hentity | ⟨⟨hamp, -⟩, hplain⟩
  · have hall : ∀ e ∈ entities, decode (e.2 ++ rest) = e.1 :: decode rest := by
      simp [entities, decode]
    exact hall _ hentity
  · rw [hplain]
    exact decode_cons hamp rest

/-- **Decoding undoes escaping.** -/
theorem decode_escape (s : String) : decode (escape s) = s.toList := by
  rw [escape]
  induction s.toList with
  | nil => rfl
  | cons c text ih => rw [List.flatMap_cons, decode_escapeChar, ih]

/-! ### Tags -/

/-- Text without the beginning of a tag stays. -/
theorem strip_text (h : '<' ∉ w) (rest : List Char) :
    strip false (w ++ rest) = (strip false rest).map (w ++ ·) := by
  induction w with
  | nil => simp
  | cons c w ih =>
      obtain ⟨hc, hw⟩ := not_or.1 (List.mem_cons.not.1 h)
      rw [List.cons_append, strip, if_neg (Ne.symm hc), ih hw, Option.map_map]
      rfl

/-- A tag is left out. -/
theorem strip_tag (h : '>' ∉ w) (rest : List Char) :
    strip false ('<' :: (w ++ '>' :: rest)) = strip false rest := by
  have hinside : strip true (w ++ '>' :: rest) = strip false rest := by
    induction w with
    | nil => rfl
    | cons c w ih =>
        obtain ⟨hc, hw⟩ := not_or.1 (List.mem_cons.not.1 h)
        rw [List.cons_append, strip, bne_iff_ne.2 (Ne.symm hc), ih hw]
  rw [strip, if_pos rfl, hinside]

namespace Quotes

/-- Text without quotation marks changes nothing. -/
theorem text (h : Quotes attrs rest) (hw : '"' ∉ w) : Quotes attrs (w ++ rest) := by
  cases h with
  | plain hrest => exact .plain (by simp [hw, hrest])
  | @attr before written rest name value attrs hbefore hwritten hvalue hrest =>
      have hmore : '"' ∉ (w ++ before) ++ ' ' :: (name.toList ++ ['=']) := by
        rw [List.append_assoc]
        exact fun hin => (List.mem_append.1 hin).elim hw hbefore
      simpa [List.append_assoc] using Quotes.attr hmore hwritten hvalue hrest

/-- An attribute that is written. -/
theorem writeAttr (h : Quotes attrs rest) {name : String} (hname : '"' ∉ name.toList)
    (value : String) : Quotes ((name, value) :: attrs) (writeAttr name value ++ rest) := by
  have hbefore : '"' ∉ [] ++ ' ' :: (name.toList ++ ['=']) := by simp [hname]
  have hwritten : '"' ∉ escape value := fun hin => (ne_of_mem_escape hin).2.2 rfl
  simpa [Html.writeAttr] using Quotes.attr hbefore hwritten (decode_escape value) h

end Quotes

/-! ### Opening tags -/

/-- The attributes of a link. -/
def linkPairs : Link → List (String × String)
  | .external url => [("href", url), ("target", "_blank")]
  | target => [("href", target.href)]

/-- The attributes that an element is written with. -/
def attributes (e : Element) : List (String × String) :=
  (e.target?.map linkPairs).getD [] ++ (e.class?.map fun c => ("class", c)).toList ++ e.attrs ++
    if e.styles.isEmpty then [] else [("style", styleValue e.styles)]

/-- Attributes in an opening tag. -/
def writeAttrs (attrs : List (String × String)) : List Char :=
  attrs.flatMap fun (name, value) => writeAttr name value

theorem linkAttributes_eq (e : Element) :
    linkAttributes e.tag = writeAttrs ((e.target?.map linkPairs).getD []) := by
  rw [Element.target?]
  cases e.tag with
  | link target => cases target <;> simp [linkAttributes, linkPairs, writeAttrs, Link.href]
  | _ => rfl

/-- **An opening tag** has the name of the element and its attributes. -/
theorem opening_eq (e : Element) :
    opening e = '<' :: (e.tag.htmlName.toList ++ writeAttrs (attributes e) ++ ['>']) := by
  have hstyle : (if e.styles.isEmpty then [] else writeAttr "style" (styleValue e.styles)) =
      writeAttrs (if e.styles.isEmpty then [] else [("style", styleValue e.styles)]) := by
    split <;> simp [writeAttrs]
  simp only [opening, hstyle, linkAttributes_eq, attributes, writeAttrs, List.flatMap_append,
    List.append_assoc]
  cases e.class? with
  | none => rfl
  | some c => simp

/-- What is written as it is inside a tag: it neither ends the tag nor the value of an attribute. -/
structure Fenced (w : List Char) : Prop where
  tag : '>' ∉ w
  quote : '"' ∉ w

instance (w : List Char) : Decidable (Fenced w) :=
  decidable_of_iff ('>' ∉ w ∧ '"' ∉ w) ⟨fun h => ⟨h.1, h.2⟩, fun h => ⟨h.tag, h.quote⟩⟩

theorem Fenced.append {v : List Char} (hw : Fenced w) (hv : Fenced v) : Fenced (w ++ v) :=
  ⟨List.not_mem_append hw.tag hv.tag, List.not_mem_append hw.quote hv.quote⟩

theorem fenced_digits (n : Nat) : Fenced (toString n).toList := by
  have hdigits : (toString n).toList = Nat.toDigits 10 n := Nat.toList_repr
  have hne : ∀ c : Char, c.isDigit = false → c ∉ (toString n).toList := by
    intro c hc hin
    rw [hdigits] at hin
    rw [Nat.isDigit_of_mem_toDigits (by decide) (by decide) hin] at hc
    cases hc
  exact ⟨hne _ rfl, hne _ rfl⟩

theorem fenced_htmlName (tag : Tag) : Fenced tag.htmlName.toList := by
  cases tag with
  | heading level =>
      rw [Tag.htmlName, String.toList_append]
      exact Fenced.append (by decide) (fenced_digits level)
  | link target => exact (by decide : Fenced "a".toList)
  | _ => decide

end Html

/-! ### Nodes -/

/-- All but the names of its attributes is escaped where the element is written, and these do not
need to be; and all its children are written. -/
structure Element.Escapes (e : Element) (children : List Node) : Prop where
  void : e.tag.isVoid = true → children = []
  names : ∀ attr ∈ e.attrs, Html.Fenced attr.1.toList

namespace Node

mutual

/-- A node of which everything is escaped but the names of attributes, which do not need to be. -/
def Escapes : Node → Prop
  | text _ => True
  | html _ => False
  | element e children => e.Escapes children ∧ AllEscape children

/-- A list of such nodes. -/
def AllEscape : List Node → Prop
  | [] => True
  | node :: nodes => Escapes node ∧ AllEscape nodes

end

/-- The attributes that some nodes are written with, in reading order. -/
def attributes (nodes : List Node) : List (String × String) :=
  (elements nodes).flatMap fun (e, _) => Html.attributes e

end Node

namespace Html

variable {e : Element} {children : List Node} {rest : List Char} {attrs : List (String × String)}

theorem fenced_linkPairs (target : Link) : ∀ attr ∈ linkPairs target, Fenced attr.1.toList := by
  have hnames : ∀ attr ∈ linkPairs target, attr.1 ∈ ["href", "target"] := by
    cases target <;> simp [linkPairs]
  exact fun attr hin =>
    (by decide : ∀ name ∈ ["href", "target"], Fenced name.toList) _ (hnames attr hin)

theorem fenced_attributes (h : e.Escapes children) :
    ∀ attr ∈ attributes e, Fenced attr.1.toList := by
  intro attr hin
  simp only [attributes, List.mem_append] at hin
  rcases hin with ((hlink | hclass) | hattr) | hstyle
  · cases htarget : e.target? with
    | none => simp [htarget] at hlink
    | some target =>
        rw [htarget] at hlink
        exact fenced_linkPairs target attr hlink
  · obtain ⟨c, -, rfl⟩ := Option.map_eq_some_iff.1 (Option.mem_toList.1 hclass)
    exact (by decide : Fenced "class".toList)
  · exact h.names attr hattr
  · split at hstyle
    · cases hstyle
    · rw [List.mem_singleton.1 hstyle]
      exact (by decide : Fenced "style".toList)

theorem notMem_writeAttrs (h : ∀ attr ∈ attrs, Fenced attr.1.toList) :
    '>' ∉ writeAttrs attrs := by
  intro hin
  obtain ⟨attr, hattr, hwritten⟩ := List.mem_flatMap.1 hin
  have hvalue : '>' ∉ escape attr.2 := fun hin => (ne_of_mem_escape hin).2.1 rfl
  simp [writeAttr, (h attr hattr).tag, hvalue] at hwritten

/-! ### Without the tags -/

theorem strip_opening (h : e.Escapes children) (rest : List Char) :
    strip false (opening e ++ rest) = strip false rest := by
  have hinside : '>' ∉ e.tag.htmlName.toList ++ writeAttrs (attributes e) :=
    List.not_mem_append (fenced_htmlName e.tag).tag (notMem_writeAttrs (fenced_attributes h))
  rw [opening_eq, List.cons_append, List.append_assoc _ ['>'], List.singleton_append,
    strip_tag hinside]

theorem strip_closing (e : Element) (rest : List Char) :
    strip false (closing e ++ rest) = strip false rest := by
  have hname : '>' ∉ '/' :: e.tag.htmlName.toList := by
    simp [(fenced_htmlName e.tag).tag]
  have hclosing : closing e ++ rest = '<' :: ('/' :: e.tag.htmlName.toList ++ '>' :: rest) := by
    simp [closing]
  rw [hclosing, strip_tag hname]

mutual

/-- **What is left of a node** without its tags is its text, escaped. -/
theorem strip_ofNode (node : Node) (h : node.Escapes) (rest : List Char) :
    strip false (ofNode node ++ rest) =
      (strip false rest).map (escape (Node.textOf node) ++ ·) := by
  cases node with
  | text s => exact strip_text (fun hin => (ne_of_mem_escape hin).1 rfl) rest
  | html s => exact h.elim
  | element e children =>
      obtain ⟨he, hchildren⟩ := h
      rw [ofNode]
      split
      · rename_i hvoid
        rw [strip_opening he, he.void hvoid]
        simp [Node.textOf, Node.textContent, escape]
      · rw [List.append_assoc, List.append_assoc, strip_opening he,
          strip_ofNodes children hchildren, strip_closing]
        rfl

/-- **What is left of some nodes** without their tags is their text, escaped. -/
theorem strip_ofNodes (nodes : List Node) (h : Node.AllEscape nodes) (rest : List Char) :
    strip false (ofNodes nodes ++ rest) =
      (strip false rest).map (escape (Node.textContent nodes) ++ ·) := by
  cases nodes with
  | nil => simp [ofNodes, Node.textContent, escape]
  | cons node nodes =>
      rw [ofNodes, List.append_assoc, strip_ofNode node h.1, strip_ofNodes nodes h.2,
        Node.textContent, escape_append, Option.map_map]
      congr 1
      funext more
      simp

end

/-! ### Quotation marks -/

theorem Quotes.writeAttrs (h : Quotes attrs rest) {pairs : List (String × String)}
    (hpairs : ∀ attr ∈ pairs, Fenced attr.1.toList) :
    Quotes (pairs ++ attrs) (writeAttrs pairs ++ rest) := by
  induction pairs with
  | nil => exact h
  | cons attr pairs ih =>
      obtain ⟨hattr, hpairs⟩ := List.forall_mem_cons.1 hpairs
      have hwritten := (ih hpairs).writeAttr hattr.quote attr.2
      simpa [Html.writeAttrs] using hwritten

theorem quotes_opening (h : Quotes attrs rest) (he : e.Escapes children) :
    Quotes (attributes e ++ attrs) (opening e ++ rest) := by
  have hbehind : Quotes attrs (['>'] ++ rest) := h.text (by decide)
  have hname : '"' ∉ '<' :: e.tag.htmlName.toList := by
    simp [(fenced_htmlName e.tag).quote]
  have htag := (hbehind.writeAttrs (fenced_attributes he)).text hname
  rw [opening_eq]
  simpa using htag

theorem quotes_closing (h : Quotes attrs rest) (e : Element) :
    Quotes attrs (closing e ++ rest) := by
  refine h.text ?_
  simp [closing, (fenced_htmlName e.tag).quote]

mutual

theorem quotes_ofNode (node : Node) (hnode : node.Escapes) {attrs : List (String × String)}
    {rest : List Char} (h : Quotes attrs rest) :
    Quotes ((Node.elementsOf node).flatMap (fun (e, _) => attributes e) ++ attrs)
      (ofNode node ++ rest) := by
  cases node with
  | text s => exact h.text fun hin => (ne_of_mem_escape hin).2.2 rfl
  | html s => exact hnode.elim
  | element e children =>
      obtain ⟨he, hchildren⟩ := hnode
      have hinside := quotes_ofNodes children hchildren (quotes_closing h e)
      rw [ofNode, Node.elementsOf, List.flatMap_cons, List.append_assoc]
      by_cases hvoid : e.tag.isVoid = true
      · rw [if_pos hvoid, he.void hvoid]
        exact quotes_opening h he
      · rw [if_neg hvoid, List.append_assoc, List.append_assoc]
        exact quotes_opening hinside he

/-- **Quotation marks enclose the values of attributes**, and stand nowhere else. -/
theorem quotes_ofNodes (nodes : List Node) (hnodes : Node.AllEscape nodes)
    {attrs : List (String × String)} {rest : List Char} (h : Quotes attrs rest) :
    Quotes (Node.attributes nodes ++ attrs) (ofNodes nodes ++ rest) := by
  cases nodes with
  | nil => exact h
  | cons node nodes =>
      have hbehind := quotes_ofNodes nodes hnodes.2 h
      rw [ofNodes, Node.attributes, Node.elements, List.flatMap_append, List.append_assoc,
        List.append_assoc (ofNode node)]
      exact quotes_ofNode node hnodes.1 hbehind

end

end Html

/-- **Text stays text in HTML.**  Without its tags, each of which has an end, and with the entities
decoded, HTML is what the nodes say; and its quotation marks are the two ends of the values of the
attributes that are written. -/
theorem Node.toHtml_escapes (nodes : List Node) (h : AllEscape nodes) :
    (Html.strip false (toHtml nodes).toList).map Html.decode = some (textContent nodes).toList ∧
      Html.Quotes (attributes nodes) (toHtml nodes).toList := by
  have hstrip := Html.strip_ofNodes nodes h []
  have hquotes := Html.quotes_ofNodes nodes h (.plain List.not_mem_nil)
  rw [List.append_nil] at hstrip hquotes
  rw [List.append_nil] at hquotes
  rw [toHtml, String.toList_ofList]
  refine ⟨?_, hquotes⟩
  rw [hstrip, Html.strip, Option.map_some, Option.map_some, List.append_nil, Html.decode_escape]

/-- A text, a link with attributes, and a line break, with much that has a meaning in HTML. -/
def Node.awkward : List Node :=
  [.text "1 < 2 &lt; \"3\" &",
    .element
      { tag := .link (.external "?a=\"<b>\"&c")
        class? := some "\">"
        attrs := [("a<b", "&quot;")]
        styles := [("color\"", "<red>")] }
      [.text "</a>"],
    .element { tag := .lineBreak } []]

/-- All of it is read back. -/
theorem Node.toHtml_escapes_awkward :
    AllEscape awkward ∧
      (Html.strip false (toHtml awkward).toList).map Html.decode =
        some "1 < 2 &lt; \"3\" &</a>".toList ∧
      Html.Quotes [("href", "?a=\"<b>\"&c"), ("target", "_blank"), ("class", "\">"),
        ("a<b", "&quot;"), ("style", "color\": <red>")] (toHtml awkward).toList := by
  have hescape : AllEscape awkward :=
    ⟨trivial, ⟨⟨nofun, by decide⟩, trivial, trivial⟩, ⟨⟨fun _ => rfl, nofun⟩, trivial⟩, trivial⟩
  obtain ⟨htext, hquotes⟩ := toHtml_escapes awkward hescape
  have hcontent : textContent awkward = "1 < 2 &lt; \"3\" &</a>" := by decide +kernel
  have hattributes : attributes awkward = [("href", "?a=\"<b>\"&c"), ("target", "_blank"),
      ("class", "\">"), ("a<b", "&quot;"), ("style", "color\": <red>")] := by decide +kernel
  rw [hcontent] at htext
  rw [hattributes] at hquotes
  exact ⟨hescape, htext, hquotes⟩

end Gamebook
