/-
**Well-formed trees.**

What may stand in an element depends on its kind: some elements are empty, tables are made of
sections, rows and cells, lists of items and further lists, and all others hold text and whole
elements.  The order in which nodes stand matters only where text follows text, so a list of nodes
that is collected with the latest one first is well formed if and only if its reverse is.

Main definitions:

* `Tag.parts` — what tables, sections, rows and lists are made of;
* `Node.tag?`, `Node.elements` — the kind of a node, and all elements of some nodes;
* `Link.Honest` — a link that is broken if and only if there is no passage for it;
* `Node.Apart` — no text follows text;
* `Element.Fits`, `Node.Fits` — an element may have these children, all the way down;
* `Node.WellFormed` — nodes that may stand anywhere but in a list or in a table;
* `Node.Stands` — a node that may be put behind such nodes.

Main results:

* `Node.Fits.of_flow` — an element that holds text and elements fits around well-formed nodes;
* `Node.Fits.of_parts` — a table, a section, a row or a list fits around its parts;
* `Node.WellFormed.links_choices` — **the choices of well-formed nodes are their links**.
-/

import Mathlib.Data.List.Chain
import Gamebook.Player

set_option relaxedAutoImplicit false
set_option autoImplicit false

namespace Gamebook

/-! ### Nodes and elements -/

/-- A link whose passage is missing if and only if it says so. -/
def Link.Honest (store : Store) : Link → Prop
  | .passage title broken => broken = !store.has title
  | .action title broken => broken = !store.has title
  | .external _ => True
  | .back _ => True

namespace Tag

/-- Elements that are always empty. -/
def IsEmpty (tag : Tag) : Prop := tag ∈ [rule, lineBreak, image]

/-- Lists. -/
def IsList (tag : Tag) : Prop := tag ∈ [unorderedList, orderedList]

/-- Elements that hold text and whole elements. -/
def IsFlow : Tag → Prop
  | heading level => 1 ≤ level ∧ level ≤ 5
  | caption | cell | headerCell | preformatted | code | blockQuote | listItem | strong | emphasis
  | underline | strike | subscript | superscript | span => True
  | _ => False

/-- What holds text and elements is of no other kind. -/
theorem IsFlow.unlike {tag : Tag} (h : tag.IsFlow) :
    ¬ tag.IsEmpty ∧ (∀ target, tag ≠ link target) ∧ tag ≠ table ∧
      tag ∉ [tableHead, tableBody, tableFoot] ∧ tag ≠ row ∧ ¬ tag.IsList ∧
        ∀ level, tag = heading level → 1 ≤ level ∧ level ≤ 5 := by
  cases tag <;> simp_all [IsFlow, IsEmpty, IsList]

/-- The kinds of elements that tables, their sections and rows, and lists are made of. -/
def parts : Tag → List Tag
  | table => [caption, tableHead, tableBody, tableFoot]
  | tableHead | tableBody | tableFoot => [row]
  | row => [cell, headerCell]
  | unorderedList | orderedList => [listItem, unorderedList, orderedList]
  | _ => []

/-- What is made of parts is never empty by its kind, no link and no heading. -/
theorem unlike_of_parts {tag : Tag} (h : tag.parts ≠ []) :
    ¬ tag.IsEmpty ∧ (∀ target, tag ≠ link target) ∧ ∀ level, tag ≠ heading level := by
  cases tag <;> simp_all [parts, IsEmpty]

theorem parts_section {tag : Tag} (h : tag ∈ [tableHead, tableBody, tableFoot]) :
    tag.parts = [row] := by
  cases tag <;> simp_all [parts]

theorem mem_parts_list {tag item : Tag} (h : tag.IsList) :
    item ∈ tag.parts ↔ item = listItem ∨ item.IsList := by
  cases tag <;> simp_all [parts, IsList]

theorem listItem_notMem_parts {tag : Tag} (h : ¬ tag.IsList) : listItem ∉ tag.parts := by
  cases tag <;> simp_all [parts, IsList]

end Tag

namespace Node

/-- The kind of a node, if it is an element. -/
def tag? : Node → Option Tag
  | element e _ => some e.tag
  | _ => none

/-- Whether a node is text. -/
def IsText (node : Node) : Prop := ∃ s, node = text s

instance : DecidablePred IsText
  | text s => isTrue ⟨s, rfl⟩
  | html _ => isFalse fun ⟨_, h⟩ => Node.noConfusion h
  | element _ _ => isFalse fun ⟨_, h⟩ => Node.noConfusion h

/-- No text follows text. -/
def Apart (nodes : List Node) : Prop := nodes.IsChain fun a b => ¬ (a.IsText ∧ b.IsText)

mutual

/-- The elements of a node with their children, itself before them. -/
def elementsOf : Node → List (Element × List Node)
  | text _ => []
  | html _ => []
  | element e children => (e, children) :: elements children

/-- All elements of a list of nodes with their children, in reading order. -/
def elements : List Node → List (Element × List Node)
  | [] => []
  | node :: nodes => elementsOf node ++ elements nodes

end

end Node

/-! ### What an element may hold -/

/-- An element may have these children. -/
structure Element.Fits (store : Store) (e : Element) (children : List Node) : Prop where
  empty : e.tag.IsEmpty → children = []
  /-- A link has the class of its target, tells whether its passage is missing, and holds no other
  links. -/
  link : ∀ target, e.tag = .link target →
    e.class? = some target.class ∧ target.Honest store ∧ Node.links children = []
  table : e.tag = .table → ∀ node ∈ children,
    ∃ tag ∈ [Tag.caption, .tableHead, .tableBody, .tableFoot], node.tag? = some tag
  part : e.tag ∈ [Tag.tableHead, .tableBody, .tableFoot] → ∀ node ∈ children, node.tag? = some .row
  row : e.tag = .row → ∀ node ∈ children, ∃ tag ∈ [Tag.cell, .headerCell], node.tag? = some tag
  list : e.tag.IsList → ∀ node ∈ children, ∃ tag, node.tag? = some tag ∧
    (tag = .listItem ∨ tag.IsList)
  /-- List items stand in lists only. -/
  item : ¬ e.tag.IsList → ∀ node ∈ children, node.tag? ≠ some .listItem
  heading : ∀ level, e.tag = .heading level → 1 ≤ level ∧ level ≤ 5
  apart : Node.Apart children

/-- All elements of a node fit. -/
def Node.Fits (store : Store) (node : Node) : Prop :=
  ∀ e children, (e, children) ∈ Node.elementsOf node → e.Fits store children

/-- Nodes that may stand anywhere but in a list or in a table: all their elements fit, there is no
list item among them, and no text follows text. -/
structure Node.WellFormed (store : Store) (nodes : List Node) : Prop where
  fits : ∀ e children, (e, children) ∈ Node.elements nodes → e.Fits store children
  item : ∀ node ∈ nodes, node.tag? ≠ some .listItem
  apart : Node.Apart nodes

/-- A node that may stand behind all others. -/
structure Node.Stands (store : Store) (node : Node) : Prop where
  fits : node.Fits store
  text : ¬ node.IsText
  item : node.tag? ≠ some .listItem

namespace Node

variable {store : Store} {e : Element} {node : Node} {nodes children : List Node}

/-! ### Elements of a list of nodes -/

theorem mem_elements {p : Element × List Node} :
    p ∈ elements nodes ↔ ∃ node ∈ nodes, p ∈ elementsOf node := by
  induction nodes with
  | nil => simp [elements]
  | cons node nodes ih => simp [elements, ih]

theorem forall_fits_iff :
    (∀ e children, (e, children) ∈ elements nodes → e.Fits store children) ↔
      ∀ node ∈ nodes, node.Fits store := by
  constructor
  · intro h node hnode e children hp
    exact h e children (mem_elements.2 ⟨node, hnode, hp⟩)
  · intro h e children hp
    obtain ⟨node, hnode, hp⟩ := mem_elements.1 hp
    exact h node hnode e children hp

@[simp] theorem fits_text (s : String) : (text s).Fits store := by
  intro e children hp
  simp [elementsOf] at hp

@[simp] theorem fits_html (s : String) : (html s).Fits store := by
  intro e children hp
  simp [elementsOf] at hp

theorem fits_element :
    (element e children).Fits store ↔
      e.Fits store children ∧ ∀ node ∈ children, node.Fits store := by
  rw [← forall_fits_iff]
  simp only [Fits, elementsOf, List.mem_cons, Prod.mk.injEq, or_imp, forall_and, and_imp,
    forall_eq_apply_imp_iff, forall_eq]

/-! ### Text next to text -/

theorem apart_nil : Apart [] := .nil

theorem apart_singleton (node : Node) : Apart [node] := .singleton node

theorem apart_reverse : Apart nodes.reverse ↔ Apart nodes := by
  rw [Apart, List.isChain_reverse]
  simp only [and_comm, Apart]

/-- A node that is no text may follow anything. -/
theorem Apart.cons (h : Apart nodes) (hnode : ¬ node.IsText) : Apart (node :: nodes) :=
  List.isChain_cons.2 ⟨fun _ _ hboth => hnode hboth.1, h⟩

/-- Elements are no text. -/
theorem not_isText_of_tag? {tag : Tag} (h : node.tag? = some tag) : ¬ node.IsText := by
  rintro ⟨s, rfl⟩
  cases h

theorem Apart.of_tags (h : ∀ node ∈ nodes, ∃ tag, node.tag? = some tag) : Apart nodes := by
  induction nodes with
  | nil => exact apart_nil
  | cons node nodes ih =>
      obtain ⟨⟨tag, htag⟩, hnodes⟩ := List.forall_mem_cons.1 h
      exact (ih hnodes).cons (not_isText_of_tag? htag)

/-! ### Well-formed nodes -/

theorem wellFormed_iff :
    WellFormed store nodes ↔ (∀ node ∈ nodes, node.Fits store) ∧
      (∀ node ∈ nodes, node.tag? ≠ some .listItem) ∧ Apart nodes := by
  rw [← forall_fits_iff]
  exact ⟨fun h => ⟨h.fits, h.item, h.apart⟩, fun h => ⟨h.1, h.2.1, h.2.2⟩⟩

theorem WellFormed.forall_fits (h : WellFormed store nodes) : ∀ node ∈ nodes, node.Fits store :=
  (wellFormed_iff.1 h).1

@[simp] theorem wellFormed_nil : WellFormed store [] := wellFormed_iff.2 (by simp [apart_nil])

@[simp] theorem wellFormed_reverse :
    WellFormed store nodes.reverse ↔ WellFormed store nodes := by
  simp only [wellFormed_iff, List.mem_reverse, apart_reverse]

theorem wellFormed_singleton (hfits : node.Fits store) (hitem : node.tag? ≠ some .listItem) :
    WellFormed store [node] :=
  wellFormed_iff.2 ⟨by simpa using hfits, by simpa using hitem, apart_singleton node⟩

@[simp] theorem wellFormed_text (s : String) : WellFormed store [text s] :=
  wellFormed_singleton (fits_text s) (by simp [tag?])

@[simp] theorem wellFormed_html (s : String) : WellFormed store [html s] :=
  wellFormed_singleton (fits_html s) (by simp [tag?])

theorem WellFormed.cons (h : WellFormed store nodes) (hnode : node.Stands store) :
    WellFormed store (node :: nodes) := by
  obtain ⟨hf, hi, ha⟩ := wellFormed_iff.1 h
  exact wellFormed_iff.2 ⟨List.forall_mem_cons.2 ⟨hnode.fits, hf⟩,
    List.forall_mem_cons.2 ⟨hnode.item, hi⟩, ha.cons hnode.text⟩

theorem Fits.stands (h : (element e children).Fits store) (hitem : e.tag ≠ .listItem) :
    (element e children).Stands store :=
  ⟨h, not_isText_of_tag? rfl, fun htag => hitem (Option.some.inj htag)⟩

/-- Text behind text becomes one with it. -/
theorem WellFormed.addText (h : WellFormed store nodes) (text : List Char) :
    WellFormed store (addText text nodes) := by
  obtain ⟨hf, hi, ha⟩ := wellFormed_iff.1 h
  match text, nodes with
  | [], nodes => exact h
  | c :: text, .text s :: nodes =>
      have hafter : Apart (.text (s ++ String.ofList (c :: text)) :: nodes) := by
        refine List.isChain_cons.2 ⟨fun node hnode hboth => ?_, (List.isChain_cons.1 ha).2⟩
        exact (List.isChain_cons.1 ha).1 node hnode ⟨⟨s, rfl⟩, hboth.2⟩
      exact wellFormed_iff.2 ⟨List.forall_mem_cons.2 ⟨fits_text _, (List.forall_mem_cons.1 hf).2⟩,
        List.forall_mem_cons.2 ⟨by simp [tag?], (List.forall_mem_cons.1 hi).2⟩, hafter⟩
  | c :: text, [] => exact wellFormed_text _
  | c :: text, .html s :: nodes =>
      refine wellFormed_iff.2 ⟨List.forall_mem_cons.2 ⟨fits_text _, hf⟩,
        List.forall_mem_cons.2 ⟨by simp [tag?], hi⟩, List.isChain_cons.2 ⟨?_, ha⟩⟩
      rintro node hnode ⟨-, s', rfl⟩
      cases hnode
  | c :: text, .element e children :: nodes =>
      refine wellFormed_iff.2 ⟨List.forall_mem_cons.2 ⟨fits_text _, hf⟩,
        List.forall_mem_cons.2 ⟨by simp [tag?], hi⟩, List.isChain_cons.2 ⟨?_, ha⟩⟩
      rintro node hnode ⟨-, s', rfl⟩
      cases hnode

/-! ### Elements around nodes -/

/-- An element that holds text and elements fits around well-formed nodes. -/
theorem Fits.of_flow (hflow : e.tag.IsFlow) (h : WellFormed store children) :
    (element e children).Fits store := by
  obtain ⟨hf, hi, ha⟩ := wellFormed_iff.1 h
  obtain ⟨hempty, hlink, htable, hpart, hrow, hlist, hheading⟩ := hflow.unlike
  refine fits_element.2 ⟨?_, hf⟩
  exact {
    empty := fun htag => absurd htag hempty
    link := fun target htag => absurd htag (hlink target)
    table := fun htag => absurd htag htable
    part := fun htag => absurd htag hpart
    row := fun htag => absurd htag hrow
    list := fun htag => absurd htag hlist
    item := fun _ => hi
    heading := hheading
    apart := ha }

@[simp] theorem stands_marked (s : String) : (marked s).Stands store :=
  Fits.stands (Fits.of_flow trivial (wellFormed_text s)) (by simp)

@[simp] theorem stands_error (message : String) : (error message).Stands store :=
  Fits.stands (Fits.of_flow trivial (wellFormed_nil.cons (stands_marked message))) (by simp)

/-- An element that is always empty. -/
theorem Fits.of_empty (h : e.tag.IsEmpty) : (element e []).Fits store := by
  have hnone : ∀ {P : Node → Prop}, ∀ node ∈ [], P node := fun node hnode =>
    absurd hnode List.not_mem_nil
  refine fits_element.2 ⟨?_, hnone⟩
  simp only [Tag.IsEmpty, List.mem_cons, List.not_mem_nil, or_false] at h
  exact {
    empty := fun _ => rfl
    link := by rcases h with h | h | h <;> simp [h]
    table := fun _ => hnone
    part := fun _ => hnone
    row := fun _ => hnone
    list := fun _ => hnone
    item := fun _ => hnone
    heading := by rcases h with h | h | h <;> simp [h]
    apart := apart_nil }

/-- A link around nodes without links. -/
theorem Fits.of_link (target : Link) (htarget : target.Honest store)
    (hlinks : links children = []) (h : WellFormed store children) :
    (element (.ofLink target) children).Fits store := by
  obtain ⟨hf, hi, ha⟩ := wellFormed_iff.1 h
  refine fits_element.2 ⟨?_, hf⟩
  exact {
    empty := by simp [Element.ofLink, Tag.IsEmpty]
    link := by
      rintro _ ⟨⟩
      exact ⟨rfl, htarget, hlinks⟩
    table := by simp [Element.ofLink]
    part := by simp [Element.ofLink]
    row := by simp [Element.ofLink]
    list := by simp [Element.ofLink, Tag.IsList]
    item := fun _ => hi
    heading := by simp [Element.ofLink]
    apart := ha }

/-- A table, a section, a row or a list around parts of the kinds that it is made of. -/
theorem Fits.of_parts (hparts : e.tag.parts ≠ []) (hfits : ∀ node ∈ children, node.Fits store)
    (htags : ∀ node ∈ children, ∃ tag ∈ e.tag.parts, node.tag? = some tag) :
    (element e children).Fits store := by
  obtain ⟨hempty, hlink, hheading⟩ := Tag.unlike_of_parts hparts
  refine fits_element.2 ⟨?_, hfits⟩
  exact {
    empty := fun htag => absurd htag hempty
    link := fun target htag => absurd htag (hlink target)
    table := fun htag node hnode => by simpa only [htag, Tag.parts] using htags node hnode
    part := fun htag node hnode => by
      obtain ⟨tag, hin, heq⟩ := htags node hnode
      rw [Tag.parts_section htag, List.mem_singleton] at hin
      rw [heq, hin]
    row := fun htag node hnode => by simpa only [htag, Tag.parts] using htags node hnode
    list := fun hlist node hnode => by
      obtain ⟨tag, hin, heq⟩ := htags node hnode
      exact ⟨tag, heq, (Tag.mem_parts_list hlist).1 hin⟩
    item := fun hlist node hnode hitem => by
      obtain ⟨tag, hin, heq⟩ := htags node hnode
      obtain rfl := Option.some.inj (heq.symm.trans hitem)
      exact Tag.listItem_notMem_parts hlist hin
    heading := fun level htag => absurd htag (hheading level)
    apart := Apart.of_tags fun node hnode => (htags node hnode).imp fun _ => And.right }

/-! ### Choices -/

mutual

theorem links_choicesOf (node : Node) (h : node.Fits store) :
    (choicesOf node).map Choice.link = linksOf node := by
  match node, h with
  | text s, _ => rfl
  | html s, _ => rfl
  | element e children, h =>
      obtain ⟨he, hchildren⟩ := fits_element.1 h
      rw [choicesOf, linksOf]
      cases htarget : e.target? with
      | none => simpa using links_choices children hchildren
      | some target =>
          have htag : e.tag = .link target := by
            rw [Element.target?] at htarget
            split at htarget
            · rename_i target' htag
              cases htarget
              exact htag
            · cases htarget
          simp [(he.link target htag).2.2]

theorem links_choices (nodes : List Node) (h : ∀ node ∈ nodes, node.Fits store) :
    (choices nodes).map Choice.link = links nodes := by
  match nodes, h with
  | [], _ => rfl
  | node :: nodes, h =>
      obtain ⟨hnode, hnodes⟩ := List.forall_mem_cons.1 h
      rw [choices, links, List.map_append, links_choicesOf node hnode, links_choices nodes hnodes]

end

/-- **The choices of well-formed nodes are their links**, in the same order. -/
theorem WellFormed.links_choices (h : WellFormed store nodes) :
    (choices nodes).map Choice.link = links nodes := Node.links_choices nodes h.forall_fits

end Node

end Gamebook
