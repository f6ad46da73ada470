/-
**What is said, and what is still to be read.**

A scanner says what it reads, at most.  So what it has said, followed by what it has still to read,
never grows, but for a character that it reads again.  The parts of quotations, lists and tables
that are put together say the same before and after.

Main definitions:

* `Node.chars`, `Node.said` — what a node says, and what nodes say with the latest first;
* `Nesting.heard`, `Table.Grid.chars` — what open elements and unfinished tables say;
* `HasRow`, `Again` — a text with a table, and the character that the table may read again;
* `GoesOn` — going on from one point of a text to another without saying anything twice.

Main results:

* `Nesting.heard_close`, `Nesting.heard_goTo`, `Nesting.heard_enterItem`, `Nesting.heard_put` —
  opening and closing elements says nothing;
* `Table.Grid.chars_enter`, `Table.Grid.chars_stretch`, `Table.Grid.chars_addRow` — nor does a
  change of a table, apart from the row that is put into it;
* `GoesOn.trans`, `GoesOn.behind` — going on step by step, and behind what was said before;
* `GoesOn.stepBack_mark`, `GoesOn.stepBack_end` — giving a character back, behind a mark and at the
  end of the text.
-/

import Gamebook.Proofs.Render.Advance
import Gamebook.Proofs.Render.Parts

set_option relaxedAutoImplicit false
set_option autoImplicit false

namespace Gamebook

/-! ### Nodes -/

namespace Node

/-- What a node says. -/
def chars (node : Node) : List Char := (textOf node).toList

/-- What nodes say that are collected with the latest first. -/
def said (nodes : List Node) : List Char := (textContent nodes.reverse).toList

variable {node : Node} {nodes : List Node}

theorem toList_textContent (nodes : List Node) :
    (textContent nodes).toList = nodes.flatMap chars := by
  induction nodes with
  | nil => simp [textContent]
  | cons node nodes ih => simp [textContent, chars, ih]

@[simp] theorem said_nil : said [] = [] := by simp [said, textContent]

@[simp] theorem said_cons : said (node :: nodes) = said nodes ++ node.chars := by
  simp [said, toList_textContent]

@[simp] theorem chars_text (s : String) : chars (text s) = s.toList := by simp [chars, textOf]

@[simp] theorem chars_html (s : String) : chars (html s) = s.toList := by simp [chars, textOf]

theorem chars_element (e : Element) (children : List Node) :
    chars (element e children) = children.flatMap chars := by
  rw [chars, textOf, toList_textContent]

/-- An element says what was collected in it. -/
@[simp] theorem chars_element_reverse (e : Element) (nodes : List Node) :
    chars (element e nodes.reverse) = said nodes := by
  rw [chars_element, said, toList_textContent]

@[simp] theorem said_addText (text : List Char) (nodes : List Node) :
    said (addText text nodes) = said nodes ++ text := by
  unfold addText
  split
  · simp
  · simp
  · simp

end Node

open Node (said)

/-! ### Open elements -/

namespace Nesting

/-- What is said in front of some open elements and in them. -/
def heard : List Frame → List Node → List Char
  | [], nodes => said nodes
  | frame :: frames, nodes => heard frames nodes ++ said frame.content

variable {frames : List Frame} {nodes : List Node} {tag : Tag}

theorem chars_toNode (frame : Frame) : frame.toNode.chars = said frame.content :=
  Node.chars_element_reverse _ _

theorem heard_closeOne (frames : List Frame) (nodes : List Node) :
    heard (closeOne frames nodes).1 (closeOne frames nodes).2 = heard frames nodes := by
  match frames with
  | [] => rfl
  | [frame] => simp [closeOne, heard, chars_toNode]
  | frame :: outer :: frames => simp [closeOne, heard, chars_toNode]

theorem heard_close (count : Nat) (frames : List Frame) (nodes : List Node) :
    heard (close count frames nodes).1 (close count frames nodes).2 = heard frames nodes := by
  induction count generalizing frames nodes with
  | zero => rfl
  | succ count ih => rw [close, ih, heard_closeOne]

theorem said_closeAll (frames : List Frame) (nodes : List Node) :
    said (closeAll frames nodes) = heard frames nodes := by
  have hlength := length_close frames.length frames nodes
  rw [Nat.sub_self, List.length_eq_zero_iff] at hlength
  rw [← heard_close frames.length frames nodes, hlength]
  rfl

theorem heard_openTags (tag : Tag) (count : Nat) (frames : List Frame) (nodes : List Node) :
    heard (openTags tag count frames) nodes = heard frames nodes := by
  induction count with
  | zero => rfl
  | succ count ih =>
      rw [openTags, List.replicate_succ, List.cons_append, heard]
      simpa [openTags] using ih

theorem heard_goTo (tag : Tag) (level : Nat) (frames : List Frame) (nodes : List Node) :
    heard (goTo tag level frames nodes).1 (goTo tag level frames nodes).2 = heard frames nodes := by
  rw [goTo]
  split
  · exact heard_openTags tag _ frames nodes
  · exact heard_close _ frames nodes

theorem heard_enterItem (tag : Tag) (level : Nat) (latest : Option Tag) (frames : List Frame)
    (nodes : List Node) :
    heard (enterItem tag level latest frames nodes).1 (enterItem tag level latest frames nodes).2 =
      heard frames nodes := by
  rw [enterItem]
  split
  · dsimp only
    rw [heard_openTags, heard_close]
  · exact heard_goTo tag level frames nodes

theorem heard_put (node : Node) (frames : List Frame) (nodes : List Node) :
    heard (put node frames nodes).1 (put node frames nodes).2 = heard frames nodes ++ node.chars := by
  cases frames with
  | nil => simp [put, heard]
  | cons frame frames => simp [put, heard]

end Nesting

/-! ### Tables -/

namespace Table

/-- What the cells of a row say. -/
def charsOfCells (cells : List Cell) : List Char := cells.flatMap (·.toNode.chars)

/-- What a table says. -/
def Grid.chars (g : Grid) : List Char := g.sections.flatMap (·.toNode.chars)

theorem chars_rowNode (cells : List Cell) : (rowNode cells).chars = charsOfCells cells := by
  rw [rowNode, Node.chars_element, List.flatMap_map, charsOfCells]

theorem Grid.chars_toNode (g : Grid) : g.toNode.chars = g.chars := by
  rw [Grid.toNode, Node.chars_element, List.flatMap_map, Grid.chars]

/-- A caption says its text, and any other section says its rows. -/
theorem Section.chars_toNode (part : Section) :
    part.toNode.chars =
      if part.kind = .caption then said part.content else part.rows.flatMap charsOfCells := by
  unfold Section.toNode
  split
  · rename_i hkind
    simp [hkind]
  · rename_i hkind
    rw [if_neg hkind, Node.chars_element, List.flatMap_map]
    simp only [chars_rowNode]

/-- A change of one member of a list that leaves what it says as it is. -/
theorem flatMap_modify {α β : Type} {f : α → α} {say : α → List β} (hf : ∀ a, say (f a) = say a)
    (l : List α) (i : Nat) : (l.modify i f).flatMap say = l.flatMap say := by
  induction l generalizing i with
  | nil => simp
  | cons a l ih =>
      cases i with
      | zero => simp [hf]
      | succ i => simp [ih]

namespace Grid

theorem chars_stretch (g : Grid) (column : Nat) : (g.stretch column).chars = g.chars := by
  rw [Grid.stretch]
  split
  · rfl
  · refine flatMap_modify (fun part => ?_) _ _
    simp only [Section.chars_toNode]
    split
    · rfl
    · refine flatMap_modify (fun cells => ?_) _ _
      exact flatMap_modify (fun cell => by simp [Cell.stretch, Cell.toNode, Node.chars_element]) _ _

theorem chars_anchor (g : Grid) (column : Nat) (cells : List Cell) :
    (g.anchor column cells).chars = g.chars := rfl

theorem chars_enter (g : Grid) (kind : Mark.RowKind) : (g.enter kind).chars = g.chars := by
  rw [Grid.enter]
  split
  · rfl
  · simp [chars, Section.chars_toNode]

/-- After entering a section of a kind it is the last one. -/
theorem exists_enter (g : Grid) (kind : Mark.RowKind) :
    ∃ before part, (g.enter kind).sections = before ++ [part] ∧ part.kind = kind := by
  rw [Grid.enter]
  split
  · rename_i hlast
    obtain ⟨part, hpart, hkind⟩ := Option.map_eq_some_iff.1 hlast
    obtain ⟨before, hbefore⟩ := List.getLast?_eq_some_iff.1 hpart
    exact ⟨before, part, hbefore, hkind⟩
  · exact ⟨g.sections, _, rfl, rfl⟩

theorem sections_modifyLast {g : Grid} {before : List Section} {part : Section}
    (h : g.sections = before ++ [part]) (f : Section → Section) :
    (g.modifyLast f).sections = before ++ [f part] := by
  have hindex : g.sections.length - 1 = before.length := by simp [h]
  rw [modifyLast, hindex, h, modify_append_cons]

theorem chars_eq {g : Grid} {before : List Section} {part : Section}
    (h : g.sections = before ++ [part]) :
    g.chars = before.flatMap (·.toNode.chars) ++ part.toNode.chars := by
  simp [chars, h]

/-- A row is said behind what the table says, if its section shows it. -/
theorem chars_addRow (g : Grid) (cells : List Cell) :
    (g.modifyLast fun part => { part with rows := part.rows ++ [cells] }).chars.Sublist
      (g.chars ++ charsOfCells cells) := by
  rcases List.eq_nil_or_concat g.sections with hnil | ⟨before, part, hsections⟩
  · simp [chars, modifyLast, hnil]
  · rw [List.concat_eq_append] at hsections
    rw [chars_eq (sections_modifyLast hsections _), chars_eq hsections]
    simp only [Section.chars_toNode, List.append_assoc]
    split
    · exact (List.sublist_append_left _ _).append_left _
    · simp

/-- A caption takes the place of the caption so far. -/
theorem chars_setCaption {g : Grid} {before : List Section} {part : Section}
    (h : g.sections = before ++ [part]) (hkind : part.kind = .caption) (side : String)
    (content : List Node) :
    (g.modifyLast fun part =>
      { part with element := part.element.setAttr "align" side, content := content }).chars =
        before.flatMap (·.toNode.chars) ++ said content := by
  rw [chars_eq (sections_modifyLast h _), Section.chars_toNode, if_pos hkind]

end Grid

end Table

/-! ### Going on -/

/-- There is a row of a table somewhere in the text. -/
def HasRow (text : List Char) : Prop :=
  ∃ c : Cursor, c.text = text ∧ (Mark.row c.previous c.rest).isSome

/-- A character that a table may read again: the last one of the text, if it is one byte long and
there is a row of a table in the text. -/
structure Again (text : List Char) (ch : Char) : Prop where
  last : text.getLast? = some ch
  oneByte : ch.utf8Size = 1
  row : HasRow text

/-- From having said `m` at `c` one goes on to having said `n` at `d`, in the same text: what was
said, with what is still to be read, does not grow but for characters that are read again. -/
structure GoesOn (m : List Char) (c : Cursor) (n : List Char) (d : Cursor) : Prop where
  text : d.text = c.text
  sublist : ∃ extra, (∀ ch ∈ extra, Again c.text ch) ∧
    (n ++ d.rest).Sublist (m ++ c.rest ++ extra)

namespace GoesOn

variable {m n k : List Char} {c d e : Cursor}

theorem of_sublist (htext : d.text = c.text) (h : (n ++ d.rest).Sublist (m ++ c.rest)) :
    GoesOn m c n d := ⟨htext, [], fun _ hch => absurd hch List.not_mem_nil, by simpa using h⟩

theorem refl (m : List Char) (c : Cursor) : GoesOn m c m c := of_sublist rfl (List.Sublist.refl _)

theorem trans (h : GoesOn m c n d) (h' : GoesOn n d k e) : GoesOn m c k e := by
  obtain ⟨htext, extra, hextra, hsub⟩ := h
  obtain ⟨htext', extra', hextra', hsub'⟩ := h'
  refine ⟨htext'.trans htext, extra ++ extra', fun ch hch => ?_, ?_⟩
  · rcases List.mem_append.1 hch with hch | hch
    · exact hextra ch hch
    · exact htext ▸ hextra' ch hch
  · rw [← List.append_assoc]
    exact hsub'.trans (hsub.append_right extra')

/-- The same behind what was said before. -/
theorem behind (h : GoesOn m c n d) (before : List Char) :
    GoesOn (before ++ m) c (before ++ n) d := by
  obtain ⟨htext, extra, hextra, hsub⟩ := h
  refine ⟨htext, extra, hextra, ?_⟩
  simpa only [List.append_assoc] using hsub.append_left before

/-- To say no more than what is passed. -/
theorem say {count : Nat} {word : List Char} (h : word.Sublist (c.rest.take count)) (m : List Char) :
    GoesOn m c (m ++ word) (c.forward count) := by
  refine of_sublist (Cursor.text_forward c count) ?_
  have hrest := h.append_right (c.rest.drop count)
  rw [List.take_append_drop] at hrest
  rw [List.append_assoc]
  exact hrest.append_left m

/-- To go further on without a word. -/
theorem skip (h : GoesOn m c n d) {d' : Cursor} (htext : d'.text = d.text)
    (hle : d'.rest.length ≤ d.rest.length) : GoesOn m c n d' :=
  h.trans (of_sublist htext ((Cursor.rest_suffix_rest htext hle).sublist.append_left n))

theorem forward (h : GoesOn m c n d) (count : Nat) : GoesOn m c n (d.forward count) :=
  h.skip (Cursor.text_forward d count) (by simp)

/-- Behind a mark a character may be given back: it is one of the mark. -/
theorem stepBack_mark (h : GoesOn m c n d) (hrest : d.rest ≠ []) {count : Nat} (hpos : 0 < count) :
    GoesOn m c n (d.forward count).stepBack := by
  have hlength := List.length_pos_iff.2 hrest
  have hback := Cursor.length_stepBack_le (d.forward count)
  rw [Cursor.rest_forward, List.length_drop] at hback
  exact h.skip ((Cursor.text_stepBack _).trans (Cursor.text_forward d count)) (by omega)

/-- At the end the last character of the text is given back, to be read again. -/
theorem stepBack_end (h : GoesOn m c n d) (hrest : d.rest = []) (hrow : HasRow c.text) :
    GoesOn m c n d.stepBack := by
  obtain ⟨before, rest⟩ := d
  cases hrest
  rw [Cursor.stepBack]
  split
  · rename_i ch before' hbefore
    cases hbefore
    split
    · rename_i hsize
      have htext : (ch :: before').reverse = c.text := by simpa [Cursor.text] using h.text
      refine h.trans ⟨by simp [Cursor.text], [ch], fun ch' hch' => ?_, by simp⟩
      rw [List.mem_singleton.1 hch', h.text]
      exact ⟨by simp [← htext], hsize, hrow⟩
    · exact h
  · exact h

end GoesOn

end Gamebook
