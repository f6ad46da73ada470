/-
**Formats of characters as one pass with a stack.**

A mark of two equal signs opens what has a format and closes it again.  What a text with such marks
stands for can be said in one pass from left to right that keeps the elements which are open, the
innermost first: a mark closes the innermost element if it is of the same format, and opens one
inside of it if not.  Marks may be crossed, doubled or left open; there is no mark that this pass
does not know what to do with.

Main definitions:

* `Inline.Format` — the formats, each with its sign and the kind of its element;
* `Inline.Piece`, `Inline.pieces` — the marks and the other characters of a text;
* `Inline.Pass`, `Inline.Pass.step` — **the pass**, piece by piece;
* `Inline.tree`, `Inline.nesting`, `Inline.letters` — the nodes that a text stands for, how deep its
  elements lie inside one another, and the text without its marks.

Main results:

* `Inline.flatMap_source_pieces` — the pieces are all of the text;
* `Inline.textContent_tree` — **the nodes say the text without its marks**.
-/

import Gamebook.Proofs.Macro.Program
import Gamebook.Proofs.Render.Said

set_option relaxedAutoImplicit false
set_option autoImplicit false

namespace Gamebook

namespace Inline

open Nesting (Frame closeOne closeAll)

/-! ### Formats -/

/-- A format of characters. -/
inductive Format where
  | strong
  | strike
  | underline
  | emphasis
  | subscript
  | superscript
  deriving DecidableEq, Repr

namespace Format

/-- The sign that stands twice before and behind what has the format. -/
def sign : Format → Char
  | strong => '\''
  | strike => '='
  | underline => '_'
  | emphasis => '/'
  | subscript => '~'
  | superscript => '^'

/-- The kind of the element that has the format. -/
def tag : Format → Tag
  | strong => .strong
  | strike => .strike
  | underline => .underline
  | emphasis => .emphasis
  | subscript => .subscript
  | superscript => .superscript

/-- The formats, in the order of the table of formatters. -/
def all : List Format := [strong, strike, underline, emphasis, subscript, superscript]

/-- The format that a sign stands for. -/
def ofSign? (c : Char) : Option Format := all.find? fun f => f.sign == c

theorem mem_all (f : Format) : f ∈ all := by cases f <;> decide

theorem ofSign?_sign (f : Format) : ofSign? f.sign = some f := by cases f <;> decide

theorem sign_of_ofSign? {c : Char} {f : Format} (h : ofSign? c = some f) : f.sign = c := by
  simpa using List.find?_some h

theorem tag_inj {f g : Format} (h : f.tag = g.tag) : f = g := by
  have hall : ∀ f ∈ all, ∀ g ∈ all, f.tag = g.tag → f = g := by decide
  exact hall f f.mem_all g g.mem_all h

theorem sign_inj {f g : Format} (h : f.sign = g.sign) : f = g := by
  have hsome := congrArg ofSign? h
  rw [ofSign?_sign, ofSign?_sign] at hsome
  exact Option.some.inj hsome

end Format

/-! ### Pieces -/

/-- A piece of a text: a mark, or a character that is part of none. -/
inductive Piece where
  | plain (c : Char)
  | mark (f : Format)
  deriving DecidableEq, Repr

/-- A piece as it is written. -/
def Piece.source : Piece → List Char
  | plain c => [c]
  | mark f => [f.sign, f.sign]

/-- What is left of a piece without marks. -/
def Piece.letters : Piece → List Char
  | plain c => [c]
  | mark _ => []

/-- The mark that two characters make. -/
def mark? (c d : Char) : Option Format := if c = d then Format.ofSign? c else none

/-- The pieces of a text: a mark is taken wherever one starts. -/
def pieces : List Char → List Piece
  | [] => []
  | [c] => [.plain c]
  | c :: d :: rest =>
      match mark? c d with
      | some f => .mark f :: pieces rest
      | none => .plain c :: pieces (d :: rest)

/-- The text without its marks. -/
def letters (text : List Char) : List Char := (pieces text).flatMap Piece.letters

theorem mark?_eq_some {c d : Char} {f : Format} (h : mark? c d = some f) :
    c = f.sign ∧ d = f.sign := by
  rw [mark?] at h
  split at h
  · rename_i heq
    have hsign := Format.sign_of_ofSign? h
    exact ⟨hsign.symm, heq ▸ hsign.symm⟩
  · cases h

@[simp] theorem mark?_sign (f : Format) : mark? f.sign f.sign = some f := by
  rw [mark?, if_pos rfl, Format.ofSign?_sign]

theorem pieces_mark (f : Format) (rest : List Char) :
    pieces (f.sign :: f.sign :: rest) = .mark f :: pieces rest := by
  rw [pieces, mark?_sign]

/-- No mark begins with a character in front of a text. -/
def Alone (c : Char) (rest : List Char) : Prop := ∀ d tail, rest = d :: tail → mark? c d = none

/-- A character that is not alone is the first one of a mark. -/
theorem exists_mark {c : Char} {rest : List Char} (h : ¬ Alone c rest) :
    ∃ f tail, c = Format.sign f ∧ rest = Format.sign f :: tail := by
  simp only [Alone, Classical.not_forall] at h
  obtain ⟨d, tail, hrest, hmark⟩ := h
  obtain ⟨f, hf⟩ := Option.ne_none_iff_exists'.1 hmark
  obtain ⟨hc, hd⟩ := mark?_eq_some hf
  exact ⟨f, tail, hc, hd ▸ hrest⟩

theorem pieces_plain {c : Char} {rest : List Char} (h : Alone c rest) :
    pieces (c :: rest) = .plain c :: pieces rest := by
  cases rest with
  | nil => rfl
  | cons d tail => rw [pieces, h d tail rfl]

/-- **The pieces are all of the text.** -/
theorem flatMap_source_pieces (text : List Char) : (pieces text).flatMap Piece.source = text := by
  induction text using pieces.induct with
  | case1 => rfl
  | case2 c => rfl
  | case3 c d rest f hmark ih =>
      obtain ⟨rfl, rfl⟩ := mark?_eq_some hmark
      rw [pieces_mark, List.flatMap_cons, ih]
      rfl
  | case4 c d rest hmark ih =>
      rw [pieces, hmark, List.flatMap_cons, ih]
      rfl

/-! ### The pass -/

/-- A point of the pass. -/
structure Pass where
  /-- The elements that are open, the innermost first. -/
  frames : List Frame := []
  /-- The nodes outside of them, the latest first. -/
  nodes : List Node := []

namespace Pass

variable {p : Pass} {content : List Node} {f : Format}

/-- What the innermost element holds so far, the latest node first. -/
def inside (p : Pass) : List Node :=
  match p.frames with
  | [] => p.nodes
  | frame :: _ => frame.content

/-- The pass with other nodes in the innermost element. -/
def withInside (p : Pass) (content : List Node) : Pass :=
  match p.frames with
  | [] => { p with nodes := content }
  | frame :: frames => { p with frames := { frame with content := content } :: frames }

/-- The kind of the innermost element. -/
def innermost? (p : Pass) : Option Tag := p.frames.head?.map Frame.tag

/-- Opens an element. -/
def enter (p : Pass) (f : Format) : Pass := { p with frames := { tag := f.tag } :: p.frames }

/-- Closes the innermost element. -/
def leave (p : Pass) : Pass :=
  { frames := (closeOne p.frames p.nodes).1, nodes := (closeOne p.frames p.nodes).2 }

/-- **One step of the pass**: a mark closes the innermost element if that has its format, and opens
another one if not. -/
def step (p : Pass) : Piece → Pass
  | .plain c => p.withInside (Node.addText [c] p.inside)
  | .mark f => if p.innermost? = some f.tag then p.leave else p.enter f

/-- The nodes at the end of the text: all elements are closed. -/
def finish (p : Pass) : List Node := (closeAll p.frames p.nodes).reverse

/-- The nodes after so many pieces, if these are the last. -/
def result (p : Pass) (ps : List Piece) : List Node := (ps.foldl step p).finish

/-- The greatest number of elements that are open at once. -/
def deepest (p : Pass) : List Piece → Nat
  | [] => p.frames.length
  | piece :: ps => max p.frames.length ((p.step piece).deepest ps)

@[simp] theorem inside_withInside : (p.withInside content).inside = content := by
  obtain ⟨frames, nodes⟩ := p
  cases frames <;> rfl

@[simp] theorem withInside_withInside (other : List Node) :
    (p.withInside content).withInside other = p.withInside other := by
  obtain ⟨frames, nodes⟩ := p
  cases frames <;> rfl

@[simp] theorem innermost?_withInside : (p.withInside content).innermost? = p.innermost? := by
  obtain ⟨frames, nodes⟩ := p
  cases frames <;> rfl

@[simp] theorem length_frames_withInside :
    (p.withInside content).frames.length = p.frames.length := by
  obtain ⟨frames, nodes⟩ := p
  cases frames <;> rfl

theorem step_plain (c : Char) :
    (p.withInside content).step (.plain c) = p.withInside (Node.addText [c] content) := by
  rw [step, inside_withInside, withInside_withInside]

theorem step_leave (h : p.innermost? = some f.tag) : p.step (.mark f) = p.leave := if_pos h

theorem step_enter (h : p.innermost? ≠ some f.tag) : p.step (.mark f) = p.enter f := if_neg h

/-- An element that was opened is a node of the one around it once it is closed. -/
theorem leave_enter (inner : List Node) :
    (((p.withInside content).enter f).withInside inner).leave =
      p.withInside (.element { tag := f.tag } inner.reverse :: content) := by
  obtain ⟨frames, nodes⟩ := p
  cases frames <;> rfl

theorem length_frames_leave (p : Pass) : p.leave.frames.length ≤ p.frames.length := by
  obtain ⟨frames, nodes⟩ := p
  match frames with
  | [] => exact Nat.le_refl 0
  | [frame] => exact Nat.zero_le 1
  | frame :: outer :: frames => exact Nat.le_succ _

theorem finish_leave (p : Pass) : p.leave.finish = p.finish := by
  obtain ⟨frames, nodes⟩ := p
  match frames with
  | [] => rfl
  | [frame] => rfl
  | frame :: outer :: frames => rfl

theorem length_frames_le_deepest (p : Pass) (ps : List Piece) : p.frames.length ≤ p.deepest ps := by
  cases ps with
  | nil => exact Nat.le_refl _
  | cons piece ps => exact Nat.le_max_left _ _

theorem deepest_step_le (p : Pass) (piece : Piece) (ps : List Piece) :
    (p.step piece).deepest ps ≤ p.deepest (piece :: ps) := Nat.le_max_right _ _

/-! ### What the pass says -/

/-- What is said by the nodes so far. -/
def chars (p : Pass) : List Char := Nesting.heard p.frames p.nodes

theorem chars_say (p : Pass) (text : List Char) :
    (p.withInside (Node.addText text p.inside)).chars = p.chars ++ text := by
  obtain ⟨frames, nodes⟩ := p
  cases frames with
  | nil => exact Node.said_addText text nodes
  | cons frame frames =>
      simp [chars, withInside, inside, Nesting.heard]

theorem chars_step (p : Pass) (piece : Piece) :
    (p.step piece).chars = p.chars ++ piece.letters := by
  cases piece with
  | plain c => exact p.chars_say [c]
  | mark f =>
      rw [step, Piece.letters, List.append_nil]
      split
      · exact Nesting.heard_closeOne p.frames p.nodes
      · simp [enter, chars, Nesting.heard]

theorem chars_foldl (p : Pass) (ps : List Piece) :
    (ps.foldl step p).chars = p.chars ++ ps.flatMap Piece.letters := by
  induction ps generalizing p with
  | nil => simp
  | cons piece ps ih =>
      rw [List.foldl_cons, ih, chars_step, List.flatMap_cons, List.append_assoc]

end Pass

/-! ### Texts -/

/-- The nodes that a text stands for. -/
def tree (text : List Char) : List Node := Pass.result {} (pieces text)

/-- How many elements of a text lie inside one another, at most. -/
def nesting (text : List Char) : Nat := Pass.deepest {} (pieces text)

/-- **The nodes say the text without its marks**, and nothing else. -/
theorem textContent_tree (text : List Char) :
    Node.textContent (tree text) = String.ofList (letters text) := by
  have hsaid := Nesting.said_closeAll ((pieces text).foldl Pass.step {}).frames
    ((pieces text).foldl Pass.step {}).nodes
  have hchars := Pass.chars_foldl {} (pieces text)
  rw [← String.toList_inj, String.toList_ofList]
  exact hsaid.trans hchars

/-- Crossed marks close nothing: each of them opens one more element. -/
example : nesting "a''b//c''d//e".toList = 4 ∧ letters "a''b//c''d//e".toList = "abcde".toList := by
  decide +kernel

end Inline

end Gamebook
