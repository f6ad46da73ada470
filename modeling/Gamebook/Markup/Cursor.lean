/-
**A cursor in a text.**

A cursor divides a text into what was read and what is still to come.  What was read is kept with
its nearest character first, so that looking back by one character and stepping back over it are
as simple as looking forward.

Main definitions:

* `Cursor`, `Cursor.start`, `Cursor.atByte?` — a cursor, and the one at the beginning or at a byte
  offset of a text;
* `Cursor.forward`, `Cursor.stepBack` — moving it;
* `Cursor.text`, `Cursor.offset` — the whole text, and the position in bytes.

Main results:

* `Cursor.text_forward`, `Cursor.text_stepBack` — **moving a cursor keeps its text**.
-/

import Gamebook.Text.Bytes

set_option relaxedAutoImplicit false
set_option autoImplicit false

namespace Gamebook

/-- A point in a text. -/
structure Cursor where
  /-- What was read, the nearest character first. -/
  before : List Char
  /-- What is still to come. -/
  rest : List Char
  deriving DecidableEq, Repr

namespace Cursor

/-- The beginning of a text. -/
def start (text : List Char) : Cursor := ⟨[], text⟩

/-- The whole text. -/
def text (c : Cursor) : List Char := c.before.reverse ++ c.rest

/-- The position in bytes. -/
def offset (c : Cursor) : Nat := Text.size c.before

/-- The character just read. -/
def previous (c : Cursor) : Option Char := c.before.head?

/-- The point `n` characters further on, or the end. -/
def forward (c : Cursor) (n : Nat) : Cursor :=
  ⟨(c.rest.take n).reverse ++ c.before, c.rest.drop n⟩

/-- The end of the text. -/
def toEnd (c : Cursor) : Cursor := c.forward c.rest.length

/-- The point one byte back.  Where this would fall inside a character, nothing of which can be
read, the cursor stays. -/
def stepBack (c : Cursor) : Cursor :=
  match c.before with
  | ch :: before => if ch.utf8Size = 1 then ⟨before, ch :: c.rest⟩ else c
  | [] => c

/-- The number of characters that start before byte `n` of a text. -/
def charsBefore : Nat → List Char → Nat
  | 0, _ => 0
  | _, [] => 0
  | n, c :: rest => charsBefore (n - c.utf8Size) rest + 1

/-- The point at byte `n` of a text, or the next one if that falls inside a character; `none` if
the text is shorter. -/
def atByte? (text : List Char) (n : Nat) : Option Cursor :=
  if n ≤ Text.size text then some ((start text).forward (charsBefore n text)) else none

@[simp] theorem text_start (text : List Char) : (start text).text = text := rfl

@[simp] theorem text_forward (c : Cursor) (n : Nat) : (c.forward n).text = c.text := by
  simp [text, forward, List.append_assoc]

@[simp] theorem text_stepBack (c : Cursor) : c.stepBack.text = c.text := by
  unfold stepBack
  split
  · rename_i h
    split <;> simp [text, h]
  · rfl

@[simp] theorem rest_forward (c : Cursor) (n : Nat) : (c.forward n).rest = c.rest.drop n := rfl

@[simp] theorem rest_toEnd (c : Cursor) : c.toEnd.rest = [] := by simp [toEnd]

end Cursor

end Gamebook
