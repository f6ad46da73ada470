/-
**Blank characters and trimming.**

A blank is a character with the Unicode property `White_Space`: twenty-five characters, among
them the line breaks, the no-break space and the ideographic space, but no zero-width character.

Main definitions:

* `Text.isBlank` — the class;
* `Text.trim` — a text without the blanks at its two ends.

Main results:

* `Text.isBlank_of_isWhitespace` — the blanks of ASCII are blanks;
* `Text.append_trim_append` — **trimming takes away blanks only**, and only at the ends;
* `Text.head?_trim` — a trimmed text does not start with a blank.
-/

set_option relaxedAutoImplicit false
set_option autoImplicit false

namespace Gamebook.Text

/-- The code points of the blanks. -/
def blankCodes : List Nat :=
  [0x9, 0xa, 0xb, 0xc, 0xd, 0x20, 0x85, 0xa0, 0x1680, 0x2000, 0x2001, 0x2002, 0x2003, 0x2004,
    0x2005, 0x2006, 0x2007, 0x2008, 0x2009, 0x200a, 0x2028, 0x2029, 0x202f, 0x205f, 0x3000]

/-- Whether `c` is a blank. -/
def isBlank (c : Char) : Bool := blankCodes.contains c.toNat

/-- Whatever core counts as whitespace is a blank. -/
theorem isBlank_of_isWhitespace (c : Char) (h : c.isWhitespace = true) : isBlank c = true := by
  simp only [Char.isWhitespace, Bool.or_eq_true, decide_eq_true_eq] at h
  rcases h with ((h | h) | h) | h <;> subst h <;> decide

/-- `text` without the blanks it ends with. -/
def trimRight (text : List Char) : List Char := (text.reverse.dropWhile isBlank).reverse

/-- `text` without the blanks at its two ends. -/
def trim (text : List Char) : List Char := trimRight (text.dropWhile isBlank)

theorem trimRight_append (text : List Char) :
    ∃ r : List Char, (∀ c ∈ r, isBlank c = true) ∧ text = trimRight text ++ r := by
  refine ⟨(text.reverse.takeWhile isBlank).reverse, ?_, ?_⟩
  · intro c hc
    exact List.all_eq_true.mp List.all_takeWhile c (List.mem_reverse.mp hc)
  · rw [trimRight, ← List.reverse_append, List.takeWhile_append_dropWhile, List.reverse_reverse]

/-- **Trimming takes away blanks only**, and only at the ends. -/
theorem append_trim_append (text : List Char) :
    ∃ l r : List Char, (∀ c ∈ l, isBlank c = true) ∧ (∀ c ∈ r, isBlank c = true) ∧
      text = l ++ trim text ++ r := by
  obtain ⟨r, hr, h⟩ := trimRight_append (text.dropWhile isBlank)
  refine ⟨text.takeWhile isBlank, r, ?_, hr, ?_⟩
  · intro c hc
    exact List.all_eq_true.mp List.all_takeWhile c hc
  · rw [List.append_assoc, trim, ← h, List.takeWhile_append_dropWhile]

/-- A trimmed text does not start with a blank. -/
theorem head?_trim (text : List Char) : ∀ c ∈ (trim text).head?, isBlank c = false := by
  intro c hc
  obtain ⟨r, -, hr⟩ := trimRight_append (text.dropWhile isBlank)
  have hhead : (text.dropWhile isBlank).head? = some c := by
    rw [hr, List.head?_append, ← trim, Option.mem_def.1 hc]
    rfl
  have hnot := List.head?_dropWhile_not isBlank text
  rw [hhead] at hnot
  simpa using hnot

end Gamebook.Text
