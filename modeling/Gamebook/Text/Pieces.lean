/-
**Pieces of a text, from left to right.**

A text is gone through once.  Where a piece starts it is taken whole and the next one is looked for
behind it; any other character is passed over.

Main definitions:

* `Text.collectFrom`, `Text.collect` — the pieces of a text;
* `Text.removeFrom`, `Text.remove` — the text without them.

Main results:

* `Text.collect_piece`, `Text.collect_passed` — **one step of going through a text**: a piece that
  it starts with is taken, and characters where none starts are passed over;
* `Text.remove_piece`, `Text.remove_passed` — the same where the pieces are left out.
-/

set_option relaxedAutoImplicit false
set_option autoImplicit false

namespace Gamebook.Text

/-- The pieces of a text behind its first `skip` characters.  `piece?` tells the piece that starts
a text and its length. -/
def collectFrom {α : Type} (piece? : List Char → Option (α × Nat)) : Nat → List Char → List α
  | _, [] => []
  | skip + 1, _ :: rest => collectFrom piece? skip rest
  | 0, c :: rest =>
      match piece? (c :: rest) with
      | some (piece, length) => piece :: collectFrom piece? (length - 1) rest
      | none => collectFrom piece? 0 rest

/-- The pieces of a text. -/
def collect {α : Type} (piece? : List Char → Option (α × Nat)) (text : List Char) : List α :=
  collectFrom piece? 0 text

section

variable {α : Type} {piece? : List Char → Option (α × Nat)} {text : List Char}

theorem collectFrom_append (piece? : List Char → Option (α × Nat)) (text rest : List Char) :
    collectFrom piece? text.length (text ++ rest) = collect piece? rest := by
  induction text with
  | nil => rfl
  | cons c text ih => exact ih

/-- A piece that a text starts with is taken whole. -/
theorem collect_piece {a : α} {rest : List Char} (hne : text ≠ [])
    (h : piece? (text ++ rest) = some (a, text.length)) :
    collect piece? (text ++ rest) = a :: collect piece? rest := by
  obtain ⟨c, text, rfl⟩ := List.exists_cons_of_ne_nil hne
  rw [List.cons_append] at h ⊢
  rw [collect, collectFrom, h]
  exact congrArg (a :: ·) (collectFrom_append piece? text rest)

/-- Characters where no piece starts are passed over. -/
theorem collect_passed (h : ∀ c ∈ text, ∀ rest, piece? (c :: rest) = none) (rest : List Char) :
    collect piece? (text ++ rest) = collect piece? rest := by
  induction text with
  | nil => rfl
  | cons c text ih =>
      have hc := h c List.mem_cons_self (text ++ rest)
      rw [List.cons_append, collect, collectFrom, hc]
      exact ih fun d hd => h d (List.mem_cons_of_mem c hd)

end

/-- What is left of a text behind its first `skip` characters.  `length?` tells the length of the
piece that starts a text. -/
def removeFrom (length? : List Char → Option Nat) : Nat → List Char → List Char
  | _, [] => []
  | skip + 1, _ :: rest => removeFrom length? skip rest
  | 0, c :: rest =>
      match length? (c :: rest) with
      | some length => removeFrom length? (length - 1) rest
      | none => c :: removeFrom length? 0 rest

/-- What is left of a text without its pieces. -/
def remove (length? : List Char → Option Nat) (text : List Char) : List Char :=
  removeFrom length? 0 text

section

variable {length? : List Char → Option Nat} {text : List Char}

theorem removeFrom_append (length? : List Char → Option Nat) (text rest : List Char) :
    removeFrom length? text.length (text ++ rest) = remove length? rest := by
  induction text with
  | nil => rfl
  | cons c text ih => exact ih

/-- A piece that a text starts with is left out. -/
theorem remove_piece {rest : List Char} (hne : text ≠ [])
    (h : length? (text ++ rest) = some text.length) :
    remove length? (text ++ rest) = remove length? rest := by
  obtain ⟨c, text, rfl⟩ := List.exists_cons_of_ne_nil hne
  rw [List.cons_append] at h ⊢
  rw [remove, removeFrom, h]
  exact removeFrom_append length? text rest

/-- Characters where no piece starts are left. -/
theorem remove_passed (h : ∀ c ∈ text, ∀ rest, length? (c :: rest) = none) (rest : List Char) :
    remove length? (text ++ rest) = text ++ remove length? rest := by
  induction text with
  | nil => rfl
  | cons c text ih =>
      have hc := h c List.mem_cons_self (text ++ rest)
      rw [List.cons_append, remove, removeFrom, hc]
      exact congrArg (c :: ·) (ih fun d hd => h d (List.mem_cons_of_mem c hd))

/-- A text without pieces is left as it is. -/
theorem remove_eq_self (h : ∀ rest, rest <:+ text → length? rest = none) :
    remove length? text = text := by
  induction text with
  | nil => rfl
  | cons c text ih =>
      rw [remove, removeFrom, h (c :: text) (List.suffix_refl _)]
      exact congrArg (c :: ·) (ih fun rest hrest => h rest (hrest.trans (List.suffix_cons c text)))

theorem removeFrom_sublist (length? : List Char → Option Nat) (skip : Nat) (text : List Char) :
    (removeFrom length? skip text).Sublist text := by
  induction text generalizing skip with
  | nil => exact List.nil_sublist []
  | cons c text ih =>
      cases skip with
      | succ skip => exact (ih skip).cons c
      | zero =>
          rw [removeFrom]
          split
          · exact (ih _).cons c
          · exact (ih 0).cons_cons c

/-- Nothing is added, and what is left keeps its order. -/
theorem remove_sublist (length? : List Char → Option Nat) (text : List Char) :
    (remove length? text).Sublist text := removeFrom_sublist length? 0 text

end

end Gamebook.Text
