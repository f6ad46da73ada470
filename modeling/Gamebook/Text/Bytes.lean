/-
**Positions in a text, counted in bytes.**

A reader is told positions as byte offsets into the UTF-8 form of a text.  A position that falls
inside a character splits nothing.

Main definitions:

* `Text.utf8`, `Text.size` — the bytes of a text, and their number;
* `Text.splitAt?` — a text cut in two at a byte offset;
* `Text.slice?` — what stands between two byte offsets.

Main results:

* `Text.size_append` — sizes add up;
* `Text.splitAt?_eq_some_iff` — **a cut at `n` leaves a first part of `n` bytes** and loses
  nothing; there is no other way to cut there;
* `Text.slice?_between` — what stands between two texts is cut out by their sizes.
-/

set_option relaxedAutoImplicit false
set_option autoImplicit false

namespace Gamebook.Text

/-- The bytes of `text` in UTF-8. -/
def utf8 (text : List Char) : List UInt8 := text.flatMap String.utf8EncodeChar

/-- The number of bytes of `text` in UTF-8. -/
def size : List Char → Nat
  | [] => 0
  | c :: text => c.utf8Size + size text

@[simp] theorem size_nil : size [] = 0 := rfl

@[simp] theorem size_cons (c : Char) (text : List Char) :
    size (c :: text) = c.utf8Size + size text := rfl

theorem size_append (text rest : List Char) : size (text ++ rest) = size text + size rest := by
  induction text with
  | nil => simp
  | cons c text ih => simp only [List.cons_append, size_cons, ih, Nat.add_assoc]

theorem utf8_append (text rest : List Char) : utf8 (text ++ rest) = utf8 text ++ utf8 rest :=
  List.flatMap_append

@[simp] theorem length_utf8 (text : List Char) : (utf8 text).length = size text := by
  induction text with
  | nil => rfl
  | cons c text ih =>
      rw [utf8, List.flatMap_cons, List.length_append, String.length_utf8EncodeChar, ← utf8, ih,
        size_cons]

/-- Cuts `text` after its first `n` bytes; `none` if the text is shorter or the cut would fall
inside a character. -/
def splitAt? : Nat → List Char → Option (List Char × List Char)
  | 0, text => some ([], text)
  | _ + 1, [] => none
  | n + 1, c :: text =>
      if c.utf8Size ≤ n + 1 then
        (splitAt? (n + 1 - c.utf8Size) text).map fun parts => (c :: parts.1, parts.2)
      else none

/-- What stands in `text` from byte `start` up to byte `stop`; `none` if one of them falls inside a
character or behind the end, or the second one comes first. -/
def slice? (start stop : Nat) (text : List Char) : Option (List Char) :=
  if start ≤ stop then
    match splitAt? start text with
    | some (_, rest) => (splitAt? (stop - start) rest).map Prod.fst
    | none => none
  else none

/-- **A cut at `n` leaves a first part of `n` bytes** and loses nothing; there is no other way to
cut there. -/
theorem splitAt?_eq_some_iff (n : Nat) (text left right : List Char) :
    splitAt? n text = some (left, right) ↔ text = left ++ right ∧ size left = n := by
  induction text generalizing n left with
  | nil =>
      cases n with
      | zero => cases left <;> simp [splitAt?]
      | succ n =>
          simp only [splitAt?, reduceCtorEq, false_iff, not_and]
          intro h
          have hl : left = [] := by simpa using (List.append_eq_nil_iff.mp h.symm).1
          simp [hl]
  | cons c text ih =>
      have hc := c.utf8Size_pos
      cases n with
      | zero =>
          cases left with
          | nil => simp [splitAt?, eq_comm]
          | cons d left => have := d.utf8Size_pos; simp [splitAt?]; omega
      | succ n =>
          cases left with
          | nil =>
              simp only [splitAt?]
              split <;> simp
          | cons d left =>
              simp only [splitAt?]
              split
              · rename_i h
                simp only [Option.map_eq_some_iff, Prod.mk.injEq, List.cons.injEq, Prod.exists,
                  List.cons_append, size_cons]
                constructor
                · rintro ⟨a, b, hs, ⟨rfl, rfl⟩, rfl⟩
                  obtain ⟨h₁, h₂⟩ := (ih _ _).mp hs
                  exact ⟨⟨rfl, h₁⟩, by omega⟩
                · rintro ⟨⟨rfl, ht⟩, hn⟩
                  exact ⟨left, right, (ih _ _).mpr ⟨ht, by omega⟩, ⟨rfl, rfl⟩, rfl⟩
              · simp only [reduceCtorEq, List.cons_append, List.cons.injEq, size_cons,
                  false_iff, not_and]
                rintro ⟨rfl, -⟩
                omega

/-- What stands between two texts is cut out by their sizes. -/
theorem slice?_between (before inside behind : List Char) :
    slice? (size before) (size before + size inside) (before ++ (inside ++ behind)) =
      some inside := by
  have hbefore : splitAt? (size before) (before ++ (inside ++ behind)) =
      some (before, inside ++ behind) := (splitAt?_eq_some_iff _ _ _ _).2 ⟨rfl, rfl⟩
  have hinside : splitAt? (size inside) (inside ++ behind) = some (inside, behind) :=
    (splitAt?_eq_some_iff _ _ _ _).2 ⟨rfl, rfl⟩
  rw [slice?, if_pos (Nat.le_add_right _ _), hbefore, Nat.add_sub_cancel_left]
  simp only [hinside, Option.map_some]

end Gamebook.Text
