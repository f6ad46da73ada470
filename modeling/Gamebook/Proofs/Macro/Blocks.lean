/-
**The end of a block.**

The end of a block is looked for letter by letter, counting the blocks that are opened and closed
on the way.  A text that closes whatever it opens leaves the count as it was, and none of its
dividers is taken for that of the block around it.

Main definitions:

* `Block.Plain` — none of the marks of a kind of blocks stands at the beginning of a text;
* `Block.Passed` — the search passes a text and is left with the count it came with.

Main results:

* `Block.Passed.enclose` — a block around a text that is passed is passed too;
* `Block.Foreign.passed` — so is a call that is no delimiter;
* `Block.find?_closed`, `Block.find?_divided` — **a block ends at its own closing call, and is
  divided at its own divider**.
-/

import Gamebook.Macro.Block
import Gamebook.Proofs.Macro.Program

set_option relaxedAutoImplicit false
set_option autoImplicit false

namespace Gamebook

namespace Block

section Search

variable {α : Type} [BEq α] {bracket : α} {d : Marks α}

/-! ### One letter -/

/-- No mark of a kind of blocks stands at the beginning of a text. -/
structure Plain (d : Marks α) (text : List α) : Prop where
  opening : d.opening.isPrefixOf text = false
  divider : ∀ mark, d.divider = some mark → mark.isPrefixOf text = false
  closing : d.closing.isPrefixOf text = false

theorem Plain.divider?_eq_none {text : List α} (h : Plain d text) (depth : Nat)
    (divided : Option (Nat × Nat)) : d.divider? depth divided text = none := by
  unfold Marks.divider?
  split
  · rename_i mark hmark
    rw [if_neg (by simp [h.divider mark hmark])]
  · rfl

/-- A letter that is neither the closing call, nor a divider that counts, nor the opening call is
passed. -/
theorem seek_cons (position depth : Nat) (divided : Option (Nat × Nat)) {c : α}
    {rest : List α} (hopening : d.opening.isPrefixOf (c :: rest) = false)
    (hdivider : d.divider? depth divided (c :: rest) = none)
    (hclosing : d.closing.isPrefixOf (c :: rest) = false) :
    seek d position 0 depth divided (c :: rest) = seek d (position + 1) 0 depth divided rest := by
  simp [seek, hopening, hdivider, hclosing]

/-- The rest of a mark is passed without being looked at. -/
theorem seek_skip (position depth : Nat) (divided : Option (Nat × Nat)) (text rest : List α) :
    seek d position text.length depth divided (text ++ rest) =
      seek d (position + text.length) 0 depth divided rest := by
  induction text generalizing position with
  | nil => rfl
  | cons c text ih =>
      rw [List.length_cons, List.cons_append, seek, ih]
      congr 1
      omega

/-! ### Texts that are passed -/

/-- In at least so many inner blocks, the search passes a text and is left with the count it came
with. -/
def Passed (d : Marks α) (least : Nat) (text : List α) : Prop :=
  ∀ (position depth : Nat) (divided : Option (Nat × Nat)) (rest : List α), least ≤ depth →
    seek d position 0 depth divided (text ++ rest) =
      seek d (position + text.length) 0 depth divided rest

namespace Passed

variable {least : Nat} {left right text : List α}

theorem nil : Passed d least [] := fun _ _ _ _ _ => rfl

theorem append (hl : Passed d least left) (hr : Passed d least right) :
    Passed d least (left ++ right) := by
  intro position depth divided rest hdepth
  rw [List.append_assoc, hl _ _ _ _ hdepth, hr _ _ _ _ hdepth, List.length_append, Nat.add_assoc]

theorem of_le {more : Nat} (h : Passed d least text) (hle : least ≤ more) : Passed d more text :=
  fun position depth divided rest hdepth => h position depth divided rest (Nat.le_trans hle hdepth)

/-- One letter, whatever follows. -/
theorem cons {c : α} (hplain : ∀ rest, Plain d (c :: (text ++ rest)))
    (h : Passed d least text) : Passed d least (c :: text) := by
  intro position depth divided rest hdepth
  have hp := hplain rest
  rw [List.cons_append, seek_cons _ _ _ hp.opening (hp.divider?_eq_none _ _) hp.closing,
    h _ _ _ _ hdepth, List.length_cons]
  congr 1
  omega

end Passed

/-! ### Delimiters that can be told apart -/

/-- A mark: two brackets, and no further one. -/
def IsMark (bracket : α) (mark : List α) : Prop :=
  ∃ c text, mark = bracket :: bracket :: c :: text ∧ bracket ∉ c :: text

/-- No delimiter can be taken for another one. -/
structure Marks.Distinct (bracket : α) (d : Marks α) : Prop where
  opening : IsMark bracket d.opening
  divider : ∀ mark, d.divider = some mark → IsMark bracket mark
  closing : IsMark bracket d.closing
  opening_closing : ∀ rest, d.closing.isPrefixOf (d.opening ++ rest) = false
  opening_divider : ∀ mark, d.divider = some mark → ∀ rest,
    mark.isPrefixOf (d.opening ++ rest) = false
  divider_closing : ∀ mark, d.divider = some mark → ∀ rest,
    d.closing.isPrefixOf (mark ++ rest) = false
  divider_opening : ∀ mark, d.divider = some mark → ∀ rest,
    d.opening.isPrefixOf (mark ++ rest) = false

variable [LawfulBEq α]

/-- A text that does not start with two brackets starts with no mark. -/
theorem IsMark.not_isPrefixOf {mark : List α} (h : IsMark bracket mark) {c : α} (hc : c ≠ bracket)
    (text : List α) :
    mark.isPrefixOf (c :: text) = false ∧ mark.isPrefixOf (bracket :: c :: text) = false := by
  obtain ⟨c', body, rfl, -⟩ := h
  have hne : (bracket == c) = false := beq_false_of_ne (Ne.symm hc)
  exact ⟨by simp [List.isPrefixOf, hne], by simp [List.isPrefixOf, hne]⟩

namespace Marks.Distinct

theorem plain_of_ne (hd : d.Distinct bracket) {c : α} (hc : c ≠ bracket) (text : List α) :
    Plain d (c :: text) ∧ Plain d (bracket :: c :: text) where
  left :=
    { opening := (hd.opening.not_isPrefixOf hc text).1
      divider := fun mark hmark => ((hd.divider mark hmark).not_isPrefixOf hc text).1
      closing := (hd.closing.not_isPrefixOf hc text).1 }
  right :=
    { opening := (hd.opening.not_isPrefixOf hc text).2
      divider := fun mark hmark => ((hd.divider mark hmark).not_isPrefixOf hc text).2
      closing := (hd.closing.not_isPrefixOf hc text).2 }

/-- A text without brackets is passed. -/
theorem passed_of_notMem (hd : d.Distinct bracket) {text : List α} (h : bracket ∉ text) :
    Passed d 0 text := by
  induction text with
  | nil => exact .nil
  | cons c text ih =>
      rw [List.mem_cons, not_or] at h
      exact .cons (fun rest => (hd.plain_of_ne (Ne.symm h.1) _).1) (ih h.2)

/-- Behind its first bracket a macro call is passed: its second bracket starts no mark. -/
theorem passed_behind (hd : d.Distinct bracket) {c : α} {text : List α} (h : bracket ∉ c :: text) :
    Passed d 0 (bracket :: c :: text) := by
  have hc : c ≠ bracket := fun heq => h (heq ▸ List.mem_cons_self)
  exact .cons (fun rest => (hd.plain_of_ne hc _).2) (hd.passed_of_notMem h)

/-- A macro call that is no delimiter is passed. -/
theorem passed_call (hd : d.Distinct bracket) {c : α} {text : List α} (h : bracket ∉ c :: text)
    (hplain : ∀ rest, Plain d (bracket :: bracket :: c :: (text ++ rest))) :
    Passed d 0 (bracket :: bracket :: c :: text) := .cons hplain (hd.passed_behind h)

/-! ### Delimiters -/

/-- The opening call opens an inner block. -/
theorem seek_opening (hd : d.Distinct bracket) (position depth : Nat)
    (divided : Option (Nat × Nat)) (rest : List α) :
    seek d position 0 depth divided (d.opening ++ rest) =
      seek d (position + d.opening.length) 0 (depth + 1) divided rest := by
  have hdivider : d.divider? depth divided (d.opening ++ rest) = none := by
    unfold divider?
    split
    · rename_i mark hmark
      rw [if_neg (by simp [hd.opening_divider mark hmark rest])]
    · rfl
  have hclosing := hd.opening_closing rest
  have hopening : d.opening.isPrefixOf (d.opening ++ rest) = true := by simp
  obtain ⟨c, text, hmark, -⟩ := hd.opening
  have hskip := seek_skip (d := d) (position + 1) (depth + 1) divided (bracket :: c :: text) rest
  rw [hmark] at hdivider hclosing hopening
  rw [hmark, List.cons_append, seek.eq_def]
  rw [List.cons_append] at hdivider hclosing hopening
  simp only [hclosing, hdivider, hopening, hmark, Bool.false_eq_true, if_false, if_true]
  rw [List.length_cons, Nat.add_sub_cancel, hskip, List.length_cons]
  congr 1
  omega

/-- The closing call closes an inner block. -/
theorem seek_closing (hd : d.Distinct bracket) (position depth : Nat)
    (divided : Option (Nat × Nat)) (rest : List α) :
    seek d position 0 (depth + 1) divided (d.closing ++ rest) =
      seek d (position + d.closing.length) 0 depth divided rest := by
  have hclosing : d.closing.isPrefixOf (d.closing ++ rest) = true := by simp
  obtain ⟨c, text, hmark, -⟩ := hd.closing
  have hskip := seek_skip (d := d) (position + 1) depth divided (bracket :: c :: text) rest
  rw [hmark, List.cons_append] at hclosing
  rw [hmark, List.cons_append, seek.eq_def]
  simp only [hclosing, hmark, if_true]
  rw [List.length_cons, Nat.add_sub_cancel, hskip, List.length_cons]
  congr 1
  omega

/-- In no inner block the closing call ends the block. -/
theorem seek_end (hd : d.Distinct bracket) (position : Nat) (divided : Option (Nat × Nat))
    (rest : List α) :
    seek d position 0 0 divided (d.closing ++ rest) = some ⟨divided, position⟩ := by
  have hclosing : d.closing.isPrefixOf (d.closing ++ rest) = true := by simp
  obtain ⟨c, text, hmark, -⟩ := hd.closing
  rw [hmark, List.cons_append] at hclosing
  rw [hmark, List.cons_append, seek]
  simp only [hclosing, hmark, if_true]

/-- In no inner block the first divider divides the block. -/
theorem seek_divider (hd : d.Distinct bracket) {mark : List α} (hm : d.divider = some mark)
    (position : Nat) (rest : List α) :
    seek d position 0 0 none (mark ++ rest) =
      seek d (position + mark.length) 0 0 (some (position, position + mark.length)) rest := by
  have hclosing := hd.divider_closing mark hm rest
  have hdivider : d.divider? 0 none (mark ++ rest) = some mark.length := by
    simp [divider?, hm]
  obtain ⟨c, text, rfl, -⟩ := hd.divider mark hm
  have hskip := seek_skip (d := d) (position + 1) 0
    (some (position, position + (text.length + 2) + 1)) (bracket :: c :: text) rest
  rw [List.cons_append] at hclosing hdivider
  rw [List.cons_append, seek]
  simp only [hclosing, hdivider, List.length_cons, Bool.false_eq_true, if_false] at hskip ⊢
  rw [hskip]
  congr 1
  omega

/-- A divider that does not count is passed: that of an inner block, or a further one. -/
theorem seek_divider_passed (hd : d.Distinct bracket) {mark : List α} (hm : d.divider = some mark)
    {depth : Nat} {divided : Option (Nat × Nat)} (hcount : ¬ (depth = 0 ∧ divided = none))
    (position : Nat) (rest : List α) :
    seek d position 0 depth divided (mark ++ rest) =
      seek d (position + mark.length) 0 depth divided rest := by
  have hdivider : ∀ text, d.divider? depth divided text = none := by
    intro text
    unfold divider?
    split
    · exact absurd ⟨rfl, rfl⟩ hcount
    · rfl
  have hopening := hd.divider_opening mark hm rest
  have hclosing := hd.divider_closing mark hm rest
  obtain ⟨c, text, rfl, hinside⟩ := hd.divider mark hm
  have hbehind := hd.passed_behind hinside (position + 1) depth divided rest (Nat.zero_le _)
  rw [List.cons_append] at hopening hclosing
  rw [List.cons_append, seek_cons _ _ _ hopening (hdivider _) hclosing, hbehind]
  simp only [List.length_cons]
  congr 1
  omega

end Marks.Distinct

/-- **A block around a text that is passed is passed too.** -/
theorem Passed.enclose (hd : d.Distinct bracket) {text : List α} (h : Passed d 1 text) :
    Passed d 0 (d.opening ++ (text ++ d.closing)) := by
  intro position depth divided rest _
  rw [List.append_assoc, hd.seek_opening, List.append_assoc, h _ _ _ _ (by omega), hd.seek_closing,
    List.length_append, List.length_append]
  congr 1
  omega

end Search

variable {d : Delimiters}

/-! ### The standard blocks -/

theorem conditional_distinct : conditional.Distinct '<' where
  opening := ⟨'i', _, rfl, by decide⟩
  divider mark hmark := by
    cases hmark
    exact ⟨'e', _, rfl, by decide⟩
  closing := ⟨'e', _, rfl, by decide⟩
  opening_closing _ := rfl
  opening_divider mark hmark _ := by
    cases hmark
    rfl
  divider_closing mark hmark _ := by
    cases hmark
    rfl
  divider_opening mark hmark _ := by
    cases hmark
    rfl

theorem silent_distinct : silent.Distinct '<' where
  opening := ⟨'s', _, rfl, by decide⟩
  divider _ hmark := nomatch hmark
  closing := ⟨'e', _, rfl, by decide⟩
  opening_closing _ := rfl
  opening_divider _ hmark := nomatch hmark
  divider_closing _ hmark := nomatch hmark
  divider_opening _ hmark := nomatch hmark

/-! ### Finding the block -/

/-- **A block ends at its own closing call.** -/
theorem find?_closed (hd : d.Distinct '<') {body : List Char} (h : Passed d 0 body)
    (rest : List Char) :
    find? d (body ++ (d.closing ++ rest)) =
      some ⟨body, none, body.length + d.closing.length⟩ := by
  rw [find?, h _ _ _ _ (Nat.le_refl 0), hd.seek_end]
  simp

/-- **A block is divided at its own divider.** -/
theorem find?_divided (hd : d.Distinct '<') {mark body alternate : List Char}
    (hm : d.divider = some mark) (hb : Passed d 0 body) (ha : Passed d 0 alternate)
    (rest : List Char) :
    find? d (body ++ (mark ++ (alternate ++ (d.closing ++ rest)))) =
      some ⟨body, some alternate,
        body.length + (mark.length + (alternate.length + d.closing.length))⟩ := by
  rw [find?, hb _ _ _ _ (Nat.le_refl 0), hd.seek_divider hm, ha _ _ _ _ (Nat.le_refl 0),
    hd.seek_end]
  simp only [Option.map_some, Nat.zero_add, Option.some.injEq, Block.mk.injEq]
  refine ⟨by simp, ?_, by omega⟩
  have hinside : body.length + mark.length + alternate.length =
    (body ++ (mark ++ alternate)).length := by simp; omega
  have htext : body ++ (mark ++ (alternate ++ (d.closing ++ rest))) =
    (body ++ (mark ++ alternate)) ++ (d.closing ++ rest) := by simp
  rw [htext, hinside, List.take_left', ← List.append_assoc, ← List.length_append,
    List.drop_left']
  · rfl
  · rfl

/-! ### Calls of other macros -/

/-- Calls of a macro are no delimiters of a kind of blocks. -/
structure Foreign (d : Delimiters) (name : List Char) : Prop where
  ne_nil : name ≠ []
  notMem : '<' ∉ name
  plain : ∀ text, Plain d ('<' :: '<' :: (name ++ text))

namespace Foreign

variable {name : List Char}

/-- A call is two brackets and a text without any. -/
theorem exists_call (h : Foreign d name) {text : List Char} (ht : '<' ∉ text) :
    ∃ c body, name ++ text = c :: body ∧ '<' ∉ c :: body ∧
      ∀ rest, Plain d ('<' :: '<' :: c :: (body ++ rest)) := by
  obtain ⟨hne, hnotMem, hplain⟩ := h
  obtain ⟨c, name, rfl⟩ := List.exists_cons_of_ne_nil hne
  refine ⟨c, name ++ text, rfl, by simpa [not_or, ht] using hnotMem, fun rest => ?_⟩
  rw [List.append_assoc]
  exact hplain (text ++ rest)

theorem passed (hd : d.Distinct '<') (h : Foreign d name) {text : List Char} (ht : '<' ∉ text) :
    Passed d 0 ('<' :: '<' :: (name ++ text)) := by
  obtain ⟨c, body, hcall, hin, hplain⟩ := h.exists_call ht
  rw [hcall]
  exact hd.passed_call hin hplain

end Foreign

/-- Neither assignments nor silent parts open, divide or close a condition. -/
theorem foreign_conditional {name : List Char} (h : name = ['s', 'e', 't'] ∨
      name = ['s', 'i', 'l', 'e', 'n', 't', 'l', 'y'] ∨
      name = ['e', 'n', 'd', 's', 'i', 'l', 'e', 'n', 't', 'l', 'y']) :
    Foreign conditional name := by
  have hplain : ∀ text, conditional.opening.isPrefixOf text = false →
      ['<', '<', 'e', 'l', 's', 'e', '>', '>'].isPrefixOf text = false →
      conditional.closing.isPrefixOf text = false → Plain conditional text := by
    intro text hopening hdivider hclosing
    refine ⟨hopening, fun mark hmark => ?_, hclosing⟩
    cases hmark
    exact hdivider
  rcases h with rfl | rfl | rfl
  · exact ⟨by decide, by decide, fun text => hplain _ rfl rfl rfl⟩
  · exact ⟨by decide, by decide, fun text => hplain _ rfl rfl rfl⟩
  · exact ⟨by decide, by decide, fun text => hplain _ rfl rfl rfl⟩

/-- Neither assignments nor conditions open or close a silent part. -/
theorem foreign_silent {name : List Char} (h : name = ['s', 'e', 't'] ∨ name = ['i', 'f'] ∨
      name = ['e', 'l', 's', 'e'] ∨ name = ['e', 'n', 'd', 'i', 'f']) :
    Foreign silent name := by
  have hplain : ∀ text, silent.opening.isPrefixOf text = false →
      silent.closing.isPrefixOf text = false → Plain silent text :=
    fun _ hopening hclosing => ⟨hopening, fun _ hmark => (nomatch hmark), hclosing⟩
  rcases h with rfl | rfl | rfl | rfl
  · exact ⟨by decide, by decide, fun text => hplain _ rfl rfl⟩
  · exact ⟨by decide, by decide, fun text => hplain _ rfl rfl⟩
  · exact ⟨by decide, by decide, fun text => hplain _ rfl rfl⟩
  · exact ⟨by decide, by decide, fun text => hplain _ rfl rfl⟩

end Block

end Gamebook
