/-
**Marks among characters and among bytes.**

A block is looked for in the characters of a text or in its bytes.  Marks of ASCII characters are
found in the bytes where they stand in the text and nowhere else: no byte of another character is
the byte of an ASCII one.

Main definitions:

* `Form` — a way to spell characters that keeps ASCII characters apart from all others;
* `Form.characters`, `Form.bytes` — characters as they are, and UTF-8;
* `Form.marks` — the spelled marks of a kind of blocks.

Main results:

* `Form.isPrefixOf_write` — **a spelled mark is at the beginning of a spelled text just if the mark
  is at the beginning of the text**;
* `Form.distinct` — marks that can be told apart can be told apart when they are spelled;
* `Form.seek_other` — a character at which no mark begins is passed, however it is spelled.
-/

import Gamebook.Proofs.Macro.Blocks

set_option relaxedAutoImplicit false
set_option autoImplicit false

namespace Gamebook

/-- The characters below 128. -/
def IsAscii (c : Char) : Prop := c.toNat < 128

instance (c : Char) : Decidable (IsAscii c) := inferInstanceAs (Decidable (c.toNat < 128))

/-- A way to spell characters that keeps ASCII characters apart from all others. -/
structure Form (α : Type) where
  spell : Char → List α
  ne_nil : ∀ c, spell c ≠ []
  /-- The letter for an ASCII character. -/
  letter : Char → α
  spell_ascii : ∀ m, IsAscii m → spell m = [letter m]
  /-- It is in the spelling of no other character. -/
  eq_of_mem : ∀ m c, IsAscii m → letter m ∈ spell c → c = m

namespace Form

variable {α : Type} (form : Form α)

/-- A spelled text. -/
def write (text : List Char) : List α := text.flatMap form.spell

@[simp] theorem write_nil : form.write [] = [] := rfl

@[simp] theorem write_cons (c : Char) (text : List Char) :
    form.write (c :: text) = form.spell c ++ form.write text := rfl

@[simp] theorem write_append (text rest : List Char) :
    form.write (text ++ rest) = form.write text ++ form.write rest :=
  List.flatMap_append

/-- Characters as they are. -/
def characters : Form Char where
  spell c := [c]
  ne_nil _ := List.cons_ne_nil _ _
  letter c := c
  spell_ascii _ _ := rfl
  eq_of_mem _ _ _ hm := (List.mem_singleton.1 hm).symm

@[simp] theorem write_characters (text : List Char) : characters.write text = text :=
  List.flatMap_singleton' text

theorem toNat_byte {m : Char} (hm : IsAscii m) : (UInt8.ofNat m.toNat).toNat = m.toNat := by
  rw [UInt8.toNat_ofNat']
  exact Nat.mod_eq_of_lt (Nat.lt_trans hm (by decide))

/-- The bytes of characters that are not ASCII are 128 or more. -/
theorem le_of_mem_utf8 {c : Char} (hc : ¬ IsAscii c) {a : UInt8}
    (ha : a ∈ String.utf8EncodeChar c) : 128 ≤ a.toNat := by
  have hlarge : ¬ c.val.toNat ≤ 127 := fun h => hc (Nat.lt_succ_of_le h)
  rw [String.utf8EncodeChar, if_neg hlarge] at ha
  split at ha
  all_goals try split at ha
  all_goals
    simp only [List.mem_cons, List.not_mem_nil, or_false] at ha
    rcases ha with rfl | rfl | rfl | rfl <;> rw [UInt8.toNat_ofNat'] <;> omega

/-- The bytes of a text in UTF-8. -/
def bytes : Form UInt8 where
  spell := String.utf8EncodeChar
  ne_nil _ := String.utf8EncodeChar_ne_nil
  letter c := UInt8.ofNat c.toNat
  spell_ascii _ hm := if_pos (Nat.le_of_lt_succ hm)
  eq_of_mem m c hm hc := by
    by_cases hascii : IsAscii c
    · have hspell : String.utf8EncodeChar c = [UInt8.ofNat c.toNat] :=
        if_pos (Nat.le_of_lt_succ hascii)
      rw [hspell, List.mem_singleton] at hc
      have hnat := congrArg UInt8.toNat hc
      rw [toNat_byte hm, toNat_byte hascii] at hnat
      exact (Char.toNat_inj.1 hnat).symm
    · have hle := le_of_mem_utf8 hascii hc
      rw [toNat_byte hm] at hle
      exact absurd hm (Nat.not_lt.2 hle)

theorem write_bytes (text : List Char) : bytes.write text = Text.utf8 text := rfl

/-! ### Marks that are spelled -/

variable {form}

theorem write_prefix_iff {mark text : List Char} (hm : ∀ c ∈ mark, IsAscii c) :
    form.write mark <+: form.write text ↔ mark <+: text := by
  constructor
  · induction mark generalizing text with
    | nil => exact fun _ => List.nil_prefix
    | cons m mark ih =>
        intro h
        have hascii := hm m List.mem_cons_self
        rw [write_cons, form.spell_ascii m hascii] at h
        cases text with
        | nil => cases List.prefix_nil.1 h
        | cons c text =>
            -- the letter of the mark is the first one of the character
            obtain ⟨a, letters, hc⟩ := List.exists_cons_of_ne_nil (form.ne_nil c)
            rw [write_cons, hc, List.singleton_append, List.cons_append,
              List.cons_prefix_cons] at h
            obtain ⟨rfl, hrest⟩ := h
            obtain rfl : c = m := form.eq_of_mem m c hascii (hc ▸ List.mem_cons_self)
            rw [form.spell_ascii c hascii] at hc
            obtain ⟨-, rfl⟩ := List.cons.inj hc
            rw [List.nil_append] at hrest
            exact (List.prefix_cons_inj c).2
              (ih (fun c' hc' => hm c' (List.mem_cons_of_mem _ hc')) hrest)
  · rintro ⟨behind, rfl⟩
    exact write_append form mark behind ▸ List.prefix_append _ _

variable [BEq α] [LawfulBEq α]

/-- **A spelled mark is at the beginning of a spelled text just if the mark is at the beginning of
the text.** -/
theorem isPrefixOf_write {mark : List Char} (hm : ∀ c ∈ mark, IsAscii c) (text : List Char) :
    (form.write mark).isPrefixOf (form.write text) = mark.isPrefixOf text := by
  rw [Bool.eq_iff_iff, List.isPrefixOf_iff_prefix, List.isPrefixOf_iff_prefix, write_prefix_iff hm]

/-- A mark that is at the beginning of nothing that begins with another one is not either when both
are spelled, whatever follows. -/
theorem not_isPrefixOf_write {mark other : List Char} (hm : ∀ c ∈ mark, IsAscii c)
    (ho : ∀ c ∈ other, IsAscii c) (h : ∀ rest, mark.isPrefixOf (other ++ rest) = false)
    (rest : List α) : (form.write mark).isPrefixOf (form.write other ++ rest) = false := by
  refine Bool.eq_false_iff.2 fun hpre => ?_
  have hnone : ∀ rest, ¬ mark <+: other ++ rest := fun rest hpre => by
    rw [← List.isPrefixOf_iff_prefix, h rest] at hpre
    cases hpre
  rcases List.prefix_or_prefix_of_prefix (List.isPrefixOf_iff_prefix.1 hpre)
    (List.prefix_append _ _) with hshort | hlong
  · exact hnone [] (by rw [List.append_nil]; exact (write_prefix_iff hm).1 hshort)
  · obtain ⟨more, rfl⟩ := (write_prefix_iff ho).1 hlong
    exact hnone more List.prefix_rfl

end Form

namespace Block

/-- The marks of a kind of blocks are ASCII characters. -/
structure Marks.Ascii (d : Delimiters) : Prop where
  opening : ∀ c ∈ d.opening, IsAscii c
  divider : ∀ mark, d.divider = some mark → ∀ c ∈ mark, IsAscii c
  closing : ∀ c ∈ d.closing, IsAscii c

theorem conditional_ascii : conditional.Ascii where
  opening := by simp [conditional, IsAscii]
  divider mark hm := by
    cases hm
    simp [IsAscii]
  closing := by simp [conditional, IsAscii]

theorem silent_ascii : silent.Ascii where
  opening := by simp [silent, IsAscii]
  divider _ hm := nomatch hm
  closing := by simp [silent, IsAscii]

end Block

namespace Form

open Block

variable {α : Type} (form : Form α) {d : Delimiters}

/-- The marks of a kind of blocks, spelled. -/
def marks (d : Delimiters) : Marks α where
  opening := form.write d.opening
  divider := d.divider.map form.write
  closing := form.write d.closing

theorem marks_characters (d : Delimiters) : characters.marks d = d := by
  obtain ⟨opening, divider, closing⟩ := d
  cases divider <;> simp [marks]

theorem marks_bytes (d : Delimiters) : bytes.marks d = d.utf8 := rfl

theorem spell_bracket : form.spell '<' = [form.letter '<'] :=
  form.spell_ascii '<' (by decide)

theorem notMem_spell {c : Char} (h : c ≠ '<') : form.letter '<' ∉ form.spell c :=
  fun hin => h (form.eq_of_mem '<' c (by decide) hin)

variable {form}

theorem isMark_write {mark : List Char} (h : IsMark '<' mark) :
    IsMark (form.letter '<') (form.write mark) := by
  obtain ⟨c, text, rfl, hin⟩ := h
  obtain ⟨a, letters, hc⟩ := List.exists_cons_of_ne_nil (form.ne_nil c)
  have hwrite : form.write (c :: text) = a :: (letters ++ form.write text) := by
    rw [write_cons, hc, List.cons_append]
  refine ⟨a, letters ++ form.write text, ?_, fun hletter => ?_⟩
  · rw [write_cons, write_cons, hwrite, spell_bracket]
    rfl
  · rw [← hwrite] at hletter
    obtain ⟨c', hc', hspell⟩ := List.mem_flatMap.1 hletter
    exact form.notMem_spell (fun heq => hin (heq ▸ hc')) hspell

variable [BEq α] [LawfulBEq α]

/-- **Marks that can be told apart can be told apart when they are spelled.** -/
theorem distinct (hd : d.Distinct '<') (ha : d.Ascii) :
    (form.marks d).Distinct (form.letter '<') where
  opening := isMark_write hd.opening
  divider mark hm := by
    obtain ⟨text, htext, rfl⟩ := Option.map_eq_some_iff.1 hm
    exact isMark_write (hd.divider text htext)
  closing := isMark_write hd.closing
  opening_closing := not_isPrefixOf_write ha.closing ha.opening hd.opening_closing
  opening_divider mark hm := by
    obtain ⟨text, htext, rfl⟩ := Option.map_eq_some_iff.1 hm
    exact not_isPrefixOf_write (ha.divider text htext) ha.opening (hd.opening_divider text htext)
  divider_closing mark hm := by
    obtain ⟨text, htext, rfl⟩ := Option.map_eq_some_iff.1 hm
    exact not_isPrefixOf_write ha.closing (ha.divider text htext) (hd.divider_closing text htext)
  divider_opening mark hm := by
    obtain ⟨text, htext, rfl⟩ := Option.map_eq_some_iff.1 hm
    exact not_isPrefixOf_write ha.opening (ha.divider text htext) (hd.divider_opening text htext)

variable (form) in
/-- Where no mark begins in a text, none begins when they are spelled. -/
theorem plain_write (ha : d.Ascii) {text : List Char} (h : Plain d text) :
    Plain (form.marks d) (form.write text) where
  opening := (isPrefixOf_write ha.opening text).trans h.opening
  divider mark hm := by
    obtain ⟨word, hword, rfl⟩ := Option.map_eq_some_iff.1 hm
    exact (isPrefixOf_write (ha.divider word hword) text).trans (h.divider word hword)
  closing := (isPrefixOf_write ha.closing text).trans h.closing

/-- **A character at which no mark begins is passed**, however it is spelled. -/
theorem seek_other (hd : d.Distinct '<') (ha : d.Ascii) {c : Char} {text : List Char}
    (h : Plain d (c :: text)) (position depth : Nat) (divided : Option (Nat × Nat)) :
    seek (form.marks d) position 0 depth divided (form.write (c :: text)) =
      seek (form.marks d) (position + (form.spell c).length) 0 depth divided (form.write text) := by
  by_cases hc : c = '<'
  · -- a bracket is one letter, and no mark begins with it here
    subst hc
    have hplain := form.plain_write ha h
    rw [write_cons, spell_bracket, List.singleton_append] at hplain ⊢
    exact seek_cons _ _ _ hplain.opening (hplain.divider?_eq_none _ _) hplain.closing
  · exact (distinct hd ha).passed_of_notMem (form.notMem_spell hc) _ _ _ _ (Nat.zero_le _)

end Form

end Gamebook
