/-
**Lists of tags read back.**

The tags of a tiddler stand in one string, with spaces between them, and a tag with a blank in it
stands between double brackets.  One between brackets is read as it stands.  A bare one ends at the
next blank, but a dollar sign is no part of a bare tag either: one with dollar signs in it is torn
into what stands between them.

Main definitions:

* `Record.Tag`, `Record.Tag.source` — a tag that a list can hold, and how it is written;
* `Record.Tag.pieces` — what is read of a tag;
* `Record.row` — tags with what stands behind each of them.

Main results:

* `Record.collect_bare`, `Record.collect_source` — **a tag is read up to its own end**;
* `Record.readTags_row` — so are all of them, one after another;
* `Record.readTagList_row_iff` — **which lists of tags are read back**: those without a bare tag that
  holds a dollar sign.
-/

import Gamebook.Passage.Record
import Gamebook.Text.Runs
import Mathlib.Data.List.Basic

set_option relaxedAutoImplicit false
set_option autoImplicit false

namespace Gamebook.Record

/-! ### Tags as they are written -/

/-- A tag that a list can hold: it is not empty, and there are no brackets in it. -/
structure Tag where
  text : String
  ne_nil : text.toList ≠ [] := by decide
  plain : '[' ∉ text.toList ∧ ']' ∉ text.toList := by decide

namespace Tag

/-- Whether there is a blank in a tag. -/
def spaced (tag : Tag) : Bool := tag.text.toList.any Text.isBlank

/-- A tag as it is written: between brackets if there is a blank in it, and bare otherwise. -/
def source (tag : Tag) : List Char :=
  if tag.spaced then '[' :: '[' :: (tag.text.toList ++ [']', ']']) else tag.text.toList

/-- What is read of a tag: all of it, or the pieces of a bare one. -/
def pieces (tag : Tag) : List (List Char) :=
  if tag.spaced then [tag.text.toList] else Text.runs isTagChar tag.text.toList

end Tag

/-- Tags as they are written, each with what stands behind it. -/
def row : List (Tag × List Char) → List Char
  | [] => []
  | (tag, gap) :: items => tag.source ++ (gap ++ row items)

variable {c : Char} {text rest : List Char} {tag : Tag}

/-! ### Reading one tag -/

theorem isTagChar_of_isBlank (hc : Text.isBlank c = true) : isTagChar c = false := by
  rw [isTagChar, hc]
  rfl

/-- A text that does not start with a bracket is read as a bare tag. -/
theorem tag?_of_head (h : text.head? ≠ some '[') : tag? text = Text.run? isTagChar text := by
  unfold tag?
  split
  · exact absurd rfl h
  · rfl

/-- No tag starts with a blank. -/
theorem tag?_blank (hc : Text.isBlank c = true) (rest : List Char) : tag? (c :: rest) = none := by
  have hhead : (c :: rest).head? ≠ some '[' := by
    intro heq
    cases heq
    cases hc
  rw [tag?_of_head hhead, Text.run?_cons_of_neg (isTagChar_of_isBlank hc)]

/-- **Of a bare text its runs of tag characters are read**, each as a tag of its own. -/
theorem collect_bare (hblank : ∀ c ∈ text, Text.isBlank c = false) (hbracket : '[' ∉ text)
    (hrest : ∀ c ∈ rest.head?, Text.isBlank c = true) :
    Text.collect tag? (text ++ rest) = Text.runs isTagChar text ++ Text.collect tag? rest := by
  induction text using Text.runInduction isTagChar with
  | nil => rfl
  | other c text hc ih =>
      have hblank := (List.forall_mem_cons.1 hblank).2
      obtain ⟨hne, hbracket⟩ := List.ne_and_not_mem_of_not_mem_cons hbracket
      have hnone : ∀ rest, tag? (c :: rest) = none := by
        intro rest
        have hhead : (c :: rest).head? ≠ some '[' := fun heq => hne (Option.some.inj heq).symm
        rw [tag?_of_head hhead, Text.run?_cons_of_neg hc]
      have hpassed := Text.collect_passed (List.forall_mem_singleton.2 hnone) (text ++ rest)
      rw [Text.runs_cons_of_neg hc, ← ih hblank hbracket]
      exact hpassed
  | run run text hne hrun htext ih =>
      have hblank' : ∀ c ∈ text, Text.isBlank c = false :=
        fun c hc => hblank c (List.mem_append_right run hc)
      have hbracket' : '[' ∉ text := fun hin => hbracket (List.mem_append_right run hin)
      have hbehind : ∀ c ∈ (text ++ rest).head?, isTagChar c = false := by
        cases text with
        | nil => exact fun c hc => isTagChar_of_isBlank (hrest c hc)
        | cons d text => exact htext
      have hhead : (run ++ (text ++ rest)).head? ≠ some '[' := by
        obtain ⟨c, run, rfl⟩ := List.exists_cons_of_ne_nil hne
        intro heq
        exact hbracket (Option.some.inj heq ▸ List.mem_cons_self)
      have hread : tag? (run ++ (text ++ rest)) = some (run, run.length) := by
        rw [tag?_of_head hhead, Text.run?_append hne hrun hbehind]
      rw [List.append_assoc, Text.collect_piece hne hread, ih hblank' hbracket',
        Text.runs_append hne hrun htext, List.cons_append]

/-- A text between brackets is read as it stands. -/
theorem tag?_brackets (hne : text ≠ []) (h : ']' ∉ text) (rest : List Char) :
    tag? ('[' :: '[' :: (text ++ ']' :: ']' :: rest)) = some (text, text.length + 4) := by
  have hplain : ∀ c ∈ text, (c != ']') = true := fun c hc => bne_iff_ne.2 (ne_of_mem_of_not_mem hc h)
  rw [tag?]
  simp only [Text.takeWhile_until h, List.dropWhile_append_of_pos hplain]
  exact if_neg hne

theorem source_ne_nil (tag : Tag) : tag.source ≠ [] := by
  rw [Tag.source]
  split
  · exact List.cons_ne_nil _ _
  · exact tag.ne_nil

/-- **A tag is read up to its own end**, if a blank is behind it, or nothing. -/
theorem collect_source (tag : Tag) (hrest : ∀ c ∈ rest.head?, Text.isBlank c = true) :
    Text.collect tag? (tag.source ++ rest) = tag.pieces ++ Text.collect tag? rest := by
  cases hspaced : tag.spaced with
  | true =>
      have hsource : tag.source = '[' :: '[' :: (tag.text.toList ++ [']', ']']) := if_pos hspaced
      have hpieces : tag.pieces = [tag.text.toList] := if_pos hspaced
      have hread : tag? (tag.source ++ rest) = some (tag.text.toList, tag.source.length) := by
        have htext : tag.source ++ rest =
            '[' :: '[' :: (tag.text.toList ++ ']' :: ']' :: rest) := by simp [hsource]
        rw [htext, tag?_brackets tag.ne_nil tag.plain.2, hsource]
        simp
      rw [Text.collect_piece (source_ne_nil tag) hread, hpieces, List.singleton_append]
  | false =>
      have hsource : tag.source = tag.text.toList := if_neg (Bool.eq_false_iff.1 hspaced)
      have hpieces : tag.pieces = Text.runs isTagChar tag.text.toList :=
        if_neg (Bool.eq_false_iff.1 hspaced)
      have hblank : ∀ c ∈ tag.text.toList, Text.isBlank c = false :=
        fun c hc => Bool.eq_false_iff.2 (List.any_eq_false.1 hspaced c hc)
      rw [hsource, hpieces, collect_bare hblank tag.plain.1 hrest]

/-! ### Reading a list -/

/-- **Tags are read one after another**, and the blanks around them are passed over. -/
theorem readTags_row {before : List Char} {items : List (Tag × List Char)}
    (hbefore : ∀ c ∈ before, Text.isBlank c = true)
    (hgaps : ∀ item ∈ items, ∀ c ∈ item.2, Text.isBlank c = true)
    (hapart : ∀ item ∈ items.dropLast, item.2 ≠ []) :
    readTags (before ++ row items) = items.flatMap fun item => item.1.pieces := by
  rw [readTags, Text.collect_passed (fun c hc => tag?_blank (hbefore c hc))]
  induction items with
  | nil => rfl
  | cons item items ih =>
      obtain ⟨tag, gap⟩ := item
      obtain ⟨hgap, hgaps⟩ := List.forall_mem_cons.1 hgaps
      -- behind the tag stands a blank, if anything does
      have hbehind : ∀ c ∈ (gap ++ row items).head?, Text.isBlank c = true := by
        cases gap with
        | cons c gap => exact fun d hd => Option.some.inj hd ▸ hgap c List.mem_cons_self
        | nil =>
            cases items with
            | nil => exact fun c hc => nomatch hc
            | cons item items => exact absurd rfl (hapart (tag, []) List.mem_cons_self)
      have hmore : ∀ item ∈ items.dropLast, item.2 ≠ [] := by
        cases items with
        | nil => exact fun item hitem => absurd hitem List.not_mem_nil
        | cons next items => exact fun item hitem => hapart item (List.mem_cons_of_mem _ hitem)
      have hpassed := Text.collect_passed (fun c hc => tag?_blank (hgap c hc)) (row items)
      rw [row, collect_source tag hbehind, hpassed, ih hgaps hmore, List.flatMap_cons]

/-! ### Which lists are read back -/

/-- A bare tag without a dollar sign is read as it stands. -/
theorem pieces_eq (hdollar : '$' ∈ tag.text.toList → tag.spaced = true) :
    tag.pieces = [tag.text.toList] := by
  cases hspaced : tag.spaced with
  | true => exact if_pos hspaced
  | false =>
      have hnone : '$' ∉ tag.text.toList := fun hin => by
        rw [hdollar hin] at hspaced
        cases hspaced
      have hall : ∀ c ∈ tag.text.toList, isTagChar c = true := by
        intro c hc
        have hblank : Text.isBlank c = false :=
          Bool.eq_false_iff.2 (List.any_eq_false.1 hspaced c hc)
        rw [isTagChar, hblank, bne_iff_ne.2 (ne_of_mem_of_not_mem hc hnone)]
        rfl
      have hruns : Text.runs isTagChar (tag.text.toList ++ []) = [tag.text.toList] :=
        Text.runs_append tag.ne_nil hall fun c hc => nomatch hc
      rw [List.append_nil] at hruns
      rw [Tag.pieces, hspaced]
      exact hruns

/-- **Which lists of tags are read back.**  Of tags with blanks between each two, and any blanks
around them all, the pieces are read, in order.  These are the tags just when every tag with a dollar
sign in it also holds a blank, and so stands between brackets. -/
theorem readTagList_row_iff (before : List Char) (items : List (Tag × List Char))
    (hbefore : ∀ c ∈ before, Text.isBlank c = true)
    (hgaps : ∀ item ∈ items, ∀ c ∈ item.2, Text.isBlank c = true)
    (hapart : ∀ item ∈ items.dropLast, item.2 ≠ []) :
    readTagList (String.ofList (before ++ row items)) =
        items.flatMap (fun item => item.1.pieces.map String.ofList) ∧
      (readTagList (String.ofList (before ++ row items)) = items.map (fun item => item.1.text) ↔
        ∀ item ∈ items, '$' ∈ item.1.text.toList → item.1.spaced = true) := by
  have hread : readTagList (String.ofList (before ++ row items)) =
      items.flatMap fun item => item.1.pieces.map String.ofList := by
    rw [readTagList, String.toList_ofList, readTags_row hbefore hgaps hapart, List.map_flatMap]
  refine ⟨hread, fun hsame item hitem hdollar => ?_, fun hdollar => ?_⟩
  · -- a tag with a dollar sign can only come from brackets
    have hin : item.1.text ∈ items.map fun item => item.1.text := List.mem_map_of_mem hitem
    rw [← hsame, hread, List.mem_flatMap] at hin
    obtain ⟨other, -, hpiece⟩ := hin
    obtain ⟨piece, hpiece, htext⟩ := List.mem_map.1 hpiece
    rw [← htext, String.toList_ofList] at hdollar
    cases hspaced : other.1.spaced with
    | true =>
        rw [Tag.pieces, if_pos hspaced, List.mem_singleton] at hpiece
        rw [hpiece, String.ofList_toList] at htext
        rw [Tag.spaced, ← htext]
        exact hspaced
    | false =>
        rw [Tag.pieces, if_neg (Bool.eq_false_iff.1 hspaced)] at hpiece
        cases Text.of_mem_runs hpiece '$' hdollar
  · rw [hread, List.map_eq_flatMap]
    refine List.flatMap_congr fun item hitem => ?_
    rw [pieces_eq (hdollar item hitem), List.map_singleton, String.ofList_toList]

/-- Tags of which one has a dollar sign, in brackets. -/
def shelf : List (Tag × List Char) :=
  [({ text := "bookmark" }, [' ']), ({ text := "under $5" }, [' ', ' ']),
    ({ text := "été" }, [])]

/-- The tags of the shelf are read back. -/
theorem readTagList_row_iff_shelf :
    (∀ c ∈ [' '], Text.isBlank c = true) ∧
      (∀ item ∈ shelf, ∀ c ∈ item.2, Text.isBlank c = true) ∧
      (∀ item ∈ shelf.dropLast, item.2 ≠ []) ∧
      readTagList " bookmark [[under $5]]  été" = ["bookmark", "under $5", "été"] := by
  have hbefore : ∀ c ∈ [' '], Text.isBlank c = true := List.forall_mem_singleton.2 (by decide)
  have hblank : shelf.all (fun item => item.2.all Text.isBlank) = true := by decide
  have hgaps : ∀ item ∈ shelf, ∀ c ∈ item.2, Text.isBlank c = true := fun item hitem =>
    List.all_eq_true.1 (List.all_eq_true.1 hblank item hitem)
  have hapart : ∀ item ∈ shelf.dropLast, item.2 ≠ [] := by decide
  have hdollar : ∀ item ∈ shelf, '$' ∈ item.1.text.toList → item.1.spaced = true := by decide
  exact ⟨hbefore, hgaps, hapart,
    (readTagList_row_iff [' '] shelf hbefore hgaps hapart).2.2 hdollar⟩

/-- Tags of which one has a dollar sign and is bare. -/
def till : List (Tag × List Char) :=
  [({ text := "cost$5" }, [' ']), ({ text := "bookmark" }, [])]

/-- **A dollar sign tears a bare tag**: three tags are read where there are two. -/
theorem dollar_tears :
    till.map (fun item => item.1.text) = ["cost$5", "bookmark"] ∧
      row till = "cost$5 bookmark".toList ∧
      readTagList "cost$5 bookmark" = ["cost", "5", "bookmark"] ∧
      readTagList "cost$5 bookmark" ≠ till.map (fun item => item.1.text) := by
  decide

end Gamebook.Record
