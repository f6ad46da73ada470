/-
**A block ends at the call that matches.**

The search for the end of a block reads letter by letter, counts, and remembers the first divider.
What it finds is what is defined by the pieces of the text alone: a block ends at the first closing
call at which the closing calls outnumber the opening ones, and is divided by the first divider in
no inner block.  This holds for a search in the characters of a text and for one in its bytes, so
that no character is ever cut in two.

Main definitions:

* `Block.bounds?` — where a block ends and is divided, according to its pieces;
* `Block.parts` — what stands in front of the divider, and behind it;
* `Block.Encloses` — what is to be said of a block that is found.

Main results:

* `Block.seek_write` — **the search is counting pieces**, in characters and in bytes;
* `Block.find?_eq`, `Block.scan_eq` — the block that is found, in terms of pieces;
* `Block.scan_matching` — **a block is found just if a closing call matches**, and is what stands in
  front of it.
-/

import Gamebook.Proofs.Macro.Pieces
import Gamebook.Proofs.Macro.Spelling

set_option relaxedAutoImplicit false
set_option autoImplicit false

namespace Gamebook

namespace Block

section Search

variable {α : Type} (form : Form α) (d : Delimiters)

/-- How many letters some pieces have. -/
def width (ps : List Piece) : Nat := (form.write (textOf d ps)).length

@[simp] theorem width_nil : width form d [] = 0 := rfl

theorem width_cons (p : Piece) (ps : List Piece) :
    width form d (p :: ps) = (form.write (p.text d)).length + width form d ps := by
  rw [width, textOf_cons, Form.write_append, List.length_append, width]

/-- Where a block ends and is divided if these pieces follow, from `position` on. -/
def bounds? (position : Nat) (depth : Int) (divided : Option (Nat × Nat)) (ps : List Piece) :
    Option Bounds :=
  (cutAt .closing depth ps).map fun (inside, _) =>
    { divided := divided.or ((cutAt .divider depth inside).map fun (body, _) =>
        (position + width form d body, position + width form d (body ++ [.divider])))
      close := position + width form d inside }

variable {form d} {ps : List Piece}

/-- A piece that neither ends nor divides the block only changes where and how deep the others
stand. -/
theorem bounds?_cons {q : Piece} {position : Nat} {depth : Int} {divided : Option (Nat × Nat)}
    (hclosing : ¬ (q = .closing ∧ depth = 0))
    (hdivider : ¬ (q = .divider ∧ depth = 0 ∧ divided = none)) :
    bounds? form d position depth divided (q :: ps) =
      bounds? form d (position + (form.write (q.text d)).length) (depth + q.step) divided ps := by
  rw [bounds?, cutAt_cons hclosing, Option.map_map, bounds?]
  congr 1
  funext ⟨inside, behind⟩
  simp only [Function.comp_apply, width_cons, Nat.add_assoc, Bounds.mk.injEq, and_true]
  cases divided with
  | some divided => rfl
  | none =>
      have hcut : ¬ (q = .divider ∧ depth = 0) := fun h => hdivider ⟨h.1, h.2, rfl⟩
      rw [Option.none_or, Option.none_or, cutAt_cons hcut, Option.map_map]
      congr 1
      funext ⟨body, alternate⟩
      simp only [Function.comp_apply, List.cons_append, width_cons]

/-- In no inner block a closing call ends the block. -/
theorem bounds?_end (position : Nat) (divided : Option (Nat × Nat)) :
    bounds? form d position 0 divided (.closing :: ps) = some ⟨divided, position⟩ := by
  rw [bounds?, cutAt_self]
  cases divided <;> rfl

/-- In no inner block the first divider divides the block. -/
theorem bounds?_divide (position : Nat) :
    bounds? form d position 0 none (.divider :: ps) =
      bounds? form d (position + (form.write (Piece.text d .divider)).length) 0
        (some (position, position + (form.write (Piece.text d .divider)).length)) ps := by
  rw [bounds?, cutAt_cons (by simp), Option.map_map, bounds?]
  congr 1
  funext ⟨inside, behind⟩
  simp only [Function.comp_apply, cutAt_self, Option.map_some, Option.none_or, Option.some_or,
    List.nil_append, width_cons, width_nil, Nat.add_zero, Nat.add_assoc]

variable {inside behind body alternate : List Piece}

/-- A block that is not divided. -/
theorem bounds?_whole (position : Nat) (hclose : cutAt .closing 0 ps = some (inside, behind))
    (hdivide : cutAt .divider 0 inside = none) :
    bounds? form d position 0 none ps = some ⟨none, position + width form d inside⟩ := by
  simp only [bounds?, hclose, hdivide, Option.map_some, Option.map_none, Option.or_none]

/-- A block that is divided. -/
theorem bounds?_parted (position : Nat) (hclose : cutAt .closing 0 ps = some (inside, behind))
    (hdivide : cutAt .divider 0 inside = some (body, alternate)) :
    bounds? form d position 0 none ps =
      some ⟨some (position + width form d body, position + width form d (body ++ [.divider])),
        position + width form d inside⟩ := by
  simp only [bounds?, hclose, hdivide, Option.map_some, Option.none_or]

variable [BEq α] [LawfulBEq α]

variable (form) in
/-- **The search is counting pieces.** -/
theorem seek_write (hd : d.Distinct '<') (ha : d.Ascii) (position depth : Nat)
    (divided : Option (Nat × Nat)) (text : List Char) :
    seek (form.marks d) position 0 depth divided (form.write text) =
      bounds? form d position depth divided (pieces d 0 text) := by
  have hmarks := form.distinct hd ha
  induction text using pieces_induction hd generalizing position depth divided with
  | nil => rfl
  | call p rest hp ih =>
      rw [pieces_call hd hp, Form.write_append]
      cases hp with
      | opening =>
          rw [bounds?_cons (by simp) (by simp)]
          exact (hmarks.seek_opening _ _ _ _).trans (ih _ _ _)
      | closing =>
          cases depth with
          | zero => exact (hmarks.seek_end _ _ _).trans (bounds?_end _ _).symm
          | succ depth =>
              have hdepth : ((depth + 1 : Nat) : Int) + Piece.closing.step = depth := by
                simp only [Piece.step]
                omega
              rw [bounds?_cons (by simp; omega) (by simp), hdepth]
              exact (hmarks.seek_closing _ _ _ _).trans (ih _ _ _)
      | @divider mark hm =>
          have hmark : (form.marks d).divider = some (form.write mark) := by
            rw [Form.marks, hm, Option.map_some]
          have htext : Piece.text d .divider = mark := by rw [Piece.text, hm, Option.getD_some]
          by_cases hcount : depth = 0 ∧ divided = none
          · obtain ⟨rfl, rfl⟩ := hcount
            refine Eq.trans ?_ (bounds?_divide position).symm
            rw [htext]
            exact (hmarks.seek_divider hmark _ _).trans (ih _ _ _)
          · have hdepth : (depth : Int) + Piece.divider.step = depth := Int.add_zero _
            rw [bounds?_cons (by simp) (fun h => hcount ⟨by omega, h.2.2⟩), hdepth, htext]
            exact (hmarks.seek_divider_passed hmark hcount _ _).trans (ih _ _ _)
  | other c rest hplain ih =>
      have hdepth : (depth : Int) + (Piece.other c).step = depth := Int.add_zero _
      have hwidth : form.write ((Piece.other c).text d) = form.spell c := List.append_nil _
      rw [pieces_other hplain, bounds?_cons (by simp) (by simp), Form.seek_other hd ha hplain, ih,
        hdepth, hwidth]

end Search

/-! ### The block that is found -/

variable {d : Delimiters} {source before rest text : List Char} {start : Nat} {inside : List Piece}

/-- What stands in front of the first divider in no inner block, and what stands behind it. -/
def parts (d : Delimiters) (inside : List Piece) : List Char × Option (List Char) :=
  match cutAt .divider 0 inside with
  | some (body, alternate) => (textOf d body, some (textOf d alternate))
  | none => (textOf d inside, none)

theorem width_characters (ps : List Piece) :
    width .characters d ps = (textOf d ps).length := by
  rw [width, Form.write_characters]

theorem width_bytes (ps : List Piece) : width .bytes d ps = Text.size (textOf d ps) := by
  rw [width, Form.write_bytes, Text.length_utf8]

/-- A text up to its closing call, and what follows. -/
theorem text_eq_of_cutAt (hd : d.Distinct '<') {behind : List Piece}
    (hclose : cutAt .closing 0 (pieces d 0 text) = some (inside, behind)) :
    text = textOf d inside ++ (d.closing ++ textOf d behind) :=
  (textOf_pieces hd text).symm.trans (textOf_of_cutAt hclose)

/-- The block that a text goes on with, in terms of pieces. -/
theorem find?_eq (hd : d.Distinct '<') (ha : d.Ascii) (text : List Char) :
    find? d text = (cutAt .closing 0 (pieces d 0 text)).map fun (inside, _) =>
      ⟨(parts d inside).1, (parts d inside).2, (textOf d inside ++ d.closing).length⟩ := by
  have hseek := seek_write .characters hd ha 0 0 none text
  rw [Form.marks_characters, Form.write_characters, Int.natCast_zero] at hseek
  cases hclose : cutAt .closing 0 (pieces d 0 text) with
  | none =>
      rw [find?, hseek, bounds?, hclose]
      rfl
  | some cut =>
      obtain ⟨inside, behind⟩ := cut
      have htext := text_eq_of_cutAt hd hclose
      have hinside : text.take (textOf d inside).length = textOf d inside := by
        rw [htext, List.take_left]
      cases hdivide : cutAt .divider 0 inside with
      | none =>
          rw [find?, hseek, bounds?_whole 0 hclose hdivide]
          simp only [Option.map_some, Option.map_none, parts, hdivide, width_characters,
            Nat.zero_add, hinside, List.length_append]
      | some cut =>
          obtain ⟨body, alternate⟩ := cut
          have hparts := textOf_of_cutAt (d := d) hdivide
          have hbody : text.take (textOf d body).length = textOf d body := by
            rw [htext, hparts, List.append_assoc, List.take_left]
          have halternate : (textOf d inside).drop (textOf d (body ++ [.divider])).length =
              textOf d alternate := by
            rw [hparts, ← List.append_assoc, List.drop_left']
            simp
          rw [find?, hseek, bounds?_parted 0 hclose hdivide]
          simp only [Option.map_some, parts, hdivide, width_characters, Nat.zero_add, hinside,
            hbody, halternate, List.length_append]

/-- The block that stands in a source, in terms of pieces. -/
theorem scan_eq (hd : d.Distinct '<') (ha : d.Ascii)
    (hcut : Text.splitAt? start source = some (before, rest)) :
    scan d source start = (cutAt .closing 0 (pieces d 0 rest)).map fun (inside, _) =>
      ⟨(parts d inside).1, (parts d inside).2,
        start + Text.size (textOf d inside ++ d.closing)⟩ := by
  obtain ⟨rfl, rfl⟩ := (Text.splitAt?_eq_some_iff _ _ _ _).1 hcut
  have hrest : (Text.utf8 (before ++ rest)).drop (Text.size before) = Text.utf8 rest := by
    rw [Text.utf8_append, List.drop_left' (Text.length_utf8 before)]
  have hclosing : d.utf8.closing.length = Text.size d.closing := Text.length_utf8 d.closing
  have hseek := seek_write .bytes hd ha (Text.size before) 0 none rest
  rw [Form.marks_bytes, Form.write_bytes, Int.natCast_zero] at hseek
  cases hclose : cutAt .closing 0 (pieces d 0 rest) with
  | none =>
      rw [scan, hrest, hseek, bounds?, hclose]
      rfl
  | some cut =>
      obtain ⟨inside, behind⟩ := cut
      have htext := text_eq_of_cutAt hd hclose
      cases hdivide : cutAt .divider 0 inside with
      | none =>
          have hbody : Text.slice? (Text.size before)
              (Text.size before + Text.size (textOf d inside)) (before ++ rest) =
              some (textOf d inside) := by
            rw [htext]
            exact Text.slice?_between _ _ _
          rw [scan, hrest, hseek, bounds?_whole _ hclose hdivide]
          simp only [Option.bind_eq_bind, Option.bind_some, Option.pure_def, width_bytes, parts,
            hdivide, hbody, Option.map_some, Text.size_append, hclosing, Nat.add_assoc]
      | some cut =>
          obtain ⟨body, alternate⟩ := cut
          have hparts := textOf_of_cutAt (d := d) hdivide
          have hbody : Text.slice? (Text.size before)
              (Text.size before + Text.size (textOf d body)) (before ++ rest) =
              some (textOf d body) := by
            rw [htext, hparts, List.append_assoc]
            exact Text.slice?_between _ _ _
          have halternate : Text.slice?
              (Text.size before + Text.size (textOf d (body ++ [.divider])))
              (Text.size before + Text.size (textOf d inside)) (before ++ rest) =
              some (textOf d alternate) := by
            have h := Text.slice?_between (before ++ textOf d (body ++ [.divider]))
              (textOf d alternate) (d.closing ++ textOf d behind)
            rw [htext, hparts]
            simpa [Text.size_append, Nat.add_assoc] using h
          rw [scan, hrest, hseek, bounds?_parted _ hclose hdivide]
          simp only [Option.bind_eq_bind, Option.bind_some, Option.pure_def, width_bytes, parts,
            hdivide, hbody, halternate, Option.map_some, Text.size_append, hclosing,
            Nat.add_assoc]

/-- **A search in bytes finds what one in characters finds.** -/
theorem scan_eq_find? (hd : d.Distinct '<') (ha : d.Ascii)
    (hcut : Text.splitAt? start source = some (before, rest)) :
    scan d source start = (find? d rest).map fun block =>
      ⟨block.body, block.alternate, start + Text.size (rest.take block.length)⟩ := by
  rw [scan_eq hd ha hcut, find?_eq hd ha]
  cases hclose : cutAt .closing 0 (pieces d 0 rest) with
  | none => rfl
  | some cut =>
      obtain ⟨inside, behind⟩ := cut
      have htake : rest.take (textOf d inside ++ d.closing).length =
          textOf d inside ++ d.closing := by
        rw [text_eq_of_cutAt hd hclose, ← List.append_assoc, List.take_left]
      simp only [Option.map_some, htake]

/-! ### Blocks and what they enclose -/

/-- What is to be said of a block that is found in a source from byte `start` on, where `inside` are
the pieces in front of its closing call. -/
structure Encloses (d : Delimiters) (source : List Char) (start : Nat) (inside : List Piece)
    (found : Found) : Prop where
  /-- It ends behind the closing call. -/
  stop : found.stop = start + Text.size (textOf d inside ++ d.closing)
  /-- It is divided just if a divider stands in no inner block. -/
  divided : found.alternate.isSome ↔
    ∃ body alternate, inside = body ++ .divider :: alternate ∧ depth body = 0
  /-- If it is not, its body is all that is in front of the closing call. -/
  whole : found.alternate = none →
    Text.slice? start found.stop source = some (found.body ++ d.closing) ∧
      inside = pieces d 0 found.body ∧ Balanced (pieces d 0 found.body)
  /-- If it is, its parts are on both sides of the first such divider. -/
  parted : ∀ alternate, found.alternate = some alternate → ∃ mark, d.divider = some mark ∧
    Text.slice? start found.stop source =
      some (found.body ++ (mark ++ (alternate ++ d.closing))) ∧
    inside = pieces d 0 found.body ++ .divider :: pieces d 0 alternate ∧
    FirstAt .divider 0 (pieces d 0 found.body) ∧
    Balanced (pieces d 0 found.body) ∧ Balanced (pieces d 0 alternate)

/-- The parts of the pieces in front of a closing call that matches are what it encloses. -/
theorem encloses_parts (hd : d.Distinct '<')
    (hcut : Text.splitAt? start source = some (before, rest)) {behind : List Piece}
    (hpieces : pieces d 0 rest = inside ++ .closing :: behind) (hcloses : Closes inside) :
    Encloses d source start inside ⟨(parts d inside).1, (parts d inside).2,
      start + Text.size (textOf d inside ++ d.closing)⟩ := by
  obtain ⟨rfl, rfl⟩ := (Text.splitAt?_eq_some_iff _ _ _ _).1 hcut
  have hbalanced := closes_iff_balanced.1 hcloses
  have hslice : Text.slice? (Text.size before)
      (Text.size before + Text.size (textOf d inside ++ d.closing)) (before ++ rest) =
      some (textOf d inside ++ d.closing) := by
    rw [text_eq_of_cutAt hd (cutAt_eq_some_iff.2 ⟨hpieces, closes_iff.1 hcloses⟩),
      ← List.append_assoc (textOf d inside)]
    exact Text.slice?_between _ _ _
  have hdivided : (cutAt .divider 0 inside).isSome ↔ ∃ body alternate,
      inside = body ++ .divider :: alternate ∧ 0 + depth body = 0 := isSome_cutAt_iff
  cases hdivide : cutAt .divider 0 inside with
  | none =>
      have hread : pieces d 0 (textOf d inside) = inside := pieces_textOf hd hpieces
      rw [hdivide] at hdivided
      simp only [parts, hdivide]
      exact
        { stop := rfl
          divided := by simpa using hdivided
          whole := fun _ => ⟨hslice, hread.symm, hread.symm ▸ hbalanced⟩
          parted := fun _ h => absurd h (by simp) }
  | some cut =>
      obtain ⟨body, alternate⟩ := cut
      obtain ⟨rfl, hfirst⟩ := cutAt_eq_some_iff.1 hdivide
      -- the pieces of each part are those of its text alone
      have hfront : pieces d 0 (textOf d body) = body :=
        pieces_textOf hd (hpieces.trans (List.append_assoc _ _ _))
      have hsplit : pieces d 0 rest = (body ++ [.divider]) ++ (alternate ++ .closing :: behind) := by
        simp [hpieces]
      have hback : pieces d 0 (textOf d alternate) = alternate :=
        pieces_textOf hd (pieces_behind hd hsplit)
      have hread : Piece.divider ∈ pieces d 0 rest := by simp [hpieces]
      obtain ⟨mark, hmark⟩ := exists_divider hd hread
      have hword : Piece.text d .divider = mark := by rw [Piece.text, hmark, Option.getD_some]
      obtain ⟨hbody, halternate⟩ := hbalanced.divide (by simpa using hfirst.depth_eq)
      rw [hdivide] at hdivided
      simp only [parts, hdivide]
      refine
        { stop := rfl
          divided := by simpa using hdivided
          whole := fun h => absurd h (by simp)
          parted := fun alternate' heq => ?_ }
      obtain rfl := Option.some.inj heq
      refine ⟨mark, hmark, ?_, ?_, ?_, ?_, ?_⟩
      · rw [hslice, textOf_append, textOf_cons, hword, List.append_assoc, List.append_assoc]
      · rw [hfront, hback]
      · rwa [hfront]
      · rwa [hfront]
      · rwa [hback]

theorem standard_distinct (hd : d = conditional ∨ d = silent) : d.Distinct '<' ∧ d.Ascii := by
  rcases hd with rfl | rfl
  · exact ⟨conditional_distinct, conditional_ascii⟩
  · exact ⟨silent_distinct, silent_ascii⟩

/-- **A block is found just if a closing call matches**, and is what stands in front of the first
such call.  Nothing that a source holds makes the search fail where it looks at bytes. -/
theorem scan_matching (hd : d = conditional ∨ d = silent)
    (hcut : Text.splitAt? start source = some (before, rest)) :
    ((scan d source start).isSome ↔
      ∃ inside behind, pieces d 0 rest = inside ++ .closing :: behind ∧ Closes inside) ∧
    (∀ inside behind, pieces d 0 rest = inside ++ .closing :: behind → Closes inside →
      ∃ found, scan d source start = some found ∧ Encloses d source start inside found) ∧
    scan d source start = (find? d rest).map fun block =>
      ⟨block.body, block.alternate, start + Text.size (rest.take block.length)⟩ := by
  obtain ⟨hdistinct, hascii⟩ := standard_distinct hd
  have hscan := scan_eq hdistinct hascii hcut
  refine ⟨?_, fun inside behind hpieces hcloses => ?_, scan_eq_find? hdistinct hascii hcut⟩
  · rw [hscan, Option.isSome_map, Option.isSome_iff_exists]
    constructor
    · rintro ⟨⟨inside, behind⟩, hclose⟩
      obtain ⟨hpieces, hfirst⟩ := cutAt_eq_some_iff.1 hclose
      exact ⟨inside, behind, hpieces, closes_iff.2 hfirst⟩
    · rintro ⟨inside, behind, hpieces, hcloses⟩
      exact ⟨(inside, behind), cutAt_eq_some_iff.2 ⟨hpieces, closes_iff.1 hcloses⟩⟩
  · have hclose := cutAt_eq_some_iff.2 ⟨hpieces, closes_iff.1 hcloses⟩
    rw [hclose, Option.map_some] at hscan
    exact ⟨_, hscan, encloses_parts hdistinct hcut hpieces hcloses⟩

/-- A letter, and what stands behind the call of a condition that holds another one. -/
def nested : List Char := "é☕<<if x>>a<<else>>b<<endif>><<else>>c<<endif>>d".toList

/-- Behind the letter, which has two bytes, the block ends at the second closing call and is divided
at the second divider. -/
theorem scan_matching_nested :
    Text.splitAt? 2 nested = some (['é'], nested.tail) ∧
    ∃ inside found, pieces conditional 0 nested.tail = inside ++ [.closing, .other 'd'] ∧
      Closes inside ∧ scan conditional nested 2 = some found ∧
      Encloses conditional nested 2 inside found ∧
      found = ⟨"☕<<if x>>a<<else>>b<<endif>>".toList, some ['c'], 50⟩ := by
  have hcut : Text.splitAt? 2 nested = some (['é'], nested.tail) := by decide
  have hclose : cutAt .closing 0 (pieces conditional 0 nested.tail) =
      some ((pieces conditional 0 nested.tail).take 11, [.other 'd']) := by decide
  obtain ⟨hpieces, hfirst⟩ := cutAt_eq_some_iff.1 hclose
  have hcloses := closes_iff.2 hfirst
  obtain ⟨found, hscan, hencloses⟩ := (scan_matching (.inl rfl) hcut).2.1 _ _ hpieces hcloses
  have hfound : scan conditional nested 2 =
      some ⟨"☕<<if x>>a<<else>>b<<endif>>".toList, some ['c'], 50⟩ := by decide
  exact ⟨hcut, _, found, hpieces, hcloses, hscan, hencloses,
    Option.some.inj (hscan.symm.trans hfound)⟩

end Block

end Gamebook
