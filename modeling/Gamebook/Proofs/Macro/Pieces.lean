/-
**A text as a row of calls and characters.**

To find the end of a block, a text is read from left to right as calls that open, divide or close
blocks of one kind, and as other characters.  A closing call ends the block that is open if it is
the first at which the closing calls outnumber the opening ones; and the block is divided by the
first divider that stands in no inner block.

Main definitions:

* `Block.Piece`, `Block.pieces` — a call or another character, and a text read as a row of these;
* `Block.depth` — the number of inner blocks that are open behind some pieces;
* `Block.Balanced`, `Block.Closes` — pieces that close what they open, and pieces behind which a
  closing call ends the block;
* `Block.cutAt`, `Block.FirstAt` — the pieces on both sides of the first call of a kind in no inner
  block, and what is in front of it.

Main results:

* `Block.pieces_induction` — **induction along the pieces of a text**;
* `Block.textOf_pieces` — the pieces of a text are all of it;
* `Block.pieces_textOf`, `Block.pieces_behind` — the first pieces of a text, and the last ones, are
  read alike without the others;
* `Block.cutAt_eq_some_iff` — what `cutAt` finds;
* `Block.closes_iff` — **where a block ends**.
-/

import Gamebook.Proofs.Macro.Blocks
import Mathlib.Data.List.Induction

set_option relaxedAutoImplicit false
set_option autoImplicit false

namespace Gamebook

namespace Block

/-! ### Pieces -/

/-- A call that opens, divides or closes a block, or another character. -/
inductive Piece where
  | opening
  | divider
  | closing
  | other (c : Char)
  deriving DecidableEq, Repr

/-- The text of a piece. -/
def Piece.text (d : Delimiters) : Piece → List Char
  | opening => d.opening
  | divider => d.divider.getD []
  | closing => d.closing
  | other c => [c]

/-- The piece is a call; dividers are calls only in blocks that can be divided. -/
inductive Piece.IsCall (d : Delimiters) : Piece → Prop
  | opening : IsCall d .opening
  | divider {mark : List Char} (h : d.divider = some mark) : IsCall d .divider
  | closing : IsCall d .closing

/-- The text of some pieces. -/
def textOf (d : Delimiters) (ps : List Piece) : List Char := ps.flatMap (Piece.text d)

/-- The piece that a text begins with. -/
def pieceAt (d : Delimiters) (c : Char) (rest : List Char) : Piece :=
  if d.closing.isPrefixOf (c :: rest) then .closing
  else if d.divider.any (·.isPrefixOf (c :: rest)) then .divider
  else if d.opening.isPrefixOf (c :: rest) then .opening
  else .other c

/-- The pieces of a text, behind the first `skip` characters. -/
def pieces (d : Delimiters) : (skip : Nat) → List Char → List Piece
  | _, [] => []
  | skip + 1, _ :: rest => pieces d skip rest
  | 0, c :: rest => pieceAt d c rest :: pieces d (((pieceAt d c rest).text d).length - 1) rest

variable {d : Delimiters} {rest text : List Char} {ps qs inside : List Piece}

@[simp] theorem textOf_nil : textOf d [] = [] := rfl

@[simp] theorem textOf_cons (p : Piece) : textOf d (p :: ps) = p.text d ++ textOf d ps := rfl

@[simp] theorem textOf_append : textOf d (ps ++ qs) = textOf d ps ++ textOf d qs :=
  List.flatMap_append

theorem pieces_skip (word rest : List Char) :
    pieces d word.length (word ++ rest) = pieces d 0 rest := by
  induction word with
  | nil => rfl
  | cons c word ih => exact ih

/-- The text of a call is a mark. -/
theorem Piece.IsCall.isMark (hd : d.Distinct '<') {p : Piece} (hp : p.IsCall d) :
    IsMark '<' (p.text d) := by
  cases hp with
  | opening => exact hd.opening
  | @divider mark hm =>
      rw [Piece.text, hm]
      exact hd.divider mark hm
  | closing => exact hd.closing

/-- A text that begins with a call is read so. -/
theorem pieceAt_call (hd : d.Distinct '<') {p : Piece} (hp : p.IsCall d) {c : Char}
    {rest behind : List Char} (h : p.text d ++ behind = c :: rest) : pieceAt d c rest = p := by
  rw [pieceAt, ← h]
  cases hp with
  | closing => exact if_pos (by simp [Piece.text])
  | @divider mark hm =>
      have htext : Piece.text d .divider = mark := by
        rw [Piece.text, hm, Option.getD_some]
      rw [htext, if_neg (Bool.eq_false_iff.1 (hd.divider_closing mark hm behind))]
      exact if_pos (by simp [hm])
  | opening =>
      have hdivider : d.divider.any (·.isPrefixOf (d.opening ++ behind)) = false := by
        cases hm : d.divider with
        | none => rfl
        | some mark => exact hd.opening_divider mark hm behind
      rw [Piece.text, if_neg (Bool.eq_false_iff.1 (hd.opening_closing behind)),
        if_neg (Bool.eq_false_iff.1 hdivider)]
      exact if_pos (by simp)

theorem pieces_call (hd : d.Distinct '<') {p : Piece} (hp : p.IsCall d) (rest : List Char) :
    pieces d 0 (p.text d ++ rest) = p :: pieces d 0 rest := by
  obtain ⟨c, word, hmark, -⟩ := hp.isMark hd
  have hpiece : pieceAt d '<' ('<' :: c :: word ++ rest) = p :=
    pieceAt_call hd hp (by rw [hmark, List.cons_append])
  rw [hmark, List.cons_append, pieces, hpiece, hmark, List.length_cons, Nat.add_sub_cancel,
    pieces_skip]

theorem pieces_other {c : Char} (h : Plain d (c :: rest)) :
    pieces d 0 (c :: rest) = .other c :: pieces d 0 rest := by
  have hdivider : d.divider.any (·.isPrefixOf (c :: rest)) = false := by
    cases hm : d.divider with
    | none => rfl
    | some mark => exact h.divider mark hm
  have hpiece : pieceAt d c rest = .other c := by
    rw [pieceAt, if_neg (Bool.eq_false_iff.1 h.closing), if_neg (Bool.eq_false_iff.1 hdivider),
      if_neg (Bool.eq_false_iff.1 h.opening)]
  rw [pieces, hpiece]
  rfl

/-- **Induction along the pieces of a text.** -/
theorem pieces_induction (hd : d.Distinct '<') {motive : List Char → Prop} (nil : motive [])
    (call : ∀ p rest, Piece.IsCall d p → motive rest → motive (p.text d ++ rest))
    (other : ∀ c rest, Plain d (c :: rest) → motive rest → motive (c :: rest))
    (text : List Char) : motive text := by
  induction hn : text.length using Nat.strongRecOn generalizing text with
  | ind n ih =>
      -- behind a mark, which is not empty, there is less to come
      have hcall : ∀ p : Piece, p.IsCall d → (p.text d).isPrefixOf text = true → motive text := by
        intro p hp hpre
        obtain ⟨rest, rfl⟩ := List.isPrefixOf_iff_prefix.1 hpre
        obtain ⟨c, word, hmark, -⟩ := hp.isMark hd
        refine call p rest hp (ih rest.length ?_ rest rfl)
        rw [← hn, hmark]
        simp only [List.cons_append, List.length_cons, List.length_append]
        omega
      by_cases hclosing : d.closing.isPrefixOf text = true
      · exact hcall .closing .closing hclosing
      by_cases hopening : d.opening.isPrefixOf text = true
      · exact hcall .opening .opening hopening
      by_cases hdivider : ∃ mark, d.divider = some mark ∧ mark.isPrefixOf text = true
      · obtain ⟨mark, hm, hpre⟩ := hdivider
        refine hcall .divider (.divider hm) ?_
        rwa [Piece.text, hm]
      cases text with
      | nil => exact nil
      | cons c rest =>
          have hplain : Plain d (c :: rest) :=
            { opening := Bool.eq_false_iff.2 hopening
              divider := fun mark hm => Bool.eq_false_iff.2 fun hpre => hdivider ⟨mark, hm, hpre⟩
              closing := Bool.eq_false_iff.2 hclosing }
          exact other c rest hplain (ih rest.length (by simp [← hn]) rest rfl)

/-- **The pieces of a text are all of it.** -/
theorem textOf_pieces (hd : d.Distinct '<') (text : List Char) :
    textOf d (pieces d 0 text) = text := by
  induction text using pieces_induction hd with
  | nil => rfl
  | call p rest hp ih => rw [pieces_call hd hp, textOf_cons, ih]
  | other c rest hplain ih =>
      rw [pieces_other hplain, textOf_cons, ih]
      rfl

/-- No mark begins in a text what does not begin there in a longer one. -/
theorem Plain.of_prefix {text text' : List Char} (h : Plain d text') (hpre : text <+: text') :
    Plain d text := by
  have hshort : ∀ mark : List Char, mark.isPrefixOf text' = false →
      mark.isPrefixOf text = false := by
    intro mark hlong
    refine Bool.eq_false_iff.2 fun hmark => ?_
    have hmark' := (List.isPrefixOf_iff_prefix.1 hmark).trans hpre
    rw [List.isPrefixOf_iff_prefix.2 hmark'] at hlong
    cases hlong
  exact ⟨hshort _ h.opening, fun mark hm => hshort _ (h.divider mark hm), hshort _ h.closing⟩

/-- **The first pieces of a text** are read alike without those behind them. -/
theorem pieces_textOf (hd : d.Distinct '<') (h : pieces d 0 text = ps ++ qs) :
    pieces d 0 (textOf d ps) = ps := by
  induction text using pieces_induction hd generalizing ps with
  | nil =>
      obtain ⟨rfl, -⟩ := List.append_eq_nil_iff.1 h.symm
      rfl
  | call p rest hp ih =>
      rw [pieces_call hd hp] at h
      cases ps with
      | nil => rfl
      | cons q ps =>
          rw [List.cons_append] at h
          obtain ⟨rfl, hrest⟩ := List.cons.inj h
          rw [textOf_cons, pieces_call hd hp, ih hrest]
  | other c rest hplain ih =>
      rw [pieces_other hplain] at h
      cases ps with
      | nil => rfl
      | cons q ps =>
          rw [List.cons_append] at h
          obtain ⟨rfl, hrest⟩ := List.cons.inj h
          have hpre : textOf d ps <+: rest := by
            rw [← textOf_pieces hd rest, hrest, textOf_append]
            exact List.prefix_append _ _
          have hshort := hplain.of_prefix ((List.prefix_cons_inj c).2 hpre)
          exact (pieces_other hshort).trans (congrArg _ (ih hrest))

/-- **The last pieces of a text** are read alike without those in front of them. -/
theorem pieces_behind (hd : d.Distinct '<') (h : pieces d 0 text = ps ++ qs) :
    pieces d 0 (textOf d qs) = qs := by
  have hall : ∀ text qs, pieces d 0 text = qs → pieces d 0 (textOf d qs) = qs := by
    rintro text qs rfl
    rw [textOf_pieces hd]
  induction text using pieces_induction hd generalizing ps with
  | nil =>
      obtain ⟨-, rfl⟩ := List.append_eq_nil_iff.1 h.symm
      rfl
  | call p rest hp ih =>
      cases ps with
      | nil => exact hall _ _ h
      | cons q ps =>
          rw [pieces_call hd hp, List.cons_append] at h
          exact ih (List.cons.inj h).2
  | other c rest hplain ih =>
      cases ps with
      | nil => exact hall _ _ h
      | cons q ps =>
          rw [pieces_other hplain, List.cons_append] at h
          exact ih (List.cons.inj h).2

/-- Where a divider is read, blocks can be divided. -/
theorem exists_divider (hd : d.Distinct '<') (h : Piece.divider ∈ pieces d 0 text) :
    ∃ mark, d.divider = some mark := by
  induction text using pieces_induction hd with
  | nil => cases h
  | call p rest hp ih =>
      rw [pieces_call hd hp, List.mem_cons] at h
      rcases h with rfl | hrest
      · cases hp with
        | @divider mark hm => exact ⟨mark, hm⟩
      · exact ih hrest
  | other c rest hplain ih =>
      rw [pieces_other hplain, List.mem_cons] at h
      rcases h with heq | hrest
      · cases heq
      · exact ih hrest

/-! ### Inner blocks -/

/-- By how much a piece changes the number of blocks that are open. -/
def Piece.step : Piece → Int
  | opening => 1
  | closing => -1
  | divider => 0
  | other _ => 0

/-- The number of inner blocks that are open behind some pieces: how many more opening calls there
are than closing ones. -/
def depth (ps : List Piece) : Int := (ps.count .opening : Int) - ps.count .closing

@[simp] theorem depth_nil : depth [] = 0 := rfl

@[simp] theorem depth_cons (p : Piece) (ps : List Piece) : depth (p :: ps) = p.step + depth ps := by
  cases p <;> simp [depth, Piece.step] <;> omega

@[simp] theorem depth_append (ps qs : List Piece) : depth (ps ++ qs) = depth ps + depth qs := by
  simp only [depth, List.count_append]
  omega

/-- As many closing calls as opening ones, and never more from the beginning on. -/
structure Balanced (ps : List Piece) : Prop where
  never : ∀ qs, qs <+: ps → qs.count .closing ≤ qs.count .opening
  even : ps.count .closing = ps.count .opening

/-- A closing call behind these pieces is the first at which the closing calls outnumber the opening
ones. -/
structure Closes (inside : List Piece) : Prop where
  never : ∀ qs, qs <+: inside → qs.count .closing ≤ qs.count .opening
  outnumbers :
    (inside ++ [Piece.closing]).count .opening < (inside ++ [Piece.closing]).count .closing

theorem balanced_iff : Balanced ps ↔ (∀ qs, qs <+: ps → 0 ≤ depth qs) ∧ depth ps = 0 := by
  constructor
  · rintro ⟨hnever, heven⟩
    refine ⟨fun qs hpre => ?_, ?_⟩
    · have hqs := hnever qs hpre
      rw [depth]
      omega
    · rw [depth, heven, Int.sub_self]
  · rintro ⟨hnever, heven⟩
    rw [depth] at heven
    refine ⟨fun qs hpre => ?_, by omega⟩
    have hqs := hnever qs hpre
    rw [depth] at hqs
    omega

/-- A closing call ends the block behind pieces that are balanced. -/
theorem closes_iff_balanced : Closes inside ↔ Balanced inside := by
  have hcount : (inside ++ [Piece.closing]).count .opening = inside.count .opening ∧
      (inside ++ [Piece.closing]).count .closing = inside.count .closing + 1 := by simp
  constructor
  · rintro ⟨hnever, hmore⟩
    have hle := hnever inside List.prefix_rfl
    exact ⟨hnever, by omega⟩
  · rintro ⟨hnever, heven⟩
    exact ⟨hnever, by omega⟩

/-- In front of a divider in no inner block, and behind it, pieces are balanced. -/
theorem Balanced.divide {body alternate : List Piece} (h : Balanced (body ++ .divider :: alternate))
    (hdepth : depth body = 0) : Balanced body ∧ Balanced alternate := by
  obtain ⟨hnever, heven⟩ := balanced_iff.1 h
  have hshift : ∀ qs, depth (body ++ .divider :: qs) = depth qs := by
    intro qs
    rw [depth_append, depth_cons, hdepth]
    simp [Piece.step]
  refine ⟨balanced_iff.2 ⟨fun qs hpre => ?_, hdepth⟩, balanced_iff.2 ⟨fun qs hpre => ?_, ?_⟩⟩
  · exact hnever qs (hpre.trans (List.prefix_append _ _))
  · rw [← hshift qs]
    exact hnever _ ((List.prefix_append_right_inj body).2 ((List.prefix_cons_inj _).2 hpre))
  · rw [← hshift alternate]
    exact heven

/-! ### The first call in no inner block -/

/-- The pieces before and behind the first piece `p` in no inner block, where `outer` inner blocks
are open at the beginning. -/
def cutAt (p : Piece) : (outer : Int) → List Piece → Option (List Piece × List Piece)
  | _, [] => none
  | outer, q :: ps =>
      if q = p ∧ outer = 0 then some ([], ps)
      else (cutAt p (outer + q.step) ps).map fun (before, behind) => (q :: before, behind)

@[simp] theorem cutAt_self (p : Piece) : cutAt p 0 (p :: ps) = some ([], ps) :=
  if_pos ⟨rfl, rfl⟩

theorem cutAt_cons {p q : Piece} {outer : Int} (h : ¬ (q = p ∧ outer = 0)) :
    cutAt p outer (q :: ps) =
      (cutAt p (outer + q.step) ps).map fun (before, behind) => (q :: before, behind) :=
  if_neg h

/-- The piece `p` stands in no inner block behind these pieces, and nowhere among them. -/
structure FirstAt (p : Piece) (outer : Int) (before : List Piece) : Prop where
  depth_eq : outer + depth before = 0
  first : ∀ ps qs, before = ps ++ p :: qs → outer + depth ps ≠ 0

theorem firstAt_cons {p q : Piece} {outer : Int} {before : List Piece}
    (h : ¬ (q = p ∧ outer = 0)) :
    FirstAt p outer (q :: before) ↔ FirstAt p (outer + q.step) before := by
  constructor
  · rintro ⟨hdepth, hfirst⟩
    refine ⟨by rw [← hdepth, depth_cons]; omega, fun ps qs heq => ?_⟩
    have hps := hfirst (q :: ps) qs (by rw [heq, List.cons_append])
    rw [depth_cons] at hps
    omega
  · rintro ⟨hdepth, hfirst⟩
    refine ⟨by rw [← hdepth, depth_cons]; omega, fun ps qs heq => ?_⟩
    cases ps with
    | nil =>
        obtain ⟨rfl, -⟩ := List.cons.inj heq
        rw [depth_nil]
        exact fun houter => h ⟨rfl, by omega⟩
    | cons r ps =>
        rw [List.cons_append] at heq
        obtain ⟨rfl, hbefore⟩ := List.cons.inj heq
        have hps := hfirst ps qs hbefore
        rw [depth_cons]
        omega

/-- **What `cutAt` finds.** -/
theorem cutAt_eq_some_iff {p : Piece} {outer : Int} {before behind : List Piece} :
    cutAt p outer ps = some (before, behind) ↔
      ps = before ++ p :: behind ∧ FirstAt p outer before := by
  induction ps generalizing outer before with
  | nil => simp [cutAt]
  | cons q ps ih =>
      by_cases hq : q = p ∧ outer = 0
      · obtain ⟨rfl, rfl⟩ := hq
        rw [cutAt_self]
        constructor
        · rintro ⟨⟩
          exact ⟨rfl, rfl, fun ps qs heq => by simp at heq⟩
        · rintro ⟨heq, -, hfirst⟩
          cases before with
          | nil =>
              obtain ⟨-, rfl⟩ := List.cons.inj heq
              rfl
          | cons r before =>
              rw [List.cons_append] at heq
              obtain ⟨rfl, -⟩ := List.cons.inj heq
              exact absurd rfl (hfirst [] before rfl)
      · rw [cutAt_cons hq]
        constructor
        · intro h
          obtain ⟨⟨before, behind⟩, hcut, heq⟩ := Option.map_eq_some_iff.1 h
          cases heq
          obtain ⟨rfl, hfirst⟩ := ih.1 hcut
          exact ⟨rfl, (firstAt_cons hq).2 hfirst⟩
        · rintro ⟨heq, hfirst⟩
          cases before with
          | nil =>
              obtain ⟨rfl, -⟩ := List.cons.inj heq
              exact absurd ⟨rfl, by simpa using hfirst.depth_eq⟩ hq
          | cons r before =>
              rw [List.cons_append] at heq
              obtain ⟨rfl, rfl⟩ := List.cons.inj heq
              rw [ih.2 ⟨rfl, (firstAt_cons hq).1 hfirst⟩]
              rfl

/-- Nothing is lost when pieces are cut in two. -/
theorem textOf_of_cutAt {p : Piece} {outer : Int} {before behind : List Piece}
    (h : cutAt p outer ps = some (before, behind)) :
    textOf d ps = textOf d before ++ (p.text d ++ textOf d behind) := by
  rw [(cutAt_eq_some_iff.1 h).1, textOf_append, textOf_cons]

/-- There is such a piece if it stands in no inner block anywhere. -/
theorem isSome_cutAt_iff {p : Piece} {outer : Int} :
    (cutAt p outer ps).isSome ↔
      ∃ before behind, ps = before ++ p :: behind ∧ outer + depth before = 0 := by
  constructor
  · intro h
    obtain ⟨⟨before, behind⟩, hcut⟩ := Option.isSome_iff_exists.1 h
    obtain ⟨heq, hfirst⟩ := cutAt_eq_some_iff.1 hcut
    exact ⟨before, behind, heq, hfirst.depth_eq⟩
  · rintro ⟨before, behind, rfl, hdepth⟩
    induction before generalizing outer with
    | nil =>
        obtain rfl : outer = 0 := by simpa using hdepth
        rw [List.nil_append, cutAt_self]
        rfl
    | cons q before ih =>
        by_cases hq : q = p ∧ outer = 0
        · obtain ⟨rfl, rfl⟩ := hq
          rw [List.cons_append, cutAt_self]
          rfl
        · rw [List.cons_append, cutAt_cons hq, Option.isSome_map]
          refine ih ?_
          rw [← hdepth, depth_cons]
          omega

/-- **Where a block ends**: at the first closing call in no inner block. -/
theorem closes_iff : Closes inside ↔ FirstAt .closing 0 inside := by
  rw [closes_iff_balanced, balanced_iff]
  constructor
  · rintro ⟨hnever, heven⟩
    refine ⟨by omega, ?_⟩
    rintro ps qs rfl hdepth
    have hclosed := hnever (ps ++ [.closing]) (by
      rw [List.prefix_append_right_inj]
      exact (List.prefix_cons_inj _).2 List.nil_prefix)
    simp only [depth_append, depth_cons, depth_nil, Piece.step] at hclosed
    omega
  · rintro ⟨heven, hfirst⟩
    refine ⟨fun qs hpre => ?_, by omega⟩
    -- from piece to piece, the number of open blocks cannot fall below zero
    induction qs using List.reverseRecOn with
    | nil => exact Int.le_refl 0
    | append_singleton qs q ih =>
        have hqs := ih ((List.prefix_append _ _).trans hpre)
        rw [depth_append, depth_cons, depth_nil]
        cases q with
        | closing =>
            obtain ⟨behind, rfl⟩ := hpre
            have hne := hfirst qs behind (by simp)
            simp only [Piece.step]
            omega
        | _ => simp only [Piece.step]; omega

end Block

end Gamebook
