/-
**Which blocks are found.**

A macro call may have any blanks behind its name, but the search for the end of a block knows only
one spelling of each call.  A closing call or a divider with blanks is not seen by it, and neither is
the opening call of an inner block if another blank stands in it than the usual one; the end of that
block is then taken for the end of the one around it.  So every block of a program is found just if
its calls are written as usual wherever the search comes by, and blanks can be put anywhere else.

Main definitions:

* `Block.Weighs` — by how much a text changes the number of inner blocks;
* `Block.Overcloses` — a text closes more blocks than it opens, unless its own ones are written as
  usual;
* `Spaced.Found` — every block of a program is found as it was written.

Main results:

* `Block.Overcloses.block` — a block whose opening call does not count adds to what is closed;
* `Block.find?_whole`, `Block.find?_parted` — in a block that is found blocks are balanced;
* `Spaced.found_iff` — **every block is found just if the calls that matter are written as usual**;
* `Story.render_spaced` — **then blanks change nothing** of what is rendered.
-/

import Gamebook.Proofs.Macro.Matching
import Gamebook.Proofs.Macro.Meaning

set_option relaxedAutoImplicit false
set_option autoImplicit false

namespace Gamebook

namespace Block

variable {d : Delimiters} {text left right body alternate : List Char} {length : Nat} {m n : Int}

/-! ### What a text weighs -/

/-- By how much a text changes the number of inner blocks, whatever follows. -/
def Weighs (d : Delimiters) (text : List Char) (n : Int) : Prop :=
  ∀ rest, depth (pieces d 0 (text ++ rest)) = n + depth (pieces d 0 rest)

namespace Weighs

theorem nil : Weighs d [] 0 := fun _ => (Int.zero_add _).symm

theorem append (hl : Weighs d left m) (hr : Weighs d right n) : Weighs d (left ++ right) (m + n) := by
  intro rest
  rw [List.append_assoc, hl, hr, Int.add_assoc]

/-- One letter, whatever follows. -/
theorem cons {c : Char} (hplain : ∀ rest, Plain d (c :: (text ++ rest))) (h : Weighs d text n) :
    Weighs d (c :: text) n := by
  intro rest
  rw [List.cons_append, pieces_other (hplain rest), depth_cons, h rest]
  exact Int.zero_add _

theorem of_eq (h : Weighs d text m) (heq : m = n) : Weighs d text n := heq ▸ h

theorem depth_eq (h : Weighs d text n) : depth (pieces d 0 text) = n := by
  have hall := h []
  rwa [List.append_nil, pieces, depth_nil, Int.add_zero] at hall

/-- A text without brackets weighs nothing. -/
theorem of_notMem (hd : d.Distinct '<') (h : '<' ∉ text) : Weighs d text 0 := by
  induction text with
  | nil => exact .nil
  | cons c text ih =>
      rw [List.mem_cons, not_or] at h
      exact .cons (fun rest => (hd.plain_of_ne (Ne.symm h.1) _).1) (ih h.2)

/-- Neither does a call that is no delimiter. -/
theorem of_call (hd : d.Distinct '<') {c : Char} (h : '<' ∉ c :: text)
    (hplain : ∀ rest, Plain d ('<' :: '<' :: c :: (text ++ rest))) :
    Weighs d ('<' :: '<' :: c :: text) 0 := by
  have hc : c ≠ '<' := fun heq => h (heq ▸ List.mem_cons_self)
  exact .cons hplain (.cons (fun rest => (hd.plain_of_ne hc _).2) (.of_notMem hd h))

/-- A delimiter weighs what it opens or closes. -/
theorem of_isCall (hd : d.Distinct '<') {p : Piece} (hp : p.IsCall d) :
    Weighs d (p.text d) p.step := fun rest => by rw [pieces_call hd hp, depth_cons]

end Weighs

theorem Foreign.weighs {name : List Char} (h : Foreign d name) (hd : d.Distinct '<')
    (ht : '<' ∉ text) : Weighs d ('<' :: '<' :: (name ++ text)) 0 := by
  obtain ⟨c, body, hcall, hin, hplain⟩ := h.exists_call ht
  rw [hcall]
  exact .of_call hd hin hplain

/-! ### Texts that close more than they open -/

/-- A text closes at least as many blocks as it opens, and more of them unless its own blocks are
written as usual. -/
def Overcloses (d : Delimiters) (usual : Prop) (text : List Char) : Prop :=
  ∃ n : Nat, Weighs d text (-(n : Int)) ∧ (n = 0 → usual)

namespace Overcloses

variable {p q : Prop} {opening inside closing behind : List Char}

theorem nil (h : p) : Overcloses d p [] := ⟨0, .nil, fun _ => h⟩

theorem mono (himp : p → q) (h : Overcloses d p text) : Overcloses d q text := by
  obtain ⟨n, hweighs, husual⟩ := h
  exact ⟨n, hweighs, fun hzero => himp (husual hzero)⟩

/-- In a text that closes what it opens, the blocks are written as usual. -/
theorem of_depth (h : Overcloses d p text) (hdepth : depth (pieces d 0 text) = 0) :
    p ∧ Weighs d text 0 := by
  obtain ⟨n, hweighs, husual⟩ := h
  rw [hweighs.depth_eq] at hdepth
  exact ⟨husual (by omega), hdepth ▸ hweighs⟩

theorem after (h : Overcloses d p right) (hl : Weighs d left 0) :
    Overcloses d p (left ++ right) := by
  obtain ⟨n, hweighs, husual⟩ := h
  exact ⟨n, (hl.append hweighs).of_eq (Int.zero_add _), husual⟩

theorem append (hl : Overcloses d p left) (hr : Overcloses d q right) :
    Overcloses d (p ∧ q) (left ++ right) := by
  obtain ⟨m, hweighs, husual⟩ := hl
  obtain ⟨n, hweighs', husual'⟩ := hr
  exact ⟨m + n, (hweighs.append hweighs').of_eq (by omega),
    fun hzero => ⟨husual (by omega), husual' (by omega)⟩⟩

/-- **A block adds to what is closed** if its opening call does not count. -/
theorem block (h : Overcloses d q behind)
    (hopening : p ∧ Weighs d opening 1 ∨ Weighs d opening 0) (hinside : Weighs d inside 0)
    (hclosing : Weighs d closing (-1)) :
    Overcloses d (p ∧ q) (opening ++ (inside ++ (closing ++ behind))) := by
  obtain ⟨n, hweighs, husual⟩ := h
  have hrest := hinside.append (hclosing.append hweighs)
  cases hopening with
  | inl hcounts =>
      exact ⟨n, (hcounts.2.append hrest).of_eq (by omega),
        fun hzero => ⟨hcounts.1, husual hzero⟩⟩
  | inr hmissed =>
      exact ⟨n + 1, (hmissed.append hrest).of_eq (by omega),
        fun hzero => absurd hzero (Nat.succ_ne_zero n)⟩

end Overcloses

/-! ### Inside a block that is found -/

/-- What is to be said of a block that is found. -/
theorem exists_of_find? (hd : d.Distinct '<') (ha : d.Ascii) {block : Block}
    (h : find? d text = some block) : ∃ inside behind stop,
      text = textOf d inside ++ (d.closing ++ textOf d behind) ∧
      Encloses d text 0 inside ⟨block.body, block.alternate, stop⟩ := by
  rw [find?_eq hd ha] at h
  obtain ⟨⟨inside, behind⟩, hclose, rfl⟩ := Option.map_eq_some_iff.1 h
  obtain ⟨hpieces, hfirst⟩ := cutAt_eq_some_iff.1 hclose
  have hcut : Text.splitAt? 0 text = some ([], text) :=
    (Text.splitAt?_eq_some_iff _ _ _ _).2 ⟨rfl, rfl⟩
  exact ⟨inside, behind, _, text_eq_of_cutAt hd hclose,
    encloses_parts hd hcut hpieces (closes_iff.2 hfirst)⟩

theorem Balanced.depth_eq {ps : List Piece} (h : Balanced ps) : depth ps = 0 := (balanced_iff.1 h).2

/-- **A block that is not divided** stands in front of its closing call, and weighs nothing. -/
theorem find?_whole (hd : d.Distinct '<') (ha : d.Ascii)
    (h : find? d text = some ⟨body, none, length⟩) :
    (∃ rest, text = body ++ (d.closing ++ rest)) ∧ depth (pieces d 0 body) = 0 := by
  obtain ⟨inside, behind, stop, htext, hencloses⟩ := exists_of_find? hd ha h
  obtain ⟨-, hinside, hbalanced⟩ := hencloses.whole rfl
  rw [hinside, textOf_pieces hd] at htext
  exact ⟨⟨_, htext⟩, hbalanced.depth_eq⟩

/-- **The parts of a block that is divided** stand on both sides of its divider, and weigh nothing. -/
theorem find?_parted (hd : d.Distinct '<') (ha : d.Ascii)
    (h : find? d text = some ⟨body, some alternate, length⟩) :
    (∃ mark rest, d.divider = some mark ∧
      text = body ++ (mark ++ (alternate ++ (d.closing ++ rest)))) ∧
    depth (pieces d 0 body) = 0 ∧ depth (pieces d 0 alternate) = 0 := by
  obtain ⟨inside, behind, stop, htext, hencloses⟩ := exists_of_find? hd ha h
  obtain ⟨mark, hmark, -, hinside, -, hbody, halternate⟩ := hencloses.parted alternate rfl
  have hword : Piece.text d .divider = mark := by rw [Piece.text, hmark, Option.getD_some]
  rw [hinside, textOf_append, textOf_cons, textOf_pieces hd, textOf_pieces hd, hword,
    List.append_assoc, List.append_assoc] at htext
  exact ⟨⟨mark, _, hmark, htext⟩, hbody.depth_eq, halternate.depth_eq⟩

end Block

/-! ### Programs that are found -/

namespace Spaced

open Block

/-- Every block of a program is found as it was written: with its own parts, and up to the end of its
own closing call. -/
def Found : Spaced → Prop
  | done => True
  | word _ next => next.Found
  | set _ next => next.Found
  | guarded _ _ body close next =>
      find? conditional (body.source ++ (close.call ['e', 'n', 'd', 'i', 'f'] [] ++ next.source)) =
          some ⟨body.source, none,
            body.source.length + (close.call ['e', 'n', 'd', 'i', 'f'] []).length⟩ ∧
        body.Found ∧ next.Found
  | choose _ _ body divide alternate close next =>
      find? conditional (body.source ++ (divide.call ['e', 'l', 's', 'e'] [] ++
          (alternate.source ++ (close.call ['e', 'n', 'd', 'i', 'f'] [] ++ next.source)))) =
          some ⟨body.source, some alternate.source,
            body.source.length + ((divide.call ['e', 'l', 's', 'e'] []).length +
              (alternate.source.length + (close.call ['e', 'n', 'd', 'i', 'f'] []).length))⟩ ∧
        body.Found ∧ alternate.Found ∧ next.Found
  | silently _ body close next =>
      find? silent (body.source ++
          (close.call ['e', 'n', 'd', 's', 'i', 'l', 'e', 'n', 't', 'l', 'y'] [] ++ next.source)) =
          some ⟨body.source, none, body.source.length +
            (close.call ['e', 'n', 'd', 's', 'i', 'l', 'e', 'n', 't', 'l', 'y'] []).length⟩ ∧
        body.Found ∧ next.Found

variable {q : Spaced} {gap : Gap} {blanks : Blanks} {condition name : List Char}

/-- Where all blocks are written as usual, they are found. -/
theorem found_of_usual (hq : q.program.WellFormed) (hconditions : q.UsualConditions false)
    (hsilence : q.UsualSilence false) : q.Found := by
  induction q with
  | done => trivial
  | word letters next ih => exact ih hq.2 hconditions hsilence
  | set statement next ih => exact ih hq.2 hconditions hsilence
  | guarded gap condition body close next ihb ihn =>
      obtain ⟨-, hbody, hnext⟩ := hq
      obtain ⟨-, hclose, husual, hconditions⟩ := hconditions
      refine ⟨?_, ihb hbody husual.outside hsilence.1, ihn hnext hconditions hsilence.2⟩
      rw [call_eq hclose]
      exact find?_closed conditional_distinct (passed_conditional hbody husual) _
  | choose gap condition body divide alternate close next ihb iha ihn =>
      obtain ⟨-, hbody, halternate, hnext⟩ := hq
      obtain ⟨-, hdivide, hclose, husual, husual', hconditions⟩ := hconditions
      refine ⟨?_, ihb hbody husual.outside hsilence.1, iha halternate husual'.outside hsilence.2.1,
        ihn hnext hconditions hsilence.2.2⟩
      rw [call_eq hdivide, call_eq hclose]
      exact find?_divided conditional_distinct rfl (passed_conditional hbody husual)
        (passed_conditional halternate husual') _
  | silently blanks body close next ihb ihn =>
      obtain ⟨hbody, hnext⟩ := hq
      obtain ⟨-, hclose, husual, hsilence⟩ := hsilence
      refine ⟨?_, ihb hbody hconditions.1 husual.outside, ihn hnext hconditions.2 hsilence⟩
      rw [call_eq hclose]
      exact find?_closed silent_distinct (passed_silent hbody husual) _

/-! ### What the calls of a program weigh -/

/-- A call with blanks is not taken for one without. -/
theorem text_eq_nil {left right : List Char}
    (h : blanks.call name [] ++ left = Program.mark name ++ right) : blanks.text = [] := by
  have hbehind : blanks.text ++ '>' :: '>' :: left = '>' :: '>' :: right := by
    simpa [Blanks.call, Program.mark] using h
  cases htext : blanks.text with
  | nil => rfl
  | cons c more =>
      rw [htext] at hbehind
      have hblank := List.all_eq_true.1 blanks.isBlank c (htext ▸ List.mem_cons_self)
      rw [(List.cons.inj hbehind).1] at hblank
      cases hblank

/-- The opening call of a condition counts if a space stands first behind its name. -/
theorem weighs_if (gap : Gap) (hcondition : Program.IsArgument condition) :
    (gap.text.head? = some ' ' ∧ Weighs conditional (gap.call ['i', 'f'] condition) 1) ∨
      Weighs conditional (gap.call ['i', 'f'] condition) 0 := by
  by_cases h : gap.text.head? = some ' '
  · refine .inl ⟨h, ?_⟩
    rw [call_if h]
    exact (Weighs.of_isCall conditional_distinct .opening).append
      (.of_notMem conditional_distinct (notMem_condition gap hcondition))
  · right
    obtain ⟨c, more, htext⟩ := List.exists_cons_of_ne_nil gap.ne_nil
    have hc : ' ' ≠ c := by
      rw [htext] at h
      exact fun heq => h (congrArg some heq.symm)
    have hin : '<' ∉ 'i' :: 'f' :: (gap.text ++ (condition ++ ['>', '>'])) := by
      simp [gap.notMem (c := '<') (by decide), hcondition.1]
    rw [htext] at hin
    rw [Blanks.call, htext]
    refine .of_call conditional_distinct hin fun rest => ⟨?_, fun mark hmark => ?_, rfl⟩
    · simp [conditional, List.isPrefixOf, hc]
    · cases hmark
      rfl

theorem weighs_endif (h : blanks.text = []) :
    Weighs conditional (blanks.call ['e', 'n', 'd', 'i', 'f'] []) (-1) := by
  rw [call_eq h]
  exact .of_isCall conditional_distinct .closing

theorem weighs_else (h : blanks.text = []) :
    Weighs conditional (blanks.call ['e', 'l', 's', 'e'] []) 0 := by
  rw [call_eq h]
  exact .of_isCall conditional_distinct (.divider rfl)

/-- The opening call of a silent part counts if it is written without blanks. -/
theorem weighs_silently (blanks : Blanks) :
    (blanks.text = [] ∧
        Weighs silent (blanks.call ['s', 'i', 'l', 'e', 'n', 't', 'l', 'y'] []) 1) ∨
      Weighs silent (blanks.call ['s', 'i', 'l', 'e', 'n', 't', 'l', 'y'] []) 0 := by
  by_cases h : blanks.text = []
  · refine .inl ⟨h, ?_⟩
    rw [call_eq h]
    exact .of_isCall silent_distinct .opening
  · right
    obtain ⟨c, more, htext⟩ := List.exists_cons_of_ne_nil h
    have hc : '>' ≠ c := by
      rintro rfl
      exact blanks.notMem (c := '>') (by decide) (htext ▸ List.mem_cons_self)
    have hin : '<' ∉ 's' :: 'i' :: 'l' :: 'e' :: 'n' :: 't' :: 'l' :: 'y' ::
        (blanks.text ++ ['>', '>']) := by
      simp [blanks.notMem (c := '<') (by decide)]
    rw [htext] at hin
    rw [Blanks.call, htext]
    refine .of_call silent_distinct hin fun rest => ⟨?_, fun mark hmark => ?_, rfl⟩
    · simp [silent, List.isPrefixOf, hc]
    · cases hmark

theorem weighs_endsilently (h : blanks.text = []) :
    Weighs silent (blanks.call ['e', 'n', 'd', 's', 'i', 'l', 'e', 'n', 't', 'l', 'y'] []) (-1) := by
  rw [call_eq h]
  exact .of_isCall silent_distinct .closing

/-- Letters weigh nothing. -/
theorem weighs_word {d : Delimiters} (hd : d.Distinct '<') {letters : List Char}
    (h : letters.all Program.isLetter = true) : Weighs d letters 0 :=
  .of_notMem hd fun hin => Program.ne_of_isLetter (List.all_eq_true.1 h _ hin) (by decide) rfl

/-- Neither do calls that are no delimiters, whatever their blanks. -/
theorem weighs_call {d : Delimiters} (hd : d.Distinct '<') (h : Foreign d name) (blanks : Blanks)
    {argument : List Char} (ha : '<' ∉ argument) : Weighs d (blanks.call name argument) 0 := by
  refine h.weighs hd ?_
  simp [blanks.notMem (c := '<') (by decide), ha]

/-! ### Which blocks are found -/

/-- **Conditions that are found are written as usual.**  A program inside a condition closes one
more block than it opens for every condition of its own that starts otherwise. -/
theorem usualConditions_of_found (hq : q.program.WellFormed) (h : q.Found) :
    q.UsualConditions false ∧ Overcloses conditional (q.UsualConditions true) q.source := by
  induction q with
  | done => exact ⟨trivial, .nil trivial⟩
  | word letters next ih =>
      obtain ⟨hconditions, hnext⟩ := ih hq.2 h
      exact ⟨hconditions, hnext.after (weighs_word conditional_distinct hq.1)⟩
  | set statement next ih =>
      obtain ⟨hconditions, hnext⟩ := ih hq.2 h
      exact ⟨hconditions, hnext.after
        (weighs_call conditional_distinct (foreign_conditional (.inl rfl)) _ hq.1.1)⟩
  | guarded gap condition body close next ihb ihn =>
      obtain ⟨hcondition, hbody, hnext⟩ := hq
      obtain ⟨hfind, hfoundb, hfoundn⟩ := h
      obtain ⟨⟨rest, htext⟩, hdepth⟩ := find?_whole conditional_distinct conditional_ascii hfind
      have hclose : close.text = [] := text_eq_nil (List.append_cancel_left htext)
      obtain ⟨husual, hweighs⟩ := (ihb hbody hfoundb).2.of_depth hdepth
      obtain ⟨hconditions, hbehind⟩ := ihn hnext hfoundn
      have hblock := hbehind.block (weighs_if gap hcondition) hweighs (weighs_endif hclose)
      exact ⟨⟨fun h => (nomatch h), hclose, husual, hconditions⟩,
        hblock.mono fun hall => ⟨fun _ => hall.1, hclose, husual, hall.2⟩⟩
  | choose gap condition body divide alternate close next ihb iha ihn =>
      obtain ⟨hcondition, hbody, halternate, hnext⟩ := hq
      obtain ⟨hfind, hfoundb, hfounda, hfoundn⟩ := h
      obtain ⟨⟨mark, rest, hmark, htext⟩, hdepthb, hdeptha⟩ :=
        find?_parted conditional_distinct conditional_ascii hfind
      cases hmark
      have htext := List.append_cancel_left htext
      have hdivide : divide.text = [] := text_eq_nil htext
      rw [call_eq hdivide] at htext
      have hclose : close.text = [] :=
        text_eq_nil (List.append_cancel_left (List.append_cancel_left htext))
      obtain ⟨husual, hweighs⟩ := (ihb hbody hfoundb).2.of_depth hdepthb
      obtain ⟨husual', hweighs'⟩ := (iha halternate hfounda).2.of_depth hdeptha
      obtain ⟨hconditions, hbehind⟩ := ihn hnext hfoundn
      have hinside := hweighs.append ((weighs_else hdivide).append hweighs')
      have hblock := hbehind.block (weighs_if gap hcondition) hinside (weighs_endif hclose)
      rw [List.append_assoc, List.append_assoc] at hblock
      exact ⟨⟨fun h => (nomatch h), hdivide, hclose, husual, husual', hconditions⟩,
        hblock.mono fun hall => ⟨fun _ => hall.1, hdivide, hclose, husual, husual', hall.2⟩⟩
  | silently blanks body close next ihb ihn =>
      obtain ⟨hconditionsb, hbody⟩ := ihb hq.1 h.2.1
      obtain ⟨hconditions, hnext⟩ := ihn hq.2 h.2.2
      have hopening := weighs_call conditional_distinct (foreign_conditional (.inr (.inl rfl)))
        blanks List.not_mem_nil
      have hclosing := weighs_call conditional_distinct (foreign_conditional (.inr (.inr rfl)))
        close List.not_mem_nil
      exact ⟨⟨hconditionsb, hconditions⟩,
        (hbody.append (hnext.after hclosing)).after hopening⟩

/-- **Silent parts that are found are written as usual**, by the same count. -/
theorem usualSilence_of_found (hq : q.program.WellFormed) (h : q.Found) :
    q.UsualSilence false ∧ Overcloses silent (q.UsualSilence true) q.source := by
  have hif : ∀ (gap : Gap) {condition : List Char}, Program.IsArgument condition →
      Weighs silent (gap.call ['i', 'f'] condition) 0 := fun gap {_} h =>
    weighs_call silent_distinct (foreign_silent (.inr (.inl rfl))) gap.toBlanks h.1
  have helse : ∀ divide : Blanks, Weighs silent (divide.call ['e', 'l', 's', 'e'] []) 0 :=
    fun divide => weighs_call silent_distinct (foreign_silent (.inr (.inr (.inl rfl)))) divide
      List.not_mem_nil
  have hendif : ∀ close : Blanks, Weighs silent (close.call ['e', 'n', 'd', 'i', 'f'] []) 0 :=
    fun close => weighs_call silent_distinct (foreign_silent (.inr (.inr (.inr rfl)))) close
      List.not_mem_nil
  induction q with
  | done => exact ⟨trivial, .nil trivial⟩
  | word letters next ih =>
      obtain ⟨hsilence, hnext⟩ := ih hq.2 h
      exact ⟨hsilence, hnext.after (weighs_word silent_distinct hq.1)⟩
  | set statement next ih =>
      obtain ⟨hsilence, hnext⟩ := ih hq.2 h
      exact ⟨hsilence, hnext.after
        (weighs_call silent_distinct (foreign_silent (.inl rfl)) _ hq.1.1)⟩
  | guarded gap condition body close next ihb ihn =>
      obtain ⟨hcondition, hbody, hnext⟩ := hq
      obtain ⟨hsilenceb, hbody⟩ := ihb hbody h.2.1
      obtain ⟨hsilence, hnext⟩ := ihn hnext h.2.2
      exact ⟨⟨hsilenceb, hsilence⟩,
        (hbody.append (hnext.after (hendif close))).after (hif gap hcondition)⟩
  | choose gap condition body divide alternate close next ihb iha ihn =>
      obtain ⟨hcondition, hbody, halternate, hnext⟩ := hq
      obtain ⟨hsilenceb, hbody⟩ := ihb hbody h.2.1
      obtain ⟨hsilencea, halternate⟩ := iha halternate h.2.2.1
      obtain ⟨hsilence, hnext⟩ := ihn hnext h.2.2.2
      have hbehind := halternate.append (hnext.after (hendif close))
      exact ⟨⟨hsilenceb, hsilencea, hsilence⟩,
        (hbody.append (hbehind.after (helse divide))).after (hif gap hcondition)⟩
  | silently blanks body close next ihb ihn =>
      obtain ⟨hbody, hnext⟩ := hq
      obtain ⟨hfind, hfoundb, hfoundn⟩ := h
      obtain ⟨⟨rest, htext⟩, hdepth⟩ := find?_whole silent_distinct silent_ascii hfind
      have hclose : close.text = [] := text_eq_nil (List.append_cancel_left htext)
      obtain ⟨husual, hweighs⟩ := (ihb hbody hfoundb).2.of_depth hdepth
      obtain ⟨hsilence, hbehind⟩ := ihn hnext hfoundn
      have hblock := hbehind.block (weighs_silently blanks) hweighs (weighs_endsilently hclose)
      exact ⟨⟨fun h => (nomatch h), hclose, husual, hsilence⟩,
        hblock.mono fun hall => ⟨fun _ => hall.1, hclose, husual, hall.2⟩⟩

/-- **Every block of a program is found just if the calls that matter are written as usual.** -/
theorem found_iff (hq : q.program.WellFormed) :
    q.Found ↔ q.UsualConditions false ∧ q.UsualSilence false :=
  ⟨fun h => ⟨(usualConditions_of_found hq h).1, (usualSilence_of_found hq h).1⟩,
    fun h => found_of_usual hq h.1 h.2⟩

end Spaced

/-! ### Rendering -/

namespace Story

/-- What a text is rendered to that shows what a program means. -/
theorem render_of_shows {s : Story} {text : List Char} {o : Variables → Program.Outcome}
    (h : (s.kit.context s.config.maxDepth).Shows text o) :
    s.render (String.ofList text) =
      (Output.shown (o s.history.vars).1, [],
        { s with history := s.history.withVariables (o s.history.vars).2 }) := by
  have hrender : s.kit.render text s.page =
      (Output.shown (o s.history.vars).1, s.page.withVariables (o s.history.vars).2) := by
    change Kit.renderIn (s.kit.context s.config.maxDepth) text s.page = _
    rw [Kit.renderIn, h]
    rfl
  rw [render, String.toList_ofList, hrender]
  rfl

/-- A program that is found is rendered to what it means. -/
theorem shows_spaced {s : Story} (hformatters : s.formatters = .standard)
    (hmacros : s.macros = .standard) {q : Spaced} (hq : q.program.WellFormed)
    (hconditions : q.UsualConditions false) (hsilence : q.UsualSilence false)
    (hdepth : q.program.depth < s.config.maxDepth) :
    (s.kit.context s.config.maxDepth).Shows q.source q.program.run := by
  obtain ⟨left, hleft⟩ := Nat.exists_eq_add_of_lt hdepth
  rw [hleft]
  exact Kit.shows_of_run fun t ht =>
    Kit.run_spaced hformatters hmacros hq hconditions hsilence (Nat.le_add_right _ _) t ht

/-- **Blanks in calls change nothing of what is rendered, as long as every block is found**, and every
block is found just if the calls that the search for the ends of blocks comes by are written as
usual: those that divide or close a block, and those that open one inside another of its kind. -/
theorem render_spaced (s : Story) (hformatters : s.formatters = .standard)
    (hmacros : s.macros = .standard) (q : Spaced) (hq : q.program.WellFormed)
    (hdepth : q.program.depth < s.config.maxDepth) :
    (q.Found ↔ q.UsualConditions false ∧ q.UsualSilence false) ∧
      (q.Found →
        s.render (String.ofList q.source) = s.render (String.ofList q.program.source)) := by
  refine ⟨Spaced.found_iff hq, fun hfound => ?_⟩
  obtain ⟨hconditions, hsilence⟩ := (Spaced.found_iff hq).1 hfound
  have hspaced := shows_spaced hformatters hmacros hq hconditions hsilence hdepth
  -- without its blanks the program is the same, written as usual
  obtain ⟨hconditions', hsilence'⟩ := Spaced.usual_spaced q.program false
  have hplain := shows_spaced hformatters hmacros (q := q.program.spaced)
    (by rwa [Spaced.program_spaced]) hconditions' hsilence' (by rwa [Spaced.program_spaced])
  rw [Spaced.source_spaced, Spaced.program_spaced] at hplain
  rw [render_of_shows hspaced, render_of_shows hplain]

/-- A program with a tab in a condition that lies in no other, a line break behind a space in one that
does, and blanks in the call of a silent part. -/
def airy : Spaced :=
  .guarded { text := ['\t'] } "true".toList
    (.guarded { text := [' ', '\n'] } "$up".toList (.word "up".toList .done) .none <|
      .silently { text := [' ', '\t'] } (.set "$up = 1".toList .done) .none <|
      .word "on".toList .done) .none <|
  .choose { text := ['\n'] } "$up".toList (.word "top".toList .done) .none .done .none .done

/-- All blocks of that program are found, and its blanks change nothing. -/
theorem render_spaced_airy :
    landing.formatters = .standard ∧ landing.macros = .standard ∧ airy.program.WellFormed ∧
      airy.program.depth < landing.config.maxDepth ∧ airy.Found ∧
      landing.render (String.ofList airy.source) =
        landing.render (String.ofList airy.program.source) := by
  have hwell : airy.program.WellFormed := by decide +kernel
  have hdepth : airy.program.depth < landing.config.maxDepth := by decide
  obtain ⟨hfound, hrender⟩ := render_spaced landing rfl rfl airy hwell hdepth
  have husual : airy.UsualConditions false ∧ airy.UsualSilence false := by
    simp [airy, Spaced.UsualConditions, Spaced.UsualSilence, Blanks.none]
  exact ⟨rfl, rfl, hwell, hdepth, hfound.2 husual, hrender (hfound.2 husual)⟩

/-- A condition with a space in its closing call. -/
def ajar : Spaced := .guarded .space "true".toList (.word ['a'] .done) Gap.space.toBlanks .done

/-- Its block is not found: an error is shown, and behind it the word. -/
theorem shows_ajar : (landing.kit.context landing.config.maxDepth).Shows ajar.source
    fun vars => ([.error (.missingEnd "endif"), .text ['a']], vars) := by
  have hdepth : landing.config.maxDepth = 3 + 1 := rfl
  rw [hdepth]
  refine Kit.shows_of_run fun s hs => ?_
  have hend : ∀ t : Scanner, t.cursor.rest = "<<endif >>".toList →
      t.Yields (landing.kit.run (landing.kit.context 3) none t) ([], t.page.vars) := by
    intro t ht
    have hcall : Kit.IsCall (Gap.space.call ['e', 'n', 'd', 'i', 'f'] [])
        ['e', 'n', 'd', 'i', 'f'] [] :=
      Kit.isCall_call Gap.space.toBlanks (by decide) (by decide) (fun _ => rfl) (by decide)
    have hrest : t.cursor.rest = Gap.space.call ['e', 'n', 'd', 'i', 'f'] [] ++ [] := ht
    exact Kit.run_item rfl rfl hcall hrest (o := fun vars => ([], vars))
      (fun u params hu => ⟨(Macro.endif_yields _ u params []).1, hu⟩) (Nat.le_refl _)
      fun u => Kit.run_done
  have hword : ∀ t : Scanner, t.cursor.rest = "a<<endif >>".toList →
      t.Yields (landing.kit.run (landing.kit.context 3) none t) ([.text ['a']], t.page.vars) := by
    intro t ht
    have hplain : ∀ c ∈ ['a'], c ∉ Standard.signs := List.forall_mem_singleton.2 (by decide)
    rw [Kit.run_plain rfl hplain (by simp) (by decide) ht]
    have hsaid : t.Yields ((t.say ['a']).forward 1) ([.text ['a']], t.page.vars) := ⟨rfl, rfl⟩
    have hrest : ((t.say ['a']).forward 1).cursor.rest = "<<endif >>".toList :=
      Scanner.rest_behind_character ht
    obtain ⟨hnodes, hpage⟩ := hend _ hrest
    exact ⟨hnodes, hpage⟩
  have hcall : Kit.IsCall (Gap.space.call ['i', 'f'] "true".toList) ['i', 'f'] "true".toList :=
    Kit.isCall_gap .space (by decide) (by decide) (by decide)
  have hrest : s.cursor.rest =
      Gap.space.call ['i', 'f'] "true".toList ++ "a<<endif >>".toList := hs
  refine Kit.run_item rfl rfl hcall hrest
    (o := fun vars => ([.error (.missingEnd "endif")], vars)) (fun t params ht => ?_)
    (Nat.le_refl _) hword
  have hblock : Block.find? Block.conditional t.cursor.rest = none := by
    rw [ht]
    decide +kernel
  obtain ⟨hyields, hcursor⟩ :=
    Macro.conditional_unclosed (landing.kit.context 3) t params "true".toList hblock
  exact ⟨hyields, by rw [hcursor, ht]⟩

/-- A blank in a closing call makes an error of its block. -/
theorem blank_loses_block :
    String.ofList ajar.source = "<<if true>>a<<endif >>" ∧
      String.ofList ajar.program.source = "<<if true>>a<<endif>>" ∧
      Node.textContent (landing.render "<<if true>>a<<endif >>").1 =
        "can't find matching endifa" ∧
      Node.textContent (landing.render "<<if true>>a<<endif>>").1 = "a" := by
  have hsource : String.ofList ajar.source = "<<if true>>a<<endif >>" := by decide +kernel
  have hplain : String.ofList ajar.program.source = "<<if true>>a<<endif>>" := by decide +kernel
  have hwell : ajar.program.spaced.program.WellFormed := by decide +kernel
  obtain ⟨hconditions, hsilence⟩ := Spaced.usual_spaced ajar.program false
  have hshows : (landing.kit.context landing.config.maxDepth).Shows ajar.program.spaced.source
      ajar.program.spaced.program.run :=
    shows_spaced rfl rfl hwell hconditions hsilence (by decide)
  have hajar := render_of_shows shows_ajar
  have hshut := render_of_shows hshows
  rw [hsource] at hajar
  rw [Spaced.source_spaced, hplain] at hshut
  refine ⟨hsource, hplain, ?_, ?_⟩
  · rw [hajar]
    decide +kernel
  · rw [hshut]
    decide +kernel

end Story

end Gamebook
