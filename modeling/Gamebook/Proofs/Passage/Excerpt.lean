/-
**What an excerpt shows of a text.**

An excerpt is meant to show the first seven words of a passage, or the whole text if there are not
as many.  But it counts blanks, not words: a second blank in a row, an empty line or a blank at the
beginning takes a word away, and so many blanks behind a short text stay with it.  And it takes
every exclamation mark for the mark of a heading, wherever in its line it stands, so that what is
behind one goes, with the end of the line.  The results here are about texts without calls, links
and headings, where nothing is to be taken out.

Main definitions:

* `Excerpt.Unmarked` — a text without calls, links and headings;
* `Excerpt.shown` — what an excerpt shows of a text, in front of the three dots;
* `Excerpt.fromMark` — what stands from the first exclamation mark on;
* `Excerpt.SevenApart` — a text that begins with seven words, with one blank behind each;
* `Excerpt.FewBlanks` — a text with too few blanks to be cut.

Main results:

* `Excerpt.beforeBlank?_append` — a text is cut at the blank of a number;
* `Excerpt.dropHeadings_cut` — what is behind an exclamation mark goes;
* `Excerpt.words_diverge` — **a mark between them parts two texts**, and so their words;
* `Passage.excerpt_iff` — **which excerpts show the first seven words**, or the whole text.
-/

import Gamebook.Passage.Excerpt
import Gamebook.Text.Runs
import Mathlib.Data.List.Infix
import Mathlib.Data.List.TakeWhile

set_option relaxedAutoImplicit false
set_option autoImplicit false

namespace Gamebook

namespace Excerpt

open Text

variable {text start rest before line behind : List Char} {c blank mark : Char} {n : Nat}

/-! ### Texts with nothing to be taken out -/

/-- A text without calls, links and headings: no two opening brackets of a call, no square bracket
and no slash, and no line that starts with an exclamation mark. -/
structure Unmarked (text : List Char) : Prop where
  no_call : ¬ ['<', '<'] <:+: text
  no_link : ∀ c ∈ text, c ∉ ['[', ']', '/']
  no_heading : text.head? ≠ some '!' ∧ ¬ ['\n', '!'] <:+: text

instance (text : List Char) : Decidable (Unmarked text) :=
  decidable_of_iff
    (¬ ['<', '<'] <:+: text ∧ (text.all fun c => !(['[', ']', '/'].contains c)) = true ∧
      text.head? ≠ some '!' ∧ ¬ ['\n', '!'] <:+: text)
    ⟨fun h => ⟨h.1, fun c hc => by simpa using List.all_eq_true.1 h.2.1 c hc, h.2.2⟩,
      fun h => ⟨h.no_call, List.all_eq_true.2 fun c hc => by simpa using h.no_link c hc,
        h.no_heading⟩⟩

/-- What an excerpt shows of a text. -/
def shown (text : List Char) : List Char :=
  (beforeBlank? 6 (dropHeadings text)).getD (trim (dropHeadings text))

theorem dropCalls_eq (h : ¬ ['<', '<'] <:+: text) : dropCalls text = text := by
  refine remove_eq_self fun rest hrest => ?_
  unfold call?
  split
  · rename_i body
    exact absurd ((List.prefix_append ['<', '<'] body).isInfix.trans hrest.isInfix) h
  · rfl

theorem dropPunctuation_eq (h : ∀ c ∈ text, c ∉ ['[', ']', '/']) : dropPunctuation text = text := by
  refine List.filter_eq_self.2 fun c hc => ?_
  have hne := h c hc
  simp only [List.mem_cons, List.not_mem_nil, or_false, not_or] at hne
  simp [hne]

/-- Of an unmarked text nothing but headings is taken out. -/
theorem excerpt_eq {p : Passage} (h : Unmarked p.text.toList) :
    p.excerpt = String.ofList (shown p.text.toList) ++ "..." := by
  have hlink : ∀ c ∈ dropHeadings p.text.toList, c ∉ ['[', ']', '/'] :=
    fun c hc => h.no_link c ((remove_sublist heading? _).subset hc)
  rw [Passage.excerpt, dropCalls_eq h.no_call, dropPunctuation_eq hlink, shown]

/-! ### Blanks are counted -/

theorem beforeBlank?_cons_of_neg (hc : isBlank c = false) (n : Nat) (text : List Char) :
    beforeBlank? n (c :: text) = (beforeBlank? n text).map (c :: ·) := by
  cases n <;> simp [beforeBlank?, hc]

theorem beforeBlank?_succ (hc : isBlank c = true) (n : Nat) (text : List Char) :
    beforeBlank? (n + 1) (c :: text) = (beforeBlank? n text).map (c :: ·) := by
  simp [beforeBlank?, hc]

/-- A text is cut at the blank that has the given number of blanks before it. -/
theorem beforeBlank?_append (hblank : isBlank blank = true) (start rest : List Char) :
    beforeBlank? (start.countP isBlank) (start ++ blank :: rest) = some start := by
  induction start with
  | nil => simp [beforeBlank?, hblank]
  | cons c start ih =>
      cases hc : isBlank c with
      | true =>
          rw [List.countP_cons_of_pos hc, List.cons_append, beforeBlank?_succ hc, ih, Option.map_some]
      | false =>
          rw [List.countP_cons_of_neg (by simp [hc]), List.cons_append,
            beforeBlank?_cons_of_neg hc, ih, Option.map_some]

/-- A text with too few blanks is not cut. -/
theorem beforeBlank?_eq_none (h : text.countP isBlank ≤ n) : beforeBlank? n text = none := by
  induction text generalizing n with
  | nil => cases n <;> rfl
  | cons c text ih =>
      cases hc : isBlank c with
      | true =>
          rw [List.countP_cons_of_pos hc] at h
          obtain ⟨n, rfl⟩ := Nat.exists_eq_add_of_le' (Nat.le_of_add_left_le h)
          rw [beforeBlank?_succ hc, ih (Nat.le_of_succ_le_succ h), Option.map_none]
      | false =>
          rw [List.countP_cons_of_neg (by simp [hc])] at h
          rw [beforeBlank?_cons_of_neg hc, ih h, Option.map_none]

/-- A text with more blanks than `n` has one with `n` blanks before it. -/
theorem exists_blank (h : n < text.countP isBlank) : ∃ start blank rest,
    text = start ++ blank :: rest ∧ isBlank blank = true ∧ start.countP isBlank = n := by
  induction text generalizing n with
  | nil => exact absurd h (Nat.not_lt_zero n)
  | cons c text ih =>
      cases hc : isBlank c with
      | false =>
          rw [List.countP_cons_of_neg (by simp [hc])] at h
          obtain ⟨start, blank, rest, rfl, hblank, hcount⟩ := ih h
          exact ⟨c :: start, blank, rest, rfl, hblank,
            (List.countP_cons_of_neg (by simp [hc])).trans hcount⟩
      | true =>
          rw [List.countP_cons_of_pos hc] at h
          cases n with
          | zero => exact ⟨[], c, text, rfl, hc, rfl⟩
          | succ n =>
              obtain ⟨start, blank, rest, rfl, hblank, hcount⟩ := ih (Nat.lt_of_succ_lt_succ h)
              exact ⟨c :: start, blank, rest, rfl, hblank, by rw [List.countP_cons_of_pos hc, hcount]⟩

/-! ### Exclamation marks are taken for headings -/

/-- What stands from the first exclamation mark on. -/
def fromMark (text : List Char) : List Char := text.dropWhile (· != '!')

theorem heading?_of_ne (hc : c ≠ '!') (rest : List Char) : heading? (c :: rest) = none := by
  unfold heading?
  split
  · rename_i heq
    exact absurd (List.head_eq_of_cons_eq heq) hc
  · rfl

/-- What stands in front of all exclamation marks stays. -/
theorem dropHeadings_append (hbefore : '!' ∉ before) (rest : List Char) :
    dropHeadings (before ++ rest) = before ++ dropHeadings rest := by
  have hpassed : ∀ c ∈ before, ∀ rest, heading? (c :: rest) = none :=
    fun c hc => heading?_of_ne (ne_of_mem_of_not_mem hc hbefore)
  exact remove_passed hpassed rest

/-- **What is behind an exclamation mark goes**, up to the end of its line. -/
theorem dropHeadings_cut (hbefore : '!' ∉ before) (hline : '\n' ∉ line) (behind : List Char) :
    dropHeadings (before ++ '!' :: (line ++ '\n' :: behind)) = before ++ dropHeadings behind := by
  have htext : '!' :: (line ++ '\n' :: behind) = ('!' :: (line ++ ['\n'])) ++ behind := by simp
  have hpiece : heading? (('!' :: (line ++ ['\n'])) ++ behind) =
      some ('!' :: (line ++ ['\n'])).length := by
    rw [← htext, heading?]
    simp only [takeWhile_until hline]
    rw [if_pos (by simp)]
    simp
  rw [dropHeadings_append hbefore, htext, dropHeadings,
    remove_piece (List.cons_ne_nil _ _) hpiece, dropHeadings]

theorem notMem_takeWhile (text : List Char) : '!' ∉ text.takeWhile (· != '!') := by
  intro hin
  have hne := List.all_eq_true.1 (List.all_takeWhile (p := (· != '!')) (l := text)) '!' hin
  cases hne

/-- Where no line ends behind an exclamation mark, all stays. -/
theorem dropHeadings_eq (h : '\n' ∉ fromMark text) : dropHeadings text = text := by
  have hrest : ∀ rest, rest <:+ fromMark text → heading? rest = none := by
    intro rest hrest
    unfold heading?
    split
    · rename_i line
      have hnone : ∀ c ∈ line, (c != '\n') = true := by
        intro c hc
        have hin : c ∈ fromMark text := hrest.subset (List.mem_cons_of_mem _ hc)
        exact bne_iff_ne.2 (ne_of_mem_of_not_mem hin h)
      rw [List.takeWhile_eq_self_iff.2 hnone]
      exact if_neg (Nat.lt_irrefl _)
    · rfl
  calc dropHeadings text
      = dropHeadings (text.takeWhile (· != '!') ++ fromMark text) := by
        rw [fromMark, List.takeWhile_append_dropWhile]
    _ = text.takeWhile (· != '!') ++ fromMark text := by
        rw [dropHeadings_append (notMem_takeWhile text), dropHeadings, remove_eq_self hrest]
    _ = text := List.takeWhile_append_dropWhile

/-- A line that ends behind an exclamation mark: the first of these marks, its line, and what is
behind it. -/
theorem exists_cut (h : '\n' ∈ fromMark text) : ∃ before line behind,
    text = before ++ '!' :: (line ++ '\n' :: behind) ∧ '!' ∉ before ∧ '\n' ∉ line := by
  obtain ⟨mark, rest, hrest⟩ := List.exists_cons_of_ne_nil (List.ne_nil_of_mem h)
  obtain rfl : mark = '!' := by
    have hmark := head?_dropWhile (· != '!') text mark (by rw [← fromMark, hrest]; rfl)
    simpa using hmark
  rw [hrest, List.mem_cons] at h
  obtain ⟨line, behind, rfl, hline⟩ :=
    List.eq_append_cons_of_mem (h.resolve_left (by decide))
  refine ⟨text.takeWhile (· != '!'), line, behind, ?_, notMem_takeWhile text, hline⟩
  rw [← hrest, fromMark, List.takeWhile_append_dropWhile]

/-! ### What is shown -/

theorem shown_of_blank (hplain : dropHeadings text = start ++ blank :: rest)
    (hblank : isBlank blank = true) (hcount : start.countP isBlank = 6) : shown text = start := by
  rw [shown, hplain, ← hcount, beforeBlank?_append hblank, Option.getD_some]

theorem shown_of_few (h : (dropHeadings text).countP isBlank ≤ 6) :
    shown text = trim (dropHeadings text) := by
  rw [shown, beforeBlank?_eq_none h, Option.getD_none]

theorem trim_sublist (text : List Char) : (trim text).Sublist text := by
  obtain ⟨before, behind, -, -, htext⟩ := append_trim_append text
  have hinfix : trim text <:+: text := ⟨before, behind, htext.symm⟩
  exact hinfix.sublist

theorem shown_sublist (text : List Char) : (shown text).Sublist (dropHeadings text) := by
  rcases Nat.lt_or_ge 6 ((dropHeadings text).countP isBlank) with hmany | hfew
  · obtain ⟨start, blank, rest, hplain, hblank, hcount⟩ := exists_blank hmany
    rw [shown_of_blank hplain hblank hcount, hplain]
    exact List.sublist_append_left start _
  · rw [shown_of_few hfew]
    exact trim_sublist _

/-! ### The first seven words -/

/-- A text that begins with seven words, with one blank behind each.  No line ends behind an
exclamation mark of these words. -/
def SevenApart (text : List Char) : Prop :=
  ∃ start blank rest, text = start ++ blank :: rest ∧ isBlank blank = true ∧
    (words start).length = 7 ∧ start.countP isBlank = 6 ∧ ('!' ∈ start → '\n' ∉ fromMark text)

/-- Such words are shown. -/
theorem SevenApart.words_shown (h : SevenApart text) : words (shown text) = (words text).take 7 := by
  obtain ⟨start, blank, rest, htext, hblank, hseven, hcount, hmark⟩ := h
  have hplain : ∃ rest', dropHeadings text = start ++ blank :: rest' := by
    by_cases hin : '!' ∈ start
    · exact ⟨rest, (dropHeadings_eq (hmark hin)).trans htext⟩
    · -- the first mark, if there is one, is behind the words
      have hno : '!' ∉ start ++ [blank] := by
        intro hin'
        rcases List.mem_append.1 hin' with hin' | hin'
        · exact hin hin'
        · rw [← List.mem_singleton.1 hin'] at hblank
          cases hblank
      refine ⟨dropHeadings rest, ?_⟩
      rw [htext, List.append_cons, dropHeadings_append hno, ← List.append_cons]
  obtain ⟨rest', hplain⟩ := hplain
  rw [shown_of_blank hplain hblank hcount, htext, words_append_cons hblank, ← hseven,
    List.take_left]

/-- If no heading is found in a text of many words, they are shown only so. -/
theorem sevenApart_of_uncut (hcut : '\n' ∉ fromMark text) (hmany : 8 ≤ (words text).length)
    (h : words (shown text) = (words text).take 7) : SevenApart text := by
  have hblanks : 6 < text.countP isBlank := by
    have hle := (length_words_le text).1
    omega
  obtain ⟨start, blank, rest, htext, hblank, hcount⟩ := exists_blank hblanks
  have hplain := (dropHeadings_eq hcut).trans htext
  rw [shown_of_blank hplain hblank hcount] at h
  refine ⟨start, blank, rest, htext, hblank, ?_, hcount, fun _ => hcut⟩
  rw [h, List.length_take]
  omega

/-- A text has one word more than it has blanks. -/
def Tight (text : List Char) : Prop := (words text).length = text.countP isBlank + 1

theorem Tight.head (h : Tight text) : ∃ c ∈ text.head?, isBlank c = false := by
  by_contra hnone
  have hall : ∀ c ∈ text.head?, isBlank c = true := by
    intro c hc
    by_contra hblank
    exact hnone ⟨c, hc, Bool.eq_false_iff.2 hblank⟩
  have hle := (length_words_le text).2 hall
  rw [h] at hle
  exact Nat.not_succ_le_self _ hle

/-- What is behind a blank of such a text is such a text. -/
theorem Tight.of_append_cons (hblank : isBlank blank = true) (h : Tight (text ++ blank :: rest)) :
    Tight rest := by
  have htext := (length_words_le text).1
  have hrest := (length_words_le rest).1
  rw [Tight, words_append_cons hblank, List.length_append, List.countP_append,
    List.countP_cons_of_pos hblank] at h
  rw [Tight]
  omega

/-- Two texts that begin with the same run of a word, and of which one goes on with a mark, begin with
different words. -/
theorem words_diverge_run {run : List Char} (hrun : ∀ c ∈ run, (!isBlank c) = true)
    (hmark : isBlank mark = false) (hrest : rest.head? ≠ some mark) (htight : Tight (run ++ rest))
    (behind : List Char) : ¬ words (run ++ rest) <+: words (run ++ mark :: behind) := by
  intro hprefix
  have hhead : ∃ c ∈ (run ++ mark :: behind).head?, isBlank c = false := by
    cases run with
    | nil => exact ⟨mark, rfl, hmark⟩
    | cons c run => exact ⟨c, rfl, by simpa using hrun c List.mem_cons_self⟩
  rw [words_eq_cons htight.head, words_eq_cons hhead, List.cons_prefix_cons,
    List.takeWhile_append_of_pos hrun, List.takeWhile_append_of_pos hrun,
    List.append_cancel_left_eq, List.takeWhile_cons_of_pos (by simp [hmark])] at hprefix
  obtain ⟨heq, -⟩ := hprefix
  cases rest with
  | nil => cases heq
  | cons c rest =>
      rw [List.takeWhile_cons] at heq
      split at heq
      · exact hrest (congrArg some (List.head_eq_of_cons_eq heq))
      · cases heq

/-- **A mark between them parts two texts**, and so their words.  One goes on with the mark and the
other does not; then the words of the second are not those that the first begins with. -/
theorem words_diverge (hmark : isBlank mark = false) (hrest : rest.head? ≠ some mark)
    (htight : Tight (text ++ rest)) (behind : List Char) :
    ¬ words (text ++ rest) <+: words (text ++ mark :: behind) := by
  rcases forall_or_last (fun c => !isBlank c) text with hrun | ⟨before, c, run, rfl, hc, hrun⟩
  · exact words_diverge_run hrun hmark hrest htight behind
  · -- the words before the last blank are the same
    have hblank : isBlank c = true := by simpa using hc
    rw [List.append_assoc, List.cons_append] at htight ⊢
    rw [List.append_assoc, List.cons_append, words_append_cons hblank, words_append_cons hblank,
      List.prefix_append_right_inj]
    exact words_diverge_run hrun hmark hrest (htight.of_append_cons hblank) behind

/-- Of two texts that are parted by a mark one shows the first seven words of the other only if it has
more than six blanks. -/
theorem six_lt_of_diverge (hmark : isBlank mark = false) (hrest : rest.head? ≠ some mark)
    (hmany : 8 ≤ (words (text ++ mark :: behind)).length)
    (h : words (text ++ rest) = (words (text ++ mark :: behind)).take 7) :
    6 < (text ++ rest).countP isBlank := by
  by_contra hfew
  have htight : Tight (text ++ rest) := by
    have hle := (length_words_le (text ++ rest)).1
    have hseven := congrArg List.length h
    rw [List.length_take] at hseven
    rw [Tight]
    omega
  refine words_diverge hmark hrest htight behind ?_
  rw [h]
  exact List.take_prefix 7 _

/-- Where something else than a mark is first, it stays first. -/
theorem head?_dropHeadings (h : text.head? ≠ some '!') : (dropHeadings text).head? ≠ some '!' := by
  cases text with
  | nil => exact h
  | cons c text =>
      have hne : c ≠ '!' := fun heq => h (congrArg some heq)
      have hno : '!' ∉ [c] := fun hin => hne (List.mem_singleton.1 hin).symm
      rw [← List.singleton_append, dropHeadings_append hno]
      exact h

/-- If something is cut from a text of many words, the first seven are shown only if it is cut behind
them. -/
theorem sevenApart_of_cut (hlines : ¬ ['\n', '!'] <:+: text) (hcut : '\n' ∈ fromMark text)
    (hmany : 8 ≤ (words text).length) (h : words (shown text) = (words text).take 7) :
    SevenApart text := by
  obtain ⟨before, line, behind, rfl, hbefore, hline⟩ := exists_cut hcut
  have hplain := dropHeadings_cut hbefore hline behind
  have hbehind : (dropHeadings behind).head? ≠ some '!' := by
    refine head?_dropHeadings fun hhead => hlines ?_
    obtain ⟨rest, rfl⟩ := List.head?_eq_some_iff.1 hhead
    exact ⟨before ++ '!' :: line, rest, by simp⟩
  -- what is shown does not go on behind the mark
  have hshort : ∀ rest, rest <+: dropHeadings behind →
      words (before ++ rest) = (words (before ++ '!' :: (line ++ '\n' :: behind))).take 7 →
        6 < (before ++ rest).countP isBlank := by
    rintro rest ⟨more, hmore⟩ hwords
    have hhead : rest.head? ≠ some '!' := by
      cases rest with
      | nil => exact fun heq => nomatch heq
      | cons c rest =>
          rw [← hmore] at hbehind
          exact hbehind
    exact six_lt_of_diverge (by decide) hhead hmany hwords
  rcases Nat.lt_or_ge 6 ((before ++ dropHeadings behind).countP isBlank) with hblanks | hfew
  · obtain ⟨start, blank, rest, hstart, hblank, hcount⟩ := exists_blank hblanks
    rw [shown_of_blank (hplain.trans hstart) hblank hcount] at h
    rcases List.append_eq_append_iff.1 hstart with ⟨between, rfl, hrest⟩ | ⟨between, rfl, hrest⟩
    · have hprefix : between <+: dropHeadings behind := by
        rw [hrest]
        exact List.prefix_append _ _
      exact absurd hcount.le (Nat.not_le_of_gt (hshort between hprefix h))
    · cases between with
      | nil =>
          have hlt := hshort [] List.nil_prefix (by simpa using h)
          rw [List.append_nil, List.append_nil, hcount] at hlt
          exact absurd hlt (Nat.lt_irrefl 6)
      | cons c between =>
          obtain rfl := List.head_eq_of_cons_eq hrest
          have hmark : '!' ∉ start := fun hin => hbefore (List.mem_append_left _ hin)
          refine ⟨start, blank, between ++ '!' :: (line ++ '\n' :: behind), by simp, hblank, ?_,
            hcount, fun hin => absurd hin hmark⟩
          rw [h, List.length_take]
          omega
  · rw [shown_of_few (hplain ▸ hfew), words_trim, hplain] at h
    exact absurd hfew (Nat.not_le_of_gt (hshort _ (List.prefix_refl _) h))

/-! ### Short texts -/

/-- A text with too few blanks to be cut: six at most, or six inside it and no others but behind it.
No line ends behind an exclamation mark. -/
def FewBlanks (text : List Char) : Prop :=
  '\n' ∉ fromMark text ∧ (text.countP isBlank ≤ 6 ∨
    (∀ c ∈ text.head?, isBlank c = false) ∧ (trim text).countP isBlank = 6)

/-- Trimming takes no character away that is no blank. -/
theorem count_trim (hc : isBlank c = false) (text : List Char) :
    (trim text).count c = text.count c := by
  obtain ⟨left, right, hleft, hright, htext⟩ := append_trim_append text
  have hnone : ∀ blanks : List Char, (∀ d ∈ blanks, isBlank d = true) → blanks.count c = 0 := by
    intro blanks hblanks
    refine List.count_eq_zero.2 fun hin => ?_
    rw [hblanks c hin] at hc
    cases hc
  calc (trim text).count c
      = (left ++ trim text ++ right).count c := by
        rw [List.count_append, List.count_append, hnone left hleft, hnone right hright,
          Nat.zero_add, Nat.add_zero]
    _ = text.count c := by rw [← htext]

/-- Of a text in which a heading is found an exclamation mark is missing. -/
theorem shown_ne_trim_of_cut (hcut : '\n' ∈ fromMark text) : shown text ≠ trim text := by
  obtain ⟨before, line, behind, rfl, hbefore, hline⟩ := exists_cut hcut
  intro heq
  have hshown := (shown_sublist (before ++ '!' :: (line ++ '\n' :: behind))).count_le '!'
  have hbehind := (remove_sublist heading? behind).count_le '!'
  rw [heq, count_trim (by decide), dropHeadings_cut hbefore hline, dropHeadings, List.count_append,
    List.count_append, List.count_cons_self, List.count_append,
    List.count_cons_of_ne (by decide)] at hshown
  omega

/-- A text is shown as a whole if it has six blanks inside it and no others but behind it. -/
theorem shown_of_inside (hcut : '\n' ∉ fromMark text) (hmany : 6 < text.countP isBlank)
    (hhead : ∀ c ∈ text.head?, isBlank c = false) (hcount : (trim text).countP isBlank = 6) :
    shown text = trim text := by
  obtain ⟨left, right, hleft, hright, htext⟩ := append_trim_append text
  have hnil : left = [] := by
    cases left with
    | nil => rfl
    | cons c left =>
        rw [htext] at hhead
        have hc := hleft c List.mem_cons_self
        rw [hhead c rfl] at hc
        cases hc
  rw [hnil, List.nil_append] at htext
  cases right with
  | nil =>
      rw [List.append_nil] at htext
      rw [htext, hcount] at hmany
      exact absurd hmany (Nat.lt_irrefl 6)
  | cons blank right =>
      have hplain := (dropHeadings_eq hcut).trans htext
      exact shown_of_blank hplain (hright blank List.mem_cons_self) hcount

/-- **Which texts are shown as a whole**: those with too few blanks to be cut. -/
theorem shown_eq_trim_iff : shown text = trim text ↔ FewBlanks text := by
  by_cases hcut : '\n' ∈ fromMark text
  · exact ⟨fun h => absurd h (shown_ne_trim_of_cut hcut), fun h => absurd hcut h.1⟩
  have hplain := dropHeadings_eq hcut
  rcases Nat.lt_or_ge 6 (text.countP isBlank) with hmany | hfew
  · constructor
    · intro h
      obtain ⟨start, blank, rest, htext, hblank, hcount⟩ := exists_blank hmany
      rw [shown_of_blank (hplain.trans htext) hblank hcount] at h
      refine ⟨hcut, .inr ⟨?_, h ▸ hcount⟩⟩
      have hhead := head?_trim text
      rw [← h] at hhead
      cases start with
      | nil => cases hcount
      | cons c start =>
          rw [htext]
          exact hhead
    · rintro ⟨-, hfew | ⟨hhead, hcount⟩⟩
      · exact absurd hmany (Nat.not_lt_of_ge hfew)
      · exact shown_of_inside hcut hmany hhead hcount
  · rw [shown_of_few (hplain.symm ▸ hfew), hplain]
    exact ⟨fun _ => ⟨hcut, .inl hfew⟩, fun _ => rfl⟩

end Excerpt

open Text Excerpt in
/-- **Which excerpts show the first seven words**, or the whole text.  The excerpt of an unmarked text
of eight words or more is its first seven words and three dots, up to blanks, just when the text begins
with seven words that have one blank behind each, and no line ends behind an exclamation mark of these.
The excerpt of a shorter one is the trimmed text and three dots just when there are too few blanks in
it to be cut, and no line ends behind an exclamation mark. -/
theorem Passage.excerpt_iff (p : Passage) (h : Unmarked p.text.toList) :
    (8 ≤ (words p.text.toList).length →
      ((∃ start : String, p.excerpt = start ++ "..." ∧
          words start.toList = (words p.text.toList).take 7) ↔ SevenApart p.text.toList)) ∧
    ((words p.text.toList).length < 8 →
      (p.excerpt = String.ofList (trim p.text.toList) ++ "..." ↔ FewBlanks p.text.toList)) := by
  have hexcerpt := excerpt_eq h
  refine ⟨fun hmany => ⟨?_, fun hseven => ?_⟩, fun _ => ?_⟩
  · rintro ⟨start, hstart, hwords⟩
    rw [hexcerpt, String.append_left_inj] at hstart
    rw [← hstart, String.toList_ofList] at hwords
    by_cases hcut : '\n' ∈ fromMark p.text.toList
    · exact sevenApart_of_cut h.no_heading.2 hcut hmany hwords
    · exact sevenApart_of_uncut hcut hmany hwords
  · refine ⟨_, hexcerpt, ?_⟩
    rw [String.toList_ofList, hseven.words_shown]
  · rw [hexcerpt, String.append_left_inj, String.ofList_inj]
    exact shown_eq_trim_iff

/-- A passage with a text. -/
def Passage.saying (text : String) : Passage := .ofRecord { title := "Cave", text := text, order := 1 }

namespace Excerpt

/-- A text of nine words, with one blank between each two of the first seven. -/
def waking : String := "You wake up in a cold room!  No doors."

/-- A text of two words, and blanks around them. -/
def brief : String := " Just\nthis  \n"

theorem unmarked_waking : Unmarked waking.toList := by decide +kernel

theorem unmarked_brief : Unmarked brief.toList := by decide +kernel

end Excerpt

open Text Excerpt in
/-- The first seven words of a text are shown, and all of a short one. -/
theorem Passage.excerpt_iff_waking_brief :
    Unmarked (saying waking).text.toList ∧ 8 ≤ (words (saying waking).text.toList).length ∧
      (∃ start : String, (saying waking).excerpt = start ++ "..." ∧
        words start.toList = (words (saying waking).text.toList).take 7) ∧
      Unmarked (saying brief).text.toList ∧ (words (saying brief).text.toList).length < 8 ∧
      (saying brief).excerpt = "Just\nthis..." := by
  have hmany : 8 ≤ (words (saying waking).text.toList).length := by decide +kernel
  have hfew : (words (saying brief).text.toList).length < 8 := by decide +kernel
  have hseven : SevenApart (saying waking).text.toList :=
    ⟨"You wake up in a cold room!".toList, ' ', " No doors.".toList, by decide +kernel,
      by decide +kernel, by decide +kernel, by decide +kernel, by decide +kernel⟩
  have hblanks : FewBlanks (saying brief).text.toList :=
    ⟨by decide +kernel, .inl (by decide +kernel)⟩
  exact ⟨unmarked_waking, hmany, ((excerpt_iff (saying waking) unmarked_waking).1 hmany).2 hseven,
    unmarked_brief, hfew, ((excerpt_iff (saying brief) unmarked_brief).2 hfew).2 hblanks⟩

open Text Excerpt in
/-- **Not every excerpt shows what it is meant to show.**  An exclamation mark inside a line takes what
is behind it away, and an empty line takes the place of a word. -/
theorem Passage.excerpt_misses :
    Unmarked "Hello! How are you?\nFine.".toList ∧
      (words "Hello! How are you?\nFine.".toList).length < 8 ∧
      (saying "Hello! How are you?\nFine.").excerpt = "HelloFine...." ∧
      (saying "Hello! How are you?\nFine.").excerpt ≠
        String.ofList (trim "Hello! How are you?\nFine.".toList) ++ "..." ∧
      Unmarked "You wake up.\n\nThere are no doors here.".toList ∧
      8 ≤ (words "You wake up.\n\nThere are no doors here.".toList).length ∧
      (saying "You wake up.\n\nThere are no doors here.").excerpt =
        "You wake up.\n\nThere are no..." ∧
      ¬ ∃ start : String,
        (saying "You wake up.\n\nThere are no doors here.").excerpt = start ++ "..." ∧
          words start.toList = (words "You wake up.\n\nThere are no doors here.".toList).take 7 := by
  have hshown : (saying "You wake up.\n\nThere are no doors here.").excerpt =
      "You wake up.\n\nThere are no" ++ "..." := by decide +kernel
  refine ⟨by decide +kernel, by decide +kernel, by decide +kernel, by decide +kernel,
    by decide +kernel, by decide +kernel, hshown, ?_⟩
  rintro ⟨start, hstart, hwords⟩
  rw [hshown, String.append_left_inj] at hstart
  rw [← hstart] at hwords
  revert hwords
  decide +kernel

end Gamebook
