/-
**Runs of characters of a class.**

A run is a part of a text whose characters are all of one class and which the text does not go on
with: what stands next to it, if anything does, is of another class.  The words of a text are its
runs of characters that are no blanks.

Main definitions:

* `Text.run?`, `Text.runs` — the run that a text starts with, and all of them;
* `Text.words` — the words of a text.

Main results:

* `Text.takeWhile_until` — a text is read up to the first of a mark;
* `Text.runInduction` — texts are put together from runs and from characters between them;
* `Text.runs_append_cons` — **a character of another class parts the runs** before it from those
  behind it;
* `Text.length_runs_le` — there is at most one run more than there are such characters;
* `Text.words_trim` — trimming takes no words away.
-/

import Gamebook.Text.Blank
import Gamebook.Text.Pieces

set_option relaxedAutoImplicit false
set_option autoImplicit false

namespace Gamebook.Text

/-- The run of characters of a class that a text starts with, and its length. -/
def run? (p : Char → Bool) (text : List Char) : Option (List Char × Nat) :=
  let run := text.takeWhile p
  if run = [] then none else some (run, run.length)

/-- The runs of characters of a class. -/
def runs (p : Char → Bool) (text : List Char) : List (List Char) := collect (run? p) text

/-- The words of a text. -/
def words (text : List Char) : List (List Char) := runs (fun c => !isBlank c) text

variable {p : Char → Bool} {c : Char} {run text rest : List Char}

/-- Characters of a class are taken up to one that is none. -/
theorem takeWhile_run (h : ∀ c ∈ run, p c = true) (hrest : ∀ c ∈ rest.head?, p c = false) :
    (run ++ rest).takeWhile p = run := by
  rw [List.takeWhile_append_of_pos h]
  cases rest with
  | nil => exact List.append_nil run
  | cons c rest => rw [List.takeWhile_cons_of_neg (by simp [hrest c rfl]), List.append_nil]

/-- What stands before a character that it does not hold. -/
theorem takeWhile_until {mark : Char} (h : mark ∉ run) (rest : List Char) :
    (run ++ mark :: rest).takeWhile (· != mark) = run := by
  refine takeWhile_run (fun c hc => bne_iff_ne.2 (ne_of_mem_of_not_mem hc h)) ?_
  rintro c ⟨⟩
  exact bne_self_eq_false mark

theorem run?_append (hne : run ≠ []) (h : ∀ c ∈ run, p c = true)
    (hrest : ∀ c ∈ rest.head?, p c = false) : run? p (run ++ rest) = some (run, run.length) := by
  simp only [run?, takeWhile_run h hrest]
  exact if_neg hne

theorem run?_cons_of_neg (hc : p c = false) (rest : List Char) : run? p (c :: rest) = none := by
  simp only [run?, List.takeWhile_cons_of_neg (Bool.eq_false_iff.1 hc)]
  rfl

@[simp] theorem runs_nil (p : Char → Bool) : runs p [] = [] := rfl

/-- A run is taken whole. -/
theorem runs_append (hne : run ≠ []) (h : ∀ c ∈ run, p c = true)
    (hrest : ∀ c ∈ rest.head?, p c = false) : runs p (run ++ rest) = run :: runs p rest :=
  collect_piece hne (run?_append hne h hrest)

/-- Characters of another class are passed over. -/
theorem runs_cons_of_neg (hc : p c = false) (rest : List Char) : runs p (c :: rest) = runs p rest :=
  collect_passed (List.forall_mem_singleton.2 fun rest => run?_cons_of_neg hc rest) rest

/-- Where the characters of a class end. -/
theorem head?_dropWhile (p : Char → Bool) (text : List Char) :
    ∀ c ∈ (text.dropWhile p).head?, p c = false := by
  intro c hc
  have hnot := List.head?_dropWhile_not p text
  rw [Option.mem_def.1 hc] at hnot
  simpa using hnot

/-- The first run of a text that starts with a character of the class. -/
theorem runs_eq_cons (h : ∃ c ∈ text.head?, p c = true) :
    runs p text = text.takeWhile p :: runs p (text.dropWhile p) := by
  obtain ⟨c, hhead, hc⟩ := h
  have hne : text.takeWhile p ≠ [] := by
    obtain ⟨rest, rfl⟩ := List.head?_eq_some_iff.1 hhead
    rw [List.takeWhile_cons_of_pos hc]
    exact List.cons_ne_nil _ _
  have hrun := List.all_eq_true.1 (List.all_takeWhile (p := p) (l := text))
  rw [← runs_append hne hrun (head?_dropWhile p text), List.takeWhile_append_dropWhile]

/-- **A text is put together from runs and from characters between them.** -/
@[elab_as_elim]
theorem runInduction (p : Char → Bool) {motive : List Char → Prop} (nil : motive [])
    (other : ∀ c rest, p c = false → motive rest → motive (c :: rest))
    (run : ∀ run rest, run ≠ [] → (∀ c ∈ run, p c = true) → (∀ c ∈ rest.head?, p c = false) →
      motive rest → motive (run ++ rest)) (text : List Char) : motive text := by
  match text with
  | [] => exact nil
  | c :: text =>
      cases hc : p c with
      | false => exact other c text hc (runInduction p nil other run text)
      | true =>
          have hrun : ∀ d ∈ c :: text.takeWhile p, p d = true :=
            List.forall_mem_cons.2 ⟨hc, List.all_eq_true.1 List.all_takeWhile⟩
          have hlt : (text.dropWhile p).length < text.length + 1 :=
            Nat.lt_succ_of_le (List.dropWhile_suffix p).length_le
          have hmotive := run (c :: text.takeWhile p) (text.dropWhile p) (List.cons_ne_nil _ _) hrun
            (head?_dropWhile p text) (runInduction p nil other run (text.dropWhile p))
          rwa [List.cons_append, List.takeWhile_append_dropWhile] at hmotive
termination_by text.length

/-- The characters of a run are of its class. -/
theorem of_mem_runs (h : run ∈ runs p text) : ∀ c ∈ run, p c = true := by
  induction text using runInduction p with
  | nil => exact absurd h List.not_mem_nil
  | other c text hc ih =>
      rw [runs_cons_of_neg hc] at h
      exact ih h
  | run first text hne hrun htext ih =>
      rw [runs_append hne hrun htext] at h
      rcases List.mem_cons.1 h with rfl | h
      · exact hrun
      · exact ih h

/-- **A character of another class parts the runs** before it from those behind it. -/
theorem runs_append_cons (hc : p c = false) (text rest : List Char) :
    runs p (text ++ c :: rest) = runs p text ++ runs p rest := by
  induction text using runInduction p with
  | nil => exact runs_cons_of_neg hc rest
  | other d text hd ih =>
      rw [List.cons_append, runs_cons_of_neg hd, runs_cons_of_neg hd, ih]
  | run run text hne hrun htext ih =>
      have hbehind : ∀ d ∈ (text ++ c :: rest).head?, p d = false := by
        cases text with
        | nil => exact fun d hd => Option.some.inj hd ▸ hc
        | cons d text => exact htext
      rw [List.append_assoc, runs_append hne hrun hbehind, runs_append hne hrun htext, ih,
        List.cons_append]

/-- There is at most one run more than there are characters of another class, and none more if the
text starts with such a character. -/
theorem length_runs_le (p : Char → Bool) (text : List Char) :
    (runs p text).length ≤ text.countP (fun c => !p c) + 1 ∧
      ((∀ c ∈ text.head?, p c = false) → (runs p text).length ≤ text.countP fun c => !p c) := by
  induction text using runInduction p with
  | nil => simp
  | other c rest hc ih =>
      have hcount : (c :: rest).countP (fun c => !p c) = rest.countP (fun c => !p c) + 1 :=
        List.countP_cons_of_pos (by simp [hc])
      rw [runs_cons_of_neg hc, hcount]
      exact ⟨Nat.le_succ_of_le ih.1, fun _ => ih.1⟩
  | run run rest hne hrun hrest ih =>
      have hcount : (run ++ rest).countP (fun c => !p c) = rest.countP fun c => !p c := by
        rw [List.countP_append, List.countP_eq_zero.2 fun c hc => by simp [hrun c hc], Nat.zero_add]
      rw [runs_append hne hrun hrest, hcount, List.length_cons]
      refine ⟨Nat.succ_le_succ (ih.2 hrest), fun hhead => ?_⟩
      obtain ⟨c, run, rfl⟩ := List.exists_cons_of_ne_nil hne
      have hc := hhead c rfl
      rw [hrun c List.mem_cons_self] at hc
      cases hc

/-- A text is of the class altogether, or there is a last character in it that is not. -/
theorem forall_or_last (p : Char → Bool) (text : List Char) :
    (∀ c ∈ text, p c = true) ∨
      ∃ before c run, text = before ++ c :: run ∧ p c = false ∧ ∀ d ∈ run, p d = true := by
  induction text with
  | nil => exact .inl fun c hc => absurd hc List.not_mem_nil
  | cons c text ih =>
      rcases ih with h | ⟨before, d, run, rfl, hd, hrun⟩
      · cases hc : p c with
        | true => exact .inl (List.forall_mem_cons.2 ⟨hc, h⟩)
        | false => exact .inr ⟨[], c, text, rfl, hc, h⟩
      · exact .inr ⟨c :: before, d, run, rfl, hd, hrun⟩

/-! ### Words -/

variable {blank : Char}

/-- **A blank parts the words** before it from those behind it. -/
theorem words_append_cons (hblank : isBlank blank = true) (text rest : List Char) :
    words (text ++ blank :: rest) = words text ++ words rest :=
  runs_append_cons (by rw [hblank]; rfl) text rest

/-- The first word of a text that does not start with a blank. -/
theorem words_eq_cons (h : ∃ c ∈ text.head?, isBlank c = false) :
    words text = text.takeWhile (fun c => !isBlank c) ::
      words (text.dropWhile fun c => !isBlank c) := by
  obtain ⟨c, hhead, hc⟩ := h
  exact runs_eq_cons ⟨c, hhead, by rw [hc]; rfl⟩

/-- There is at most one word more than there are blanks, and none more if the text starts with a
blank. -/
theorem length_words_le (text : List Char) :
    (words text).length ≤ text.countP isBlank + 1 ∧
      ((∀ c ∈ text.head?, isBlank c = true) → (words text).length ≤ text.countP isBlank) := by
  have h := length_runs_le (fun c => !isBlank c) text
  simp only [Bool.not_not, Bool.not_eq_false'] at h
  exact h

/-- Blanks are no words. -/
theorem words_of_blank (h : ∀ c ∈ text, isBlank c = true) : words text = [] := by
  induction text with
  | nil => rfl
  | cons c text ih =>
      obtain ⟨hc, h⟩ := List.forall_mem_cons.1 h
      exact (words_append_cons hc [] text).trans (ih h)

theorem words_append_of_blank (text : List Char) (h : ∀ c ∈ rest, isBlank c = true) :
    words (text ++ rest) = words text := by
  cases rest with
  | nil => rw [List.append_nil]
  | cons c rest =>
      obtain ⟨hc, h⟩ := List.forall_mem_cons.1 h
      rw [words_append_cons hc, words_of_blank h, List.append_nil]

theorem words_append_of_blank_left (h : ∀ c ∈ text, isBlank c = true) (rest : List Char) :
    words (text ++ rest) = words rest := by
  induction text with
  | nil => rfl
  | cons c text ih =>
      obtain ⟨hc, h⟩ := List.forall_mem_cons.1 h
      exact (words_append_cons hc [] (text ++ rest)).trans (ih h)

/-- Trimming takes no words away. -/
theorem words_trim (text : List Char) : words (trim text) = words text := by
  obtain ⟨before, behind, hbefore, hbehind, htext⟩ := append_trim_append text
  calc words (trim text)
      = words (before ++ trim text ++ behind) := by
        rw [words_append_of_blank _ hbehind, words_append_of_blank_left hbefore]
    _ = words text := by rw [← htext]

end Gamebook.Text
