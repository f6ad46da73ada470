/-
**Programs with blanks in their calls.**

Blanks behind the name of a macro are no part of its argument, so a program can be written with any
of them.  The search for the end of a block is more particular: it looks for calls as they are
usually written.  A program is passed by it if its calls are written so wherever the search comes
by: the calls that divide and close a block everywhere, and those that open one inside another of
its kind.

Main definitions:

* `Blanks`, `Gap` — blanks behind the name of a macro, and before an argument;
* `Spaced`, `Spaced.source` — a program with the blanks of its calls, and how it is written;
* `Spaced.program`, `Program.spaced` — without its blanks, and with the usual ones;
* `Spaced.UsualConditions`, `Spaced.UsualSilence` — calls are written as usual where that matters.

Main results:

* `Spaced.trim_source` — a written program has no blanks at its ends;
* `Spaced.passed_conditional`, `Spaced.passed_silent` — **a program inside a block is passed** if its
  calls are written as usual.
-/

import Gamebook.Proofs.Macro.Blocks

set_option relaxedAutoImplicit false
set_option autoImplicit false

namespace Gamebook

open Block

/-! ### Blanks -/

/-- Blanks behind the name of a macro. -/
structure Blanks where
  text : List Char
  isBlank : text.all Text.isBlank = true := by decide

/-- Blanks between the name of a macro and its argument. -/
structure Gap extends Blanks where
  ne_nil : text ≠ [] := by decide

/-- The blanks that usually stand behind a name without an argument. -/
def Blanks.none : Blanks := { text := [] }

/-- The blank that usually stands before an argument. -/
def Gap.space : Gap := { text := [' '] }

namespace Blanks

variable {d : Delimiters} {name argument : List Char}

/-- A macro call with blanks behind its name. -/
def call (blanks : Blanks) (name argument : List Char) : List Char :=
  '<' :: '<' :: (name ++ (blanks.text ++ (argument ++ ['>', '>'])))

theorem notMem (blanks : Blanks) {c : Char} (hc : Text.isBlank c = false) : c ∉ blanks.text := by
  intro hin
  rw [List.all_eq_true.1 blanks.isBlank c hin] at hc
  cases hc

theorem tight_call (blanks : Blanks) (name argument : List Char) :
    Program.Tight (blanks.call name argument) := by
  have h := Program.Tight.enclose_brackets
    ('<' :: (name ++ (blanks.text ++ (argument ++ ['>']))))
  simpa [call] using h

/-- A call that is no delimiter is passed, whatever its blanks. -/
theorem passed_call (blanks : Blanks) (hd : d.Distinct '<') (h : Foreign d name)
    (ha : '<' ∉ argument) : Passed d 0 (blanks.call name argument) := by
  refine h.passed hd ?_
  simp [blanks.notMem (c := '<') (by decide), ha]

end Blanks

/-! ### Programs with blanks -/

/-- A program with the blanks of its calls.  Each item is followed by the rest of the program. -/
inductive Spaced where
  | done
  | word (letters : List Char) (next : Spaced)
  | set (statement : List Char) (next : Spaced)
  /-- What is run only if a condition holds. -/
  | guarded (gap : Gap) (condition : List Char) (body : Spaced) (close : Blanks) (next : Spaced)
  /-- What is run if a condition holds, and what is run if it does not. -/
  | choose (gap : Gap) (condition : List Char) (body : Spaced) (divide : Blanks)
      (alternate : Spaced) (close : Blanks) (next : Spaced)
  | silently (blanks : Blanks) (body : Spaced) (close : Blanks) (next : Spaced)

/-- The program with the usual blanks in its calls. -/
def Program.spaced : Program → Spaced
  | done => .done
  | word letters next => .word letters next.spaced
  | set statement next => .set statement next.spaced
  | guarded condition body next => .guarded .space condition body.spaced .none next.spaced
  | choose condition body alternate next =>
      .choose .space condition body.spaced .none alternate.spaced .none next.spaced
  | silently body next => .silently .none body.spaced .none next.spaced

namespace Spaced

/-- The program without the blanks of its calls. -/
def program : Spaced → Program
  | done => .done
  | word letters next => .word letters next.program
  | set statement next => .set statement next.program
  | guarded _ condition body _ next => .guarded condition body.program next.program
  | choose _ condition body _ alternate _ next =>
      .choose condition body.program alternate.program next.program
  | silently _ body _ next => .silently body.program next.program

/-- The program as it is written in a passage. -/
def source : Spaced → List Char
  | done => []
  | word letters next => letters ++ next.source
  | set statement next => Gap.space.call ['s', 'e', 't'] statement ++ next.source
  | guarded gap condition body close next =>
      gap.call ['i', 'f'] condition ++ (body.source ++
        (close.call ['e', 'n', 'd', 'i', 'f'] [] ++ next.source))
  | choose gap condition body divide alternate close next =>
      gap.call ['i', 'f'] condition ++ (body.source ++ (divide.call ['e', 'l', 's', 'e'] [] ++
        (alternate.source ++ (close.call ['e', 'n', 'd', 'i', 'f'] [] ++ next.source))))
  | silently blanks body close next =>
      blanks.call ['s', 'i', 'l', 'e', 'n', 't', 'l', 'y'] [] ++ (body.source ++
        (close.call ['e', 'n', 'd', 's', 'i', 'l', 'e', 'n', 't', 'l', 'y'] [] ++ next.source))

/-- The calls of conditions are written as usual where the search for the end of a condition comes
by.  `inside` tells whether the program lies in a condition. -/
def UsualConditions (inside : Bool) : Spaced → Prop
  | done => True
  | word _ next => next.UsualConditions inside
  | set _ next => next.UsualConditions inside
  | guarded gap _ body close next =>
      (inside = true → gap.text.head? = some ' ') ∧ close.text = [] ∧
        body.UsualConditions true ∧ next.UsualConditions inside
  | choose gap _ body divide alternate close next =>
      (inside = true → gap.text.head? = some ' ') ∧ divide.text = [] ∧ close.text = [] ∧
        body.UsualConditions true ∧ alternate.UsualConditions true ∧ next.UsualConditions inside
  | silently _ body _ next => body.UsualConditions inside ∧ next.UsualConditions inside

/-- The calls of silent parts are written as usual where the search for the end of a silent part
comes by.  `inside` tells whether the program lies in a silent part. -/
def UsualSilence (inside : Bool) : Spaced → Prop
  | done => True
  | word _ next => next.UsualSilence inside
  | set _ next => next.UsualSilence inside
  | guarded _ _ body _ next => body.UsualSilence inside ∧ next.UsualSilence inside
  | choose _ _ body _ alternate _ next =>
      body.UsualSilence inside ∧ alternate.UsualSilence inside ∧ next.UsualSilence inside
  | silently blanks body close next =>
      (inside = true → blanks.text = []) ∧ close.text = [] ∧ body.UsualSilence true ∧
        next.UsualSilence inside

variable {q : Spaced} {inside : Bool}

/-! ### The usual blanks -/

theorem source_spaced (p : Program) : p.spaced.source = p.source := by
  induction p with
  | done => rfl
  | word letters next ih => rw [Program.spaced, source, ih, Program.source]
  | set statement next ih =>
      rw [Program.spaced, source, ih, Program.source]
      rfl
  | guarded condition body next ihb ihn =>
      rw [Program.spaced, source, ihb, ihn, Program.source]
      rfl
  | choose condition body alternate next ihb iha ihn =>
      rw [Program.spaced, source, ihb, iha, ihn, Program.source]
      rfl
  | silently body next ihb ihn =>
      rw [Program.spaced, source, ihb, ihn, Program.source]
      rfl

theorem program_spaced (p : Program) : p.spaced.program = p := by
  induction p with
  | done => rfl
  | word letters next ih => rw [Program.spaced, program, ih]
  | set statement next ih => rw [Program.spaced, program, ih]
  | guarded condition body next ihb ihn => rw [Program.spaced, program, ihb, ihn]
  | choose condition body alternate next ihb iha ihn => rw [Program.spaced, program, ihb, iha, ihn]
  | silently body next ihb ihn => rw [Program.spaced, program, ihb, ihn]

theorem usual_spaced (p : Program) (inside : Bool) :
    p.spaced.UsualConditions inside ∧ p.spaced.UsualSilence inside := by
  induction p generalizing inside with
  | done => exact ⟨trivial, trivial⟩
  | word letters next ih => exact ih inside
  | set statement next ih => exact ih inside
  | guarded condition body next ihb ihn =>
      exact ⟨⟨fun _ => rfl, rfl, (ihb true).1, (ihn inside).1⟩, (ihb inside).2, (ihn inside).2⟩
  | choose condition body alternate next ihb iha ihn =>
      exact ⟨⟨fun _ => rfl, rfl, rfl, (ihb true).1, (iha true).1, (ihn inside).1⟩,
        (ihb inside).2, (iha inside).2, (ihn inside).2⟩
  | silently body next ihb ihn =>
      exact ⟨⟨(ihb inside).1, (ihn inside).1⟩, fun _ => rfl, rfl, (ihb true).2, (ihn inside).2⟩

/-- What is usual inside a condition is so outside, too. -/
theorem UsualConditions.outside (h : q.UsualConditions inside) : q.UsualConditions false := by
  induction q generalizing inside with
  | done => trivial
  | word letters next ih => exact ih h
  | set statement next ih => exact ih h
  | guarded gap condition body close next ihb ihn =>
      exact ⟨fun hfalse => (nomatch hfalse), h.2.1, h.2.2.1, ihn h.2.2.2⟩
  | choose gap condition body divide alternate close next ihb iha ihn =>
      obtain ⟨-, hdivide, hclose, hbody, halternate, hnext⟩ := h
      exact ⟨fun hfalse => (nomatch hfalse), hdivide, hclose, hbody, halternate, ihn hnext⟩
  | silently blanks body close next ihb ihn => exact ⟨ihb h.1, ihn h.2⟩

/-- What is usual inside a silent part is so outside, too. -/
theorem UsualSilence.outside (h : q.UsualSilence inside) : q.UsualSilence false := by
  induction q generalizing inside with
  | done => trivial
  | word letters next ih => exact ih h
  | set statement next ih => exact ih h
  | guarded gap condition body close next ihb ihn => exact ⟨ihb h.1, ihn h.2⟩
  | choose gap condition body divide alternate close next ihb iha ihn =>
      exact ⟨ihb h.1, iha h.2.1, ihn h.2.2⟩
  | silently blanks body close next ihb ihn =>
      exact ⟨fun hfalse => (nomatch hfalse), h.2.1, h.2.2.1, ihn h.2.2.2⟩

/-! ### The ends and the beginning of a written program -/

theorem tight_source (hq : q.program.WellFormed) : Program.Tight q.source := by
  induction q with
  | done => exact .nil
  | word letters next ih =>
      obtain ⟨hletters, hnext⟩ := hq
      have hletter := List.all_eq_true.1 hletters
      exact (Program.Tight.of_forall fun c hc =>
        Program.not_isBlank_of_isLetter (hletter c hc)).append (ih hnext)
  | set statement next ih => exact (Blanks.tight_call _ _ _).append (ih hq.2)
  | guarded gap condition body close next ihb ihn =>
      obtain ⟨-, hbody, hnext⟩ := hq
      exact (Blanks.tight_call _ _ _).append
        ((ihb hbody).append ((Blanks.tight_call _ _ _).append (ihn hnext)))
  | choose gap condition body divide alternate close next ihb iha ihn =>
      obtain ⟨-, hbody, halternate, hnext⟩ := hq
      exact (Blanks.tight_call _ _ _).append ((ihb hbody).append ((Blanks.tight_call _ _ _).append
        ((iha halternate).append ((Blanks.tight_call _ _ _).append (ihn hnext)))))
  | silently blanks body close next ihb ihn =>
      exact (Blanks.tight_call _ _ _).append
        ((ihb hq.1).append ((Blanks.tight_call _ _ _).append (ihn hq.2)))

/-- **A written program has no blanks at its ends**, so nothing is lost where a branch is
trimmed. -/
theorem trim_source (hq : q.program.WellFormed) : Text.trim q.source = q.source :=
  (tight_source hq).trim_eq

/-- In a written program no colon stands before the first call. -/
theorem colon_notMem (hq : q.program.WellFormed) : ':' ∉ q.source.takeWhile (· != '<') := by
  have hcall : ∀ text, ':' ∉ ('<' :: text).takeWhile (· != '<') := by
    intro text
    rw [List.takeWhile_cons_of_neg (by decide)]
    exact List.not_mem_nil
  induction q with
  | done => exact List.not_mem_nil
  | word letters next ih =>
      obtain ⟨hletters, hnext⟩ := hq
      have hletter := List.all_eq_true.1 hletters
      have hplain : ∀ c ∈ letters, (c != '<') = true :=
        fun c hc => bne_iff_ne.2 (Program.ne_of_isLetter (hletter c hc) (by decide))
      rw [source, List.takeWhile_append_of_pos hplain, List.mem_append, not_or]
      exact ⟨fun hin => Program.ne_of_isLetter (hletter _ hin) (m := ':') (by decide) rfl, ih hnext⟩
  | set statement next => exact hcall _
  | guarded gap condition body close next => exact hcall _
  | choose gap condition body divide alternate close next => exact hcall _
  | silently blanks body close next => exact hcall _

/-! ### Programs that are passed -/

theorem passed_word {d : Delimiters} (hd : d.Distinct '<') {letters : List Char}
    (h : letters.all Program.isLetter = true) : Passed d 0 letters :=
  hd.passed_of_notMem fun hin =>
    Program.ne_of_isLetter (List.all_eq_true.1 h _ hin) (by decide) rfl

/-- An inner divider is passed: it counts for its own block only. -/
theorem passed_else : Passed conditional 1 (Program.mark ['e', 'l', 's', 'e']) :=
  fun _ _ _ _ hdepth => conditional_distinct.seek_divider_passed rfl (fun h => by omega) _ _

/-- A call without blanks behind its name. -/
theorem call_eq {blanks : Blanks} (h : blanks.text = []) (name : List Char) :
    blanks.call name [] = Program.mark name := by
  rw [Blanks.call, h]
  rfl

/-- A condition with a space in front of its argument starts with the call that is looked for. -/
theorem call_if {gap : Gap} (h : gap.text.head? = some ' ') (condition : List Char) :
    gap.call ['i', 'f'] condition =
      conditional.opening ++ (gap.text.tail ++ (condition ++ ['>', '>'])) := by
  obtain ⟨more, hmore⟩ := List.head?_eq_some_iff.1 h
  rw [Blanks.call, hmore]
  rfl

/-- What stands behind the opening call of a condition holds no brackets that open. -/
theorem notMem_condition (gap : Gap) {condition : List Char}
    (hcondition : Program.IsArgument condition) :
    '<' ∉ gap.text.tail ++ (condition ++ ['>', '>']) := by
  simp only [List.mem_append, not_or]
  exact ⟨fun hin => gap.notMem (c := '<') (by decide) (List.mem_of_mem_tail hin), hcondition.1,
    by decide⟩

theorem passed_condition (gap : Gap) {condition : List Char}
    (hcondition : Program.IsArgument condition) :
    Passed conditional 0 (gap.text.tail ++ (condition ++ ['>', '>'])) :=
  conditional_distinct.passed_of_notMem (notMem_condition gap hcondition)

/-- **A program in a condition is passed** by the search for its end, if its calls are written as
usual. -/
theorem passed_conditional (hq : q.program.WellFormed) (husual : q.UsualConditions true) :
    Passed conditional 0 q.source := by
  induction q with
  | done => exact .nil
  | word letters next ih => exact (passed_word conditional_distinct hq.1).append (ih hq.2 husual)
  | set statement next ih =>
      have hset := Gap.space.passed_call conditional_distinct (foreign_conditional (.inl rfl)) hq.1.1
      exact hset.append (ih hq.2 husual)
  | guarded gap condition body close next ihb ihn =>
      obtain ⟨hcondition, hbody, hnext⟩ := hq
      obtain ⟨hgap, hclose, hbody', hnext'⟩ := husual
      have hinside := (passed_condition gap hcondition).append (ihb hbody hbody')
      have hblock := Passed.enclose conditional_distinct (hinside.of_le (Nat.zero_le 1))
      have h := hblock.append (ihn hnext hnext')
      have hclosing : close.call ['e', 'n', 'd', 'i', 'f'] [] = conditional.closing := call_eq hclose _
      rw [source, call_if (hgap rfl), hclosing]
      simpa only [List.append_assoc] using h
  | choose gap condition body divide alternate close next ihb iha ihn =>
      obtain ⟨hcondition, hbody, halternate, hnext⟩ := hq
      obtain ⟨hgap, hdivide, hclose, hbody', halternate', hnext'⟩ := husual
      have hfirst := (passed_condition gap hcondition).append (ihb hbody hbody')
      have hinside := (hfirst.of_le (Nat.zero_le 1)).append
        (passed_else.append ((iha halternate halternate').of_le (Nat.zero_le 1)))
      have h := (Passed.enclose conditional_distinct hinside).append (ihn hnext hnext')
      have hclosing : close.call ['e', 'n', 'd', 'i', 'f'] [] = conditional.closing := call_eq hclose _
      rw [source, call_if (hgap rfl), call_eq hdivide, hclosing]
      simpa only [List.append_assoc] using h
  | silently blanks body close next ihb ihn =>
      have hopening := blanks.passed_call conditional_distinct
        (foreign_conditional (.inr (.inl rfl))) List.not_mem_nil
      have hclosing := close.passed_call conditional_distinct
        (foreign_conditional (.inr (.inr rfl))) List.not_mem_nil
      exact hopening.append ((ihb hq.1 husual.1).append (hclosing.append (ihn hq.2 husual.2)))

/-- **A program in a silent part is passed** by the search for its end, if its calls are written as
usual. -/
theorem passed_silent (hq : q.program.WellFormed) (husual : q.UsualSilence true) :
    Passed silent 0 q.source := by
  have hif : ∀ (gap : Gap) {condition : List Char}, Program.IsArgument condition →
      Passed silent 0 (gap.call ['i', 'f'] condition) := fun gap {_} h =>
    gap.passed_call silent_distinct (foreign_silent (.inr (.inl rfl))) h.1
  have helse : ∀ divide : Blanks, Passed silent 0 (divide.call ['e', 'l', 's', 'e'] []) :=
    fun divide => divide.passed_call silent_distinct (foreign_silent (.inr (.inr (.inl rfl))))
      List.not_mem_nil
  have hendif : ∀ close : Blanks, Passed silent 0 (close.call ['e', 'n', 'd', 'i', 'f'] []) :=
    fun close => close.passed_call silent_distinct (foreign_silent (.inr (.inr (.inr rfl))))
      List.not_mem_nil
  induction q with
  | done => exact .nil
  | word letters next ih => exact (passed_word silent_distinct hq.1).append (ih hq.2 husual)
  | set statement next ih =>
      have hset := Gap.space.passed_call silent_distinct (foreign_silent (.inl rfl)) hq.1.1
      exact hset.append (ih hq.2 husual)
  | guarded gap condition body close next ihb ihn =>
      obtain ⟨hcondition, hbody, hnext⟩ := hq
      exact (hif gap hcondition).append ((ihb hbody husual.1).append
        ((hendif close).append (ihn hnext husual.2)))
  | choose gap condition body divide alternate close next ihb iha ihn =>
      obtain ⟨hcondition, hbody, halternate, hnext⟩ := hq
      exact (hif gap hcondition).append ((ihb hbody husual.1).append ((helse divide).append
        ((iha halternate husual.2.1).append ((hendif close).append (ihn hnext husual.2.2)))))
  | silently blanks body close next ihb ihn =>
      obtain ⟨hblanks, hclose, hbody, hnext⟩ := husual
      have hblock := Passed.enclose silent_distinct ((ihb hq.1 hbody).of_le (Nat.zero_le 1))
      have h := hblock.append (ihn hq.2 hnext)
      have hopening : blanks.call ['s', 'i', 'l', 'e', 'n', 't', 'l', 'y'] [] = silent.opening :=
        call_eq (hblanks rfl) _
      have hclosing : close.call ['e', 'n', 'd', 's', 'i', 'l', 'e', 'n', 't', 'l', 'y'] [] =
          silent.closing := call_eq hclose _
      rw [source, hopening, hclosing]
      simpa only [List.append_assoc] using h

end Spaced

end Gamebook
