/-
**Programs of block macros.**

A passage can hold a small program: words to be shown, assignments, conditions with one or two
branches, and parts that are run without being shown.  This module says what such a program is, how
it is written down and what it means, without any mention of marks, scanners or pages: it is run
item by item in the variables of one point of a reading.

Main definitions:

* `Program` — words, assignments, conditions and silent parts, one behind the other;
* `Program.source` — a program as it is written in a passage;
* `Program.run` — **what a program means**: what it gives out, and the variables it leaves;
* `Program.depth`, `Program.WellFormed` — how deep its blocks lie inside one another, and what may
  stand in its words and arguments;
* `Output.shown` — the nodes that show what a program gives out.

Main results:

* `Output.showAfter_append` — outputs are shown one behind the other;
* `Program.Tight.trim_eq` — nothing is lost where a text without blanks at its ends is trimmed.
-/

import Gamebook.Expr.Eval
import Gamebook.Macro.Error
import Gamebook.Render.Scanner
import Gamebook.Text.Word

set_option relaxedAutoImplicit false
set_option autoImplicit false

namespace Gamebook

/-! ### Output -/

/-- What a program gives out. -/
inductive Output where
  | text (letters : List Char)
  | error (e : MacroError)

namespace Output

/-- Shows output behind the nodes so far, the latest first. -/
def showAfter : List Node → List Output → List Node
  | nodes, [] => nodes
  | nodes, .text letters :: output => showAfter (Node.addText letters nodes) output
  | nodes, .error e :: output => showAfter (Node.error e.message :: nodes) output

/-- The nodes that show output: texts that touch are one text, and an error is a node of its
own. -/
def shown (output : List Output) : List Node := (showAfter [] output).reverse

theorem showAfter_append (nodes : List Node) (output more : List Output) :
    showAfter nodes (output ++ more) = showAfter (showAfter nodes output) more := by
  induction output generalizing nodes with
  | nil => rfl
  | cons item output ih =>
      cases item with
      | text letters => exact ih _
      | error e => exact ih _

end Output

/-! ### Programs -/

/-- A program: each item is followed by the rest of the program. -/
inductive Program where
  | done
  | word (letters : List Char) (next : Program)
  | set (statement : List Char) (next : Program)
  /-- What is run only if a condition holds. -/
  | guarded (condition : List Char) (body next : Program)
  /-- What is run if a condition holds, and what is run if it does not. -/
  | choose (condition : List Char) (body alternate next : Program)
  | silently (body next : Program)

namespace Program

/-! ### Writing -/

/-- A macro call with an argument. -/
def call (name argument : List Char) : List Char :=
  '<' :: '<' :: (name ++ ' ' :: (argument ++ ['>', '>']))

/-- A macro call without an argument. -/
def mark (name : List Char) : List Char := '<' :: '<' :: (name ++ ['>', '>'])

/-- The program as it is written in a passage. -/
def source : Program → List Char
  | done => []
  | word letters next => letters ++ next.source
  | set statement next => call ['s', 'e', 't'] statement ++ next.source
  | guarded condition body next =>
      call ['i', 'f'] condition ++ (body.source ++ (mark ['e', 'n', 'd', 'i', 'f'] ++ next.source))
  | choose condition body alternate next =>
      call ['i', 'f'] condition ++ (body.source ++ (mark ['e', 'l', 's', 'e'] ++
        (alternate.source ++ (mark ['e', 'n', 'd', 'i', 'f'] ++ next.source))))
  | silently body next =>
      mark ['s', 'i', 'l', 'e', 'n', 't', 'l', 'y'] ++ (body.source ++
        (mark ['e', 'n', 'd', 's', 'i', 'l', 'e', 'n', 't', 'l', 'y'] ++ next.source))

/-! ### Running -/

/-- What running yields: output, and the variables afterwards. -/
abbrev Outcome : Type := List Output × Variables

/-- Goes on with the variables that an outcome leaves. -/
def Outcome.andThen (first : Outcome) (next : Variables → Outcome) : Outcome :=
  (first.1 ++ (next first.2).1, (next first.2).2)

/-- The argument of a call: the blanks behind the name are no part of it. -/
def argument (written : List Char) : List Char := written.dropWhile Text.isBlank

/-- Runs an assignment. -/
def assign (statement : List Char) (vars : Variables) : Outcome :=
  match Expr.evaluateChars (argument statement) vars with
  | .ok (_, vars) => ([], vars)
  | .error e => ([.error (.badExpression e)], vars)

/-- Evaluates a condition once, and runs one of two branches in the variables that this leaves. -/
def branch (condition : List Char) (body alternate : Variables → Outcome) (vars : Variables) :
    Outcome :=
  match Expr.evaluateChars (argument condition) vars with
  | .ok (v, vars) => if v.isTruthy then body vars else alternate vars
  | .error e => ([.error (.badCondition e)], vars)

/-- Runs a program, item by item. -/
def run : Program → Variables → Outcome
  | done, vars => ([], vars)
  | word letters next, vars => Outcome.andThen ([.text letters], vars) fun vars => next.run vars
  | set statement next, vars => (assign statement vars).andThen fun vars => next.run vars
  | guarded condition body next, vars =>
      (branch condition (fun vars => body.run vars) (fun vars => ([], vars)) vars).andThen
        fun vars => next.run vars
  | choose condition body alternate next, vars =>
      (branch condition (fun vars => body.run vars) (fun vars => alternate.run vars) vars).andThen
        fun vars => next.run vars
  | silently body next, vars =>
      -- nothing is given out, but what is done remains done
      Outcome.andThen ([], (body.run vars).2) fun vars => next.run vars

/-- How many blocks of the program lie inside one another. -/
def depth : Program → Nat
  | done => 0
  | word _ next => next.depth
  | set _ next => next.depth
  | guarded _ body next => max (body.depth + 1) next.depth
  | choose _ body alternate next => max (max (body.depth + 1) (alternate.depth + 1)) next.depth
  | silently body next => max (body.depth + 1) next.depth

/-! ### What may stand in a program -/

/-- A letter: a word character that is no digit and no underscore. -/
def isLetter (c : Char) : Bool := Text.isWord c && !c.isDigit && c != '_'

/-- An argument holds no angle brackets. -/
def IsArgument (text : List Char) : Prop := '<' ∉ text ∧ '>' ∉ text

/-- Words are made of letters, and arguments hold no angle brackets. -/
def WellFormed : Program → Prop
  | done => True
  | word letters next => letters.all isLetter = true ∧ next.WellFormed
  | set statement next => IsArgument statement ∧ next.WellFormed
  | guarded condition body next => IsArgument condition ∧ body.WellFormed ∧ next.WellFormed
  | choose condition body alternate next =>
      IsArgument condition ∧ body.WellFormed ∧ alternate.WellFormed ∧ next.WellFormed
  | silently body next => body.WellFormed ∧ next.WellFormed

instance (text : List Char) : Decidable (IsArgument text) :=
  inferInstanceAs (Decidable (_ ∧ _))

/-- Whether a program is well formed can be looked up. -/
instance decidableWellFormed : (p : Program) → Decidable p.WellFormed
  | done => isTrue trivial
  | word _ next =>
      have := decidableWellFormed next
      inferInstanceAs (Decidable (_ ∧ _))
  | set _ next =>
      have := decidableWellFormed next
      inferInstanceAs (Decidable (_ ∧ _))
  | guarded _ body next =>
      have := decidableWellFormed body
      have := decidableWellFormed next
      inferInstanceAs (Decidable (_ ∧ _ ∧ _))
  | choose _ body alternate next =>
      have := decidableWellFormed body
      have := decidableWellFormed alternate
      have := decidableWellFormed next
      inferInstanceAs (Decidable (_ ∧ _ ∧ _ ∧ _))
  | silently body next =>
      have := decidableWellFormed body
      have := decidableWellFormed next
      inferInstanceAs (Decidable (_ ∧ _))

/-- No letter is a mark of the markup. -/
theorem ne_of_isLetter {c m : Char} (hc : isLetter c = true) (hm : isLetter m = false) :
    c ≠ m := by
  rintro rfl
  rw [hc] at hm
  cases hm

theorem not_isBlank_of_isLetter {c : Char} (hc : isLetter c = true) : Text.isBlank c = false := by
  -- no blank is a word character, which is looked up for each of them
  have hblank : ∀ n ∈ Text.blankCodes, Text.isWord (Char.ofNat n) = false := by decide +kernel
  rw [Bool.eq_false_iff]
  intro hb
  have hin : c.toNat ∈ Text.blankCodes := by simpa [Text.isBlank] using hb
  have hword := hblank c.toNat hin
  rw [Char.ofNat_toNat] at hword
  simp [isLetter, hword] at hc

/-! ### The ends of a text -/

/-- A text neither starts nor ends with a blank. -/
structure Tight (text : List Char) : Prop where
  head : ∀ c, text.head? = some c → Text.isBlank c = false
  last : ∀ c, text.getLast? = some c → Text.isBlank c = false

namespace Tight

theorem nil : Tight [] := ⟨fun _ h => absurd h (by simp), fun _ h => absurd h (by simp)⟩

theorem append {left right : List Char} (hl : Tight left) (hr : Tight right) :
    Tight (left ++ right) := by
  refine ⟨fun c hc => ?_, fun c hc => ?_⟩
  · rw [List.head?_append, Option.or_eq_some_iff] at hc
    rcases hc with hc | ⟨-, hc⟩
    · exact hl.head c hc
    · exact hr.head c hc
  · rw [List.getLast?_append, Option.or_eq_some_iff] at hc
    rcases hc with hc | ⟨-, hc⟩
    · exact hr.last c hc
    · exact hl.last c hc

theorem of_forall {text : List Char} (h : ∀ c ∈ text, Text.isBlank c = false) : Tight text :=
  ⟨fun c hc => h c (List.mem_of_head? hc), fun c hc => h c (List.mem_of_getLast? hc)⟩

/-- What stands between brackets may hold blanks. -/
theorem enclose_brackets (text : List Char) : Tight ('<' :: (text ++ ['>'])) := by
  refine ⟨fun c h => ?_, fun c h => ?_⟩
  · cases h
    decide
  · rw [← List.cons_append, List.getLast?_concat] at h
    cases h
    decide

theorem trim_eq {text : List Char} (h : Tight text) : Text.trim text = text := by
  have hleft : text.dropWhile Text.isBlank = text := by
    cases text with
    | nil => rfl
    | cons c rest => exact List.dropWhile_cons_of_neg (by simp [h.head c rfl])
  have hright : text.reverse.dropWhile Text.isBlank = text.reverse := by
    cases hrev : text.reverse with
    | nil => rfl
    | cons c rest =>
        have hlast : text.getLast? = some c := by
          rw [List.getLast?_eq_head?_reverse, hrev]
          rfl
        exact List.dropWhile_cons_of_neg (by simp [h.last c hlast])
  rw [Text.trim, hleft, Text.trimRight, hright, List.reverse_reverse]

end Tight

end Program

end Gamebook
