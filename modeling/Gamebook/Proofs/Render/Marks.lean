/-
**The marks that stand at a point.**

A scan looks for the mark of every formatter at every character.  Most of them are told to be absent
by that character alone: the marks of each formatter start with a few characters, and with no other.
What is left at a character is a short list of suspects.

Main definitions:

* `Pattern.Absent`, `Pattern.StartsIn` — a mark does not stand at the beginning of a text, and it
  starts with certain characters only;
* `Standard.firsts` — the characters that the marks of each formatter start with;
* `Standard.suspects` — the formatters whose marks may stand at a character.

Main results:

* `Formatters.absent_of_suspects` — **no mark stands where none of the suspects does**;
* `Formatters.absent_plain` — at a character that no mark starts with, none stands;
* `Formatters.hit?_of_absent`, `Formatters.hit?_of_first` — no mark, and the first one, at a point.
-/

import Gamebook.Proofs.Macro.Program
import Gamebook.Proofs.Render.Advance
import Gamebook.Render.Standard

set_option relaxedAutoImplicit false
set_option autoImplicit false

namespace Gamebook

/-! ### Marks that are not there -/

/-- A mark does not stand at the beginning of a text. -/
def Pattern.Absent (p : Pattern) (text : List Char) : Prop := ∀ previous, p previous text = none

/-- A mark starts with one of these characters. -/
def Pattern.StartsIn (p : Pattern) (firsts : List Char) : Prop :=
  ∀ c ∉ firsts, ∀ text, p.Absent (c :: text)

namespace Pattern

variable {p q : Pattern} {mark text firsts : List Char}

theorem Absent.onLine (h : p.Absent text) : (onLine p).Absent text := by
  intro previous
  rw [Pattern.onLine, h previous, ite_self]

theorem Absent.orElse (hp : p.Absent text) (hq : q.Absent text) : (orElse p q).Absent text := by
  intro previous
  rw [Pattern.orElse, hp previous]
  exact hq previous

theorem absent_literal (h : mark.isPrefixOf text = false) : (literal mark).Absent text := by
  intro previous
  rw [literal, h, if_neg Bool.false_ne_true]

/-- A fixed mark is not there if one of its characters is nowhere in the text. -/
theorem isPrefixOf_of_notMem {c : Char} (hc : c ∈ mark) (h : c ∉ text) :
    mark.isPrefixOf text = false := by
  rw [Bool.eq_false_iff]
  intro hbegins
  exact h ((List.isPrefixOf_iff_prefix.1 hbegins).subset hc)

/-- A fixed mark is not there if its first character is not. -/
theorem isPrefixOf_of_ne {m c : Char} (h : m ≠ c) (mark text : List Char) :
    (m :: mark).isPrefixOf (c :: text) = false := by
  simp [List.isPrefixOf, h]

theorem StartsIn.onLine (h : p.StartsIn firsts) : (onLine p).StartsIn firsts :=
  fun c hc text => (h c hc text).onLine

theorem startsIn_literal (m : Char) (mark : List Char) : (literal (m :: mark)).StartsIn [m] :=
  fun _ hc text => absent_literal
    (isPrefixOf_of_ne (fun heq => hc (List.mem_singleton.2 heq.symm)) mark text)

theorem startsIn_endingLine (m : Char) (mark : List Char) :
    (endingLine (m :: mark)).StartsIn [m] := by
  intro c hc text previous
  have hne : m ≠ c := fun heq => hc (List.mem_singleton.2 heq.symm)
  simp [endingLine, isPrefixOf_of_ne hne]

theorem startsIn_run (m : Char) : (run (· == m)).StartsIn [m] := by
  intro c hc text previous
  rw [run, List.takeWhile_cons_of_neg (by simpa using hc)]
  rfl

/-- No letter is the small form of an angle bracket. -/
theorem toLower_ne_bracket {c : Char} (hc : c ≠ '<') : c.toLower ≠ '<' := by
  intro heq
  by_cases hcapital : c.val ≥ 'A'.val ∧ c.val ≤ 'Z'.val
  · have hval : c.toLower.val.toNat = (c.val.toNat + 32) % 2 ^ 32 :=
      congrArg (fun c : Char => c.val.toNat) (dif_pos hcapital)
    have hrange : 65 ≤ c.val.toNat ∧ c.val.toNat ≤ 90 := hcapital
    have hbracket : '<'.val.toNat = 60 := rfl
    rw [heq, hbracket] at hval
    omega
  · exact hc ((dif_neg hcapital).symm.trans heq)

theorem startsIn_anyCase (mark : List Char) : (anyCase ('<' :: mark)).StartsIn ['<'] := by
  intro c hc text previous
  have hlower : c.toLower ≠ '<' :=
    toLower_ne_bracket fun heq => hc (List.mem_singleton.2 heq)
  simp [anyCase, startsWithLetters, hlower]

end Pattern

namespace Mark

open Pattern

theorem startsIn_row : row.StartsIn ['|'] := by
  refine StartsIn.onLine fun c hc text previous => ?_
  cases hkind : rowKind? (line (c :: text)) with
  | none => rfl
  | some kind =>
      obtain ⟨rest, hline, -⟩ := Table.exists_of_rowKind? hkind
      rw [line, List.takeWhile_cons] at hline
      split at hline
      · cases hline
        exact absurd (List.mem_singleton_self _) hc
      · cases hline

theorem startsIn_heading : heading.StartsIn ['!'] := by
  refine StartsIn.onLine fun c hc text previous => ?_
  rw [List.takeWhile_cons_of_neg (by simpa using hc)]
  rfl

theorem startsIn_listItem : listItem.StartsIn ['*', '#'] := by
  intro c hc text
  obtain ⟨hbullet, hnumber⟩ : c ≠ '*' ∧ c ≠ '#' := by simpa using hc
  exact Absent.orElse
    ((startsIn_run '*').onLine c (fun hin => hbullet (List.mem_singleton.1 hin)) text)
    ((startsIn_run '#').onLine c (fun hin => hnumber (List.mem_singleton.1 hin)) text)

theorem startsIn_image : image.StartsIn ['['] := by
  intro c hc text previous
  unfold image
  split
  · rename_i heq
    cases heq
    exact absurd (List.mem_singleton_self _) hc
  · rfl

theorem startsIn_address : address.StartsIn ['h', 'm', 'f'] := by
  intro c hc text previous
  have hnone : (schemes.find? fun scheme => scheme.isPrefixOf (c :: text)) = none := by
    refine List.find?_eq_none.2 fun scheme hscheme hp => hc ?_
    obtain ⟨rest, hrest⟩ := List.isPrefixOf_iff_prefix.1 hp
    have hall : ∀ scheme ∈ schemes, scheme.head?.any ['h', 'm', 'f'].contains = true := by decide
    have hfirst := hall scheme hscheme
    cases scheme with
    | nil => exact absurd hfirst (by decide)
    | cons first others =>
        cases hrest
        exact List.contains_iff_mem.1 hfirst
  rw [address, hnone]

/-- An address starts with a scheme, and every scheme with a colon behind it. -/
theorem absent_address {text : List Char} (h : ':' ∉ text.takeWhile (· != '<')) :
    address.Absent text := by
  intro previous
  have hnone : (schemes.find? fun scheme => scheme.isPrefixOf text) = none := by
    refine List.find?_eq_none.2 fun scheme hscheme hp => h ?_
    obtain ⟨rest, rfl⟩ := List.isPrefixOf_iff_prefix.1 hp
    have hall : ∀ scheme ∈ schemes, ':' ∈ scheme ∧ scheme.all (· != '<') = true := by decide
    obtain ⟨hcolon, hplain⟩ := hall scheme hscheme
    rw [List.takeWhile_append_of_pos (List.all_eq_true.1 hplain)]
    exact List.mem_append_left _ hcolon
  rw [address, hnone]

end Mark

/-! ### What marks start with -/

namespace Standard

/-- The standard formatters in order, with the characters that their marks start with. -/
def firsts : List (Formatter × List Char) :=
  [(Table.formatter, ['|']), (rule, ['-']), (dash, ['-']), (heading, ['!']),
    (preformatted, ['{']), (slashedPreformatted, ['/']), (comment, ['/']), (quoteBlock, ['<']),
    (Nesting.quotes, ['>']), (Nesting.lists, ['*', '#']), (link, ['[']),
    (address, ['h', 'm', 'f']), (image, ['[']), (call, ['<']), (html, ['<']), (hidden, ['/']),
    (strong, ['\'']), (strike, ['=']), (underline, ['_']), (emphasis, ['/']), (subscript, ['~']),
    (superscript, ['^']), (code, ['{']), (styled, ['@']), (lineBreak, ['\n'])]

theorem startsIn_firsts : ∀ p ∈ firsts, p.1.start.StartsIn p.2 := by
  simp only [firsts, List.forall_mem_cons]
  exact ⟨Mark.startsIn_row, (Pattern.startsIn_endingLine _ _).onLine, Pattern.startsIn_literal _ _,
    Mark.startsIn_heading, (Pattern.startsIn_literal _ _).onLine,
    (Pattern.startsIn_literal _ _).onLine, (Pattern.startsIn_literal _ _).onLine,
    (Pattern.startsIn_literal _ _).onLine, (Pattern.startsIn_run _).onLine, Mark.startsIn_listItem,
    Pattern.startsIn_literal _ _, Mark.startsIn_address, Mark.startsIn_image,
    Pattern.startsIn_literal _ _, Pattern.startsIn_anyCase _, Pattern.startsIn_literal _ _,
    Pattern.startsIn_literal _ _, Pattern.startsIn_literal _ _, Pattern.startsIn_literal _ _,
    Pattern.startsIn_literal _ _, Pattern.startsIn_literal _ _, Pattern.startsIn_literal _ _,
    Pattern.startsIn_literal _ _, Pattern.startsIn_literal _ _, Pattern.startsIn_literal _ _,
    fun p hp => absurd hp List.not_mem_nil⟩

/-- The formatters of a part of the table whose marks may stand at a character. -/
def suspects (c : Char) (part : List (Formatter × List Char)) : Formatters :=
  (part.filter fun p => p.2.contains c).map Prod.fst

/-- The characters that marks start with, but for those of addresses. -/
def signs : List Char :=
  ['|', '-', '!', '{', '/', '<', '>', '*', '#', '[', '\'', '=', '_', '~', '^', '@', '\n']

theorem notMem_signs {p : Char → Bool} (hp : signs.all (!p ·) = true) {c : Char}
    (hc : p c = true) : c ∉ signs := by
  intro hin
  have hnot : (!p c) = true := List.all_eq_true.1 hp c hin
  rw [hc] at hnot
  cases hnot

/-- A letter is none of them. -/
theorem notMem_signs_of_isLetter {c : Char} (hc : Program.isLetter c = true) : c ∉ signs :=
  notMem_signs (by decide +kernel) hc

end Standard

/-! ### What stands at a point -/

namespace Formatters

open Standard

variable {c : Char} {text : List Char}

/-- **No mark stands where none of the suspects does.** -/
theorem absent_of_suspects {part : List (Formatter × List Char)} (hpart : part ⊆ firsts)
    (h : ∀ f ∈ suspects c part, f.start.Absent (c :: text)) :
    ∀ f ∈ part.map Prod.fst, f.start.Absent (c :: text) := by
  refine List.forall_mem_map.2 fun p hp => ?_
  by_cases hc : c ∈ p.2
  · exact h p.1 (List.mem_map_of_mem (List.mem_filter.2 ⟨hp, List.contains_iff_mem.2 hc⟩))
  · exact startsIn_firsts p (hpart hp) c hc text

/-- At a character that no mark starts with, but for addresses, none stands. -/
theorem absent_plain (hc : c ∉ signs) (hcolon : ':' ∉ (c :: text).takeWhile (· != '<')) :
    ∀ f ∈ Formatters.standard, f.start.Absent (c :: text) := by
  have hothers : ∀ p ∈ firsts.take 11 ++ firsts.drop 12, p.1.start.Absent (c :: text) := by
    intro p hp
    have hsigns : ∀ p ∈ firsts.take 11 ++ firsts.drop 12, p.2.all signs.contains = true := by
      decide
    have hin : p ∈ firsts := by
      rcases List.mem_append.1 hp with hp | hp
      · exact List.mem_of_mem_take hp
      · exact List.mem_of_mem_drop hp
    refine startsIn_firsts p hin c (fun hcp => hc ?_) text
    exact List.contains_iff_mem.1 (List.all_eq_true.1 (hsigns p hp) c hcp)
  obtain ⟨hbefore, hbehind⟩ := List.forall_mem_append.1 hothers
  have hsplit : Formatters.standard = (firsts.take 11).map Prod.fst ++
      address :: (firsts.drop 12).map Prod.fst := rfl
  rw [hsplit, List.forall_mem_append, List.forall_mem_cons]
  exact ⟨List.forall_mem_map.2 hbefore, Mark.absent_address hcolon, List.forall_mem_map.2 hbehind⟩

theorem hitFrom?_append {fs : Formatters} {text : List Char}
    (h : ∀ f ∈ fs, f.start.Absent text) (gs : Formatters) (index : Nat)
    (previous : Option Char) :
    hitFrom? index previous text (fs ++ gs) = hitFrom? (index + fs.length) previous text gs := by
  induction fs generalizing index with
  | nil => rfl
  | cons f fs ih =>
      rw [List.forall_mem_cons] at h
      rw [List.cons_append, hitFrom?, Pattern.nonempty?, h.1 previous]
      simp only [Option.filter_none]
      rw [ih h.2, List.length_cons]
      congr 1
      omega

/-- The first formatter whose mark stands at a point takes over there. -/
theorem hit?_of_first {fs : Formatters} (gs : Formatters) {f : Formatter} {text : List Char}
    (h : ∀ f ∈ fs, f.start.Absent text) {previous : Option Char} {length : Nat}
    (hpos : 0 < length) (hstart : f.start previous text = some length) :
    (fs ++ f :: gs).hit? none previous text = some (.rule fs.length f length) := by
  have hnonempty : f.start.nonempty? previous text = some length := by
    rw [Pattern.nonempty?, hstart]
    exact if_pos (decide_eq_true hpos)
  rw [hit?, Option.bind_none]
  dsimp only
  rw [hitFrom?_append h, hitFrom?, hnonempty, Nat.zero_add]

/-- Nothing stands at a point where neither the mark that is waited for nor that of a formatter
does. -/
theorem hit?_of_absent {fs : Formatters} {stop : Option Pattern} {text : List Char}
    (hstop : ∀ p, stop = some p → p.Absent text) (h : ∀ f ∈ fs, f.start.Absent text)
    (previous : Option Char) : fs.hit? stop previous text = none := by
  have hnone : hitFrom? 0 previous text fs = none := by
    have happend := hitFrom?_append h [] 0 previous
    rwa [List.append_nil] at happend
  cases stop with
  | none => exact hnone
  | some p => simp [hit?, Pattern.nonempty?, hstop p rfl previous, hnone]

end Formatters

end Gamebook
