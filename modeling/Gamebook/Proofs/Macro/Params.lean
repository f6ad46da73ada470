/-
**Parameters read back.**

A parameter is written between quotes of either kind, between double brackets, or bare, and blanks
stand between each two.  Whatever else stands in a parameter, brackets, line breaks or the other
quotes, it ends at its own mark, so no two parameters are taken for one and none is torn apart.
Empty parameters are read too, and do not count.

Main definitions:

* `Params.Form`, `Params.Form.Admits` — the ways to write a parameter, and which texts can be
  written so;
* `Params.Param`, `Params.Param.source` — a parameter as it is written;
* `Params.row` — parameters with the blanks behind each of them.

Main results:

* `Params.param?_source` — **a parameter is read up to its own end**;
* `Params.collect_row` — so are all of them, one after another;
* `Params.read_row` — **a row of parameters is read back**, in order and without the empty ones.
-/

import Gamebook.Macro.Params
import Gamebook.Text.Runs

set_option relaxedAutoImplicit false
set_option autoImplicit false

namespace Gamebook.Params

/-! ### Parameters as they are written -/

/-- The ways to write a parameter. -/
inductive Form where
  | double
  | single
  | brackets
  | bare
  deriving DecidableEq, Repr

namespace Form

/-- What stands before a parameter. -/
def opening : Form → List Char
  | double => ['"']
  | single => ['\'']
  | brackets => ['[', '[']
  | bare => []

/-- What stands behind it. -/
def closing : Form → List Char
  | double => ['"']
  | single => ['\'']
  | brackets => [']', ']']
  | bare => []

/-- Which texts can be written so: those that the closing mark is no part of.  A bare text has no
marks, so it is not empty, holds no blank, and does not start as the other forms do. -/
def Admits : Form → List Char → Prop
  | double, text => '"' ∉ text
  | single, text => '\'' ∉ text
  | brackets, text => ']' ∉ text
  | bare, text =>
      text ≠ [] ∧ (∀ c ∈ text, Text.isBlank c = false) ∧
        text.head? ∉ [some '"', some '\'', some '[']

instance : (form : Form) → (text : List Char) → Decidable (form.Admits text)
  | double, _ | single, _ | brackets, _ => inferInstanceAs (Decidable (_ ∉ _))
  | bare, text =>
      haveI := List.decidableBAll (fun c => Text.isBlank c = false) text
      inferInstanceAs (Decidable (_ ∧ _ ∧ _))

end Form

/-- A parameter as it is written. -/
structure Param where
  form : Form
  text : List Char
  admits : form.Admits text := by decide

/-- The text of a parameter with the marks around it. -/
def Param.source (p : Param) : List Char := p.form.opening ++ (p.text ++ p.form.closing)

/-- Parameters as they are written, each with what stands behind it. -/
def row : List (Param × List Char) → List Char
  | [] => []
  | (p, gap) :: items => p.source ++ (gap ++ row items)

variable {quote : Char} {text rest : List Char}

/-! ### Reading one parameter -/

theorem quoted?_text (h : quote ∉ text) (rest : List Char) :
    quoted? quote (text ++ quote :: rest) = some (text, text.length + 2) := by
  simp only [quoted?, Text.takeWhile_until h]
  exact if_pos (by simp)

/-- A bare text ends at the next blank, or with all. -/
theorem bare?_text (hne : text ≠ []) (h : ∀ c ∈ text, Text.isBlank c = false)
    (hrest : rest.head?.all Text.isBlank = true) : bare? (text ++ rest) = some (text, text.length) := by
  have hplain : ∀ c ∈ text, (!Text.isBlank c) = true := fun c hc => by rw [h c hc]; rfl
  have hbehind : ∀ c ∈ rest.head?, (!Text.isBlank c) = false := by
    intro c hc
    rw [Option.mem_def.1 hc] at hrest
    have hblank : Text.isBlank c = true := hrest
    rw [hblank]
    rfl
  exact Text.run?_append hne hplain hbehind

/-- A text that starts as no other form does is read as a bare one. -/
theorem param?_of_head (h : text.head? ∉ [some '"', some '\'', some '[']) :
    param? text = bare? text := by
  unfold param?
  split
  · exact absurd (by simp) h
  · exact absurd (by simp) h
  · exact absurd (by simp) h
  · rfl

/-- No parameter starts with a blank. -/
theorem param?_blank {c : Char} (hc : Text.isBlank c = true) (rest : List Char) :
    param? (c :: rest) = none := by
  have hhead : (c :: rest).head? ∉ [some '"', some '\'', some '['] := by
    have hmarks : ['"', '\'', '['].all (fun m => !Text.isBlank m) = true := by decide
    intro hin
    obtain ⟨m, hm, heq⟩ := List.mem_map.1
      (show some c ∈ ['"', '\'', '['].map some from hin)
    cases heq
    have hnot := List.all_eq_true.1 hmarks c hm
    rw [hc] at hnot
    cases hnot
  have hword : (c :: rest).takeWhile (fun c => !Text.isBlank c) = [] :=
    List.takeWhile_cons_of_neg (by simp [hc])
  rw [param?_of_head hhead, bare?, hword]
  rfl

/-- **A parameter is read up to its own end.**  Behind a bare one a blank must follow, or nothing. -/
theorem param?_source (p : Param) (hrest : p.form = .bare → rest.head?.all Text.isBlank = true) :
    param? (p.source ++ rest) = some (p.text, p.source.length) := by
  obtain ⟨form, text, hadmits⟩ := p
  cases form with
  | double =>
      change quoted? '"' ((text ++ ['"']) ++ rest) = _
      rw [List.append_assoc]
      refine (quoted?_text hadmits rest).trans ?_
      simp [Param.source, Form.opening, Form.closing]
  | single =>
      change quoted? '\'' ((text ++ ['\'']) ++ rest) = _
      rw [List.append_assoc]
      refine (quoted?_text hadmits rest).trans ?_
      simp [Param.source, Form.opening, Form.closing]
  | brackets =>
      have hsource : Param.source ⟨.brackets, text, hadmits⟩ ++ rest =
          '[' :: '[' :: (text ++ ']' :: ']' :: rest) := by
        simp [Param.source, Form.opening, Form.closing]
      rw [hsource, param?]
      simp only [Text.takeWhile_until hadmits, List.drop_left]
      simp [Param.source, Form.opening, Form.closing]
  | bare =>
      obtain ⟨hne, hplain, hhead⟩ := hadmits
      have hsource : Param.source ⟨.bare, text, hne, hplain, hhead⟩ = text := List.append_nil text
      have hhead' : (text ++ rest).head? ∉ [some '"', some '\'', some '['] := by
        obtain ⟨c, text, rfl⟩ := List.exists_cons_of_ne_nil hne
        exact hhead
      rw [hsource, param?_of_head hhead', bare?_text hne hplain (hrest rfl)]

/-! ### Reading a row -/

theorem source_ne_nil (p : Param) : p.source ≠ [] := by
  obtain ⟨form, text, hadmits⟩ := p
  cases form with
  | bare =>
      rw [Param.source, Form.opening, Form.closing, List.nil_append, List.append_nil]
      exact hadmits.1
  | double | single | brackets => exact List.cons_ne_nil _ _

/-- **Parameters are read one after another**, and the blanks between them are passed over. -/
theorem collect_row {items : List (Param × List Char)}
    (hgaps : ∀ item ∈ items, ∀ c ∈ item.2, Text.isBlank c = true)
    (hapart : ∀ item ∈ items.dropLast, item.2 ≠ []) :
    Text.collect param? (row items) = items.map fun item => item.1.text := by
  induction items with
  | nil => rfl
  | cons item items ih =>
      obtain ⟨p, gap⟩ := item
      obtain ⟨hgap, hgaps⟩ := List.forall_mem_cons.1 hgaps
      -- behind the parameter stands a blank, if anything does
      have hbehind : (gap ++ row items).head?.all Text.isBlank = true := by
        cases gap with
        | cons c gap => exact hgap c List.mem_cons_self
        | nil =>
            cases items with
            | nil => rfl
            | cons item items => exact absurd rfl (hapart (p, []) List.mem_cons_self)
      have hmore : ∀ item ∈ items.dropLast, item.2 ≠ [] := by
        cases items with
        | nil => exact fun item hitem => absurd hitem List.not_mem_nil
        | cons next items => exact fun item hitem => hapart item (List.mem_cons_of_mem _ hitem)
      have hpassed := Text.collect_passed (fun c hc => param?_blank (hgap c hc)) (row items)
      rw [row, Text.collect_piece (source_ne_nil p) (param?_source p fun _ => hbehind), hpassed,
        ih hgaps hmore]
      rfl

/-- **A row of parameters is read back.**  Whatever forms they are written in, with blanks between
each two and any blanks around them all, the parameters that are read are those that are written, in
order, but for the empty ones. -/
theorem read_row (before : List Char) (items : List (Param × List Char))
    (hbefore : ∀ c ∈ before, Text.isBlank c = true)
    (hgaps : ∀ item ∈ items, ∀ c ∈ item.2, Text.isBlank c = true)
    (hapart : ∀ item ∈ items.dropLast, item.2 ≠ []) :
    read (before ++ row items) = (items.map fun item => item.1.text).filter (· ≠ []) := by
  have hpassed := Text.collect_passed (fun c hc => param?_blank (hbefore c hc)) (row items)
  rw [read, hpassed, collect_row hgaps hapart]
  exact List.filter_congr fun text _ => Bool.eq_iff_iff.2 (by simp)

/-- Parameters in all forms, with marks of the others in them and an empty one among them. -/
def mixture : List (Param × List Char) :=
  [(⟨.double, "[[it's]]".toList, by decide⟩, [' ']),
    (⟨.single, [], by decide⟩, ['\n', '\u00a0']),
    (⟨.brackets, "a \"b\" [\nc".toList, by decide⟩, ['\t']),
    (⟨.bare, "d'e]]\"".toList, by decide⟩, [' ', ' ']),
    (⟨.single, "é\"[[ ]]".toList, by decide⟩, [])]

/-- The parameters of the mixture are read back. -/
theorem read_row_mixture :
    (∀ c ∈ [' '], Text.isBlank c = true) ∧
      (∀ item ∈ mixture, ∀ c ∈ item.2, Text.isBlank c = true) ∧
      (∀ item ∈ mixture.dropLast, item.2 ≠ []) ∧
      read (" \"[[it's]]\" ''\n\u00a0[[a \"b\" [\nc]]\td'e]]\"  'é\"[[ ]]'").toList =
        ["[[it's]]".toList, "a \"b\" [\nc".toList, "d'e]]\"".toList, "é\"[[ ]]".toList] := by
  have hbefore : ∀ c ∈ [' '], Text.isBlank c = true := List.forall_mem_singleton.2 (by decide)
  have hblank : mixture.all (fun item => item.2.all Text.isBlank) = true := by decide
  have hgaps : ∀ item ∈ mixture, ∀ c ∈ item.2, Text.isBlank c = true := fun item hitem =>
    List.all_eq_true.1 (List.all_eq_true.1 hblank item hitem)
  have hapart : ∀ item ∈ mixture.dropLast, item.2 ≠ [] := by decide
  exact ⟨hbefore, hgaps, hapart, read_row [' '] mixture hbefore hgaps hapart⟩

end Gamebook.Params
