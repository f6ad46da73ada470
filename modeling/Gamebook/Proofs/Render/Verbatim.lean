/-
**Texts that are not looked into.**

Code, markup written out in HTML and comments are kept as they stand: no mark counts in them but the
one that closes them.  There is one exception.  Three braces before a line break open preformatted
lines, and these must end with a line of their own.  If they do not, the braces are said, and all
that follows them is looked into, although the same text would be code without the line break.

Main definitions:

* `Raw`, `Raw.opening`, `Raw.closing`, `Raw.Spells` — the three kinds, their marks, and how the marks
  may be written;
* `Raw.shown` — what is shown of such a text;
* `Raw.Keeps` — which texts are kept as they stand.

Main results:

* `Pattern.upTo_of_last`, `Pattern.linesUpTo_of_last` — what is read if the only closing mark is the
  last one;
* `Formatters.hit?_raw`, `Formatters.hit?_preformatted` — what stands at an opening mark;
* `Kit.render_whole` — a text that one formatter reads whole;
* `Story.render_raw` — **which texts are kept as they stand**.
-/

import Gamebook.Proofs.Render.Growth
import Gamebook.Proofs.Render.Outline

set_option relaxedAutoImplicit false
set_option autoImplicit false

namespace Gamebook

/-! ### Reading up to a mark -/

namespace Pattern

variable {close? : List Char → Option Nat} {mark text closing : List Char} {n : Nat}

theorem literal_eq_some_iff (previous : Option Char) :
    literal mark previous text = some n ↔ mark.length = n ∧ ∃ rest, text = mark ++ rest := by
  have hbegins : mark.isPrefixOf text = true ↔ ∃ rest, text = mark ++ rest :=
    List.isPrefixOf_iff_prefix.trans (exists_congr fun _ => eq_comm)
  rw [literal, ← hbegins]
  split <;> simp [*]

theorem endingLine_eq_none {previous : Option Char} (h : literal mark previous text = none) :
    endingLine mark previous text = none := by
  rw [literal] at h
  split at h
  · cases h
  · rename_i hmark
    simp [endingLine, hmark]

/-- Letters in any case are those that have the same small letters. -/
theorem startsWithLetters_iff :
    startsWithLetters mark text = true ↔
      ∃ written rest, text = written ++ rest ∧ written.map Char.toLower = mark := by
  induction mark generalizing text with
  | nil => simp [startsWithLetters]
  | cons l mark ih =>
      cases text with
      | nil => simp [startsWithLetters]
      | cons c text =>
          rw [startsWithLetters, Bool.and_eq_true, beq_iff_eq, ih]
          constructor
          · rintro ⟨rfl, written, rest, rfl, rfl⟩
            exact ⟨c :: written, rest, rfl, rfl⟩
          · rintro ⟨written, rest, htext, hwritten⟩
            cases written with
            | nil => cases hwritten
            | cons d written =>
                cases htext
                cases hwritten
                exact ⟨rfl, written, rest, rfl, rfl⟩

theorem anyCase_eq_some_iff (previous : Option Char) :
    anyCase mark previous text = some n ↔
      mark.length = n ∧ ∃ written rest, text = written ++ rest ∧
        written.map Char.toLower = mark := by
  rw [anyCase, ← startsWithLetters_iff]
  split <;> simp [*]

/-- What stands before a mark is read whole, if there is no such mark before. -/
theorem upTo_of_last
    (hnone : ∀ before c rest, text = before ++ c :: rest → close? (c :: rest ++ closing) = none)
    (hne : closing ≠ []) (hclose : close? closing = some n) :
    upTo close? (text ++ closing) = some (text, text.length + n) := by
  induction text with
  | nil =>
      obtain ⟨c, closing, rfl⟩ := List.exists_cons_of_ne_nil hne
      rw [List.nil_append, upTo, hclose, List.length_nil, Nat.zero_add]
  | cons c text ih =>
      have hfirst : close? (c :: (text ++ closing)) = none := hnone [] c text rfl
      have hrest := ih fun before d rest htext => hnone (c :: before) d rest (congrArg _ htext)
      rw [List.cons_append, upTo, hfirst, hrest, List.length_cons]
      exact congrArg (fun k => some (c :: text, k)) (by omega)

/-- Where no line starts, no mark on a line of its own is found. -/
theorem linesUpTo_of_notMem (h : '\n' ∉ text) : linesUpTo close? false text = none := by
  induction text with
  | nil => rfl
  | cons c text ih =>
      obtain ⟨hc, htext⟩ := not_or.1 (mt List.mem_cons.2 h)
      have hline : (c == '\n') = false := beq_eq_false_iff_ne.2 (Ne.symm hc)
      rw [linesUpTo, hline, ih htext]
      rfl

/-- What stands before a mark is read as lines just when a line starts at the mark, if there is no
such mark before, and if no line starts further on where none starts at the mark. -/
theorem linesUpTo_of_last
    (hnone : ∀ before c rest, text = before ++ c :: rest → close? (c :: rest ++ closing) = none)
    (hne : closing ≠ []) (hclose : close? closing = some n) (atStart : Bool)
    (hplain : text.getLast?.elim atStart (· == '\n') = false → '\n' ∉ closing) :
    linesUpTo close? atStart (text ++ closing) =
      if text.getLast?.elim atStart (· == '\n') then some (text, text.length + n) else none := by
  induction text generalizing atStart with
  | nil =>
      obtain ⟨c, closing, rfl⟩ := List.exists_cons_of_ne_nil hne
      cases atStart with
      | false => exact linesUpTo_of_notMem (hplain rfl)
      | true =>
          rw [List.nil_append, linesUpTo, if_pos rfl, hclose]
          exact congrArg (fun k => some ([], k)) (Nat.zero_add n).symm
  | cons c text ih =>
      have hfirst : close? (c :: (text ++ closing)) = none := hnone [] c text rfl
      have hlast : (c :: text).getLast?.elim atStart (· == '\n') =
          text.getLast?.elim (c == '\n') (· == '\n') := by
        rw [List.getLast?_cons]
        cases text.getLast? <;> rfl
      rw [hlast] at hplain
      have hrest := ih (fun before d rest htext => hnone (c :: before) d rest (congrArg _ htext))
        (c == '\n') hplain
      rw [List.cons_append, linesUpTo, hfirst, ite_self, hrest, hlast, List.length_cons]
      cases text.getLast?.elim (c == '\n') (· == '\n') with
      | false => rfl
      | true => exact congrArg (fun k => some (c :: text, k)) (by omega)

end Pattern

/-! ### The three kinds -/

/-- The kinds of texts that are not looked into. -/
inductive Raw where
  | code
  | html
  | hidden

namespace Raw

/-- The mark before such a text. -/
def opening : Raw → List Char
  | code => ['{', '{', '{']
  | html => ['<', 'h', 't', 'm', 'l', '>']
  | hidden => ['/', '%']

/-- The mark behind it. -/
def closing : Raw → List Char
  | code => ['}', '}', '}']
  | html => ['<', '/', 'h', 't', 'm', 'l', '>']
  | hidden => ['%', '/']

/-- What counts of a character in a mark: the letters of HTML may stand in any case. -/
def fold : Raw → Char → Char
  | html => Char.toLower
  | code | hidden => id

/-- Whether a mark is written so. -/
def Spells (raw : Raw) (mark written : List Char) : Prop := written.map raw.fold = mark

/-- The end of such a text. -/
def close? : Raw → List Char → Option Nat
  | code => Mark.codeEnd
  | html => Mark.htmlEnd
  | hidden => Mark.hiddenEnd

/-- The formatter of such a text. -/
def formatter : Raw → Formatter
  | code => Standard.code
  | html => Standard.html
  | hidden => Standard.hidden

/-- What is shown of such a text, if anything. -/
def node? : Raw → List Char → Option Node
  | code, text => some (.element { tag := .code } [.text (String.ofList text)])
  | html, text => some (.element { tag := .span } [.html (String.ofList text)])
  | hidden, _ => none

/-- What is shown where such a text stands.  Code that starts with a line break is preformatted
lines. -/
def shown : Raw → List Char → List Node
  | code, '\n' :: lines => [.element { tag := .preformatted } [.text (String.ofList lines)]]
  | raw, text => (raw.node? text).toList

/-- Whether a text is kept as it stands: code that starts with a line break must end with another
one. -/
def Keeps (raw : Raw) (text : List Char) : Prop :=
  match raw with
  | code => text.head? = some '\n' → text.tail.getLast? = some '\n'
  | html | hidden => True

variable {raw : Raw} {mark written text closing : List Char}

theorem length_of_spells (h : raw.Spells mark written) : written.length = mark.length := by
  rw [← h, List.length_map]

/-- But for HTML, a mark is written in one way only. -/
theorem exists_spelled_iff (h : raw.fold = id) :
    (∃ rest, text = mark ++ rest) ↔
      ∃ written rest, text = written ++ rest ∧ raw.Spells mark written := by
  simp [Spells, h]

/-- An end is where the closing mark is written. -/
theorem close?_eq_some_iff {n : Nat} :
    raw.close? text = some n ↔
      raw.closing.length = n ∧ ∃ written rest, text = written ++ rest ∧
        raw.Spells raw.closing written := by
  cases raw with
  | code => exact (Pattern.literal_eq_some_iff none).trans (and_congr_right' (exists_spelled_iff rfl))
  | html => exact Pattern.anyCase_eq_some_iff none
  | hidden => exact (Pattern.literal_eq_some_iff none).trans (and_congr_right' (exists_spelled_iff rfl))

/-- The only closing mark in a text and the mark behind it is that one. -/
def EndsOnce (raw : Raw) (text closing : List Char) : Prop :=
  raw.Spells raw.closing closing ∧
    ∀ before written behind, text ++ closing = before ++ (written ++ behind) →
      raw.Spells raw.closing written → behind = []

theorem eq_of_spells_code (h : code.Spells mark written) : written = mark :=
  (List.map_id written).symm.trans h

namespace EndsOnce

theorem ne_nil (h : raw.EndsOnce text closing) : closing ≠ [] := by
  rintro rfl
  have hlength := length_of_spells h.1
  cases raw <;> cases hlength

theorem close?_closing (h : raw.EndsOnce text closing) : raw.close? closing = some closing.length :=
  close?_eq_some_iff.2 ⟨(length_of_spells h.1).symm, closing, [], (List.append_nil _).symm, h.1⟩

theorem close?_inside (h : raw.EndsOnce text closing) {before rest : List Char} {c : Char}
    (htext : text = before ++ c :: rest) : raw.close? (c :: rest ++ closing) = none := by
  cases hend : raw.close? (c :: rest ++ closing) with
  | none => rfl
  | some n =>
      obtain ⟨-, written, behind, heq, hwritten⟩ := close?_eq_some_iff.1 hend
      have hnil : behind = [] := by
        refine h.2 before written behind ?_ hwritten
        rw [htext, List.append_assoc, heq]
      have hlength := congrArg List.length heq
      rw [hnil, List.append_nil, length_of_spells hwritten, List.length_append,
        ← length_of_spells h.1, List.length_cons] at hlength
      omega

/-- It is enough to look for an end at every place before that mark. -/
theorem iff_forall_close? :
    raw.EndsOnce text closing ↔ raw.Spells raw.closing closing ∧
      ∀ i < text.length, raw.close? ((text ++ closing).drop i) = none := by
  constructor
  · refine fun h => ⟨h.1, fun i hi => ?_⟩
    have htext : text = text.take i ++ text[i] :: text.drop (i + 1) := by
      rw [← List.drop_eq_getElem_cons hi, List.take_append_drop]
    rw [List.drop_append_of_le_length (Nat.le_of_lt hi), List.drop_eq_getElem_cons hi]
    exact h.close?_inside htext
  · rintro ⟨hclosing, hnone⟩
    refine ⟨hclosing, fun before written behind heq hwritten => ?_⟩
    have hle : text.length ≤ before.length := by
      by_contra hlt
      have hend := hnone before.length (Nat.lt_of_not_le hlt)
      rw [heq, List.drop_left] at hend
      have hsome := close?_eq_some_iff.2 ⟨rfl, written, behind, rfl, hwritten⟩
      exact Option.some_ne_none _ (hsome.symm.trans hend)
    have hlength := congrArg List.length heq
    simp only [List.length_append, length_of_spells hwritten, length_of_spells hclosing] at hlength
    exact List.length_eq_zero_iff.1 (by omega)

/-- **Such a text is read whole**, up to its closing mark. -/
theorem enclosed? (h : raw.EndsOnce text closing) (opening : List Char) :
    Construct.enclosed? opening.length raw.close? (opening ++ (text ++ closing)) =
      some (text, (opening ++ (text ++ closing)).length) := by
  have hread := Pattern.upTo_of_last (fun _ _ _ htext => h.close?_inside htext) h.ne_nil
    h.close?_closing
  rw [Construct.enclosed?, List.drop_left, hread, List.length_append, List.length_append]
  rfl

end EndsOnce

instance (raw : Raw) (mark written : List Char) : Decidable (raw.Spells mark written) :=
  inferInstanceAs (Decidable (_ = _))

/-- Whether a closing mark is the only one can be looked up. -/
instance (raw : Raw) (text closing : List Char) : Decidable (raw.EndsOnce text closing) :=
  decidable_of_iff _ EndsOnce.iff_forall_close?.symm

/-- The formatter of a kind reads what stands up to the closing mark, and shows it. -/
theorem formatter_eq (raw : Raw) : ∃ name start, raw.formatter =
    Standard.whole name start (Construct.enclosed? raw.opening.length raw.close?)
      fun _ => raw.node? := by
  cases raw with
  | code => exact ⟨_, _, rfl⟩
  | html => exact ⟨_, _, rfl⟩
  | hidden => exact ⟨_, _, rfl⟩

theorem shown_of_plain (h : raw = .code → text.head? ≠ some '\n') :
    raw.shown text = (raw.node? text).toList := by
  unfold shown
  split
  · exact absurd rfl (h rfl)
  · rfl

/-- Only code that starts with a line break may not be kept. -/
theorem keeps_of_plain (h : raw = .code → text.head? ≠ some '\n') : raw.Keeps text := by
  cases raw with
  | code => exact fun hhead => absurd hhead (h rfl)
  | html | hidden => trivial

/-- **Code that starts with a line break is read as lines** if it ends with another one, and not at
all if it does not. -/
theorem preformatted?_lines {lines : List Char}
    (h : code.EndsOnce ('\n' :: lines) ['}', '}', '}']) :
    Construct.preformatted? (['{', '{', '{', '\n'] ++ (lines ++ ['}', '}', '}'])) =
      if lines.getLast? = some '\n' then
        some (lines, (['{', '{', '{', '\n'] ++ (lines ++ ['}', '}', '}'])).length)
      else none := by
  have hinside : ∀ before c rest, lines = before ++ c :: rest →
      Mark.preformattedEnd (c :: rest ++ ['}', '}', '}']) = none := by
    intro before c rest htext
    have hbehind : '\n' :: lines = ('\n' :: before) ++ c :: rest := congrArg _ htext
    exact Pattern.endingLine_eq_none (h.close?_inside hbehind)
  have hclose : Mark.preformattedEnd ['}', '}', '}'] = some 3 := rfl
  have hread := Pattern.linesUpTo_of_last hinside (List.cons_ne_nil _ _) hclose false
    fun _ => by decide
  have hlast : lines.getLast?.elim false (· == '\n') = true ↔ lines.getLast? = some '\n' := by
    cases lines.getLast? <;> simp
  rw [Construct.preformatted?]
  change Option.map _ (Pattern.linesUpTo _ _ (lines ++ ['}', '}', '}'])) = _
  rw [hread]
  simp only [hlast]
  split
  · refine congrArg (fun k => some (lines, k)) ?_
    simp only [List.length_append, List.length_cons, List.length_nil]
  · rfl

end Raw

/-! ### What stands at an opening mark -/

namespace Formatters

open Standard Pattern

/-- Three braces behind which no line ends are the mark of code. -/
theorem hit?_code {text : List Char} (h : text.head? ≠ some '\n') (previous : Option Char) :
    Formatters.standard.hit? none previous (['{', '{', '{'] ++ text) =
      some (.rule 22 Standard.code 3) := by
  have hlines : ['{', '{', '{', '\n'].isPrefixOf (['{', '{', '{'] ++ text) = false := by
    cases text with
    | nil => rfl
    | cons c text =>
        have hc : '\n' ≠ c := fun hc => h (congrArg some hc.symm)
        simp [List.isPrefixOf, hc]
  have habsent : ∀ f ∈ inOrder.take 22, f.start.Absent (['{', '{', '{'] ++ text) :=
    absent_of_suspects (List.take_subset 22 firsts)
      (List.forall_mem_singleton.2 (absent_literal hlines).onLine)
  exact hit?_of_first (inOrder.drop 23) habsent (Nat.succ_pos 2) rfl

/-- Three braces before a line break are the mark of preformatted lines. -/
theorem hit?_preformatted (text : List Char) :
    Formatters.standard.hit? none none (['{', '{', '{', '\n'] ++ text) =
      some (.rule 4 Standard.preformatted 4) := by
  have habsent : ∀ f ∈ inOrder.take 4, f.start.Absent (['{', '{', '{', '\n'] ++ text) :=
    absent_of_suspects (List.take_subset 4 firsts) fun f hf => absurd hf List.not_mem_nil
  exact hit?_of_first (inOrder.drop 5) habsent (Nat.succ_pos 3) rfl

/-- The mark of markup starts with one angle bracket, and not with two. -/
theorem exists_of_spells_html {opening : List Char}
    (h : Raw.html.Spells Raw.html.opening opening) :
    ∃ c rest, opening = '<' :: c :: rest ∧ c ≠ '<' := by
  have hmap : opening.map Char.toLower = ['<', 'h', 't', 'm', 'l', '>'] := h
  obtain ⟨b, behind, rfl, hb, hbehind⟩ := List.map_eq_cons_iff.1 hmap
  obtain ⟨c, rest, rfl, hc, -⟩ := List.map_eq_cons_iff.1 hbehind
  have hbracket : b = '<' := by
    by_contra hne
    exact toLower_ne_bracket hne hb
  refine ⟨c, rest, by rw [hbracket], ?_⟩
  rintro rfl
  exact absurd hc (by decide)

/-- The word HTML in brackets is the mark of markup, in any case. -/
theorem hit?_html {opening : List Char} (h : Raw.html.Spells Raw.html.opening opening)
    (text : List Char) (previous : Option Char) :
    Formatters.standard.hit? none previous (opening ++ text) =
      some (.rule 14 Standard.html 6) := by
  have hstart : Standard.html.start previous (opening ++ text) = some 6 :=
    (anyCase_eq_some_iff previous).2 ⟨rfl, opening, text, rfl, h⟩
  obtain ⟨c, rest, rfl, hc⟩ := exists_of_spells_html h
  have hquote : ['<', '<', '<', '\n'].isPrefixOf (('<' :: c :: rest) ++ text) = false := by
    simp [List.isPrefixOf, hc.symm]
  have hcall : ['<', '<'].isPrefixOf (('<' :: c :: rest) ++ text) = false := by
    simp [List.isPrefixOf, hc.symm]
  have habsent : ∀ f ∈ inOrder.take 14, f.start.Absent (('<' :: c :: rest) ++ text) :=
    absent_of_suspects (List.take_subset 14 firsts) (List.forall_mem_cons.2
      ⟨(absent_literal hquote).onLine, List.forall_mem_singleton.2 (absent_literal hcall)⟩)
  exact hit?_of_first (inOrder.drop 15) habsent (Nat.succ_pos 5) hstart

/-- A slash and a percent sign are the mark of a comment. -/
theorem hit?_hidden (text : List Char) (previous : Option Char) :
    Formatters.standard.hit? none previous (['/', '%'] ++ text) =
      some (.rule 15 Standard.hidden 2) := by
  have habsent : ∀ f ∈ inOrder.take 15, f.start.Absent (['/', '%'] ++ text) :=
    absent_of_suspects (List.take_subset 15 firsts) (List.forall_mem_cons.2
      ⟨(absent_literal rfl).onLine, List.forall_mem_singleton.2 (absent_literal rfl).onLine⟩)
  exact hit?_of_first (inOrder.drop 16) habsent (Nat.succ_pos 1) rfl

/-- **What stands at an opening mark**: the formatter of its kind, but for code that starts with a
line break. -/
theorem hit?_raw {raw : Raw} {opening text : List Char} (h : raw.Spells raw.opening opening)
    (hplain : raw = .code → text.head? ≠ some '\n') (previous : Option Char) :
    ∃ index, Formatters.standard.hit? none previous (opening ++ text) =
      some (.rule index raw.formatter opening.length) := by
  rw [Raw.length_of_spells h]
  cases raw with
  | code =>
      rw [Raw.eq_of_spells_code h]
      exact ⟨22, hit?_code (hplain rfl) previous⟩
  | html => exact ⟨14, hit?_html h text previous⟩
  | hidden =>
      rw [show opening = ['/', '%'] from (List.map_id opening).symm.trans h]
      exact ⟨15, hit?_hidden text previous⟩

end Formatters

/-! ### Renders -/

namespace Kit

variable {kit : Kit} {left : Nat} {text : List Char} {page : Page}

/-- **A text that one formatter reads whole** renders to what that builds, and the page stays. -/
theorem render_whole (hdepth : kit.setting.config.maxDepth = left + 1) (hne : text ≠ [])
    {α : Type} {name : String} {start : Pattern} {read? : List Char → Option (α × Nat)}
    {build : Store → α → Option Node} {index length : Nat}
    (hhit : kit.formatters.hit? none none text =
      some (.rule index (Standard.whole name start read? build) length))
    {a : α} (hread : read? text = some (a, text.length)) :
    kit.render text page = ((build page.store a).toList, page) := by
  let s := (Scanner.start text [] page.enter).find [] length
  let s' : Scanner := { s with cursor := s.foundAt.forward text.length }
  have hhandle : (Standard.whole name start read? build).handle kit.macros (kit.context left) s =
      some ((build page.store a).elim s' s'.emit) := by
    change (read? text).map _ = _
    rw [hread]
    cases hnode : build page.store a with
    | none =>
        have hnode' : build s.page.store a = none := hnode
        simp only [Option.map_some, hnode']
        rfl
    | some node =>
        have hnode' : build s.page.store a = some node := hnode
        simp only [Option.map_some, hnode']
        rfl
  have hrest : s'.cursor.rest = [] := List.drop_length
  cases hnode : build page.store a with
  | none =>
      rw [hnode] at hhandle
      exact render_first hdepth hne hhit hhandle hrest
  | some node =>
      rw [hnode] at hhandle
      exact render_first hdepth hne hhit hhandle hrest

variable {raw : Raw} {opening closing : List Char}

/-- A text that is not looked into renders to what is shown of it, if it is no code that starts with
a line break. -/
theorem render_plain (hformatters : kit.formatters = .standard)
    (hdepth : kit.setting.config.maxDepth = left + 1) (hopening : raw.Spells raw.opening opening)
    (hclosing : raw.EndsOnce text closing) (hplain : raw = .code → text.head? ≠ some '\n')
    (page : Page) : kit.render (opening ++ (text ++ closing)) page = (raw.shown text, page) := by
  have hne : opening ++ (text ++ closing) ≠ [] := by simp [hclosing.ne_nil]
  have hbehind : raw = .code → (text ++ closing).head? ≠ some '\n' := by
    rintro rfl
    rw [Raw.eq_of_spells_code hclosing.1, List.head?_append]
    cases text with
    | nil => decide
    | cons c text => exact hplain rfl
  obtain ⟨index, hhit⟩ := Formatters.hit?_raw hopening hbehind none
  obtain ⟨name, start, hformatter⟩ := raw.formatter_eq
  have hread := hclosing.enclosed? opening
  rw [Raw.length_of_spells hopening] at hread
  rw [← hformatters, hformatter] at hhit
  rw [render_whole hdepth hne hhit hread, Raw.shown_of_plain hplain]

/-- **Code that starts with a line break** renders to preformatted lines if it ends with another
one. -/
theorem render_preformatted (hformatters : kit.formatters = .standard)
    (hdepth : kit.setting.config.maxDepth = left + 1) {lines : List Char}
    (hclosing : Raw.code.EndsOnce ('\n' :: lines) ['}', '}', '}'])
    (hlast : lines.getLast? = some '\n') (page : Page) :
    kit.render (['{', '{', '{', '\n'] ++ (lines ++ ['}', '}', '}'])) page =
      (Raw.code.shown ('\n' :: lines), page) := by
  have hread := Raw.preformatted?_lines hclosing
  rw [if_pos hlast] at hread
  have hhit := hformatters ▸ Formatters.hit?_preformatted (lines ++ ['}', '}', '}'])
  exact render_whole hdepth (List.cons_ne_nil _ _) hhit hread

/-- **If it does not**, it is looked into, and its braces are said. -/
theorem render_unclosed (hformatters : kit.formatters = .standard)
    (hmacros : kit.macros = .standard) (hdepth : kit.setting.config.maxDepth = left + 1)
    {lines : List Char} (hclosing : Raw.code.EndsOnce ('\n' :: lines) ['}', '}', '}'])
    (hlast : lines.getLast? ≠ some '\n') (page : Page) :
    ∃ behind nodes, (kit.render (['{', '{', '{', '\n'] ++ (lines ++ ['}', '}', '}'])) page).1 =
      .text (String.ofList (['{', '{', '{', '\n'] ++ behind)) :: nodes := by
  have hread := Raw.preformatted?_lines hclosing
  rw [if_neg hlast] at hread
  have hgrows : ∀ f ∈ kit.formatters, f.Grows := hformatters ▸ Formatters.standard_grows
  have hmacros' : kit.macros.Grow := hmacros ▸ Macros.standard_grows
  have hhit := hformatters ▸ Formatters.hit?_preformatted (lines ++ ['}', '}', '}'])
  refine render_declined hgrows hmacros' hdepth hhit ?_
  exact congrArg (Option.map _) hread

end Kit

namespace Story

/-- **Which texts are kept as they stand.**  Code, markup written out in HTML and comments, each up
to the only closing mark, are shown in one node or not at all, and nothing else is shown or changed,
whatever macros there are.  The one exception is code that starts with a line break and does not end
with another: its braces are said, and it is looked into. -/
theorem render_raw (s : Story) (hformatters : s.formatters = .standard)
    (hdepth : 0 < s.config.maxDepth) (raw : Raw) {opening text closing : List Char}
    (hopening : raw.Spells raw.opening opening) (hclosing : raw.EndsOnce text closing) :
    (raw.Keeps text → s.render (String.ofList (opening ++ (text ++ closing))) =
      (raw.shown text, [], s)) ∧
    (s.macros = .standard → ¬ raw.Keeps text → ∃ behind nodes,
      (s.render (String.ofList (opening ++ (text ++ closing)))).1 =
        .text (String.ofList (['{', '{', '{', '\n'] ++ behind)) :: nodes) := by
  obtain ⟨left, hleft⟩ := Nat.exists_eq_add_of_le' hdepth
  have hkit : s.kit.setting.config.maxDepth = left + 1 := hleft
  by_cases hplain : raw = .code → text.head? ≠ some '\n'
  · have hrender := Kit.render_plain hformatters hkit hopening hclosing hplain s.page
    exact ⟨fun _ => render_of_kit hrender, fun _ hkeeps => absurd (Raw.keeps_of_plain hplain) hkeeps⟩
  · -- the line break belongs to the mark of preformatted lines
    obtain ⟨rfl, hhead⟩ := Classical.not_imp.1 hplain
    obtain ⟨lines, rfl⟩ := List.head?_eq_some_iff.1 (not_not.1 hhead)
    obtain rfl := Raw.eq_of_spells_code hopening
    obtain rfl := Raw.eq_of_spells_code hclosing.1
    refine ⟨fun hkeeps => ?_, fun hmacros hkeeps => ?_⟩
    · exact render_of_kit (Kit.render_preformatted hformatters hkit hclosing (hkeeps rfl) s.page)
    · have hlast : lines.getLast? ≠ some '\n' := fun hlast => hkeeps fun _ => hlast
      rw [render, String.toList_ofList]
      exact Kit.render_unclosed hformatters hmacros hkit hclosing hlast s.page

/-- Lines of code with a call between them. -/
def listing : List Char := "\n<<back>>\n".toList

/-- The call in the lines is kept, and so are marks in HTML and in a comment. -/
theorem render_raw_marks :
    shed.formatters = .standard ∧ 0 < shed.config.maxDepth ∧
      (Raw.code.Spells Raw.code.opening Raw.code.opening ∧
        Raw.code.EndsOnce listing Raw.code.closing ∧ Raw.code.Keeps listing ∧
        shed.render (String.ofList (Raw.code.opening ++ (listing ++ Raw.code.closing))) =
          ([.element { tag := .preformatted } [.text "<<back>>\n"]], [], shed)) ∧
      (Raw.html.Spells Raw.html.opening "<HTml>".toList ∧
        Raw.html.EndsOnce "==a==".toList "</htmL>".toList ∧
        shed.render "<HTml>==a==</htmL>" =
          ([.element { tag := .span } [.html "==a=="]], [], shed)) ∧
      Raw.hidden.Spells Raw.hidden.opening Raw.hidden.opening ∧
        Raw.hidden.EndsOnce "[[b]]".toList Raw.hidden.closing ∧
        shed.render "/%[[b]]%/" = ([], [], shed) := by
  have hbraces : Raw.code.Spells Raw.code.opening Raw.code.opening := by decide
  have hlisting : Raw.code.EndsOnce listing Raw.code.closing := by decide
  have hkeeps : Raw.code.Keeps listing := fun _ => by decide
  have hopening : Raw.html.Spells Raw.html.opening "<HTml>".toList := by decide
  have hclosing : Raw.html.EndsOnce "==a==".toList "</htmL>".toList := by decide
  have hslash : Raw.hidden.Spells Raw.hidden.opening Raw.hidden.opening := by decide
  have hhidden : Raw.hidden.EndsOnce "[[b]]".toList Raw.hidden.closing := by decide
  have hcode := (render_raw shed rfl (by decide) .code hbraces hlisting).1 hkeeps
  have hhtml := (render_raw shed rfl (by decide) .html hopening hclosing).1 trivial
  have hcomment := (render_raw shed rfl (by decide) .hidden hslash hhidden).1 trivial
  exact ⟨rfl, by decide, ⟨hbraces, hlisting, hkeeps, hcode⟩, ⟨hopening, hclosing, hhtml⟩, hslash,
    hhidden, hcomment⟩

/-- A line of code with marks in it, behind which no line ends. -/
def snippet : List Char := "\n==x==".toList

/-- **Code may be no code for a line break before it.**  Without the line break the same text is
shown in one element, as it stands. -/
theorem snippet_said :
    shed.formatters = .standard ∧ shed.macros = .standard ∧ 0 < shed.config.maxDepth ∧
      Raw.code.EndsOnce snippet Raw.code.closing ∧
      (∀ e children, (shed.render (String.ofList (Raw.code.opening ++
        (snippet ++ Raw.code.closing)))).1 ≠ [.element e children]) ∧
      (shed.render (String.ofList (Raw.code.opening ++ (snippet.tail ++ Raw.code.closing)))).1 =
        [.element { tag := .code } [.text "==x=="]] := by
  have hdepth : shed.kit.setting.config.maxDepth = 1 + 1 := rfl
  have hbraces : Raw.code.Spells Raw.code.opening Raw.code.opening := by decide
  have hsnippet : Raw.code.EndsOnce snippet Raw.code.closing := by decide
  have htail : Raw.code.EndsOnce snippet.tail Raw.code.closing := by decide
  refine ⟨rfl, rfl, by decide, hsnippet, fun e children hone => ?_, ?_⟩
  · obtain ⟨behind, nodes, hsaid⟩ :=
      Kit.render_unclosed rfl rfl hdepth hsnippet (by decide) shed.page
    rw [render, String.toList_ofList] at hone
    cases hsaid.symm.trans hone
  · have hrender := Kit.render_plain rfl hdepth hbraces htail (fun _ => by decide) shed.page
    rw [render, String.toList_ofList, hrender]
    rfl

end Story

end Gamebook
