/-
**The names of style properties.**

A name of several words is kept with capitals in the place of its hyphens, and it is written into a
style sheet with hyphens in the place of its capitals.  The one undoes the other only where no
capital stands but behind a hyphen.  Elsewhere a capital of the author gets a hyphen that was not
there, so that it makes another property: style sheets do not tell capitals from small letters, but
they do read hyphens.

Main definitions:

* `Style.isName` — words of letters with hyphens between them;
* `Style.sheetName` — a name as it gets into a style sheet;
* `Style.Declaration` — a declaration as an author writes it, with its source.

Main results:

* `Style.property_propertyOf` — **the name that gets into a style sheet**;
* `Style.sheetName_eq_iff` — **which names are written as they were read**, but for capitals;
* `Style.declarations_sources` — a row of declarations is read, whatever its length;
* `Html.escape_styleValue` — how it is written.
-/

import Gamebook.Markup.Style
import Gamebook.Proofs.Markup.Escape
import Gamebook.Text.Alphanumeric

set_option relaxedAutoImplicit false
set_option autoImplicit false

namespace Gamebook

theorem Html.property_append (s t : List Char) :
    property (String.ofList (s ++ t)) = property (String.ofList s) ++ property (String.ofList t) := by
  simp [property]

namespace Style

variable {c : Char} {name rest : List Char}

/-! ### Letters -/

theorem ne_hyphen_of_isAlphanum (hc : c.isAlphanum = true) : c ≠ '-' := by
  rintro rfl
  exact absurd hc (by decide)

theorem ne_hyphen_of_isAlpha (hc : c.isAlpha = true) : c ≠ '-' :=
  ne_hyphen_of_isAlphanum (Text.isAlphanum_of_isAlpha hc)

theorem toLower_ne_hyphen (hc : c.isUpper = true) : c.toLower ≠ '-' :=
  ne_hyphen_of_isAlphanum
    (Text.isAlphanum_toLower (Text.isAlphanum_of_isAlpha (Text.isAlpha_of_isUpper hc)))

/-- A raised letter is one capital, and its small letter is that of the letter itself. -/
theorem capital_of_isAlpha (hc : c.isAlpha = true) :
    capital c = [c.toUpper] ∧ c.toUpper.isUpper = true ∧ c.toUpper.toLower = c.toLower :=
  Text.forall_isAlphanum (P := fun c => c.isAlpha = true →
    capital c = [c.toUpper] ∧ c.toUpper.isUpper = true ∧ c.toUpper.toLower = c.toLower) (by decide)
    (Text.isAlphanum_of_isAlpha hc) hc

/-! ### Names -/

/-- Words of letters from A to Z, in any case, with one hyphen between each two. -/
def isName : List Char → Bool
  | [] => false
  | [c] => c.isAlpha
  | c :: '-' :: rest => c.isAlpha && isName rest
  | c :: rest => c.isAlpha && isName rest

/-- A name with small letters, and a hyphen before every capital that none stands before; `behind`
tells whether a hyphen stands before the name. -/
def sheetFrom : (behind : Bool) → List Char → List Char
  | _, [] => []
  | behind, c :: rest =>
      let small := c.toLower :: sheetFrom (c == '-') rest
      if c.isUpper && !behind then '-' :: small else small

/-- A name as it gets into a style sheet. -/
def sheetName (name : List Char) : List Char := sheetFrom false name

theorem sheetFrom_cons (behind : Bool) (c : Char) (rest : List Char) :
    sheetFrom behind (c :: rest) =
      (if c.isUpper && !behind then ['-'] else []) ++ c.toLower :: sheetFrom (c == '-') rest := by
  rw [sheetFrom]
  split <;> rfl

theorem property_letter (c : Char) :
    Html.property (String.ofList [c]) = sheetFrom false [c] := by
  rw [sheetFrom_cons, sheetFrom]
  cases hupper : c.isUpper with
  | true => simp [Html.property, hupper]
  | false => simp [Html.property, hupper, Text.toLower_of_not_isUpper hupper]

theorem property_capital (hc : c.isAlpha = true) :
    Html.property (String.ofList (capital c)) = '-' :: sheetFrom true [c] := by
  obtain ⟨hcapital, hupper, hlower⟩ := capital_of_isAlpha hc
  simp [hcapital, Html.property, hupper, hlower, sheetFrom]

/-- The first letter of a name, raised or not, and what stands behind it. -/
theorem property_joinFrom_cons (raised : Bool) (hc : c.isAlpha = true) :
    Html.property (String.ofList (joinFrom raised (c :: rest))) =
      (if raised then ['-'] else []) ++ sheetFrom raised [c] ++
        Html.property (String.ofList (joinFrom false rest)) := by
  rw [joinFrom, if_neg (ne_hyphen_of_isAlpha hc)]
  cases raised with
  | true =>
      rw [if_pos rfl, if_pos rfl, Html.property_append, property_capital hc]
      rfl
  | false =>
      rw [if_neg Bool.false_ne_true, if_neg Bool.false_ne_true, List.nil_append,
        ← List.singleton_append, Html.property_append, property_letter]

theorem sheetFrom_letter (behind : Bool) (hc : c.isAlpha = true) (rest : List Char) :
    sheetFrom behind (c :: rest) = sheetFrom behind [c] ++ sheetFrom false rest := by
  have hhyphen : (c == '-') = false := beq_eq_false_iff_ne.2 (ne_hyphen_of_isAlpha hc)
  rw [sheetFrom_cons behind c rest, sheetFrom_cons behind c [], hhyphen]
  simp [sheetFrom]

/-- A raised name begins with a hyphen in a style sheet. -/
theorem property_joinFrom (h : isName name = true) (raised : Bool) :
    Html.property (String.ofList (joinFrom raised name)) =
      (if raised then ['-'] else []) ++ sheetFrom raised name := by
  fun_induction isName name generalizing raised with
  | case1 => cases h
  | case2 c =>
      rw [property_joinFrom_cons raised h]
      exact List.append_nil _
  | case3 c rest ih =>
      obtain ⟨hc, hrest⟩ := Bool.and_eq_true_iff.1 h
      have hjoin : joinFrom false ('-' :: rest) = joinFrom true rest := if_pos rfl
      have hsheet : sheetFrom false ('-' :: rest) = '-' :: sheetFrom true rest := rfl
      rw [property_joinFrom_cons raised hc, sheetFrom_letter raised hc ('-' :: rest), hjoin, hsheet,
        ih hrest true, List.append_assoc]
      rfl
  | case4 c rest _ _ ih =>
      obtain ⟨hc, hrest⟩ := Bool.and_eq_true_iff.1 h
      rw [property_joinFrom_cons raised hc, sheetFrom_letter raised hc rest, ih hrest false,
        List.append_assoc]
      rfl

/-- A hyphen of a name gets into a style sheet. -/
theorem hyphen_mem_sheetFrom {behind : Bool} (h : '-' ∈ name) : '-' ∈ sheetFrom behind name := by
  induction name generalizing behind with
  | nil => exact h
  | cons c rest ih =>
      rw [sheetFrom_cons]
      refine List.mem_append_right _ ?_
      rcases List.mem_cons.1 h with rfl | hrest
      · exact List.mem_cons_self
      · exact List.mem_cons_of_mem _ (ih hrest)

/-- A name without hyphens is kept as it is. -/
theorem joinFrom_of_notMem (h : '-' ∉ name) : joinFrom false name = name := by
  induction name with
  | nil => rfl
  | cons c rest ih =>
      obtain ⟨hc, hrest⟩ := not_or.1 (mt List.mem_cons.2 h)
      rw [joinFrom, if_neg (Ne.symm hc), if_neg Bool.false_ne_true, ih hrest]

/-- **The name that gets into a style sheet.**  One name stands for another property. -/
theorem property_propertyOf (h : isName name = true) (hne : name ≠ "bgcolor".toList) :
    Html.property (propertyOf name) = sheetName name := by
  have hsheet : Html.property (String.ofList (joinWords name)) = sheetName name :=
    property_joinFrom h false
  have hplain : String.ofList (joinWords name) ≠ "bgcolor" := by
    intro heq
    by_cases hhyphen : '-' ∈ name
    · -- the hyphen would be one of the style sheet, too
      have hin : '-' ∈ sheetName name := hyphen_mem_sheetFrom hhyphen
      rw [← hsheet, heq] at hin
      exact absurd hin (by decide)
    · rw [joinWords, joinFrom_of_notMem hhyphen] at heq
      exact hne (by rw [← heq, String.toList_ofList])
  rw [propertyOf, if_neg hplain, hsheet]

/-! ### Names that are written as they were read -/

/-- There are no capitals in a style sheet. -/
theorem map_toLower_sheetFrom (behind : Bool) (name : List Char) :
    (sheetFrom behind name).map Char.toLower = sheetFrom behind name := by
  induction name generalizing behind with
  | nil => rfl
  | cons c rest ih =>
      rw [sheetFrom_cons, List.map_append, List.map_cons, Text.toLower_toLower, ih]
      split <;> rfl

theorem elim_getLast?_cons (behind : Bool) (c : Char) (before : List Char) :
    (c :: before).getLast?.elim behind (· == '-') =
      before.getLast?.elim (c == '-') (· == '-') := by
  cases before <;> rfl

/-- A name gets no hyphen if every capital stands behind one. -/
theorem sheetFrom_eq_iff (behind : Bool) (name : List Char) :
    sheetFrom behind name = name.map Char.toLower ↔
      ∀ before c rest, name = before ++ c :: rest → c.isUpper = true →
        before.getLast?.elim behind (· == '-') = true := by
  induction name generalizing behind with
  | nil => simp [sheetFrom]
  | cons c rest ih =>
      rw [sheetFrom_cons, List.map_cons]
      constructor
      · intro heq
        cases hfirst : c.isUpper && !behind with
        | true =>
            rw [hfirst, if_pos rfl, List.singleton_append] at heq
            have hupper := (Bool.and_eq_true_iff.1 hfirst).1
            exact absurd (List.cons.inj heq).1.symm (toLower_ne_hyphen hupper)
        | false =>
            rw [hfirst, if_neg Bool.false_ne_true, List.nil_append] at heq
            have hrest := (ih _).1 (List.cons.inj heq).2
            intro before d after hname hd
            cases before with
            | nil =>
                cases hname
                simpa [hd] using hfirst
            | cons b before =>
                cases hname
                rw [elim_getLast?_cons]
                exact hrest before d after rfl hd
      · intro h
        have hfirst : (c.isUpper && !behind) = false := by
          cases hc : c.isUpper with
          | false => rfl
          | true => simpa using h [] c rest rfl hc
        have hrest : sheetFrom (c == '-') rest = rest.map Char.toLower := by
          refine (ih _).2 fun before d after hname hd => ?_
          rw [← elim_getLast?_cons behind]
          exact h (c :: before) d after (congrArg _ hname) hd
        rw [hfirst, hrest]
        rfl

/-- **Which names are written as they were read**, but for capitals: those in which every capital
stands behind a hyphen. -/
theorem sheetName_eq_iff (name : List Char) :
    (sheetName name).map Char.toLower = name.map Char.toLower ↔
      ∀ before c rest, name = before ++ c :: rest → c.isUpper = true →
        before.getLast? = some '-' := by
  have hlast : ∀ before : List Char,
      before.getLast?.elim false (· == '-') = true ↔ before.getLast? = some '-' := by
    intro before
    cases before.getLast? <;> simp
  rw [sheetName, map_toLower_sheetFrom, sheetFrom_eq_iff]
  simp only [hlast]

/-! ### Reading declarations -/

/-- A declaration as an author writes it: a name, which is no short form, and a value of letters
and digits. -/
structure Declaration where
  name : List Char
  value : List Char
  /-- Whether the value stands in brackets. -/
  bracketed : Bool
  named : isName name = true
  full : name ≠ "bgcolor".toList
  nonempty : value ≠ []
  plain : ∀ c ∈ value, c.isAlphanum = true

namespace Declaration

/-- A declaration in a text. -/
def source (d : Declaration) : List Char :=
  d.name ++
    if d.bracketed then '(' :: (d.value ++ [')', ':']) else ':' :: (d.value ++ [';'])

/-- A row of declarations in a text. -/
def sources (ds : List Declaration) : List Char := ds.flatMap source

/-- What is kept of a declaration. -/
def kept (d : Declaration) : String × String := (propertyOf d.name, String.ofList d.value)

/-- A declaration in a style sheet. -/
def listed (d : Declaration) : String :=
  String.ofList (sheetName d.name) ++ ": " ++ String.ofList d.value

end Declaration

/-- A name holds letters and hyphens. -/
theorem forall_mem_name (h : isName name = true) : ∀ c ∈ name, c.isAlpha = true ∨ c = '-' := by
  fun_induction isName name with
  | case1 => exact fun c hc => absurd hc List.not_mem_nil
  | case2 c => exact List.forall_mem_singleton.2 (.inl h)
  | case3 c rest ih =>
      obtain ⟨hc, hrest⟩ := Bool.and_eq_true_iff.1 h
      exact List.forall_mem_cons.2 ⟨.inl hc, List.forall_mem_cons.2 ⟨.inr rfl, ih hrest⟩⟩
  | case4 c rest _ _ ih =>
      obtain ⟨hc, hrest⟩ := Bool.and_eq_true_iff.1 h
      exact List.forall_mem_cons.2 ⟨.inl hc, ih hrest⟩

theorem isNameChar_of_isName (h : isName name = true) : ∀ c ∈ name, isNameChar c = true := by
  intro c hc
  rcases forall_mem_name h c hc with halpha | rfl
  · simp [isNameChar, Text.isAlphanum_of_isAlpha halpha]
  · decide

theorem ne_nil_of_isName (h : isName name = true) : name ≠ [] := by
  rintro rfl
  cases h

/-- A value of letters and digits is read up to its closing mark. -/
theorem value?_eq {value : List Char} (hne : value ≠ [])
    (hplain : ∀ c ∈ value, c.isAlphanum = true) (close : Char)
    (hclose : close.isAlphanum = false) (rest : List Char) :
    value? close (value ++ close :: rest) = some (value, rest) := by
  have hchars : ∀ c ∈ value, (c != close && c != '|' && c != '
') = true := by
    intro c hc
    have hne : ∀ {d : Char}, d.isAlphanum = false → (c != d) = true := by
      rintro d hd
      refine bne_iff_ne.2 ?_
      rintro rfl
      exact absurd (hplain c hc) (by rw [hd]; exact Bool.false_ne_true)
    rw [hne hclose, hne (by decide), hne (by decide)]
    rfl
  have htake : (value ++ close :: rest).takeWhile
      (fun c => c != close && c != '|' && c != '\n') = value := by
    rw [List.takeWhile_append_of_pos hchars]
    simp
  have hdrop : (value ++ close :: rest).dropWhile
      (fun c => c != close && c != '|' && c != '\n') = close :: rest := by
    rw [List.dropWhile_append_of_pos hchars]
    simp
  obtain ⟨first, others, rfl⟩ := List.exists_cons_of_ne_nil hne
  rw [value?, htake, hdrop]
  exact if_pos rfl

/-- The name of a declaration is what stands before its first bracket or colon. -/
theorem takeWhile_name (h : isName name = true) {mark : Char} (hmark : isNameChar mark = false)
    (rest : List Char) : (name ++ mark :: rest).takeWhile isNameChar = name := by
  rw [List.takeWhile_append_of_pos (isNameChar_of_isName h),
    List.takeWhile_cons_of_neg (by rw [hmark]; exact Bool.false_ne_true), List.append_nil]

/-- **A declaration is read whole.** -/
theorem declaration?_source (d : Declaration) (rest : List Char) :
    declaration? (d.source ++ rest) = some (d.kept, d.source.length) := by
  have hname := ne_nil_of_isName d.named
  rw [Declaration.source, Declaration.kept]
  cases d.bracketed with
  | true =>
      have htext : (d.name ++ '(' :: (d.value ++ [')', ':'])) ++ rest =
          d.name ++ '(' :: (d.value ++ ')' :: ':' :: rest) := by simp
      have hvalue := value?_eq d.nonempty d.plain ')' (by decide) (':' :: rest)
      rw [if_pos rfl, htext, declaration?, takeWhile_name d.named (by decide), if_neg hname,
        List.drop_left]
      simp only [hvalue, List.length_append, List.length_cons, List.length_nil]
      rfl
  | false =>
      have htext : (d.name ++ ':' :: (d.value ++ [';'])) ++ rest =
          d.name ++ ':' :: (d.value ++ ';' :: rest) := by simp
      have hvalue := value?_eq d.nonempty d.plain ';' (by decide) rest
      rw [if_neg Bool.false_ne_true, htext, declaration?, takeWhile_name d.named (by decide),
        if_neg hname, List.drop_left]
      simp only [hvalue, List.length_append, List.length_cons, List.length_nil]
      rfl

/-- There is no declaration without a bracket or a colon. -/
theorem declaration?_eq_none {text : List Char} (hbracket : '(' ∉ text) (hcolon : ':' ∉ text) :
    declaration? text = none := by
  have hin : ∀ {n : Nat} {c : Char} {rest : List Char}, text.drop n = c :: rest → c ∈ text :=
    fun h => (List.drop_subset _ text) (h ▸ List.mem_cons_self)
  rw [declaration?]
  split
  · rfl
  · split
    · rename_i heq
      exact absurd (hin heq) hbracket
    · rename_i heq
      exact absurd (hin heq) hcolon
    · rfl

/-- What is skipped is counted. -/
theorem declarationsFrom_skip (skipped rest : List Char) :
    declarationsFrom skipped.length (skipped ++ rest) =
      ((declarations rest).1, skipped.length + (declarations rest).2) := by
  induction skipped with
  | nil => simp [declarations]
  | cons c skipped ih =>
      rw [List.cons_append, List.length_cons, declarationsFrom_succ, ih]
      simp only [Prod.mk.injEq, true_and]
      omega

/-- One declaration is read, and then those behind it. -/
theorem declarations_cons (d : Declaration) (rest : List Char) :
    declarations (d.source ++ rest) =
      (d.kept :: (declarations rest).1, d.source.length + (declarations rest).2) := by
  have hread := declaration?_source d rest
  obtain ⟨c, others, hsource⟩ : ∃ c others, d.source = c :: others := by
    refine List.exists_cons_of_ne_nil fun hnil => ne_nil_of_isName d.named ?_
    exact (List.append_eq_nil_iff.1 hnil).1
  rw [hsource, List.cons_append] at hread
  rw [hsource, List.cons_append, declarations_of_some hread, List.length_cons, Nat.add_sub_cancel,
    declarationsFrom_skip]
  simp only [Prod.mk.injEq, true_and]
  omega

/-- **A row of declarations is read, whatever its length**, up to what is none. -/
theorem declarations_sources (ds : List Declaration) {rest : List Char}
    (hbracket : '(' ∉ rest) (hcolon : ':' ∉ rest) :
    declarations (Declaration.sources ds ++ rest) =
      (ds.map Declaration.kept, (Declaration.sources ds).length) := by
  induction ds with
  | nil =>
      rw [Declaration.sources, List.flatMap_nil, List.nil_append]
      exact declarations_of_none (declaration?_eq_none hbracket hcolon)
  | cons d ds ih =>
      have hsources : Declaration.sources (d :: ds) = d.source ++ Declaration.sources ds :=
        List.flatMap_cons
      rw [hsources, List.append_assoc, declarations_cons, ih, List.length_append]
      rfl

/-! ### Writing declarations -/

/-- A letter, a digit or a hyphen. -/
def isPlain (c : Char) : Bool := c.isAlphanum || c == '-'

theorem isPlain_toLower (hc : isPlain c = true) : isPlain c.toLower = true := by
  rcases Bool.or_eq_true_iff.1 hc with halphanum | hhyphen
  · rw [isPlain, Text.isAlphanum_toLower halphanum, Bool.true_or]
  · rw [beq_iff_eq.1 hhyphen]
    decide

theorem isPlain_of_isName (h : isName name = true) : ∀ c ∈ name, isPlain c = true := by
  intro c hc
  rcases forall_mem_name h c hc with halpha | rfl
  · simp [isPlain, Text.isAlphanum_of_isAlpha halpha]
  · decide

/-- Nothing else gets into a style sheet by a name. -/
theorem isPlain_sheetFrom (behind : Bool) (h : ∀ c ∈ name, isPlain c = true) :
    ∀ c ∈ sheetFrom behind name, isPlain c = true := by
  induction name generalizing behind with
  | nil => exact h
  | cons c rest ih =>
      obtain ⟨hc, hrest⟩ := List.forall_mem_cons.1 h
      rw [sheetFrom_cons]
      refine List.forall_mem_append.2 ⟨?_, List.forall_mem_cons.2 ⟨isPlain_toLower hc, ih _ hrest⟩⟩
      split
      · exact List.forall_mem_singleton.2 (by decide)
      · exact fun d hd => absurd hd List.not_mem_nil

end Style

namespace Html

/-- A text of characters that need no entity is written as it is. -/
theorem escape_eq_toList {p : Char → Bool} (hp : entities.all (fun e => !p e.1) = true) {s : String}
    (h : ∀ c ∈ s.toList, p c = true) : escape s = s.toList := by
  have hchar : ∀ c ∈ s.toList, escapeChar c = [c] := by
    intro c hc
    rcases escapeChar_cases c with hentity | ⟨-, hplain⟩
    · have hnot : (!p c) = true := List.all_eq_true.1 hp _ hentity
      rw [h c hc] at hnot
      cases hnot
    · exact hplain
  rw [escape, List.flatMap_congr hchar]
  exact List.flatMap_singleton' _

theorem escape_intercalate {separator : String} (hseparator : escape separator = separator.toList)
    {parts : List String} (hparts : ∀ s ∈ parts, escape s = s.toList) :
    escape (separator.intercalate parts) = (separator.intercalate parts).toList := by
  induction parts with
  | nil => rfl
  | cons s parts ih =>
      obtain ⟨hs, hrest⟩ := List.forall_mem_cons.1 hparts
      cases parts with
      | nil => rwa [String.intercalate_singleton]
      | cons t parts =>
          rw [String.intercalate_cons_cons, escape_append, escape_append, hs, hseparator, ih hrest,
            String.toList_append, String.toList_append]

open Style

theorem escape_listed (d : Declaration) : escape d.listed = d.listed.toList := by
  have hname := isPlain_sheetFrom false (isPlain_of_isName d.named)
  have hvalue : ∀ c ∈ d.value, isPlain c = true := fun c hc => by
    rw [isPlain, d.plain c hc, Bool.true_or]
  have hcolon : escape ": " = ": ".toList := by decide
  rw [Declaration.listed, escape_append, escape_append, hcolon,
    escape_eq_toList (p := isPlain) (by decide) (by rwa [String.toList_ofList]),
    escape_eq_toList (p := isPlain) (by decide) (by rwa [String.toList_ofList]),
    String.toList_append, String.toList_append]

theorem styleValue_kept (ds : List Declaration) :
    styleValue (ds.map Declaration.kept) = "; ".intercalate (ds.map Declaration.listed) := by
  have hwritten : ∀ d : Declaration,
      String.ofList (property (propertyOf d.name)) ++ ": " ++ String.ofList d.value = d.listed := by
    intro d
    rw [property_propertyOf d.named d.full, Declaration.listed]
  rw [styleValue, List.map_map]
  exact congrArg _ (List.map_congr_left fun d _ => hwritten d)

/-- **A row of declarations is written** as a style sheet has them, and nothing of it is escaped. -/
theorem escape_styleValue (ds : List Declaration) :
    escape (styleValue (ds.map Declaration.kept)) =
      ("; ".intercalate (ds.map Declaration.listed)).toList := by
  rw [styleValue_kept]
  refine escape_intercalate (by decide) fun s hs => ?_
  obtain ⟨d, -, rfl⟩ := List.mem_map.1 hs
  exact escape_listed d

end Html

end Gamebook
