/-
**Which texts are tokens.**

A token is a `#` and behind it the numerals of ids with points between them.  A numeral is a row of
letters and digits, in either case and with any leading zeros, whose value in base 36 fits in 32
bits.  Reading accepts exactly these texts; of any other it tells what is wrong with the leftmost
bad segment.  Written again, the ids give the plain form of the token that was read: small letters
and no leading zeros.

Main definitions:

* `Trail.rank`, `Trail.number` — the value of a letter or digit, and of a row of them;
* `Trail.IsNumeral`, `Trail.plain` — the numerals of ids, and their plain form;
* `Trail.Writes` — a token is written with these segments for these ids;
* `Trail.Refuses` — what is wrong with a text that is no token.

Main results:

* `Trail.digits_number` — the digits of the value of a numeral are its plain form;
* `Trail.decodeSegments_eq_ok_iff`, `Trail.decodeSegments_eq_error_iff` — reading the segments;
* `Trail.token_codec` — **reading accepts exactly what the grammar of tokens describes**, and
  writing what was read gives its plain form.
-/

import Mathlib.Data.Nat.Digits.Lemmas
import Mathlib.Tactic.Positivity
import Mathlib.Tactic.Ring
import Gamebook.Proofs.Trail.RoundTrip
import Gamebook.Text.Alphanumeric

set_option relaxedAutoImplicit false
set_option autoImplicit false

namespace Gamebook

namespace Trail

open Text (forall_isAlphanum isAlphanum_iff isAlphanum_toLower toLower_toLower)

/-! ### Numerals -/

/-- The value of a letter or digit of ASCII, a letter in either case. -/
def rank (c : Char) : Nat :=
  if c.isDigit then c.toNat - '0'.toNat else c.toLower.toNat - 'a'.toNat + 10

/-- The value of a row of letters and digits in base 36, the first one counting most. -/
def number (segment : List Char) : Nat := Nat.ofDigits 36 (segment.reverse.map rank)

/-- A numeral of an id: letters and digits, at least one, with a value that fits in 32 bits. -/
structure IsNumeral (segment : List Char) : Prop where
  ne_nil : segment ≠ []
  alphanumeric : ∀ c ∈ segment, c.isAlphanum
  number_le : number segment ≤ 2 ^ 32 - 1

/-- A row of digits without leading zeros; one digit is kept. -/
def dropZeros (segment : List Char) : List Char :=
  match segment.dropWhile (· == '0') with
  | [] => ['0']
  | c :: cs => c :: cs

/-- A row of letters and digits in small letters and without leading zeros. -/
def plain (segment : List Char) : List Char := dropZeros (segment.map Char.toLower)

/-- A token is written with these segments, which stand for these ids. -/
structure Writes (parts : List (List Char)) (ids : List UInt32) (token : String) : Prop where
  text_eq : token.toList = '#' :: ['.'].intercalate parts
  numerals : ∀ part ∈ parts, IsNumeral part
  numbers : ids.map UInt32.toNat = parts.map number

/-- What is wrong with a text that is no token: there is no mark in front, or its leftmost segment
that is no numeral is empty or something else. -/
inductive Refuses (token : String) : TrailError → Prop where
  | missingMarker (h : token.toList.head? ≠ some '#') : Refuses token .missingMarker
  | emptySegment (good rest : List (List Char)) (hne : token ≠ "#")
      (htext : token.toList = '#' :: ['.'].intercalate (good ++ [] :: rest))
      (hgood : ∀ part ∈ good, IsNumeral part) : Refuses token (.emptySegment good.length)
  | invalidId (good rest : List (List Char)) (bad : List Char) (hne : bad ≠ []) (hpoint : '.' ∉ bad)
      (hbad : ¬IsNumeral bad) (htext : token.toList = '#' :: ['.'].intercalate (good ++ bad :: rest))
      (hgood : ∀ part ∈ good, IsNumeral part) : Refuses token (.invalidId (String.ofList bad))

/-! ### Values of letters and digits -/

theorem digitValue?_of_isAlphanum {c : Char} (h : c.isAlphanum) :
    digitValue? c = some (rank c) :=
  forall_isAlphanum (P := fun c => digitValue? c = some (rank c)) (by decide) h

theorem isAlphanum_of_digitValue? {c : Char} {n : Nat} (h : digitValue? c = some n) :
    c.isAlphanum := by
  rw [isAlphanum_iff]
  rw [digitValue?] at h
  split at h
  · rename_i hd
    exact .inr hd
  · split at h
    · rename_i hl
      exact .inl (.inr hl)
    · split at h
      · rename_i hu
        exact .inl (.inl hu)
      · cases h

theorem rank_lt {c : Char} (h : c.isAlphanum) : rank c < 36 :=
  forall_isAlphanum (P := fun c => rank c < 36) (by decide) h

theorem digit_rank {c : Char} (h : c.isAlphanum) : digit (rank c) = c.toLower :=
  forall_isAlphanum (P := fun c => digit (rank c) = c.toLower) (by decide) h

theorem rank_toLower {c : Char} (h : c.isAlphanum) : rank c.toLower = rank c :=
  forall_isAlphanum (P := fun c => rank c.toLower = rank c) (by decide) h

theorem rank_eq_zero {c : Char} (h : c.isAlphanum) (hc : rank c = 0) : c = '0' :=
  forall_isAlphanum (P := fun c => rank c = 0 → c = '0') (by decide) h hc

theorem point_ne_of_isAlphanum {c : Char} (h : c.isAlphanum) : c ≠ '.' := by
  rintro rfl
  exact absurd h (by decide)

/-! ### Values of rows -/

@[simp] theorem number_nil : number [] = 0 := rfl

theorem number_append (xs ys : List Char) :
    number (xs ++ ys) = number ys + 36 ^ ys.length * number xs := by
  simp [number, Nat.ofDigits_append]

@[simp] theorem number_singleton (c : Char) : number [c] = rank c := by simp [number]

theorem number_cons (c : Char) (cs : List Char) :
    number (c :: cs) = number cs + 36 ^ cs.length * rank c := by
  rw [← List.singleton_append, number_append, number_singleton]

theorem number_concat (cs : List Char) (c : Char) :
    number (cs ++ [c]) = rank c + 36 * number cs := by
  rw [number_append, number_singleton]
  simp

/-- Digits read behind digits of value `high`. -/
theorem valueFrom?_of_alphanumeric (high : Nat) {segment : List Char}
    (h : ∀ c ∈ segment, c.isAlphanum) :
    valueFrom? high segment = some (number segment + 36 ^ segment.length * high) := by
  induction segment generalizing high with
  | nil => simp [valueFrom?]
  | cons c cs ih =>
      rw [valueFrom?, digitValue?_of_isAlphanum (h c List.mem_cons_self)]
      simp only
      rw [ih _ fun d hd => h d (List.mem_cons_of_mem _ hd), number_cons, List.length_cons, pow_succ]
      ring_nf

theorem alphanumeric_of_valueFrom? {high n : Nat} {segment : List Char}
    (h : valueFrom? high segment = some n) : ∀ c ∈ segment, c.isAlphanum := by
  induction segment generalizing high with
  | nil => exact fun c hc => absurd hc List.not_mem_nil
  | cons c cs ih =>
      rw [valueFrom?] at h
      split at h
      · rename_i d hd
        exact List.forall_mem_cons.2 ⟨isAlphanum_of_digitValue? hd, ih h⟩
      · cases h

/-- A row has a value if it consists of letters and digits. -/
theorem value?_eq_some_iff {segment : List Char} {n : Nat} :
    value? segment = some n ↔ (∀ c ∈ segment, c.isAlphanum) ∧ n = number segment := by
  constructor
  · intro h
    have halnum := alphanumeric_of_valueFrom? h
    rw [value?, valueFrom?_of_alphanumeric 0 halnum] at h
    simp only [mul_zero, add_zero, Option.some.injEq] at h
    exact ⟨halnum, h.symm⟩
  · rintro ⟨halnum, rfl⟩
    rw [value?, valueFrom?_of_alphanumeric 0 halnum]
    simp

/-! ### Plain forms -/

theorem number_map_toLower {segment : List Char} (h : ∀ c ∈ segment, c.isAlphanum) :
    number (segment.map Char.toLower) = number segment := by
  have hranks : segment.reverse.map (rank ∘ Char.toLower) = segment.reverse.map rank :=
    List.map_congr_left fun c hc => rank_toLower (h c (List.mem_reverse.1 hc))
  rw [number, number, ← List.map_reverse, List.map_map, hranks]

theorem number_dropWhile (segment : List Char) :
    number (segment.dropWhile (· == '0')) = number segment := by
  induction segment with
  | nil => rfl
  | cons c cs ih =>
      rw [List.dropWhile_cons]
      split
      · rename_i hc
        have hzero : rank c = 0 := by
          rw [beq_iff_eq.1 hc]
          rfl
        rw [ih, number_cons, hzero]
        simp
      · rfl

theorem number_dropZeros (segment : List Char) : number (dropZeros segment) = number segment := by
  have hnumber := number_dropWhile segment
  rw [dropZeros]
  split
  · rename_i hnil
    rw [hnil] at hnumber
    rw [← hnumber]
    rfl
  · rename_i hcons
    rw [← hcons, hnumber]

/-- A row that does not begin with a zero has a value above zero. -/
theorem number_pos {c : Char} {cs : List Char} (hc : c.isAlphanum) (hne : c ≠ '0') :
    0 < number (c :: cs) := by
  have hrank : 0 < rank c := Nat.pos_of_ne_zero fun h => hne (rank_eq_zero hc h)
  rw [number_cons]
  positivity

/-- The digits of the value of a row without leading zeros, in small letters. -/
theorem digits_number_of_head_ne {c : Char} {cs : List Char}
    (h : ∀ d ∈ c :: cs, d.isAlphanum ∧ d.toLower = d) (hne : c ≠ '0') :
    digits (number (c :: cs)) = c :: cs := by
  -- the last digit is the remainder, so the induction takes digits off the end
  induction cs using List.reverseRecOn with
  | nil =>
      obtain ⟨hc, hlower⟩ := h c List.mem_cons_self
      rw [number_singleton, digits_of_lt (rank_lt hc), digit_rank hc, hlower]
  | append_singleton cs d ih =>
      have hrow : c :: (cs ++ [d]) = (c :: cs) ++ [d] := rfl
      rw [hrow] at h ⊢
      obtain ⟨hd, hlower⟩ := h d (by simp)
      have hlt := rank_lt hd
      have hpos : 0 < number (c :: cs) := number_pos (h c (by simp)).1 hne
      have hlow : (rank d + 36 * number (c :: cs)) % 36 = rank d := by omega
      have hhigh : (rank d + 36 * number (c :: cs)) / 36 = number (c :: cs) := by omega
      rw [number_concat, digits_of_ge (by omega), hlow, hhigh,
        ih fun e he => h e (List.mem_append_left _ he), digit_rank hd, hlower]

theorem digits_number_dropZeros {segment : List Char}
    (h : ∀ c ∈ segment, c.isAlphanum ∧ c.toLower = c) :
    digits (number segment) = dropZeros segment := by
  rw [← number_dropZeros]
  have hmem : ∀ c ∈ segment.dropWhile (· == '0'), c ∈ segment :=
    fun c hc => (List.dropWhile_sublist _).subset hc
  rw [dropZeros]
  split
  · exact digits_of_lt (by decide)
  · rename_i c cs hcons
    rw [hcons] at hmem
    refine digits_number_of_head_ne (fun d hd => h d (hmem d hd)) ?_
    have hhead := List.head?_dropWhile_not (· == '0') segment
    simpa [hcons] using hhead

/-- **The digits of the value of a numeral are its plain form.** -/
theorem digits_number {segment : List Char} (h : ∀ c ∈ segment, c.isAlphanum) :
    digits (number segment) = plain segment := by
  rw [plain, ← number_map_toLower h]
  refine digits_number_dropZeros fun c hc => ?_
  obtain ⟨d, hd, rfl⟩ := List.mem_map.1 hc
  exact ⟨isAlphanum_toLower (h d hd), toLower_toLower d⟩

/-! ### Reading segments -/

theorem decodeSegment_eq_ok_iff {position : Nat} {segment : List Char} {id : UInt32} :
    decodeSegment position segment = .ok id ↔ IsNumeral segment ∧ id.toNat = number segment := by
  rw [decodeSegment]
  constructor
  · intro h
    split at h
    · cases h
    · rename_i hne
      split at h
      · rename_i n hn
        obtain ⟨halnum, rfl⟩ := value?_eq_some_iff.1 hn
        split at h
        · rename_i hlt
          cases h
          have hlt' : number segment < 2 ^ 32 := hlt
          exact ⟨⟨hne, halnum, by omega⟩, UInt32.toNat_ofNat_of_lt' hlt⟩
        · cases h
      · cases h
  · rintro ⟨hnum, hid⟩
    have hlt : number segment < UInt32.size := by
      have hle := hnum.number_le
      have hsize : UInt32.size = 2 ^ 32 := rfl
      omega
    rw [if_neg hnum.ne_nil, value?_eq_some_iff.2 ⟨hnum.alphanumeric, rfl⟩]
    simp only [if_pos hlt]
    rw [← hid, UInt32.ofNat_toNat]

/-- What is said of a segment that is no numeral. -/
theorem decodeSegment_of_not_isNumeral {position : Nat} {segment : List Char}
    (h : ¬IsNumeral segment) :
    decodeSegment position segment =
      .error (if segment = [] then .emptySegment position
        else .invalidId (String.ofList segment)) := by
  rw [decodeSegment]
  split
  · rfl
  · rename_i hne
    split
    · rename_i n hn
      obtain ⟨halnum, rfl⟩ := value?_eq_some_iff.1 hn
      split
      · rename_i hlt
        have hlt' : number segment < 2 ^ 32 := hlt
        exact absurd ⟨hne, halnum, by omega⟩ h
      · rfl
    · rfl

/-- Segments are read if all of them are numerals. -/
theorem decodeSegments_eq_ok_iff {position : Nat} {parts : List (List Char)} {ids : List UInt32} :
    decodeSegments position parts = .ok ids ↔
      (∀ part ∈ parts, IsNumeral part) ∧ ids.map UInt32.toNat = parts.map number := by
  induction parts generalizing position ids with
  | nil =>
      simp only [decodeSegments, Except.ok.injEq, List.map_nil, List.map_eq_nil_iff]
      exact ⟨fun h => ⟨fun _ hp => absurd hp List.not_mem_nil, h.symm⟩, fun h => h.2.symm⟩
  | cons part parts ih =>
      rw [decodeSegments]
      constructor
      · intro h
        split at h
        · cases h
        · rename_i id hid
          split at h
          · cases h
          · rename_i ids' hids
            cases h
            obtain ⟨hpart, hnumber⟩ := decodeSegment_eq_ok_iff.1 hid
            obtain ⟨hparts, hnumbers⟩ := ih.1 hids
            exact ⟨List.forall_mem_cons.2 ⟨hpart, hparts⟩, by simp [hnumber, hnumbers]⟩
      · rintro ⟨hparts, hnumbers⟩
        cases ids with
        | nil => simp at hnumbers
        | cons id ids =>
            obtain ⟨hpart, hparts⟩ := List.forall_mem_cons.1 hparts
            simp only [List.map_cons, List.cons.injEq] at hnumbers
            rw [decodeSegment_eq_ok_iff.2 ⟨hpart, hnumbers.1⟩]
            simp only [ih.2 ⟨hparts, hnumbers.2⟩]

/-- The error of the leftmost segment that is no numeral is told. -/
theorem decodeSegments_eq_error_iff {position : Nat} {parts : List (List Char)} {e : TrailError} :
    decodeSegments position parts = .error e ↔
      ∃ good bad rest, parts = good ++ bad :: rest ∧ (∀ part ∈ good, IsNumeral part) ∧
        ¬IsNumeral bad ∧ e = if bad = [] then .emptySegment (position + good.length)
          else .invalidId (String.ofList bad) := by
  induction parts generalizing position with
  | nil => simp [decodeSegments]
  | cons part parts ih =>
      by_cases hpart : IsNumeral part
      · have hlt : number part < 2 ^ 32 := by
          have hle := hpart.number_le
          omega
        have hread : decodeSegment position part = .ok (UInt32.ofNat (number part)) :=
          decodeSegment_eq_ok_iff.2 ⟨hpart, UInt32.toNat_ofNat_of_lt' hlt⟩
        have hstep : decodeSegments position (part :: parts) = .error e ↔
            decodeSegments (position + 1) parts = .error e := by
          simp only [decodeSegments, hread]
          cases decodeSegments (position + 1) parts <;> simp
        rw [hstep, ih]
        constructor
        · rintro ⟨good, bad, rest, rfl, hgood, hbad, rfl⟩
          refine ⟨part :: good, bad, rest, rfl, List.forall_mem_cons.2 ⟨hpart, hgood⟩, hbad, ?_⟩
          have hcount : position + (part :: good).length = position + 1 + good.length := by
            rw [List.length_cons]
            omega
          rw [hcount]
        · rintro ⟨good, bad, rest, hparts, hgood, hbad, rfl⟩
          cases good with
          | nil =>
              cases hparts
              exact absurd hpart hbad
          | cons first good =>
              cases hparts
              refine ⟨good, bad, rest, rfl, fun p hp => hgood p (List.mem_cons_of_mem _ hp), hbad, ?_⟩
              have hcount : position + (part :: good).length = position + 1 + good.length := by
                rw [List.length_cons]
                omega
              rw [hcount]
      · have hread : decodeSegments position (part :: parts) = .error (if part = [] then
            .emptySegment position else .invalidId (String.ofList part)) := by
          rw [decodeSegments, decodeSegment_of_not_isNumeral hpart]
        rw [hread]
        constructor
        · intro h
          cases h
          exact ⟨[], part, parts, rfl, fun _ hp => absurd hp List.not_mem_nil, hpart, by simp⟩
        · rintro ⟨good, bad, rest, hparts, hgood, -, rfl⟩
          cases good with
          | nil =>
              cases hparts
              simp
          | cons first good =>
              cases hparts
              exact absurd (hgood part List.mem_cons_self) hpart

/-! ### Segments of a text -/

theorem join_cons {part : List Char} {parts : List (List Char)} (h : parts ≠ []) :
    join (part :: parts) = part ++ '.' :: join parts := by
  cases parts with
  | nil => exact absurd rfl h
  | cons next parts => rfl

theorem join_eq_intercalate (parts : List (List Char)) : join parts = ['.'].intercalate parts := by
  induction parts with
  | nil => rfl
  | cons part parts ih =>
      cases parts with
      | nil => simp [join]
      | cons next parts =>
          rw [join_cons (List.cons_ne_nil _ _), ih, List.intercalate_cons_cons, List.append_assoc]
          rfl

/-- The segments of a text make up the text. -/
theorem join_segments (text : List Char) : join (segments text) = text := by
  induction text with
  | nil => rfl
  | cons c cs ih =>
      rw [segments]
      split
      · rename_i hc
        rw [join_cons (segments_ne_nil cs), ih, hc, List.nil_append]
      · split
        · rename_i segment rest hseg
          rw [hseg] at ih
          cases rest with
          | nil => rw [← ih]; rfl
          | cons next rest => rw [← ih]; rfl
        · rename_i hnil
          exact absurd hnil (segments_ne_nil cs)

theorem point_notMem_segments (text : List Char) {segment : List Char} (h : segment ∈ segments text) :
    '.' ∉ segment := by
  induction text generalizing segment with
  | nil =>
      rw [List.mem_singleton.1 h]
      exact List.not_mem_nil
  | cons c cs ih =>
      rw [segments] at h
      split at h
      · rcases List.mem_cons.1 h with rfl | h
        · exact List.not_mem_nil
        · exact ih h
      · rename_i hc
        split at h
        · rename_i first rest hseg
          rw [hseg] at ih
          rcases List.mem_cons.1 h with rfl | h
          · have hfirst : '.' ∉ first := ih List.mem_cons_self
            simp [hfirst, Ne.symm hc]
          · exact ih (List.mem_cons_of_mem _ h)
        · rename_i hnil
          exact absurd hnil (segments_ne_nil cs)

theorem IsNumeral.point_notMem {segment : List Char} (h : IsNumeral segment) : '.' ∉ segment :=
  fun hp => point_ne_of_isAlphanum (h.alphanumeric _ hp) rfl

/-- The leftmost segments of a text, as long as there are no points in them. -/
theorem segments_join_append {good : List (List Char)} {bad : List Char}
    (rest : List (List Char)) (hgood : ∀ part ∈ good, IsNumeral part) (hbad : '.' ∉ bad) :
    ∃ others, segments (join (good ++ bad :: rest)) = good ++ bad :: others := by
  induction good with
  | nil =>
      cases rest with
      | nil => exact ⟨[], segments_of_notMem bad hbad⟩
      | cons next rest => exact ⟨_, segments_append_point bad _ hbad⟩
  | cons part good ih =>
      obtain ⟨hpart, hgood⟩ := List.forall_mem_cons.1 hgood
      obtain ⟨others, hothers⟩ := ih hgood
      refine ⟨others, ?_⟩
      rw [List.cons_append, join_cons (by simp), segments_append_point part _ hpart.point_notMem,
        hothers, List.cons_append]

/-! ### Tokens -/

/-- A text with a mark in front and something behind it is read segment by segment. -/
theorem decode_of_toList {token : String} {body : List Char} (h : token.toList = '#' :: body)
    (hne : body ≠ []) : decode token = decodeSegments 0 (segments body) := by
  rw [decode, h]
  cases body with
  | nil => exact absurd rfl hne
  | cons c cs => rfl

theorem decode_of_head_ne {token : String} (h : token.toList.head? ≠ some '#') :
    decode token = .error .missingMarker := by
  rw [decode]
  split
  · rename_i hl
    simp [hl] at h
  · rename_i hl
    simp [hl] at h
  · rfl

theorem eq_marker_iff {token : String} : token = "#" ↔ token.toList = ['#'] := by
  rw [← String.toList_inj]
  rfl

theorem decode_eq_ok_iff {token : String} {ids : List UInt32} :
    decode token = .ok ids ↔ ∃ parts, Writes parts ids token := by
  constructor
  · intro h
    cases hbody : token.toList with
    | nil => rw [decode_of_head_ne (by simp [hbody])] at h; cases h
    | cons c body =>
        by_cases hc : c = '#'
        · subst hc
          by_cases hnil : body = []
          · subst hnil
            rw [decode, hbody] at h
            cases h
            exact ⟨[], by simpa using hbody, fun _ hp => absurd hp List.not_mem_nil, rfl⟩
          · rw [decode_of_toList hbody hnil, decodeSegments_eq_ok_iff] at h
            refine ⟨segments body, ?_, h.1, h.2⟩
            rw [← join_eq_intercalate, join_segments, hbody]
        · rw [decode_of_head_ne (by simp [hbody, hc])] at h
          cases h
  · rintro ⟨parts, htext, hparts, hnumbers⟩
    rw [← join_eq_intercalate] at htext
    cases parts with
    | nil =>
        have hids : ids = [] := by simpa using hnumbers
        rw [decode, htext, hids]
        rfl
    | cons part parts =>
        have hne : join (part :: parts) ≠ [] :=
          fun hnil => by simpa using join_eq_nil (fun p hp => (hparts p hp).ne_nil) hnil
        rw [decode_of_toList htext hne,
          segments_join _ (by simp) fun p hp => (hparts p hp).point_notMem]
        exact decodeSegments_eq_ok_iff.2 ⟨hparts, hnumbers⟩

theorem decode_eq_error_iff {token : String} {e : TrailError} :
    decode token = .error e ↔ Refuses token e := by
  constructor
  · intro h
    by_cases hhead : token.toList.head? = some '#'
    · obtain ⟨body, hbody⟩ := List.head?_eq_some_iff.1 hhead
      by_cases hnil : body = []
      · rw [decode, hbody, hnil] at h
        cases h
      · rw [decode_of_toList hbody hnil, decodeSegments_eq_error_iff] at h
        obtain ⟨good, bad, rest, hparts, hgood, hbad, rfl⟩ := h
        have htext : token.toList = '#' :: ['.'].intercalate (good ++ bad :: rest) := by
          rw [← hparts, ← join_eq_intercalate, join_segments, hbody]
        by_cases hempty : bad = []
        · subst hempty
          rw [if_pos rfl, Nat.zero_add]
          refine .emptySegment good rest (fun hm => hnil ?_) htext hgood
          simpa [hbody] using eq_marker_iff.1 hm
        · rw [if_neg hempty]
          have hpoint : '.' ∉ bad := point_notMem_segments body (by simp [hparts])
          exact .invalidId good rest bad hempty hpoint hbad htext hgood
    · rw [decode_of_head_ne hhead] at h
      cases h
      exact .missingMarker hhead
  · intro h
    cases h with
    | missingMarker hhead => exact decode_of_head_ne hhead
    | emptySegment good rest hne htext hgood =>
        rw [← join_eq_intercalate] at htext
        have hbody : join (good ++ [] :: rest) ≠ [] := by
          intro hnil
          rw [hnil] at htext
          exact hne (eq_marker_iff.2 htext)
        obtain ⟨others, hothers⟩ := segments_join_append rest hgood (List.not_mem_nil (a := '.'))
        rw [decode_of_toList htext hbody, hothers]
        exact decodeSegments_eq_error_iff.2
          ⟨good, [], others, rfl, hgood, fun h => h.ne_nil rfl, by simp⟩
    | invalidId good rest bad hne hpoint hbad htext hgood =>
        rw [← join_eq_intercalate] at htext
        obtain ⟨others, hothers⟩ := segments_join_append rest hgood hpoint
        have hbody : join (good ++ bad :: rest) ≠ [] := by
          intro hnil
          rw [hnil] at hothers
          have hlength := congrArg List.length hothers
          cases good with
          | nil =>
              cases hothers
              exact hne rfl
          | cons part good => simp [segments] at hlength
        rw [decode_of_toList htext hbody, hothers]
        exact decodeSegments_eq_error_iff.2
          ⟨good, bad, others, rfl, hgood, hbad, by rw [if_neg hne]⟩

/-- Writing the ids of a token again gives its plain form. -/
theorem toList_encode_of_writes {parts : List (List Char)} {ids : List UInt32} {token : String}
    (h : Writes parts ids token) :
    (encode ids).toList = '#' :: ['.'].intercalate (parts.map plain) := by
  have hdigits : ids.map (fun id => digits id.toNat) = parts.map plain :=
    calc ids.map (fun id => digits id.toNat)
        = (ids.map UInt32.toNat).map digits := by rw [List.map_map]; rfl
      _ = (parts.map number).map digits := by rw [h.numbers]
      _ = parts.map plain := by
          rw [List.map_map]
          exact List.map_congr_left fun part hp => digits_number (h.numerals part hp).alphanumeric
  rw [toList_encode, hdigits, join_eq_intercalate]

/-- **The codec of tokens.**  The token of any ids is read as these ids, so that different ids have
different tokens.  Reading accepts exactly the texts that consist of a mark and of numerals between
points, and gives their values; any other text is refused for its leftmost fault.  What was read is
written in plain form. -/
theorem token_codec :
    (∀ ids, decode (encode ids) = .ok ids) ∧ Function.Injective encode ∧
      (∀ token ids, decode token = .ok ids ↔ ∃ parts, Writes parts ids token) ∧
      (∀ token e, decode token = .error e ↔ Refuses token e) ∧
      ∀ token ids parts, Writes parts ids token →
        (encode ids).toList = '#' :: ['.'].intercalate (parts.map plain) :=
  ⟨decode_encode, fun _ _ => encode_injective, fun _ _ => decode_eq_ok_iff,
    fun _ _ => decode_eq_error_iff, fun _ _ _ => toList_encode_of_writes⟩

/-- A token with capitals and leading zeros, and its plain form. -/
theorem token_codec_capitals :
    Writes [['0', '0', 'A'], ['0'], ['1', 'Z']] [10, 0, 71] "#00A.0.1Z" ∧
      (encode [10, 0, 71]).toList =
        '#' :: ['.'].intercalate ([['0', '0', 'A'], ['0'], ['1', 'Z']].map plain) := by
  have hwrites : Writes [['0', '0', 'A'], ['0'], ['1', 'Z']] [10, 0, 71] "#00A.0.1Z" := by
    refine ⟨by decide, ?_, by decide⟩
    intro part hpart
    simp only [List.mem_cons, List.not_mem_nil, or_false] at hpart
    rcases hpart with rfl | rfl | rfl
    · exact ⟨by decide, List.all_eq_true.1 (by decide), by decide⟩
    · exact ⟨by decide, List.all_eq_true.1 (by decide), by decide⟩
    · exact ⟨by decide, List.all_eq_true.1 (by decide), by decide⟩
  exact ⟨hwrites, token_codec.2.2.2.2 _ _ _ hwrites⟩

end Trail

end Gamebook
