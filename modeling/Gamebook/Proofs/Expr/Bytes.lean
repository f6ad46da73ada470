/-
**Tokens of characters and tokens of bytes.**

The scanner of expressions goes through the bytes of a source; here its tokens are shown to be those
of the characters.  It only ever asks for ASCII characters, and a byte of any other character is
none of them.  So it stands at the beginning of a character at each token, and every lexeme that it
cuts out ends at the end of one.

Main definitions:

* `Text.Alike` — two rows with the same ASCII characters up to the first character that is none;
* `Token.inBytes` — a token with the number of its characters, counted in bytes.

Main results:

* `Text.alike_codes` — a text and its bytes are alike;
* `Token.numberLexeme_alike`, `Token.sign?_alike` — what is read off alike rows is the same;
* `Token.scanBytes_eq` — **one token of the bytes is one of the text**, and its lexeme can be cut
  out;
* `Token.ofBytes_eq` — **the tokens of the bytes are those of the text**, and no cut fails.
-/

import Gamebook.Expr.Bytes
import Gamebook.Proofs.Expr.Lexemes
import Gamebook.Proofs.Macro.Spelling

set_option relaxedAutoImplicit false
set_option autoImplicit false

namespace Gamebook

namespace Text

variable {text bytes : List Char} {c : Char} {p : Char → Bool}

/-! ### A text and its bytes -/

/-- Two rows have the same ASCII characters up to the first character that is none; there both have
such a one. -/
inductive Alike : List Char → List Char → Prop
  | nil : Alike [] []
  | ascii {text bytes : List Char} (c : Char) (h : Alike text bytes) : Alike (c :: text) (c :: bytes)
  | other {c d : Char} (hc : ¬ IsAscii c) (hd : ¬ IsAscii d) (text bytes : List Char) :
      Alike (c :: text) (d :: bytes)

@[simp] theorem codes_nil : codes [] = [] := rfl

theorem codes_append (text rest : List Char) : codes (text ++ rest) = codes text ++ codes rest := by
  rw [codes, utf8_append, List.map_append]
  rfl

@[simp] theorem length_codes (text : List Char) : (codes text).length = size text := by
  rw [codes, List.length_map, length_utf8]

theorem codes_ascii (hc : IsAscii c) (text : List Char) : codes (c :: text) = c :: codes text := by
  have hspell : utf8 [c] = [UInt8.ofNat c.toNat] := by
    rw [utf8, List.flatMap_singleton]
    exact Form.bytes.spell_ascii c hc
  have hone : codes [c] = [c] := by
    rw [codes, hspell, List.map_singleton, Form.toNat_byte hc, Char.ofNat_toNat]
  exact (codes_append [c] text).trans (congrArg (· ++ codes text) hone)

/-- The bytes of a character that is not ASCII are none of an ASCII character. -/
theorem codes_other (hc : ¬ IsAscii c) (text : List Char) :
    ∃ d behind, codes (c :: text) = d :: behind ∧ ¬ IsAscii d := by
  obtain ⟨b, bs, hb⟩ := List.exists_cons_of_ne_nil (Form.bytes.ne_nil c)
  have hutf8 : utf8 (c :: text) = b :: (bs ++ utf8 text) := by
    rw [utf8, List.flatMap_cons]
    exact congrArg (· ++ utf8 text) hb
  refine ⟨Char.ofNat b.toNat, (bs ++ utf8 text).map fun b => Char.ofNat b.toNat, ?_, ?_⟩
  · rw [codes, hutf8, List.map_cons]
  · have hmem : b ∈ Form.bytes.spell c := hb ▸ List.mem_cons_self
    have hlarge : 128 ≤ b.toNat := Form.le_of_mem_utf8 hc hmem
    have hvalid : b.toNat.isValidChar := .inl (Nat.lt_trans b.toNat_lt (by decide))
    have hnat : (Char.ofNat b.toNat).toNat = b.toNat := by
      rw [Char.toNat_ofNat, if_pos hvalid]
    rw [IsAscii, hnat]
    exact Nat.not_lt.2 hlarge

/-- A text and its bytes are alike. -/
theorem alike_codes (text : List Char) : Alike text (codes text) := by
  induction text with
  | nil => exact .nil
  | cons c text ih =>
      by_cases hc : IsAscii c
      · exact codes_ascii hc text ▸ .ascii c ih
      · obtain ⟨d, behind, hcodes, hd⟩ := codes_other hc text
        exact hcodes ▸ .other hc hd text behind

/-! ### What alike rows share -/

/-- A class of ASCII characters. -/
def IsAsciiClass (p : Char → Bool) : Prop := ∀ c, p c = true → IsAscii c

theorem IsAsciiClass.eq_false (hp : IsAsciiClass p) (hc : ¬ IsAscii c) : p c = false :=
  Bool.eq_false_iff.2 fun h => hc (hp c h)

theorem Alike.takeWhile (h : Alike text bytes) (hp : IsAsciiClass p) :
    bytes.takeWhile p = text.takeWhile p := by
  induction h with
  | nil => rfl
  | ascii c h ih => rw [List.takeWhile_cons, List.takeWhile_cons, ih]
  | other hc hd text bytes =>
      rw [List.takeWhile_cons, List.takeWhile_cons, hp.eq_false hc, hp.eq_false hd]
      rfl

theorem Alike.dropWhile (h : Alike text bytes) (hp : IsAsciiClass p) :
    Alike (text.dropWhile p) (bytes.dropWhile p) := by
  induction h with
  | nil => exact .nil
  | ascii c h ih =>
      rw [List.dropWhile_cons, List.dropWhile_cons]
      split
      · exact ih
      · exact .ascii c h
  | other hc hd text bytes =>
      rw [List.dropWhile_cons, List.dropWhile_cons, hp.eq_false hc, hp.eq_false hd]
      exact .other hc hd text bytes

theorem Alike.isPrefixOf (h : Alike text bytes) {mark : List Char} (hm : ∀ c ∈ mark, IsAscii c) :
    mark.isPrefixOf bytes = mark.isPrefixOf text := by
  induction h generalizing mark with
  | nil => rfl
  | ascii c h ih =>
      cases mark with
      | nil => rfl
      | cons m mark =>
          rw [List.isPrefixOf_cons_cons, List.isPrefixOf_cons_cons,
            ih fun d hd => hm d (List.mem_cons_of_mem _ hd)]
  | @other c d hc hd text bytes =>
      cases mark with
      | nil => rfl
      | cons m mark =>
          have hm := hm m List.mem_cons_self
          have hmc : m ≠ c := fun heq => hc (heq ▸ hm)
          have hmd : m ≠ d := fun heq => hd (heq ▸ hm)
          rw [List.isPrefixOf_cons_cons, List.isPrefixOf_cons_cons, beq_eq_false_iff_ne.2 hmc,
            beq_eq_false_iff_ne.2 hmd, Bool.false_and, Bool.false_and]

/-- Behind the same ASCII characters alike rows are alike. -/
theorem Alike.drop (h : Alike text bytes) {lexeme : List Char} (hl : lexeme <+: text)
    (hascii : ∀ c ∈ lexeme, IsAscii c) :
    Alike (text.drop lexeme.length) (bytes.drop lexeme.length) := by
  induction h generalizing lexeme with
  | nil => 
      rw [List.drop_nil]
      exact .nil
  | ascii c h ih =>
      cases lexeme with
      | nil => exact .ascii c h
      | cons m lexeme =>
          exact ih (List.cons_prefix_cons.1 hl).2 fun d hd => hascii d (List.mem_cons_of_mem _ hd)
  | @other c d hc hd text bytes =>
      cases lexeme with
      | nil => exact .other hc hd text bytes
      | cons m lexeme =>
          obtain ⟨rfl, -⟩ := List.cons_prefix_cons.1 hl
          exact absurd (hascii _ List.mem_cons_self) hc

/-- A text of ASCII characters has one byte for each. -/
theorem size_of_ascii (h : ∀ c ∈ text, IsAscii c) : size text = text.length := by
  induction text with
  | nil => rfl
  | cons c text ih =>
      have hc : c.utf8Size = 1 := Char.utf8Size_eq_one_iff.2
        (Nat.le_of_lt_succ (h c List.mem_cons_self))
      rw [size_cons, hc, ih fun d hd => h d (List.mem_cons_of_mem _ hd), List.length_cons,
        Nat.add_comm]

end Text

namespace Token

open Text

variable {text bytes lexeme : List Char} {c d : Char}

/-! ### What is read off alike rows -/

theorem isDigit_ascii : IsAsciiClass Char.isDigit := by
  intro c hc
  simp only [Char.isDigit, Bool.and_eq_true, decide_eq_true_eq] at hc
  exact Nat.lt_of_le_of_lt hc.2 (by decide)

theorem isWordChar_ascii : IsAsciiClass isWordChar := by
  intro c hc
  simp only [isWordChar, Char.isAlphanum, Char.isAlpha, Char.isUpper, Char.isLower, Char.isDigit,
    Bool.or_eq_true, Bool.and_eq_true, decide_eq_true_eq, beq_iff_eq] at hc
  rcases hc with ((⟨-, h⟩ | ⟨-, h⟩) | ⟨-, h⟩) | rfl
  · exact Nat.lt_of_le_of_lt h (by decide)
  · exact Nat.lt_of_le_of_lt h (by decide)
  · exact Nat.lt_of_le_of_lt h (by decide)
  · decide

theorem isSpacing_ascii : IsAsciiClass isSpacing := by
  intro c hc
  simp only [isSpacing, Bool.or_eq_true, beq_iff_eq] at hc
  rcases hc with (((rfl | rfl) | rfl) | rfl) | rfl <;> decide

theorem isSign_ascii : ∀ kind ∈ signs, ∀ c ∈ kind.written, IsAscii c := by
  simp [signs, TokenKind.written, IsAscii]

theorem ne_of_not_isAscii {m : Char} (hc : ¬ IsAscii c) (hm : IsAscii m) : c ≠ m :=
  fun heq => hc (heq ▸ hm)

theorem startsNumber_cons (c : Char) (rest : List Char) : startsNumber (c :: rest) =
    if c = '.' then rest.head?.any Char.isDigit else c.isDigit := by
  split
  · rename_i hc
    subst hc
    cases rest <;> rfl
  · rename_i hc
    unfold startsNumber
    split
    · rename_i heq
      exact absurd (List.head_eq_of_cons_eq heq) hc
    · rename_i heq
      rw [List.head_eq_of_cons_eq heq]
    · rename_i heq
      cases heq

theorem head?_any_alike (h : Alike text bytes) {p : Char → Bool} (hp : IsAsciiClass p) :
    bytes.head?.any p = text.head?.any p := by
  cases h with
  | nil => rfl
  | ascii c h => rfl
  | other hc hd text bytes => simp [hp.eq_false hc, hp.eq_false hd]

theorem startsNumber_alike (h : Alike text bytes) : startsNumber bytes = startsNumber text := by
  cases h with
  | nil => rfl
  | ascii c h => rw [startsNumber_cons, startsNumber_cons, head?_any_alike h isDigit_ascii]
  | other hc hd text bytes =>
      rw [startsNumber_cons, startsNumber_cons, if_neg (ne_of_not_isAscii hc (by decide)),
        if_neg (ne_of_not_isAscii hd (by decide)), isDigit_ascii.eq_false hc,
        isDigit_ascii.eq_false hd]

theorem pointLexeme_alike (h : Alike text bytes) : pointLexeme bytes = pointLexeme text := by
  have hnone : ∀ {c : Char} (rest : List Char), c ≠ '.' → pointLexeme (c :: rest) = [] := by
    intro c rest hc
    unfold pointLexeme
    split
    · rename_i heq
      exact absurd (List.head_eq_of_cons_eq heq) hc
    · rfl
  cases h with
  | nil => rfl
  | ascii c h =>
      by_cases hc : c = '.'
      · subst hc
        rw [pointLexeme, pointLexeme, h.takeWhile isDigit_ascii]
      · rw [hnone _ hc, hnone _ hc]
  | other hc hd text bytes =>
      rw [hnone _ (ne_of_not_isAscii hc (by decide)), hnone _ (ne_of_not_isAscii hd (by decide))]

theorem exponentLexeme_alike (h : Alike text bytes) :
    exponentLexeme bytes = exponentLexeme text := by
  cases h with
  | nil => rfl
  | ascii c h =>
      cases h with
      | nil => rfl
      | ascii d h => simp only [exponentLexeme, h.takeWhile isDigit_ascii]
      | @other d e hd he text bytes =>
          simp [exponentLexeme, isDigit_ascii.eq_false hd, isDigit_ascii.eq_false he,
            ne_of_not_isAscii hd (m := '+') (by decide), ne_of_not_isAscii hd (m := '-') (by decide),
            ne_of_not_isAscii he (m := '+') (by decide), ne_of_not_isAscii he (m := '-') (by decide)]
  | @other c d hc hd text bytes =>
      have hnone : ∀ {c : Char} (rest : List Char), ¬ IsAscii c → exponentLexeme (c :: rest) = [] := by
        intro c rest hc
        cases rest with
        | nil => rfl
        | cons sign rest =>
            simp [exponentLexeme, ne_of_not_isAscii hc (m := 'e') (by decide),
              ne_of_not_isAscii hc (m := 'E') (by decide)]
      rw [hnone text hc, hnone bytes hd]

theorem isNumberChar_ascii : IsAsciiClass isNumberChar := by
  intro c hc
  rw [isNumberChar, Bool.or_eq_true, decide_eq_true_iff] at hc
  rcases hc with hc | hc
  · exact isDigit_ascii c hc
  · simp only [List.mem_cons, List.not_mem_nil, or_false] at hc
    rcases hc with rfl | rfl | rfl | rfl | rfl <;> decide

theorem numberLexeme_ascii (text : List Char) : ∀ c ∈ numberLexeme text, IsAscii c :=
  fun c hc => isNumberChar_ascii c (numberLexeme_all text c hc)

theorem numberLexeme_alike (h : Alike text bytes) : numberLexeme bytes = numberLexeme text := by
  have hrest := h.dropWhile isDigit_ascii
  have hpoint := pointLexeme_alike hrest
  have hbehind := hrest.drop (pointLexeme_begins _) fun c hc =>
    isNumberChar_ascii c ((isPoint_pointLexeme _).all c hc)
  rw [numberLexeme_eq, numberLexeme_eq, h.takeWhile isDigit_ascii, hpoint,
    exponentLexeme_alike hbehind]

theorem sign?_alike (h : Alike text bytes) : sign? bytes = sign? text := by
  have hfind : ∀ kinds : List TokenKind, (∀ kind ∈ kinds, kind ∈ signs) →
      kinds.find? (fun kind => kind.written.isPrefixOf bytes) =
        kinds.find? fun kind => kind.written.isPrefixOf text := by
    intro kinds hkinds
    induction kinds with
    | nil => rfl
    | cons kind kinds ih =>
        obtain ⟨hkind, hkinds⟩ := List.forall_mem_cons.1 hkinds
        rw [List.find?_cons, List.find?_cons, h.isPrefixOf (isSign_ascii kind hkind), ih hkinds]
  rw [sign?_eq, sign?_eq, hfind signs fun _ hkind => hkind]

/-! ### One token -/

/-- A token found in `text`, with the number of its characters counted in bytes. -/
def inBytes (text : List Char) (found : TokenKind × Nat) : TokenKind × Nat :=
  (found.1, size (text.take found.2))

variable {before rest : List Char}

theorem from?_behind (before rest : List Char) :
    from? (size before) (before ++ rest) = some rest := by
  rw [from?, (splitAt?_eq_some_iff _ _ _ _).2 ⟨rfl, rfl⟩]
  rfl

/-- A lexeme of ASCII characters is cut out by its length. -/
theorem slice?_ascii {inside : List Char} (hinside : ∀ c ∈ inside, IsAscii c)
    (before behind : List Char) :
    slice? (size before) (size before + inside.length) (before ++ (inside ++ behind)) =
      some inside := by
  rw [← size_of_ascii hinside, slice?_between]

/-- A row of ASCII characters takes as many bytes. -/
theorem size_take_ascii {inside : List Char} (hinside : ∀ c ∈ inside, IsAscii c)
    (behind : List Char) :
    size ((inside ++ behind).take inside.length) = inside.length := by
  rw [List.take_left, size_of_ascii hinside]

theorem isWordChar_takeWhile_ascii (text : List Char) :
    ∀ c ∈ text.takeWhile isWordChar, IsAscii c :=
  fun c hc => isWordChar_ascii c (List.mem_takeWhile_imp hc)

/-- The bytes behind an ASCII character are only asked for what they share with the text. -/
theorem scanBytes_codes (source : List Char) (start : Nat) (c : Char) (rest : List Char) :
    scanBytes source start c (codes rest) = scanBytes source start c rest := by
  have h := alike_codes rest
  have hcons : Alike (c :: rest) (c :: codes rest) := .ascii c h
  simp only [scanBytes, startsNumber_alike hcons, numberLexeme_alike hcons, sign?_alike hcons,
    h.takeWhile isWordChar_ascii]

section Ascii

variable (hc : IsAscii c) (rest : List Char)

include hc

theorem size_append_ascii (before : List Char) : size (before ++ [c]) = size before + 1 := by
  rw [size_append, size_cons, Char.utf8Size_eq_one_iff.2 (Nat.le_of_lt_succ hc), size_nil]

theorem size_take_succ (count : Nat) :
    size ((c :: rest).take (count + 1)) = size (rest.take count) + 1 := by
  rw [List.take_succ_cons, size_cons, Char.utf8Size_eq_one_iff.2 (Nat.le_of_lt_succ hc),
    Nat.add_comm]

/-- One token of an ASCII character is the same if it is read from the bytes. -/
theorem scanBytes_ascii (before : List Char) :
    scanBytes (before ++ c :: rest) (size before) c rest =
      some ((scan (size before) c rest).map (inBytes (c :: rest))) := by
  have hsource : before ++ c :: rest = (before ++ [c]) ++ rest :=
    (List.append_assoc before [c] rest).symm
  obtain ⟨behind, hbehind⟩ := exists_takeWhile_append isWordChar rest
  have hwords := isWordChar_takeWhile_ascii rest
  have htake := size_take_ascii hwords behind
  rw [← hbehind] at htake
  rw [scanBytes, scan]
  by_cases hquote : c = '"' ∨ c = '\''
  · rw [if_pos hquote, if_pos hquote, hsource, ← size_append_ascii hc before, from?_behind,
      Option.map_some]
    cases readString c rest with
    | none => rfl
    | some found => simp only [Except.map, inBytes, size_take_succ hc]
  rw [if_neg hquote, if_neg hquote]
  by_cases hstart : startsNumber (c :: rest) = true
  · obtain ⟨behind, hnumber⟩ := numberLexeme_prefix (c :: rest)
    have hascii := numberLexeme_ascii (c :: rest)
    have hcut := slice?_ascii hascii before behind
    have htake := size_take_ascii hascii behind
    rw [hnumber] at hcut htake
    obtain ⟨n, hn⟩ := exists_read?_numberLexeme hstart
    simp only [if_pos hstart, hcut, Option.map_some, hn, Except.map, inBytes, htake]
  rw [if_neg hstart, if_neg hstart]
  by_cases hdollar : c = '$'
  · have hcut := slice?_ascii hwords (before ++ [c]) behind
    rw [← hbehind, size_append_ascii hc, ← hsource] at hcut
    rw [if_pos hdollar, if_pos hdollar]
    by_cases hname : rest.takeWhile isWordChar = []
    · simp only [hname]
      rfl
    · have hlength : (rest.takeWhile isWordChar).length ≠ 0 := fun h =>
        hname (List.length_eq_zero_iff.1 h)
      have hempty : (rest.takeWhile isWordChar).isEmpty = false := List.isEmpty_eq_false_iff.2 hname
      simp only [hlength, hempty, if_false, Bool.false_eq_true, hcut, Option.map_some, Except.map,
        inBytes, size_take_succ hc, htake]
  rw [if_neg hdollar, if_neg hdollar]
  by_cases hword : isWordChar c = true
  · have hascii : ∀ d ∈ c :: rest.takeWhile isWordChar, IsAscii d :=
      List.forall_mem_cons.2 ⟨hc, hwords⟩
    have hcut := slice?_ascii hascii before behind
    rw [List.cons_append, ← hbehind, List.length_cons] at hcut
    simp only [if_pos hword, hcut, Option.map_some, Except.map, inBytes, List.length_cons,
      size_take_succ hc, htake]
  rw [if_neg hword, if_neg hword]
  cases hsign : sign? (c :: rest) with
  | none =>
      rw [from?_behind]
      rfl
  | some found =>
      obtain ⟨kind, count⟩ := found
      obtain ⟨hmem, ⟨behind, hbehind⟩, rfl⟩ := sign?_written hsign
      have htake := size_take_ascii (isSign_ascii kind hmem) behind
      rw [← hbehind] at htake
      simp only [Except.map, inBytes, htake]

end Ascii

/-- No sign begins with a character that is not ASCII. -/
theorem sign?_other (hc : ¬ IsAscii c) (rest : List Char) : sign? (c :: rest) = none := by
  cases hsign : sign? (c :: rest) with
  | none => rfl
  | some found =>
      obtain ⟨kind, count⟩ := found
      obtain ⟨hmem, ⟨behind, hbehind⟩, -⟩ := sign?_written hsign
      have hscans : Scans kind.written [] kind := Scans.sign (isSign_of_mem kind hmem) (by simp)
      obtain ⟨first, inside, hwritten, -⟩ := hscans
      have hfirst := isSign_ascii kind hmem first (hwritten ▸ List.mem_cons_self)
      rw [hwritten] at hbehind
      exact absurd (List.head_eq_of_cons_eq hbehind ▸ hfirst) hc

/-- No token begins with a character that is not ASCII. -/
theorem scan_other (hc : ¬ IsAscii c) (offset : Nat) (rest : List Char) :
    scan offset c rest = .error (.unexpectedChar c offset) := by
  have hne : ∀ m, IsAscii m → c ≠ m := fun m => ne_of_not_isAscii hc
  have hstart : startsNumber (c :: rest) = false :=
    startsNumber_eq_false (isDigit_ascii.eq_false hc) (hne '.' (by decide))
  rw [scan, if_neg (not_or.2 ⟨hne '"' (by decide), hne '\'' (by decide)⟩), hstart,
    if_neg Bool.false_ne_true, if_neg (hne '$' (by decide)), isWordChar_ascii.eq_false hc,
    if_neg Bool.false_ne_true, sign?_other hc]

/-- Nor does one with a byte of such a character, and the character is then cut out of the text. -/
theorem scanBytes_other (hc : ¬ IsAscii c) (hd : ¬ IsAscii d) (before rest bytes : List Char) :
    scanBytes (before ++ c :: rest) (size before) d bytes =
      some ((scan (size before) c rest).map (inBytes (c :: rest))) := by
  have hne : ∀ m, IsAscii m → d ≠ m := fun m => ne_of_not_isAscii hd
  have hstart : startsNumber (d :: bytes) = false :=
    startsNumber_eq_false (isDigit_ascii.eq_false hd) (hne '.' (by decide))
  rw [scan_other hc, scanBytes, if_neg (not_or.2 ⟨hne '"' (by decide), hne '\'' (by decide)⟩),
    hstart, if_neg Bool.false_ne_true, if_neg (hne '$' (by decide)), isWordChar_ascii.eq_false hd,
    if_neg Bool.false_ne_true, sign?_other hd]
  simp only [from?_behind, Option.map_some, List.headD_cons, Except.map]

/-- **One token of the bytes is one of the text**, and its lexeme can be cut out. -/
theorem scanBytes_eq {bytes : List Char} (h : codes (c :: rest) = d :: bytes)
    (before : List Char) :
    scanBytes (before ++ c :: rest) (size before) d bytes =
      some ((scan (size before) c rest).map (inBytes (c :: rest))) := by
  by_cases hc : IsAscii c
  · rw [codes_ascii hc] at h
    cases h
    rw [scanBytes_codes, scanBytes_ascii hc]
  · obtain ⟨d', behind, hcodes, hd⟩ := codes_other hc rest
    rw [hcodes] at h
    cases h
    exact scanBytes_other hc hd before rest bytes

/-! ### All tokens -/

theorem isSpacing_alike {bytes : List Char} (h : codes (c :: rest) = d :: bytes) :
    isSpacing d = isSpacing c := by
  by_cases hc : IsAscii c
  · rw [codes_ascii hc] at h
    cases h
    rfl
  · obtain ⟨d', behind, hcodes, hd⟩ := codes_other hc rest
    rw [hcodes] at h
    cases h
    rw [isSpacing_ascii.eq_false hc, isSpacing_ascii.eq_false hd]

theorem exists_codes_cons (c : Char) (rest : List Char) :
    ∃ d bytes, codes (c :: rest) = d :: bytes := by
  by_cases hc : IsAscii c
  · exact ⟨c, codes rest, codes_ascii hc rest⟩
  · obtain ⟨d, bytes, h, -⟩ := codes_other hc rest
    exact ⟨d, bytes, h⟩

/-- The bytes behind a lexeme are those of the text behind it. -/
theorem drop_codes {inside behind bytes : List Char}
    (h : codes (c :: (inside ++ behind)) = d :: bytes) :
    bytes.drop (size (c :: inside) - 1) = codes behind := by
  have hpos : 0 < size (c :: inside) := Nat.lt_of_lt_of_le c.utf8Size_pos (Nat.le_add_right _ _)
  have hcons : (d :: bytes).drop (size (c :: inside) - 1 + 1) = codes behind := by
    rw [← h, ← List.cons_append, codes_append, Nat.sub_add_cancel hpos, ← length_codes,
      List.drop_left]
  exact hcons

/-- The tokens of a text that stands behind another one: induction on the text, which moves piece
by piece to the one before it. -/
theorem ofBytesAt_eq (before text : List Char) :
    ofBytesAt (before ++ text) (size before) (codes text) = some (ofCharsAt (size before) text) := by
  match text with
  | [] => rw [codes_nil, ofBytesAt, ofCharsAt]
  | c :: rest =>
      obtain ⟨d, bytes, hcodes⟩ := exists_codes_cons c rest
      rw [hcodes, ofBytesAt, ofCharsAt, isSpacing_alike hcodes, scanBytes_eq hcodes]
      by_cases hspacing : isSpacing c = true
      · have hc := isSpacing_ascii c hspacing
        rw [codes_ascii hc] at hcodes
        cases hcodes
        have ih := ofBytesAt_eq (before ++ [c]) rest
        rw [size_append_ascii hc, List.append_assoc, List.singleton_append] at ih
        rw [if_pos hspacing, if_pos hspacing, ih]
      · rw [if_neg hspacing, if_neg hspacing]
        cases hscan : scan (size before) c rest with
        | error e => rfl
        | ok found =>
            obtain ⟨kind, count⟩ := found
            obtain ⟨inside, behind, hrest, rfl, -⟩ := exists_lexeme hscan
            have hlt : behind.length < rest.length + 1 := by
              rw [hrest, List.length_append]
              omega
            rw [hrest] at hcodes ⊢
            have ih := ofBytesAt_eq (before ++ c :: inside) behind
            rw [size_append, List.append_assoc, List.cons_append] at ih
            have htake : inBytes (c :: (inside ++ behind)) (kind, inside.length + 1) =
                (kind, size (c :: inside)) := by
              rw [inBytes, List.take_succ_cons, List.take_left]
            have hdrop : bytes.drop (size (c :: inside) - 1) = codes behind :=
              drop_codes hcodes
            simp only [Except.map, htake, hdrop, ih, Nat.add_sub_cancel, List.take_left,
              List.drop_left]
            cases ofCharsAt (size before + size (c :: inside)) behind with
            | error e => rfl
            | ok tokens => rfl
termination_by text.length

/-- **The tokens of the bytes are those of the text**, and no cut fails. -/
theorem ofBytes_eq (source : List Char) : ofBytes source = some (ofChars source) :=
  ofBytesAt_eq [] source

/-- A string of one character with two bytes: what follows stands one byte further on. -/
example : ofBytes "'é' == 1".toList =
    some (.ok [⟨.str "é", 0⟩, ⟨.eqEq, 5⟩, ⟨.number 1, 8⟩, ⟨.eof, 9⟩]) := by
  decide +kernel

end Token

end Gamebook
