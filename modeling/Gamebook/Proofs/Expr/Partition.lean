/-
**The tokens of a source are a partition of it.**

A source that has tokens is a row of lexemes with ASCII spacing before, between and behind them, and
each of the lexemes is read as its token when it stands alone.  A source that has none goes on,
behind such a row, with a character at which no token begins: a quote that nothing closes, or one
that the error names.

Main definitions:

* `Token.Piece` — a lexeme and the spacing before it;
* `Token.Tiles` — a text as a row of pieces;
* `Token.Partition` — what the tokens of a source are;
* `Token.Fault` — what is wrong with a source that has none.

Main results:

* `Token.reads_or_stops` — a text is a row of lexemes, or one up to a character at which no token
  begins;
* `Token.pairwise_placed` — the tokens of a row stand one behind another;
* `Token.partition_of_ofChars`, `Token.Partition.eq_singleton` — where there are tokens, only the
  last one is the end;
* `Token.ofBytes_partition` — **the tokens of a source are a partition of it**, and an error is
  where the source goes on with no token; reading the bytes, no cut fails.
-/

import Gamebook.Proofs.Expr.Bytes

set_option relaxedAutoImplicit false
set_option autoImplicit false

namespace Gamebook

namespace Token

open Text

/-! ### Rows of lexemes -/

/-- A lexeme with the spacing before it, and the kind of token that it is. -/
structure Piece where
  gap : List Char
  lexeme : List Char
  kind : TokenKind

/-- The characters of a piece. -/
def Piece.text (p : Piece) : List Char := p.gap ++ p.lexeme

/-- Only spacing is before the lexeme, and the lexeme alone is taken whole as its token. -/
structure Piece.Sound (p : Piece) : Prop where
  gap : ∀ c ∈ p.gap, isSpacing c = true
  scans : Scans p.lexeme [] p.kind
  alone : ofChars p.lexeme = .ok [⟨p.kind, 0⟩, ⟨.eof, size p.lexeme⟩]

/-- The characters of a row of pieces. -/
def textOf (pieces : List Piece) : List Char := pieces.flatMap Piece.text

/-- A text is a row of sound pieces, and spacing behind the last one. -/
structure Tiles (pieces : List Piece) (gap text : List Char) : Prop where
  sound : ∀ p ∈ pieces, p.Sound
  spacing : ∀ c ∈ gap, isSpacing c = true
  eq_append : text = textOf pieces ++ gap

/-- The tokens of a row of pieces that starts at byte `offset`. -/
def placed (offset : Nat) : List Piece → List Token
  | [] => []
  | p :: pieces => ⟨p.kind, offset + size p.gap⟩ :: placed (offset + size p.text) pieces

variable {pieces : List Piece} {gap text behind : List Char} {c : Char} {kind : TokenKind}
  {offset : Nat} {tokens : List Token}

@[simp] theorem textOf_nil : textOf [] = [] := rfl

@[simp] theorem textOf_cons (p : Piece) (pieces : List Piece) :
    textOf (p :: pieces) = p.text ++ textOf pieces := rfl

theorem Tiles.nil : Tiles [] [] [] where
  sound _ hp := absurd hp List.not_mem_nil
  spacing _ hc := absurd hc List.not_mem_nil
  eq_append := rfl

theorem utf8Size_of_isSpacing (hc : isSpacing c = true) : c.utf8Size = 1 :=
  Char.utf8Size_eq_one_iff.2 (Nat.le_of_lt_succ (isSpacing_ascii c hc))

/-- Spacing at the beginning goes before the first lexeme, or behind all of them. -/
theorem Tiles.space (hc : isSpacing c = true) (h : Tiles pieces gap text) (offset : Nat) :
    ∃ pieces' gap', Tiles pieces' gap' (c :: text) ∧
      placed offset pieces' = placed (offset + 1) pieces := by
  have hsize := utf8Size_of_isSpacing hc
  obtain ⟨hsound, hgap, rfl⟩ := h
  cases pieces with
  | nil => exact ⟨[], c :: gap, ⟨hsound, List.forall_mem_cons.2 ⟨hc, hgap⟩, rfl⟩, rfl⟩
  | cons p pieces =>
      obtain ⟨hp, hpieces⟩ := List.forall_mem_cons.1 hsound
      have hp' : Piece.Sound { p with gap := c :: p.gap } :=
        ⟨List.forall_mem_cons.2 ⟨hc, hp.gap⟩, hp.scans, hp.alone⟩
      refine ⟨{ p with gap := c :: p.gap } :: pieces, gap,
        ⟨List.forall_mem_cons.2 ⟨hp', hpieces⟩, hgap, rfl⟩, ?_⟩
      simp only [placed, Piece.text, List.cons_append, size_cons, hsize, Nat.add_assoc]

theorem Scans.isSpacing {inside : List Char} (h : Scans (c :: inside) [] kind) :
    isSpacing c = false := by
  obtain ⟨d, behind, heq, hspacing, -⟩ := h
  exact List.head_eq_of_cons_eq heq ▸ hspacing

/-- A lexeme alone is read as its token and the end. -/
theorem Scans.ofChars_eq {lexeme : List Char} (h : Scans lexeme [] kind) :
    ofChars lexeme = .ok [⟨kind, 0⟩, ⟨.eof, size lexeme⟩] := by
  obtain ⟨c, inside, rfl, hspacing, hscan⟩ := h
  rw [List.append_nil] at hscan
  rw [ofChars, ofCharsAt, hspacing, if_neg Bool.false_ne_true, hscan]
  simp only [List.length_cons, Nat.add_sub_cancel, List.take_length, List.drop_length]
  rw [ofCharsAt, Nat.zero_add]

theorem Tiles.token {lexeme : List Char} (hl : Scans lexeme [] kind) (h : Tiles pieces gap text) :
    Tiles (⟨[], lexeme, kind⟩ :: pieces) gap (lexeme ++ text) where
  sound := List.forall_mem_cons.2
    ⟨⟨fun _ hc => absurd hc List.not_mem_nil, hl, hl.ofChars_eq⟩, h.sound⟩
  spacing := h.spacing
  eq_append := by rw [h.eq_append, textOf_cons, Piece.text, List.nil_append, List.append_assoc]

/-! ### Reading a text piece by piece -/

theorem ofCharsAt_space (hc : isSpacing c = true) (offset : Nat) (rest : List Char) :
    ofCharsAt offset (c :: rest) = ofCharsAt (offset + 1) rest := by
  rw [ofCharsAt, if_pos hc]

theorem ofCharsAt_error {e : ExprError} (hc : isSpacing c = false)
    (hscan : scan offset c behind = .error e) : ofCharsAt offset (c :: behind) = .error e := by
  rw [ofCharsAt, hc, if_neg Bool.false_ne_true, hscan]

theorem ofCharsAt_token {inside : List Char} (hc : isSpacing c = false)
    (hscan : scan offset c (inside ++ behind) = .ok (kind, inside.length + 1)) :
    ofCharsAt offset (c :: (inside ++ behind)) =
      (ofCharsAt (offset + size (c :: inside)) behind).map (⟨kind, offset⟩ :: ·) := by
  rw [ofCharsAt, hc, if_neg Bool.false_ne_true, hscan]
  simp only [Nat.add_sub_cancel, List.take_left, List.drop_left]
  cases ofCharsAt (offset + size (c :: inside)) behind <;> rfl

/-- A text has the tokens of a row of pieces that is the text. -/
def Reads (offset : Nat) (text : List Char) : Prop :=
  ∃ pieces gap, Tiles pieces gap text ∧
    ofCharsAt offset text = .ok (placed offset pieces ++ [⟨.eof, offset + size text⟩])

/-- A text is a row of pieces up to a character at which no token begins, and the error is the one
found there. -/
def Stops (offset : Nat) (text : List Char) : Prop :=
  ∃ pieces gap before c behind e, Tiles pieces gap before ∧ text = before ++ c :: behind ∧
    isSpacing c = false ∧ scan (offset + size before) c behind = .error e ∧
      ofCharsAt offset text = .error e

theorem Reads.space (hc : isSpacing c = true) (h : Reads (offset + 1) text) :
    Reads offset (c :: text) := by
  obtain ⟨pieces, gap, htiles, htokens⟩ := h
  obtain ⟨pieces', gap', htiles', hplaced⟩ := htiles.space hc offset
  refine ⟨pieces', gap', htiles', ?_⟩
  rw [ofCharsAt_space hc, htokens, hplaced, size_cons, utf8Size_of_isSpacing hc, Nat.add_assoc]

theorem Stops.space (hc : isSpacing c = true) (h : Stops (offset + 1) text) :
    Stops offset (c :: text) := by
  obtain ⟨pieces, gap, before, d, behind, e, htiles, rfl, hd, hscan, herror⟩ := h
  obtain ⟨pieces', gap', htiles', -⟩ := htiles.space hc offset
  refine ⟨pieces', gap', c :: before, d, behind, e, htiles', rfl, hd, ?_, ?_⟩
  · rw [size_cons, utf8Size_of_isSpacing hc, ← Nat.add_assoc]
    exact hscan
  · rw [ofCharsAt_space hc]
    exact herror

section Lexeme

variable {inside : List Char} (hl : Scans (c :: inside) [] kind)
  (hscan : scan offset c (inside ++ behind) = .ok (kind, inside.length + 1))

include hl hscan

theorem Reads.token (h : Reads (offset + size (c :: inside)) behind) :
    Reads offset (c :: (inside ++ behind)) := by
  obtain ⟨pieces, gap, htiles, htokens⟩ := h
  refine ⟨_, gap, htiles.token hl, ?_⟩
  rw [ofCharsAt_token hl.isSpacing hscan, htokens, ← List.cons_append, size_append]
  simp only [Except.map, placed, Piece.text, List.nil_append, List.cons_append, size_nil,
    Nat.add_zero, Nat.add_assoc]

theorem Stops.token (h : Stops (offset + size (c :: inside)) behind) :
    Stops offset (c :: (inside ++ behind)) := by
  obtain ⟨pieces, gap, before, d, behind, e, htiles, rfl, hd, hscan', herror⟩ := h
  refine ⟨_, gap, _, d, behind, e, htiles.token hl, ?_, hd, ?_, ?_⟩
  · rw [List.append_assoc, List.cons_append]
  · rw [size_append, ← Nat.add_assoc]
    exact hscan'
  · rw [ofCharsAt_token hl.isSpacing hscan, herror]
    rfl

end Lexeme

/-- **A text is a row of lexemes, or one up to a character at which no token begins.** -/
theorem reads_or_stops (offset : Nat) (text : List Char) :
    Reads offset text ∨ Stops offset text := by
  match text with
  | [] => exact .inl ⟨[], [], .nil, by rw [ofCharsAt]; rfl⟩
  | c :: rest =>
      by_cases hc : isSpacing c = true
      · exact (reads_or_stops (offset + 1) rest).imp (.space hc) (.space hc)
      · rw [Bool.not_eq_true] at hc
        cases hscan : scan offset c rest with
        | error e =>
            exact .inr ⟨[], [], [], c, rest, e, .nil, rfl, hc, hscan, ofCharsAt_error hc hscan⟩
        | ok found =>
            obtain ⟨kind, count⟩ := found
            obtain ⟨inside, behind, hrest, rfl, hl⟩ := exists_lexeme hscan
            have hlt : behind.length < rest.length + 1 := by
              rw [hrest, List.length_append]
              omega
            rw [hrest] at hscan ⊢
            exact (reads_or_stops (offset + size (c :: inside)) behind).imp (.token hl hscan)
              (.token hl hscan)
termination_by text.length

/-! ### Where the tokens of a row are -/

/-- A token of a row stands where one of its lexemes begins. -/
theorem exists_of_mem_placed {token : Token} (h : token ∈ placed offset pieces) :
    ∃ before behind, textOf pieces = before ++ behind ∧ token.offset = offset + size before := by
  induction pieces generalizing offset with
  | nil => exact absurd h List.not_mem_nil
  | cons p pieces ih =>
      rcases List.mem_cons.1 h with rfl | h
      · exact ⟨p.gap, p.lexeme ++ textOf pieces, List.append_assoc _ _ _, rfl⟩
      · obtain ⟨before, behind, heq, hoffset⟩ := ih h
        refine ⟨p.text ++ before, behind, ?_, ?_⟩
        · rw [textOf_cons, heq, List.append_assoc]
        · rw [hoffset, size_append, Nat.add_assoc]

theorem Piece.Sound.size_lt {p : Piece} (h : p.Sound) : size p.gap < size p.text := by
  obtain ⟨c, inside, heq, -⟩ := h.scans
  have hpos := c.utf8Size_pos
  rw [Piece.text, size_append, heq, size_cons]
  omega

/-- The tokens of a row stand one behind another, all of them in front of its end. -/
theorem pairwise_placed (hsound : ∀ p ∈ pieces, p.Sound) (gap : List Char) (offset : Nat) :
    List.Pairwise (fun a b : Token => a.offset < b.offset)
      (placed offset pieces ++ [⟨.eof, offset + size (textOf pieces ++ gap)⟩]) := by
  induction pieces generalizing offset with
  | nil => exact List.pairwise_singleton _ _
  | cons p pieces ih =>
      obtain ⟨hp, hpieces⟩ := List.forall_mem_cons.1 hsound
      have ih := ih hpieces (offset + size p.text)
      have hend : offset + size (textOf (p :: pieces) ++ gap) =
          offset + size p.text + size (textOf pieces ++ gap) := by
        rw [textOf_cons, List.append_assoc, size_append, Nat.add_assoc]
      rw [hend, placed, List.cons_append]
      refine List.pairwise_cons.2 ⟨fun token htoken => ?_, ih⟩
      have hlt := hp.size_lt
      have hle : offset + size p.text ≤ token.offset := by
        rcases List.mem_append.1 htoken with htoken | htoken
        · obtain ⟨before, behind, -, heq⟩ := exists_of_mem_placed htoken
          omega
        · obtain rfl := List.mem_singleton.1 htoken
          exact Nat.le_add_right _ _
      exact Nat.lt_of_lt_of_le (Nat.add_lt_add_left hlt offset) hle

/-! ### The tokens of a source -/

/-- What the tokens of a source are: it is the row of their lexemes, each of which is its token
alone, with ASCII spacing around them; they stand one behind another, the last one is its end, and
each of them where a character begins. -/
structure Partition (source : List Char) (tokens : List Token) : Prop where
  pieces : ∃ pieces gap, Tiles pieces gap source ∧
    tokens = placed 0 pieces ++ [⟨.eof, size source⟩]
  increasing : tokens.Pairwise fun a b => a.offset < b.offset
  last : tokens.getLast? = some ⟨.eof, size source⟩
  boundary : ∀ token ∈ tokens, ∃ before behind,
    splitAt? token.offset source = some (before, behind)

/-- Behind a row of lexemes a source goes on with no token, however much of what follows is looked
at. -/
structure Stuck (before behind : List Char) : Prop where
  pieces : ∃ pieces gap, Tiles pieces gap before
  no_tokens : ∀ start rest, behind = start ++ rest → start ≠ [] →
    ∀ tokens, ofChars start ≠ .ok tokens

/-- What is wrong with a source that has no tokens, and where: a quote that is not closed, or a
character that no token begins with. -/
inductive Fault (source : List Char) : ExprError → Prop
  | unterminatedString {offset : Nat} {before inside : List Char} {quote : Char}
      (hcut : splitAt? offset source = some (before, quote :: inside))
      (hquote : quote = '"' ∨ quote = '\'') (hopen : readString quote inside = none)
      (hstuck : Stuck before (quote :: inside)) : Fault source (.unterminatedString offset)
  | unexpectedChar {offset : Nat} {before behind : List Char} {c : Char}
      (hcut : splitAt? offset source = some (before, c :: behind))
      (hstuck : Stuck before (c :: behind)) : Fault source (.unexpectedChar c offset)

theorem Tiles.partition (h : Tiles pieces gap text) :
    Partition text (placed 0 pieces ++ [⟨.eof, size text⟩]) where
  pieces := ⟨pieces, gap, h, rfl⟩
  increasing := by
    have hpairwise := pairwise_placed h.sound gap 0
    rw [← h.eq_append, Nat.zero_add] at hpairwise
    exact hpairwise
  last := List.getLast?_concat
  boundary token htoken := by
    rcases List.mem_append.1 htoken with htoken | htoken
    · obtain ⟨before, behind, heq, hoffset⟩ := exists_of_mem_placed htoken
      refine ⟨before, behind ++ gap, (splitAt?_eq_some_iff _ _ _ _).2 ⟨?_, ?_⟩⟩
      · rw [h.eq_append, heq, List.append_assoc]
      · rw [hoffset, Nat.zero_add]
    · obtain rfl := List.mem_singleton.1 htoken
      exact ⟨text, [], (splitAt?_eq_some_iff _ _ _ _).2 ⟨(List.append_nil _).symm, rfl⟩⟩

/-- The tokens of a source, if it has any, are a partition of it. -/
theorem partition_of_ofChars {source : List Char} (h : ofChars source = .ok tokens) :
    Partition source tokens := by
  rcases reads_or_stops 0 source with ⟨pieces, gap, htiles, htokens⟩ |
    ⟨pieces, gap, before, c, behind, e, -, -, -, -, herror⟩
  · rw [Nat.zero_add] at htokens
    cases h.symm.trans htokens
    exact htiles.partition
  · cases h.symm.trans herror

theorem placed_ne_eof (hsound : ∀ p ∈ pieces, p.Sound) :
    ∀ token ∈ placed offset pieces, token.kind ≠ .eof := by
  induction pieces generalizing offset with
  | nil => exact fun token htoken => absurd htoken List.not_mem_nil
  | cons p pieces ih =>
      obtain ⟨hp, hpieces⟩ := List.forall_mem_cons.1 hsound
      refine List.forall_mem_cons.2 ⟨?_, ih hpieces⟩
      obtain ⟨c, inside, -, -, hscan⟩ := hp.scans
      exact (scan_eq_ok_iff.1 (hscan 0)).ne_eof

/-- Nothing is behind the end of a source. -/
theorem Partition.eq_singleton {source : List Char} {before after : List Token} {token : Token}
    (h : Partition source (before ++ token :: after)) (hkind : token.kind = .eof) :
    token :: after = [⟨.eof, size source⟩] := by
  obtain ⟨pieces, gap, htiles, heq⟩ := h.pieces
  have hnone : ∀ token ∈ placed 0 pieces, token.kind ≠ .eof := placed_ne_eof htiles.sound
  rcases List.append_eq_append_iff.1 heq with ⟨between, hplaced, hrest⟩ | ⟨between, -, hrest⟩
  · cases between with
    | nil => exact hrest
    | cons first between =>
        obtain ⟨rfl, -⟩ := List.cons.inj hrest
        exact absurd hkind (hnone token (by rw [hplaced]; simp))
  · cases between with
    | nil => exact hrest.symm
    | cons first between =>
        obtain ⟨-, hnil⟩ := List.cons.inj hrest
        cases (List.append_eq_nil_iff.1 hnil.symm).2

theorem Tiles.stuck {e : ExprError} {before : List Char} (h : Tiles pieces gap before)
    (hc : isSpacing c = false) (hscan : scan offset c behind = .error e) :
    Stuck before (c :: behind) where
  pieces := ⟨pieces, gap, h⟩
  no_tokens start rest heq hne tokens htokens := by
    cases start with
    | nil => exact hne rfl
    | cons d inside =>
        obtain ⟨rfl, rfl⟩ := List.cons.inj heq
        cases hinside : scan 0 c inside with
        | error e =>
            rw [ofChars, ofCharsAt_error hc hinside] at htokens
            cases htokens
        | ok found =>
            obtain ⟨found', hfound⟩ := exists_scan_append hinside offset rest
            cases hscan.symm.trans hfound

/-- **The tokens of a source are a partition of it**, and an error is where the source goes on with
no token.  They are read from the bytes, and no cut fails. -/
theorem ofBytes_partition (source : List Char) :
    ofBytes source = some (ofChars source) ∧
      ((∃ tokens, ofChars source = .ok tokens ∧ Partition source tokens) ∨
        ∃ e, ofChars source = .error e ∧ Fault source e) := by
  refine ⟨ofBytes_eq source, ?_⟩
  rcases reads_or_stops 0 source with ⟨pieces, gap, htiles, htokens⟩ |
    ⟨pieces, gap, before, c, behind, e, htiles, rfl, hc, hscan, herror⟩
  · rw [Nat.zero_add] at htokens
    exact .inl ⟨_, htokens, htiles.partition⟩
  · refine .inr ⟨e, herror, ?_⟩
    rw [Nat.zero_add] at hscan
    have hcut : splitAt? (size before) (before ++ c :: behind) = some (before, c :: behind) :=
      (splitAt?_eq_some_iff _ _ _ _).2 ⟨rfl, rfl⟩
    have hstuck := htiles.stuck hc hscan
    rcases scan_error hscan with ⟨hquote, hopen, rfl⟩ | rfl
    · exact .unterminatedString hcut hquote hopen hstuck
    · exact .unexpectedChar hcut hstuck

end Token

end Gamebook
