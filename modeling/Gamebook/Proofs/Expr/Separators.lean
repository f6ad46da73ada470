/-
**Separators of a sequence.**

The items of a sequence stand apart by semicolons and commas, which mean the same, and one more may
stand behind the last item.  Two in a row are meant to be tolerated as well, but behind a separator
the reader asks for an item or the end, so that the second one is refused.

Main definitions:

* `Expr.walk` — goes through tokens whose separators stand behind items;
* `Expr.Loosens` — the same tokens with other separators, and one more in front of an end;
* `Expr.Item` — an expression in print, and the separators behind it;
* `Expr.plainRow`, `Expr.writtenRow` — items with a semicolon between each two, and with their own
  separators.

Main results:

* `Expr.Derives.walk_eq` — **what is read has separators behind items only**;
* `Expr.Derives.loosens` — **other separators, and one behind the last item, change nothing**;
* `Expr.derives_plainRow` — items are read as what they stand for;
* `Expr.parseChars_writtenRow_iff` — when separators do not matter;
* `Expr.doubled_separator` — two separators in a row.
-/

import Gamebook.Proofs.Expr.Pointing

set_option relaxedAutoImplicit false
set_option autoImplicit false

namespace Gamebook

/-! ### Tokens inside an item -/

namespace TokenKind

variable {kind : TokenKind}

/-- Whether an item can end with this token. -/
def closes : TokenKind → Bool
  | .number _ | .str _ | .truth _ | .var _ | .rParen => true
  | _ => false

theorem closes_of_operand? {e : Expr} (h : kind.operand? = some e) : kind.closes = true := by
  cases kind
  case number | str | truth | var => rfl
  all_goals cases h

theorem separator_cases (h : Expr.isSeparator kind = true) : kind = .semicolon ∨ kind = .comma := by
  simpa [Expr.isSeparator] using h

theorem closes_of_separator (h : Expr.isSeparator kind = true) : kind.closes = false := by
  rcases separator_cases h with rfl | rfl <;> rfl

theorem endsSequence_of_separator (h : Expr.isSeparator kind = true) :
    Expr.endsSequence kind = false := by
  rcases separator_cases h with rfl | rfl <;> rfl

theorem stops_of_separator {least : Nat} (h : Expr.isSeparator kind = true) :
    kind.Stops least := by
  rcases separator_cases h with rfl | rfl <;> exact stops_of_none rfl rfl

end TokenKind

namespace Expr

variable {least : Nat} {closed closed' : Bool} {kind : TokenKind}
variable {kinds kinds' before behind row : List TokenKind} {tokens tokens' rest : List Token}
variable {task : Task} {result : List Expr} {e : Expr}

theorem next_eq (tokens : List Token) : next tokens = (tokens.map Token.kind).headD .eof := by
  cases tokens <;> rfl

/-! ### Separators behind items -/

/-- Goes through tokens: a separator stands only behind a token that an item can end with.  Whether
the token before is such a one is `closed`, and what is returned says it of the last token. -/
def walk (closed : Bool) : List TokenKind → Option Bool
  | [] => some closed
  | kind :: kinds =>
      if isSeparator kind then
        if closed then walk false kinds else none
      else walk kind.closes kinds

theorem walk_inner (h : isSeparator kind = false) (closed : Bool) (kinds : List TokenKind) :
    walk closed (kind :: kinds) = walk kind.closes kinds := by
  rw [walk, if_neg (Bool.eq_false_iff.1 h)]

theorem walk_separator (h : isSeparator kind = true) (kinds : List TokenKind) :
    walk true (kind :: kinds) = walk false kinds := by
  rw [walk, if_pos h, if_pos rfl]

theorem walk_append (closed : Bool) (kinds kinds' : List TokenKind) :
    walk closed (kinds ++ kinds') = (walk closed kinds).bind (walk · kinds') := by
  induction kinds generalizing closed with
  | nil => rfl
  | cons kind kinds ih =>
      rw [List.cons_append, walk, walk]
      split
      · split
        · exact ih _
        · rfl
      · exact ih _

theorem exists_walk_append (h : walk closed (kinds ++ kinds') ≠ none) :
    ∃ closed', walk closed kinds = some closed' ∧ walk closed' kinds' ≠ none := by
  rw [walk_append] at h
  obtain ⟨last, hlast⟩ := Option.ne_none_iff_exists'.1 h
  obtain ⟨closed', hkinds, hkinds'⟩ := Option.bind_eq_some_iff.1 hlast
  exact ⟨closed', hkinds, Option.ne_none_iff_exists'.2 ⟨last, hkinds'⟩⟩

/-- What is left of the tokens is gone through as all of them are. -/
def Task.Walked (tokens rest : List Token) : Task → Prop
  | .operand | .level _ =>
      ∀ closed, walk closed (tokens.map Token.kind) = walk true (rest.map Token.kind)
  | .joints _ _ => walk true (tokens.map Token.kind) = walk true (rest.map Token.kind)
  | .items => ∀ closed, ∃ closed',
      walk closed (tokens.map Token.kind) = walk closed' (rest.map Token.kind)

/-- **What is read has separators behind items only.** -/
theorem Derives.walk_eq (h : Derives task tokens result rest) : task.Walked tokens rest := by
  induction h with
  | single h =>
      intro closed
      rw [List.map_cons, walk_inner (TokenKind.IsInner.of_operand h).separates,
        TokenKind.closes_of_operand? h]
  | unary hop _ ih =>
      intro closed
      rw [List.map_cons, walk_inner (TokenKind.IsInner.of_unary hop).separates]
      exact ih _
  | enclosed ho _ _ hc ih =>
      intro closed
      obtain ⟨closed', hwalk⟩ := ih TokenKind.lParen.closes
      rw [List.map_cons, ho, walk_inner rfl, hwalk, List.map_cons, hc, walk_inner rfl]
      rfl
  | level _ _ iho ihj => exact fun closed => (iho closed).trans ihj
  | stop => exact rfl
  | assignment hop _ _ _ ihr ihj =>
      have hinner := TokenKind.IsInner.of_operator (TokenKind.isInfix_of_assignment hop)
      rw [Task.Walked, List.map_cons, walk_inner hinner.separates]
      exact (ihr _).trans ihj
  | joint _ hjoint _ _ _ ihr ihj =>
      have hinner := TokenKind.IsInner.of_operator (TokenKind.isInfix_of_joint hjoint)
      rw [Task.Walked, List.map_cons, walk_inner hinner.separates]
      exact (ihr _).trans ihj
  | none => exact fun closed => ⟨closed, rfl⟩
  | final _ _ ih => exact fun closed => ⟨true, ih closed⟩
  | cons _ hsep _ ihr ihitems =>
      intro closed
      obtain ⟨closed', hwalk⟩ := ihitems false
      refine ⟨closed', (ihr closed).trans ?_⟩
      rw [List.map_cons, walk_separator hsep, hwalk]

/-! ### Other separators, and one more in front of an end -/

/-- The same tokens, but for other separators in place of some, and for separators that are put in
behind an item and in front of an end.  Whether the token before can end an item is `closed`. -/
inductive Loosens : Bool → List TokenKind → List TokenKind → Prop
  | nil {closed : Bool} : Loosens closed [] []
  | same {closed : Bool} {kind : TokenKind} {kinds kinds' : List TokenKind}
      (h : Loosens kind.closes kinds kinds') : Loosens closed (kind :: kinds) (kind :: kinds')
  | other {closed : Bool} {kind kind' : TokenKind} {kinds kinds' : List TokenKind}
      (hsep : isSeparator kind = true) (hsep' : isSeparator kind' = true)
      (h : Loosens false kinds kinds') : Loosens closed (kind :: kinds) (kind' :: kinds')
  | trailing {kind : TokenKind} {kinds kinds' : List TokenKind} (hsep : isSeparator kind = true)
      (hend : endsSequence (kinds'.headD .eof) = true) (h : Loosens false kinds kinds') :
      Loosens true kinds (kind :: kinds')

namespace Loosens

theorem refl (closed : Bool) (kinds : List TokenKind) : Loosens closed kinds kinds := by
  induction kinds generalizing closed with
  | nil => exact .nil
  | cons kind kinds ih => exact .same (ih _)

theorem append (hwalk : walk closed row = some closed') (h : Loosens closed' kinds kinds') :
    Loosens closed (row ++ kinds) (row ++ kinds') := by
  induction row generalizing closed with
  | nil =>
      cases hwalk
      exact h
  | cons kind row ih =>
      rw [walk] at hwalk
      split at hwalk
      · rename_i hsep
        split at hwalk
        · exact .other hsep hsep (ih hwalk)
        · cases hwalk
      · exact .same (ih hwalk)

/-- Where nothing is put in, the next tokens are the same, or both separate. -/
theorem headD (h : Loosens false kinds kinds') : kinds'.headD .eof = kinds.headD .eof ∨
    isSeparator (kinds.headD .eof) = true ∧ isSeparator (kinds'.headD .eof) = true := by
  cases h with
  | nil | same => exact .inl rfl
  | other hsep hsep' => exact .inr ⟨hsep, hsep'⟩

theorem headD_of_not (h : Loosens false kinds kinds') (hnot : isSeparator (kinds.headD .eof) = false) :
    kinds'.headD .eof = kinds.headD .eof :=
  h.headD.resolve_right fun hsep => Bool.false_ne_true (hnot.symm.trans hsep.1)

/-- Nothing is put in where there is no end. -/
theorem not_trailing (h : Loosens false kinds kinds')
    (hend : endsSequence (kinds'.headD .eof) = true) : endsSequence (kinds.headD .eof) = true := by
  rcases h.headD with heq | ⟨-, hsep⟩
  · exact heq ▸ hend
  · rw [TokenKind.endsSequence_of_separator hsep] at hend
    cases hend

/-- A token that separates nothing is the same token, if nothing is put in before it. -/
theorem inner (h : Loosens closed (kind :: kinds) (tokens.map Token.kind))
    (hsep : isSeparator kind = false) (hopen : closed = false ∨ endsSequence kind = false) :
    ∃ token rest, tokens = token :: rest ∧ token.kind = kind ∧
      Loosens kind.closes kinds (rest.map Token.kind) := by
  generalize hkinds : tokens.map Token.kind = kinds' at h
  cases h with
  | same h =>
      obtain ⟨token, rest, rfl, hkind, rfl⟩ := List.map_eq_cons_iff.1 hkinds
      exact ⟨token, rest, rfl, hkind, h⟩
  | other hsep' =>
      rw [hsep] at hsep'
      cases hsep'
  | trailing _ hend h =>
      rcases hopen with hopen | hopen
      · cases hopen
      · exact absurd (h.not_trailing hend) (by rw [List.headD, hopen]; exact Bool.false_ne_true)

/-- A separator has a separator in its place. -/
theorem separator (h : Loosens closed (kind :: kinds) (tokens.map Token.kind))
    (hsep : isSeparator kind = true) : ∃ token rest, tokens = token :: rest ∧
      isSeparator token.kind = true ∧ Loosens false kinds (rest.map Token.kind) := by
  generalize hkinds : tokens.map Token.kind = kinds' at h
  cases h with
  | same h =>
      obtain ⟨token, rest, rfl, rfl, rfl⟩ := List.map_eq_cons_iff.1 hkinds
      exact ⟨token, rest, rfl, hsep, TokenKind.closes_of_separator hsep ▸ h⟩
  | other _ hsep' h =>
      obtain ⟨token, rest, rfl, rfl, rfl⟩ := List.map_eq_cons_iff.1 hkinds
      exact ⟨token, rest, rfl, hsep', h⟩
  | trailing _ hend h =>
      have hnot := TokenKind.endsSequence_of_separator hsep
      exact absurd (h.not_trailing hend) (by rw [List.headD, hnot]; exact Bool.false_ne_true)

/-- Behind an item a separator is put in, or nothing is. -/
theorem put_in (h : Loosens closed kinds (tokens.map Token.kind)) :
    Loosens false kinds (tokens.map Token.kind) ∨ ∃ token rest, tokens = token :: rest ∧
      isSeparator token.kind = true ∧ endsSequence (next rest) = true ∧
        Loosens false kinds (rest.map Token.kind) := by
  generalize hkinds : tokens.map Token.kind = kinds' at h
  cases h with
  | nil => exact .inl .nil
  | same h => exact .inl (.same h)
  | other hsep hsep' h => exact .inl (.other hsep hsep' h)
  | trailing hsep hend h =>
      obtain ⟨token, rest, rfl, rfl, rfl⟩ := List.map_eq_cons_iff.1 hkinds
      exact .inr ⟨token, rest, rfl, hsep, by rw [next_eq]; exact hend, h⟩

theorem stops (h : Loosens closed kinds kinds') (hs : (kinds.headD .eof).Stops least) :
    (kinds'.headD .eof).Stops least := by
  cases h with
  | nil | same => exact hs
  | other _ hsep => exact TokenKind.stops_of_separator hsep
  | trailing hsep => exact TokenKind.stops_of_separator hsep

end Loosens

/-- No end of an item is before the items of a sequence. -/
def Task.Opens (closed : Bool) : Task → Prop
  | .items => closed = false
  | _ => True

/-- **Other separators, and one behind the last item, change nothing.** -/
theorem Derives.loosens (h : Derives task tokens result rest) (hopens : task.Opens closed)
    (hl : Loosens closed (tokens.map Token.kind) (tokens'.map Token.kind)) :
    ∃ closed' rest', Derives task tokens' result rest' ∧ task.Opens closed' ∧
      Loosens closed' (rest.map Token.kind) (rest'.map Token.kind) := by
  induction h generalizing closed tokens' with
  | single h =>
      have hinner := TokenKind.IsInner.of_operand h
      obtain ⟨token', rest', rfl, hkind, hl⟩ := hl.inner hinner.separates (.inr hinner.ends)
      exact ⟨_, rest', .single (hkind ▸ h), trivial, hl⟩
  | unary hop _ ih =>
      have hinner := TokenKind.IsInner.of_unary hop
      obtain ⟨token', rest', rfl, hkind, hl⟩ := hl.inner hinner.separates (.inr hinner.ends)
      obtain ⟨closed', rest'', hr, -, hl⟩ := ih trivial hl
      exact ⟨closed', rest'', .unary (hkind ▸ hop) hr, trivial, hl⟩
  | enclosed ho _ hof hc ih =>
      rw [List.map_cons, ho] at hl
      obtain ⟨token', rest', rfl, hkind, hl⟩ := hl.inner rfl (.inr rfl)
      obtain ⟨closed', rest'', hr, rfl, hl⟩ := ih rfl hl
      rw [List.map_cons, hc] at hl
      obtain ⟨close', ending, rfl, hkind', hl⟩ := hl.inner rfl (.inl rfl)
      exact ⟨_, ending, .enclosed hkind hr hof hkind', trivial, hl⟩
  | level _ _ iho ihj =>
      obtain ⟨closed', rest', ho, -, hl⟩ := iho trivial hl
      obtain ⟨closed'', rest'', hj, -, hl⟩ := ihj trivial hl
      exact ⟨closed'', rest'', .level ho hj, trivial, hl⟩
  | stop hs =>
      rw [next_eq] at hs
      exact ⟨closed, tokens', .stop (by rw [next_eq]; exact hl.stops hs), trivial, hl⟩
  | assignment hop hle _ _ ihr ihj =>
      have hinner := TokenKind.IsInner.of_operator (TokenKind.isInfix_of_assignment hop)
      obtain ⟨token', rest', rfl, hkind, hl⟩ := hl.inner hinner.separates (.inr hinner.ends)
      obtain ⟨closed', rest'', hr, -, hl⟩ := ihr trivial hl
      obtain ⟨closed'', ending, hj, -, hl⟩ := ihj trivial hl
      exact ⟨closed'', ending, .assignment (hkind ▸ hop) hle hr hj, trivial, hl⟩
  | joint hnot hjoint hle _ _ ihr ihj =>
      have hinner := TokenKind.IsInner.of_operator (TokenKind.isInfix_of_joint hjoint)
      obtain ⟨token', rest', rfl, hkind, hl⟩ := hl.inner hinner.separates (.inr hinner.ends)
      obtain ⟨closed', rest'', hr, -, hl⟩ := ihr trivial hl
      obtain ⟨closed'', ending, hj, -, hl⟩ := ihj trivial hl
      exact ⟨closed'', ending, .joint (hkind ▸ hnot) (hkind ▸ hjoint) hle hr hj, trivial, hl⟩
  | none hend =>
      -- before the first item, and behind a separator, nothing is put in
      obtain rfl := hopens
      have hnot := TokenKind.isSeparator_of_ends hend
      rw [next_eq] at hend hnot
      refine ⟨false, tokens', .none ?_, rfl, hl⟩
      rw [next_eq, hl.headD_of_not hnot]
      exact hend
  | final _ hnot ih =>
      obtain ⟨closed', rest', hr, -, hl⟩ := ih trivial hl
      -- a separator that is put in behind the last item is read with no items behind it
      rcases hl.put_in with hl | ⟨token, rest'', rfl, hsep, hend, hl⟩
      · rw [next_eq] at hnot
        refine ⟨false, rest', .final hr ?_, rfl, hl⟩
        rw [next_eq, hl.headD_of_not hnot]
        exact hnot
      · exact ⟨false, rest'', .cons hr hsep (.none hend), rfl, hl⟩
  | cons _ hsep _ ihr ihitems =>
      obtain ⟨closed', rest', hr, -, hl⟩ := ihr trivial hl
      obtain ⟨token', rest'', rfl, hsep', hl⟩ := hl.separator hsep
      obtain ⟨closed'', ending, hitems, hopens', hl⟩ := ihitems rfl hl
      exact ⟨closed'', ending, .cons hr hsep' hitems, hopens', hl⟩

/-! ### In front of something else -/

/-- Something is left for the items of a sequence. -/
def Task.Leaves (rest : List Token) : Task → Prop
  | .items => rest ≠ []
  | _ => True

/-- What is read alone is read in front of whatever ends an item, wherever its tokens stand. -/
theorem Derives.again (h : Derives task tokens result rest) (hleaves : task.Leaves rest)
    (hstops : ∀ least, (behind.headD .eof).Stops least)
    (hkinds : tokens'.map Token.kind = tokens.map Token.kind ++ behind) :
    ∃ rest', rest'.map Token.kind = rest.map Token.kind ++ behind ∧
      Derives task tokens' result rest' := by
  induction h generalizing tokens' with
  | single h =>
      obtain ⟨token', rest', rfl, hkind, hrest⟩ := List.map_eq_cons_iff.1 hkinds
      exact ⟨rest', hrest, .single (hkind ▸ h)⟩
  | unary hop _ ih =>
      obtain ⟨token', rest', rfl, hkind, hrest⟩ := List.map_eq_cons_iff.1 hkinds
      obtain ⟨rest'', hrest, hr⟩ := ih trivial hrest
      exact ⟨rest'', hrest, .unary (hkind ▸ hop) hr⟩
  | enclosed ho _ hof hc ih =>
      obtain ⟨token', rest', rfl, hkind, hrest⟩ := List.map_eq_cons_iff.1 hkinds
      obtain ⟨rest'', hrest, hr⟩ := ih (List.cons_ne_nil _ _) hrest
      obtain ⟨close', ending, rfl, hkind', hrest⟩ := List.map_eq_cons_iff.1 hrest
      exact ⟨ending, hrest, .enclosed (hkind.trans ho) hr hof (hkind'.trans hc)⟩
  | level _ _ iho ihj =>
      obtain ⟨rest', hrest, ho⟩ := iho trivial hkinds
      obtain ⟨rest'', hrest, hj⟩ := ihj trivial hrest
      exact ⟨rest'', hrest, .level ho hj⟩
  | @stop _ tokens _ hs =>
      refine ⟨tokens', hkinds, .stop ?_⟩
      rw [next_eq, hkinds]
      cases tokens with
      | nil => exact hstops _
      | cons token tokens => exact hs
  | assignment hop hle _ _ ihr ihj =>
      obtain ⟨token', rest', rfl, hkind, hrest⟩ := List.map_eq_cons_iff.1 hkinds
      obtain ⟨rest'', hrest, hr⟩ := ihr trivial hrest
      obtain ⟨ending, hrest, hj⟩ := ihj trivial hrest
      exact ⟨ending, hrest, .assignment (hkind ▸ hop) hle hr hj⟩
  | joint hnot hjoint hle _ _ ihr ihj =>
      obtain ⟨token', rest', rfl, hkind, hrest⟩ := List.map_eq_cons_iff.1 hkinds
      obtain ⟨rest'', hrest, hr⟩ := ihr trivial hrest
      obtain ⟨ending, hrest, hj⟩ := ihj trivial hrest
      exact ⟨ending, hrest, .joint (hkind ▸ hnot) (hkind ▸ hjoint) hle hr hj⟩
  | @none tokens hend =>
      cases tokens with
      | nil => exact absurd rfl hleaves
      | cons token tokens =>
          refine ⟨tokens', hkinds, .none ?_⟩
          rw [next_eq, hkinds]
          exact hend
  | @final _ rest _ _ hnot ih =>
      obtain ⟨rest', hrest, hr⟩ := ih trivial hkinds
      cases rest with
      | nil => exact absurd rfl hleaves
      | cons token rest =>
          refine ⟨rest', hrest, .final hr ?_⟩
          rw [next_eq, hrest]
          exact hnot
  | cons _ hsep _ ihr ihitems =>
      obtain ⟨rest', hrest, hr⟩ := ihr trivial hkinds
      obtain ⟨token', rest'', rfl, hkind, hrest⟩ := List.map_eq_cons_iff.1 hrest
      obtain ⟨ending, hrest, hitems⟩ := ihitems hleaves hrest
      exact ⟨ending, hrest, .cons hr (hkind ▸ hsep) hitems⟩

/-! ### Items in print -/

/-- An expression in print: its tokens, what they stand for, and the separators behind it. -/
structure Item where
  row : List TokenKind
  value : Expr
  separators : List TokenKind

/-- The tokens alone are read as one item, with nothing left, and only separators are behind it. -/
structure Item.Sound (i : Item) : Prop where
  reads : ∃ last tokens, tokens.map Token.kind = i.row ∧ Reads last 2 tokens i.value []
  separators : ∀ kind ∈ i.separators, isSeparator kind = true

/-- An expression as it is printed, in parentheses if it is a sequence. -/
def Item.printed (e : Expr) (separators : List TokenKind) : Item := ⟨e.within 2, e, separators⟩

/-- Every expression that can be written is an item as it is printed. -/
theorem Item.Sound.printed {separators : List TokenKind} (he : e.Sourced)
    (h : ∀ kind ∈ separators, isSeparator kind = true) : (Item.printed e separators).Sound where
  reads := by
    have hkinds : ((e.within 2).map (Token.mk · 0)).map Token.kind = e.within 2 := by
      rw [List.map_map]
      exact List.map_id _
    have hends : ∀ {least : Nat}, (next []).Stops least := TokenKind.stops_of_none rfl rfl
    have hreads : Reads 0 2 ((e.within 2).map (Token.mk · 0) ++ []) e [] :=
      (returns he.1 he.2).within (Nat.le_refl 2) (Nat.le_refl 2) hkinds (fun _ => hends) (.stop hends)
    rw [List.append_nil] at hreads
    exact ⟨0, _, hkinds, hreads⟩
  separators := h

/-- One item or more, each two of which are separated. -/
structure Separated (items : List Item) : Prop where
  ne_nil : items ≠ []
  sound : ∀ i ∈ items, i.Sound
  between : ∀ i ∈ items.dropLast, i.separators ≠ []

/-- The tokens of items with a semicolon between each two. -/
def plainRow (items : List Item) : List TokenKind := [.semicolon].intercalate (items.map Item.row)

/-- The tokens of items with their own separators. -/
def writtenRow (items : List Item) : List TokenKind :=
  items.flatMap fun i => i.row ++ i.separators

variable {i other : Item} {items : List Item}

theorem plainRow_singleton (i : Item) : plainRow [i] = i.row := List.intercalate_singleton

theorem plainRow_cons (i other : Item) (items : List Item) :
    plainRow (i :: other :: items) = i.row ++ .semicolon :: plainRow (other :: items) := by
  rw [plainRow, List.map_cons, List.map_cons, List.intercalate_cons_cons, List.append_assoc]
  rfl

theorem writtenRow_cons (i : Item) (items : List Item) :
    writtenRow (i :: items) = i.row ++ (i.separators ++ writtenRow items) := by
  rw [writtenRow, List.flatMap_cons, List.append_assoc]
  rfl

theorem Separated.tail (h : Separated (i :: other :: items)) : Separated (other :: items) where
  ne_nil := List.cons_ne_nil _ _
  sound := (List.forall_mem_cons.1 h.sound).2
  between := (List.forall_mem_cons.1 h.between).2

/-- An item is read in front of whatever ends it. -/
theorem Item.Sound.derives (h : i.Sound) (hstops : ∀ least, (behind.headD .eof).Stops least)
    (hkinds : tokens.map Token.kind = i.row ++ behind) :
    ∃ rest, rest.map Token.kind = behind ∧ Derives (.level 2) tokens [i.value] rest := by
  obtain ⟨last, alone, halone, hreads⟩ := h.reads
  rw [← halone] at hkinds
  exact hreads.derives.again trivial hstops hkinds

/-- An item has separators only behind what ends an item, and ends so itself. -/
theorem Item.Sound.walk_row (h : i.Sound) (closed : Bool) : walk closed i.row = some true := by
  obtain ⟨last, alone, halone, hreads⟩ := h.reads
  rw [← halone]
  exact hreads.derives.walk_eq closed

/-- **Items are read as what they stand for**, in front of an end. -/
theorem derives_plainRow (h : Separated items) (hend : endsSequence (behind.headD .eof) = true)
    (hkinds : tokens.map Token.kind = plainRow items ++ behind) :
    ∃ rest, rest.map Token.kind = behind ∧
      Derives .items tokens (items.map Item.value) rest := by
  induction items generalizing tokens with
  | nil => exact absurd rfl h.ne_nil
  | cons i items ih =>
      have hi := h.sound i List.mem_cons_self
      cases items with
      | nil =>
          rw [plainRow_singleton] at hkinds
          obtain ⟨rest, rfl, hr⟩ := hi.derives (fun _ => TokenKind.stops_of_ends hend) hkinds
          rw [← next_eq] at hend
          exact ⟨rest, rfl, .final hr (TokenKind.isSeparator_of_ends hend)⟩
      | cons other items =>
          rw [plainRow_cons, List.append_assoc, List.cons_append] at hkinds
          obtain ⟨rest, hrest, hr⟩ := hi.derives (fun _ => TokenKind.stops_of_separator rfl) hkinds
          obtain ⟨token, rest', rfl, hkind, hrest⟩ := List.map_eq_cons_iff.1 hrest
          obtain ⟨rest'', hrest, hitems⟩ := ih h.tail hrest
          exact ⟨rest'', hrest, .cons hr (hkind ▸ rfl) hitems⟩

/-- Items with single separators are the plain ones with other separators, and one more at the
end. -/
theorem loosens_writtenRow (h : Separated items) (hend : endsSequence (behind.headD .eof) = true)
    (hsingle : ∀ i ∈ items, i.separators.length ≤ 1) (closed : Bool) :
    Loosens closed (plainRow items ++ behind) (writtenRow items ++ behind) := by
  induction items generalizing closed with
  | nil => exact absurd rfl h.ne_nil
  | cons i items ih =>
      obtain ⟨hi, hothers⟩ := List.forall_mem_cons.1 hsingle
      have hsound := h.sound i List.mem_cons_self
      rw [writtenRow_cons]
      cases items with
      | nil =>
          rw [plainRow_singleton, writtenRow, List.flatMap_nil, List.append_nil, List.append_assoc]
          refine .append (hsound.walk_row closed) ?_
          match i.separators, hi, hsound.separators with
          | [], _, _ => exact .refl _ _
          | [kind], _, hseparators =>
              exact .trailing (hseparators kind List.mem_cons_self) hend (.refl _ _)
      | cons other items =>
          have hbetween := h.between i List.mem_cons_self
          rw [plainRow_cons, List.append_assoc, List.append_assoc, List.append_assoc,
            List.cons_append]
          refine .append (hsound.walk_row closed) ?_
          match i.separators, hi, hbetween, hsound.separators with
          | [kind], _, _, hseparators =>
              exact .other rfl (hseparators kind List.mem_cons_self) (ih h.tail hothers _)

/-- Items that are gone through have single separators. -/
theorem single_of_walk (hsound : ∀ i ∈ items, i.Sound)
    (hwalk : walk closed (writtenRow items ++ behind) ≠ none) :
    ∀ i ∈ items, i.separators.length ≤ 1 := by
  induction items generalizing closed with
  | nil => exact fun i hi => absurd hi List.not_mem_nil
  | cons i items ih =>
      obtain ⟨hi, hothers⟩ := List.forall_mem_cons.1 hsound
      rw [writtenRow_cons, List.append_assoc, walk_append, hi.walk_row] at hwalk
      replace hwalk : walk true (i.separators ++ writtenRow items ++ behind) ≠ none := hwalk
      match hi' : i.separators, hi.separators with
      | [], _ =>
          rw [hi', List.nil_append] at hwalk
          exact List.forall_mem_cons.2 ⟨by rw [hi']; decide, ih hothers hwalk⟩
      | [kind], hseparators =>
          have hsep := hseparators kind List.mem_cons_self
          rw [hi', List.append_assoc, List.singleton_append, walk_separator hsep] at hwalk
          exact List.forall_mem_cons.2 ⟨by rw [hi']; rfl, ih hothers hwalk⟩
      | kind :: kind' :: separators, hseparators =>
          have hsep := hseparators kind List.mem_cons_self
          have hsep' := hseparators kind' (List.mem_cons_of_mem _ List.mem_cons_self)
          rw [hi', List.cons_append, List.cons_append, walk_separator hsep, List.cons_append,
            List.cons_append, walk, if_pos hsep'] at hwalk
          exact absurd rfl hwalk

/-! ### All tokens of a source -/

variable {text : List Char}

theorem exists_of_parseChars (htext : Token.Lexes text kinds) (h : parseChars text = .ok e) :
    ∃ tokens items rest, Token.ofChars text = .ok tokens ∧ tokens.map Token.kind = kinds ∧
      Derives .items tokens items rest ∧ ofItems items = .ok e ∧ next rest = .eof := by
  obtain ⟨tokens, htokens, hkinds⟩ := htext 0
  rw [parseChars, Token.ofChars, htokens] at h
  obtain ⟨items, rest, hitems, hof, hend⟩ := ofTokens_eq_ok_iff.1 h
  exact ⟨tokens, items, rest, htokens, hkinds, hitems, hof, hend⟩

theorem parseChars_of_derives {items : List Expr} (htext : Token.Lexes text kinds)
    (hof : ofItems items = .ok e)
    (h : ∀ tokens, tokens.map Token.kind = kinds →
      ∃ rest, Derives .items tokens items rest ∧ next rest = .eof) : parseChars text = .ok e := by
  obtain ⟨tokens, htokens, hkinds⟩ := htext 0
  obtain ⟨rest, hitems, hend⟩ := h tokens hkinds
  rw [parseChars, Token.ofChars, htokens]
  exact ofTokens_eq_ok_iff.2 ⟨items, rest, hitems, hof, hend⟩

/-- A source that is parsed has separators behind items only. -/
theorem walk_of_parseChars (htext : Token.Lexes text kinds) (h : parseChars text = .ok e) :
    walk false kinds ≠ none := by
  obtain ⟨tokens, items, rest, htokens, rfl, hitems, -, hend⟩ := exists_of_parseChars htext h
  obtain ⟨closed, hwalk⟩ := hitems.walk_eq false
  obtain ⟨before, rfl, -⟩ := hitems.stands (Stands.start tokens)
  rw [hwalk]
  cases rest with
  | nil => rintro ⟨⟩
  | cons token rest =>
      have hsource := Token.partition_of_ofChars htokens
      rw [hsource.eq_singleton hend]
      rintro ⟨⟩

/-- Other separators, and one behind the last item of a sequence, do not change what a source
stands for. -/
theorem parseChars_of_loosens {text' : List Char} (hl : Loosens false kinds kinds')
    (htext : Token.Lexes text kinds) (htext' : Token.Lexes text' kinds')
    (h : parseChars text = .ok e) : parseChars text' = .ok e := by
  obtain ⟨tokens, items, rest, -, rfl, hitems, hof, hend⟩ := exists_of_parseChars htext h
  refine parseChars_of_derives htext' hof fun tokens' hkinds => ?_
  rw [← hkinds] at hl
  obtain ⟨closed, rest', hitems', rfl, hl⟩ := hitems.loosens rfl hl
  rw [next_eq] at hend
  refine ⟨rest', hitems', ?_⟩
  rw [next_eq, hl.headD_of_not (by rw [hend]; rfl), hend]

/-- Items with a semicolon between each two are parsed as what they stand for, as a source of their
own and in parentheses. -/
theorem parseChars_plainRow (h : Separated items)
    (htext : Token.Lexes text (plainRow items ++ [.eof]) ∨
      Token.Lexes text (.lParen :: (plainRow items ++ [.rParen, .eof]))) :
    parseChars text = ofItems (items.map Item.value) := by
  have hne : items.map Item.value ≠ [] := fun hnil => h.ne_nil (List.map_eq_nil_iff.1 hnil)
  obtain ⟨e, hof⟩ := exists_ofItems hne
  rw [hof]
  rcases htext with htext | htext
  · refine parseChars_of_derives htext hof fun tokens hkinds => ?_
    obtain ⟨rest, hrest, hitems⟩ := derives_plainRow h rfl hkinds
    exact ⟨rest, hitems, by rw [next_eq, hrest]; rfl⟩
  · have hone : ofItems [e] = .ok e := rfl
    refine parseChars_of_derives htext hone fun tokens hkinds => ?_
    obtain ⟨first, inside, rfl, hfirst, hinside⟩ := List.map_eq_cons_iff.1 hkinds
    obtain ⟨closing, hclosing, hitems⟩ := derives_plainRow h rfl hinside
    obtain ⟨close, rest, rfl, hclose, hrest⟩ := List.map_eq_cons_iff.1 hclosing
    have hend : next rest = .eof := by
      rw [next_eq, hrest]
      rfl
    have hlevel : Derives (.level 2) (first :: inside) [e] rest :=
      .level (.enclosed hfirst hitems hof hclose)
        (.stop (by rw [hend]; exact TokenKind.stops_of_none rfl rfl))
    exact ⟨rest, .final hlevel (by rw [hend]; rfl), hend⟩

/-- **When separators do not matter.**  Items with a semicolon between each two are parsed as what
they stand for.  Anywhere in a source that is parsed, other separators, and some behind the last
item, give the same expression if and only if there are no two in a row; otherwise the source is not
parsed. -/
theorem parseChars_writtenRow_iff (items : List Item) (h : Separated items) :
    (∀ text, Token.Lexes text (plainRow items ++ [.eof]) ∨
        Token.Lexes text (.lParen :: (plainRow items ++ [.rParen, .eof])) →
      parseChars text = ofItems (items.map Item.value)) ∧
    ∀ before behind plain written e, endsSequence (behind.headD .eof) = true →
      Token.Lexes plain (before ++ (plainRow items ++ behind)) →
      Token.Lexes written (before ++ (writtenRow items ++ behind)) →
      parseChars plain = .ok e →
        ∀ other, parseChars written = .ok other ↔
          other = e ∧ ∀ i ∈ items, i.separators.length ≤ 1 := by
  refine ⟨fun text => parseChars_plainRow h, fun before behind plain written e hend hplain hwritten he
    other => ?_⟩
  have hsingle_ok : (∀ i ∈ items, i.separators.length ≤ 1) → parseChars written = .ok e := by
    intro hsingle
    obtain ⟨closed, hbefore, -⟩ := exists_walk_append (walk_of_parseChars hplain he)
    exact parseChars_of_loosens (.append hbefore (loosens_writtenRow h hend hsingle closed))
      hplain hwritten he
  constructor
  · intro hother
    -- of two separators in a row the second one is not behind an item
    obtain ⟨closed, -, hrow⟩ := exists_walk_append (walk_of_parseChars hwritten hother)
    have hsingle := single_of_walk h.sound hrow
    exact ⟨Except.ok.inj (hother.symm.trans (hsingle_ok hsingle)), hsingle⟩
  · rintro ⟨rfl, hsingle⟩
    exact hsingle_ok hsingle

/-- One with a comma behind it, and two with a semicolon. -/
def oneTwo : List Item := [.printed (.lit (.num 1)) [.comma], .printed (.lit (.num 2)) [.semicolon]]

theorem sourced_one_two : Sourced (.lit (.num 1)) ∧ Sourced (.lit (.num 2)) := by
  refine ⟨⟨?_, trivial⟩, ⟨?_, trivial⟩⟩
  · exact (by decide +kernel : Number.isNegative 1 = false)
  · exact (by decide +kernel : Number.isNegative 2 = false)

theorem separated_oneTwo : Separated oneTwo where
  ne_nil := List.cons_ne_nil _ _
  sound := List.forall_mem_cons.2 ⟨.printed sourced_one_two.1 (by simp [isSeparator]),
    List.forall_mem_singleton.2 (.printed sourced_one_two.2 (by simp [isSeparator]))⟩
  between := List.forall_mem_singleton.2 (List.cons_ne_nil _ _)

example : Token.spaced (.lParen :: (writtenRow oneTwo ++ [.rParen])) = "( 1 , 2 ; )".toList := by
  decide +kernel

theorem parseChars_writtenRow_iff_oneTwo : Separated oneTwo ∧
    parseChars (Token.spaced (.lParen :: (writtenRow oneTwo ++ [.rParen]))) =
      .ok (.sequence [.lit (.num 1), .lit (.num 2)]) := by
  have hone : Number.isNegative 1 = false := sourced_one_two.1.1
  have htwo : Number.isNegative 2 = false := sourced_one_two.2.1
  have hplain : ∀ kind ∈ (.lParen :: (plainRow oneTwo ++ [.rParen]) : List TokenKind),
      kind.Writable := by
    have hrow : plainRow oneTwo = [.number 1, .semicolon, .number 2] := by decide +kernel
    simp [hrow, hone, htwo, TokenKind.Writable]
  have hwritten : ∀ kind ∈ (.lParen :: (writtenRow oneTwo ++ [.rParen]) : List TokenKind),
      kind.Writable := by
    have hrow : writtenRow oneTwo = [.number 1, .comma, .number 2, .semicolon] := by
      decide +kernel
    simp [hrow, hone, htwo, TokenKind.Writable]
  obtain ⟨hparse, hiff⟩ := parseChars_writtenRow_iff oneTwo separated_oneTwo
  have he := hparse _ (.inr (Token.lexes_spaced hplain))
  exact ⟨separated_oneTwo, (hiff [.lParen] [.rParen, .eof] _ _ _ rfl (Token.lexes_spaced hplain)
    (Token.lexes_spaced hwritten) he _).2 ⟨rfl, by decide +kernel⟩⟩

/-- **Two separators in a row.**  With one semicolon between them the items are a sequence; with two
the second one is refused. -/
theorem doubled_separator :
    parseChars "1;2".toList = .ok (.sequence [.lit (.num 1), .lit (.num 2)]) ∧
      parseChars "1;;2".toList = .error (.unexpectedToken "Semicolon" 2) := by
  have htokens : Token.ofChars "1;2".toList =
      .ok [⟨.number 1, 0⟩, ⟨.semicolon, 1⟩, ⟨.number 2, 2⟩, ⟨.eof, 3⟩] := by decide +kernel
  have hkinds : List.map Token.kind
      [⟨.number 1, 0⟩, ⟨.semicolon, 1⟩, ⟨.number 2, 2⟩, ⟨.eof, 3⟩] = plainRow oneTwo ++ [.eof] := by
    decide +kernel
  refine ⟨?_, error?_eq_some_iff.1 (by decide +kernel)⟩
  rw [parseChars, htokens]
  obtain ⟨rest, hrest, hitems⟩ := derives_plainRow separated_oneTwo rfl hkinds
  exact ofTokens_eq_ok_iff.2 ⟨_, rest, hitems, rfl, by rw [next_eq, hrest]; rfl⟩

end Expr

end Gamebook
