/-
**Where errors point.**

An error names a token and a place.  The readers take the place of the token that they name, but for
one reader: where a parenthesis is not closed, it names the token that stands there instead and the
place behind that token.  So an error points at what it names, unless it comes from an open
parenthesis and something else stands behind the token.

Main definitions:

* `Expr.kindAt?` — the token at a place;
* `Expr.PointsInto` — an error names the token at its place;
* `Expr.Overshoots` — it names the token before the one at its place;
* `Expr.Stands` — what is left of the tokens inside a number of open parentheses.

Main results:

* `Expr.Derives.ended` — what stands behind the things that are read;
* `Expr.Derives.stands` — **what is read opens and closes as many parentheses**;
* `Expr.Fails.blames` — **every error is at a token that it names, or behind one in parentheses**;
* `Expr.pointsInto_iff_not_overshoots` — when an error points at what it names;
* `Expr.unclosed_overshoots` — a parenthesis that is not closed.
-/

import Gamebook.Proofs.Expr.Partition

set_option relaxedAutoImplicit false
set_option autoImplicit false

namespace Gamebook

namespace TokenKind

variable {kind : TokenKind}

theorem not_isInfix_of_stops (h : kind.Stops 2) : ¬ kind.IsInfix := by
  rintro (hassign | hjoint)
  · exact absurd (h.1 hassign) (Nat.lt_irrefl 2)
  · obtain ⟨joint, hjoint⟩ := Option.isSome_iff_exists.1 hjoint
    have hlt := h.2 joint hjoint
    have hle := joint.level_bounds.1
    omega

/-- What neither goes on with an expression nor ends one begins another one. -/
theorem begins_of_not (hparen : kind ≠ .rParen) (heof : kind ≠ .eof)
    (hsep : Expr.isSeparator kind = false) (hjoins : ¬ kind.IsInfix) : kind.begins = true := by
  cases kind
  case eof => exact absurd rfl heof
  case rParen => exact absurd rfl hparen
  case semicolon | comma => cases hsep
  case number | str | truth | var | ident | lParen | bang => rfl
  case eq | plusEq | minusEq | starEq | slashEq => exact absurd (.inl rfl) hjoins
  all_goals exact absurd (.inr rfl) hjoins

end TokenKind

namespace Expr

variable {last depth : Nat} {tokens here rest before after : List Token} {token : Token}
variable {task : Task} {result : List Expr} {err : ExprError} {source : List Char}

/-! ### What is at a place -/

/-- The token at a place. -/
def kindAt? (offset : Nat) (tokens : List Token) : Option TokenKind :=
  (tokens.find? (·.offset == offset)).map Token.kind

theorem kindAt?_eq (h : (before ++ token :: after).Pairwise fun a b => a.offset < b.offset) :
    kindAt? token.offset (before ++ token :: after) = some token.kind := by
  have hbefore : before.find? (·.offset == token.offset) = none := by
    rw [List.find?_eq_none]
    intro other hother heq
    have hlt := (List.pairwise_append.1 h).2.2 other hother token List.mem_cons_self
    exact Nat.ne_of_lt hlt (beq_iff_eq.1 heq)
  have hhere : (token :: after).find? (·.offset == token.offset) = some token :=
    List.find?_cons_of_pos (beq_self_eq_true token.offset)
  rw [kindAt?, List.find?_append, hbefore, Option.none_or, hhere]
  rfl

/-- How many of the tokens are of a kind. -/
def tally (kind : TokenKind) (tokens : List Token) : Nat := (tokens.map Token.kind).count kind

/-- **An error names the token at its place**: the token that is found there, the word that is
unknown, or an assignment that has no variable. -/
def PointsInto (tokens : List Token) : ExprError → Prop
  | .unexpectedToken found offset =>
      ∃ kind, kindAt? offset tokens = some kind ∧ kind.describe = found
  | .unknownIdentifier word offset => kindAt? offset tokens = some (.ident word)
  | .invalidAssignmentTarget offset =>
      ∃ kind, kindAt? offset tokens = some kind ∧ (Token.assignment? kind).isSome
  | _ => True

/-- An error names a token and takes the place of the one behind it, which is described otherwise.
In front of the token that is named a parenthesis is open, and an expression could begin with it. -/
def Overshoots (tokens : List Token) (err : ExprError) : Prop :=
  ∃ before token behind after, tokens = before ++ token :: behind :: after ∧
    token.kind.begins = true ∧ tally .rParen before < tally .lParen before ∧
      err = .unexpectedToken token.kind.describe behind.offset ∧
        behind.kind.describe ≠ token.kind.describe

/-! ### What stands behind the things that are read -/

/-- What a task ends before. -/
def Task.Ended (kind : TokenKind) : Task → Prop
  | .operand => True
  | .level least | .joints least _ => kind.Stops least
  | .items => endsSequence kind = true ∨ isSeparator kind = false ∧ kind.Stops 2

theorem Derives.ended (h : Derives task tokens result rest) : task.Ended (next rest) := by
  induction h with
  | single | unary | enclosed => trivial
  | level _ _ _ ihj => exact ihj
  | stop hs => exact hs
  | assignment _ _ _ _ _ ihj => exact ihj
  | joint _ _ _ _ _ _ ihj => exact ihj
  | none hend => exact .inl hend
  | final _ hnot ih => exact .inr ⟨hnot, ih⟩
  | cons _ _ _ _ ihitems => exact ihitems

/-- Items that no parenthesis closes end with the source, or where another one could begin. -/
theorem Derives.begins (h : Derives .items tokens result rest) (hparen : next rest ≠ .rParen)
    (heof : next rest ≠ .eof) : (next rest).begins = true := by
  rcases h.ended with hend | ⟨hsep, hstops⟩
  · rcases Bool.or_eq_true_iff.1 hend with heq | heq
    · exact absurd (beq_iff_eq.1 heq) heof
    · exact absurd (beq_iff_eq.1 heq) hparen
  · exact TokenKind.begins_of_not hparen heof hsep (TokenKind.not_isInfix_of_stops hstops)

/-! ### Open parentheses -/

/-- The tokens are left from here on, inside this many open parentheses. -/
def Stands (tokens : List Token) (depth : Nat) (here : List Token) : Prop :=
  ∃ before, tokens = before ++ here ∧ tally .lParen before = tally .rParen before + depth

theorem tally_concat (kind : TokenKind) (before : List Token) (token : Token) :
    tally kind (before ++ [token]) = tally kind before + if token.kind = kind then 1 else 0 := by
  simp [tally, List.count_cons]

theorem Stands.start (tokens : List Token) : Stands tokens 0 tokens := ⟨[], rfl, rfl⟩

theorem Stands.flat (h : Stands tokens depth (token :: here))
    (hflat : token.kind ≠ .lParen ∧ token.kind ≠ .rParen) : Stands tokens depth here := by
  obtain ⟨before, rfl, htally⟩ := h
  refine ⟨before ++ [token], by simp, ?_⟩
  rw [tally_concat, tally_concat, if_neg hflat.1, if_neg hflat.2]
  exact htally

theorem Stands.inner (h : Stands tokens depth (token :: here)) (hinner : token.kind.IsInner) :
    Stands tokens depth here := h.flat hinner.flat

theorem Stands.separator (h : Stands tokens depth (token :: here))
    (hsep : isSeparator token.kind = true) : Stands tokens depth here := by
  refine h.flat ⟨?_, ?_⟩
  all_goals
    intro hkind
    rw [hkind] at hsep
    cases hsep

theorem Stands.opened (h : Stands tokens depth (token :: here)) (hopen : token.kind = .lParen) :
    Stands tokens (depth + 1) here := by
  obtain ⟨before, rfl, htally⟩ := h
  refine ⟨before ++ [token], by simp, ?_⟩
  rw [tally_concat, tally_concat, hopen, if_pos rfl, if_neg (by rintro ⟨⟩), htally]
  rfl

theorem Stands.closed (h : Stands tokens (depth + 1) (token :: here))
    (hclose : token.kind = .rParen) : Stands tokens depth here := by
  obtain ⟨before, rfl, htally⟩ := h
  refine ⟨before ++ [token], by simp, ?_⟩
  rw [tally_concat, tally_concat, hclose, if_neg (by rintro ⟨⟩), if_pos rfl, htally]
  omega

/-- **What is read opens and closes as many parentheses.** -/
theorem Derives.stands (h : Derives task here result rest) (hs : Stands tokens depth here) :
    Stands tokens depth rest := by
  induction h generalizing depth with
  | single h => exact hs.inner (.of_operand h)
  | unary hop _ ih => exact ih (hs.inner (.of_unary hop))
  | enclosed ho _ _ hc ih => exact (ih (hs.opened ho)).closed hc
  | level _ _ iho ihj => exact ihj (iho hs)
  | stop => exact hs
  | assignment hop _ _ _ ihr ihj =>
      exact ihj (ihr (hs.inner (.of_operator (TokenKind.isInfix_of_assignment hop))))
  | joint _ hjoint _ _ _ ihr ihj =>
      exact ihj (ihr (hs.inner (.of_operator (TokenKind.isInfix_of_joint hjoint))))
  | none => exact hs
  | final _ _ ih => exact ih hs
  | cons _ hsep _ ihr ihitems =>
      exact ihitems ((ihr hs).separator hsep)

/-! ### Every error -/

/-- What an error of the readers names, and where. -/
inductive Blames (tokens : List Token) : ExprError → Prop
  | unexpectedToken {before after : List Token} {token : Token}
      (h : tokens = before ++ token :: after) :
      Blames tokens (.unexpectedToken token.kind.describe token.offset)
  | unclosed {before after : List Token} {token behind : Token}
      (h : tokens = before ++ token :: behind :: after) (hbegins : token.kind.begins = true)
      (hopen : tally .rParen before < tally .lParen before) :
      Blames tokens (.unexpectedToken token.kind.describe behind.offset)
  | unknownIdentifier {before after : List Token} {token : Token} {word : String}
      (h : tokens = before ++ token :: after) (hkind : token.kind = .ident word) :
      Blames tokens (.unknownIdentifier word token.offset)
  | invalidAssignmentTarget {before after : List Token} {token : Token}
      (h : tokens = before ++ token :: after) (hop : (Token.assignment? token.kind).isSome) :
      Blames tokens (.invalidAssignmentTarget token.offset)
  | unexpectedEnd : Blames tokens .unexpectedEnd
  | empty : Blames tokens .empty

/-- Where items in parentheses are not closed, the token that stands there is named, and the place
behind it is taken; this is the place of the end if the end stands there. -/
theorem Stands.blames_unclosed (hsource : Token.Partition source tokens)
    (hs : Stands tokens (depth + 1) rest) (hitems : Derives .items here result rest)
    (hc : next rest ≠ .rParen) :
    Blames tokens
      (.unexpectedToken (next rest).describe (position (Text.size source) rest.tail)) := by
  obtain ⟨before, rfl, htally⟩ := hs
  match rest, hitems, hc with
  | [], _, _ =>
      -- past the last token, the place is that of the end
      obtain ⟨init, hinit⟩ := List.getLast?_eq_some_iff.1 hsource.last
      exact Blames.unexpectedToken hinit
  | token :: after, hitems, hc =>
      by_cases heof : token.kind = .eof
      · obtain ⟨rfl, rfl⟩ := List.cons.inj (hsource.eq_singleton heof)
        exact .unexpectedToken rfl
      · have hbegins := hitems.begins hc heof
        cases after with
        | nil =>
            have hlast := hsource.last
            rw [List.getLast?_concat] at hlast
            cases hlast
            exact absurd rfl heof
        | cons behind after => exact .unclosed rfl hbegins (by omega)

/-- **Every error is at a token that it names**, or behind one in parentheses. -/
theorem Fails.blames (hsource : Token.Partition source tokens)
    (h : Fails (Text.size source) task here err) (hs : Stands tokens depth here) :
    Blames tokens err := by
  induction h generalizing depth with
  | missing => exact .unexpectedEnd
  | unknown hkind =>
      obtain ⟨before, heq, -⟩ := hs
      exact .unknownIdentifier heq hkind
  | unexpected =>
      obtain ⟨before, heq, -⟩ := hs
      exact .unexpectedToken heq
  | unary hop _ ih => exact ih (hs.inner (.of_unary hop))
  | enclosed ho _ ih => exact ih (hs.opened ho)
  | hollow => exact .empty
  | unclosed ho hr _ hc => exact (hr.stands (hs.opened ho)).blames_unclosed hsource hr hc
  | operand _ ih => exact ih hs
  | joints ho _ ih => exact ih (ho.stands hs)
  | target hop =>
      obtain ⟨before, heq, -⟩ := hs
      exact .invalidAssignmentTarget heq hop
  | right hop _ ih => exact ih (hs.inner (.of_operator hop))
  | behind hop hr _ ih => exact ih (hr.stands (hs.inner (.of_operator hop)))
  | item _ ih => exact ih hs
  | others hr hsep _ ih => exact ih ((hr.stands hs).separator hsep)

theorem blames_of_ofTokens (hsource : Token.Partition source tokens)
    (h : ofTokens tokens = .error err) : Blames tokens err := by
  have hlast : (tokens.getLast?.map Token.offset).getD 0 = Text.size source := by
    rw [hsource.last]
    rfl
  have herror := ofTokens_error h
  rw [hlast] at herror
  rcases herror with hfails | rfl | ⟨items, rest, hitems, hend, rfl⟩
  · exact hfails.blames hsource (Stands.start tokens)
  · exact .empty
  · obtain ⟨before, heq, -⟩ := hitems.stands (Stands.start tokens)
    cases rest with
    | nil => exact absurd rfl hend
    | cons token rest => exact .unexpectedToken heq

/-- An error is at the token that it names, or it overshoots. -/
theorem Blames.pointsInto_or (h : Blames tokens err)
    (hsorted : tokens.Pairwise fun a b => a.offset < b.offset) :
    PointsInto tokens err ∨ Overshoots tokens err := by
  cases h with
  | unexpectedToken h =>
      subst h
      exact .inl ⟨_, kindAt?_eq hsorted, rfl⟩
  | @unclosed before after token behind h hbegins hopen =>
      by_cases heq : behind.kind.describe = token.kind.describe
      · rw [List.append_cons] at h
        subst h
        exact .inl ⟨_, kindAt?_eq hsorted, heq⟩
      · exact .inr ⟨_, _, _, _, h, hbegins, hopen, rfl, heq⟩
  | unknownIdentifier h hkind =>
      subst h
      exact .inl ((kindAt?_eq hsorted).trans (congrArg some hkind))
  | invalidAssignmentTarget h hop =>
      subst h
      exact .inl ⟨_, kindAt?_eq hsorted, hop⟩
  | unexpectedEnd | empty => exact .inl trivial

theorem Overshoots.not_pointsInto (h : Overshoots tokens err)
    (hsorted : tokens.Pairwise fun a b => a.offset < b.offset) : ¬ PointsInto tokens err := by
  obtain ⟨before, token, behind, after, rfl, -, -, rfl, hne⟩ := h
  rintro ⟨kind, hkind, hfound⟩
  rw [List.append_cons] at hsorted hkind
  rw [kindAt?_eq hsorted] at hkind
  cases hkind
  exact hne hfound

/-- **When an error points at what it names**: for every source that has tokens and is not parsed,
if and only if it is not one behind a token in an open parenthesis. -/
theorem pointsInto_iff_not_overshoots (source : List Char) (tokens : List Token) (err : ExprError)
    (htokens : Token.ofChars source = .ok tokens) (herror : parseChars source = .error err) :
    PointsInto tokens err ↔ ¬ Overshoots tokens err := by
  have hsource := Token.partition_of_ofChars htokens
  rw [parseChars, htokens] at herror
  have hblames := blames_of_ofTokens hsource herror
  have hcases := hblames.pointsInto_or hsource.increasing
  exact ⟨fun h hover => hover.not_pointsInto hsource.increasing h, hcases.resolve_right⟩

/-- The tokens of `(1 + 2`. -/
def cutOff : List Token :=
  [⟨.lParen, 0⟩, ⟨.number 1, 1⟩, ⟨.plus, 3⟩, ⟨.number 2, 5⟩, ⟨.eof, 6⟩]

theorem pointsInto_iff_not_overshoots_cutOff : Token.ofChars "(1 + 2".toList = .ok cutOff ∧
    parseChars "(1 + 2".toList = .error (.unexpectedToken "end of expression" 6) ∧
      ¬ Overshoots cutOff (.unexpectedToken "end of expression" 6) := by
  have htokens : Token.ofChars "(1 + 2".toList = .ok cutOff := by decide +kernel
  have herror : parseChars "(1 + 2".toList = .error (.unexpectedToken "end of expression" 6) :=
    error?_eq_some_iff.1 (by decide +kernel)
  refine ⟨htokens, herror, (pointsInto_iff_not_overshoots _ _ _ htokens herror).1 ?_⟩
  exact ⟨.eof, by decide +kernel, rfl⟩

/-- **A parenthesis that is not closed**, in `(1 2)`: the error names the two, but its place is that
of the parenthesis behind it. -/
theorem unclosed_overshoots : ∃ tokens err, Token.ofChars "(1 2)".toList = .ok tokens ∧
    parseChars "(1 2)".toList = .error err ∧ err = .unexpectedToken "2" 4 ∧
      kindAt? 4 tokens = some .rParen ∧ TokenKind.rParen.describe = "RParen" ∧
        ¬ PointsInto tokens err := by
  refine ⟨[⟨.lParen, 0⟩, ⟨.number 1, 1⟩, ⟨.number 2, 3⟩, ⟨.rParen, 4⟩, ⟨.eof, 5⟩], _, ?_, ?_, rfl,
    ?_, rfl, ?_⟩
  · decide +kernel
  · exact error?_eq_some_iff.1 (by decide +kernel)
  · decide +kernel
  · rintro ⟨kind, hkind, hfound⟩
    cases hkind
    exact absurd hfound (by decide)

end Expr

end Gamebook
