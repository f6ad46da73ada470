/-
**Derivations.**

What the readers of expressions do with a row of tokens is derived by rules, one for each thing
that they do: one relation for what they return, and one for what they refuse.  Neither speaks of
lengths, so that a property of everything that is read, or of every error, is one induction over
the rules.

Main definitions:

* `TokenKind.IsInner` — a token within an item;
* `Expr.Task` — what the readers are asked for;
* `Expr.Derives` — what they return, and what is left of the tokens;
* `Expr.Fails` — the errors that they end in.

Main results:

* `Expr.readItems_explained` and its like — **whatever the readers end in is derived**;
* `Expr.Derives.returned` — **what is derived is returned**;
* `Expr.ofTokens_eq_ok_iff`, `Expr.ofTokens_error` — all tokens of a source.
-/

import Gamebook.Proofs.Expr.Grammar

set_option relaxedAutoImplicit false
set_option autoImplicit false

namespace Gamebook

namespace TokenKind

/-- The expression that a token is by itself. -/
def operand? : TokenKind → Option Expr
  | .number n => some (.lit (.num n))
  | .str s => some (.lit (.str s))
  | .truth b => some (.lit (.bool b))
  | .var name => some (.var name)
  | _ => none

/-- A token stands for an operator between two operands, or for an assignment. -/
def IsInfix (kind : TokenKind) : Prop :=
  (Token.assignment? kind).isSome ∨ (Joint.ofToken? kind).isSome

/-- Whether an operand could begin with this token, if words were operands. -/
def begins (kind : TokenKind) : Bool :=
  match kind with
  | .number _ | .str _ | .truth _ | .var _ | .ident _ | .lParen | .bang | .minus | .plus => true
  | _ => false

/-- A token is within an item: it is no parenthesis, separates no items and ends none. -/
structure IsInner (kind : TokenKind) : Prop where
  flat : kind ≠ .lParen ∧ kind ≠ .rParen
  separates : Expr.isSeparator kind = false
  ends : Expr.endsSequence kind = false

variable {kind : TokenKind}

theorem ofToken?_of_assignment? {op : Option BinaryOp} (h : Token.assignment? kind = some op) :
    Joint.ofToken? kind = none := by
  cases kind
  case eq | plusEq | minusEq | starEq | slashEq => rfl
  all_goals cases h

theorem isInfix_of_assignment {op : Option BinaryOp} (h : Token.assignment? kind = some op) :
    kind.IsInfix :=
  .inl (Option.isSome_of_eq_some h)

theorem isInfix_of_joint {joint : Joint} (h : Joint.ofToken? kind = some joint) : kind.IsInfix :=
  .inr (Option.isSome_of_eq_some h)

theorem IsInner.of_operand {e : Expr} (h : kind.operand? = some e) : kind.IsInner := by
  cases kind
  case number | str | truth | var => exact ⟨⟨nofun, nofun⟩, rfl, rfl⟩
  all_goals cases h

theorem IsInner.of_unary {op : UnaryOp} (h : UnaryOp.ofToken? kind = some op) : kind.IsInner := by
  cases kind
  case bang | minus | plus => exact ⟨⟨nofun, nofun⟩, rfl, rfl⟩
  all_goals cases h

theorem IsInner.of_operator (h : kind.IsInfix) : kind.IsInner := by
  cases kind
  case semicolon | comma | eof | lParen | rParen => rcases h with h | h <;> cases h
  all_goals exact ⟨⟨nofun, nofun⟩, rfl, rfl⟩

end TokenKind

namespace Expr

variable {last least level : Nat} {tokens rest rest' rest'' : List Token} {token close : Token}
variable {e left right value : Expr} {items : List Expr} {err : ExprError}

/-! ### Rules -/

/-- What the readers are asked for. -/
inductive Task where
  | operand
  /-- An expression whose operators bind at least as tightly. -/
  | level (least : Nat)
  /-- What follows an operand, as long as it binds at least as tightly. -/
  | joints (least : Nat) (left : Expr)
  | items

/-- What is returned for a task, and what is left of the tokens. -/
inductive Derives : Task → List Token → List Expr → List Token → Prop
  | single {token : Token} {rest : List Token} {e : Expr} (h : token.kind.operand? = some e) :
      Derives .operand (token :: rest) [e] rest
  | unary {token : Token} {rest rest' : List Token} {op : UnaryOp} {e : Expr}
      (hop : UnaryOp.ofToken? token.kind = some op) (hr : Derives (.level 9) rest [e] rest') :
      Derives .operand (token :: rest) [.unary op e] rest'
  | enclosed {token close : Token} {rest rest' : List Token} {items : List Expr} {e : Expr}
      (ho : token.kind = .lParen) (hr : Derives .items rest items (close :: rest'))
      (hof : ofItems items = .ok e) (hc : close.kind = .rParen) :
      Derives .operand (token :: rest) [e] rest'
  | level {least : Nat} {tokens rest rest' : List Token} {left e : Expr}
      (ho : Derives .operand tokens [left] rest)
      (hj : Derives (.joints least left) rest [e] rest') : Derives (.level least) tokens [e] rest'
  | stop {least : Nat} {tokens : List Token} {left : Expr} (hs : (next tokens).Stops least) :
      Derives (.joints least left) tokens [left] tokens
  | assignment {least : Nat} {token : Token} {rest rest' rest'' : List Token} {name : String}
      {op : Option BinaryOp} {value e : Expr} (hop : Token.assignment? token.kind = some op)
      (hle : least ≤ 2) (hr : Derives (.level 2) rest [value] rest')
      (hj : Derives (.joints least (.assign name op value)) rest' [e] rest'') :
      Derives (.joints least (.var name)) (token :: rest) [e] rest''
  | joint {least : Nat} {token : Token} {rest rest' rest'' : List Token} {joint : Joint}
      {left right e : Expr} (hnot : Token.assignment? token.kind = none)
      (hjoint : Joint.ofToken? token.kind = some joint) (hle : least ≤ joint.level)
      (hr : Derives (.level (joint.level + 1)) rest [right] rest')
      (hj : Derives (.joints least (joint.join left right)) rest' [e] rest'') :
      Derives (.joints least left) (token :: rest) [e] rest''
  | none {tokens : List Token} (hend : endsSequence (next tokens) = true) :
      Derives .items tokens [] tokens
  | final {tokens rest : List Token} {e : Expr} (hr : Derives (.level 2) tokens [e] rest)
      (hnot : isSeparator (next rest) = false) : Derives .items tokens [e] rest
  | cons {token : Token} {tokens rest rest' : List Token} {e : Expr} {items : List Expr}
      (hr : Derives (.level 2) tokens [e] (token :: rest))
      (hsep : isSeparator token.kind = true) (hitems : Derives .items rest items rest') :
      Derives .items tokens (e :: items) rest'

/-- What a task ends in if it fails; `last` is the position of the end. -/
inductive Fails (last : Nat) : Task → List Token → ExprError → Prop
  | missing {tokens : List Token} (h : next tokens = .eof) :
      Fails last .operand tokens .unexpectedEnd
  | unknown {token : Token} {rest : List Token} {word : String} (h : token.kind = .ident word) :
      Fails last .operand (token :: rest) (.unknownIdentifier word token.offset)
  | unexpected {token : Token} {rest : List Token} (h : token.kind.begins = false) :
      Fails last .operand (token :: rest) (.unexpectedToken token.kind.describe token.offset)
  | unary {token : Token} {rest : List Token} {op : UnaryOp} {err : ExprError}
      (hop : UnaryOp.ofToken? token.kind = some op) (hr : Fails last (.level 9) rest err) :
      Fails last .operand (token :: rest) err
  | enclosed {token : Token} {rest : List Token} {err : ExprError} (ho : token.kind = .lParen)
      (hr : Fails last .items rest err) : Fails last .operand (token :: rest) err
  | hollow {token : Token} {rest rest' : List Token} (ho : token.kind = .lParen)
      (hr : Derives .items rest [] rest') : Fails last .operand (token :: rest) .empty
  /-- The error names what stands here, and the place behind it. -/
  | unclosed {token : Token} {rest rest' : List Token} {items : List Expr}
      (ho : token.kind = .lParen) (hr : Derives .items rest items rest') (hne : items ≠ [])
      (hc : next rest' ≠ .rParen) :
      Fails last .operand (token :: rest)
        (.unexpectedToken (next rest').describe (position last rest'.tail))
  | operand {least : Nat} {tokens : List Token} {err : ExprError}
      (ho : Fails last .operand tokens err) : Fails last (.level least) tokens err
  | joints {least : Nat} {tokens rest : List Token} {left : Expr} {err : ExprError}
      (ho : Derives .operand tokens [left] rest) (hj : Fails last (.joints least left) rest err) :
      Fails last (.level least) tokens err
  | target {least : Nat} {token : Token} {rest : List Token} {left : Expr}
      (hop : (Token.assignment? token.kind).isSome) :
      Fails last (.joints least left) (token :: rest) (.invalidAssignmentTarget token.offset)
  | right {least level : Nat} {token : Token} {rest : List Token} {left : Expr} {err : ExprError}
      (hop : token.kind.IsInfix) (hr : Fails last (.level level) rest err) :
      Fails last (.joints least left) (token :: rest) err
  | behind {least level : Nat} {token : Token} {rest rest' : List Token} {left right e : Expr}
      {err : ExprError} (hop : token.kind.IsInfix) (hr : Derives (.level level) rest [right] rest')
      (hj : Fails last (.joints least e) rest' err) :
      Fails last (.joints least left) (token :: rest) err
  | item {tokens : List Token} {err : ExprError} (hr : Fails last (.level 2) tokens err) :
      Fails last .items tokens err
  | others {token : Token} {tokens rest : List Token} {e : Expr} {err : ExprError}
      (hr : Derives (.level 2) tokens [e] (token :: rest)) (hsep : isSeparator token.kind = true)
      (hitems : Fails last .items rest err) : Fails last .items tokens err

/-! ### What the readers end in -/

theorem ofItems_error (h : ofItems items = .error err) : items = [] ∧ err = .empty := by
  match items, h with
  | [], rfl => exact ⟨rfl, rfl⟩
  | [_], h => cases h
  | _ :: _ :: _, h => cases h

theorem ne_nil_of_ofItems (h : ofItems items = .ok e) : items ≠ [] := by
  rintro rfl
  cases h

theorem exists_ofItems (h : items ≠ []) : ∃ e, ofItems items = .ok e := by
  match items, h with
  | [item], _ => exact ⟨item, rfl⟩
  | item :: other :: items, _ => exact ⟨.sequence (item :: other :: items), rfl⟩

/-- What a reader ends in is derived for its task. -/
def Explains {α : Type} {p : List Token → Prop} (last : Nat) (task : Task) (tokens : List Token)
    (exprs : α → List Expr) : Except ExprError (α × {rest : List Token // p rest}) → Prop
  | .ok (result, ⟨rest, _⟩) => Derives task tokens (exprs result) rest
  | .error err => Fails last task tokens err

mutual

theorem readItems_explained (last : Nat) (tokens : List Token) :
    Explains last .items tokens id (readItems last tokens) := by
  rw [readItems]
  split
  · rename_i hend
    exact .none hend
  · have hlevel := readLevel_explained last 2 tokens
    cases hr : readLevel last 2 tokens with
    | error err =>
        rw [hr] at hlevel
        exact .item hlevel
    | ok r =>
        obtain ⟨item, rest, h⟩ := r
        rw [hr] at hlevel
        cases rest with
        | nil => exact .final hlevel rfl
        | cons token rest =>
            dsimp only
            split
            · rename_i hsep
              have hrest : rest.length < tokens.length := Nat.lt_of_succ_lt h
              have hothers := readItems_explained last rest
              cases ho : readItems last rest with
              | error err =>
                  rw [ho] at hothers
                  exact .others hlevel hsep hothers
              | ok r =>
                  obtain ⟨items, rest', h'⟩ := r
                  rw [ho] at hothers
                  exact .cons hlevel hsep hothers
            · rename_i hsep
              exact .final hlevel (Bool.eq_false_iff.2 hsep)
termination_by 4 * tokens.length + 3
decreasing_by all_goals omega

theorem readLevel_explained (last level : Nat) (tokens : List Token) :
    Explains last (.level level) tokens (fun e => [e]) (readLevel last level tokens) := by
  rw [readLevel]
  have hoperand := readOperand_explained last tokens
  cases ho : readOperand last tokens with
  | error err =>
      rw [ho] at hoperand
      exact .operand hoperand
  | ok r =>
      obtain ⟨left, rest, h⟩ := r
      rw [ho] at hoperand
      have hjoints := readJoints_explained last level left rest
      dsimp only
      cases hj : readJoints last level left rest with
      | error err =>
          rw [hj] at hjoints
          exact .joints hoperand hjoints
      | ok r =>
          obtain ⟨e, rest', h'⟩ := r
          rw [hj] at hjoints
          exact .level hoperand hjoints
termination_by 4 * tokens.length + 2
decreasing_by all_goals omega

theorem readJoints_explained (last level : Nat) (left : Expr) (tokens : List Token) :
    Explains last (.joints level left) tokens (fun e => [e])
      (readJoints last level left tokens) := by
  cases tokens with
  | nil =>
      rw [readJoints]
      exact .stop (TokenKind.stops_of_none rfl rfl)
  | cons token rest =>
      rw [readJoints]
      cases ha : Token.assignment? token.kind with
      | some op =>
          have hop := TokenKind.isInfix_of_assignment ha
          dsimp only
          split
          · rename_i hlevel
            refine .stop ⟨fun _ => hlevel, fun joint hjoint => ?_⟩
            rw [next, TokenKind.ofToken?_of_assignment? ha] at hjoint
            cases hjoint
          · rename_i hlevel
            split
            · rename_i name
              have hvalue := readLevel_explained last 2 rest
              cases hr : readLevel last 2 rest with
              | error err =>
                  rw [hr] at hvalue
                  exact .right hop hvalue
              | ok r =>
                  obtain ⟨value, rest', h⟩ := r
                  rw [hr] at hvalue
                  have hlt : rest'.length < rest.length + 1 := Nat.lt_succ_of_lt h
                  have hjoints := readJoints_explained last level (.assign name op value) rest'
                  dsimp only
                  cases hj : readJoints last level (.assign name op value) rest' with
                  | error err =>
                      rw [hj] at hjoints
                      exact .behind hop hvalue hjoints
                  | ok r =>
                      obtain ⟨e, rest'', h'⟩ := r
                      rw [hj] at hjoints
                      exact .assignment ha (Nat.not_lt.1 hlevel) hvalue hjoints
            · exact .target (Option.isSome_of_eq_some ha)
      | none =>
          dsimp only
          cases hjoint : Joint.ofToken? token.kind with
          | none => exact .stop (TokenKind.stops_of_none ha hjoint)
          | some joint =>
              have hop := TokenKind.isInfix_of_joint hjoint
              dsimp only
              split
              · rename_i hlevel
                refine .stop ⟨fun hassign => ?_, fun other hother => ?_⟩
                · rw [next, ha] at hassign
                  cases hassign
                · rw [next, hjoint] at hother
                  cases hother
                  exact hlevel
              · rename_i hlevel
                have hright := readLevel_explained last (joint.level + 1) rest
                cases hr : readLevel last (joint.level + 1) rest with
                | error err =>
                    rw [hr] at hright
                    exact .right hop hright
                | ok r =>
                    obtain ⟨right, rest', h⟩ := r
                    rw [hr] at hright
                    have hlt : rest'.length < rest.length + 1 := Nat.lt_succ_of_lt h
                    have hjoints := readJoints_explained last level (joint.join left right) rest'
                    dsimp only
                    cases hj : readJoints last level (joint.join left right) rest' with
                    | error err =>
                        rw [hj] at hjoints
                        exact .behind hop hright hjoints
                    | ok r =>
                        obtain ⟨e, rest'', h'⟩ := r
                        rw [hj] at hjoints
                        exact .joint ha hjoint (Nat.not_lt.1 hlevel) hright hjoints
termination_by 4 * tokens.length + 1
decreasing_by all_goals (rw [List.length_cons]; omega)

theorem readOperand_explained (last : Nat) (tokens : List Token) :
    Explains last .operand tokens (fun e => [e]) (readOperand last tokens) := by
  cases tokens with
  | nil =>
      rw [readOperand]
      exact .missing rfl
  | cons token rest =>
      rw [readOperand]
      cases hop : UnaryOp.ofToken? token.kind with
      | some op =>
          have hoperand := readLevel_explained last 9 rest
          dsimp only
          cases hr : readLevel last 9 rest with
          | error err =>
              rw [hr] at hoperand
              exact .unary hop hoperand
          | ok r =>
              obtain ⟨operand, rest', h⟩ := r
              rw [hr] at hoperand
              exact .unary hop hoperand
      | none =>
          dsimp only
          split
          · rename_i n hk
            exact .single (by rw [hk]; rfl)
          · rename_i s hk
            exact .single (by rw [hk]; rfl)
          · rename_i b hk
            exact .single (by rw [hk]; rfl)
          · rename_i name hk
            exact .single (by rw [hk]; rfl)
          · rename_i word hk
            exact .unknown hk
          · rename_i hopen
            have hinside := readItems_explained last rest
            cases hr : readItems last rest with
            | error err =>
                rw [hr] at hinside
                exact .enclosed hopen hinside
            | ok r =>
                obtain ⟨items, rest', h⟩ := r
                rw [hr] at hinside
                dsimp only
                cases hof : ofItems items with
                | error err =>
                    obtain ⟨rfl, rfl⟩ := ofItems_error hof
                    exact .hollow hopen hinside
                | ok inner =>
                    have hne := ne_nil_of_ofItems hof
                    cases rest' with
                    | nil => exact .unclosed hopen hinside hne (by rintro ⟨⟩)
                    | cons close rest'' =>
                        dsimp only
                        split
                        · rename_i hclose
                          exact .enclosed hopen hinside hof hclose
                        · rename_i hclose
                          exact .unclosed hopen hinside hne hclose
          · rename_i hk
            exact .missing hk
          · rename_i hnumber hstr htruth hvar hident hparen heof
            refine .unexpected ?_
            cases hk : token.kind
            case number n => exact (hnumber n hk).elim
            case str s => exact (hstr s hk).elim
            case truth b => exact (htruth b hk).elim
            case var name => exact (hvar name hk).elim
            case ident word => exact (hident word hk).elim
            case lParen => exact (hparen hk).elim
            case bang | minus | plus =>
              rw [hk] at hop
              cases hop
            all_goals rfl
termination_by 4 * tokens.length
decreasing_by all_goals (rw [List.length_cons]; omega)

end

theorem Reads.derives (h : Reads last level tokens e rest) :
    Derives (.level level) tokens [e] rest := by
  obtain ⟨hlt, h⟩ := h
  have hexplained := readLevel_explained last level tokens
  rw [h] at hexplained
  exact hexplained

/-! ### What is derived is returned -/

/-- What a task returns. -/
def Task.Returned (last : Nat) (tokens : List Token) (result : List Expr) (rest : List Token) :
    Task → Prop
  | .operand => ∃ e, result = [e] ∧ ReadsOperand last tokens e rest
  | .level least => ∃ e, result = [e] ∧ Reads last least tokens e rest
  | .joints least left => ∃ e, result = [e] ∧ Joins last least left tokens e rest
  | .items => ReadsItems last tokens result rest

theorem ReadsOperand.single (h : token.kind.operand? = some e) :
    ReadsOperand last (token :: rest) e rest := by
  cases hk : token.kind with
  | number n =>
      rw [hk] at h
      cases h
      exact .number hk
  | str s =>
      rw [hk] at h
      cases h
      exact .str hk
  | truth b =>
      rw [hk] at h
      cases h
      exact .truth hk
  | var name =>
      rw [hk] at h
      cases h
      exact .var hk
  | _ =>
      rw [hk] at h
      cases h

theorem ReadsItems.none (h : endsSequence (next tokens) = true) :
    ReadsItems last tokens [] tokens := by
  refine ⟨Nat.le_refl _, ?_⟩
  rw [readItems, if_pos h]

/-- **What is derived is returned.** -/
theorem Derives.returned {task : Task} {result : List Expr}
    (h : Derives task tokens result rest) (last : Nat) : task.Returned last tokens result rest := by
  induction h with
  | single h => exact ⟨_, rfl, .single h⟩
  | unary hop _ ih =>
      obtain ⟨e, heq, hr⟩ := ih
      cases heq
      exact ⟨_, rfl, .unary hop hr⟩
  | enclosed ho _ hof hc ih => exact ⟨_, rfl, .enclosed ho ih hof hc⟩
  | level _ _ iho ihj =>
      obtain ⟨left, hleft, ho⟩ := iho
      obtain ⟨e, he, hj⟩ := ihj
      cases hleft
      cases he
      exact ⟨_, rfl, .of_operand ho hj⟩
  | stop hs => exact ⟨_, rfl, .stop hs⟩
  | assignment hop hle _ _ ihr ihj =>
      obtain ⟨value, hvalue, hr⟩ := ihr
      obtain ⟨e, he, hj⟩ := ihj
      cases hvalue
      cases he
      exact ⟨_, rfl, .assignment hop hle hr hj⟩
  | joint hnot hjoint hle _ _ ihr ihj =>
      obtain ⟨right, hright, hr⟩ := ihr
      obtain ⟨e, he, hj⟩ := ihj
      cases hright
      cases he
      exact ⟨_, rfl, .joint hnot hjoint hle hr hj⟩
  | none hend => exact .none hend
  | final _ hnot ih =>
      obtain ⟨e, he, hr⟩ := ih
      cases he
      exact .final hr hnot
  | cons _ hsep _ ihr ihitems =>
      obtain ⟨e, he, hr⟩ := ihr
      cases he
      exact .cons hr hsep ihitems

/-! ### All tokens of a source -/

/-- A source is what its items stand for, if they are followed by the end. -/
theorem ofTokens_eq_ok_iff : ofTokens tokens = .ok e ↔
    ∃ items rest, Derives .items tokens items rest ∧ ofItems items = .ok e ∧ next rest = .eof := by
  constructor
  · intro h
    have hexplained := readItems_explained ((tokens.getLast?.map Token.offset).getD 0) tokens
    rw [ofTokens] at h
    cases hr : readItems ((tokens.getLast?.map Token.offset).getD 0) tokens with
    | error err =>
        rw [hr] at h
        cases h
    | ok r =>
        obtain ⟨items, rest, hle⟩ := r
        rw [hr] at h hexplained
        dsimp only at h
        cases hof : ofItems items with
        | error err =>
            rw [hof] at h
            cases h
        | ok inner =>
            rw [hof] at h
            dsimp only at h
            split at h
            · rename_i hend
              cases h
              exact ⟨items, rest, hexplained, hof, hend⟩
            · cases h
  · rintro ⟨items, rest, hr, hof, hend⟩
    exact ofTokens_eq (fun last => ⟨items, hr.returned last, hof⟩) hend

/-- A source is refused for an error in its items, for having none, or for what follows them. -/
theorem ofTokens_error (h : ofTokens tokens = .error err) :
    Fails ((tokens.getLast?.map Token.offset).getD 0) .items tokens err ∨ err = .empty ∨
      ∃ items rest, Derives .items tokens items rest ∧ next rest ≠ .eof ∧
        err = .unexpectedToken (next rest).describe
          (position ((tokens.getLast?.map Token.offset).getD 0) rest) := by
  have hexplained := readItems_explained ((tokens.getLast?.map Token.offset).getD 0) tokens
  rw [ofTokens] at h
  cases hr : readItems ((tokens.getLast?.map Token.offset).getD 0) tokens with
  | error err' =>
      rw [hr] at h hexplained
      cases h
      exact .inl hexplained
  | ok r =>
      obtain ⟨items, rest, hle⟩ := r
      rw [hr] at h hexplained
      dsimp only at h
      cases hof : ofItems items with
      | error err' =>
          rw [hof] at h
          cases h
          exact .inr (.inl (ofItems_error hof).2)
      | ok inner =>
          rw [hof] at h
          dsimp only at h
          split at h
          · cases h
          · rename_i hend
            cases h
            exact .inr (.inr ⟨items, rest, hexplained, hend, rfl⟩)

/-- The error of a source that is not parsed. -/
def error? (text : List Char) : Option ExprError :=
  match parseChars text with
  | .ok _ => none
  | .error err => some err

theorem error?_eq_some_iff {text : List Char} :
    error? text = some err ↔ parseChars text = .error err := by
  unfold error?
  cases parseChars text with
  | ok e => constructor <;> rintro ⟨⟩
  | error other => exact Option.some_inj.trans ⟨congrArg _, Except.error.inj⟩

end Expr

end Gamebook
