/-
**The grammar of expressions.**

The readers of expressions call one another and hand on what is left of the tokens with a proof
that it is no longer than before.  Here is what they read, one rule for each thing that they do,
without these proofs: whatever is derived by the rules is what the readers return.

Main definitions:

* `Expr.Reads`, `Expr.Joins`, `Expr.ReadsOperand`, `Expr.ReadsItems` — what is read, and what is
  left of the tokens;
* `TokenKind.Stops` — a token ends what is read at a level.

Main results:

* `TokenKind.stops_of_none`, `TokenKind.stops_of_ends` — what ends it at every level;
* `Expr.Reads.of_operand`, `Expr.Joins.stop`, `Expr.Joins.joint`, `Expr.Joins.assignment` — **an
  operand, and the operators behind it**;
* `Expr.ReadsOperand.unary`, `Expr.ReadsOperand.enclosed` — operands of more than one token;
* `Expr.ReadsItems.final`, `Expr.ReadsItems.cons` — the items of a sequence;
* `Expr.ofTokens_eq` — what the readers return for all tokens of a source.
-/

import Gamebook.Expr.Parse

set_option relaxedAutoImplicit false
set_option autoImplicit false

namespace Gamebook

/-- A token ends what is read at a level: it stands for no operator that binds as tightly. -/
def TokenKind.Stops (level : Nat) (kind : TokenKind) : Prop :=
  ((Token.assignment? kind).isSome → 2 < level) ∧
    ∀ joint, Joint.ofToken? kind = some joint → joint.level < level

namespace TokenKind

variable {kind : TokenKind} {a b : Nat}

theorem Stops.mono (h : kind.Stops a) (hle : a ≤ b) : kind.Stops b :=
  ⟨fun hassign => Nat.lt_of_lt_of_le (h.1 hassign) hle,
    fun joint hjoint => Nat.lt_of_lt_of_le (h.2 joint hjoint) hle⟩

/-- A token that stands for no operator ends what is read at every level. -/
theorem stops_of_none (ha : Token.assignment? kind = none) (hj : Joint.ofToken? kind = none) :
    kind.Stops a := by
  refine ⟨fun hassign => ?_, fun joint hjoint => ?_⟩
  · rw [ha] at hassign
    cases hassign
  · rw [hj] at hjoint
    cases hjoint

theorem stops_of_ends (h : Expr.endsSequence kind = true) : kind.Stops a := by
  cases kind
  case eof | rParen => exact stops_of_none rfl rfl
  all_goals cases h

theorem isSeparator_of_ends (h : Expr.endsSequence kind = true) :
    Expr.isSeparator kind = false := by
  cases kind
  case eof | rParen => rfl
  all_goals cases h

end TokenKind

namespace Expr

variable {last level : Nat} {tokens rest rest' rest'' : List Token} {token : Token}
variable {e left right value : Expr} {items : List Expr}

/-! ### What is read -/

/-- An expression is read at a level. -/
def Reads (last level : Nat) (tokens : List Token) (e : Expr) (rest : List Token) : Prop :=
  ∃ h, readLevel last level tokens = .ok (e, ⟨rest, h⟩)

/-- Behind an operand an expression is completed at a level. -/
def Joins (last level : Nat) (left : Expr) (tokens : List Token) (e : Expr) (rest : List Token) :
    Prop :=
  ∃ h, readJoints last level left tokens = .ok (e, ⟨rest, h⟩)

/-- An operand is read. -/
def ReadsOperand (last : Nat) (tokens : List Token) (e : Expr) (rest : List Token) : Prop :=
  ∃ h, readOperand last tokens = .ok (e, ⟨rest, h⟩)

/-- The items of a sequence are read. -/
def ReadsItems (last : Nat) (tokens : List Token) (items : List Expr) (rest : List Token) : Prop :=
  ∃ h, readItems last tokens = .ok (items, ⟨rest, h⟩)

/-! ### An operand, and the operators behind it -/

theorem Reads.of_operand (ho : ReadsOperand last tokens left rest)
    (hj : Joins last level left rest e rest') : Reads last level tokens e rest' := by
  obtain ⟨h, ho⟩ := ho
  obtain ⟨h', hj⟩ := hj
  refine ⟨Nat.lt_of_le_of_lt h' h, ?_⟩
  rw [readLevel, ho]
  simp only [hj]

theorem Joins.stop (hs : (next tokens).Stops level) : Joins last level left tokens left tokens := by
  refine ⟨Nat.le_refl _, ?_⟩
  cases tokens with
  | nil => rw [readJoints]
  | cons token rest =>
      obtain ⟨hassign, hjoint⟩ := hs
      rw [readJoints]
      cases ha : Token.assignment? token.kind with
      | some op => exact if_pos (hassign (by simp [next, ha]))
      | none =>
          cases hj : Joint.ofToken? token.kind with
          | none => rfl
          | some joint => exact if_pos (hjoint joint hj)

theorem Joins.joint {joint : Joint} (hnot : Token.assignment? token.kind = none)
    (hjoint : Joint.ofToken? token.kind = some joint) (hle : level ≤ joint.level)
    (hr : Reads last (joint.level + 1) rest right rest')
    (hj : Joins last level (joint.join left right) rest' e rest'') :
    Joins last level left (token :: rest) e rest'' := by
  obtain ⟨h, hr⟩ := hr
  obtain ⟨h', hj⟩ := hj
  refine ⟨by rw [List.length_cons]; omega, ?_⟩
  rw [readJoints, hnot]
  simp only [hjoint]
  rw [if_neg (Nat.not_lt.2 hle), hr]
  simp only [hj]

theorem Joins.assignment {op : Option BinaryOp} {name : String}
    (hassign : Token.assignment? token.kind = some op) (hle : level ≤ 2)
    (hr : Reads last 2 rest value rest')
    (hj : Joins last level (.assign name op value) rest' e rest'') :
    Joins last level (.var name) (token :: rest) e rest'' := by
  obtain ⟨h, hr⟩ := hr
  obtain ⟨h', hj⟩ := hj
  refine ⟨by rw [List.length_cons]; omega, ?_⟩
  rw [readJoints, hassign]
  simp only [Nat.not_lt.2 hle, if_false, hr, hj]

/-! ### Operands -/

theorem ReadsOperand.unary {op : UnaryOp} (hop : UnaryOp.ofToken? token.kind = some op)
    (hr : Reads last 9 rest e rest') : ReadsOperand last (token :: rest) (.unary op e) rest' := by
  obtain ⟨h, hr⟩ := hr
  refine ⟨by rw [List.length_cons]; omega, ?_⟩
  rw [readOperand, hop]
  simp only [hr]

theorem ReadsOperand.number {n : Float} (hk : token.kind = .number n) :
    ReadsOperand last (token :: rest) (.lit (.num n)) rest := by
  refine ⟨Nat.lt_succ_self _, ?_⟩
  simp only [readOperand, hk, UnaryOp.ofToken?]

theorem ReadsOperand.str {s : String} (hk : token.kind = .str s) :
    ReadsOperand last (token :: rest) (.lit (.str s)) rest := by
  refine ⟨Nat.lt_succ_self _, ?_⟩
  simp only [readOperand, hk, UnaryOp.ofToken?]

theorem ReadsOperand.truth {b : Bool} (hk : token.kind = .truth b) :
    ReadsOperand last (token :: rest) (.lit (.bool b)) rest := by
  refine ⟨Nat.lt_succ_self _, ?_⟩
  simp only [readOperand, hk, UnaryOp.ofToken?]

theorem ReadsOperand.var {name : String} (hk : token.kind = .var name) :
    ReadsOperand last (token :: rest) (.var name) rest := by
  refine ⟨Nat.lt_succ_self _, ?_⟩
  simp only [readOperand, hk, UnaryOp.ofToken?]

theorem ReadsOperand.enclosed {close : Token} (ho : token.kind = .lParen)
    (hr : ReadsItems last rest items (close :: rest')) (hitems : ofItems items = .ok e)
    (hc : close.kind = .rParen) : ReadsOperand last (token :: rest) e rest' := by
  obtain ⟨h, hr⟩ := hr
  rw [List.length_cons] at h
  refine ⟨by rw [List.length_cons]; omega, ?_⟩
  simp only [readOperand, ho, UnaryOp.ofToken?, hr, hitems, hc, if_true]

/-! ### Items -/

/-- What is read begins with no end. -/
theorem Reads.starts (hr : Reads last level tokens e rest) :
    endsSequence (next tokens) = false := by
  obtain ⟨h, hr⟩ := hr
  cases tokens with
  | nil => cases h
  | cons token tokens =>
      rw [Bool.eq_false_iff]
      intro hend
      have hkind : token.kind = .eof ∨ token.kind = .rParen := by
        simpa [next, endsSequence] using hend
      rcases hkind with hkind | hkind
      · simp [readLevel, readOperand, hkind, UnaryOp.ofToken?] at hr
      · simp [readLevel, readOperand, hkind, UnaryOp.ofToken?] at hr

theorem ReadsItems.final (hr : Reads last 2 tokens e rest)
    (hnot : isSeparator (next rest) = false) : ReadsItems last tokens [e] rest := by
  have hstart := hr.starts
  obtain ⟨h, hr⟩ := hr
  refine ⟨Nat.le_of_lt h, ?_⟩
  rw [readItems, hstart, if_neg Bool.false_ne_true, hr]
  cases rest with
  | nil => rfl
  | cons token rest => exact if_neg (by simpa [next] using hnot)

theorem ReadsItems.cons (hr : Reads last 2 tokens e (token :: rest))
    (hsep : isSeparator token.kind = true) (hitems : ReadsItems last rest items rest') :
    ReadsItems last tokens (e :: items) rest' := by
  have hstart := hr.starts
  obtain ⟨h, hr⟩ := hr
  obtain ⟨h', hitems⟩ := hitems
  rw [List.length_cons] at h
  refine ⟨by omega, ?_⟩
  rw [readItems, hstart, if_neg Bool.false_ne_true, hr]
  simp only [hsep, if_true, hitems]

/-! ### All tokens -/

/-- What the readers return for all tokens of a source. -/
theorem ofTokens_eq
    (hr : ∀ last, ∃ items, ReadsItems last tokens items rest ∧ ofItems items = .ok e)
    (hend : next rest = .eof) : ofTokens tokens = .ok e := by
  obtain ⟨items, ⟨h, hr⟩, hitems⟩ := hr ((tokens.getLast?.map Token.offset).getD 0)
  simp only [ofTokens, hr, hitems, hend, if_true]

end Expr

end Gamebook
