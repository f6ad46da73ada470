/-
**Reading expressions.**

An expression is read from its tokens by operator precedence.  From the loosest to the tightest
the levels are: sequence (`;` and `,`), assignment (to the right), `or`, `and`, equality,
relations, addition, multiplication, and operators written before their operand.  All binary
operators group to the left.

Every reader returns what is left of the tokens with a proof that it is no longer than what it was
given, and the recursion follows the number of tokens left.

Main definitions:

* `Joint`, `Joint.ofToken?`, `Joint.level` — the operators between operands and their levels;
* `Expr.readItems`, `Expr.readLevel`, `Expr.readJoints`, `Expr.readOperand` — the readers;
* `Expr.ofTokens`, `Expr.parse` — the expression that a row of tokens, or a text, stands for.
-/

import Gamebook.Expr.Token

set_option relaxedAutoImplicit false
set_option autoImplicit false

namespace Gamebook

/-! ### Operators between operands -/

/-- What joins two operands. -/
inductive Joint where
  | or
  | and
  | binary (op : BinaryOp)
  deriving DecidableEq, Repr

namespace Joint

/-- The operator that a token stands for between two operands. -/
def ofToken? : TokenKind → Option Joint
  | .pipePipe => some .or
  | .ampAmp => some .and
  | .eqEq => some (.binary .eq)
  | .notEq => some (.binary .notEq)
  | .eqEqEq => some (.binary .strictEq)
  | .notEqEq => some (.binary .strictNotEq)
  | .less => some (.binary (.relation .less))
  | .lessEq => some (.binary (.relation .lessEq))
  | .greater => some (.binary (.relation .greater))
  | .greaterEq => some (.binary (.relation .greaterEq))
  | .plus => some (.binary .add)
  | .minus => some (.binary .sub)
  | .star => some (.binary .mul)
  | .slash => some (.binary .div)
  | .percent => some (.binary .rem)
  | _ => none

/-- How tightly an operator binds; assignment is level 2 and an operator before its operand
level 9. -/
def level : Joint → Nat
  | .or => 3
  | .and => 4
  | .binary .eq | .binary .notEq | .binary .strictEq | .binary .strictNotEq => 5
  | .binary (.relation _) => 6
  | .binary .add | .binary .sub => 7
  | .binary .mul | .binary .div | .binary .rem => 8

/-- The expression that joins two operands. -/
def join (left right : Expr) : Joint → Expr
  | .or => .or left right
  | .and => .and left right
  | .binary op => .binary op left right

end Joint

/-- The assignment that a token stands for: plain, or combined with an operator. -/
def Token.assignment? : TokenKind → Option (Option BinaryOp)
  | .eq => some none
  | .plusEq => some (some .add)
  | .minusEq => some (some .sub)
  | .starEq => some (some .mul)
  | .slashEq => some (some .div)
  | _ => none

/-- The operator that a token stands for before its operand. -/
def UnaryOp.ofToken? : TokenKind → Option UnaryOp
  | .bang => some .not
  | .minus => some .neg
  | .plus => some .plus
  | _ => none

namespace Expr

/-! ### Readers -/

/-- The kind of the next token; past the last one it is the end. -/
def next (tokens : List Token) : TokenKind :=
  match tokens with
  | token :: _ => token.kind
  | [] => .eof

/-- The position of the next token; past the last one it is `last`, the position of the end. -/
def position (last : Nat) (tokens : List Token) : Nat :=
  match tokens with
  | token :: _ => token.offset
  | [] => last

/-- Whether a sequence ends before this token. -/
def endsSequence (kind : TokenKind) : Bool := kind == .eof || kind == .rParen

/-- Whether a token separates the items of a sequence. -/
def isSeparator (kind : TokenKind) : Bool := kind == .semicolon || kind == .comma

/-- The expression that a sequence of items stands for: one item stands for itself. -/
def ofItems : List Expr → Except ExprError Expr
  | [] => .error .empty
  | [item] => .ok item
  | items => .ok (.sequence items)

mutual

/-- Reads the items of a sequence, each of which may be followed by one separator. -/
def readItems (last : Nat) (tokens : List Token) :
    Except ExprError (List Expr × {rest : List Token // rest.length ≤ tokens.length}) :=
  if endsSequence (next tokens) then .ok ([], ⟨tokens, Nat.le_refl _⟩)
  else
    match readLevel last 2 tokens with
    | .error e => .error e
    -- nothing follows, not even the end
    | .ok (item, ⟨[], h⟩) => .ok ([item], ⟨[], Nat.le_of_lt h⟩)
    | .ok (item, ⟨token :: rest, h⟩) =>
        if isSeparator token.kind then
          have : rest.length < tokens.length := Nat.lt_of_succ_lt h
          match readItems last rest with
          | .error e => .error e
          | .ok (items, ⟨rest', h'⟩) => .ok (item :: items, ⟨rest', by omega⟩)
        -- what does not separate is left to the reader outside
        else .ok ([item], ⟨token :: rest, Nat.le_of_lt h⟩)
termination_by 4 * tokens.length + 3
decreasing_by all_goals omega

/-- Reads an expression whose operators bind at least as tightly as `level`. -/
def readLevel (last level : Nat) (tokens : List Token) :
    Except ExprError (Expr × {rest : List Token // rest.length < tokens.length}) :=
  match readOperand last tokens with
  | .error e => .error e
  | .ok (left, ⟨rest, h⟩) =>
      match readJoints last level left rest with
      | .error e => .error e
      | .ok (e, ⟨rest', h'⟩) => .ok (e, ⟨rest', by omega⟩)
termination_by 4 * tokens.length + 2
decreasing_by all_goals omega

/-- Reads the operators that follow the operand `left` and bind at least as tightly as `level`,
with what they apply to. -/
def readJoints (last level : Nat) (left : Expr) (tokens : List Token) :
    Except ExprError (Expr × {rest : List Token // rest.length ≤ tokens.length}) :=
  match tokens with
  | [] => .ok (left, ⟨[], Nat.le_refl _⟩)
  | token :: rest =>
      match Token.assignment? token.kind with
      | some op =>
          if 2 < level then .ok (left, ⟨token :: rest, Nat.le_refl _⟩)
          else
            match left with
            | .var name =>
                match readLevel last 2 rest with
                | .error e => .error e
                | .ok (value, ⟨rest', h⟩) =>
                    have : rest'.length < rest.length + 1 := by omega
                    match readJoints last level (.assign name op value) rest' with
                    | .error e => .error e
                    | .ok (e, ⟨rest'', h'⟩) => .ok (e, ⟨rest'', by rw [List.length_cons]; omega⟩)
            -- only a variable can be assigned to
            | _ => .error (.invalidAssignmentTarget token.offset)
      | none =>
          match Joint.ofToken? token.kind with
          | none => .ok (left, ⟨token :: rest, Nat.le_refl _⟩)
          | some joint =>
              if joint.level < level then .ok (left, ⟨token :: rest, Nat.le_refl _⟩)
              else
                match readLevel last (joint.level + 1) rest with
                | .error e => .error e
                | .ok (right, ⟨rest', h⟩) =>
                    have : rest'.length < rest.length + 1 := by omega
                    match readJoints last level (joint.join left right) rest' with
                    | .error e => .error e
                    | .ok (e, ⟨rest'', h'⟩) => .ok (e, ⟨rest'', by rw [List.length_cons]; omega⟩)
termination_by 4 * tokens.length + 1
decreasing_by all_goals (rw [List.length_cons]; omega)

/-- Reads an operand: a literal, a variable, an expression in parentheses, or an operand behind an
operator. -/
def readOperand (last : Nat) (tokens : List Token) :
    Except ExprError (Expr × {rest : List Token // rest.length < tokens.length}) :=
  match tokens with
  | [] => .error .unexpectedEnd
  | token :: rest =>
      match UnaryOp.ofToken? token.kind with
      | some op =>
          match readLevel last 9 rest with
          | .error e => .error e
          | .ok (operand, ⟨rest', h⟩) => .ok (.unary op operand, ⟨rest', by rw [List.length_cons]; omega⟩)
      | none =>
          match token.kind with
          | .number n => .ok (.lit (.num n), ⟨rest, Nat.lt_succ_self _⟩)
          | .str s => .ok (.lit (.str s), ⟨rest, Nat.lt_succ_self _⟩)
          | .truth b => .ok (.lit (.bool b), ⟨rest, Nat.lt_succ_self _⟩)
          | .var name => .ok (.var name, ⟨rest, Nat.lt_succ_self _⟩)
          | .ident word => .error (.unknownIdentifier word token.offset)
          | .lParen =>
              match readItems last rest with
              | .error e => .error e
              | .ok (items, ⟨rest', h⟩) =>
                  match ofItems items with
                  | .error e => .error e
                  | .ok inner =>
                      match rest' with
                      | [] => .error (.unexpectedToken (TokenKind.describe .eof) last)
                      | close :: rest'' =>
                          if close.kind = .rParen then
                            .ok (inner, ⟨rest'', by rw [List.length_cons] at h ⊢; omega⟩)
                          else
                            -- the error names the token that stands here and the place behind it
                            .error (.unexpectedToken close.kind.describe (position last rest''))
          | .eof => .error .unexpectedEnd
          | kind => .error (.unexpectedToken kind.describe token.offset)
termination_by 4 * tokens.length
decreasing_by all_goals (rw [List.length_cons]; omega)

end

/-- The expression that a row of tokens stands for. -/
def ofTokens (tokens : List Token) : Except ExprError Expr :=
  let last := (tokens.getLast?.map Token.offset).getD 0
  match readItems last tokens with
  | .error e => .error e
  | .ok (items, ⟨rest, _⟩) =>
      match ofItems items with
      | .error e => .error e
      | .ok e =>
          if next rest = .eof then .ok e
          else .error (.unexpectedToken (next rest).describe (position last rest))

/-- The expression that a text stands for. -/
def parseChars (text : List Char) : Except ExprError Expr :=
  match Token.ofChars text with
  | .error e => .error e
  | .ok tokens => ofTokens tokens

/-- The expression that a string stands for. -/
def parse (source : String) : Except ExprError Expr := parseChars source.toList

end Expr

end Gamebook
