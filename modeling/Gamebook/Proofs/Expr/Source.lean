/-
**Printing an expression.**

An expression is printed as its tokens with spaces between them.  An operand stands in parentheses
only where it binds more loosely than its place asks for: left of an operator the level of the
operator is enough, as operators group to the left, and right of it the next one is needed.

Main definitions:

* `Expr.level`, `Expr.within`, `Expr.tokens`, `Expr.source` — the printed form of an expression;
* `Expr.Every`, `Expr.Proper`, `Expr.Signed` — the expressions that have one;
* `Expr.Returns` — the readers return an expression for its tokens, whatever ends it.

Main results:

* `Expr.Returns.within`, `Expr.Returns.join`, `Expr.returns` — **every expression is returned for
  its tokens**, at every level that it may stand at;
* `Expr.parseChars_of_lexes`, `Expr.parseChars_spaced` — **an expression is read back from its
  tokens**.
-/

import Gamebook.Proofs.Expr.Grammar
import Gamebook.Proofs.Expr.Written

set_option relaxedAutoImplicit false
set_option autoImplicit false

namespace Gamebook

/-! ### The tokens of an expression -/

/-- The token that an operator between two operands is printed as. -/
def Joint.token : Joint → TokenKind
  | .or => .pipePipe
  | .and => .ampAmp
  | .binary .eq => .eqEq
  | .binary .notEq => .notEq
  | .binary .strictEq => .eqEqEq
  | .binary .strictNotEq => .notEqEq
  | .binary (.relation .less) => .less
  | .binary (.relation .lessEq) => .lessEq
  | .binary (.relation .greater) => .greater
  | .binary (.relation .greaterEq) => .greaterEq
  | .binary .add => .plus
  | .binary .sub => .minus
  | .binary .mul => .star
  | .binary .div => .slash
  | .binary .rem => .percent

/-- The token that an operator before its operand is printed as. -/
def UnaryOp.token : UnaryOp → TokenKind
  | .not => .bang
  | .neg => .minus
  | .plus => .plus

/-- The tokens that an assignment is printed as.  Only four operators have an assignment in one
token; the others would be an operator and an equals sign. -/
def Token.assignment : Option BinaryOp → List TokenKind
  | none => [.eq]
  | some .add => [.plusEq]
  | some .sub => [.minusEq]
  | some .mul => [.starEq]
  | some .div => [.slashEq]
  | some op => [(Joint.binary op).token, .eq]

/-- The token of a literal; undefined has none of its own. -/
def Value.token : Value → TokenKind
  | .bool b => .truth b
  | .num n => .number n
  | .str s => .str s
  | .undefined => .ident "undefined"

namespace Expr

/-- How tightly the outermost operator of an expression binds; sequence is level 1 and an
expression of one token level 10. -/
def level : Expr → Nat
  | .lit _ | .var _ => 10
  | .unary _ _ => 9
  | .binary op _ _ => (Joint.binary op).level
  | .and _ _ => Joint.and.level
  | .or _ _ => Joint.or.level
  | .assign _ _ _ => 2
  | .sequence _ => 1

/-- The tokens of an operand, in parentheses where its place asks for a tighter `level`. -/
def enclosed (level own : Nat) (tokens : List TokenKind) : List TokenKind :=
  if own < level then .lParen :: (tokens ++ [.rParen]) else tokens

mutual

/-- The tokens that an expression is printed as. -/
def tokens : Expr → List TokenKind
  | .lit v => [v.token]
  | .var name => [.var name]
  | .unary op operand => op.token :: enclosed 9 operand.level (tokens operand)
  | .binary op left right =>
      enclosed (Joint.binary op).level left.level (tokens left) ++
        (Joint.binary op).token :: enclosed ((Joint.binary op).level + 1) right.level (tokens right)
  | .and left right =>
      enclosed Joint.and.level left.level (tokens left) ++
        Joint.and.token :: enclosed (Joint.and.level + 1) right.level (tokens right)
  | .or left right =>
      enclosed Joint.or.level left.level (tokens left) ++
        Joint.or.token :: enclosed (Joint.or.level + 1) right.level (tokens right)
  | .assign name op value =>
      .var name :: (Token.assignment op ++ enclosed 2 value.level (tokens value))
  | .sequence items => itemTokens items

/-- The tokens of the items of a sequence, with a semicolon between each two. -/
def itemTokens : List Expr → List TokenKind
  | [] => []
  | [item] => enclosed 2 item.level (tokens item)
  | item :: items => enclosed 2 item.level (tokens item) ++ .semicolon :: itemTokens items

end

/-- The tokens of an operand at a place that asks for a `level`. -/
def within (level : Nat) (e : Expr) : List TokenKind := enclosed level e.level e.tokens

/-- An expression in print. -/
def source (e : Expr) : String := String.ofList (Token.spaced e.tokens)

/-! ### Expressions that have a printed form -/

mutual

/-- A property of an expression and of every expression in it. -/
def Every (p : Expr → Prop) : Expr → Prop
  | .lit v => p (.lit v)
  | .var name => p (.var name)
  | .unary op operand => p (.unary op operand) ∧ Every p operand
  | .binary op left right => p (.binary op left right) ∧ Every p left ∧ Every p right
  | .and left right => p (.and left right) ∧ Every p left ∧ Every p right
  | .or left right => p (.or left right) ∧ Every p left ∧ Every p right
  | .assign name op value => p (.assign name op value) ∧ Every p value
  | .sequence items => p (.sequence items) ∧ EveryItem p items

/-- A property of every expression in a row. -/
def EveryItem (p : Expr → Prop) : List Expr → Prop
  | [] => True
  | item :: items => Every p item ∧ EveryItem p items

end

/-- A literal is a boolean, a string or a number without a sign; a variable has a name; a sequence
has two items or more. -/
def Proper : Expr → Prop
  | .lit (.num n) => Number.isNegative n = false
  | .lit .undefined => False
  | .var name => IsName name
  | .assign name _ _ => IsName name
  | .sequence items => 2 ≤ items.length
  | _ => True

/-- An assignment is plain, or combined with an operator that has an assignment. -/
def Signed : Expr → Prop
  | .assign _ op _ => op ∈ [none, some .add, some .sub, some .mul, some .div]
  | _ => True

end Expr

/-! ### Operators in print -/

namespace Joint

theorem ofToken?_token (joint : Joint) : ofToken? joint.token = some joint := by
  rcases joint with _ | _ | (_ | _ | _ | _ | _ | _ | _ | _ | _ | (_ | _ | _ | _)) <;> rfl

theorem assignment?_token (joint : Joint) : Token.assignment? joint.token = none := by
  rcases joint with _ | _ | (_ | _ | _ | _ | _ | _ | _ | _ | _ | (_ | _ | _ | _)) <;> rfl

theorem level_bounds (joint : Joint) : 3 ≤ joint.level ∧ joint.level ≤ 8 := by
  rcases joint with _ | _ | (_ | _ | _ | _ | _ | _ | _ | _ | _ | (_ | _ | _ | _)) <;> decide

theorem writable_token (joint : Joint) : joint.token.Writable := by
  rcases joint with _ | _ | (_ | _ | _ | _ | _ | _ | _ | _ | _ | (_ | _ | _ | _)) <;> trivial

theorem token_stops (joint : Joint) : joint.token.Stops (joint.level + 1) := by
  refine ⟨fun hassign => ?_, fun other hother => ?_⟩
  · rw [assignment?_token] at hassign
    cases hassign
  · rw [ofToken?_token] at hother
    cases hother
    exact Nat.lt_succ_self _

end Joint

theorem UnaryOp.ofToken?_token (op : UnaryOp) : UnaryOp.ofToken? op.token = some op := by
  cases op <;> rfl

namespace Expr

variable {last level least : Nat} {before rest rest' : List Token} {e e' left right : Expr}
variable {items : List Expr}

/-- The level at which the last operand of an expression is read: what ends that operand ends the
expression. -/
def reach : Expr → Nat
  | .lit _ | .var _ => 10
  | .unary _ _ => 9
  | .binary op _ _ => (Joint.binary op).level + 1
  | .and _ _ => Joint.and.level + 1
  | .or _ _ => Joint.or.level + 1
  | .assign _ _ _ => 2
  | .sequence _ => 1

theorem level_le_reach (e : Expr) : e.level ≤ e.reach := by
  cases e <;> simp only [Expr.level, reach, Nat.le_refl, Nat.le_add_right]

/-- An operand left of an operator ends before it. -/
theorem lt_reach {joint : Joint} (h : joint.level ≤ e.level) : joint.level + 1 ≤ e.reach := by
  have hbounds := joint.level_bounds
  cases e <;> simp only [Expr.level, reach] at h ⊢ <;> omega

/-- The readers return an expression for its tokens, in front of whatever ends it: as an operand
with operators behind it, and as the items of a sequence. -/
structure Returns (e : Expr) : Prop where
  reads : ∀ {last least : Nat} {before rest rest' : List Token} {e' : Expr}, 2 ≤ e.level →
    least ≤ e.level → before.map Token.kind = e.tokens → (next rest).Stops e.reach →
      Joins last least e rest e' rest' → Reads last least (before ++ rest) e' rest'
  items : ∀ {last : Nat} {before rest : List Token}, before.map Token.kind = e.tokens →
    endsSequence (next rest) = true →
      ∃ items, ReadsItems last (before ++ rest) items rest ∧ ofItems items = .ok e

/-- What is no sequence is the one item of a sequence. -/
theorem Returns.of_reads (hlevel : 2 ≤ e.level)
    (h : ∀ {last least : Nat} {before rest rest' : List Token} {e' : Expr}, least ≤ e.level →
      before.map Token.kind = e.tokens → (next rest).Stops e.reach →
        Joins last least e rest e' rest' → Reads last least (before ++ rest) e' rest') :
    e.Returns := by
  refine ⟨fun _ => h, fun {last before rest} hb hend => ⟨[e], ?_, rfl⟩⟩
  have hstops : ∀ {a : Nat}, (next rest).Stops a := TokenKind.stops_of_ends hend
  exact .final (h hlevel hb hstops (.stop hstops)) (TokenKind.isSeparator_of_ends hend)

/-- **An operand is returned for its tokens**, in parentheses where its place asks for them. -/
theorem Returns.within (h : e.Returns) (hlevel : 2 ≤ level) (hle : least ≤ level)
    (hb : before.map Token.kind = e.within level)
    (hstop : level ≤ e.level → (next rest).Stops e.reach) (hj : Joins last least e rest e' rest') :
    Reads last least (before ++ rest) e' rest' := by
  rw [Expr.within, enclosed] at hb
  split at hb
  · obtain ⟨first, inner, rfl, hfirst, hinner⟩ := List.map_eq_cons_iff.1 hb
    obtain ⟨inside, closing, rfl, hinside, hclosing⟩ := List.map_eq_append_iff.1 hinner
    obtain ⟨close, nothing, rfl, hclose, hnothing⟩ := List.map_eq_cons_iff.1 hclosing
    obtain rfl := List.map_eq_nil_iff.1 hnothing
    have hends : endsSequence (next (close :: rest)) = true := by
      rw [next, hclose]
      rfl
    obtain ⟨items, hitems, hof⟩ := h.items hinside hends
    rw [List.cons_append, List.append_assoc, List.singleton_append]
    exact .of_operand (.enclosed hfirst hitems hof hclose) hj
  · rename_i hopen
    exact h.reads (by omega) (by omega) hb (hstop (by omega)) hj

/-! ### One case for each kind of expression -/

theorem Returns.lit {v : Value} (hv : Proper (.lit v)) : (Expr.lit v).Returns := by
  refine .of_reads (by simp [Expr.level]) fun _ hb _ hj => ?_
  obtain ⟨token, nothing, rfl, htoken, hnothing⟩ := List.map_eq_cons_iff.1 hb
  obtain rfl := List.map_eq_nil_iff.1 hnothing
  cases v with
  | bool b => exact .of_operand (.truth htoken) hj
  | num n => exact .of_operand (.number htoken) hj
  | str s => exact .of_operand (.str htoken) hj
  | undefined => exact hv.elim

theorem Returns.var (name : String) : (Expr.var name).Returns := by
  refine .of_reads (by simp [Expr.level]) fun _ hb _ hj => ?_
  obtain ⟨token, nothing, rfl, htoken, hnothing⟩ := List.map_eq_cons_iff.1 hb
  obtain rfl := List.map_eq_nil_iff.1 hnothing
  exact .of_operand (.var htoken) hj

theorem Returns.unary (op : UnaryOp) (h : e.Returns) : (Expr.unary op e).Returns := by
  refine .of_reads (by simp [Expr.level]) fun _ hb hstop hj => ?_
  obtain ⟨token, inner, rfl, htoken, hinner⟩ := List.map_eq_cons_iff.1 hb
  have hop : UnaryOp.ofToken? token.kind = some op := by
    rw [htoken, UnaryOp.ofToken?_token]
  refine .of_operand (.unary hop (h.within (by decide) (Nat.le_refl 9) hinner ?_ ?_)) hj
  · exact fun hle => hstop.mono (hle.trans e.level_le_reach)
  · exact .stop hstop

theorem level_join (joint : Joint) (left right : Expr) :
    (joint.join left right).level = joint.level := by
  cases joint <;> rfl

theorem reach_join (joint : Joint) (left right : Expr) :
    (joint.join left right).reach = joint.level + 1 := by
  cases joint <;> rfl

theorem tokens_join (joint : Joint) :
    (joint.join left right).tokens =
      left.within joint.level ++ joint.token :: right.within (joint.level + 1) := by
  cases joint <;> rw [Joint.join, tokens] <;> rfl

/-- **Two operands with an operator between them**: the left one ends before the operator and the
right one where the whole ends. -/
theorem Returns.join (joint : Joint) (hl : left.Returns) (hr : right.Returns) :
    (joint.join left right).Returns := by
  have hbounds := joint.level_bounds
  have hlevel := level_join joint left right
  refine .of_reads (by omega) fun hle hb hstop hj => ?_
  rw [tokens_join] at hb
  rw [reach_join] at hstop
  obtain ⟨before, behind, rfl, hbefore, hbehind⟩ := List.map_eq_append_iff.1 hb
  obtain ⟨token, after, rfl, htoken, hafter⟩ := List.map_eq_cons_iff.1 hbehind
  have hnot : Token.assignment? token.kind = none := by rw [htoken, joint.assignment?_token]
  have hjoint : Joint.ofToken? token.kind = some joint := by rw [htoken, joint.ofToken?_token]
  rw [List.append_assoc, List.cons_append]
  refine hl.within (by omega) (by omega) hbefore (fun hleft => ?_) ?_
  · rw [next, htoken]
    exact joint.token_stops.mono (lt_reach hleft)
  · refine .joint hnot hjoint (by omega) (hr.within (by omega) (Nat.le_refl _) hafter ?_ ?_) hj
    · exact fun hright => hstop.mono (hright.trans right.level_le_reach)
    · exact .stop hstop

theorem assignment?_of_signed {name : String} {op : Option BinaryOp} {value : Expr}
    (h : Signed (.assign name op value)) :
    ∃ kind, Token.assignment op = [kind] ∧ Token.assignment? kind = some op := by
  simp only [Signed, List.mem_cons, List.not_mem_nil, or_false] at h
  rcases h with rfl | rfl | rfl | rfl | rfl <;> exact ⟨_, rfl, rfl⟩

theorem Returns.assign {name : String} {op : Option BinaryOp} (h : e.Returns)
    (hop : Signed (.assign name op e)) : (Expr.assign name op e).Returns := by
  obtain ⟨kind, hkind, hassign⟩ := assignment?_of_signed hop
  refine .of_reads (Nat.le_refl 2) fun hle hb hstop hj => ?_
  rw [tokens, hkind] at hb
  obtain ⟨token, more, rfl, htoken, hmore⟩ := List.map_eq_cons_iff.1 hb
  obtain ⟨sign, inner, rfl, hsign, hinner⟩ := List.map_eq_cons_iff.1 hmore
  refine .of_operand (.var htoken) (.assignment (hsign ▸ hassign) hle ?_ hj)
  refine h.within (Nat.le_refl 2) (Nat.le_refl 2) hinner ?_ (.stop hstop)
  exact fun hvalue => hstop.mono (hvalue.trans e.level_le_reach)

/-- The items of a sequence are returned for their tokens. -/
theorem readsItems_of_returns (hitems : ∀ item ∈ items, item.Returns) (hne : items ≠ [])
    (hb : before.map Token.kind = itemTokens items) (hend : endsSequence (next rest) = true) :
    ReadsItems last (before ++ rest) items rest := by
  induction items generalizing before with
  | nil => exact absurd rfl hne
  | cons item items ih =>
      have hitem := hitems item List.mem_cons_self
      have hothers : ∀ other ∈ items, other.Returns := fun other hother =>
        hitems other (List.mem_cons_of_mem _ hother)
      cases items with
      | nil =>
          have hstops : ∀ {a : Nat}, (next rest).Stops a := TokenKind.stops_of_ends hend
          refine .final ?_ (TokenKind.isSeparator_of_ends hend)
          exact hitem.within (Nat.le_refl 2) (Nat.le_refl 2) hb (fun _ => hstops) (.stop hstops)
      | cons other items =>
          obtain ⟨before, behind, rfl, hbefore, hbehind⟩ := List.map_eq_append_iff.1 hb
          obtain ⟨token, after, rfl, htoken, hafter⟩ := List.map_eq_cons_iff.1 hbehind
          have hstops : ∀ {a : Nat}, (next (token :: (after ++ rest))).Stops a := by
            intro a
            rw [next, htoken]
            exact TokenKind.stops_of_none rfl rfl
          rw [List.append_assoc, List.cons_append]
          refine .cons ?_ (by rw [htoken]; rfl) (ih hothers (List.cons_ne_nil _ _) hafter)
          exact hitem.within (Nat.le_refl 2) (Nat.le_refl 2) hbefore (fun _ => hstops)
            (.stop hstops)

theorem Returns.sequence (hitems : ∀ item ∈ items, item.Returns) (hmany : 2 ≤ items.length) :
    (Expr.sequence items).Returns := by
  refine ⟨fun hlevel => absurd hlevel (by simp [Expr.level]), fun hb hend => ⟨items, ?_, ?_⟩⟩
  · rw [tokens] at hb
    exact readsItems_of_returns hitems (List.ne_nil_of_length_pos (by omega)) hb hend
  · match items, hmany with
    | _ :: _ :: _, _ => rfl

mutual

/-- **Every expression is returned for its tokens.** -/
theorem returns : ∀ {e : Expr}, e.Every Proper → e.Every Signed → e.Returns
  | .lit _, hp, _ => .lit hp
  | .var name, _, _ => .var name
  | .unary op _, hp, hs => .unary op (returns hp.2 hs.2)
  | .binary op _ _, hp, hs =>
      .join (.binary op) (returns hp.2.1 hs.2.1) (returns hp.2.2 hs.2.2)
  | .and _ _, hp, hs => .join .and (returns hp.2.1 hs.2.1) (returns hp.2.2 hs.2.2)
  | .or _ _, hp, hs => .join .or (returns hp.2.1 hs.2.1) (returns hp.2.2 hs.2.2)
  | .assign _ _ _, hp, hs => .assign (returns hp.2 hs.2) hs.1
  | .sequence _, hp, hs => .sequence (returns_items hp.2 hs.2) hp.1

theorem returns_items : ∀ {items : List Expr}, EveryItem Proper items → EveryItem Signed items →
    ∀ item ∈ items, item.Returns
  | [], _, _ => fun _ hitem => absurd hitem List.not_mem_nil
  | item :: items, hp, hs => fun other hother => by
      rcases List.mem_cons.1 hother with heq | hmem
      · exact heq ▸ returns hp.1 hs.1
      · exact returns_items hp.2 hs.2 other hmem

end

/-! ### The tokens are read back -/

theorem writable_enclosed {own : Nat} {kinds : List TokenKind}
    (h : ∀ kind ∈ kinds, kind.Writable) : ∀ kind ∈ enclosed level own kinds, kind.Writable := by
  intro kind hkind
  rw [enclosed] at hkind
  split at hkind
  · simp only [List.mem_cons, List.mem_append, List.not_mem_nil, or_false] at hkind
    rcases hkind with rfl | hkind | rfl
    · trivial
    · exact h kind hkind
    · trivial
  · exact h kind hkind

theorem writable_joined {own own' level' : Nat} {kinds kinds' : List TokenKind} (joint : Joint)
    (h : ∀ kind ∈ kinds, kind.Writable) (h' : ∀ kind ∈ kinds', kind.Writable) :
    ∀ kind ∈ enclosed level own kinds ++ joint.token :: enclosed level' own' kinds',
      kind.Writable := by
  intro kind hkind
  rcases List.mem_append.1 hkind with hkind | hkind
  · exact writable_enclosed h kind hkind
  · rcases List.mem_cons.1 hkind with rfl | hkind
    · exact joint.writable_token
    · exact writable_enclosed h' kind hkind

theorem writable_assignment (op : Option BinaryOp) :
    ∀ kind ∈ Token.assignment op, kind.Writable := by
  intro kind hkind
  rcases op with _ | (_ | _ | _ | _ | _ | _ | _ | _ | _ | (_ | _ | _ | _)) <;>
    simp only [Token.assignment, Joint.token, List.mem_cons, List.not_mem_nil, or_false] at hkind
  all_goals rcases hkind with rfl | rfl <;> trivial

mutual

/-- The tokens of an expression are read back from what they are written as. -/
theorem writable_tokens : ∀ {e : Expr}, e.Every Proper → ∀ kind ∈ e.tokens, kind.Writable
  | .lit v, hp, kind, hkind => by
      obtain rfl := List.mem_singleton.1 hkind
      cases v with
      | bool b => trivial
      | num n => exact hp
      | str s => trivial
      | undefined => exact hp.elim
  | .var name, hp, kind, hkind => by
      obtain rfl := List.mem_singleton.1 hkind
      exact hp
  | .unary op operand, hp, kind, hkind => by
      rcases List.mem_cons.1 hkind with rfl | hkind
      · cases op <;> trivial
      · exact writable_enclosed (writable_tokens hp.2) kind hkind
  | .binary op left right, hp, kind, hkind =>
      writable_joined (.binary op) (writable_tokens hp.2.1) (writable_tokens hp.2.2) kind hkind
  | .and left right, hp, kind, hkind =>
      writable_joined .and (writable_tokens hp.2.1) (writable_tokens hp.2.2) kind hkind
  | .or left right, hp, kind, hkind =>
      writable_joined .or (writable_tokens hp.2.1) (writable_tokens hp.2.2) kind hkind
  | .assign name op value, hp, kind, hkind => by
      rcases List.mem_cons.1 hkind with rfl | hkind
      · exact hp.1
      · rcases List.mem_append.1 hkind with hkind | hkind
        · exact writable_assignment op kind hkind
        · exact writable_enclosed (writable_tokens hp.2) kind hkind
  | .sequence items, hp, kind, hkind => writable_itemTokens hp.2 kind hkind

theorem writable_itemTokens : ∀ {items : List Expr}, EveryItem Proper items →
    ∀ kind ∈ itemTokens items, kind.Writable
  | [], _, kind, hkind => absurd hkind List.not_mem_nil
  | [item], hp, kind, hkind => writable_enclosed (writable_tokens hp.1) kind hkind
  | item :: other :: items, hp, kind, hkind => by
      rcases List.mem_append.1 hkind with hkind | hkind
      · exact writable_enclosed (writable_tokens hp.1) kind hkind
      · rcases List.mem_cons.1 hkind with rfl | hkind
        · trivial
        · exact writable_itemTokens hp.2 kind hkind

end

/-- Tokens that are the items of a sequence, in front of whatever ends it, are parsed as what the
items stand for, however they are written. -/
theorem parseChars_of_items {kinds : List TokenKind} {text : List Char}
    (htext : Token.Lexes text (kinds ++ [.eof]))
    (h : ∀ {last : Nat} {before rest : List Token}, before.map Token.kind = kinds →
      endsSequence (next rest) = true →
        ∃ items, ReadsItems last (before ++ rest) items rest ∧ ofItems items = .ok e) :
    parseChars text = .ok e := by
  obtain ⟨tokens, htokens, hkinds⟩ := htext 0
  obtain ⟨before, ending, rfl, hbefore, hending⟩ := List.map_eq_append_iff.1 hkinds
  have hend : next ending = .eof := by
    obtain ⟨last, nothing, rfl, hlast, -⟩ := List.map_eq_cons_iff.1 hending
    exact hlast
  have hof : ofTokens (before ++ ending) = .ok e :=
    ofTokens_eq (fun _ => h hbefore (by rw [hend]; rfl)) hend
  rw [parseChars, Token.ofChars, htokens]
  exact hof

/-- **An expression is read back from its tokens**, however they are written. -/
theorem parseChars_of_lexes {e : Expr} {text : List Char}
    (htext : Token.Lexes text (e.tokens ++ [.eof])) (hp : e.Every Proper) (hs : e.Every Signed) :
    parseChars text = .ok e :=
  parseChars_of_items htext (returns hp hs).items

/-- An expression is read back from its tokens with spaces between them. -/
theorem parseChars_spaced {e : Expr} (hp : e.Every Proper) (hs : e.Every Signed) :
    parseChars (Token.spaced e.tokens) = .ok e :=
  parseChars_of_lexes (Token.lexes_spaced (writable_tokens hp)) hp hs

theorem parse_eq_parseChars (e : Expr) : parse e.source = parseChars (Token.spaced e.tokens) := by
  rw [parse, source, String.toList_ofList]

end Expr

end Gamebook
