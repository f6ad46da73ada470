/-
**Compound assignments.**

`$x op= e` is meant for `$x = $x op (e)`.  The two take different paths: the short form runs its
operand and reads the variable after that, where the long form, as everywhere between two operands,
reads the variable first.  So they part where the operand itself assigns to the variable.

Main definitions:

* `Expr.compound`, `Expr.expanded` — a compound assignment, and the same written out;
* `Expr.expandedTokens` — the long form in print, with the operand in parentheses.

Main results:

* `Expr.eval_compound` — a compound assignment is the long form run after its operand;
* `Expr.parseChars_compound`, `Expr.parseChars_expanded` — what the two forms in print stand for;
* `Expr.compound_eq_expanded_iff` — **when the two forms are the same**;
* `Expr.compound_reassigned` — an operand that assigns to the variable.
-/

import Gamebook.Proofs.Expr.Mentions
import Gamebook.Proofs.Expr.Range

set_option relaxedAutoImplicit false
set_option autoImplicit false

namespace Gamebook

namespace Expr

variable {name : String} {op : BinaryOp} {e : Expr} {vars : Variables} {text : List Char}

/-! ### The two forms -/

/-- The compound assignment `$name op= e`. -/
def compound (name : String) (op : BinaryOp) (e : Expr) : Expr := .assign name (some op) e

/-- A compound assignment written out: `$name = $name op (e)`. -/
def expanded (name : String) (op : BinaryOp) (e : Expr) : Expr :=
  .assign name none (.binary op (.var name) e)

/-- The tokens of a compound assignment written out, with its operand in parentheses. -/
def expandedTokens (name : String) (op : BinaryOp) (e : Expr) : List TokenKind :=
  [.var name, .eq, .var name, (Joint.binary op).token, .lParen] ++ (e.tokens ++ [.rParen])

/-! ### Running them -/

/-- **A compound assignment is the long form run after its operand**, with the operand's value in
its place. -/
theorem eval_compound (name : String) (op : BinaryOp) (e : Expr) (vars : Variables) :
    (compound name op e).eval vars = (expanded name op (.lit (e.eval vars).1)).eval (e.eval vars).2 :=
  rfl

theorem eval_expanded (name : String) (op : BinaryOp) (e : Expr) (vars : Variables) :
    (expanded name op e).eval vars =
      (op.apply (vars.get name) (e.eval vars).1,
        (e.eval vars).2.set name (op.apply (vars.get name) (e.eval vars).1)) := rfl

/-- The two forms are the same if and only if the operation gives one value on what the variable
holds before the operand and on what it holds after it. -/
theorem eval_compound_eq_iff : (compound name op e).eval vars = (expanded name op e).eval vars ↔
    op.apply ((e.eval vars).2.get name) (e.eval vars).1 =
      op.apply (vars.get name) (e.eval vars).1 := by
  rw [eval_compound, eval_expanded, eval_expanded]
  constructor
  · exact fun h => congrArg Prod.fst h
  · intro h
    rw [eval, h]

/-- An operand that assigns to other variables leaves this one as it is. -/
theorem get_eval_of_notMem (h : name ∉ e.targets) : (e.eval vars).2.get name = vars.get name := by
  rw [Variables.get, Variables.get, (e.eval_changes vars).untouched name h]

/-! ### Reading them -/

theorem level_le_ten (e : Expr) : e.level ≤ 10 := by
  have hbounds := fun joint : Joint => joint.level_bounds.2.trans (by decide : 8 ≤ 10)
  cases e with
  | lit | var | unary | assign | sequence => simp only [Expr.level, Nat.le_refl, Nat.reduceLeDiff]
  | binary op => exact hbounds (.binary op)
  | and => exact hbounds .and
  | or => exact hbounds .or

/-- A compound assignment in print is parsed as one, whatever stands for its operand. -/
theorem parseChars_compound (hname : IsName name) (hop : op ∈ [.add, .sub, .mul, .div])
    (he : e.Sourced) (htext : Token.Lexes text ((compound name op e).tokens ++ [.eof])) :
    parseChars text = .ok (compound name op e) := by
  have hsigned : Signed (compound name op e) := by
    simp only [compound, Signed, List.mem_cons, List.not_mem_nil, or_false] at hop ⊢
    rcases hop with rfl | rfl | rfl | rfl <;> simp
  exact parseChars_of_lexes htext ⟨hname, he.1⟩ ⟨hsigned, he.2⟩

/-- The long form in print is parsed as one assignment, whatever stands for its operand. -/
theorem parseChars_expanded (he : e.Sourced)
    (htext : Token.Lexes text (expandedTokens name op e ++ [.eof])) :
    parseChars text = .ok (expanded name op e) := by
  have hbounds := (Joint.binary op).level_bounds
  refine parseChars_of_items htext fun {last before rest} hb hend => ⟨[expanded name op e], ?_, rfl⟩
  have hstops : ∀ {a : Nat}, (next rest).Stops a := TokenKind.stops_of_ends hend
  obtain ⟨target, more, rfl, htarget, hmore⟩ := List.map_eq_cons_iff.1 hb
  obtain ⟨sign, more, rfl, hsign, hmore⟩ := List.map_eq_cons_iff.1 hmore
  obtain ⟨read, more, rfl, hread, hmore⟩ := List.map_eq_cons_iff.1 hmore
  obtain ⟨joint, inner, rfl, hjoint, hinner⟩ := List.map_eq_cons_iff.1 hmore
  have hwithin : inner.map Token.kind = e.within 11 := by
    rw [Expr.within, enclosed, if_pos (Nat.lt_succ_of_le e.level_le_ten)]
    exact hinner
  -- the operand in parentheses is an operand of every operator
  have hoperand : Reads last ((Joint.binary op).level + 1) (inner ++ rest) e rest :=
    (returns he.1 he.2).within (by omega) (by omega) hwithin
      (fun hle => absurd e.level_le_ten (by omega)) (.stop hstops)
  have hvalue : Reads last 2 (read :: joint :: (inner ++ rest)) (.binary op (.var name) e) rest :=
    .of_operand (.var hread) (.joint (by rw [hjoint, Joint.assignment?_token])
      (by rw [hjoint, Joint.ofToken?_token]) (by omega) hoperand (.stop hstops))
  have hassign : Token.assignment? sign.kind = some none := by rw [hsign]; rfl
  exact .final (.of_operand (.var htarget)
    (.assignment hassign (Nat.le_refl 2) hvalue (.stop hstops))) (TokenKind.isSeparator_of_ends hend)

theorem lexes_compound (hname : IsName name) (he : e.Sourced) :
    Token.Lexes (Token.spaced (compound name op e).tokens) ((compound name op e).tokens ++ [.eof]) :=
  Token.lexes_spaced (writable_tokens ⟨hname, he.1⟩)

theorem lexes_expanded (hname : IsName name) (he : e.Sourced) :
    Token.Lexes (Token.spaced (expandedTokens name op e)) (expandedTokens name op e ++ [.eof]) := by
  refine Token.lexes_spaced fun kind hkind => ?_
  simp only [expandedTokens, List.mem_append, List.mem_cons, List.not_mem_nil, or_false] at hkind
  rcases hkind with (rfl | rfl | rfl | rfl | rfl) | hkind | rfl
  · exact hname
  · trivial
  · exact hname
  · exact Joint.writable_token _
  · trivial
  · exact writable_tokens he.1 kind hkind
  · trivial

/-! ### When they are the same -/

/-- **When a compound assignment is the same as the long form**: if and only if the operation gives
one value on what the variable holds before the operand and on what it holds after it, and so
whenever no assignment in the operand is to the variable.  In print as in the tree: the two texts
stand for these two trees. -/
theorem compound_eq_expanded_iff (name : String) (op : BinaryOp) (e : Expr) (vars : Variables) :
    ((compound name op e).eval vars = (expanded name op e).eval vars ↔
      op.apply ((e.eval vars).2.get name) (e.eval vars).1 =
        op.apply (vars.get name) (e.eval vars).1) ∧
    (name ∉ e.targets → (compound name op e).eval vars = (expanded name op e).eval vars) ∧
    ∀ short long : List Char, IsName name → op ∈ [.add, .sub, .mul, .div] → e.Sourced →
      Token.Lexes short ((compound name op e).tokens ++ [.eof]) →
      Token.Lexes long (expandedTokens name op e ++ [.eof]) →
        evaluateChars short vars = .ok ((compound name op e).eval vars) ∧
          evaluateChars long vars = .ok ((expanded name op e).eval vars) := by
  refine ⟨eval_compound_eq_iff, fun htargets => ?_, fun short long hname hop he hshort hlong => ?_⟩
  · rw [eval_compound_eq_iff, get_eval_of_notMem htargets]
  · rw [evaluateChars, evaluateChars, parseChars_compound hname hop he hshort,
      parseChars_expanded he hlong]
    exact ⟨rfl, rfl⟩

/-- Half of what is held. -/
def half : Expr := .assign "rest" none (.binary .div (.var "gold") (.lit (.num 2)))

/-- Ten in the bag and six held. -/
def bag : Variables := (Variables.set {} "bag" (.num 10)).set "gold" (.num 6)

example : (compound "bag" .add half).source = "$bag += $rest = $gold / 2" := by decide +kernel

example : Token.spaced (expandedTokens "bag" .add half) =
    "$bag = $bag + ( $rest = $gold / 2 )".toList := by decide +kernel

theorem compound_eq_expanded_iff_half :
    "bag" ∉ half.targets ∧ half.Sourced ∧
      evaluateChars (Token.spaced (compound "bag" .add half).tokens) bag =
        evaluateChars (Token.spaced (expandedTokens "bag" .add half)) bag ∧
      ((compound "bag" .add half).eval bag).1 = .num 13 := by
  have hname : ∀ name ∈ ["bag", "rest", "gold"], IsName name := by
    intro name hname
    simp only [List.mem_cons, List.not_mem_nil, or_false] at hname
    rcases hname with rfl | rfl | rfl <;> exact ⟨by decide, by decide⟩
  have hbag : IsName "bag" := hname "bag" List.mem_cons_self
  have htwo : Number.isNegative 2 = false := by decide +kernel
  have hhalf : half.Sourced := by
    simp [half, Sourced, Every, Proper, Signed, hname, htwo]
  have htargets : "bag" ∉ half.targets := by decide
  have h := compound_eq_expanded_iff "bag" .add half bag
  have htexts := h.2.2 _ _ hbag List.mem_cons_self hhalf (lexes_compound hbag hhalf)
    (lexes_expanded hbag hhalf)
  refine ⟨htargets, hhalf, ?_, by decide +kernel⟩
  rw [htexts.1, htexts.2, h.2.1 htargets]

/-- **An operand that assigns to the variable.**  The short form reads the five that the operand has
just assigned, the long form the one before it. -/
theorem compound_reassigned :
    evaluate "$x += $x = 5" (Variables.set {} "x" (.num 1)) =
        .ok (.num 10, Variables.set {} "x" (.num 10)) ∧
      evaluate "$x = $x + ( $x = 5 )" (Variables.set {} "x" (.num 1)) =
        .ok (.num 6, Variables.set {} "x" (.num 6)) := by
  have hname : IsName "x" := ⟨by decide, by decide⟩
  have hfive : (Expr.assign "x" none (.lit (.num 5))).Sourced :=
    ⟨⟨hname, (by decide +kernel : Number.isNegative 5 = false)⟩, by simp [Every, Signed]⟩
  have hshort : "$x += $x = 5".toList =
      Token.spaced (compound "x" .add (.assign "x" none (.lit (.num 5)))).tokens := by
    decide +kernel
  have hlong : "$x = $x + ( $x = 5 )".toList =
      Token.spaced (expandedTokens "x" .add (.assign "x" none (.lit (.num 5)))) := by
    decide +kernel
  rw [evaluate, evaluate, evaluateChars, evaluateChars, hshort, hlong,
    parseChars_compound hname List.mem_cons_self hfive (lexes_compound hname hfive),
    parseChars_expanded hfive (lexes_expanded hname hfive)]
  decide +kernel

end Expr

end Gamebook
