/-
**Passing over JSON.**

A document of which nothing is wanted is passed over: it has to be written as a document, but no
value is made of it.  So lists and objects may lie inside one another without a bound, and an
escape may stand for half a character.

Main definitions:

* `Json.passString`, `Json.passScalar` — passing over a string, and over a document without parts;
* `Json.passFrom` — the walk, with the lists and objects that are open;
* `Json.pass` — what is left of a text behind the document that it starts with.

Main results:

* `Json.passString_of_readString` — **what can be read can be passed over**, for strings.
-/

import Gamebook.Json.Reading

set_option relaxedAutoImplicit false
set_option autoImplicit false

namespace Gamebook.Json

/-! ### Documents without parts -/

/-- Passes over the rest of a string, up to the closing quote. -/
def passString : List Char → Option (List Char)
  | [] => none
  | '"' :: rest => some rest
  | '\\' :: 'u' :: a :: b :: c :: d :: rest =>
      if (hex4? a b c d).isSome then passString rest else none
  | '\\' :: mark :: rest => if (simpleEscape? mark).isSome then passString rest else none
  | c :: rest => if c < ' ' ∨ c = '\\' then none else passString rest

/-- Passes over a document that is neither a list nor an object. -/
def passScalar : List Char → Option (List Char)
  | 'n' :: 'u' :: 'l' :: 'l' :: rest => some rest
  | 't' :: 'r' :: 'u' :: 'e' :: rest => some rest
  | 'f' :: 'a' :: 'l' :: 's' :: 'e' :: rest => some rest
  | '"' :: rest => passString rest
  | text => (readNumber text).map Prod.snd

/-- Passes over the name of a member and the colon behind it. -/
def passName (text : List Char) : Option (List Char) :=
  match skip text with
  | '"' :: rest =>
      match (passString rest).map skip with
      | some (':' :: rest) => some rest
      | _ => none
  | _ => none

/-! ### Lists and objects -/

/-- What a document lies in. -/
inductive Enclosure where
  | list
  | object
  deriving DecidableEq, Repr

/-- Walks to the end of the outermost document.  `ended` if a document has just ended, otherwise
one has to start; `opened` are the lists and objects that are open, the innermost first.  Each
step takes a character at least, so `fuel` bounds their number. -/
def passFrom : Nat → Bool → List Enclosure → List Char → Option (List Char)
  | _, true, [], text => some text
  | 0, _, _, _ => none
  | fuel + 1, true, inner :: outer, text =>
      match inner, skip text with
      | .list, ',' :: rest => passFrom fuel false (.list :: outer) rest
      | .list, ']' :: rest => passFrom fuel true outer rest
      | .object, ',' :: rest =>
          match passName rest with
          | some rest => passFrom fuel false (.object :: outer) rest
          | none => none
      | .object, '}' :: rest => passFrom fuel true outer rest
      | _, _ => none
  | fuel + 1, false, opened, text =>
      match skip text with
      | '[' :: rest =>
          match skip rest with
          | ']' :: rest => passFrom fuel true opened rest
          | rest => passFrom fuel false (.list :: opened) rest
      | '{' :: rest =>
          match skip rest with
          | '}' :: rest => passFrom fuel true opened rest
          | rest =>
              match passName rest with
              | some rest => passFrom fuel false (.object :: opened) rest
              | none => none
      | rest =>
          match passScalar rest with
          | some rest => passFrom fuel true opened rest
          | none => none

/-- What is left of a text behind the document that it starts with. -/
def pass (text : List Char) : Option (List Char) := passFrom text.length false [] text

/-! ### Reading and passing over -/

/-- An escape by four digits is passed over whatever it stands for. -/
theorem passString_unit (a b c d : Char) (rest : List Char) (h : (hex4? a b c d).isSome) :
    passString ('\\' :: 'u' :: a :: b :: c :: d :: rest) = passString rest := by
  simp [passString, h]

/-- A surrogate stands for a character only together with a partner. -/
theorem isSome_of_ofUnits? (high : Nat) (low : Option Nat) (c : Char)
    (hs : ¬(high < 0xd800 ∨ 0xdfff < high)) (h : ofUnits? high low = some c) : low.isSome := by
  cases low with
  | none => simp [ofUnits?, hs] at h
  | some => rfl

/-- A string that can be read can be passed over, and ends at the same place. -/
theorem passString_of_readString (text s rest : List Char)
    (h : readString text = some (s, rest)) : passString text = some rest := by
  fun_induction readString text generalizing s rest with
  | case1 => simp at h
  | case2 tail => simp_all [passString]
  | case3 a b c d e f g k tail ih1 ih2 =>
    obtain ⟨high, hx, h⟩ := Option.bind_eq_some_iff.mp h
    rw [passString_unit _ _ _ _ _ (by simp [hx])]
    split at h
    · obtain ⟨⟨t, r⟩, ht, h⟩ := Option.bind_eq_some_iff.mp h
      cases h
      exact ih1 _ _ ht
    · next hs =>
      obtain ⟨ch, hch, h⟩ := Option.bind_eq_some_iff.mp h
      obtain ⟨⟨t, r⟩, ht, h⟩ := Option.bind_eq_some_iff.mp h
      cases h
      rw [passString_unit _ _ _ _ _ (isSome_of_ofUnits? _ _ _ hs hch)]
      exact ih2 _ _ ht
  | case4 a b c d tail _ ih =>
    obtain ⟨high, hx, h⟩ := Option.bind_eq_some_iff.mp h
    obtain ⟨ch, _, h⟩ := Option.bind_eq_some_iff.mp h
    obtain ⟨⟨t, r⟩, ht, h⟩ := Option.bind_eq_some_iff.mp h
    cases h
    rw [passString_unit _ _ _ _ _ (by simp [hx])]
    exact ih _ _ ht
  | case5 mark tail _ _ ih =>
    obtain ⟨ch, hm, h⟩ := Option.bind_eq_some_iff.mp h
    obtain ⟨⟨t, r⟩, ht, h⟩ := Option.bind_eq_some_iff.mp h
    cases h
    simp [passString, hm, ih _ _ ht]
  | case6 => simp at h
  | case7 c tail hq _ _ _ hc ih =>
    obtain ⟨⟨t, r⟩, ht, h⟩ := Option.map_eq_some_iff.mp h
    cases h
    have hb : c ≠ '\\' := fun hb => hc (.inr hb)
    simp_all [passString]

end Gamebook.Json
