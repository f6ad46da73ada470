/-
**Style declarations inside a text.**

A style declaration is written `name:value;` or `name(value):`.  A name of several words has
hyphens between them; it is kept with a capital in the place of each hyphen and the letter behind
it.

Main definitions:

* `Style.joinWords` — the form in which a name is kept;
* `Style.declaration?` — the declaration that a text starts with;
* `Style.declarations` — the row of declarations that a text starts with.

Main results:

* `Style.declarations_of_none`, `Style.declarations_of_some` — a row ends where no declaration
  stands, and goes on behind one that does.
-/

set_option relaxedAutoImplicit false
set_option autoImplicit false

namespace Gamebook.Style

/-- Whether `c` can stand in the name of a property: a letter of Western European or Hungarian
alphabets, a digit, an underscore or a hyphen. -/
def isNameChar (c : Char) : Bool :=
  c.isAlphanum || c == '_' || c == '-' || ('\xc0' ≤ c && c ≤ '\xff') ||
    c == '\u0150' || c == '\u0151' || c == '\u0170' || c == '\u0171'

/-- The capital of a character that can stand in a name. -/
def capital (c : Char) : List Char :=
  if c = '\xdf' then ['S', 'S']
  else if c = '\xff' then ['\u0178']
  else if c = '\u0151' then ['\u0150']
  else if c = '\u0171' then ['\u0170']
  else if '\xe0' ≤ c ∧ c ≤ '\xfe' ∧ c ≠ '\xf7' then [Char.ofNat (c.toNat - 32)]
  else [c.toUpper]

/-- A name with a capital in the place of every row of hyphens and the character behind it;
`raised` if a hyphen stands before it. -/
def joinFrom (raised : Bool) : List Char → List Char
  | [] => []
  | c :: rest =>
      if c = '-' then joinFrom true rest
      else if raised then capital c ++ joinFrom false rest
      else c :: joinFrom false rest

/-- A name as it is kept. -/
def joinWords (name : List Char) : List Char := joinFrom false name

/-- The property that a name stands for. -/
def propertyOf (name : List Char) : String :=
  let joined := String.ofList (joinWords name)
  if joined = "bgcolor" then "backgroundColor" else joined

/-- Reads a value up to the mark `close`; `stop` is the mark that cannot stand in it. -/
def value? (close : Char) (text : List Char) : Option (List Char × List Char) :=
  let isValueChar := fun c => c != close && c != '|' && c != '\n'
  match text.takeWhile isValueChar, text.dropWhile isValueChar with
  | [], _ => none
  | value, c :: rest => if c = close then some (value, rest) else none
  | _, [] => none

/-- The declaration that a text starts with, and its length. -/
def declaration? (text : List Char) : Option ((String × String) × Nat) :=
  let name := text.takeWhile isNameChar
  if name = [] then none
  else
    match text.drop name.length with
    | '(' :: rest =>
        match value? ')' rest with
        -- the colon stands behind the bracket here
        | some (value, ':' :: _) =>
            some ((propertyOf name, String.ofList value), name.length + value.length + 3)
        | _ => none
    | ':' :: rest =>
        match value? ';' rest with
        | some (value, _) =>
            some ((propertyOf name, String.ofList value), name.length + value.length + 2)
        | none => none
    | _ => none

/-- The declarations that stand in a row behind the first `skip` characters of a text, and the
length of all of it. -/
def declarationsFrom : Nat → List Char → List (String × String) × Nat
  | _, [] => ([], 0)
  | skip + 1, _ :: rest =>
      let (ds, n) := declarationsFrom skip rest
      (ds, n + 1)
  | 0, c :: rest =>
      match declaration? (c :: rest) with
      | none => ([], 0)
      | some (d, length) =>
          let (ds, n) := declarationsFrom (length - 1) rest
          (d :: ds, n + 1)

/-- The row of declarations that a text starts with, and its length. -/
def declarations (text : List Char) : List (String × String) × Nat := declarationsFrom 0 text

theorem declarationsFrom_succ (skip : Nat) (c : Char) (rest : List Char) :
    declarationsFrom (skip + 1) (c :: rest) =
      ((declarationsFrom skip rest).1, (declarationsFrom skip rest).2 + 1) := rfl

theorem declarations_of_none {text : List Char} (h : declaration? text = none) :
    declarations text = ([], 0) := by
  cases text with
  | nil => rfl
  | cons c rest =>
      rw [declarations, declarationsFrom.eq_def]
      simp only [h]

theorem declarations_of_some {d : String × String} {length : Nat} {c : Char} {rest : List Char}
    (h : declaration? (c :: rest) = some (d, length)) :
    declarations (c :: rest) =
      (d :: (declarationsFrom (length - 1) rest).1, (declarationsFrom (length - 1) rest).2 + 1) := by
  rw [declarations, declarationsFrom.eq_def]
  simp only [h]

end Gamebook.Style
