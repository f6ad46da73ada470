/-
**Reading JSON.**

A text is read as strictly as the standard has it: no comments, no trailing commas, no control
characters in strings, and escapes that stand for whole characters only.  Lists and objects may lie
inside one another up to a bound.

Main definitions:

* `Json.readString`, `Json.readNumber` — the string and the number that a text starts with;
* `Json.Reader`, `Json.readValue` — what takes a document off the front of a text;
* `Json.parseBy?`, `Json.parse?` — the document that a text stands for.
-/

import Gamebook.Json.Basic

set_option relaxedAutoImplicit false
set_option autoImplicit false

namespace Gamebook.Json

/-! ### Spacing, strings and numbers -/

/-- The characters that may stand between the parts of a document. -/
def isSpacing (c : Char) : Bool := c == ' ' || c == '\n' || c == '\t' || c == '\r'

/-- Skips spacing. -/
def skip (text : List Char) : List Char := text.dropWhile isSpacing

/-- The value of a hexadecimal digit. -/
def hexValue? (c : Char) : Option Nat :=
  if c.isDigit then some (c.toNat - '0'.toNat)
  else if 'a' ≤ c ∧ c ≤ 'f' then some (c.toNat - 'a'.toNat + 10)
  else if 'A' ≤ c ∧ c ≤ 'F' then some (c.toNat - 'A'.toNat + 10)
  else none

/-- The value of four hexadecimal digits. -/
def hex4? (a b c d : Char) : Option Nat := do
  return (((← hexValue? a) * 16 + (← hexValue? b)) * 16 + (← hexValue? c)) * 16 + (← hexValue? d)

/-- What a backslash and one character after it stand for. -/
def simpleEscape? : Char → Option Char
  | '"' => some '"'
  | '\\' => some '\\'
  | '/' => some '/'
  | 'b' => some '\x08'
  | 'f' => some '\x0c'
  | 'n' => some '\n'
  | 'r' => some '\r'
  | 't' => some '\t'
  | _ => none

/-- The character of a code unit, or of a pair of surrogates. -/
def ofUnits? (high : Nat) (low : Option Nat) : Option Char :=
  if high < 0xd800 ∨ 0xdfff < high then some (Char.ofNat high)
  else
    match low with
    | some low =>
        if high < 0xdc00 ∧ 0xdc00 ≤ low ∧ low ≤ 0xdfff then
          some (Char.ofNat (0x10000 + (high - 0xd800) * 0x400 + (low - 0xdc00)))
        else none
    | none => none

/-- Reads the rest of a string, up to the closing quote. -/
def readString : List Char → Option (List Char × List Char)
  | [] => none
  | '"' :: rest => some ([], rest)
  | '\\' :: 'u' :: a :: b :: c :: d :: '\\' :: 'u' :: e :: f :: g :: h :: rest => do
      let high ← hex4? a b c d
      if high < 0xd800 ∨ 0xdfff < high then
        let (s, rest) ← readString ('\\' :: 'u' :: e :: f :: g :: h :: rest)
        return (Char.ofNat high :: s, rest)
      else
        -- the first unit is a surrogate, which means nothing without its partner
        let ch ← ofUnits? high (hex4? e f g h)
        let (s, rest) ← readString rest
        return (ch :: s, rest)
  | '\\' :: 'u' :: a :: b :: c :: d :: rest => do
      let ch ← ofUnits? (← hex4? a b c d) none
      let (s, rest) ← readString rest
      return (ch :: s, rest)
  | '\\' :: mark :: rest => do
      let ch ← simpleEscape? mark
      let (s, rest) ← readString rest
      return (ch :: s, rest)
  | c :: rest =>
      if c < ' ' ∨ c = '\\' then none
      else (readString rest).map fun (s, rest) => (c :: s, rest)

/-- The digits that a text starts with, if it starts with any. -/
def digits? (text : List Char) : Option (List Char × List Char) :=
  let digits := text.takeWhile Char.isDigit
  if digits.isEmpty then none else some (digits, text.dropWhile Char.isDigit)

/-- Reads a number: its text and the rest. -/
def readNumber (text : List Char) : Option (List Char × List Char) := do
  let (sign, text) := match text with
    | '-' :: rest => (['-'], rest)
    | rest => ([], rest)
  let (whole, text) ← match text with
    | '0' :: rest => some (['0'], rest)
    | rest => digits? rest
  let (places, text) ← match text with
    | '.' :: rest => (digits? rest).map fun (d, rest) => ('.' :: d, rest)
    | rest => some ([], rest)
  let (exponent, text) ← match text with
    | mark :: rest =>
        if mark = 'e' ∨ mark = 'E' then
          let (sign, rest) := match rest with
            | '-' :: rest => (['-'], rest)
            | '+' :: rest => (['+'], rest)
            | rest => ([], rest)
          (digits? rest).map fun (d, rest) => (mark :: sign ++ d, rest)
        else some ([], mark :: rest)
    | [] => some ([], [])
  return (sign ++ whole ++ places ++ exponent, text)

/-! ### Documents -/

/-- Reads the items of a list or the members of an object, up to the closing mark; there is at
least one.  `fuel` bounds their number. -/
def readMany {α : Type} (item : List Char → Option (α × List Char)) (close : Char) :
    Nat → List Char → Option (List α × List Char)
  | 0, _ => none
  | fuel + 1, text => do
      let (first, text) ← item (skip text)
      match skip text with
      | ',' :: rest =>
          let (items, rest) ← readMany item close fuel rest
          return (first :: items, rest)
      | c :: rest => if c = close then return ([first], rest) else none
      | [] => none

/-- A way to take a document off the front of a text. -/
abbrev Reader : Type := List Char → Option (Json × List Char)

/-- Reads a member of an object, the value under `name` by `value name`. -/
def readMember (value : String → Reader) : List Char → Option ((String × Json) × List Char)
  | '"' :: rest => do
      let (name, rest) ← readString rest
      match skip rest with
      | ':' :: rest =>
          let (v, rest) ← value (String.ofList name) (skip rest)
          return ((String.ofList name, v), rest)
      | _ => none
  | _ => none

/-- Reads a document with lists and objects inside one another less than `depth` deep. -/
def readValue : Nat → Reader
  | _, 'n' :: 'u' :: 'l' :: 'l' :: rest => some (.null, rest)
  | _, 't' :: 'r' :: 'u' :: 'e' :: rest => some (.bool true, rest)
  | _, 'f' :: 'a' :: 'l' :: 's' :: 'e' :: rest => some (.bool false, rest)
  | _, '"' :: rest => (readString rest).map fun (s, rest) => (.str (String.ofList s), rest)
  | depth + 1, '[' :: rest =>
      match skip rest with
      -- an empty list needs a level of its own as well
      | ']' :: rest => if depth = 0 then none else some (.arr [], rest)
      | rest =>
          if depth = 0 then none
          else (readMany (readValue depth) ']' rest.length rest).map fun (items, rest) =>
            (.arr items, rest)
  | depth + 1, '{' :: rest =>
      match skip rest with
      | '}' :: rest => if depth = 0 then none else some (.obj [], rest)
      | rest =>
          if depth = 0 then none
          else (readMany (readMember fun _ => readValue depth) '}' rest.length rest).map
            fun (members, rest) => (.obj members, rest)
  | _, text => (readNumber text).map fun (written, rest) => (.num (String.ofList written), rest)

/-- How deep lists and objects may lie inside one another, and one more. -/
def depthBound : Nat := 128

/-- The document that a text stands for, read by `read`. -/
def parseBy? (read : Reader) (text : String) : Option Json :=
  match read (skip text.toList) with
  | some (json, rest) => if (skip rest).isEmpty then some json else none
  | none => none

/-- The document that a text stands for. -/
def parse? (text : String) : Option Json := parseBy? (readValue depthBound) text

end Gamebook.Json
