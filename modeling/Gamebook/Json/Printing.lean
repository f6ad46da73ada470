/-
**Writing JSON.**

A document is written on one line, or over several with an indentation of two spaces.  In a string
only quotes, backslashes and control characters are escaped.

Main definitions:

* `Json.compress` — on one line;
* `Json.pretty` — over several lines.
-/

import Gamebook.Json.Basic

set_option relaxedAutoImplicit false
set_option autoImplicit false

namespace Gamebook.Json

/-- How one character stands in a string. -/
def escaped (c : Char) : List Char :=
  if c = '"' then ['\\', '"']
  else if c = '\\' then ['\\', '\\']
  else if c = '\n' then ['\\', 'n']
  else if c = '\t' then ['\\', 't']
  else if c = '\r' then ['\\', 'r']
  else if c = '\x08' then ['\\', 'b']
  else if c = '\x0c' then ['\\', 'f']
  else if c < ' ' then
    ['\\', 'u', '0', '0', Nat.digitChar (c.toNat / 16), Nat.digitChar (c.toNat % 16)]
  else [c]

/-- A string between quotes. -/
def quoted (s : String) : List Char := '"' :: (s.toList.flatMap escaped ++ ['"'])

/-- Parts with a separator between them. -/
def joined (separator : List Char) : List (List Char) → List Char
  | [] => []
  | [part] => part
  | part :: parts => part ++ separator ++ joined separator parts

mutual

/-- The document on one line. -/
def compressChars : Json → List Char
  | null => ['n', 'u', 'l', 'l']
  | bool true => ['t', 'r', 'u', 'e']
  | bool false => ['f', 'a', 'l', 's', 'e']
  | num written => written.toList
  | str s => quoted s
  | arr items => '[' :: (joined [','] (compressItems items) ++ [']'])
  | obj members => '{' :: (joined [','] (compressMembers members) ++ ['}'])

/-- The items of a list, each on one line. -/
def compressItems : List Json → List (List Char)
  | [] => []
  | item :: items => compressChars item :: compressItems items

/-- The members of an object, each on one line. -/
def compressMembers : List (String × Json) → List (List Char)
  | [] => []
  | (name, v) :: members => (quoted name ++ ':' :: compressChars v) :: compressMembers members

end

/-- The document on one line. -/
def compress (json : Json) : String := String.ofList json.compressChars

/-- A line break and the indentation of the given depth. -/
def newLine (depth : Nat) : List Char := '\n' :: List.replicate (2 * depth) ' '

mutual

/-- The document over several lines; its parts stand at `depth + 1`. -/
def prettyChars (depth : Nat) : Json → List Char
  | arr [] => ['[', ']']
  | arr items =>
      '[' :: newLine (depth + 1) ++
        joined (',' :: newLine (depth + 1)) (prettyItems (depth + 1) items) ++
        newLine depth ++ [']']
  | obj [] => ['{', '}']
  | obj members =>
      '{' :: newLine (depth + 1) ++
        joined (',' :: newLine (depth + 1)) (prettyMembers (depth + 1) members) ++
        newLine depth ++ ['}']
  | json => json.compressChars

/-- The items of a list over several lines. -/
def prettyItems (depth : Nat) : List Json → List (List Char)
  | [] => []
  | item :: items => prettyChars depth item :: prettyItems depth items

/-- The members of an object over several lines. -/
def prettyMembers (depth : Nat) : List (String × Json) → List (List Char)
  | [] => []
  | (name, v) :: members =>
      (quoted name ++ ':' :: ' ' :: prettyChars depth v) :: prettyMembers depth members

end

/-- The document over several lines. -/
def pretty (json : Json) : String := String.ofList (json.prettyChars 0)

end Gamebook.Json
