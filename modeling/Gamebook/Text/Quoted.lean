/-
**Quoted strings in messages.**

Where a message names a string it shows it between double quotes.  A backslash or double quote is
preceded by a backslash, the common control characters have their one-letter escapes, and any
other character that is not printable is given by its code point in hexadecimal.

Main definitions:

* `Text.escaped` — how one character stands between quotes;
* `Text.quoted`, `Text.quotedList`, `Text.quotedSet` — a string, a list and a set of strings in a
  message.
-/

import Gamebook.Text.Printable

set_option relaxedAutoImplicit false
set_option autoImplicit false

namespace Gamebook.Text

/-- How one character stands between quotes. -/
def escaped (c : Char) : List Char :=
  if c = '\x00' then ['\\', '0']
  else if c = '\t' then ['\\', 't']
  else if c = '\n' then ['\\', 'n']
  else if c = '\r' then ['\\', 'r']
  else if c = '"' then ['\\', '"']
  else if c = '\\' then ['\\', '\\']
  else if isPrintable c then [c]
  else ['\\', 'u', '{'] ++ Nat.toDigits 16 c.toNat ++ ['}']

/-- `text` between double quotes. -/
def quoted (text : String) : String :=
  String.ofList ('"' :: (text.toList.flatMap escaped ++ ['"']))

/-- Quoted strings between square brackets. -/
def quotedList (texts : List String) : String :=
  "[" ++ ", ".intercalate (texts.map quoted) ++ "]"

/-- Quoted strings between braces. -/
def quotedSet (texts : List String) : String :=
  "\x7b" ++ ", ".intercalate (texts.map quoted) ++ "\x7d"

end Gamebook.Text
