/-
**Reading records.**

A record is written as an object, or as the list of the values of its fields in order.  Its
fields are read, each in its own way; what else stands in the object is passed over.

Main definitions:

* `Json.readEach` — an object whose values are all read in one way;
* `Json.readRecord` — a record, given by its fields and the ways to read them.
-/

import Gamebook.Json.Passing

set_option relaxedAutoImplicit false
set_option autoImplicit false

namespace Gamebook.Json

/-- Passes over a document, which then counts as null. -/
def readNothing : Reader := fun text => (pass text).map fun rest => (.null, rest)

/-- Reads an object, the value under `name` by `value name`. -/
def readObject (value : String → Reader) : Reader
  | '{' :: rest =>
      match skip rest with
      | '}' :: rest => some (.obj [], rest)
      | rest => (readMany (readMember value) '}' rest.length rest).map fun (members, rest) =>
          (.obj members, rest)
  | _ => none

/-- Reads an object, every value by `value`. -/
def readEach (value : Reader) : Reader := readObject fun _ => value

/-- Reads the items of a list in order, each by its own reader, up to the closing bracket; there
is at least one, and no more than there are readers. -/
def readInOrder : List Reader → List Char → Option (List Json × List Char)
  | [], _ => none
  | value :: values, text => do
      let (first, text) ← value (skip text)
      match skip text with
      | ',' :: rest =>
          let (items, rest) ← readInOrder values rest
          return (first :: items, rest)
      | ']' :: rest => return ([first], rest)
      | _ => none

/-- Reads a record: an object in which all but the fields is passed over, or the list of their
values. -/
def readRecord (fields : List (String × Reader)) : Reader
  | '[' :: rest =>
      match skip rest with
      | ']' :: rest => some (.arr [], rest)
      | rest => (readInOrder (fields.map Prod.snd) rest).map fun (items, rest) =>
          (.arr items, rest)
  | text => readObject (fun name => (fields.lookup name).getD readNothing) text

end Gamebook.Json
