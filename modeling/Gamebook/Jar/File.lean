/-
**Files of remembered values.**

A jar is kept in a file as a JSON document with a version number.  Values that are no longer live
are left out.  What a file holds besides is passed over.

Main definitions:

* `JarError` — why a file cannot be read;
* `Jar.ofJson?`, `Jar.toJson` — the jar of a document, and back;
* `Jar.readFile` — the document of a file, without what is not wanted of it;
* `Jar.save`, `Jar.load` — the text of a file, and the jar of one.
-/

import Gamebook.Jar.Basic
import Gamebook.Json.Printing
import Gamebook.Json.Record

set_option relaxedAutoImplicit false
set_option autoImplicit false

namespace Gamebook

/-- Why a file of remembered values cannot be read. -/
inductive JarError where
  /-- There is no such file. -/
  | noFile
  /-- The text is no document of the right form. -/
  | malformed
  | versionMismatch (expected found : Nat)
  deriving DecidableEq, Repr

/-- The text of an error. -/
def JarError.message : JarError → String
  | noFile => "no such file"
  | malformed => "malformed file"
  | versionMismatch expected found =>
      "Version mismatch: expected " ++ toString expected ++ ", found " ++ toString found

namespace Jar

/-- The document of a kept value. -/
def cookieToJson (c : Cookie) : Json :=
  .obj [("value", .str c.value), ("expires_at", .ofNat c.expiresAt)]

/-- The kept value that a document stands for. -/
def cookieOfJson? (json : Json) : Option Cookie :=
  match json.fields? ["value", "expires_at"] with
  | some [some value, some expiresAt] => do
      return { value := ← value.str?, expiresAt := ← expiresAt.nat? UInt64.size }
  | _ => none

/-- The values that a document holds by their keys. -/
def valuesOfJson? (json : Json) : Option Jar :=
  (json.members? cookieOfJson?).map Dict.ofList

/-- The document of the values of a jar by their keys. -/
def valuesToJson (jar : Jar) : Json :=
  .obj (jar.entries.map fun (key, c) => (key, cookieToJson c))

/-- The document of a jar. -/
def toJson (jar : Jar) : Json := .obj [("cookies", valuesToJson jar)]

/-- The jar that a document stands for. -/
def ofJson? (json : Json) : Option Jar :=
  match json.fields? ["cookies"] with
  | some [some values] => valuesOfJson? values
  | _ => none

/-! ### Files -/

/-- The version of the files that are written and read. -/
def fileVersion : Nat := 1

/-- The text of the file of a jar. -/
def save (jar : Jar) (now : Nat) : String :=
  (Json.obj [("version", .ofNat fileVersion), ("cookies", valuesToJson (jar.live now))]).pretty

/-- Reads the document of a kept value. -/
def readCookie : Json.Reader :=
  let whole := Json.readValue Json.depthBound
  Json.readRecord [("value", whole), ("expires_at", whole)]

/-- Reads the document of a file. -/
def readFile : Json.Reader :=
  Json.readRecord
    [("version", Json.readValue Json.depthBound), ("cookies", Json.readEach readCookie)]

/-- Whether no field of the document of a file, or of a value in it, is given twice. -/
def fieldsOnce (json : Json) : Bool :=
  json.once ["version", "cookies"] &&
    match json.fields? ["version", "cookies"] with
    | some [_, some (.obj members)] => members.all fun (_, c) => c.once ["value", "expires_at"]
    | _ => true

/-- The jar that the text of a file stands for. -/
def ofFile (text : String) : Except JarError Jar :=
  match Json.parseBy? readFile text with
  | none => .error .malformed
  | some json =>
      match fieldsOnce json, json.fields? ["version", "cookies"] with
      | true, some [some version, some values] =>
          match version.nat? UInt32.size, valuesOfJson? values with
          | some found, some jar =>
              if found = fileVersion then .ok jar
              else .error (.versionMismatch fileVersion found)
          | _, _ => .error .malformed
      | _, _ => .error .malformed

/-- The jar of a file, given by its text if there is such a file. -/
def load : Option String → Except JarError Jar
  | none => .error .noFile
  | some text => ofFile text

end Jar

end Gamebook
