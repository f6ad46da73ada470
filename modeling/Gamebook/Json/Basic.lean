/-
**JSON documents.**

The form in which remembered values are kept in a file and in which a host hands over passages and
settings.  A number is kept as it was written and an object keeps its members in the order in which
they were written, a repeated one too.

Main definitions:

* `Json` — a document;
* `Json.nat?`, `Json.str?`, `Json.list?` — what a document stands for, if it has that form;
* `Json.get?`, `Json.once`, `Json.only` — the members of an object;
* `Json.fields?` — the fields of a record, which is an object or a list of the values in order.
-/

set_option relaxedAutoImplicit false
set_option autoImplicit false

namespace Gamebook

/-- A JSON document. -/
inductive Json where
  | null
  | bool (b : Bool)
  /-- A number, as it was written. -/
  | num (written : String)
  | str (s : String)
  | arr (items : List Json)
  /-- An object, its members in the order in which they were written. -/
  | obj (members : List (String × Json))

instance : Inhabited Json := ⟨.null⟩

namespace Json

/-- The document of a natural number. -/
def ofNat (n : Nat) : Json := .num (toString n)

/-- The natural number below `bound` that a document stands for. -/
def nat? (bound : Nat) : Json → Option Nat
  | num written =>
      if written.toList.all Char.isDigit then
        let n := written.toList.foldl (fun n c => 10 * n + (c.toNat - '0'.toNat)) 0
        if n < bound then some n else none
      else none
  | _ => none

/-- The string that a document stands for. -/
def str? : Json → Option String
  | str s => some s
  | _ => none

/-- The truth value that a document stands for. -/
def bool? : Json → Option Bool
  | bool b => some b
  | _ => none

/-- The list that a document stands for, each item read by `item`. -/
def list? {α : Type} (item : Json → Option α) : Json → Option (List α)
  | arr items => items.mapM item
  | _ => none

/-- The map that a document stands for, each value read by `value`. -/
def members? {α : Type} (value : Json → Option α) : Json → Option (List (String × α))
  | obj members => members.mapM fun (key, v) => (value v).map (key, ·)
  | _ => none

/-- The last member of the given name. -/
def get? (name : String) : Json → Option Json
  | obj members => (members.reverse.find? fun member => member.1 == name).map Prod.snd
  | _ => none

/-- Whether no two members of an object have one of these names. -/
def once (names : List String) : Json → Bool
  | obj members =>
      names.all fun name => (members.filter fun member => member.1 == name).length ≤ 1
  | _ => true

/-- Whether an object has no members but those of the given names. -/
def only (names : List String) : Json → Bool
  | obj members => members.all fun member => names.contains member.1
  | _ => true

/-- The fields of a record in the order of their names, `none` for one that is left out.  A record
is an object, or a list of no more values than there are names. -/
def fields? (names : List String) : Json → Option (List (Option Json))
  | obj members => some (names.map fun name => get? name (obj members))
  | arr items =>
      if items.length ≤ names.length then
        some (items.map some ++ List.replicate (names.length - items.length) none)
      else none
  | _ => none

end Json

end Gamebook
