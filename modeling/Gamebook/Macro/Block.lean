/-
**Blocks between macro calls.**

A block macro applies to what stands between its call and a closing one.  Blocks of one kind may
lie inside one another, and a block may be divided in two.

Main definitions:

* `Block.Marks`, `Block.Delimiters` — the calls that open, divide and close blocks of a kind;
* `Block.find?` — the block that a text goes on with, behind the call that opened it;
* `Block.scan` — the block that stands in a source at a byte offset, looked for byte by byte;
* `Block.conditional`, `Block.silent` — the delimiters of the standard blocks.
-/

import Gamebook.Text.Bytes

set_option relaxedAutoImplicit false
set_option autoImplicit false

namespace Gamebook

namespace Block

/-- The calls that open, divide and close blocks of a kind, as rows of characters or bytes. -/
structure Marks (α : Type) where
  opening : List α
  divider : Option (List α)
  closing : List α
  deriving DecidableEq, Repr

/-- The calls that open, divide and close blocks of a kind. -/
abbrev Delimiters : Type := Marks Char

variable {α : Type} [BEq α]

/-- Where a block ends and where it is divided, in characters or bytes. -/
structure Bounds where
  /-- Where the first divider starts and where it ends. -/
  divided : Option (Nat × Nat)
  /-- Where the closing call starts. -/
  close : Nat
  deriving DecidableEq, Repr

/-- The divider that a text starts with, if it counts: in no inner block, and as the first one. -/
def Marks.divider? (d : Marks α) (depth : Nat) (divided : Option (Nat × Nat))
    (text : List α) : Option Nat :=
  match depth, divided, d.divider with
  | 0, none, some mark => if mark.isPrefixOf text then some mark.length else none
  | _, _, _ => none

/-- Looks for the end of a block.  `position` is the number of characters or bytes read, `skip` that
of those still to pass over, and `depth` the number of inner blocks that are open. -/
def seek (d : Marks α) (position : Nat) :
    Nat → Nat → Option (Nat × Nat) → List α → Option Bounds
  | _, _, _, [] => none
  | skip + 1, depth, divided, _ :: rest => seek d (position + 1) skip depth divided rest
  | 0, depth, divided, c :: rest =>
      -- the closing call comes first, then the divider, then the opening call
      if d.closing.isPrefixOf (c :: rest) then
        match depth with
        | 0 => some ⟨divided, position⟩
        | depth + 1 => seek d (position + 1) (d.closing.length - 1) depth divided rest
      else
        match d.divider? depth divided (c :: rest) with
        | some (length + 1) =>
            seek d (position + 1) length depth (some (position, position + length + 1)) rest
        | emptyDivider =>
            let divided := match emptyDivider with
              | some _ => some (position, position)
              | none => divided
            if d.opening.isPrefixOf (c :: rest) then
              seek d (position + 1) (d.opening.length - 1) (depth + 1) divided rest
            else seek d (position + 1) 0 depth divided rest

end Block

/-- What a block macro applies to. -/
structure Block where
  body : List Char
  /-- What stands behind the divider. -/
  alternate : Option (List Char)
  /-- The number of characters up to the end of the closing call. -/
  length : Nat
  deriving DecidableEq, Repr

namespace Block

/-- The block that `text` goes on with, behind the call that opened it; `none` if nothing closes
it. -/
def find? (d : Delimiters) (text : List Char) : Option Block :=
  (seek d 0 0 0 none text).map fun bounds =>
    { body := text.take (match bounds.divided with
        | some (start, _) => start
        | none => bounds.close)
      alternate := bounds.divided.map fun (_, stop) => (text.take bounds.close).drop stop
      length := bounds.close + d.closing.length }

/-- A block found in a source, and the offset behind its closing call. -/
structure Found where
  body : List Char
  /-- What stands behind the divider. -/
  alternate : Option (List Char)
  stop : Nat
  deriving DecidableEq, Repr

/-- The bytes of the calls. -/
def Delimiters.utf8 (d : Delimiters) : Marks UInt8 :=
  { opening := Text.utf8 d.opening
    divider := d.divider.map Text.utf8
    closing := Text.utf8 d.closing }

/-- The block that stands in `source` from byte `start` on, behind the call that opened it; `none`
if nothing closes it or one of its parts is no text. -/
def scan (d : Delimiters) (source : List Char) (start : Nat) : Option Found := do
  let bounds ← seek d.utf8 start 0 0 none ((Text.utf8 source).drop start)
  let body ← Text.slice? start (match bounds.divided with
    | some (divider, _) => divider
    | none => bounds.close) source
  let alternate ← match bounds.divided with
    | some (_, behind) => (Text.slice? behind bounds.close source).map some
    | none => some none
  return { body := body, alternate := alternate, stop := bounds.close + d.utf8.closing.length }

/-- A condition, with what applies where it does not hold behind the divider. -/
def conditional : Delimiters where
  opening := ['<', '<', 'i', 'f', ' ']
  divider := some ['<', '<', 'e', 'l', 's', 'e', '>', '>']
  closing := ['<', '<', 'e', 'n', 'd', 'i', 'f', '>', '>']

/-- What is run without being shown. -/
def silent : Delimiters where
  opening := ['<', '<', 's', 'i', 'l', 'e', 'n', 't', 'l', 'y', '>', '>']
  divider := none
  closing := ['<', '<', 'e', 'n', 'd', 's', 'i', 'l', 'e', 'n', 't', 'l', 'y', '>', '>']

end Block

end Gamebook
