/-
**Constructs that are read whole.**

Links, images, macro calls and texts that are not looked into are read in one piece from where
their mark stands.  A mark with no such construct behind it is plain text.

Main definitions:

* `Construct.link?` — `[[Title]]` and `[[Label|Target]]`;
* `Construct.image?` — `[img[Source]]` with a title, a side and a target if there are any;
* `Construct.call?` — `<<name arguments>>`;
* `Construct.preformatted?`, `Construct.slashedPreformatted?` — lines between marks;
* `Construct.enclosed?` — what stands between an opening and a closing mark.
-/

import Gamebook.Markup.Pattern

set_option relaxedAutoImplicit false
set_option autoImplicit false

namespace Gamebook.Construct

/-! ### Links -/

/-- Up to two closing brackets on the same line: what stands before them, and the length of
both. -/
def toBrackets : List Char → Option (List Char × Nat)
  | [] => none
  | ']' :: ']' :: _ => some ([], 2)
  | c :: rest =>
      if c = '\n' then none else (toBrackets rest).map fun (body, n) => (c :: body, n + 1)

/-- The label of the link that a text starts with, its target if it is given apart, and the length
of all of it. -/
def link? (text : List Char) : Option (List Char × Option (List Char) × Nat) :=
  match text with
  | '[' :: '[' :: body =>
      let label := body.takeWhile fun c => c != '|' && c != ']'
      match body.drop label.length with
      | ']' :: ']' :: _ => some (label, none, label.length + 4)
      | '|' :: rest =>
          (toBrackets rest).map fun (target, n) => (label, some target, label.length + n + 3)
      | _ => none
  | _ => none

/-! ### Images -/

/-- The side of the page that an image stands on. -/
inductive Side where
  | left
  | right
  deriving DecidableEq, Repr

/-- An image as it is written. -/
structure Image where
  side : Option Side
  title : Option (List Char)
  source : List Char
  /-- What follows if a reader picks the image. -/
  target : Option (List Char)
  deriving DecidableEq, Repr

/-- What closes an image behind its source: the target, if there is one, and the length. -/
def imageEnd? (text : List Char) : Option (Option (List Char) × Nat) :=
  match text with
  | '[' :: rest =>
      let target := rest.takeWhile (· != ']')
      let target? := if target = [] then none else some target
      match rest.drop target.length with
      | ']' :: ']' :: _ => some (target?, target.length + 3)
      | ']' :: _ => some (target?, target.length + 2)
      | _ => none
  | ']' :: _ => some (none, 1)
  | _ => none

/-- The title, the source and the target of an image behind its opening mark, and the length. -/
def imageBody? (text : List Char) :
    Option (Option (List Char) × List Char × Option (List Char) × Nat) :=
  let run := text.takeWhile fun c => c != '|' && c != ']'
  let (title?, start) := match run, text.drop run.length with
    | _ :: _, '|' :: _ => (some run, run.length + 1)
    | _, _ => (none, 0)
  let text := text.drop start
  let source := text.takeWhile fun c => c != '[' && c != ']' && c != '|'
  match source, text.drop source.length with
  | _ :: _, ']' :: rest =>
      (imageEnd? rest).map fun (target?, n) =>
        (title?, source, target?, start + source.length + 1 + n)
  | _, _ => none

/-- The image that a text starts with, and its length. -/
def image? (text : List Char) : Option (Image × Nat) :=
  match Mark.image none text with
  | none => none
  | some opening =>
      let side := match text.drop 1 with
        | '<' :: _ => some .left
        | '>' :: _ => some .right
        | _ => none
      (imageBody? (text.drop opening)).map fun (title, source, target, n) =>
        ({ side := side, title := title, source := source, target := target }, opening + n)

/-! ### Macro calls -/

/-- A macro call as it is written. -/
structure Call where
  name : List Char
  arguments : List Char
  deriving DecidableEq, Repr

/-- Whether `c` can stand in the name of a macro. -/
def isCallNameChar (c : Char) : Bool := c != '>' && !Text.isBlank c

/-- The macro call that a text starts with, and its length.  It ends at the first `>`, which must
be followed by another. -/
def call? (text : List Char) : Option (Call × Nat) :=
  match text with
  | '<' :: '<' :: body =>
      let name := body.takeWhile isCallNameChar
      let behind := body.drop name.length
      let blanks := behind.takeWhile Text.isBlank
      let rest := behind.drop blanks.length
      let arguments := rest.takeWhile (· != '>')
      match name, rest.drop arguments.length with
      | _ :: _, '>' :: '>' :: _ =>
          some (⟨name, arguments⟩, name.length + blanks.length + arguments.length + 4)
      | _, _ => none
  | _ => none

/-! ### Texts that are not looked into -/

/-- What stands between the mark of `opening` characters that a text starts with and the first
closing mark, and the length of all of it. -/
def enclosed? (opening : Nat) (close? : List Char → Option Nat) (text : List Char) :
    Option (List Char × Nat) :=
  (Pattern.upTo close? (text.drop opening)).map fun (body, n) => (body, opening + n)

/-- The lines between the lines `{{{` and `}}}`, at least one, and the length of all of it. -/
def preformatted? (text : List Char) : Option (List Char × Nat) :=
  (Pattern.linesUpTo Mark.preformattedEnd false (text.drop 4)).map fun (body, n) => (body, 4 + n)

/-- The lines between the lines `//{{{` and `//}}}`, without the empty lines next to these, and the
length of all of it.  If there is nothing but empty lines, one of them is kept. -/
def slashedPreformatted? (text : List Char) : Option (List Char × Nat) :=
  let inside := text.drop 6
  let breaks := (inside.takeWhile (· == '\n')).length
  let rest := inside.drop breaks
  match Pattern.linesUpTo Mark.slashedPreformattedEnd false rest with
  | some (body, n) => some (body, 6 + breaks + n)
  | none =>
      if breaks = 0 then none
      else (Mark.slashedPreformattedEnd rest).map fun n => (['\n'], 6 + breaks + n)

end Gamebook.Construct
