/-
**The marks that constructs start and end with.**

A pattern tells how many characters a mark takes at a point of a text, given the character before
that point and the text behind it.  Lines are divided by line feeds.

Main definitions:

* `Pattern`, `Pattern.literal`, `Pattern.onLine` — patterns, a fixed mark, and a mark that counts
  only where a line starts;
* `Pattern.upTo`, `Pattern.linesUpTo` — what stands before a mark, anywhere or on a line of its
  own;
* `Mark` — the marks of the standard constructs.
-/

import Gamebook.Text.Blank
import Gamebook.Text.Word

set_option relaxedAutoImplicit false
set_option autoImplicit false

namespace Gamebook

/-- How many characters a mark takes at a point, given the character before the point and the text
behind it. -/
abbrev Pattern : Type := Option Char → List Char → Option Nat

namespace Pattern

/-! ### Building patterns -/

/-- Whether a line starts behind this character. -/
def startsLine (previous : Option Char) : Bool := previous.all (· == '\n')

/-- Whether a line ends before this text. -/
def endsLine (text : List Char) : Bool := text.head?.all (· == '\n')

/-- The length of a line break at the start of a text. -/
def breakLength (text : List Char) : Nat :=
  match text with
  | '\n' :: _ => 1
  | _ => 0

/-- A fixed mark. -/
def literal (mark : List Char) : Pattern := fun _ text =>
  if mark.isPrefixOf text then some mark.length else none

/-- A mark that counts only where a line starts. -/
def onLine (p : Pattern) : Pattern := fun previous text =>
  if startsLine previous then p previous text else none

/-- A fixed mark that ends a line; the line break, if there is one, belongs to it. -/
def endingLine (mark : List Char) : Pattern := fun _ text =>
  let rest := text.drop mark.length
  if mark.isPrefixOf text && endsLine rest then some (mark.length + breakLength rest) else none

/-- A run of at least one character of a class. -/
def run (p : Char → Bool) : Pattern := fun _ text =>
  match (text.takeWhile p).length with
  | 0 => none
  | n => some n

/-- The first of two marks that is there. -/
def orElse (p q : Pattern) : Pattern := fun previous text =>
  match p previous text with
  | some n => some n
  | none => q previous text

/-! ### What stands before a mark -/

/-- What stands before the first place where `close?` finds a mark, and the length of both. -/
def upTo (close? : List Char → Option Nat) : List Char → Option (List Char × Nat)
  | [] => none
  | c :: rest =>
      match close? (c :: rest) with
      | some n => some ([], n)
      | none => (upTo close? rest).map fun (body, n) => (c :: body, n + 1)

/-- What stands before the first start of a line where `close?` finds a mark, and the length of
both.  `atStart` tells whether a line starts here that may hold the mark. -/
def linesUpTo (close? : List Char → Option Nat) : Bool → List Char → Option (List Char × Nat)
  | _, [] => none
  | atStart, c :: rest =>
      match (if atStart then close? (c :: rest) else none) with
      | some n => some ([], n)
      | none => (linesUpTo close? (c == '\n') rest).map fun (body, n) => (c :: body, n + 1)

/-- Whether a text starts with these letters, in any case; they are given as small letters. -/
def startsWithLetters : List Char → List Char → Bool
  | [], _ => true
  | _ :: _, [] => false
  | l :: ls, c :: cs => c.toLower == l && startsWithLetters ls cs

end Pattern

open Pattern in
/-- A fixed mark whose letters may stand in any case. -/
def Pattern.anyCase (mark : List Char) : Pattern := fun _ text =>
  if startsWithLetters mark text then some mark.length else none

namespace Mark

open Pattern

/-! ### Marks of blocks -/

/-- The kinds of rows of a table. -/
inductive RowKind where
  | body
  | head
  | foot
  | caption
  deriving DecidableEq, Repr

/-- The kind of row that a letter behind its last bar stands for. -/
def RowKind.ofLetter? : Char → Option RowKind
  | 'f' => some foot
  | 'h' => some head
  | 'c' => some caption
  | _ => none

/-- Whether a line starts and ends with bars, and these are not one and the same. -/
def isBarred (line : List Char) : Bool :=
  line.head? == some '|' && line.getLast? == some '|' && 2 ≤ line.length

/-- The kind of row that a line holds, if it holds one: it stands between bars, and a letter may
follow the last one. -/
def rowKind? (line : List Char) : Option RowKind :=
  if isBarred line then some .body
  else
    match line.getLast?.bind RowKind.ofLetter? with
    | some kind => if isBarred line.dropLast then some kind else none
    | none => none

/-- The line that a text starts with. -/
def line (text : List Char) : List Char := text.takeWhile (· != '\n')

/-- A line that holds a row of a table. -/
def row : Pattern := onLine fun _ text => (rowKind? (line text)).map fun _ => (line text).length

/-- The last bar of a row, with its letter and the line break. -/
def rowEnd : Pattern := fun previous text =>
  match text with
  | '|' :: letter :: _ =>
      match RowKind.ofLetter? letter with
      | some _ => endingLine ['|', letter] previous text
      | none => endingLine ['|'] previous text
  | _ => endingLine ['|'] previous text

/-- The bar behind a cell, with the spaces before it. -/
def cellEnd : Pattern := fun _ text =>
  match text.dropWhile (· == ' ') with
  | '|' :: _ => some ((text.takeWhile (· == ' ')).length + 1)
  | _ => none

/-- A line of four hyphens. -/
def rule : Pattern := onLine (endingLine ['-', '-', '-', '-'])

/-- Up to five exclamation marks at the start of a line. -/
def heading : Pattern := onLine fun _ text =>
  match min 5 (text.takeWhile (· == '!')).length with
  | 0 => none
  | n => some n

/-- The line that opens preformatted text. -/
def preformatted : Pattern := onLine (literal ['{', '{', '{', '\n'])

/-- The line that opens preformatted text, behind slashes. -/
def slashedPreformatted : Pattern := onLine (literal ['/', '/', '{', '{', '{', '\n'])

/-- The line that closes preformatted text. -/
def preformattedEnd (text : List Char) : Option Nat := endingLine ['}', '}', '}'] none text

/-- The line that closes preformatted text behind slashes, with the empty lines before it. -/
def slashedPreformattedEnd (text : List Char) : Option Nat :=
  let breaks := (text.takeWhile (· == '\n')).length
  (endingLine ['/', '/', '}', '}', '}'] none (text.drop breaks)).map (· + breaks)

/-- The line that opens a block comment around rendered text. -/
def comment : Pattern := onLine (literal ['/', '*', '*', '*', '\n'])

/-- The line that closes it. -/
def commentEnd : Pattern := onLine (literal ['*', '*', '*', '/', '\n'])

/-- The line that opens and closes a block of quoted text. -/
def quoteBlock : Pattern := onLine (literal ['<', '<', '<', '\n'])

/-- The marks of a quoted line. -/
def quoteLine : Pattern := onLine (run (· == '>'))

/-- The marks of an item of an unordered list. -/
def bullets : Pattern := onLine (run (· == '*'))

/-- The marks of an item of an ordered list. -/
def numbers : Pattern := onLine (run (· == '#'))

/-- The marks of an item of a list. -/
def listItem : Pattern := orElse bullets numbers

/-- A line break. -/
def newline : Pattern := literal ['\n']

/-! ### Marks inside lines -/

/-- Whether `c` can stand in the address of a place. -/
def isAddressChar (c : Char) : Bool := !Text.isBlank c && c != '\'' && c != '"'

/-- The length of an address whose characters so far are `run`, the last one first, if it may end
there, or else further in.  It ends behind a slash or at the edge of a word. -/
def addressLength : List Char → Option Char → Option Nat
  | [], _ => none
  | c :: run, next =>
      -- a slash may be the last character, whatever follows it
      if next = some '/' then some (run.length + 2)
      else if Text.atWordEdge (some c) next then some (run.length + 1)
      else addressLength run (some c)

/-- The beginnings of addresses of places. -/
def schemes : List (List Char) :=
  [['h', 't', 't', 'p', ':'], ['h', 't', 't', 'p', 's', ':'],
    ['m', 'a', 'i', 'l', 't', 'o', ':'], ['f', 't', 'p', ':']]

/-- The address of a place outside the story. -/
def address : Pattern := fun _ text =>
  match schemes.find? fun scheme => scheme.isPrefixOf text with
  | some scheme =>
      let body := text.drop scheme.length
      let run := body.takeWhile isAddressChar
      (addressLength run.reverse (body.drop run.length).head?).map (· + scheme.length)
  | none => none

/-- The beginning of an image: `[img[`, with signs for its place on the page before the word. -/
def image : Pattern := fun _ text =>
  match text with
  | '[' :: rest =>
      let left := if rest.head? = some '<' then 1 else 0
      let right := if (rest.drop left).head? = some '>' then 1 else 0
      if startsWithLetters ['i', 'm', 'g', '['] (rest.drop (left + right)) then
        some (left + right + 5)
      else none
  | _ => none

/-- The beginning of a link. -/
def link : Pattern := literal ['[', '[']

/-- The beginning of a macro call. -/
def call : Pattern := literal ['<', '<']

/-- The beginning and the end of markup written out in HTML. -/
def html : Pattern := anyCase ['<', 'h', 't', 'm', 'l', '>']

/-- The end of markup written out in HTML. -/
def htmlEnd (text : List Char) : Option Nat := anyCase ['<', '/', 'h', 't', 'm', 'l', '>'] none text

/-- The beginning of a comment. -/
def hidden : Pattern := literal ['/', '%']

/-- The end of a comment. -/
def hiddenEnd (text : List Char) : Option Nat := literal ['%', '/'] none text

/-- The beginning of code. -/
def code : Pattern := literal ['{', '{', '{']

/-- The end of code. -/
def codeEnd (text : List Char) : Option Nat := literal ['}', '}', '}'] none text

/-- Two hyphens. -/
def dash : Pattern := literal ['-', '-']

/-- The marks before and behind strong text. -/
def strong : Pattern := literal ['\'', '\'']

/-- The marks before and behind struck text. -/
def strike : Pattern := literal ['=', '=']

/-- The marks before and behind underlined text. -/
def underline : Pattern := literal ['_', '_']

/-- The marks before and behind emphasised text. -/
def emphasis : Pattern := literal ['/', '/']

/-- The marks before and behind a subscript. -/
def subscript : Pattern := literal ['~', '~']

/-- The marks before and behind a superscript. -/
def superscript : Pattern := literal ['^', '^']

/-- The marks before and behind styled text. -/
def style : Pattern := literal ['@', '@']

end Mark

end Gamebook
