/-
**Lines with marks, and quotations.**

A line of a quotation or of a list starts with as many marks as it lies deep, and words stand behind
them.  Such lines are read one after another, each up to its end.  What stands in a quoted line gets
into the innermost quotation, in front of the break of the line.

Main definitions:

* `LineSign`, `Line` — the signs of lines, and a line with its marks and its words;
* `Line.sources` — lines as they are written, one below the other;
* `Line.shown`, `Line.quoted` — what shows the words of a line, and where it lies in a quotation.

Main results:

* `Line.run_marks` — the marks of a line are read as they were written;
* `Line.scanInside_letters` — **so are its words**, up to the end of the line;
* `Nesting.readQuote_places` — a quoted line adds its words and its break, at its level;
* `Nesting.readQuotes_places` — **so do all of them**, one after another.
-/

import Gamebook.Proofs.Macro.Calls
import Gamebook.Proofs.Render.Places

set_option relaxedAutoImplicit false
set_option autoImplicit false

namespace Gamebook

/-- The kind of quotations. -/
def Tag.isQuote : Tag → Bool
  | .blockQuote => true
  | _ => false

/-! ### Lines -/

/-- What a line of a quotation or of a list starts with. -/
inductive LineSign where
  | quote
  | bullet
  | number
  deriving DecidableEq, Repr

namespace LineSign

/-- The sign as it is written. -/
def char : LineSign → Char
  | quote => '>'
  | bullet => '*'
  | number => '#'

/-- The kind of elements that lines with the sign lie in. -/
def tag : LineSign → Tag
  | quote => .blockQuote
  | bullet => .unorderedList
  | number => .orderedList

/-- No sign is a letter, a line break or a colon. -/
theorem char_ne (sign : LineSign) :
    Program.isLetter sign.char = false ∧ sign.char ≠ '\n' ∧ sign.char ≠ ':' := by
  cases sign <;> decide

end LineSign

/-- A line of a quotation or of a list. -/
structure Line where
  sign : LineSign
  /-- The number of signs. -/
  level : Nat
  letters : List Char
  level_pos : 0 < level := by decide
  isWord : letters.all Program.isLetter = true := by decide +kernel

namespace Line

/-- The line as it is written. -/
def source (l : Line) : List Char := List.replicate l.level l.sign.char ++ l.letters

/-- Lines as they are written, one below the other.  The last one may end with a line break of its
own, too. -/
def sources (final : Bool) : List Line → List Char
  | [] => []
  | [l] => l.source ++ if final then ['\n'] else []
  | l :: l' :: lines => l.source ++ '\n' :: sources final (l' :: lines)

/-- What stands behind a line. -/
def behind (final : Bool) : List Line → List Char
  | [] => if final then ['\n'] else []
  | l :: lines => '\n' :: sources final (l :: lines)

theorem sources_cons (final : Bool) (l : Line) (lines : List Line) :
    sources final (l :: lines) = l.source ++ behind final lines := by
  cases lines <;> rfl

/-- What shows the words of a line: a text, if there are any. -/
def shown (l : Line) : List Node :=
  match l.letters with
  | [] => []
  | c :: letters => [.text (String.ofList (c :: letters))]

/-- The nodes of a quoted line, its words and its break, each inside as many quotations as the line
has signs. -/
def quoted (l : Line) : List (List Tag × Node) :=
  (l.shown ++ [Node.element { tag := .lineBreak } []]).map fun node =>
    (List.replicate l.level .blockQuote, node)

variable {final : Bool} {l : Line} {lines : List Line} {s : Scanner}

/-! ### Reading a line -/

theorem colon_notMem_behind : ':' ∉ behind final lines := by
  induction lines with
  | nil => cases final <;> decide
  | cons l lines ih =>
      rw [behind, sources_cons]
      simp only [List.mem_cons, source, List.mem_append, List.mem_replicate, not_or]
      refine ⟨by decide, ⟨fun h => l.sign.char_ne.2.2 h.2.symm, fun hin => ?_⟩, ih⟩
      exact Program.ne_of_isLetter (List.all_eq_true.1 l.isWord _ hin) (m := ':') (by decide) rfl

/-- Behind its marks a line goes on with something else. -/
theorem takeWhile_sign (l : Line) (final : Bool) (lines : List Line) :
    (l.letters ++ behind final lines).takeWhile (· == l.sign.char) = [] := by
  obtain ⟨hletter, hbreak, -⟩ := l.sign.char_ne
  cases hl : l.letters with
  | cons c letters =>
      have hc : Program.isLetter c = true :=
        List.all_eq_true.1 l.isWord c (hl ▸ List.mem_cons_self)
      exact List.takeWhile_cons_of_neg (by simpa using Program.ne_of_isLetter hc hletter)
  | nil =>
      have hneg : ¬ ('\n' == l.sign.char) = true := by simpa using hbreak.symm
      cases lines with
      | cons l' lines => exact List.takeWhile_cons_of_neg hneg
      | nil =>
          cases final with
          | true => exact List.takeWhile_cons_of_neg hneg
          | false => rfl

/-- **The marks of a line are read as they were written**, where the line starts. -/
theorem run_marks {sign : LineSign} (h : l.sign = sign) {previous : Option Char}
    (hprevious : Pattern.startsLine previous = true) :
    Pattern.onLine (Pattern.run (· == sign.char)) previous (sources final (l :: lines)) =
      some l.level := by
  subst h
  have hmarks : (sources final (l :: lines)).takeWhile (· == l.sign.char) =
      List.replicate l.level l.sign.char := by
    rw [sources_cons, source, List.append_assoc, List.takeWhile_append_of_pos, takeWhile_sign,
      List.append_nil]
    intro c hc
    simp [List.eq_of_mem_replicate hc]
  have hpos := l.level_pos
  rw [Pattern.onLine, if_pos hprevious, Pattern.run, hmarks, List.length_replicate]
  cases hlevel : l.level with
  | zero => omega
  | succ n => rfl

/-- A line starts with its sign. -/
theorem exists_sources (final : Bool) (l : Line) (lines : List Line) :
    ∃ rest, sources final (l :: lines) = l.sign.char :: rest := by
  have hpos := l.level_pos
  rw [sources_cons, source]
  cases hlevel : l.level with
  | zero => omega
  | succ n => exact ⟨_, rfl⟩

/-- Behind its marks stand the words of a line. -/
theorem drop_marks (l : Line) (final : Bool) (lines : List Line) :
    (sources final (l :: lines)).drop l.level = l.letters ++ behind final lines := by
  rw [sources_cons, source, List.append_assoc]
  exact List.drop_left' List.length_replicate

theorem take_marks (l : Line) (final : Bool) (lines : List Line) :
    (sources final (l :: lines)).take l.level = List.replicate l.level l.sign.char := by
  rw [sources_cons, source, List.append_assoc]
  exact List.take_left' List.length_replicate

theorem absent_newline {c : Char} (hc : Program.isLetter c = true) (text : List Char) :
    Mark.newline.Absent (c :: text) :=
  Pattern.absent_literal (Pattern.isPrefixOf_of_ne (Program.ne_of_isLetter hc (by decide)).symm _ _)

/-- The scanner stands where the next lines start, if there are any. -/
structure Reaches (final : Bool) (lines : List Line) (s t : Scanner) : Prop where
  page : t.page = s.page
  rest : t.cursor.rest = sources final lines
  previous : lines ≠ [] → Pattern.startsLine t.cursor.previous = true

/-- At the end of a line the scan ends, and passes the break. -/
theorem run_behind (kit : Kit) (ctx : Context)
    (hrest : s.cursor.rest = behind final lines) :
    (kit.run ctx (some Mark.newline) s).nodes = s.nodes ∧
      Reaches final lines s (kit.run ctx (some Mark.newline) s) := by
  have hend : s.cursor.rest = [] → lines = [] →
      (kit.run ctx (some Mark.newline) s).nodes = s.nodes ∧
        Reaches final lines s (kit.run ctx (some Mark.newline) s) := by
    rintro hnil rfl
    have hnext : kit.formatters.next? (some Mark.newline) s.cursor.previous s.cursor.rest =
        none := by
      rw [hnil]
      rfl
    rw [Kit.run_of_none hnext]
    refine ⟨?_, rfl, Cursor.rest_toEnd _, fun h => absurd rfl h⟩
    change Node.addText s.cursor.rest s.nodes = s.nodes
    rw [hnil]
    rfl
  have hbreak : s.cursor.rest = '\n' :: sources final lines →
      (kit.run ctx (some Mark.newline) s).nodes = s.nodes ∧
        Reaches final lines s (kit.run ctx (some Mark.newline) s) := by
    intro hcons
    have hnext : kit.formatters.next? (some Mark.newline) s.cursor.previous s.cursor.rest =
        some ([], .stop 1) := by
      rw [hcons, Formatters.next?, Formatters.hit?]
      rfl
    rw [Kit.run_of_stop hnext]
    refine ⟨rfl, rfl, ?_, fun _ => ?_⟩
    · change s.cursor.rest.drop 1 = _
      rw [hcons]
      rfl
    · change Pattern.startsLine (s.cursor.forward 1).previous = true
      rw [Cursor.forward, hcons]
      rfl
  cases lines with
  | cons l lines => exact hbreak hrest
  | nil =>
      cases final with
      | false => exact hend hrest rfl
      | true => exact hbreak hrest

/-- **The words of a line are read as they were written**, up to the next line. -/
theorem scanInside_letters {kit : Kit} (hformatters : kit.formatters = .standard) (left : Nat)
    (l : Line) (hrest : s.cursor.rest = l.letters ++ behind final lines) (inside : List Node) :
    ∃ t, (kit.context (left + 1)).scanInside Mark.newline inside s =
        (Node.addText l.letters inside, t) ∧ t.nodes = s.nodes ∧ Reaches final lines s t := by
  have hcolon : ':' ∉ l.letters ++ behind final lines := by
    rw [List.mem_append, not_or]
    refine ⟨fun hin => ?_, colon_notMem_behind⟩
    exact Program.ne_of_isLetter (List.all_eq_true.1 l.isWord _ hin) (m := ':') (by decide) rfl
  have hletter : ∀ c ∈ l.letters, Program.isLetter c = true := List.all_eq_true.1 l.isWord
  have hsaid : kit.run (kit.context left) (some Mark.newline) { s with nodes := inside }.enter =
      kit.run (kit.context left) (some Mark.newline)
        (({ s with nodes := inside }.enter.say l.letters).forward l.letters.length) := by
    refine Kit.run_plain hformatters
      (fun c hc => Standard.notMem_signs_of_isLetter (hletter c hc)) (fun p hp c hc text => ?_)
      (fun hin => hcolon ((List.takeWhile_sublist _).subset hin)) hrest
    cases hp
    exact absent_newline (hletter c hc) text
  have hbehind : (({ s with nodes := inside }.enter.say l.letters).forward
      l.letters.length).cursor.rest = behind final lines :=
    Scanner.rest_behind (s := { s with nodes := inside }.enter) hrest l.letters
  obtain ⟨hnodes, hpage, hlines, hprevious⟩ := run_behind kit (kit.context left) hbehind
  refine ⟨{ (kit.run (kit.context left) (some Mark.newline)
    { s with nodes := inside }.enter).leave with nodes := s.nodes }, ?_, rfl, ?_, ?_, ?_⟩
  · rw [← hsaid] at hnodes
    exact Prod.ext hnodes rfl
  · rw [← hsaid] at hpage
    change (kit.run _ _ _).page.leave = s.page
    rw [hpage]
    rfl
  · rw [← hsaid] at hlines
    exact hlines
  · rw [← hsaid] at hprevious
    exact hprevious

/-- Words do not touch what stands in front of them, unless that is a text. -/
theorem addText_letters (l : Line) {nodes : List Node} (h : ∀ s more, nodes ≠ .text s :: more) :
    Node.addText l.letters nodes = l.shown ++ nodes := by
  rw [Node.addText_eq_append h, shown]
  cases l.letters <;> rfl

theorem reverse_shown (l : Line) : l.shown.reverse = l.shown := by
  rw [shown]
  split <;> rfl

/-- The words of a line and its break are not looked through. -/
theorem places_shown (l : Line) (around : List Tag) :
    Node.places Tag.isQuote around (l.shown ++ [.element { tag := .lineBreak } []]) =
      (l.shown ++ [Node.element { tag := .lineBreak } []]).map fun node => (around, node) := by
  rw [shown]
  split <;> rfl

end Line

/-! ### Quoted lines -/

namespace Nesting

open Line (behind sources Reaches)
open Node (places)

variable {final : Bool} {l : Line} {lines : List Line} {s : Scanner} {frames : List Frame}

/-- A quotation that a line can be put into: what it holds does not end with a text. -/
def Quotes (f : Frame) : Prop := f.tag = .blockQuote ∧ ∀ s more, f.content ≠ .text s :: more

theorem Quotes.empty : Quotes { tag := .blockQuote } := ⟨rfl, fun _ _ h => nomatch h⟩

/-- Behind an element another line can be put into a quotation. -/
theorem Quotes.behind_element {f : Frame} (h : Quotes f) (e : Element)
    (children more : List Node) : Quotes { f with content := .element e children :: more } :=
  ⟨h.1, fun _ _ heq => nomatch heq⟩

theorem quotes_stacks : Stacks Quotes (fun _ => True) where
  inner _ houter := houter.behind_element _ _ _
  outermost _ _ := trivial

theorem Quotes.isQuote (h : ∀ f ∈ frames, Quotes f) : ∀ f ∈ frames, Tag.isQuote f.tag = true :=
  fun f hf => (h f hf).1 ▸ rfl

/-- **A quoted line adds its words and its break, at its level.** -/
theorem readQuote_places {kit : Kit} (hformatters : kit.formatters = .standard) (left : Nat)
    (hframes : ∀ f ∈ frames, Quotes f) (hrest : s.cursor.rest = l.letters ++ behind final lines) :
    ∃ frames' t, readQuote (kit.context (left + 1)) l.level frames s = (frames', t) ∧
      (∀ f ∈ frames', Quotes f) ∧ Reaches final lines s t ∧
      held Tag.isQuote frames' t.nodes = held Tag.isQuote frames s.nodes ++ l.quoted := by
  have hheld := held_goTo .blockQuote l.level (Quotes.isQuote hframes) s.nodes
  have hlength := length_goTo .blockQuote l.level frames s.nodes
  have hquotes : ∀ f ∈ (goTo .blockQuote l.level frames s.nodes).1, Quotes f :=
    (quotes_stacks.goTo .blockQuote .empty l.level hframes trivial).1
  obtain ⟨frame, outer, nodes, hgo⟩ := exists_of_goTo .blockQuote l.level_pos frames s.nodes
  rw [hgo] at hheld hlength hquotes
  have hrest' : ({ s with nodes := nodes } : Scanner).cursor.rest =
      l.letters ++ behind final lines := hrest
  obtain ⟨t, hscan, hnodes, hreaches⟩ :=
    Line.scanInside_letters hformatters left l hrest' frame.content
  obtain ⟨hframe, houter⟩ := List.forall_mem_cons.1 hquotes
  rw [l.addText_letters hframe.2] at hscan
  have hkinds : (frame :: outer).map Frame.tag = List.replicate l.level .blockQuote := by
    rw [List.eq_replicate_iff, List.length_map]
    refine ⟨hlength, fun tag htag => ?_⟩
    obtain ⟨f, hf, rfl⟩ := List.mem_map.1 htag
    exact (hquotes f hf).1
  refine ⟨{ frame with content := .element { tag := .lineBreak } [] :: (l.shown ++ frame.content) } ::
    outer, t, ?_, ?_, ⟨hreaches.page, hreaches.rest, hreaches.previous⟩, ?_⟩
  · simp only [readQuote, hgo, hscan]
  · exact List.forall_mem_cons.2 ⟨hframe.behind_element _ _ _, houter⟩
  · rw [List.map_cons] at hkinds
    rw [held, hkinds] at hheld
    have hreverse : (Node.element { tag := .lineBreak } [] :: (l.shown ++ frame.content)).reverse =
        frame.content.reverse ++ (l.shown ++ [.element { tag := .lineBreak } []]) := by
      rw [List.reverse_cons, List.reverse_append, l.reverse_shown, List.append_assoc]
    rw [held, hreverse, Node.places_append, ← List.append_assoc, hnodes, hkinds, hheld,
      l.places_shown, Line.quoted]

/-- **Quoted lines add their words and their breaks**, one after another, and all are read. -/
theorem readQuotes_places {kit : Kit} (hformatters : kit.formatters = .standard) (left : Nat)
    (hframes : ∀ f ∈ frames, Quotes f) (hlines : ∀ l' ∈ l :: lines, l'.sign = .quote)
    (hrest : s.cursor.rest = l.letters ++ behind final lines) :
    places Tag.isQuote [] (readQuotes (kit.context (left + 1)) l.level frames s).nodes.reverse =
        held Tag.isQuote frames s.nodes ++ (l :: lines).flatMap Line.quoted ∧
      (readQuotes (kit.context (left + 1)) l.level frames s).page = s.page ∧
      (readQuotes (kit.context (left + 1)) l.level frames s).cursor.rest = [] := by
  -- at every line the quotations that are open hold all lines before it, wherever they lie in them
  induction lines generalizing l frames s with
  | nil =>
      obtain ⟨frames', t, hread, hframes', hreaches, hheld⟩ :=
        readQuote_places hformatters left hframes hrest
      have hnone : Mark.quoteLine
          (readQuote (kit.context (left + 1)) l.level frames s).2.cursor.previous
          (readQuote (kit.context (left + 1)) l.level frames s).2.cursor.rest = none := by
        rw [hread]
        change Mark.quoteLine t.cursor.previous t.cursor.rest = none
        rw [hreaches.rest]
        exact ite_self _
      rw [readQuotes_of_none l.level_pos hnone, hread]
      refine ⟨?_, hreaches.page, hreaches.rest⟩
      rw [places_closeAll (Quotes.isQuote hframes'), hheld, List.flatMap_singleton]
  | cons l' lines ih =>
      obtain ⟨frames', t, hread, hframes', hreaches, hheld⟩ :=
        readQuote_places hformatters left hframes hrest
      obtain ⟨hquote, hquotes⟩ := List.forall_mem_cons.1 (List.forall_mem_cons.1 hlines).2
      have hsome : Mark.quoteLine t.cursor.previous t.cursor.rest = some l'.level := by
        rw [hreaches.rest]
        exact Line.run_marks hquote (hreaches.previous (List.cons_ne_nil _ _))
      have hrest' : (t.forward l'.level).cursor.rest = l'.letters ++ behind final lines := by
        change t.cursor.rest.drop l'.level = _
        rw [hreaches.rest, l'.drop_marks]
      obtain ⟨hplaces, hpage, hend⟩ := ih hframes' (List.forall_mem_cons.2 ⟨hquote, hquotes⟩) hrest'
      rw [readQuotes_of_some (kit.context_advances _) l.level_pos (by rw [hread]; exact hsome),
        hread]
      refine ⟨?_, hpage.trans hreaches.page, hend⟩
      have hnodes : (t.forward l'.level).nodes = t.nodes := rfl
      rw [hplaces, hnodes, hheld, List.append_assoc]
      rfl

end Nesting

end Gamebook
