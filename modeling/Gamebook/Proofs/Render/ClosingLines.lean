/-
**Blocks that end with a line of their own.**

A block of quoted text, a block comment and preformatted lines each end with a line that holds a
mark and nothing else.  A text often ends with that line, and then there may be no line break behind
it.
Preformatted lines end there all the same.  The closing lines of the other two count only with their
breaks.  Without one the block goes on over its own mark, up to the end of the text, and the mark is
read again: that of a quotation is said, and that of a comment is taken for an item of a list.

Main definitions:

* `LineBlock`, `LineBlock.source` — such a block with its lines, with or without the last line
  break;
* `LineBlock.lineNodes`, `LineBlock.stray` — what its lines are rendered to, and what its closing
  mark is rendered to if it does not count;
* `LineBlock.shown` — what the block is rendered to;
* `Scanner.AtLine` — a scanner stands where a line starts.

Main results:

* `Kit.run_line`, `Kit.run_lines` — **lines are read one by one**;
* `Kit.render_block` — what a block is rendered to;
* `Story.render_block_final` — **for which blocks the last line break does not matter**.
-/

import Gamebook.Proofs.Render.Said
import Gamebook.Proofs.Render.Verbatim

set_option relaxedAutoImplicit false
set_option autoImplicit false

namespace Gamebook

/-- The element that a node is, without its content. -/
def Node.element? : Node → Option Element
  | .text _ => none
  | .html _ => none
  | .element e _ => some e

/-! ### Blocks and what they are rendered to -/

/-- The blocks that end with a line of their own. -/
inductive LineBlock where
  | quote
  | comment
  | preformatted
  deriving DecidableEq, Repr

namespace LineBlock

/-- The mark in the line before the block. -/
def opening : LineBlock → List Char
  | quote => ['<', '<', '<']
  | comment => ['/', '*', '*', '*']
  | preformatted => ['{', '{', '{']

/-- The mark in the line behind it. -/
def closing : LineBlock → List Char
  | quote => ['<', '<', '<']
  | comment => ['*', '*', '*', '/']
  | preformatted => ['}', '}', '}']

/-- Lines, each with its line break. -/
def body (lines : List (List Char)) : List Char := lines.flatMap (· ++ ['\n'])

/-- The line break at the end of a text, if there is one. -/
def finalBreak (final : Bool) : List Char := if final then ['\n'] else []

/-- A block with its lines.  The text may end with a line break or with the closing mark. -/
def source (b : LineBlock) (lines : List (List Char)) (final : Bool) : List Char :=
  b.opening ++ '\n' :: (body lines ++ (b.closing ++ finalBreak final))

/-- The break of a line. -/
def breakNode : Node := .element { tag := .lineBreak } []

/-- What a line is rendered to: its letters, if there are any, and its break. -/
def lineNodes (letters : List Char) : List Node := Node.addText letters [] ++ [breakNode]

/-- A list with one item, the slash behind three bullets. -/
def bulletNode : Node :=
  .element { tag := .unorderedList } [.element { tag := .unorderedList }
    [.element { tag := .unorderedList } [.element { tag := .listItem } [.text "/"]]]]

/-- What a closing mark is rendered to that does not count. -/
def stray : LineBlock → List Node
  | quote => [.text "<<<"]
  | comment => [bulletNode]
  | preformatted => []

/-- What a block is rendered to. -/
def shown (b : LineBlock) (lines : List (List Char)) (final : Bool) : List Node :=
  let content := lines.flatMap lineNodes ++ if final then [] else b.stray
  match b with
  | quote => [.element { tag := .blockQuote } content]
  | comment => content
  | preformatted => [.element { tag := .preformatted } [.text (String.ofList (body lines))]]

/-- A block that is no preformatted lines says what its lines say, and its mark if that does not
count. -/
theorem toList_textContent_shown {b : LineBlock} (hb : b ≠ .preformatted)
    (lines : List (List Char)) (final : Bool) :
    (Node.textContent (b.shown lines final)).toList =
      (lines.flatMap lineNodes).flatMap Node.chars ++
        (if final then [] else b.stray).flatMap Node.chars := by
  rw [Node.toList_textContent, ← List.flatMap_append]
  cases b with
  | quote =>
      rw [shown, List.flatMap_singleton, Node.chars_element]
  | comment => rfl
  | preformatted => exact absurd rfl hb

/-- A mark that does not count says something. -/
theorem flatMap_chars_stray {b : LineBlock} (hb : b ≠ .preformatted) :
    b.stray.flatMap Node.chars ≠ [] := by
  cases b with
  | quote => simp [stray]
  | comment => simp [stray, bulletNode, Node.chars_element]
  | preformatted => exact absurd rfl hb

/-- Only preformatted lines say the same with their last line break and without it. -/
theorem textContent_shown_eq_iff (b : LineBlock) (lines : List (List Char)) :
    Node.textContent (b.shown lines true) = Node.textContent (b.shown lines false) ↔
      b = .preformatted := by
  constructor
  · intro h
    by_contra hb
    have hchars := congrArg String.toList h
    rw [toList_textContent_shown hb, toList_textContent_shown hb] at hchars
    exact flatMap_chars_stray hb (List.append_cancel_left hchars).symm
  · rintro rfl
    rfl

end LineBlock

open LineBlock (body finalBreak breakNode lineNodes)

/-! ### Lines -/

/-- One line, with the latest node first. -/
theorem LineBlock.reverse_lineNodes (letters : List Char) :
    (lineNodes letters).reverse = breakNode :: Node.addText letters [] := by
  cases letters <;> rfl

/-- Lines of letters hold nothing but these and their breaks. -/
theorem LineBlock.notMem_body {lines : List (List Char)}
    (hlines : ∀ l ∈ lines, ∀ c ∈ l, Program.isLetter c = true) {m : Char}
    (hletter : Program.isLetter m = false) (hbreak : m ≠ '\n') : m ∉ body lines := by
  intro hin
  obtain ⟨l, hl, hm⟩ := List.mem_flatMap.1 hin
  rcases List.mem_append.1 hm with hm | hm
  · exact Program.ne_of_isLetter (hlines l hl m hm) hletter rfl
  · exact hbreak (List.mem_singleton.1 hm)

theorem LineBlock.getLast?_body {lines : List (List Char)} (hne : lines ≠ []) :
    (body lines).getLast? = some '\n' := by
  obtain ⟨lines, l, rfl⟩ := (List.eq_nil_or_concat lines).resolve_left hne
  simp [body]

/-- Lines end with their breaks, so that they do not end with a text. -/
theorem LineBlock.reverse_ne_text (lines : List (List Char)) :
    ∀ s more, (lines.flatMap lineNodes).reverse ≠ .text s :: more := by
  rcases List.eq_nil_or_concat lines with rfl | ⟨lines, l, rfl⟩
  · exact fun _ _ heq => nomatch heq
  · rw [List.concat_eq_append, List.flatMap_append, List.flatMap_singleton, List.reverse_append,
      reverse_lineNodes]
    exact fun _ _ heq => nomatch heq

/-- What lies in a block, with the latest node first. -/
theorem LineBlock.reverse_content (b : LineBlock) (lines : List (List Char)) (final : Bool) :
    ((if final then [] else b.stray) ++ (lines.flatMap lineNodes).reverse).reverse =
      lines.flatMap lineNodes ++ if final then [] else b.stray := by
  rw [List.reverse_append, List.reverse_reverse]
  cases final <;> cases b <;> rfl

/-- Preformatted lines are read whole, up to their mark and the line break behind it, if there is
one. -/
theorem LineBlock.preformatted?_source {lines : List (List Char)}
    (hlines : ∀ l ∈ lines, ∀ c ∈ l, Program.isLetter c = true) (hne : lines ≠ []) (final : Bool) :
    Construct.preformatted? (preformatted.source lines final) =
      some (body lines, (preformatted.source lines final).length) := by
  let mark := preformatted.closing ++ finalBreak final
  have hbrace : '}' ∉ body lines := notMem_body hlines (by decide) (by decide)
  have hinside : ∀ before c rest, body lines = before ++ c :: rest →
      Mark.preformattedEnd (c :: rest ++ mark) = none := by
    intro before c rest hbody
    have hc : c ∉ ['}'] := by
      intro hin
      rw [hbody, List.mem_singleton.1 hin] at hbrace
      exact hbrace (List.mem_append_right _ List.mem_cons_self)
    exact Pattern.startsIn_endingLine '}' ['}', '}'] c hc (rest ++ mark) none
  have hclose : Mark.preformattedEnd mark = some mark.length := by cases final <;> rfl
  have hstarts : (body lines).getLast?.elim false (· == '\n') = true := by
    rw [getLast?_body hne]
    rfl
  have hread := Pattern.linesUpTo_of_last hinside (List.cons_ne_nil _ _) hclose false
    fun h => by rw [hstarts] at h; cases h
  rw [if_pos hstarts] at hread
  rw [Construct.preformatted?]
  change Option.map _ (Pattern.linesUpTo _ _ (body lines ++ mark)) = _
  rw [hread, Option.map_some]
  refine congrArg (fun k => some (body lines, k)) ?_
  change 4 + _ = (['{', '{', '{', '\n'] ++ (body lines ++ mark)).length
  simp only [List.length_append, List.length_cons, List.length_nil]

/-- The scanner stands where a line starts. -/
structure Scanner.AtLine (rest : List Char) (nodes : List Node) (page : Page) (s : Scanner) :
    Prop where
  rest : s.cursor.rest = rest
  previous : Pattern.startsLine s.cursor.previous = true
  nodes : s.nodes = nodes
  page : s.page = page

/-- Where the mark that is waited for does not stand, it makes no difference. -/
theorem Formatters.hit?_waiting {p : Pattern} {text : List Char} (h : p.Absent text)
    (fs : Formatters) (previous : Option Char) :
    fs.hit? (some p) previous text = fs.hit? none previous text := by
  simp [hit?, Pattern.nonempty?, h previous]

/-- A line break is handed to its formatter. -/
theorem Formatters.hit?_lineBreak (previous : Option Char) (text : List Char) :
    Formatters.standard.hit? none previous ('\n' :: text) =
      some (.rule 24 Standard.lineBreak 1) := by
  have habsent : ∀ f ∈ Standard.inOrder.take 24, f.start.Absent ('\n' :: text) :=
    absent_of_suspects (List.take_subset 24 Standard.firsts) fun f hf => absurd hf List.not_mem_nil
  exact hit?_of_first [] habsent (Nat.succ_pos 0) rfl

/-- A mark that stands at no letter and at no line break, so that it cannot end a line of words. -/
structure Pattern.OffLines (p : Pattern) : Prop where
  letter : ∀ c, Program.isLetter c = true → ∀ text, p.Absent (c :: text)
  lineBreak : ∀ text, p.Absent ('\n' :: text)

theorem Pattern.StartsIn.offLines {p : Pattern} {m : Char} (h : p.StartsIn [m])
    (hletter : Program.isLetter m = false) (hbreak : '\n' ≠ m) : p.OffLines where
  letter c hc text :=
    h c (fun hin => Program.ne_of_isLetter hc hletter (List.mem_singleton.1 hin)) text
  lineBreak text := h '\n' (fun hin => hbreak (List.mem_singleton.1 hin)) text

theorem Mark.quoteBlock_offLines : Mark.quoteBlock.OffLines :=
  (Pattern.startsIn_literal _ _).onLine.offLines (by decide) (by decide)

theorem Mark.commentEnd_offLines : Mark.commentEnd.OffLines :=
  (Pattern.startsIn_literal _ _).onLine.offLines (by decide) (by decide)

namespace Kit

variable {kit : Kit} {ctx : Context} {p : Pattern} {s : Scanner} {letters rest : List Char}
  {lines : List (List Char)} {nodes : List Node} {page : Page}

/-- **One line is read**: its letters are said, and its break is shown. -/
theorem run_line (hformatters : kit.formatters = .standard) (hp : p.OffLines)
    (hletters : ∀ c ∈ letters, Program.isLetter c = true) (hcolon : ':' ∉ rest)
    (h : s.AtLine (letters ++ '\n' :: rest) nodes page) :
    ∃ t, kit.run ctx (some p) s = kit.run ctx (some p) t ∧
      t.AtLine rest (breakNode :: Node.addText letters nodes) page := by
  let said : Scanner := (s.say letters).forward letters.length
  have hsaid : kit.run ctx (some p) s = kit.run ctx (some p) said := by
    refine run_plain hformatters (fun c hc => Standard.notMem_signs_of_isLetter (hletters c hc))
      (fun q hq c hc text => ?_) (fun hin => ?_) h.rest
    · cases hq
      exact hp.letter c (hletters c hc) text
    · rcases List.mem_append.1 ((List.takeWhile_sublist _).subset hin) with hin | hin
      · exact Program.ne_of_isLetter (hletters _ hin) (by decide) rfl
      · exact hcolon ((List.mem_cons.1 hin).resolve_left (by decide))
  have hbreak : said.cursor.rest = '\n' :: rest := Scanner.rest_behind h.rest letters
  have hhit : kit.formatters.hit? (some p) said.cursor.previous ('\n' :: rest) =
      some (.rule 24 Standard.lineBreak 1) := by
    rw [hformatters, Formatters.hit?_waiting (hp.lineBreak rest), Formatters.hit?_lineBreak]
  let t : Scanner := (said.find [] 1).emit breakNode
  have hrest : t.cursor.rest = rest := by
    change said.cursor.rest.drop 1 = rest
    rw [hbreak]
    rfl
  have hlt : t.cursor.rest.length < said.cursor.rest.length := by
    rw [hrest, hbreak]
    exact Nat.lt_succ_self _
  refine ⟨t, hsaid.trans (run_of_hit hbreak hhit rfl hlt), hrest, ?_, ?_, h.page⟩
  · change Pattern.startsLine (said.cursor.forward 1).previous = true
    rw [Cursor.forward, hbreak]
    rfl
  · change breakNode :: Node.addText letters s.nodes = _
    rw [h.nodes]

/-- **Lines are read one by one.** -/
theorem run_lines (hformatters : kit.formatters = .standard) (hp : p.OffLines)
    (hlines : ∀ l ∈ lines, ∀ c ∈ l, Program.isLetter c = true) (hcolon : ':' ∉ rest)
    (h : s.AtLine (body lines ++ rest) nodes page) (hnodes : ∀ s more, nodes ≠ .text s :: more) :
    ∃ t, kit.run ctx (some p) s = kit.run ctx (some p) t ∧
      t.AtLine rest ((lines.flatMap lineNodes).reverse ++ nodes) page := by
  -- behind every line stands its break, so that the next one does not touch it
  induction lines generalizing s nodes with
  | nil => exact ⟨s, rfl, h⟩
  | cons l lines ih =>
      obtain ⟨hl, hothers⟩ := List.forall_mem_cons.1 hlines
      have hbody : body (l :: lines) ++ rest = l ++ '\n' :: (body lines ++ rest) := by
        simp [body]
      have hbehind : ':' ∉ body lines ++ rest := List.not_mem_append
        (LineBlock.notMem_body hothers (by decide) (by decide)) hcolon
      rw [hbody] at h
      obtain ⟨t, hrun, ht⟩ := run_line hformatters hp hl hbehind h
      obtain ⟨u, hrun', hu⟩ := ih hothers ht fun _ _ heq => nomatch heq
      refine ⟨u, hrun.trans hrun', ?_⟩
      rw [List.flatMap_cons, List.reverse_append, LineBlock.reverse_lineNodes,
        List.append_assoc, List.cons_append, ← Node.addText_eq_append hnodes]
      exact hu

/-! ### Closing lines -/

/-- A scan has read to the end of a text. -/
structure Ends (nodes : List Node) (page : Page) (s : Scanner) : Prop where
  rest : s.cursor.rest = []
  nodes : s.nodes = nodes
  page : s.page = page

/-- **The mark that is waited for ends a scan**, and here it ends the text, too. -/
theorem run_closing {mark : List Char} (hne : mark ≠ [])
    (hmark : ∀ previous, Pattern.startsLine previous = true → p previous mark = some mark.length)
    (h : s.AtLine mark nodes page) : Ends nodes page (kit.run ctx (some p) s) := by
  have hpos : 0 < mark.length := List.length_pos_of_ne_nil hne
  have hnext : kit.formatters.next? (some p) s.cursor.previous s.cursor.rest =
      some ([], .stop mark.length) := by
    rw [h.rest]
    exact Formatters.next?_stop hne (hmark _ h.previous) hpos
  rw [run_of_stop hnext]
  refine ⟨?_, h.nodes, h.page⟩
  change s.cursor.rest.drop mark.length = []
  rw [h.rest]
  exact List.drop_length

/-- The rest of a text without a mark is said. -/
theorem run_rest (ctx : Context) {stop : Option Pattern} {text : List Char}
    (hnone : ∀ previous, kit.formatters.next? stop previous text = none)
    (hrest : s.cursor.rest = text) (hnodes : s.nodes = nodes) (hpage : s.page = page) :
    Ends (Node.addText text nodes) page (kit.run ctx stop s) := by
  have hnext : kit.formatters.next? stop s.cursor.previous s.cursor.rest = none := by
    rw [hrest]
    exact hnone _
  rw [run_of_none hnext]
  refine ⟨Cursor.rest_toEnd _, ?_, hpage⟩
  change Node.addText s.cursor.rest s.nodes = _
  rw [hrest, hnodes]

open Standard Pattern in
/-- **The mark of quoted text without a line break** is said: it begins a macro call, which it is
not. -/
theorem run_quote_unclosed (hformatters : kit.formatters = .standard) (ctx : Context)
    (h : s.AtLine ['<', '<', '<'] nodes page) :
    Ends (Node.addText ['<', '<', '<'] nodes) page (kit.run ctx (some Mark.quoteBlock) s) := by
  have hblock : Mark.quoteBlock.Absent ['<', '<', '<'] := (absent_literal rfl).onLine
  have hcall : kit.formatters.next? (some Mark.quoteBlock) s.cursor.previous s.cursor.rest =
      some ([], .rule 13 Standard.call 2) := by
    have habsent : ∀ f ∈ inOrder.take 13, f.start.Absent ['<', '<', '<'] :=
      Formatters.absent_of_suspects (List.take_subset 13 firsts)
        (List.forall_mem_singleton.2 hblock)
    have hfirst : Formatters.standard.hit? none s.cursor.previous ['<', '<', '<'] =
        some (.rule 13 Standard.call 2) :=
      Formatters.hit?_of_first (inOrder.drop 14) habsent (Nat.succ_pos 1) rfl
    rw [h.rest, Formatters.next?, hformatters, Formatters.hit?_waiting hblock, hfirst]
  have hdeclined : kit.handled ctx Standard.call (s.find [] 2) =
      (s.find [] 2).say ['<', '<'] := by
    have hhandle : Standard.call.handle kit.macros ctx (s.find [] 2) = none := by
      change (Construct.call? s.cursor.rest).map _ = none
      rw [h.rest]
      rfl
    have hfound : (s.find [] 2).found = ['<', '<'] := by
      change s.cursor.rest.take 2 = _
      rw [h.rest]
      rfl
    rw [handled, hhandle]
    dsimp only
    rw [hfound]
  have hlast : ∀ previous, kit.formatters.next? (some Mark.quoteBlock) previous ['<'] = none := by
    intro previous
    have hwaited : Mark.quoteBlock.Absent ['<'] := (absent_literal rfl).onLine
    have habsent : ∀ f ∈ Formatters.standard, f.start.Absent ['<'] :=
      Formatters.absent_of_suspects (List.Subset.refl firsts) (List.forall_mem_cons.2
        ⟨hwaited, List.forall_mem_cons.2 ⟨absent_literal rfl, List.forall_mem_singleton.2
          fun _ => rfl⟩⟩)
    rw [Formatters.next?, hformatters, Formatters.hit?_of_absent (fun q hq => ?_) habsent]
    · rfl
    · cases hq
      exact hwaited
  have hrest : ((s.find [] 2).say ['<', '<']).cursor.rest = ['<'] := by
    change s.cursor.rest.drop 2 = _
    rw [h.rest]
    rfl
  have hsaid : Node.addText ['<', '<', '<'] nodes =
      Node.addText ['<'] (Node.addText ['<', '<'] nodes) :=
    (Node.addText_addText ['<', '<'] ['<'] nodes).symm
  rw [run_of_rule hcall, hdeclined, hsaid]
  exact run_rest ctx hlast hrest (congrArg (Node.addText ['<', '<']) h.nodes) h.page

open Standard Pattern in
/-- One slash is no mark. -/
theorem next?_slash (hformatters : kit.formatters = .standard) (previous : Option Char) :
    kit.formatters.next? (some Mark.newline) previous ['/'] = none := by
  have habsent : ∀ f ∈ Formatters.standard, f.start.Absent ['/'] :=
    Formatters.absent_of_suspects (List.Subset.refl firsts) (List.forall_mem_cons.2
      ⟨(absent_literal rfl).onLine, List.forall_mem_cons.2 ⟨(absent_literal rfl).onLine,
        List.forall_mem_cons.2 ⟨absent_literal rfl, List.forall_mem_singleton.2
          (absent_literal rfl)⟩⟩⟩)
  rw [Formatters.next?, hformatters, Formatters.hit?_of_absent (fun q hq => ?_) habsent]
  · rfl
  · cases hq
    exact absent_literal rfl

theorem scanInside_slash (hformatters : kit.formatters = .standard) (left : Nat)
    (hrest : s.cursor.rest = ['/']) :
    ∃ t, (kit.context (left + 1)).scanInside Mark.newline [] s = ([.text "/"], t) ∧
      Ends s.nodes s.page t := by
  let inside : Scanner := { s with nodes := [] }.enter
  have hinside : inside.cursor.rest = ['/'] := hrest
  obtain ⟨hend, hnodes, hpage⟩ :=
    run_rest (kit.context left) (next?_slash hformatters) hinside rfl rfl
  refine ⟨{ (kit.run (kit.context left) (some Mark.newline) inside).leave with nodes := s.nodes },
    ?_, hend, rfl, ?_⟩
  · rw [scanInside_of_run rfl, hnodes]
    rfl
  · change (kit.run (kit.context left) (some Mark.newline) inside).page.leave = s.page
    rw [hpage]
    rfl

/-- Three bullets and a slash are read as an item of a list. -/
theorem readItems_bullets (hformatters : kit.formatters = .standard) (left : Nat)
    (h : s.AtLine ['*', '*', '*', '/'] nodes page) :
    Ends (LineBlock.bulletNode :: nodes) page
      (Nesting.readItems (kit.context (left + 1)) none [] s) := by
  have hitem : Nesting.itemAt? s.cursor = some (.unorderedList, 3) := by
    rw [Nesting.itemAt?, h.rest, Mark.bullets, Pattern.onLine, if_pos h.previous]
    rfl
  have hslash : ({ s.forward 3 with nodes := s.nodes } : Scanner).cursor.rest = ['/'] := by
    change s.cursor.rest.drop 3 = _
    rw [h.rest]
    rfl
  obtain ⟨t, hscan, hrest, hnodes, hpage⟩ := scanInside_slash hformatters left hslash
  have hread : Nesting.readItem (kit.context (left + 1)) .unorderedList 3 none [] s =
      ([{ tag := .unorderedList, content := [.element { tag := .listItem } [.text "/"]] },
        { tag := .unorderedList }, { tag := .unorderedList }], t) := by
    have henter : Nesting.enterItem .unorderedList 3 none [] s.nodes =
        ([{ tag := .unorderedList }, { tag := .unorderedList }, { tag := .unorderedList }],
          s.nodes) := rfl
    rw [Nesting.readItem, henter]
    dsimp only
    rw [hscan]
    rfl
  have hnone : Nesting.itemAt? t.cursor = none := by
    have hmark : ∀ c, Pattern.onLine (Pattern.run (· == c)) t.cursor.previous [] = none :=
      fun _ => ite_self _
    rw [Nesting.itemAt?, hrest, Mark.bullets, Mark.numbers, hmark, hmark]
    rfl
  rw [Nesting.readItems_of_some (kit.context_advances _) hitem, hread,
    Nesting.readItems_of_none hnone]
  refine ⟨hrest, ?_, hpage.trans h.page⟩
  change LineBlock.bulletNode :: t.nodes = _
  rw [hnodes]
  exact congrArg _ h.nodes

open Standard Pattern in
/-- **The mark behind a comment without a line break** is read as an item of a list. -/
theorem run_comment_unclosed (hformatters : kit.formatters = .standard) (left : Nat)
    (h : s.AtLine ['*', '*', '*', '/'] nodes page) :
    Ends (LineBlock.bulletNode :: nodes) page
      (kit.run (kit.context (left + 1)) (some Mark.commentEnd) s) := by
  have hend : Mark.commentEnd.Absent ['*', '*', '*', '/'] := (absent_literal rfl).onLine
  have hhit : kit.formatters.hit? (some Mark.commentEnd) s.cursor.previous ['*', '*', '*', '/'] =
      some (.rule 9 Nesting.lists 3) := by
    have habsent : ∀ f ∈ inOrder.take 9, f.start.Absent ['*', '*', '*', '/'] :=
      Formatters.absent_of_suspects (List.take_subset 9 firsts) fun f hf =>
        absurd hf List.not_mem_nil
    have hitem : Nesting.lists.start s.cursor.previous ['*', '*', '*', '/'] = some 3 := by
      change orElse Mark.bullets Mark.numbers _ _ = some 3
      rw [orElse, Mark.bullets, onLine, if_pos h.previous]
      rfl
    have hfirst : Formatters.standard.hit? none s.cursor.previous ['*', '*', '*', '/'] =
        some (.rule 9 Nesting.lists 3) :=
      Formatters.hit?_of_first (inOrder.drop 10) habsent (Nat.succ_pos 2) hitem
    rw [hformatters, Formatters.hit?_waiting hend, hfirst]
  -- the list is read from the mark of its item on
  let atItem : Scanner := { s.find [] 3 with cursor := (s.find [] 3).foundAt }
  have hat : atItem.AtLine ['*', '*', '*', '/'] nodes page := ⟨h.rest, h.previous, h.nodes, h.page⟩
  obtain ⟨hrest, hnodes, hpage⟩ := readItems_bullets hformatters left hat
  have hlt : (Nesting.readItems (kit.context (left + 1)) none [] atItem).cursor.rest.length <
      s.cursor.rest.length := by
    rw [hrest, h.rest]
    exact Nat.succ_pos _
  have hnothing : ∀ previous, kit.formatters.next? (some Mark.commentEnd) previous [] = none :=
    fun _ => rfl
  rw [run_of_hit h.rest hhit rfl hlt]
  exact run_rest _ hnothing hrest hnodes hpage

/-! ### Blocks -/

/-- Lines and a closing line behind them are read as both are. -/
theorem run_lineBlock (hformatters : kit.formatters = .standard) (ctx : Context) (hp : p.OffLines)
    (hlines : ∀ l ∈ lines, ∀ c ∈ l, Program.isLetter c = true) {stray : List Node}
    (hcolon : ':' ∉ rest)
    (hclosing : ∀ {t : Scanner} {nodes : List Node}, t.AtLine rest nodes page →
      (∀ s more, nodes ≠ .text s :: more) →
      Ends (stray ++ nodes) page (kit.run ctx (some p) t))
    (h : s.AtLine (body lines ++ rest) [] page) :
    Ends (stray ++ (lines.flatMap lineNodes).reverse) page (kit.run ctx (some p) s) := by
  obtain ⟨t, hrun, ht⟩ := run_lines hformatters hp hlines hcolon h fun _ _ heq => nomatch heq
  rw [List.append_nil] at ht
  rw [hrun]
  exact hclosing ht (LineBlock.reverse_ne_text lines)

theorem run_quote_closing (hformatters : kit.formatters = .standard) (final : Bool)
    (h : s.AtLine (LineBlock.quote.closing ++ finalBreak final) nodes page)
    (hnodes : ∀ s more, nodes ≠ .text s :: more) :
    Ends ((if final then [] else LineBlock.quote.stray) ++ nodes) page
      (kit.run ctx (some Mark.quoteBlock) s) := by
  cases final with
  | true =>
      refine run_closing (List.cons_ne_nil _ _) (fun previous hstarts => ?_) h
      exact (if_pos hstarts).trans rfl
  | false =>
      have hsaid := run_quote_unclosed hformatters ctx h
      rwa [Node.addText_eq_append hnodes] at hsaid

theorem run_comment_closing (hformatters : kit.formatters = .standard) (left : Nat) (final : Bool)
    (h : s.AtLine (LineBlock.comment.closing ++ finalBreak final) nodes page) :
    Ends ((if final then [] else LineBlock.comment.stray) ++ nodes) page
      (kit.run (kit.context (left + 1)) (some Mark.commentEnd) s) := by
  cases final with
  | true =>
      refine run_closing (List.cons_ne_nil _ _) (fun previous hstarts => ?_) h
      exact (if_pos hstarts).trans rfl
  | false => exact run_comment_unclosed hformatters left h

/-- What a scan reads inside of a block, from behind its opening line on. -/
theorem atLine_behind (b : LineBlock) (text : List Char) (nodes : List Node) (page : Page) :
    ({ (Scanner.start (b.opening ++ '\n' :: text) [] page.enter).find [] (b.opening.length + 1) with
      nodes := nodes } : Scanner).enter.AtLine text nodes page.enter.enter := by
  cases b <;> exact ⟨rfl, rfl, rfl, rfl⟩

variable {left : Nat}

/-- **A block of quoted text** holds its lines, and its mark if that does not count. -/
theorem render_quote (hformatters : kit.formatters = .standard)
    (hdepth : kit.setting.config.maxDepth = left + 2)
    (hlines : ∀ l ∈ lines, ∀ c ∈ l, Program.isLetter c = true) (final : Bool) (page : Page) :
    kit.render (LineBlock.quote.source lines final) page =
      (LineBlock.quote.shown lines final, page) := by
  let text := LineBlock.quote.source lines final
  let s := (Scanner.start text [] page.enter).find [] 4
  have hhit : kit.formatters.hit? none none text = some (.rule 7 Standard.quoteBlock 4) := by
    have habsent : ∀ f ∈ Standard.inOrder.take 7, f.start.Absent text :=
      Formatters.absent_of_suspects (List.take_subset 7 Standard.firsts) fun f hf =>
        absurd hf List.not_mem_nil
    rw [hformatters]
    exact Formatters.hit?_of_first (Standard.inOrder.drop 8) habsent (Nat.succ_pos 3) rfl
  have hat := atLine_behind .quote (body lines ++ (LineBlock.quote.closing ++ finalBreak final))
    [] page
  obtain ⟨hrest, hnodes, hpage⟩ := run_lineBlock hformatters (kit.context left)
    Mark.quoteBlock_offLines hlines (by cases final <;> decide)
    (run_quote_closing hformatters final) hat
  let inside : Scanner := { s with nodes := [] }.enter
  let t := kit.run (kit.context left) (some Mark.quoteBlock) inside
  have hscan : (kit.context (left + 1)).scanInside Mark.quoteBlock [] s =
      (t.nodes, { t.leave with nodes := s.nodes }) := scanInside_of_run rfl
  have hhandle : Standard.quoteBlock.handle kit.macros (kit.context (left + 1)) s =
      some (({ t.leave with nodes := s.nodes } : Scanner).emit
        (.element { tag := .blockQuote } t.nodes.reverse)) := by
    simp only [Standard.quoteBlock, Standard.wrap, hscan]
  have hcontent : t.nodes.reverse =
      lines.flatMap lineNodes ++ if final then [] else LineBlock.quote.stray :=
    (congrArg List.reverse hnodes).trans (LineBlock.reverse_content .quote lines final)
  refine (render_first hdepth (List.cons_ne_nil _ _) hhit hhandle hrest).trans (Prod.ext ?_ ?_)
  · exact congrArg (fun content => [Node.element { tag := .blockQuote } content]) hcontent
  · exact congrArg (fun page : Page => page.leave.leave) hpage

/-- **A block comment** is rendered to its lines, and behind them to its mark if that does not
count. -/
theorem render_comment (hformatters : kit.formatters = .standard)
    (hdepth : kit.setting.config.maxDepth = left + 3)
    (hlines : ∀ l ∈ lines, ∀ c ∈ l, Program.isLetter c = true) (final : Bool) (page : Page) :
    kit.render (LineBlock.comment.source lines final) page =
      (LineBlock.comment.shown lines final, page) := by
  let text := LineBlock.comment.source lines final
  let s := (Scanner.start text [] page.enter).find [] 5
  have hhit : kit.formatters.hit? none none text = some (.rule 6 Standard.comment 5) := by
    have habsent : ∀ f ∈ Standard.inOrder.take 6, f.start.Absent text :=
      Formatters.absent_of_suspects (List.take_subset 6 Standard.firsts)
        (List.forall_mem_singleton.2 (Pattern.absent_literal rfl).onLine)
    rw [hformatters]
    exact Formatters.hit?_of_first (Standard.inOrder.drop 7) habsent (Nat.succ_pos 4) rfl
  have hat := atLine_behind .comment (body lines ++ (LineBlock.comment.closing ++ finalBreak final))
    [] page
  obtain ⟨hrest, hnodes, hpage⟩ := run_lineBlock hformatters (kit.context (left + 1))
    Mark.commentEnd_offLines hlines (by cases final <;> decide)
    (fun ht _ => run_comment_closing hformatters left final ht) hat
  have hhandle : Standard.comment.handle kit.macros (kit.context (left + 2)) s =
      some (kit.run (kit.context (left + 1)) (some Mark.commentEnd) s.enter).leave := rfl
  refine (render_first hdepth (List.cons_ne_nil _ _) hhit hhandle hrest).trans (Prod.ext ?_ ?_)
  · exact (congrArg List.reverse hnodes).trans (LineBlock.reverse_content .comment lines final)
  · exact congrArg (fun page : Page => page.leave.leave) hpage

/-- **Preformatted lines** are shown as they stand, with or without a line break behind their
mark. -/
theorem render_preformattedBlock (hformatters : kit.formatters = .standard)
    (hdepth : kit.setting.config.maxDepth = left + 1)
    (hlines : ∀ l ∈ lines, ∀ c ∈ l, Program.isLetter c = true) (hne : lines ≠ []) (final : Bool)
    (page : Page) :
    kit.render (LineBlock.preformatted.source lines final) page =
      (LineBlock.preformatted.shown lines final, page) := by
  let text := LineBlock.preformatted.source lines final
  have hhit : kit.formatters.hit? none none text = some (.rule 4 Standard.preformatted 4) :=
    hformatters ▸ Formatters.hit?_preformatted _
  have hread := LineBlock.preformatted?_source hlines hne final
  exact render_whole hdepth (List.cons_ne_nil _ _) hhit hread

end Kit

namespace Story

variable {lines : List (List Char)}

theorem render_lineBlock (s : Story) (hformatters : s.formatters = .standard)
    (hdepth : 3 ≤ s.config.maxDepth) (b : LineBlock)
    (hlines : ∀ l ∈ lines, ∀ c ∈ l, Program.isLetter c = true) (hne : lines ≠ []) (final : Bool) :
    s.render (String.ofList (b.source lines final)) = (b.shown lines final, [], s) := by
  obtain ⟨left, hleft⟩ := Nat.exists_eq_add_of_le' hdepth
  have hkit : s.kit.setting.config.maxDepth = left + 3 := hleft
  cases b with
  | quote => exact render_of_kit (Kit.render_quote hformatters hkit hlines final s.page)
  | comment => exact render_of_kit (Kit.render_comment hformatters hkit hlines final s.page)
  | preformatted =>
      exact render_of_kit (Kit.render_preformattedBlock hformatters hkit hlines hne final s.page)

/-- **For which blocks the last line break does not matter.**  Preformatted lines are shown alike
with it and without it.  Quoted text and block comments are not: without it they say their closing
mark, or a part of it, too.  The lines themselves are shown all the same. -/
theorem render_block_final (s : Story) (hformatters : s.formatters = .standard)
    (hdepth : 3 ≤ s.config.maxDepth) (b : LineBlock)
    (hlines : ∀ l ∈ lines, ∀ c ∈ l, Program.isLetter c = true) (hne : lines ≠ []) :
    (∀ final, s.render (String.ofList (b.source lines final)) = (b.shown lines final, [], s)) ∧
    (Node.textContent (b.shown lines true) = Node.textContent (b.shown lines false) ∧
        (b.shown lines true).filterMap Node.element? =
          (b.shown lines false).filterMap Node.element? ↔
      b = .preformatted) := by
  refine ⟨s.render_lineBlock hformatters hdepth b hlines hne, ?_⟩
  rw [LineBlock.textContent_shown_eq_iff]
  exact ⟨fun h => h.1, fun hb => ⟨hb, hb ▸ rfl⟩⟩

/-- A story with just as many levels as lists in a block comment need. -/
def loft : Story := new (.ofRecords []) { maxDepth := 3 } .empty {} 0

/-- Lines, one of them empty. -/
def stanza : List (List Char) := ["hf".toList, [], "m".toList]

/-- The lines of the stanza are shown alike, preformatted, and not so in a block comment. -/
theorem render_block_final_stanza :
    loft.formatters = .standard ∧ 3 ≤ loft.config.maxDepth ∧
      (∀ l ∈ stanza, ∀ c ∈ l, Program.isLetter c = true) ∧ stanza ≠ [] ∧
      loft.render "\x7b\x7b\x7b\nhf\n\nm\n\x7d\x7d\x7d" =
        ([.element { tag := .preformatted } [.text "hf\n\nm\n"]], [], loft) ∧
      loft.render "/***\nhf\n\nm\n***/" =
        ([.text "hf", LineBlock.breakNode, LineBlock.breakNode, .text "m", LineBlock.breakNode,
          LineBlock.bulletNode], [], loft) ∧
      ¬ (Node.textContent (LineBlock.comment.shown stanza true) =
            Node.textContent (LineBlock.comment.shown stanza false) ∧
          (LineBlock.comment.shown stanza true).filterMap Node.element? =
            (LineBlock.comment.shown stanza false).filterMap Node.element?) := by
  have hall : stanza.all (·.all Program.isLetter) = true := by decide
  have hlines : ∀ l ∈ stanza, ∀ c ∈ l, Program.isLetter c = true := fun l hl =>
    List.all_eq_true.1 (List.all_eq_true.1 hall l hl)
  have hne : stanza ≠ [] := List.cons_ne_nil _ _
  have hkept := (render_block_final loft rfl (by decide) .preformatted hlines hne).1 false
  obtain ⟨hrender, hsame⟩ := render_block_final loft rfl (by decide) .comment hlines hne
  exact ⟨rfl, by decide, hlines, hne, hkept, hrender false, fun h => nomatch hsame.1 h⟩

/-- **A quotation at the end of a text shows its own mark**, if no line break stands behind it. -/
theorem quotation_swallows_mark :
    loft.formatters = .standard ∧ 3 ≤ loft.config.maxDepth ∧
      String.ofList (LineBlock.quote.source ["abc".toList] true) = "<<<\nabc\n<<<\n" ∧
      String.ofList (LineBlock.quote.source ["abc".toList] false) = "<<<\nabc\n<<<" ∧
      loft.render "<<<\nabc\n<<<\n" =
        ([.element { tag := .blockQuote } [.text "abc", LineBlock.breakNode]], [], loft) ∧
      loft.render "<<<\nabc\n<<<" =
        ([.element { tag := .blockQuote } [.text "abc", LineBlock.breakNode, .text "<<<"]], [],
          loft) ∧
      Node.textContent (LineBlock.quote.shown ["abc".toList] true) = "abc" ∧
      Node.textContent (LineBlock.quote.shown ["abc".toList] false) = "abc<<<" := by
  have hletters : ["abc".toList].all (·.all Program.isLetter) = true := by decide
  have hlines : ∀ l ∈ ["abc".toList], ∀ c ∈ l, Program.isLetter c = true := fun l hl =>
    List.all_eq_true.1 (List.all_eq_true.1 hletters l hl)
  have hrender := loft.render_lineBlock rfl (by decide) .quote hlines (List.cons_ne_nil _ _)
  exact ⟨rfl, by decide, by decide, by decide, hrender true, hrender false, by decide, by decide⟩

end Story

end Gamebook
