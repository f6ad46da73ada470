/-
**Rendering quotations and lists.**

A text that starts with a line of a quotation, or with an item of a list, is handed to the formatter
of such lines at once, and that reads all of them.  So what is shown is what the lines tell: every
line lies as deep as it has signs, in the order in which they are written.  An item lies in a list
of its own kind, unless its line comes back from deeper ones to a list of the other kind.

Main results:

* `Formatters.hit?_quote`, `Formatters.hit?_item` — the formatters of lines;
* `Kit.render_first` — a formatter that reads a text from its beginning to its end;
* `Kit.render_quotes`, `Kit.render_items` — **what lines are rendered to**;
* `Story.render_lines` — **every line lies as deep as it has signs**;
* `Story.render_items_kinds` — **which items lie in lists of their own kinds**.
-/

import Gamebook.Proofs.Render.Items
import Gamebook.Story.Basic

set_option relaxedAutoImplicit false
set_option autoImplicit false

namespace Gamebook

open Line (sources behind)

variable {final : Bool} {l : Line} {lines : List Line}

/-! ### The formatters of lines -/

namespace Formatters

/-- Marks that come before those of lines start with other signs. -/
theorem absent_sign (sign : LineSign) (text : List Char) :
    ∀ f ∈ Standard.inOrder.take 8, f.start.Absent (sign.char :: text) := by
  refine absent_of_suspects (List.take_subset 8 Standard.firsts) ?_
  cases sign <;> exact fun f hf => absurd hf List.not_mem_nil

/-- Quoted lines are handed to their formatter. -/
theorem hit?_quote (h : l.sign = .quote) {previous : Option Char}
    (hprevious : Pattern.startsLine previous = true) :
    Formatters.standard.hit? none previous (sources final (l :: lines)) =
      some (.rule 8 Nesting.quotes l.level) := by
  have hmark : Nesting.quotes.start previous (sources final (l :: lines)) = some l.level :=
    l.run_marks h hprevious
  obtain ⟨text, htext⟩ := l.exists_sources final lines
  rw [htext] at hmark ⊢
  exact hit?_of_first (Standard.inOrder.drop 9) (absent_sign l.sign text) l.level_pos hmark

/-- Items are handed to the formatter of lists. -/
theorem hit?_item (h : l.sign ≠ .quote) {previous : Option Char}
    (hprevious : Pattern.startsLine previous = true) :
    Formatters.standard.hit? none previous (sources final (l :: lines)) =
      some (.rule 9 Nesting.lists l.level) := by
  have hmark : Nesting.lists.start previous (sources final (l :: lines)) = some l.level :=
    Line.listItem_marks h hprevious
  obtain ⟨text, htext⟩ := l.exists_sources final lines
  have hquote : Nesting.quotes.start.Absent (l.sign.char :: text) := by
    refine (Pattern.startsIn_run '>').onLine _ (fun hin => h ?_) text
    cases hsign : l.sign with
    | quote => rfl
    | bullet | number => simp [hsign, LineSign.char] at hin
  have hbefore : ∀ f ∈ Standard.inOrder.take 8 ++ [Nesting.quotes],
      f.start.Absent (l.sign.char :: text) :=
    List.forall_mem_append.2 ⟨absent_sign l.sign text, List.forall_mem_singleton.2 hquote⟩
  rw [htext] at hmark ⊢
  exact hit?_of_first (Standard.inOrder.drop 10) hbefore l.level_pos hmark

end Formatters

/-! ### Rendering lines -/

namespace Kit

variable {kit : Kit}

/-- **A text is rendered to what its first formatter leaves**, if that reads all of it. -/
theorem render_first {left : Nat} (hdepth : kit.setting.config.maxDepth = left + 1)
    {text : List Char} (htext : text ≠ []) {index length : Nat} {f : Formatter}
    (hhit : kit.formatters.hit? none none text = some (.rule index f length)) {page : Page}
    {t : Scanner} (hhandle : f.handle kit.macros (kit.context left)
      ((Scanner.start text [] page.enter).find [] length) = some t) (hrest : t.cursor.rest = []) :
    kit.render text page = (t.nodes.reverse, t.page.leave) := by
  obtain ⟨c, rest, rfl⟩ := List.exists_cons_of_ne_nil htext
  exact render_of_run hdepth (run_of_hit rfl hhit hhandle (hrest ▸ Nat.succ_pos _)) hrest

theorem sources_ne_nil (final : Bool) (l : Line) (lines : List Line) :
    sources final (l :: lines) ≠ [] := by
  obtain ⟨text, htext⟩ := l.exists_sources final lines
  exact htext ▸ List.cons_ne_nil _ _

/-- **Quoted lines are rendered to quotations**, in which they lie in the order in which they are
written. -/
theorem render_quotes (hformatters : kit.formatters = .standard)
    (hdepth : 2 ≤ kit.setting.config.maxDepth) (hlines : ∀ l' ∈ l :: lines, l'.sign = .quote)
    (page : Page) :
    ∃ nodes, kit.render (sources final (l :: lines)) page = (nodes, page) ∧
      Node.places Tag.isQuote [] nodes = (l :: lines).flatMap Line.quoted := by
  -- one level is for the lines, and one for what stands in them
  obtain ⟨left, hleft⟩ := Nat.exists_eq_add_of_le' hdepth
  have hhit : kit.formatters.hit? none none (sources final (l :: lines)) =
      some (.rule 8 Nesting.quotes l.level) := by
    rw [hformatters]
    exact Formatters.hit?_quote (List.forall_mem_cons.1 hlines).1 rfl
  have hframes : ∀ f ∈ ([] : List Nesting.Frame), Nesting.Quotes f := fun _ hf => nomatch hf
  have hrest : ((Scanner.start (sources final (l :: lines)) [] page.enter).find []
      l.level).cursor.rest = l.letters ++ behind final lines := l.drop_marks final lines
  have hfound : (List.take l.level (sources final (l :: lines))).length = l.level := by
    rw [l.take_marks, List.length_replicate]
  obtain ⟨hplaces, hpage, hend⟩ :=
    Nesting.readQuotes_places hformatters left hframes hlines hrest
  refine ⟨_, (render_first hleft (sources_ne_nil final l lines) hhit ?_ hend).trans ?_, hplaces⟩
  · exact congrArg (fun level => some (Nesting.readQuotes _ level [] _)) hfound
  · exact Prod.ext rfl (congrArg Page.leave hpage)

/-- **Items are rendered to lists**, in which they lie in the order in which they are written. -/
theorem render_items (hformatters : kit.formatters = .standard)
    (hdepth : 2 ≤ kit.setting.config.maxDepth) (hlines : ∀ l' ∈ l :: lines, l'.sign ≠ .quote)
    (page : Page) :
    ∃ nodes, kit.render (sources final (l :: lines)) page = (nodes, page) ∧
      Node.places Tag.isList [] nodes = Line.itemPlaces none [] (l :: lines) := by
  obtain ⟨left, hleft⟩ := Nat.exists_eq_add_of_le' hdepth
  have hhit : kit.formatters.hit? none none (sources final (l :: lines)) =
      some (.rule 9 Nesting.lists l.level) := by
    rw [hformatters]
    exact Formatters.hit?_item (List.forall_mem_cons.1 hlines).1 rfl
  have hframes : ∀ f ∈ ([] : List Nesting.Frame), Tag.isList f.tag = true := fun _ hf => nomatch hf
  -- the lists are read from the mark of the first item on
  have hrest : ({ (Scanner.start (sources final (l :: lines)) [] page.enter).find [] l.level with
      cursor := .start (sources final (l :: lines)) } : Scanner).cursor.rest =
        sources final (l :: lines) := rfl
  obtain ⟨hplaces, hpage, hend⟩ :=
    Nesting.readItems_places none hformatters left hlines hframes hrest fun _ => rfl
  refine ⟨_, (render_first hleft (sources_ne_nil final l lines) hhit rfl hend).trans ?_, hplaces⟩
  exact Prod.ext rfl (congrArg Page.leave hpage)

end Kit

/-! ### Where lines lie -/

/-- All that stands in quoted lines lies in quotations. -/
theorem Line.quoted_ne_nil (lines : List Line) : ∀ p ∈ lines.flatMap quoted, p.1 ≠ [] := by
  intro p hp
  obtain ⟨l, -, hquoted⟩ := List.mem_flatMap.1 hp
  obtain ⟨node, -, rfl⟩ := List.mem_map.1 hquoted
  have hpos := l.level_pos
  cases hlevel : l.level with
  | zero => omega
  | succ n => exact List.cons_ne_nil _ _

/-- All items lie in lists. -/
theorem Line.itemPlaces_ne_nil (lines : List Line) : ∀ p ∈ itemPlaces none [] lines, p.1 ≠ [] := by
  intro p hp hnil
  have hmem : (p.1.length, p.2) ∈ lines.map fun l => (l.level, l.item) := by
    rw [← length_itemPlaces none []]
    exact List.mem_map_of_mem hp
  obtain ⟨l, -, heq⟩ := List.mem_map.1 hmem
  have hlevel : l.level = p.1.length := congrArg Prod.fst heq
  rw [hnil] at hlevel
  exact Nat.ne_of_gt l.level_pos hlevel

namespace Story

/-- What a story shows of a text that is rendered without any change of the page. -/
theorem render_of_kit {s : Story} {text : List Char} {nodes : List Node}
    (h : s.kit.render text s.page = (nodes, s.page)) :
    s.render (String.ofList text) = (nodes, [], s) := by
  rw [render, String.toList_ofList, h]
  rfl

/-- **Every line lies as deep as it has signs.**  Quoted lines are shown as quotations and nothing
else, in which the words of each line and its break lie at its level, in the order in which the
lines are written; lines of lists are shown as lists and nothing else, in which the item of each
line lies at its level, in order, too. -/
theorem render_lines (s : Story) (hformatters : s.formatters = .standard)
    (hdepth : 2 ≤ s.config.maxDepth) (final : Bool) (lines : List Line) (hlines : lines ≠ []) :
    ((∀ l ∈ lines, l.sign = .quote) → ∃ nodes,
      s.render (String.ofList (sources final lines)) = (nodes, [], s) ∧
      (∀ node ∈ nodes, ∃ e children, node = .element e children ∧ Tag.isQuote e.tag = true) ∧
      Node.places Tag.isQuote [] nodes = lines.flatMap Line.quoted) ∧
    ((∀ l ∈ lines, l.sign ≠ .quote) → ∃ nodes,
      s.render (String.ofList (sources final lines)) = (nodes, [], s) ∧
      (∀ node ∈ nodes, ∃ e children, node = .element e children ∧ Tag.isList e.tag = true) ∧
      (Node.places Tag.isList [] nodes).map (fun place => (place.1.length, place.2)) =
        lines.map fun l => (l.level, l.item)) := by
  have hkit : s.kit.formatters = .standard := hformatters
  obtain ⟨l, lines, rfl⟩ := List.exists_cons_of_ne_nil hlines
  constructor
  · intro hquotes
    obtain ⟨nodes, hrender, hplaces⟩ := Kit.render_quotes hkit hdepth hquotes s.page
    have hinside : ∀ p ∈ Node.places Tag.isQuote [] nodes, p.1 ≠ [] := by
      rw [hplaces]
      exact Line.quoted_ne_nil _
    exact ⟨nodes, render_of_kit hrender, Node.encloses_of_places hinside, hplaces⟩
  · intro hitems
    obtain ⟨nodes, hrender, hplaces⟩ := Kit.render_items hkit hdepth hitems s.page
    have hinside : ∀ p ∈ Node.places Tag.isList [] nodes, p.1 ≠ [] := by
      rw [hplaces]
      exact Line.itemPlaces_ne_nil _
    refine ⟨nodes, render_of_kit hrender, Node.encloses_of_places hinside, ?_⟩
    rw [hplaces, Line.length_itemPlaces]

/-- A story in which a line may have words, and no more. -/
def shed : Story := new (.ofRecords []) { maxDepth := 2 } .empty {} 0

/-- Quoted lines that go down and up again, the last of which has no words. -/
def ladder : List Line :=
  [{ sign := .quote, level := 2, letters := ['a'] },
    { sign := .quote, level := 4, letters := ['b'] }, { sign := .quote, level := 1, letters := [] }]

/-- Items on several levels and of both kinds. -/
def terrace : List Line :=
  [{ sign := .number, level := 3, letters := ['a'] },
    { sign := .bullet, level := 3, letters := [] },
    { sign := .bullet, level := 1, letters := ['b', 'c'] },
    { sign := .number, level := 2, letters := ['d'] }]

/-- The lines of the ladder and of the terrace lie at their levels. -/
theorem render_lines_ladder_terrace :
    shed.formatters = .standard ∧ 2 ≤ shed.config.maxDepth ∧
      (∃ nodes, shed.render (String.ofList (sources true ladder)) = (nodes, [], shed) ∧
        Node.places Tag.isQuote [] nodes = ladder.flatMap Line.quoted) ∧
      ∃ nodes, shed.render (String.ofList (sources false terrace)) = (nodes, [], shed) ∧
        (Node.places Tag.isList [] nodes).map (fun place => (place.1.length, place.2)) =
          terrace.map fun l => (l.level, l.item) := by
  obtain ⟨nodes, hquotes, -, hquoted⟩ :=
    (render_lines shed rfl (by decide) true ladder (List.cons_ne_nil _ _)).1 (by decide)
  obtain ⟨nodes', hitems, -, hplaced⟩ :=
    (render_lines shed rfl (by decide) false terrace (List.cons_ne_nil _ _)).2 (by decide)
  exact ⟨rfl, by decide, ⟨nodes, hquotes, hquoted⟩, nodes', hitems, hplaced⟩

/-- **Which items lie in lists of their own kinds.**  The innermost list around an item is of the
kind of the line that opened it.  So all items lie in lists of their own kinds just when no line
comes back from deeper ones to a list of the other kind. -/
theorem render_items_kinds (s : Story) (hformatters : s.formatters = .standard)
    (hdepth : 2 ≤ s.config.maxDepth) (final : Bool) (lines : List Line) (hlines : lines ≠ [])
    (hitems : ∀ l ∈ lines, l.sign ≠ .quote) :
    ∃ nodes, s.render (String.ofList (sources final lines)) = (nodes, [], s) ∧
      ((Node.places Tag.isList [] nodes).map fun place => (place.1.head?, place.2)) =
        ((Line.openers [] lines).map fun (o, l) => (some o.sign.tag, l.item)) ∧
      (((Node.places Tag.isList [] nodes).map fun place => (place.1.head?, place.2)) =
          (lines.map fun l => (some l.sign.tag, l.item)) ↔
        ∀ before l after, lines = before ++ l :: after → l.ReturnsOwn before.reverse) := by
  have hkit : s.kit.formatters = .standard := hformatters
  obtain ⟨l, lines, rfl⟩ := List.exists_cons_of_ne_nil hlines
  obtain ⟨nodes, hrender, hplaces⟩ := Kit.render_items hkit hdepth hitems s.page
  have hkinds : ((Node.places Tag.isList [] nodes).map fun place => (place.1.head?, place.2)) =
      ((Line.openers [] (l :: lines)).map fun (o, l) => (some o.sign.tag, l.item)) := by
    rw [hplaces]
    exact Line.itemPlaces_eq [] (l :: lines)
  refine ⟨nodes, render_of_kit hrender, hkinds, ?_⟩
  rw [hkinds, Line.openers_eq_iff, ← Line.forall_isOwn_iff]
  simp only [List.append_nil]

/-- A line that comes back to a list of the other kind. -/
def stray : List Line :=
  [{ sign := .bullet, level := 1, letters := ['a'] },
    { sign := .number, level := 2, letters := ['b'] },
    { sign := .number, level := 1, letters := ['c'] }]

/-- The items of the terrace lie in the lists that their openers tell. -/
theorem render_items_kinds_terrace :
    shed.formatters = .standard ∧ 2 ≤ shed.config.maxDepth ∧ terrace ≠ [] ∧
      (∀ l ∈ terrace, l.sign ≠ .quote) ∧
      ∃ nodes, shed.render (String.ofList (sources false terrace)) = (nodes, [], shed) ∧
        ((Node.places Tag.isList [] nodes).map fun place => (place.1.head?, place.2)) =
          (Line.openers [] terrace).map fun (o, l) => (some o.sign.tag, l.item) := by
  obtain ⟨nodes, hrender, hkinds, -⟩ :=
    render_items_kinds shed rfl (by decide) false terrace (List.cons_ne_nil _ _) (by decide)
  exact ⟨rfl, by decide, List.cons_ne_nil _ _, by decide, nodes, hrender, hkinds⟩

/-- The numbered item `c` gets into the list of the bullet `a`. -/
theorem numbered_item_strays :
    shed.formatters = .standard ∧ 2 ≤ shed.config.maxDepth ∧
      String.ofList (sources false stray) = "*a\n##b\n#c" ∧
      ∃ nodes, shed.render "*a\n##b\n#c" = (nodes, [], shed) ∧
        ((Node.places Tag.isList [] nodes).map fun place => (place.1.head?, place.2)) =
          [(some .unorderedList, .element { tag := .listItem } [.text "a"]),
            (some .orderedList, .element { tag := .listItem } [.text "b"]),
            (some .unorderedList, .element { tag := .listItem } [.text "c"])] := by
  have hkit : shed.kit.formatters = .standard := rfl
  have hdepth : 2 ≤ shed.kit.setting.config.maxDepth := by decide
  have hsource : String.ofList (sources false stray) = "*a\n##b\n#c" := by decide
  have hitems : ∀ l ∈ stray, l.sign ≠ .quote := by decide
  obtain ⟨nodes, hrender, hplaces⟩ :
      ∃ nodes, shed.kit.render (sources false stray) shed.page = (nodes, shed.page) ∧
        Node.places Tag.isList [] nodes = Line.itemPlaces none [] stray :=
    Kit.render_items hkit hdepth hitems shed.page
  have hshown := render_of_kit hrender
  rw [hsource] at hshown
  refine ⟨rfl, by decide, hsource, nodes, hshown, ?_⟩
  rw [hplaces]
  rfl

end Story

end Gamebook
