/-
**What keeps trees well formed.**

Formatters and macros put nodes only where they may stand, and never change the passages of the
story.  So a scanner whose nodes are well formed stays one that is.  Quoted lines, lists and tables
take the most care, since they are put together part by part.

Main definitions:

* `Scanner.Tidy` — the nodes of a scanner are well formed;
* `Context.Tidy`, `Macro.KeepsTidy`, `Formatter.KeepsTidy` — what is done from there keeps it so.

Main results:

* `Context.Tidy.scanInside`, `Context.Tidy.renderHere` — what lies further in keeps nodes well
  formed;
* `Nesting.quotes_tidy`, `Nesting.lists_tidy`, `Table.formatter_tidy` — **so do quoted lines, lists
  and tables**.
-/

import Gamebook.Proofs.Markup.Shape
import Gamebook.Proofs.Render.Advance
import Gamebook.Proofs.Render.Parts

set_option relaxedAutoImplicit false
set_option autoImplicit false

namespace Gamebook

variable {store : Store} {ctx : Context} {s t : Scanner} {nodes : List Node}

/-! ### Scanners and contexts -/

/-- The nodes of a scanner are well formed, for the store that its page holds. -/
structure Scanner.Tidy (store : Store) (s : Scanner) : Prop where
  store_eq : s.page.store = store
  nodes : Node.WellFormed store s.nodes

namespace Scanner.Tidy

theorem say (h : s.Tidy store) (text : List Char) : (s.say text).Tidy store :=
  ⟨h.store_eq, h.nodes.addText text⟩

theorem emit (h : s.Tidy store) {node : Node} (hnode : node.Stands store) :
    (s.emit node).Tidy store := ⟨h.store_eq, h.nodes.cons hnode⟩

/-- A step that only moves the cursor. -/
theorem move (h : s.Tidy store) (hpage : t.page = s.page) (hnodes : t.nodes = s.nodes) :
    t.Tidy store := ⟨hpage ▸ h.store_eq, hnodes ▸ h.nodes⟩

theorem turn (h : s.Tidy store) {page : Page} (hpage : page.store = s.page.store) :
    ({ s with page := page } : Scanner).Tidy store := ⟨hpage.trans h.store_eq, h.nodes⟩

end Scanner.Tidy

/-- What lies further in moves on and keeps nodes well formed. -/
structure Context.Tidy (store : Store) (ctx : Context) : Prop where
  advances : ctx.Advances
  scan : ∀ stop s, s.Tidy store → (ctx.scan stop s).Tidy store
  render : ∀ text nodes page nodes' page', page.store = store → Node.WellFormed store nodes →
    ctx.render text nodes page = .ok (nodes', page') →
      page'.store = store ∧ Node.WellFormed store nodes'

namespace Context.Tidy

theorem scanInside (hctx : ctx.Tidy store) (stop : Pattern) (inside : List Node) (h : s.Tidy store)
    (hinside : Node.WellFormed store inside) :
    Node.WellFormed store (ctx.scanInside stop inside s).1 ∧
      (ctx.scanInside stop inside s).2.Tidy store := by
  have hscan := hctx.scan (some stop) { s with nodes := inside } ⟨h.store_eq, hinside⟩
  exact ⟨hscan.nodes, hscan.store_eq, h.nodes⟩

theorem renderHere (hctx : ctx.Tidy store) (text : List Char) (h : s.Tidy store) :
    (ctx.renderHere text s).1.Tidy store := by
  rw [Context.renderHere]
  cases hr : ctx.render text s.nodes s.page with
  | error e => exact h
  | ok r =>
      obtain ⟨hstore, hnodes⟩ := hctx.render _ _ _ _ _ h.store_eq h.nodes hr
      exact ⟨hstore, hnodes⟩

end Context.Tidy

/-- A macro keeps nodes well formed. -/
def Macro.KeepsTidy (m : Macro) : Prop :=
  ∀ store ctx call s, ctx.Tidy store → s.Tidy store → (m.run ctx call s).1.Tidy store

/-- A formatter keeps nodes well formed behind its mark, whatever macros do so. -/
def Formatter.KeepsTidy (f : Formatter) : Prop :=
  ∀ store macros ctx s t, (∀ name m, Dict.get? macros name = some m → m.KeepsTidy) →
    ctx.Tidy store → s.IsAt f.start → s.Tidy store → f.handle macros ctx s = some t → t.Tidy store

/-! ### Quoted lines and lists -/

namespace Nesting

/-- An open quotation whose nodes are well formed. -/
def QuoteFits (store : Store) (frame : Frame) : Prop :=
  frame.tag = .blockQuote ∧ Node.WellFormed store frame.content

/-- An open list of items and lists. -/
def ListFits (store : Store) (frame : Frame) : Prop :=
  frame.tag.IsList ∧ ∀ node ∈ frame.content, node.Fits store ∧
    ∃ tag ∈ frame.tag.parts, node.tag? = some tag

theorem QuoteFits.stands {frame : Frame} (h : QuoteFits store frame) :
    frame.toNode.Stands store := by
  obtain ⟨htag, hcontent⟩ := h
  refine Node.Fits.stands (Node.Fits.of_flow ?_ (Node.wellFormed_reverse.2 hcontent)) ?_
  · simp [htag, Tag.IsFlow]
  · simp [htag]

theorem ListFits.fits {frame : Frame} (h : ListFits store frame) : frame.toNode.Fits store := by
  refine Node.Fits.of_parts (List.ne_nil_of_mem ((Tag.mem_parts_list h.1).2 (.inl rfl)))
    (fun node hnode => ?_) fun node hnode => ?_
  · exact (h.2 node (List.mem_reverse.1 hnode)).1
  · exact (h.2 node (List.mem_reverse.1 hnode)).2

theorem ListFits.stands {frame : Frame} (h : ListFits store frame) : frame.toNode.Stands store := by
  refine h.fits.stands ?_
  rintro (htag : frame.tag = .listItem)
  have hlist := h.1
  simp [htag, Tag.IsList] at hlist

theorem quotes_stack (store : Store) : Stacks (QuoteFits store) (Node.WellFormed store) where
  inner h houter := ⟨houter.1, houter.2.cons h.stands⟩
  outermost h hnodes := hnodes.cons h.stands

theorem lists_stack (store : Store) : Stacks (ListFits store) (Node.WellFormed store) where
  inner h houter :=
    ⟨houter.1, List.forall_mem_cons.2
      ⟨⟨h.fits, _, (Tag.mem_parts_list houter.1).2 (.inr h.1), rfl⟩, houter.2⟩⟩
  outermost h hnodes := hnodes.cons h.stands

/-- One quoted line keeps nodes well formed. -/
theorem readQuote_tidy (hctx : ctx.Tidy store) (level : Nat) {frames : List Frame}
    (hframes : ∀ frame ∈ frames, QuoteFits store frame) (h : s.Tidy store) :
    (∀ frame ∈ (readQuote ctx level frames s).1, QuoteFits store frame) ∧
      (readQuote ctx level frames s).2.Tidy store := by
  obtain ⟨hgo, hnodes⟩ := (quotes_stack store).goTo .blockQuote ⟨rfl, Node.wellFormed_nil⟩ level
    hframes h.nodes
  rw [readQuote]
  split
  · rename_i nodes heq
    rw [heq] at hnodes
    exact ⟨fun frame hframe => absurd hframe List.not_mem_nil, h.store_eq, hnodes⟩
  · rename_i frame outer nodes heq
    rw [heq] at hgo hnodes
    obtain ⟨hframe, houter⟩ := List.forall_mem_cons.1 hgo
    obtain ⟨hcontent, hscan⟩ := hctx.scanInside Mark.newline frame.content
      (s := { s with nodes := nodes }) ⟨h.store_eq, hnodes⟩ hframe.2
    have hbreak : (Node.element { tag := .lineBreak } []).Stands store :=
      (Node.Fits.of_empty (by simp [Tag.IsEmpty])).stands (by simp)
    exact ⟨List.forall_mem_cons.2 ⟨⟨hframe.1, hcontent.cons hbreak⟩, houter⟩, hscan⟩

theorem readQuotes_tidy (hctx : ctx.Tidy store) (level : Nat) {frames : List Frame}
    (hframes : ∀ frame ∈ frames, QuoteFits store frame) (h : s.Tidy store) :
    (readQuotes ctx level frames s).Tidy store := by
  induction level, frames, s using readQuotes_induction hctx.advances with
  | none frames s =>
      rw [readQuotes_zero]
      exact ⟨h.store_eq, (quotes_stack store).closeAll hframes h.nodes⟩
  | last level frames s hlevel hmark =>
      obtain ⟨hframes', h'⟩ := readQuote_tidy hctx level hframes h
      rw [readQuotes_of_none hlevel hmark]
      exact ⟨h'.store_eq, (quotes_stack store).closeAll hframes' h'.nodes⟩
  | more level frames s marks hlevel hmark ih =>
      obtain ⟨hframes', h'⟩ := readQuote_tidy hctx level hframes h
      rw [readQuotes_of_some hctx.advances hlevel hmark]
      exact ih hframes' (h'.move rfl rfl)

theorem quotes_tidy : quotes.KeepsTidy := by
  rintro store macros ctx s t - hctx - h ⟨⟩
  exact readQuotes_tidy hctx _ (fun frame hframe => absurd hframe List.not_mem_nil) h

theorem length_enterItem (tag : Tag) {level : Nat} (hlevel : 0 < level) (latest : Option Tag)
    (frames : List Frame) (nodes : List Node) :
    (enterItem tag level latest frames nodes).1.length = level := by
  rw [enterItem]
  split
  · rename_i hsame
    have hclose := length_close 1 frames nodes
    simp only [openTags, List.length_append, List.length_replicate, hclose]
    omega
  · exact length_goTo tag level frames nodes

/-- One list item keeps nodes well formed. -/
theorem readItem_tidy (hctx : ctx.Tidy store) {tag : Tag} {level : Nat}
    (hitem : itemAt? s.cursor = some (tag, level)) (latest : Option Tag) {frames : List Frame}
    (hframes : ∀ frame ∈ frames, ListFits store frame) (h : s.Tidy store) :
    (∀ frame ∈ (readItem ctx tag level latest frames s).1, ListFits store frame) ∧
      (readItem ctx tag level latest frames s).2.Tidy store := by
  obtain ⟨htag, hlevel, -⟩ := itemAt?_eq_some hitem
  have hlist : tag.IsList := by
    simpa only [Tag.IsList, List.mem_cons, List.not_mem_nil, or_false] using htag
  have hnew : ListFits store { tag := tag } :=
    ⟨hlist, fun node hnode => absurd hnode List.not_mem_nil⟩
  obtain ⟨hgo, hnodes⟩ := (lists_stack store).enterItem hnew level latest hframes h.nodes
  have hlength := length_enterItem tag hlevel latest frames s.nodes
  rw [readItem]
  generalize enterItem tag level latest frames s.nodes = entered at hgo hnodes hlength
  obtain ⟨entered, nodes⟩ := entered
  obtain ⟨hcontent, hscan⟩ := hctx.scanInside Mark.newline []
    (s := { s.forward level with nodes := nodes }) ⟨h.store_eq, hnodes⟩ Node.wellFormed_nil
  simp only
  generalize ctx.scanInside Mark.newline [] { s.forward level with nodes := nodes } = scanned
    at hcontent hscan
  have hfits : (Node.element { tag := .listItem } scanned.1.reverse).Fits store :=
    Node.Fits.of_flow trivial (Node.wellFormed_reverse.2 hcontent)
  -- at a level there is a list to put the item into
  cases entered with
  | nil => exact absurd hlength (Nat.ne_of_lt hlevel)
  | cons frame outer =>
      obtain ⟨hframe, houter⟩ := List.forall_mem_cons.1 hgo
      have hput : ListFits store
          { frame with
            content := .element { tag := .listItem } scanned.1.reverse :: frame.content } :=
        ⟨hframe.1, List.forall_mem_cons.2
          ⟨⟨hfits, _, (Tag.mem_parts_list hframe.1).2 (.inl rfl), rfl⟩, hframe.2⟩⟩
      exact ⟨List.forall_mem_cons.2 ⟨hput, houter⟩, hscan.store_eq, hscan.nodes⟩

theorem readItems_tidy (hctx : ctx.Tidy store) (latest : Option Tag) {frames : List Frame}
    (hframes : ∀ frame ∈ frames, ListFits store frame) (h : s.Tidy store) :
    (readItems ctx latest frames s).Tidy store := by
  induction latest, frames, s using readItems_induction hctx.advances with
  | last latest frames s hitem =>
      rw [readItems_of_none hitem]
      exact ⟨h.store_eq, (lists_stack store).closeAll hframes h.nodes⟩
  | more latest frames s tag level hitem ih =>
      obtain ⟨hframes', h'⟩ := readItem_tidy hctx hitem latest hframes h
      rw [readItems_of_some hctx.advances hitem]
      exact ih hframes' h'

theorem lists_tidy : lists.KeepsTidy := by
  rintro store macros ctx s t - hctx - h ⟨⟩
  exact readItems_tidy hctx none (fun frame hframe => absurd hframe List.not_mem_nil)
    (h.move rfl rfl)

end Nesting

/-! ### Tables -/

namespace Table

/-- A section of a table: the element of its kind, around a well-formed caption. -/
def PartFits (store : Store) (kind : Mark.RowKind) (e : Element) (content : List Node) : Prop :=
  e.tag = sectionTag kind ∧ Node.WellFormed store content

/-- A cell around well-formed nodes. -/
def CellFits (store : Store) (cell : Cell) : Prop :=
  (cell.element.tag = .cell ∨ cell.element.tag = .headerCell) ∧
    Node.WellFormed store cell.content

theorem CellFits.toNode {cell : Cell} (h : CellFits store cell) :
    cell.toNode.Fits store ∧ ∃ tag ∈ Tag.row.parts, cell.toNode.tag? = some tag := by
  refine ⟨Node.Fits.of_flow ?_ h.2, cell.element.tag, by simpa [Tag.parts] using h.1, rfl⟩
  rcases h.1 with htag | htag <;> simp [htag, Tag.IsFlow]

theorem rowNode_fits {cells : List Cell} (h : ∀ cell ∈ cells, CellFits store cell) :
    (rowNode cells).Fits store := by
  refine Node.Fits.of_parts (by simp [Tag.parts]) (fun node hnode => ?_) fun node hnode => ?_ <;>
    obtain ⟨cell, hcell, rfl⟩ := List.mem_map.1 hnode
  · exact (h cell hcell).toNode.1
  · exact (h cell hcell).toNode.2

theorem toNode_fits {part : Section} (h : PartFits store part.kind part.element part.content)
    (hcells : ∀ cells ∈ part.rows, ∀ cell ∈ cells, CellFits store cell) :
    part.toNode.Fits store := by
  have hrows : ∀ node ∈ part.rows.map rowNode, node.Fits store ∧ node.tag? = some .row := by
    intro node hnode
    obtain ⟨cells, hin, rfl⟩ := List.mem_map.1 hnode
    exact ⟨rowNode_fits (hcells cells hin), rfl⟩
  obtain ⟨htag, hcontent⟩ := h
  unfold Section.toNode
  split
  · rename_i hkind
    refine Node.Fits.of_flow ?_ (Node.wellFormed_reverse.2 hcontent)
    simp [htag, hkind, sectionTag, Tag.IsFlow]
  · rename_i hkind
    have hparts : part.element.tag.parts = [.row] := by
      rw [htag]
      cases hk : part.kind with
      | caption => exact absurd hk hkind
      | head | foot | body => rfl
    refine Node.Fits.of_parts (by simp [hparts]) (fun node hnode => (hrows node hnode).1)
      fun node hnode => ⟨.row, by simp [hparts], (hrows node hnode).2⟩

theorem tag_toNode {part : Section} (h : part.element.tag = sectionTag part.kind) :
    part.toNode.tag? = some (sectionTag part.kind) := by
  unfold Section.toNode
  split <;> exact congrArg some h

/-- A table is well formed if its sections and cells are. -/
theorem Grid.All.toNode_stands {g : Grid} (h : g.All (PartFits store) (CellFits store)) :
    g.toNode.Stands store := by
  have hparts : ∀ node ∈ g.sections.map Section.toNode, node.Fits store ∧
      ∃ tag ∈ Tag.table.parts, node.tag? = some tag := by
    intro node hnode
    obtain ⟨part, hpart, rfl⟩ := List.mem_map.1 hnode
    obtain ⟨hfits, hcells⟩ := h part hpart
    refine ⟨toNode_fits hfits hcells, sectionTag part.kind, ?_, tag_toNode hfits.1⟩
    cases part.kind <;> simp [sectionTag, Tag.parts]
  have hfits : g.toNode.Fits store := Node.Fits.of_parts (by simp [Tag.parts])
    (fun node hnode => (hparts node hnode).1) fun node hnode => (hparts node hnode).2
  exact hfits.stands (by simp)

theorem PartFits.new (store : Store) (kind : Mark.RowKind) :
    PartFits store kind { tag := sectionTag kind } [] := ⟨rfl, Node.wellFormed_nil⟩

theorem tag_align (left right : Bool) (e : Element) : (align left right e).tag = e.tag := by
  cases left <;> cases right <;> rfl

theorem tag_cellOpening (text : List Char) :
    (cellOpening text).1.tag = .cell ∨ (cellOpening text).1.tag = .headerCell := by
  simp only [cellOpening]
  split
  · exact .inr rfl
  · exact .inl rfl

theorem readCell_tidy (hctx : ctx.Tidy store) (width : Nat) (h : s.Tidy store) :
    CellFits store (readCell ctx width s).1 ∧ (readCell ctx width s).2.Tidy store := by
  have htag := tag_cellOpening (s.forward 1).cursor.rest
  simp only [readCell]
  generalize cellOpening (s.forward 1).cursor.rest = opening at htag ⊢
  obtain ⟨element, spaced, length⟩ := opening
  obtain ⟨hcontent, hscan⟩ := hctx.scanInside Mark.cellEnd []
    (s := (s.forward 1).forward length) (h.move rfl rfl) Node.wellFormed_nil
  refine ⟨⟨?_, Node.wellFormed_reverse.2 hcontent⟩, hscan.move rfl rfl⟩
  rw [tag_align]
  split
  · exact htag
  · exact htag

/-- Reading the cells of a row keeps nodes well formed. -/
theorem readCells_tidy (hctx : ctx.Tidy store) {g : Grid} {cells : List Cell} (column width : Nat)
    (hg : g.All (PartFits store) (CellFits store)) (hcells : ∀ cell ∈ cells, CellFits store cell)
    (h : s.Tidy store) :
    (readCells ctx g cells column width s).1.1.All (PartFits store) (CellFits store) ∧
      (∀ cell ∈ (readCells ctx g cells column width s).1.2, CellFits store cell) ∧
        (readCells ctx g cells column width s).2.Tidy store := by
  induction g, cells, column, width, s using readCells_induction hctx.advances with
  | none g cells column width s hslot =>
      rw [readCells_of_none hslot]
      exact ⟨hg, hcells, h⟩
  | rowEnd g cells column width s length hslot =>
      rw [readCells_of_rowEnd hslot]
      exact ⟨hg, hcells, h.move rfl rfl⟩
  | above g cells column width s hslot ih =>
      rw [readCells_of_above hslot]
      exact ih (hg.stretch (fun _ _ hcell => hcell) column) hcells (h.move rfl rfl)
  | next g cells column width s hslot ih =>
      rw [readCells_of_next hslot]
      exact ih hg hcells (h.move rfl rfl)
  | content g cells column width s hslot ih =>
      obtain ⟨hcell, h'⟩ := readCell_tidy hctx width h
      rw [readCells_of_content hctx.advances hslot]
      refine ih (hg.anchor column cells) (fun cell hin => ?_) h'
      rcases List.mem_append.1 hin with hin | hin
      · exact hcells cell hin
      · rw [List.mem_singleton.1 hin]
        exact hcell

/-- Reading a row keeps nodes well formed. -/
theorem readRow_tidy (hctx : ctx.Tidy store) (kind : Mark.RowKind) (isFirst : Bool) {g : Grid}
    (hg : g.All (PartFits store) (CellFits store)) (h : s.Tidy store) :
    (readRow ctx kind isFirst g s).1.All (PartFits store) (CellFits store) ∧
      (readRow ctx kind isFirst g s).2.Tidy store := by
  have hg' := hg.enter (PartFits.new store kind)
  obtain ⟨hgrid, hcells, hread⟩ := readCells_tidy hctx 0 1 hg'
    (fun cell hcell => absurd hcell List.not_mem_nil) h
  cases kind with
  | caption =>
      obtain ⟨hcontent, hscan⟩ := hctx.scanInside Mark.rowEnd _ (s := s.forward 1) (h.move rfl rfl)
        (hg'.caption Node.wellFormed_nil fun _ _ _ => And.right)
      exact ⟨hg'.setCaption fun kind e before hpart => ⟨hpart.1, hcontent⟩, hscan⟩
  | head => exact ⟨hgrid.addRow hcells, hread⟩
  | foot => exact ⟨hgrid.addRow hcells, hread⟩
  | body => exact ⟨hgrid.addRow hcells, hread⟩

theorem readRows_tidy (hctx : ctx.Tidy store) (isFirst : Bool) {g : Grid}
    (hg : g.All (PartFits store) (CellFits store)) (h : s.Tidy store) :
    (readRows ctx isFirst g s).1.All (PartFits store) (CellFits store) ∧
      (readRows ctx isFirst g s).2.Tidy store := by
  induction isFirst, g, s using readRows_induction hctx.advances with
  | last isFirst g s hrow =>
      rw [readRows_of_none hrow]
      exact ⟨hg, h⟩
  | more isFirst g s kind hrow ih =>
      obtain ⟨hg', h'⟩ := readRow_tidy hctx kind isFirst hg h
      rw [readRows_of_some hctx.advances hrow]
      exact ih hg' h'

theorem formatter_tidy : formatter.KeepsTidy := by
  intro store macros ctx s t _ hctx _ h ht
  obtain ⟨hg, h'⟩ := readRows_tidy hctx true Grid.All.empty
    (s := { s with cursor := s.foundAt }) (h.move rfl rfl)
  simp only [formatter, handle] at ht
  split at ht
  · cases ht
  · cases ht
    exact h'.emit hg.toNode_stands

end Table

end Gamebook
