/-
**Renders stay within their limit.**

A render inside a render counts one up, and counts down again when it is done; one that would pass
the limit is not begun, and an error is shown in its place.  The count is the page's own affair:
formatters and macros do not touch it.  So a render that starts from zero never gets beyond the
limit, and since every scan moves on as well, it ends, whatever passages display one another.

Main definitions:

* `Bond.counting` — two renders that go alike at one depth;
* `Kit.KeepsCount` — formatters and macros leave the count alone;
* `Kit.countedOver` — what is at hand if only the count of the page tells where to stop;
* `Kit.Bounded` — all that is said of a render within its limit;
* `Extension.restlessKit`, `Extension.mirrorPage` — a table with formatters that decline or go back,
  and a passage that displays itself.

Main results:

* `Formatters.standard_neverEmpty` — no standard mark is empty;
* `Kit.KeepsCount.of_standard` — the standard tables leave the count alone;
* `Kit.KeepsCount.countedOver_contexts` — the levels that are left and the count of the page agree;
* `Kit.bounded` — **every render ends, within its limit**.
-/

import Mathlib.Logic.Relation
import Gamebook.Host.Formatters
import Gamebook.Proofs.Render.Advance
import Gamebook.Proofs.Render.Formatters
import Gamebook.Proofs.Render.Levels
import Gamebook.Proofs.Render.Macros

set_option relaxedAutoImplicit false
set_option autoImplicit false

namespace Gamebook

/-! ### Marks that are never empty -/

/-- A mark takes at least one character wherever it stands. -/
def Pattern.NeverEmpty (p : Pattern) : Prop := ∀ previous text, p previous text ≠ some 0

namespace Pattern

/-- Nothing of such a mark is left out for being empty. -/
theorem NeverEmpty.nonempty?_eq {p : Pattern} (h : p.NeverEmpty) : p.nonempty? = p := by
  funext previous text
  rw [nonempty?]
  cases hn : p previous text with
  | none => rfl
  | some n =>
      have hne : n ≠ 0 := by
        rintro rfl
        exact h previous text hn
      simp [Nat.pos_of_ne_zero hne]

theorem neverEmpty_literal {mark : List Char} (hmark : mark ≠ []) : (literal mark).NeverEmpty := by
  intro previous text h
  rw [literal] at h
  split at h
  · exact hmark (List.length_eq_zero_iff.1 (Option.some.inj h))
  · cases h

theorem neverEmpty_anyCase {mark : List Char} (hmark : mark ≠ []) : (anyCase mark).NeverEmpty := by
  intro previous text h
  rw [anyCase] at h
  split at h
  · exact hmark (List.length_eq_zero_iff.1 (Option.some.inj h))
  · cases h

theorem neverEmpty_endingLine {mark : List Char} (hmark : mark ≠ []) :
    (endingLine mark).NeverEmpty := by
  intro previous text h
  simp only [endingLine] at h
  split at h
  · have hzero := Option.some.inj h
    exact hmark (List.length_eq_zero_iff.1 (by omega))
  · cases h

theorem neverEmpty_run (p : Char → Bool) : (run p).NeverEmpty := fun _ _ h =>
  absurd (run_eq_some h).1 (Nat.lt_irrefl 0)

theorem NeverEmpty.onLine {p : Pattern} (h : p.NeverEmpty) : (Pattern.onLine p).NeverEmpty :=
  fun previous text hp => h previous text (of_onLine hp)

theorem NeverEmpty.orElse {p q : Pattern} (hp : p.NeverEmpty) (hq : q.NeverEmpty) :
    (Pattern.orElse p q).NeverEmpty := by
  intro previous text h
  rw [Pattern.orElse] at h
  split at h
  · rename_i n hn
    exact hp previous text (hn.trans h)
  · exact hq previous text h

end Pattern

namespace Mark

open Pattern

theorem neverEmpty_row : row.NeverEmpty := by
  refine NeverEmpty.onLine fun previous text h => ?_
  obtain ⟨kind, hkind, hlength⟩ := Option.map_eq_some_iff.1 h
  obtain ⟨rest, hline, -⟩ := Table.exists_of_rowKind? hkind
  rw [hline] at hlength
  cases hlength

theorem neverEmpty_heading : heading.NeverEmpty := by
  refine NeverEmpty.onLine fun previous text h => ?_
  split at h
  · cases h
  · rename_i hne
    exact hne (Option.some.inj h)

theorem neverEmpty_address : address.NeverEmpty := by
  intro previous text h
  rw [address] at h
  split at h
  · rename_i scheme hscheme
    obtain ⟨n, -, hn⟩ := Option.map_eq_some_iff.1 h
    have hpos : ∀ scheme ∈ schemes, 0 < scheme.length := by decide
    have := hpos scheme (List.mem_of_find?_eq_some hscheme)
    omega
  · cases h

theorem neverEmpty_image : image.NeverEmpty := by
  intro previous text h
  unfold image at h
  split at h
  · simp only [Option.ite_none_right_eq_some, Option.some.injEq] at h
    omega
  · cases h

end Mark

open Standard Pattern in
/-- No standard mark is empty. -/
theorem Formatters.standard_neverEmpty : ∀ f ∈ Formatters.standard, f.start.NeverEmpty := by
  have hlit : ∀ {mark : List Char}, mark ≠ [] → (literal mark).NeverEmpty := neverEmpty_literal
  simp only [Formatters.standard, inOrder, List.forall_mem_cons]
  exact ⟨Mark.neverEmpty_row, (neverEmpty_endingLine (by simp)).onLine, hlit (by simp),
    Mark.neverEmpty_heading, (hlit (by simp)).onLine, (hlit (by simp)).onLine,
    (hlit (by simp)).onLine, (hlit (by simp)).onLine, (neverEmpty_run _).onLine,
    (neverEmpty_run _).onLine.orElse (neverEmpty_run _).onLine, hlit (by simp),
    Mark.neverEmpty_address, Mark.neverEmpty_image, hlit (by simp), neverEmpty_anyCase (by simp),
    hlit (by simp), hlit (by simp), hlit (by simp), hlit (by simp), hlit (by simp), hlit (by simp),
    hlit (by simp), hlit (by simp), hlit (by simp), hlit (by simp),
    fun f hf => absurd hf List.not_mem_nil⟩

/-! ### Counting -/

namespace Bond

/-- Two renders that go alike while the count of the page is the same. -/
def counting (depth : Nat) : Bond where
  settings σ τ := τ = σ
  pages p q := q = p ∧ p.depth = depth
  later _ _ := True
  link _ _ := True
  later_refl _ := trivial
  later_trans _ _ := trivial
  link_later _ _ := trivial
  store_eq h := by rw [h.1]
  link_passage _ _ := trivial
  link_external _ _ := trivial

variable {depth : Nat} {p : Page} {s t u : Scanner}

theorem shows_counting (p : Page) (nodes : List Node) : (counting depth).Shows p nodes :=
  fun _ _ _ _ => trivial

theorem joins_counting (hs : s.page.depth = depth) : (counting depth).Joins s s.page :=
  ⟨⟨rfl, hs⟩, shows_counting _ _⟩

/-- Two renders that go alike come out the same, and at the depth where they were. -/
theorem Moves.of_counting (h : (counting depth).Moves s t u) : u = t ∧ t.page.depth = depth := by
  obtain ⟨q, rfl, ⟨⟨rfl, hdepth⟩, -⟩, -⟩ := h
  exact ⟨rfl, hdepth⟩

theorem Moves.counting (h : t.page.depth = depth) : (counting depth).Moves s t t :=
  ⟨t.page, rfl, joins_counting h, trivial⟩

theorem Renders.of_counting {x y : Except MacroError (List Node × Page)}
    (h : (counting depth).Renders p x y) : y = x := by
  match x, y, h with
  | .error e, .error e', h => exact congrArg Except.error (Eq.symm h)
  | .ok (nodes, p'), .ok (nodes', q'), ⟨hnodes, ⟨hpage, _⟩, _, _⟩ => rw [hnodes, hpage]

theorem counting_nests (depth : Nat) : (counting depth).Nests (counting (depth + 1)) where
  pages_enter h := ⟨congrArg Page.enter h.1, congrArg Nat.succ h.2⟩
  link_enter _ := trivial
  pages_leave h := ⟨congrArg Page.leave h.1, congrArg Nat.pred h.2⟩
  link_leave _ := trivial
  later_leave _ := trivial

/-- The standard macros leave the count alone. -/
theorem counting_lawful (depth : Nat) : (counting depth).Lawful where
  history_eq h := congrArg Page.history h.1
  keyStart_eq h := congrArg Setting.keyStart h
  write vars h _ := ⟨⟨by rw [h.1], h.2⟩, trivial⟩
  keep key value hs h := ⟨⟨by rw [h.1, hs], h.2⟩, trivial⟩
  offer titles h _ := ⟨⟨by rw [h.1], h.2⟩, trivial, fun _ _ => trivial⟩
  back _ _ _ _ := trivial

end Bond

/-! ### The levels that are left -/

namespace Kit

variable {kit : Kit}

/-- Formatters and macros leave the count of the page alone: what goes alike before them goes alike
behind them. -/
structure KeepsCount (kit : Kit) : Prop where
  formatters : ∀ f ∈ kit.formatters, ∀ depth, (Bond.counting depth).KeptBy f
  macros : ∀ depth, (Bond.counting depth).KeptByMacros kit.macros

/-- What is at hand if only the count of the page tells where to stop.  No more than so many levels
are looked at; `deepest` stands for what would lie below them. -/
def countedOver (kit : Kit) (deepest : Context) : Nat → Context
  | 0 => deepest
  | levels + 1 =>
      let further := kit.contextOver (kit.countedOver deepest levels) 1
      { setting := kit.setting
        scan := fun stop s =>
          if kit.setting.config.maxDepth ≤ s.page.depth then kit.bottom.scan stop s
          else further.scan stop s
        render := fun text nodes page =>
          if kit.setting.config.maxDepth ≤ page.depth then kit.bottom.render text nodes page
          else further.render text nodes page }

namespace KeepsCount

/-- The standard tables leave the count alone. -/
theorem of_standard (hf : kit.formatters = .standard) (hm : kit.macros = .standard) :
    kit.KeepsCount where
  formatters f hin _ := Formatters.standard_transparent f (hf ▸ hin) _
  macros depth := hm ▸ (Bond.counting_lawful depth).standard_kept

theorem kits (h : kit.KeepsCount) (depth : Nat) : (Bond.counting depth).Kits kit kit where
  formatters_eq := rfl
  macros_eq := rfl
  maxDepth_eq := rfl
  settings := rfl
  formatters f hf := h.formatters f hf depth
  macros := h.macros depth

/-- What lies further in leaves the count as it was. -/
theorem contexts (h : kit.KeepsCount) (depth left : Nat) :
    (Bond.counting depth).Contexts (kit.context left) (kit.context left) := by
  induction left generalizing depth with
  | zero => exact (h.kits depth).bottom
  | succ left ih =>
      exact (Bond.counting_nests depth).contexts rfl (h.kits (depth + 1)) (ih (depth + 1))

/-- Where the levels that are left and the depth make up the limit, the count of the page stops
renders at the same places, whatever lies below. -/
theorem countedOver_contexts (h : kit.KeepsCount) (deepest : Context) (depth left : Nat)
    (hlimit : depth + left = kit.setting.config.maxDepth) :
    (Bond.counting depth).Contexts (kit.countedOver deepest (left + 1)) (kit.context left) := by
  induction left generalizing depth with
  | zero =>
      have hdeep : kit.setting.config.maxDepth ≤ depth := Nat.le_of_eq hlimit.symm
      have hbottom := (h.kits depth).bottom
      refine ⟨rfl, fun stop s q hj => ?_, fun text nodes p q hp hs => ?_⟩
      · simp only [countedOver, hj.pages.2, if_pos hdeep]
        exact hbottom.scan stop s q hj
      · simp only [countedOver, hp.2, if_pos hdeep]
        exact hbottom.render text nodes p q hp hs
  | succ left ih =>
      have hdeep : ¬ kit.setting.config.maxDepth ≤ depth := by omega
      have hinner := ih (depth + 1) (by omega)
      have hfurther : (Bond.counting depth).Contexts
          (kit.contextOver (kit.countedOver deepest (left + 1)) 1) (kit.context (left + 1)) :=
        (Bond.counting_nests depth).contexts rfl (h.kits (depth + 1)) hinner
      refine ⟨rfl, fun stop s q hj => ?_, fun text nodes p q hp hs => ?_⟩
      · simp only [countedOver, hj.pages.2, if_neg hdeep]
        exact hfurther.scan stop s q hj
      · simp only [countedOver, hp.2, if_neg hdeep]
        exact hfurther.render text nodes p q hp hs

end KeepsCount

/-! ### Renders within their limit -/

/-- A render of a kit moves on, keeps to the limit and ends. -/
structure Bounded (kit : Kit) : Prop where
  /-- No mark that a formatter finds is left out for being empty. -/
  marks : ∀ f ∈ kit.formatters, f.start.nonempty? = f.start
  /-- Every round of a scan moves its cursor on. -/
  round : ∀ ctx stop s t, kit.Round ctx stop s t → s.cursor.Precedes t.cursor
  /-- A scan is a row of rounds, up to the mark that it waits for or to the end of the text. -/
  scan_ends : ∀ ctx stop s, ∃ t, Relation.ReflTransGen (kit.Round ctx stop) s t ∧
    match kit.formatters.next? stop t.cursor.previous t.cursor.rest with
    | none => kit.run ctx stop s = t.finish
    | some (skipped, hit) =>
        (∃ length, hit = .stop length) ∧ kit.run ctx stop s = t.find skipped hit.length
  /-- Behind a quoted line the next one is read from further on. -/
  quotedLine : ∀ left level frames s marks, 0 < level →
    let (frames', s') := Nesting.readQuote (kit.context left) level frames s
    Mark.quoteLine s'.cursor.previous s'.cursor.rest = some marks →
      0 < marks ∧ s.cursor.Precedes (s'.forward marks).cursor ∧
        Nesting.readQuotes (kit.context left) level frames s =
          Nesting.readQuotes (kit.context left) marks frames' (s'.forward marks)
  /-- Behind a list item the next one is read from further on. -/
  listItem : ∀ left latest frames s tag level, Nesting.itemAt? s.cursor = some (tag, level) →
    let (frames', s') := Nesting.readItem (kit.context left) tag level latest frames s
    s.cursor.Precedes s'.cursor ∧
      Nesting.readItems (kit.context left) latest frames s =
        Nesting.readItems (kit.context left) (some tag) frames' s'
  /-- Behind a cell of a table the next one is read from further on. -/
  cell : ∀ left g cells column width s slot, Table.slot? s.cursor.rest = some slot →
    (∀ length, slot ≠ .rowEnd length) →
      ∃ g' cells' width' s', s.cursor.Precedes s'.cursor ∧
        Table.readCells (kit.context left) g cells column width s =
          Table.readCells (kit.context left) g' cells' (column + 1) width' s'
  /-- Behind a row of a table the next one is read from further on. -/
  row : ∀ left isFirst g s kind, Table.rowAt? s.cursor = some kind →
    let (g', s') := Table.readRow (kit.context left) kind isFirst g s
    s.cursor.Precedes s'.cursor ∧
      Table.readRows (kit.context left) isFirst g s = Table.readRows (kit.context left) false g' s'
  /-- Below the limit a scan is run one deeper, and all along it the count is that: no more than
  the limit, by as many as there are levels left for what lies further in. -/
  below_limit : ∀ left stop s, s.page.depth + (left + 1) = kit.setting.config.maxDepth →
    (kit.context (left + 1)).scan stop s = (kit.run (kit.context left) stop s.enter).leave ∧
      ∀ t, Relation.ReflTransGen (kit.Round (kit.context left) stop) s.enter t →
        t.page.depth = s.page.depth + 1 ∧ t.page.depth + left = kit.setting.config.maxDepth
  /-- At the limit no scan is run, and an error is shown in its place. -/
  at_limit : ∀ stop s, s.page.depth = kit.setting.config.maxDepth →
    (kit.context 0).scan stop s = (s.emit (Node.error kit.tooDeep.message)).toEnd
  /-- The count behind a scan, or the error in its place, is the count before it. -/
  depth_scan : ∀ left stop s, s.page.depth + left = kit.setting.config.maxDepth →
    ((kit.context left).scan stop s).page.depth = s.page.depth
  /-- So is the count behind the render of another text. -/
  depth_render : ∀ left text nodes page nodes' page',
    page.depth + left = kit.setting.config.maxDepth →
      (kit.context left).render text nodes page = .ok (nodes', page') → page'.depth = page.depth
  /-- A render from zero ends without looking below the limit. -/
  returns : ∀ deepest text page, page.depth = 0 →
    renderIn (kit.countedOver deepest (kit.setting.config.maxDepth + 1)) text page =
      kit.render text page

theorem exists_rounds (kit : Kit) (ctx : Context) (stop : Option Pattern) (s : Scanner) :
    ∃ t, Relation.ReflTransGen (kit.Round ctx stop) s t ∧
      match kit.formatters.next? stop t.cursor.previous t.cursor.rest with
      | none => kit.run ctx stop s = t.finish
      | some (skipped, hit) =>
          (∃ length, hit = .stop length) ∧ kit.run ctx stop s = t.find skipped hit.length := by
  induction s using run_induction kit ctx stop with
  | none s hn =>
      refine ⟨s, .refl, ?_⟩
      simp only [hn]
      exact run_of_none hn
  | stopped s skipped length hn =>
      refine ⟨s, .refl, ?_⟩
      simp only [hn]
      exact ⟨⟨length, rfl⟩, run_of_stop hn⟩
  | rule s skipped index f length hn ih =>
      obtain ⟨t, hrounds, ht⟩ := ih
      rw [← run_of_rule hn] at ht
      exact ⟨t, .head ⟨skipped, index, f, length, hn, rfl⟩ hrounds, ht⟩

/-- The loop over the cells of a row moves on, whatever stands in the cells. -/
theorem exists_readCells {ctx : Context} (hctx : ctx.Advances) (g : Table.Grid)
    (cells : List Table.Cell) (column width : Nat) {s : Scanner} {slot : Table.Slot}
    (h : Table.slot? s.cursor.rest = some slot) (hslot : ∀ length, slot ≠ .rowEnd length) :
    ∃ g' cells' width' s', s.cursor.Precedes s'.cursor ∧
      Table.readCells ctx g cells column width s =
        Table.readCells ctx g' cells' (column + 1) width' s' := by
  have htwo := Table.two_le_of_slot? h hslot
  have hforward := Cursor.precedes_of_rest_lt (Table.length_forward_two htwo)
  cases slot with
  | rowEnd length => exact absurd rfl (hslot length)
  | above => exact ⟨_, _, _, _, hforward, Table.readCells_of_above h⟩
  | next => exact ⟨_, _, _, _, hforward, Table.readCells_of_next h⟩
  | content =>
      exact ⟨_, _, _, _, Cursor.precedes_of_rest_lt (Table.readCell_advances hctx width htwo),
        Table.readCells_of_content hctx h⟩

namespace KeepsCount

/-- A round of a scan leaves the count as it was. -/
theorem depth_round (h : kit.KeepsCount) {left : Nat} {stop : Option Pattern} {s t : Scanner}
    (hround : kit.Round (kit.context left) stop s t) : t.page.depth = s.page.depth := by
  obtain ⟨skipped, index, f, length, hnext, rfl⟩ := hround
  have hfound : (Bond.counting s.page.depth).Joins (s.find skipped length) s.page :=
    Bond.joins_counting (s := s.find skipped length) rfl
  exact ((h.kits s.page.depth).handled_moves (h.contexts _ left) (Formatters.mem_of_next? hnext)
    hfound).of_counting.2

theorem depth_rounds (h : kit.KeepsCount) {left : Nat} {stop : Option Pattern} {s t : Scanner}
    (hrounds : Relation.ReflTransGen (kit.Round (kit.context left) stop) s t) :
    t.page.depth = s.page.depth := by
  induction hrounds with
  | refl => rfl
  | tail _ hround ih => rw [h.depth_round hround, ih]

theorem depth_scan (h : kit.KeepsCount) (left : Nat) (stop : Option Pattern) (s : Scanner) :
    ((kit.context left).scan stop s).page.depth = s.page.depth :=
  ((h.contexts s.page.depth left).scan stop s s.page (Bond.joins_counting rfl)).of_counting.2

theorem depth_render (h : kit.KeepsCount) {left : Nat} {text : List Char} {nodes nodes' : List Node}
    {page page' : Page} (hr : (kit.context left).render text nodes page = .ok (nodes', page')) :
    page'.depth = page.depth := by
  have hrenders := (h.contexts page.depth left).render text nodes page page ⟨rfl, rfl⟩
    (Bond.shows_counting _ _)
  rw [hr] at hrenders
  exact hrenders.2.1.2

/-- **A render from zero ends without looking below the limit.** -/
theorem renderIn_countedOver (h : kit.KeepsCount) (deepest : Context) (text : List Char)
    {page : Page} (hpage : page.depth = 0) :
    renderIn (kit.countedOver deepest (kit.setting.config.maxDepth + 1)) text page =
      kit.render text page := by
  have hcontexts := h.countedOver_contexts deepest 0 _ (Nat.zero_add _)
  have hrenders := hcontexts.render text [] page page ⟨rfl, hpage⟩ Bond.shows_nil
  rw [render, renderIn, renderIn, hrenders.of_counting]

end KeepsCount

/-- **Every render ends, within its limit**: its scans and the loops of its formatters move on, and
the count of the page keeps it from getting too deep. -/
theorem bounded (kit : Kit) (hmarks : ∀ f ∈ kit.formatters, f.start.NeverEmpty)
    (hcount : kit.KeepsCount) : kit.Bounded where
  marks f hf := (hmarks f hf).nonempty?_eq
  round _ _ _ _ hround := hround.precedes
  scan_ends ctx stop s := kit.exists_rounds ctx stop s
  quotedLine left level frames s marks hlevel hmark :=
    have hctx := kit.context_advances left
    have ⟨hpos, hlt⟩ := Nesting.quoteLine_advances hctx hlevel hmark
    ⟨hpos, Cursor.precedes_of_rest_lt hlt, Nesting.readQuotes_of_some hctx hlevel hmark⟩
  listItem left latest frames s tag level hitem :=
    have hctx := kit.context_advances left
    ⟨Cursor.precedes_of_rest_lt (Nesting.readItem_advances hctx hitem latest frames),
      Nesting.readItems_of_some hctx hitem⟩
  cell left g cells column width s slot hslot hne :=
    exists_readCells (kit.context_advances left) g cells column width hslot hne
  row left isFirst g s kind hrow :=
    have hctx := kit.context_advances left
    ⟨Cursor.precedes_of_rest_lt (Table.readRow_advances hctx hrow isFirst g),
      Table.readRows_of_some hctx hrow⟩
  below_limit left stop s hs := by
    refine ⟨rfl, fun t hrounds => ?_⟩
    have hdepth : t.page.depth = s.page.depth + 1 := hcount.depth_rounds hrounds
    exact ⟨hdepth, by omega⟩
  at_limit _ _ _ := rfl
  depth_scan left stop s _ := hcount.depth_scan left stop s
  depth_render left text nodes page nodes' page' _ hr := hcount.depth_render hr
  returns deepest text page hpage := hcount.renderIn_countedOver deepest text hpage

end Kit

/-! ### Tables of a host -/

namespace Formatters

theorem mem_insertBefore {before : String} {f g : Formatter} {fs : List Formatter}
    (h : g ∈ insertBefore before f fs) : g = f ∨ g ∈ fs := by
  induction fs with
  | nil => exact .inl (List.mem_singleton.1 h)
  | cons head fs ih =>
      rw [insertBefore] at h
      split at h
      · exact List.mem_cons.1 h
      · rcases List.mem_cons.1 h with rfl | h
        · exact .inr List.mem_cons_self
        · exact (ih h).imp_right (List.mem_cons_of_mem head)

/-- What holds of the formatters of a table and of a formatter of a host holds of the table with
that formatter. -/
theorem forall_insertBefore? {P : Formatter → Prop} {fs gs : Formatters} {before : String}
    {e : Extension} (h : fs.insertBefore? before e = some gs) (hfs : ∀ f ∈ fs, P f)
    (he : ∀ start, e.start? = some start →
      P { name := e.name, start := start, handle := e.handle }) : ∀ f ∈ gs, P f := by
  obtain ⟨start, hstart, rfl⟩ := Option.map_eq_some_iff.1 h
  intro f hf
  rcases mem_insertBefore hf with rfl | hf
  · exact he start hstart
  · exact hfs f hf

end Formatters

namespace Extension

/-- The standard table with a formatter that always declines and one that goes back to the start of
its mark. -/
def restless? : Option Formatters :=
  (Formatters.standard.insertBefore? "emdash" shrug).bind (·.insertBefore? "boldByChar" stuck)

/-- What holds of the standard formatters and these two holds of the table. -/
theorem forall_restless {P : Formatter → Prop} {fs : Formatters} (h : restless? = some fs)
    (hstandard : ∀ f ∈ Formatters.standard, P f)
    (hshrug : ∀ start, shrug.start? = some start → P ⟨shrug.name, start, shrug.handle⟩)
    (hstuck : ∀ start, stuck.start? = some start → P ⟨stuck.name, start, stuck.handle⟩) :
    ∀ f ∈ fs, P f := by
  obtain ⟨gs, hgs, hfs⟩ := Option.bind_eq_some_iff.1 h
  exact Formatters.forall_insertBefore? hfs
    (Formatters.forall_insertBefore? hgs hstandard hshrug) hstuck

theorem restless_neverEmpty {fs : Formatters} (h : restless? = some fs) :
    ∀ f ∈ fs, f.start.NeverEmpty := by
  have hlit : ∀ {mark : List Char}, mark ≠ [] → (Pattern.literal mark).NeverEmpty :=
    Pattern.neverEmpty_literal
  refine forall_restless h Formatters.standard_neverEmpty ?_ ?_
  · rintro _ ⟨⟩
    exact (hlit (by simp)).orElse ((hlit (by simp)).orElse (hlit (by simp)))
  · rintro _ ⟨⟩
    exact hlit (by simp)

theorem restless_transparent {fs : Formatters} (h : restless? = some fs) :
    ∀ f ∈ fs, f.Transparent := by
  refine forall_restless h Formatters.standard_transparent ?_ ?_
  · exact fun _ _ B macros c d s q _ _ hj => trivial
  · exact fun _ _ B macros c d s q _ _ hj => ⟨q, rfl, hj.move rfl rfl, B.later_refl _⟩

/-- A kit with such a table and a low limit. -/
def restlessKit (fs : Formatters) : Kit where
  formatters := fs
  macros := .standard
  setting := { config := { maxDepth := 3 }, keyStart := "", now := 0 }

theorem restless_keepsCount {fs : Formatters} (h : restless? = some fs) :
    (restlessKit fs).KeepsCount where
  formatters f hf depth := restless_transparent h f hf (.counting depth)
  macros depth := (Bond.counting_lawful depth).standard_kept

/-- A page of a story whose one passage displays itself. -/
def mirrorPage : Page where
  store := .ofRecords [{ title := "Mirror", text := "%% <<display Mirror>>", order := 0 }]
  history := .start {}
  jar := .empty

/-- Restless formatters do not keep a render from ending, nor does a passage that displays itself:
it is shown as often as the limit allows. -/
theorem bounded_mirror : ∃ fs, restless? = some fs ∧ (restlessKit fs).Bounded ∧
    Node.textContent ((restlessKit fs).render "<<display Mirror>>".toList mirrorPage).1 =
      "  passages nested more than 3 deep" := by
  refine ⟨_, rfl, Kit.bounded _ (restless_neverEmpty rfl) (restless_keepsCount rfl), ?_⟩
  decide +kernel

end Extension

end Gamebook
