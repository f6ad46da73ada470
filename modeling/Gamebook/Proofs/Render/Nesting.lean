/-
**Quoted lines and lists keep every bond.**

Quoted lines and list items are read one after another, and what they hold goes into the elements
that are open.  The page changes only through what stands in the lines.

Main definitions:

* `Nesting.FramesShow` — the links inside open elements are allowed.

Main results:

* `Nesting.readQuotes_moves`, `Nesting.readItems_moves` — **reading line by line keeps a bond**;
* `Nesting.quotes_transparent`, `Nesting.lists_transparent` — the formatters are transparent.
-/

import Gamebook.Proofs.Render.Bond
import Gamebook.Proofs.Render.Parts

set_option relaxedAutoImplicit false
set_option autoImplicit false

namespace Gamebook

variable {B : Bond} {p q : Page} {s : Scanner} {c d : Context}

namespace Nesting

/-! ### Open elements -/

/-- The links inside open elements are allowed, and the elements are no links themselves. -/
def FramesShow (B : Bond) (p : Page) (frames : List Frame) : Prop :=
  ∀ f ∈ frames, B.Shows p f.content ∧ ({ tag := f.tag } : Element).target? = none

theorem FramesShow.later {frames : List Frame} (h : FramesShow B p frames) (hl : B.later p q) :
    FramesShow B q frames := fun f hf => ⟨(h f hf).1.later hl, (h f hf).2⟩

theorem framesShow_cons {frame : Frame} {frames : List Frame} :
    FramesShow B p (frame :: frames) ↔
      (B.Shows p frame.content ∧ ({ tag := frame.tag } : Element).target? = none) ∧
        FramesShow B p frames := List.forall_mem_cons

theorem framesShow_nil : FramesShow B p [] := fun _ hf => absurd hf List.not_mem_nil

theorem toNode_shows {frame : Frame}
    (h : B.Shows p frame.content ∧ ({ tag := frame.tag } : Element).target? = none) :
    B.ShowsNode p frame.toNode := Bond.showsNode_plain h.2 (by simpa using h.1)

/-- Closing elements shows no more links than they have. -/
theorem stacks_shows (B : Bond) (p : Page) :
    Stacks (fun f => B.Shows p f.content ∧ ({ tag := f.tag } : Element).target? = none)
      (B.Shows p) where
  inner hf houter := ⟨Bond.shows_cons.2 ⟨toNode_shows hf, houter.1⟩, houter.2⟩
  outermost hf hn := Bond.shows_cons.2 ⟨toNode_shows hf, hn⟩

/-! ### Quoted lines -/

/-- **Reading quoted lines keeps a bond.** -/
theorem readQuotes_moves (hc : B.Contexts c d) (level : Nat) (frames : List Frame) (s : Scanner)
    (q : Page) (hj : B.Joins s q) (hf : FramesShow B s.page frames) :
    B.Moves s (readQuotes c level frames s) (readQuotes d level frames (s.withPage q)) := by
  -- line by line, and with every line there is less to come
  induction hn : s.cursor.rest.length using Nat.strongRecOn generalizing level frames s q with
  | ind n ih =>
      rw [readQuotes, readQuotes.eq_def d]
      obtain ⟨hframes, hnodes⟩ :=
        (stacks_shows B s.page).goTo .blockQuote ⟨Bond.shows_nil, rfl⟩ level hf hj.shows
      simp only [Scanner.nodes_withPage]
      cases hgo : goTo .blockQuote level frames s.nodes with
      | mk frames' nodes =>
          rw [hgo] at hframes hnodes
          cases frames' with
          | nil => exact ⟨q, rfl, ⟨hj.pages, hnodes⟩, B.later_refl _⟩
          | cons frame frames' =>
              obtain ⟨hframe, hframes⟩ := framesShow_cons.1 hframes
              have hj₀ : B.Joins { s with nodes := nodes } q := ⟨hj.pages, hnodes⟩
              obtain ⟨q', hd, hj', hin, hl⟩ :=
                hc.scanInside Mark.newline frame.content hj₀ hframe.1
              have hd' : d.scanInside Mark.newline frame.content
                  { s.withPage q with nodes := nodes } = _ := hd
              simp only [hd']
              generalize c.scanInside Mark.newline frame.content { s with nodes := nodes } = r
                at hj' hin hl ⊢
              have hbreak : B.ShowsNode r.2.page (.element { tag := .lineBreak } []) :=
                Bond.showsNode_plain rfl Bond.shows_nil
              have hopen : FramesShow B r.2.page
                  ({ frame with content := .element { tag := .lineBreak } [] :: r.1 } ::
                    frames') :=
                framesShow_cons.2 ⟨⟨Bond.shows_cons.2 ⟨hbreak, hin⟩, hframe.2⟩, hframes.later hl⟩
              simp only [Scanner.cursor_withPage]
              cases Mark.quoteLine r.2.cursor.previous r.2.cursor.rest with
              | none => exact ⟨q', rfl, ⟨hj'.pages, (stacks_shows _ _).closeAll hopen hj'.shows⟩, hl⟩
              | some marks =>
                  have hj'' : B.Joins (r.2.forward marks) q' := hj'.move rfl rfl
                  have hlen : ((r.2.withPage q').forward marks).cursor.rest.length =
                    (r.2.forward marks).cursor.rest.length := rfl
                  simp only [hlen]
                  by_cases hlt : (r.2.forward marks).cursor.rest.length < s.cursor.rest.length
                  · rw [if_pos hlt, if_pos hlt]
                    exact (ih _ (hn ▸ hlt) marks _ (r.2.forward marks) q' hj'' hopen rfl).after hl
                  · rw [if_neg hlt, if_neg hlt]
                    exact ⟨q', rfl, ⟨hj'.pages, (stacks_shows _ _).closeAll hopen hj'.shows⟩, hl⟩

theorem quotes_transparent : quotes.Transparent := by
  intro B macros c d s q _ hc hj
  exact readQuotes_moves hc s.found.length [] s q hj framesShow_nil

/-! ### Lists -/

theorem put_shows {node : Node} {frames : List Frame} {nodes : List Node}
    (hnode : B.ShowsNode p node) (hf : FramesShow B p frames) (hn : B.Shows p nodes) :
    FramesShow B p (put node frames nodes).1 ∧ B.Shows p (put node frames nodes).2 := by
  cases frames with
  | nil => exact ⟨hf, Bond.shows_cons.2 ⟨hnode, hn⟩⟩
  | cons frame frames =>
      obtain ⟨hframe, hframes⟩ := framesShow_cons.1 hf
      exact ⟨framesShow_cons.2 ⟨⟨Bond.shows_cons.2 ⟨hnode, hframe.1⟩, hframe.2⟩, hframes⟩, hn⟩

/-- The marks of an item tell one of the two kinds of lists. -/
theorem target?_of_itemAt? {cursor : Cursor} {tag : Tag} {level : Nat}
    (h : itemAt? cursor = some (tag, level)) : ({ tag := tag } : Element).target? = none := by
  rw [itemAt?] at h
  split at h
  · cases h
    rfl
  · obtain ⟨n, -, heq⟩ := Option.map_eq_some_iff.1 h
    cases heq
    rfl

/-- **Reading list items keeps a bond.** -/
theorem readItems_moves (hc : B.Contexts c d) (latest : Option Tag) (frames : List Frame)
    (s : Scanner) (q : Page) (hj : B.Joins s q) (hf : FramesShow B s.page frames) :
    B.Moves s (readItems c latest frames s) (readItems d latest frames (s.withPage q)) := by
  induction hn : s.cursor.rest.length using Nat.strongRecOn generalizing latest frames s q with
  | ind n ih =>
      rw [readItems, readItems.eq_def d]
      simp only [Scanner.cursor_withPage, Scanner.nodes_withPage]
      cases hitem : itemAt? s.cursor with
      | none => exact ⟨q, rfl, ⟨hj.pages, (stacks_shows _ _).closeAll hf hj.shows⟩, B.later_refl _⟩
      | some item =>
          obtain ⟨tag, level⟩ := item
          obtain ⟨hframes, hnodes⟩ :=
            (stacks_shows B s.page).enterItem ⟨Bond.shows_nil, target?_of_itemAt? hitem⟩ level latest
              hf hj.shows
          simp only
          generalize enterItem tag level latest frames s.nodes = entered at hframes hnodes ⊢
          obtain ⟨frames', nodes⟩ := entered
          have hj₀ : B.Joins { s.forward level with nodes := nodes } q := ⟨hj.pages, hnodes⟩
          obtain ⟨q', hd, hj', hin, hl⟩ :=
            hc.scanInside Mark.newline [] hj₀ Bond.shows_nil
          have hd' : d.scanInside Mark.newline []
              { (s.withPage q).forward level with nodes := nodes } = _ := hd
          simp only [hd', Scanner.nodes_withPage]
          generalize c.scanInside Mark.newline [] { s.forward level with nodes := nodes } = r
            at hj' hin hl ⊢
          have hitem : B.ShowsNode r.2.page (.element { tag := .listItem } r.1.reverse) :=
            Bond.showsNode_plain rfl (by simpa using hin)
          obtain ⟨hframes', hnodes'⟩ := put_shows hitem (FramesShow.later hframes hl) hj'.shows
          generalize put (.element { tag := .listItem } r.1.reverse) frames' r.2.nodes = placed
            at hframes' hnodes' ⊢
          have hj'' : B.Joins { r.2 with nodes := placed.2 } q' := ⟨hj'.pages, hnodes'⟩
          have hlen : (r.2.withPage q').cursor.rest.length = r.2.cursor.rest.length := rfl
          simp only [hlen]
          by_cases hlt : r.2.cursor.rest.length < s.cursor.rest.length
          · simp only [if_pos hlt]
            exact (ih _ (hn ▸ hlt) (some tag) placed.1 _ q' hj'' hframes' rfl).after (r := s) hl
          · simp only [if_neg hlt]
            exact ⟨q', rfl, ⟨hj'.pages, (stacks_shows _ _).closeAll hframes' hnodes'⟩, hl⟩

theorem lists_transparent : lists.Transparent := by
  intro B macros c d s q _ hc hj
  have hmove : B.Joins { s with cursor := s.foundAt } q := hj.move rfl rfl
  exact readItems_moves hc none [] { s with cursor := s.foundAt } q hmove framesShow_nil

end Nesting

end Gamebook
