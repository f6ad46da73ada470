/-
**What a render says twice.**

A text without macro calls and dashes is said once, by whatever standard formatters, as long as the
render stays within its limit: what is shown is a part of the text, in its order.  Only its last
character may be said again, and only if there is a table in the text; for a cell that has run to
the end of the text gives its last character back, as if that were the bar that ends the cell.

Main definitions:

* `Kit.WithinLimit` — a render that does not get to its limit.

Main results:

* `Construct.sublist_link`, `Construct.sublist_enclosed`, `Construct.sublist_preformatted` —
  constructs that are read whole say no more than what they pass;
* `Formatters.standard_once` — **no standard formatter says anything twice**;
* `Kit.contextOver_once` — nor do the contexts of all levels;
* `Kit.withinLimit_of_length_lt` — a short text does not get to the limit;
* `Kit.render_repeats` — **what a render says twice**;
* `Kit.last_repeated` — a text whose last character is said twice.
-/

import Gamebook.Proofs.Render.Shallow

set_option relaxedAutoImplicit false
set_option autoImplicit false

namespace Gamebook

open Node (said)

variable {text : List Char} {ctx : Context} {s t : Scanner}

/-! ### Constructs that are read whole -/

namespace Construct

variable {body : List Char} {n : Nat}

/-- What stands behind the first characters of a text is a part of it. -/
theorem sublist_take (skip : Nat) (hpre : body <+: text.drop skip) (hn : skip + body.length ≤ n) :
    body.Sublist (text.take n) := by
  have hbody : body = (text.take (skip + body.length)).drop skip := by
    rw [List.drop_take, Nat.add_sub_cancel_left]
    exact List.prefix_iff_eq_take.1 hpre
  rw [hbody]
  exact (List.drop_sublist _ _).trans (List.take_sublist_take_left hn)

theorem prefix_upTo {close? : List Char → Option Nat}
    (h : Pattern.upTo close? text = some (body, n)) : body <+: text ∧ body.length ≤ n := by
  induction text generalizing body n with
  | nil => cases h
  | cons c rest ih =>
      rw [Pattern.upTo] at h
      split at h
      · cases h
        exact ⟨List.nil_prefix, Nat.zero_le _⟩
      · obtain ⟨⟨body', n'⟩, hrest, heq⟩ := Option.map_eq_some_iff.1 h
        cases heq
        obtain ⟨hpre, hle⟩ := ih hrest
        exact ⟨List.cons_prefix_cons.2 ⟨rfl, hpre⟩, Nat.succ_le_succ hle⟩

theorem prefix_linesUpTo {close? : List Char → Option Nat} {atStart : Bool}
    (h : Pattern.linesUpTo close? atStart text = some (body, n)) :
    body <+: text ∧ body.length ≤ n := by
  induction text generalizing body n atStart with
  | nil => simp [Pattern.linesUpTo] at h
  | cons c rest ih =>
      rw [Pattern.linesUpTo] at h
      split at h
      · cases h
        exact ⟨List.nil_prefix, Nat.zero_le _⟩
      · obtain ⟨⟨body', n'⟩, hrest, heq⟩ := Option.map_eq_some_iff.1 h
        cases heq
        obtain ⟨hpre, hle⟩ := ih hrest
        exact ⟨List.cons_prefix_cons.2 ⟨rfl, hpre⟩, Nat.succ_le_succ hle⟩

theorem sublist_enclosed {opening : Nat} {close? : List Char → Option Nat}
    (h : enclosed? opening close? text = some (body, n)) : body.Sublist (text.take n) := by
  obtain ⟨⟨body', n'⟩, hinside, heq⟩ := Option.map_eq_some_iff.1 h
  cases heq
  obtain ⟨hpre, hle⟩ := prefix_upTo hinside
  exact sublist_take opening hpre (Nat.add_le_add_left hle opening)

theorem sublist_preformatted (h : preformatted? text = some (body, n)) :
    body.Sublist (text.take n) := by
  obtain ⟨⟨body', n'⟩, hinside, heq⟩ := Option.map_eq_some_iff.1 h
  cases heq
  obtain ⟨hpre, hle⟩ := prefix_linesUpTo hinside
  exact sublist_take 4 hpre (Nat.add_le_add_left hle 4)

theorem sublist_slashedPreformatted (h : slashedPreformatted? text = some (body, n)) :
    body.Sublist (text.take n) := by
  simp only [slashedPreformatted?] at h
  split at h
  · rename_i body' n' hinside
    cases h
    obtain ⟨hpre, hle⟩ := prefix_linesUpTo hinside
    rw [List.drop_drop] at hpre
    exact sublist_take _ hpre (by omega)
  · -- there are only line breaks, and one of them is kept
    split at h
    · cases h
    · rename_i hbreaks
      obtain ⟨n', -, heq⟩ := Option.map_eq_some_iff.1 h
      cases heq
      refine sublist_take 6 ?_ ?_
      · cases hinside : text.drop 6 with
        | nil => simp [hinside] at hbreaks
        | cons c rest =>
            by_cases hc : c = '\n'
            · exact ⟨rest, by simp [hc]⟩
            · simp [hinside, hc] at hbreaks
      · have hpos := Nat.pos_of_ne_zero hbreaks
        simp only [List.length_singleton]
        omega

theorem sublist_link {target? : Option (List Char)} (h : link? text = some (body, target?, n)) :
    body.Sublist (text.take n) := by
  unfold link? at h
  split at h
  · rename_i inside
    have hpre : ∀ p : Char → Bool, inside.takeWhile p <+: ('[' :: '[' :: inside).drop 2 :=
      fun p => List.takeWhile_prefix p
    dsimp only at h
    split at h
    · cases h
      exact sublist_take 2 (hpre _) (by omega)
    · obtain ⟨⟨target, n'⟩, -, heq⟩ := Option.map_eq_some_iff.1 h
      cases heq
      exact sublist_take 2 (hpre _) (by omega)
    · cases h
  · cases h

end Construct

/-! ### The standard formatters -/

namespace Standard

theorem fixed_once (name : String) (start : Pattern) {node : Node} (hnode : node.chars = []) :
    (fixed name start node).SaysOnce text := by
  rintro macros ctx s t - - hat ⟨⟩
  simpa [Scanner.emit, hnode] using hat.goesOn (said s.nodes)

theorem wrap_once (name : String) (start stop : Pattern) (tag : Tag) :
    (wrap name start stop tag).SaysOnce text := by
  rintro macros ctx s t hctx htext hat ⟨⟩
  have hmark := hat.goesOn (said s.nodes)
  exact hmark.trans (hctx.enclose stop _ (hmark.text.trans htext))

/-- A construct that is read whole, and says no more than what it passes. -/
theorem whole_once {α : Type} (name : String) (start : Pattern)
    (read? : List Char → Option (α × Nat)) (build : Store → α → Option Node)
    (hless : ∀ text a length store node, read? text = some (a, length) →
      build store a = some node → node.chars.Sublist (text.take length)) :
    (whole name start read? build).SaysOnce text := by
  intro macros ctx s t _ _ _ ht
  obtain ⟨⟨a, length⟩, hread, rfl⟩ := Option.map_eq_some_iff.1 ht
  dsimp only
  split
  · rename_i node hnode
    simpa [Scanner.emit] using GoesOn.say (hless _ _ _ _ _ hread hnode) (said s.nodes)
  · exact (GoesOn.refl _ _).forward length

theorem heading_once : heading.SaysOnce text := by
  rintro macros ctx s t hctx htext hat ⟨⟩
  have hmark := hat.goesOn (said s.nodes)
  exact hmark.trans (hctx.enclose Mark.newline _ (hmark.text.trans htext))

theorem comment_once : comment.SaysOnce text := by
  rintro macros ctx s t hctx htext hat ⟨⟩
  have hmark := hat.goesOn (said s.nodes)
  exact hmark.trans (hctx.scan (some Mark.commentEnd) s (hmark.text.trans htext))

theorem styled_once : styled.SaysOnce text := by
  rintro macros ctx s t hctx htext hat ⟨⟩
  have hmark := (hat.goesOn (said s.nodes)).forward (Style.declarations s.cursor.rest).2
  exact hmark.trans (hctx.enclose (s := s.forward (Style.declarations s.cursor.rest).2) Mark.style
    _ (hmark.text.trans htext))

theorem address_once : address.SaysOnce text := by
  rintro macros ctx s t - - ⟨n, -, -, hfound, hcursor⟩ ⟨⟩
  have hword : s.found.Sublist (s.foundAt.rest.take n) := hfound ▸ List.Sublist.refl s.found
  have hsay := GoesOn.say hword (said s.nodes)
  simpa [Scanner.emit, Node.chars_element, hcursor] using hsay

theorem link_once : link.SaysOnce text := by
  refine whole_once _ _ _ _ fun text construct length store node hread hnode => ?_
  obtain ⟨⟨label, target?, n⟩, hlink, heq⟩ := Option.map_eq_some_iff.1 hread
  cases heq
  cases hnode
  simpa [Node.chars_element] using Construct.sublist_link hlink

theorem image_once : image.SaysOnce text := by
  refine whole_once _ _ _ _ fun text image length store node hread hnode => ?_
  have hsilent : node.chars = [] := by
    dsimp only at hnode
    split at hnode
    · cases hnode
      simp [Node.chars_element]
    · cases hnode
      simp [Node.chars_element]
  simp [hsilent]

end Standard

open Standard in
/-- **No standard formatter says anything twice**, in a text without macro calls and dashes. -/
theorem Formatters.standard_once (hcall : ¬ ['<', '<'] <:+: text) (hdash : ¬ ['-', '-'] <:+: text) :
    ∀ f ∈ Formatters.standard, f.SaysOnce text := by
  simp only [Formatters.standard, inOrder, List.forall_mem_cons]
  refine ⟨Table.formatter_once, fixed_once _ _ (by simp [Node.chars_element]), ?_, heading_once,
    ?_, ?_, comment_once, wrap_once _ _ _ _, Nesting.quotes_once, Nesting.lists_once, link_once,
    address_once, image_once, ?_, ?_, ?_, wrap_once _ _ _ _, wrap_once _ _ _ _, wrap_once _ _ _ _,
    wrap_once _ _ _ _, wrap_once _ _ _ _, wrap_once _ _ _ _, ?_, styled_once,
    fixed_once _ _ (by simp [Node.chars_element]), fun f hf => absurd hf List.not_mem_nil⟩
  case refine_1 =>
    exact fun macros ctx s t _ htext hat _ => absurd hat (Scanner.not_isAt_literal hdash htext)
  case refine_4 =>
    exact fun macros ctx s t _ htext hat _ => absurd hat (Scanner.not_isAt_literal hcall htext)
  case refine_2 =>
    refine whole_once _ _ _ _ fun text body length store node hread hnode => ?_
    cases hnode
    simpa [Node.chars_element] using Construct.sublist_preformatted hread
  case refine_3 =>
    refine whole_once _ _ _ _ fun text body length store node hread hnode => ?_
    cases hnode
    simpa [Node.chars_element] using Construct.sublist_slashedPreformatted hread
  case refine_5 | refine_7 =>
    refine whole_once _ _ _ _ fun text body length store node hread hnode => ?_
    cases hnode
    simpa [Node.chars_element] using Construct.sublist_enclosed hread
  case refine_6 =>
    exact whole_once _ _ _ _ fun text body length store node hread hnode => by cases hnode

/-! ### Runs and levels -/

namespace Kit

variable {kit : Kit}

theorem handled_once (hctx : ctx.SaysOnce text) {f : Formatter} (hf : f.SaysOnce text)
    (htext : s.foundAt.text = text) (hat : s.IsAt f.start) :
    GoesOn (said s.nodes) s.foundAt (said (kit.handled ctx f s).nodes)
      (kit.handled ctx f s).cursor := by
  obtain ⟨n, hpos, hstart, hfound, hcursor⟩ := hat
  rw [Kit.handled]
  split
  · simpa [Scanner.say, hcursor] using
      GoesOn.say (hfound ▸ List.Sublist.refl s.found) (said s.nodes)
  · rename_i t ht
    have hgoes := hf kit.macros ctx s t hctx htext ⟨n, hpos, hstart, hfound, hcursor⟩ ht
    split
    · exact hgoes
    · rename_i hle
      refine hgoes.skip ?_ ?_
      · rw [hcursor, Cursor.text_forward]
        exact hgoes.text.symm
      · rw [hcursor, Cursor.rest_forward, List.length_drop]
        omega

/-- What stands before the next mark is said, and nothing of the mark. -/
theorem find_once {stop : Option Pattern} {skipped : List Char} {hit : Hit}
    (h : kit.formatters.next? stop s.cursor.previous s.cursor.rest = some (skipped, hit)) :
    GoesOn (said s.nodes) s.cursor (said (s.find skipped hit.length).nodes)
      (s.find skipped hit.length).foundAt := by
  have hpre := (Formatters.next?_eq_some _ _ _ _ _ _ h).2.2
  have hword : skipped.Sublist (s.cursor.rest.take skipped.length) := by
    simp [← List.prefix_iff_eq_take.1 hpre]
  simpa [Scanner.find, Scanner.say] using GoesOn.say hword (said s.nodes)

/-- **A run says nothing twice** if what lies further in does not. -/
theorem run_once (hctx : ctx.SaysOnce text) (hkit : ∀ f ∈ kit.formatters, f.SaysOnce text)
    (stop : Option Pattern) (htext : s.cursor.text = text) :
    GoesOn (said s.nodes) s.cursor (said (kit.run ctx stop s).nodes) (kit.run ctx stop s).cursor ∧
      ((kit.run ctx stop s).cursor.rest = [] ∨ StopsOnce stop s (kit.run ctx stop s)) := by
  induction s using run_induction kit ctx stop with
  | none s hn =>
      rw [run_of_none hn]
      refine ⟨?_, .inl (by simp [Scanner.finish, Scanner.toEnd])⟩
      have hword : s.cursor.rest.Sublist (s.cursor.rest.take s.cursor.rest.length) := by simp
      simpa [Scanner.finish, Scanner.toEnd, Scanner.say, Cursor.toEnd] using
        GoesOn.say hword (said s.nodes)
  | stopped s skipped length hn =>
      rw [run_of_stop hn]
      have hfind := kit.find_once hn
      obtain ⟨p, hp, hpos, hmark⟩ := Formatters.stop_of_next? hn
      have hat : (s.find skipped length).IsAt p := ⟨length, hpos, hmark, rfl, rfl⟩
      exact ⟨hfind.trans (hat.goesOn _), .inr ⟨p, hp, hat, hfind⟩⟩
  | rule s skipped index f length hn ih =>
      rw [run_of_rule hn]
      have hfind := kit.find_once hn
      have hhandled := hfind.trans (kit.handled_once hctx (hkit f (Formatters.mem_of_next? hn))
        (hfind.text.trans htext) (Scanner.isAt_find hn))
      obtain ⟨hgoes, hend⟩ := ih (hhandled.text.trans htext)
      refine ⟨hhandled.trans hgoes, hend.imp_right ?_⟩
      rintro ⟨p, hp, hat, hstop⟩
      exact ⟨p, hp, hat, hhandled.trans hstop⟩

/-- **On every level nothing is said twice** if nothing is below all levels. -/
theorem contextOver_once (hkit : ∀ f ∈ kit.formatters, f.SaysOnce text) {deepest : Context}
    (hdeepest : deepest.SaysOnce text) (left : Nat) :
    (kit.contextOver deepest left).SaysOnce text := by
  induction left with
  | zero => exact hdeepest
  | succ left ih =>
      refine ⟨kit.contextOver_advances hdeepest.advances (left + 1), fun stop s htext => ?_,
        fun stop s htext => ?_⟩
      · exact (kit.run_once ih hkit stop (s := s.enter) htext).1
      · exact (kit.run_once ih hkit stop (s := s.enter) htext).2

/-- The render does not get to its limit: whatever were below all levels, it would come out the
same. -/
def WithinLimit (kit : Kit) (text : List Char) (page : Page) : Prop :=
  ∀ deepest, renderIn (kit.contextOver deepest kit.setting.config.maxDepth) text page =
    kit.render text page

/-- A context that says nothing. -/
def silent (setting : Setting) : Context where
  setting := setting
  scan _ s := s.toEnd
  render _ nodes page := .ok (nodes, page)

theorem silent_once (setting : Setting) (text : List Char) : (silent setting).SaysOnce text where
  advances _ _ := by simp [silent, Scanner.toEnd]
  scan _ _ _ := (GoesOn.refl _ _).forward _
  stops _ _ _ := .inl (by simp [silent, Scanner.toEnd])

/-! ### The levels that a text needs -/

/-- A run comes out the same if what lies further in agrees on what stands behind its marks. -/
theorem run_congr {c d : Context} {n : Nat} (hc : c.SaysOnce text)
    (honce : ∀ f ∈ kit.formatters, f.SaysOnce text)
    (hlooks : ∀ f ∈ kit.formatters, f.LooksBehind text) (hagree : c.AgreeBelow text n d)
    (stop : Option Pattern) (htext : s.cursor.text = text) (hle : s.cursor.rest.length ≤ n) :
    kit.run c stop s = kit.run d stop s := by
  induction s using run_induction kit c stop with
  | none s hn => rw [run_of_none hn, run_of_none hn]
  | stopped s skipped length hn => rw [run_of_stop hn, run_of_stop hn]
  | rule s skipped index f length hn ih =>
      have hf := Formatters.mem_of_next? hn
      have hat := Scanner.isAt_find hn
      have hfound : (s.find skipped length).foundAt.text = text :=
        (kit.find_once hn).text.trans htext
      have hfoundLe : (s.find skipped length).foundAt.rest.length ≤ n := by
        simp only [Scanner.find, Cursor.rest_forward, List.length_drop]
        omega
      have hmark : (s.find skipped length).cursor.rest.length <
          (s.find skipped length).foundAt.rest.length := by
        have hdrop := (Formatters.next?_eq_some _ _ _ _ _ _ hn)
        simp only [Scanner.find, Cursor.rest_forward, List.length_drop, Hit.length] at hdrop ⊢
        omega
      have hhandled : kit.handled c f (s.find skipped length) =
          kit.handled d f (s.find skipped length) := by
        simp only [handled, hlooks f hf kit.macros c d _ hc hfound hat hmark
          (hagree.mono hfoundLe)]
      have hgoes := kit.handled_once hc (honce f hf) hfound hat
      have hlt := length_rest_handled c hn
      rw [run_of_rule hn, run_of_rule hn, ← hhandled]
      exact ih (hgoes.text.trans hfound) (by omega)

/-- Where fewer characters are left than levels, it does not matter what is below all levels. -/
theorem contextOver_agree (honce : ∀ f ∈ kit.formatters, f.SaysOnce text)
    (hlooks : ∀ f ∈ kit.formatters, f.LooksBehind text) {c : Context} (hc : c.SaysOnce text)
    (d : Context) (left : Nat) :
    (kit.contextOver c left).AgreeBelow text left (kit.contextOver d left) := by
  induction left with
  | zero => exact fun _ s _ hlt => absurd hlt (Nat.not_lt_zero _)
  | succ left ih =>
      intro stop s htext hlt
      exact congrArg Scanner.leave (kit.run_congr (contextOver_once honce hc left) honce hlooks ih
        stop (s := s.enter) htext (Nat.le_of_lt_succ hlt))

/-- **A text is never deeper than it is long**: a render whose limit is greater than the length of
its text stays within it. -/
theorem withinLimit_of_length_lt (hstandard : kit.formatters = .standard) {page : Page}
    (hcall : ¬ ['<', '<'] <:+: text) (hdash : ¬ ['-', '-'] <:+: text)
    (hlength : text.length < kit.setting.config.maxDepth) : kit.WithinLimit text page := by
  obtain ⟨left, hleft⟩ := Nat.exists_eq_succ_of_ne_zero (Nat.ne_of_gt (Nat.zero_lt_of_lt hlength))
  have honce : ∀ f ∈ kit.formatters, f.SaysOnce text :=
    hstandard ▸ Formatters.standard_once hcall hdash
  have hlooks : ∀ f ∈ kit.formatters, f.LooksBehind text :=
    hstandard ▸ Formatters.standard_looksBehind hcall
  have hsilent := silent_once kit.setting text
  have hrender : ∀ d, renderIn (kit.contextOver (silent kit.setting) (left + 1)) text page =
      renderIn (kit.contextOver d (left + 1)) text page := by
    intro d
    have hrun := kit.run_congr (contextOver_once honce hsilent left) honce hlooks
      (contextOver_agree honce hlooks hsilent d left) none
      (s := Scanner.start text [] page.enter) rfl
      (Nat.le_of_lt_succ (hleft ▸ hlength))
    simp only [renderIn, contextOver, hrun]
  intro deepest
  rw [render, context, hleft, ← hrender deepest, ← hrender kit.bottom]

/-- **What a render says twice**: without macro calls and dashes, and within the limit, what is
shown is a part of the text in its order, but for its last character.  That is said again only if
it is one byte long and there is a table in the text. -/
theorem render_repeats (hstandard : kit.formatters = .standard) {page : Page}
    (hcall : ¬ ['<', '<'] <:+: text) (hdash : ¬ ['-', '-'] <:+: text)
    (hlimit : kit.WithinLimit text page) :
    ∃ extra, (∀ ch ∈ extra, Again text ch) ∧
      (Node.textContent (kit.render text page).1).toList.Sublist (text ++ extra) := by
  have hkit : ∀ f ∈ kit.formatters, f.SaysOnce text :=
    hstandard ▸ Formatters.standard_once hcall hdash
  rw [← hlimit (silent kit.setting)]
  cases kit.setting.config.maxDepth with
  | zero => exact ⟨[], by simp, by simp [renderIn, contextOver, silent, Node.textContent]⟩
  | succ left =>
      have hcontext := contextOver_once hkit (silent_once kit.setting text) left
      obtain ⟨-, extra, hextra, hsub⟩ := (run_once hcontext hkit none
        (s := Scanner.start text [] page.enter) rfl).1
      exact ⟨extra, hextra, (List.sublist_append_left _ _).trans hsub⟩

/-- A table whose one cell opens strong text and leaves it open. -/
def openCell : List Char := ['|', '\'', '\'', 'a', '|', '\n', 'x', 'y', 'z']

/-- The standard formatters, with no macros to call. -/
def plain : Kit where
  formatters := .standard
  macros := Dict.empty
  setting := { config := {}, keyStart := "", now := 0 }

/-- A page of an empty story. -/
def emptyPage : Page := { store := .ofRecords [], history := .start {}, jar := Dict.empty }

theorem render_repeats_openCell :
    plain.formatters = .standard ∧ ¬ ['<', '<'] <:+: openCell ∧ ¬ ['-', '-'] <:+: openCell ∧
      plain.WithinLimit openCell emptyPage ∧
      ∃ extra, (∀ ch ∈ extra, Again openCell ch) ∧
        (Node.textContent (plain.render openCell emptyPage).1).toList.Sublist
          (openCell ++ extra) := by
  have hlimit : plain.WithinLimit openCell emptyPage :=
    withinLimit_of_length_lt rfl (by decide) (by decide) (by decide)
  exact ⟨rfl, by decide, by decide, hlimit, render_repeats rfl (by decide) (by decide) hlimit⟩

/-- **The last character is said twice.**  The strong text runs past the bar to the end, and the
cell gives back what it takes for that bar. -/
theorem last_repeated :
    ¬ ['<', '<'] <:+: openCell ∧ ¬ ['-', '-'] <:+: openCell ∧
      plain.WithinLimit openCell emptyPage ∧
      Node.textContent (plain.render openCell emptyPage).1 = "a|xyzz" ∧
      ¬ (Node.textContent (plain.render openCell emptyPage).1).toList.Sublist openCell := by
  have hsaid : Node.textContent (plain.render openCell emptyPage).1 = "a|xyzz" := by
    decide +kernel
  refine ⟨by decide, by decide, withinLimit_of_length_lt rfl (by decide) (by decide) (by decide),
    hsaid, ?_⟩
  rw [hsaid]
  decide

end Kit

end Gamebook
