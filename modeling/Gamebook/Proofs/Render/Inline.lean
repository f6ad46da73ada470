/-
**Formats of characters are rendered by one pass.**

The scanner has no stack: at a mark it calls itself, and the scan inside waits for the same mark.
What it does is the pass of `Inline.Pass` all the same.  A scan that waits for a mark stands for a
point of the pass at which an element of that format is the innermost one, and it ends where the
pass has closed that element.

Main definitions:

* `Inline.isCharacter` — the characters of words, spaces and signs;
* `Inline.Format.formatter`, `Inline.Format.pattern` — the formatter of a format and its mark;
* `Inline.Follows` — from one scanner to another the pass was followed;
* `Inline.Ready` — a scan stands at a point of the pass, with levels for what it opens.

Main results:

* `Inline.hit?_plain`, `Inline.hit?_stop`, `Inline.hit?_mark` — what stands at a point of such a
  text: nothing, the mark that is waited for, or another mark;
* `Inline.run_follows` — **a scan follows the pass**, as long as there are levels for its elements;
* `Story.render_inline` — **rendering such a text gives the nodes of the pass**, which say the text
  without its marks.
-/

import Gamebook.Proofs.Macro.Calls
import Gamebook.Proofs.Markup.Inline
import Gamebook.Story.Basic

set_option relaxedAutoImplicit false
set_option autoImplicit false

namespace Gamebook

namespace Inline

variable {c : Char} {text rest : List Char} {f g : Format} {stop : Option Format}

/-! ### Marks in a text of words, spaces and signs -/

/-- A character of words, a space, or a sign. -/
def isCharacter (c : Char) : Bool :=
  Program.isLetter c || c == ' ' || (Format.ofSign? c).isSome

/-- The formatter of a format. -/
def Format.formatter : Format → Formatter
  | strong => Standard.strong
  | strike => Standard.strike
  | underline => Standard.underline
  | emphasis => Standard.emphasis
  | subscript => Standard.subscript
  | superscript => Standard.superscript

/-- The mark of a format. -/
def Format.pattern (f : Format) : Pattern := Pattern.literal [f.sign, f.sign]

theorem Format.formatter_eq (f : Format) :
    f.formatter = Standard.wrap f.formatter.name f.pattern f.pattern f.tag := by cases f <;> rfl

open Standard Pattern in
/-- No mark of another kind stands in such a text. -/
theorem absent_others (h : ∀ d ∈ c :: text, isCharacter d = true) :
    ∀ f ∈ inOrder.take 16 ++ inOrder.drop 22, f.start.Absent (c :: text) := by
  have hnot : ∀ {m : Char}, isCharacter m = false → m ∉ c :: text := by
    intro m hm hin
    rw [h m hin] at hm
    cases hm
  have hlit : ∀ {m : Char} {mark : List Char}, m ∈ mark → isCharacter m = false →
      (literal mark).Absent (c :: text) := fun hin hm =>
    absent_literal (isPrefixOf_of_notMem hin (hnot hm))
  have hcolon : ':' ∉ (c :: text).takeWhile (· != '<') := fun hin =>
    hnot (m := ':') (by decide) ((List.takeWhile_sublist _).subset hin)
  cases hsign : Format.ofSign? c with
  | some f =>
      -- the sign of a format is the first character of three other marks, if it is a slash
      cases Format.sign_of_ofSign? hsign
      have hpart : firsts.take 16 ++ firsts.drop 22 ⊆ firsts :=
        List.append_subset.2 ⟨List.take_subset 16 firsts, List.drop_subset 22 firsts⟩
      refine Formatters.absent_of_suspects hpart ?_
      cases f with
      | emphasis =>
          exact List.forall_mem_cons.2 ⟨(hlit (m := '{') (by decide) (by decide)).onLine,
            List.forall_mem_cons.2 ⟨(hlit (m := '*') (by decide) (by decide)).onLine,
              List.forall_mem_singleton.2 (hlit (m := '%') (by decide) (by decide))⟩⟩
      | _ => exact fun f hf => absurd hf List.not_mem_nil
  | none =>
      have hletter : (Program.isLetter c || c == ' ') = true := by
        simpa [isCharacter, hsign] using h c List.mem_cons_self
      have hc : c ∉ signs :=
        notMem_signs (p := fun c => Program.isLetter c || c == ' ') (by decide +kernel) hletter
      intro f hf
      refine Formatters.absent_plain hc hcolon f ?_
      rcases List.mem_append.1 hf with hf | hf
      · exact List.mem_of_mem_take hf
      · exact List.mem_of_mem_drop hf

/-- A mark stands in front of a text or it does not. -/
theorem pattern_eq (f : Format) (previous : Option Char) (text : List Char) :
    f.pattern previous text = if [f.sign, f.sign].isPrefixOf text then some 2 else none := rfl

theorem pattern_absent (h : Alone c rest) (f : Format) :
    f.pattern.Absent (c :: rest) := by
  refine Pattern.absent_literal ?_
  rw [Bool.eq_false_iff]
  intro hbegins
  obtain ⟨tail, htail⟩ := List.isPrefixOf_iff_prefix.1 hbegins
  cases htail
  have hmark := h f.sign tail rfl
  rw [mark?_sign] at hmark
  cases hmark

/-- At a mark no other one stands. -/
theorem pattern_absent_of_ne (h : g ≠ f) (rest : List Char) :
    g.pattern.Absent (f.sign :: f.sign :: rest) :=
  Pattern.absent_literal (Pattern.isPrefixOf_of_ne (fun heq => h (Format.sign_inj heq)) _ _)

theorem start_formatter (f : Format) : f.formatter.start = f.pattern := by cases f <;> rfl

/-- The table: formatters of other kinds, those of the formats, and others again. -/
theorem inOrder_eq : Standard.inOrder =
    Standard.inOrder.take 16 ++ (Format.all.map Format.formatter ++ Standard.inOrder.drop 22) := rfl

/-- At a character that begins no mark nothing stands. -/
theorem hit?_plain (h : ∀ d ∈ c :: rest, isCharacter d = true)
    (hmark : Alone c rest) (previous : Option Char) :
    Formatters.standard.hit? (stop.map Format.pattern) previous (c :: rest) = none := by
  refine Formatters.hit?_of_absent (fun p hp => ?_) (fun f hf => ?_) previous
  · obtain ⟨g, -, rfl⟩ := Option.map_eq_some_iff.1 hp
    exact pattern_absent hmark g
  · have hothers := absent_others h
    rw [Formatters.standard, inOrder_eq] at hf
    rcases List.mem_append.1 hf with hf | hf
    · exact hothers f (List.mem_append_left _ hf)
    · rcases List.mem_append.1 hf with hf | hf
      · obtain ⟨g, -, rfl⟩ := List.mem_map.1 hf
        exact start_formatter g ▸ pattern_absent hmark g
      · exact hothers f (List.mem_append_right _ hf)

/-- The mark that is waited for comes first. -/
theorem hit?_stop (f : Format) (previous : Option Char) (rest : List Char) :
    Formatters.standard.hit? (some f.pattern) previous (f.sign :: f.sign :: rest) =
      some (.stop 2) := by
  have hmark : f.pattern.nonempty? previous (f.sign :: f.sign :: rest) = some 2 := by
    simp [Pattern.nonempty?, pattern_eq]
  simp [Formatters.hit?, hmark]

theorem hitFrom?_formats {fs : List Format} (hf : f ∈ fs) (others : Formatters) (index : Nat)
    (previous : Option Char) (rest : List Char) :
    ∃ i, Formatters.hitFrom? index previous (f.sign :: f.sign :: rest)
      (fs.map Format.formatter ++ others) = some (.rule i f.formatter 2) := by
  induction fs generalizing index with
  | nil => exact absurd hf List.not_mem_nil
  | cons g fs ih =>
      rw [List.map_cons, List.cons_append, Formatters.hitFrom?, start_formatter]
      by_cases hg : g = f
      · subst hg
        refine ⟨index, ?_⟩
        have hmark : g.pattern.nonempty? previous (g.sign :: g.sign :: rest) = some 2 := by
          simp [Pattern.nonempty?, pattern_eq]
        rw [hmark]
      · have hnone : g.pattern.nonempty? previous (f.sign :: f.sign :: rest) = none := by
          rw [Pattern.nonempty?, pattern_absent_of_ne hg rest previous]
          rfl
        rw [hnone]
        exact ih ((List.mem_cons.1 hf).resolve_left fun heq => hg heq.symm) (index + 1)

/-- At any other mark its formatter takes over. -/
theorem hit?_mark (hstop : stop ≠ some f)
    (h : ∀ d ∈ f.sign :: f.sign :: rest, isCharacter d = true) (previous : Option Char) :
    ∃ i, Formatters.standard.hit? (stop.map Format.pattern) previous (f.sign :: f.sign :: rest) =
      some (.rule i f.formatter 2) := by
  have hwaited : ((stop.map Format.pattern).bind fun p =>
      p.nonempty? previous (f.sign :: f.sign :: rest)) = none := by
    cases stop with
    | none => rfl
    | some g =>
        have hg : g ≠ f := fun heq => hstop (heq ▸ rfl)
        simp [Pattern.nonempty?, pattern_absent_of_ne hg rest previous]
  have hothers : ∀ f' ∈ Standard.inOrder.take 16,
      f'.start.Absent (f.sign :: f.sign :: rest) := fun f' hf' =>
    absent_others h f' (List.mem_append_left _ hf')
  rw [Formatters.hit?, hwaited, Formatters.standard, inOrder_eq,
    Formatters.hitFrom?_append hothers]
  exact hitFrom?_formats f.mem_all _ _ _ _

/-! ### A scan and the pass -/

/-- From one scanner to another the pass was followed, from `p` with the nodes of the first one in
its innermost element up to where that element is closed. -/
structure Follows (p : Pass) (s t : Scanner) : Prop where
  page : t.page = s.page
  suffix : t.cursor.rest <:+ s.cursor.rest
  result : (p.withInside s.nodes).result (pieces s.cursor.rest) =
    (p.withInside t.nodes).leave.result (pieces t.cursor.rest)
  deepest : (p.withInside t.nodes).leave.deepest (pieces t.cursor.rest) ≤
    (p.withInside s.nodes).deepest (pieces s.cursor.rest)

section Following

variable {kit : Kit} {p : Pass} {s t : Scanner}

/-- At the end of the text all elements are closed. -/
theorem follows_end (ctx : Context) (pattern : Option Pattern) (h : s.cursor.rest = []) :
    Follows p s (kit.run ctx pattern s) := by
  have hnext : kit.formatters.next? pattern s.cursor.previous s.cursor.rest = none := by
    rw [h]
    rfl
  have hnodes : (kit.run ctx pattern s).nodes = s.nodes := by
    rw [Kit.run_of_none hnext]
    change Node.addText s.cursor.rest s.nodes = s.nodes
    rw [h]
    rfl
  have hrest : (kit.run ctx pattern s).cursor.rest = [] := by
    rw [Kit.run_of_none hnext]
    exact Cursor.rest_toEnd _
  refine ⟨by rw [Kit.run_of_none hnext]; rfl, hrest ▸ List.nil_suffix, ?_, ?_⟩
  · rw [hnodes, hrest, h]
    exact (Pass.finish_leave _).symm
  · rw [hnodes, hrest, h]
    exact Pass.length_frames_leave _

/-- One step of the pass in front of others. -/
theorem Follows.of_step {s' : Scanner} {piece : Piece} (hpage : s'.page = s.page)
    (hpieces : pieces s.cursor.rest = piece :: pieces s'.cursor.rest)
    (hsuffix : s'.cursor.rest <:+ s.cursor.rest)
    (hstep : (p.withInside s.nodes).step piece = p.withInside s'.nodes)
    (h : Follows p s' t) : Follows p s t where
  page := h.page.trans hpage
  suffix := h.suffix.trans hsuffix
  result := by rw [← h.result, Pass.result, hpieces, List.foldl_cons, hstep, Pass.result]
  deepest := by
    rw [hpieces]
    exact Nat.le_trans h.deepest (hstep ▸ Pass.deepest_step_le _ _ _)

/-- A character that begins no mark is said. -/
theorem follows_plain (hformatters : kit.formatters = .standard) {ctx : Context}
    (hrest : s.cursor.rest = c :: rest) (hchars : ∀ d ∈ c :: rest, isCharacter d = true)
    (hmark : Alone c rest)
    (h : Follows p ((s.say [c]).forward 1)
      (kit.run ctx (stop.map Format.pattern) ((s.say [c]).forward 1))) :
    Follows p s (kit.run ctx (stop.map Format.pattern) s) := by
  have hhit : kit.formatters.hit? (stop.map Format.pattern) s.cursor.previous (c :: rest) = none :=
    hformatters ▸ hit?_plain hchars hmark s.cursor.previous
  have hbehind := Scanner.rest_behind_character hrest
  have hpage : ((s.say [c]).forward 1).page = s.page := rfl
  have hpieces : pieces s.cursor.rest =
      .plain c :: pieces ((s.say [c]).forward 1).cursor.rest := by
    rw [hrest, hbehind, pieces_plain hmark]
  have hsuffix : ((s.say [c]).forward 1).cursor.rest <:+ s.cursor.rest := by
    rw [hrest, hbehind]
    exact List.suffix_cons c rest
  rw [Kit.run_letter hrest hhit]
  exact h.of_step hpage hpieces hsuffix (Pass.step_plain c)

/-- A scan ends at the mark that it waits for, and there the pass closes its element. -/
theorem follows_stop (hformatters : kit.formatters = .standard) {ctx : Context}
    (hrest : s.cursor.rest = f.sign :: f.sign :: rest) (hp : p.innermost? = some f.tag) :
    Follows p s (kit.run ctx (some f.pattern) s) := by
  have hnext : kit.formatters.next? (some f.pattern) s.cursor.previous s.cursor.rest =
      some ([], .stop 2) := by
    rw [hrest, hformatters, Formatters.next?, hit?_stop]
  have hbehind : (s.find [] 2).cursor.rest = rest := by
    change s.cursor.rest.drop 2 = rest
    rw [hrest]
    rfl
  have hstep : (p.withInside s.nodes).step (.mark f) = (p.withInside s.nodes).leave :=
    Pass.step_leave (by rw [Pass.innermost?_withInside, hp])
  have hpieces : pieces s.cursor.rest = .mark f :: pieces rest := by rw [hrest, pieces_mark]
  rw [Kit.run_of_stop hnext]
  refine ⟨rfl, ?_, ?_, ?_⟩
  · rw [hbehind, hrest]
    exact (List.suffix_cons _ rest).trans (List.suffix_cons _ _)
  · rw [hbehind, hpieces, Pass.result, List.foldl_cons, hstep]
    rfl
  · rw [hbehind, hpieces]
    exact hstep ▸ Pass.deepest_step_le _ _ _

/-- The scanner inside an element that is opened at a mark. -/
def opened (s : Scanner) : Scanner := { s.find [] 2 with nodes := [] }.enter

theorem rest_opened (hrest : s.cursor.rest = f.sign :: f.sign :: rest) :
    (opened s).cursor.rest = rest := by
  change s.cursor.rest.drop 2 = rest
  rw [hrest]
  rfl

/-- The scanner behind an element, from the one at the end of what lies inside it. -/
def behind (f : Format) (s inner : Scanner) : Scanner :=
  { inner.leave with nodes := .element { tag := f.tag } inner.nodes.reverse :: s.nodes }

/-- At another mark an element is read, one level further in. -/
theorem run_mark (hformatters : kit.formatters = .standard) {left : Nat}
    (hrest : s.cursor.rest = f.sign :: f.sign :: rest)
    (hchars : ∀ d ∈ f.sign :: f.sign :: rest, isCharacter d = true) (hstop : stop ≠ some f)
    (hsuffix : (kit.run (kit.context left) (some f.pattern) (opened s)).cursor.rest <:+ rest) :
    kit.run (kit.context (left + 1)) (stop.map Format.pattern) s =
      kit.run (kit.context (left + 1)) (stop.map Format.pattern)
        (behind f s (kit.run (kit.context left) (some f.pattern) (opened s))) := by
  obtain ⟨i, hhit⟩ := hit?_mark hstop hchars s.cursor.previous
  have hhandle : f.formatter.handle kit.macros (kit.context (left + 1)) (s.find [] 2) =
      some (behind f s (kit.run (kit.context left) (some f.pattern) (opened s))) := by
    rw [Format.formatter_eq]
    rfl
  have hlt : (kit.run (kit.context left) (some f.pattern) (opened s)).cursor.rest.length <
      s.cursor.rest.length := by
    have hle := hsuffix.length_le
    rw [hrest]
    simp only [List.length_cons]
    omega
  exact Kit.run_of_hit hrest (by rw [hformatters, hhit]) hhandle hlt

/-- What was followed inside an element, and then behind it, was followed from its mark on. -/
theorem Follows.enclose {inner : Scanner} (hrest : s.cursor.rest = f.sign :: f.sign :: rest)
    (hp : p.innermost? ≠ some f.tag)
    (hin : Follows ((p.withInside s.nodes).enter f) (opened s) inner)
    (hbehind : Follows p (behind f s inner) t) : Follows p s t := by
  have hinside := rest_opened hrest
  have hpieces : pieces s.cursor.rest = .mark f :: pieces rest := by rw [hrest, pieces_mark]
  have hstep : (p.withInside s.nodes).step (.mark f) = (p.withInside s.nodes).enter f :=
    Pass.step_enter (by rwa [Pass.innermost?_withInside])
  have hempty : ((p.withInside s.nodes).enter f).withInside (opened s).nodes =
      (p.withInside s.nodes).enter f := rfl
  have hresult := hin.result
  have hdeepest := hin.deepest
  rw [Pass.leave_enter, hempty, hinside] at hresult hdeepest
  refine ⟨?_, ?_, ?_, ?_⟩
  · rw [hbehind.page]
    change inner.page.leave = s.page
    rw [hin.page]
    rfl
  · refine hbehind.suffix.trans (hin.suffix.trans ?_)
    rw [hinside, hrest]
    exact (List.suffix_cons _ rest).trans (List.suffix_cons _ _)
  · rw [← hbehind.result, Pass.result, hpieces, List.foldl_cons, hstep]
    exact hresult
  · refine Nat.le_trans hbehind.deepest (Nat.le_trans hdeepest ?_)
    rw [hpieces]
    exact hstep ▸ Pass.deepest_step_le _ _ _

/-- A scan stands at a point of the pass: it waits for the mark that closes the innermost element, and
has levels left for all that is going to be open. -/
structure Ready (p : Pass) (stop : Option Format) (left : Nat) (s : Scanner) : Prop where
  innermost : p.innermost? = stop.map Format.tag
  chars : ∀ c ∈ s.cursor.rest, isCharacter c = true
  levels : (p.withInside s.nodes).deepest (pieces s.cursor.rest) ≤ p.frames.length + left

namespace Ready

variable {left : Nat}

theorem ne_innermost (h : Ready p stop left s) (hstop : stop ≠ some f) :
    p.innermost? ≠ some f.tag := by
  rw [h.innermost]
  intro heq
  obtain ⟨g, hg, htag⟩ := Option.map_eq_some_iff.1 heq
  exact hstop (Format.tag_inj htag ▸ hg)

/-- Behind a character that begins no mark. -/
theorem said (h : Ready p stop left s) (hrest : s.cursor.rest = c :: rest) (hmark : Alone c rest) :
    Ready p stop left ((s.say [c]).forward 1) := by
  have hbehind := Scanner.rest_behind_character hrest
  refine ⟨h.innermost, fun d hd => ?_, ?_⟩
  · rw [hbehind] at hd
    exact h.chars d (hrest ▸ List.mem_cons_of_mem c hd)
  · have hlevels := h.levels
    rw [hrest, pieces_plain hmark] at hlevels
    have hstep := Nat.le_trans (Pass.deepest_step_le _ _ _) hlevels
    rwa [Pass.step_plain, ← hbehind] at hstep

/-- At a mark that opens an element the levels are enough for what is inside. -/
theorem levels_enter (h : Ready p stop left s) (hrest : s.cursor.rest = f.sign :: f.sign :: rest)
    (hstop : stop ≠ some f) :
    ((p.withInside s.nodes).enter f).deepest (pieces rest) ≤ p.frames.length + left := by
  have hlevels := h.levels
  have hstep : (p.withInside s.nodes).step (.mark f) = (p.withInside s.nodes).enter f :=
    Pass.step_enter (by rw [Pass.innermost?_withInside]; exact h.ne_innermost hstop)
  rw [hrest, pieces_mark] at hlevels
  exact hstep ▸ Nat.le_trans (Pass.deepest_step_le _ _ _) hlevels

/-- Inside an element that is opened at a mark, with one level less. -/
theorem opened (h : Ready p stop left s) (hrest : s.cursor.rest = f.sign :: f.sign :: rest)
    (hstop : stop ≠ some f) : ∃ below, left = below + 1 ∧
      Ready ((p.withInside s.nodes).enter f) (some f) below (opened s) := by
  have hlevels := h.levels_enter hrest hstop
  have hinside := rest_opened hrest
  have hlength : ((p.withInside s.nodes).enter f).frames.length = p.frames.length + 1 :=
    congrArg (· + 1) Pass.length_frames_withInside
  -- the element is open at once, so there is a level for it
  have hopen := Nat.le_trans (Pass.length_frames_le_deepest _ _) hlevels
  obtain ⟨below, rfl⟩ := Nat.exists_eq_add_of_le' (show 1 ≤ left by omega)
  refine ⟨below, rfl, rfl, fun d hd => ?_, ?_⟩
  · rw [hinside] at hd
    exact h.chars d (hrest ▸ List.mem_cons_of_mem _ (List.mem_cons_of_mem _ hd))
  · rw [hinside, hlength]
    exact Nat.le_trans hlevels (by omega)

/-- Behind an element, with all its levels again. -/
theorem behind {inner : Scanner} (h : Ready p stop left s)
    (hrest : s.cursor.rest = f.sign :: f.sign :: rest) (hstop : stop ≠ some f)
    (hin : Follows ((p.withInside s.nodes).enter f) (Inline.opened s) inner) :
    Ready p stop left (behind f s inner) := by
  have hsuffix := hin.suffix
  have hdeepest := hin.deepest
  rw [rest_opened hrest] at hsuffix
  rw [Pass.leave_enter, rest_opened hrest] at hdeepest
  refine ⟨h.innermost, fun d hd => ?_, ?_⟩
  · exact h.chars d
      (hrest ▸ List.mem_cons_of_mem _ (List.mem_cons_of_mem _ (hsuffix.subset hd)))
  · exact Nat.le_trans hdeepest (h.levels_enter hrest hstop)

end Ready

/-- **A scan follows the pass**, as long as there are levels for the elements that it opens. -/
theorem run_follows (hformatters : kit.formatters = .standard) {left : Nat}
    (h : Ready p stop left s) :
    Follows p s (kit.run (kit.context left) (stop.map Format.pattern) s) := by
  -- the element at a mark is read by a scan of its own, so there are two shorter texts to think of:
  -- the one inside, with one level less, and what is left behind it
  induction hn : s.cursor.rest.length using Nat.strongRecOn generalizing p stop left s with
  | ind n ih =>
      subst hn
      cases hrest : s.cursor.rest with
      | nil => exact follows_end _ _ hrest
      | cons c rest =>
          have hchars := h.chars
          rw [hrest] at hchars
          by_cases hmark : Alone c rest
          · refine follows_plain hformatters hrest hchars hmark (ih _ ?_ (h.said hrest hmark) rfl)
            rw [Scanner.rest_behind_character hrest, hrest]
            exact Nat.lt_succ_self _
          · obtain ⟨f, tail, rfl, rfl⟩ := exists_mark hmark
            by_cases hstop : stop = some f
            · subst hstop
              exact follows_stop hformatters hrest h.innermost
            · obtain ⟨below, rfl, hopened⟩ := h.opened hrest hstop
              have hinside := rest_opened hrest
              have hshorter : (opened s).cursor.rest.length < s.cursor.rest.length := by
                rw [hinside, hrest]
                exact Nat.lt_succ_of_lt (Nat.lt_succ_self _)
              have hin := ih _ hshorter hopened rfl
              have hsuffix := hin.suffix
              rw [hinside] at hsuffix
              rw [Option.map_some] at hin hsuffix
              rw [run_mark hformatters hrest hchars hstop hsuffix]
              have hbehind := h.behind hrest hstop hin
              refine hin.enclose hrest (h.ne_innermost hstop) (ih _ ?_ hbehind rfl)
              exact Nat.lt_of_le_of_lt (hin.suffix.length_le) hshorter

end Following

/-- **Rendering a text follows the pass** from its beginning to its end. -/
theorem render_eq_tree {kit : Kit} (hformatters : kit.formatters = .standard)
    (hchars : ∀ c ∈ text, isCharacter c = true)
    (hdepth : nesting text < kit.setting.config.maxDepth) (page : Page) :
    kit.render text page = (tree text, page) := by
  obtain ⟨left, hleft⟩ := Nat.exists_eq_add_of_lt hdepth
  have hbound : nesting text ≤ 0 + (nesting text + left) := by omega
  have hready : Ready {} none (nesting text + left) (.start text [] page.enter) :=
    ⟨rfl, hchars, hbound⟩
  obtain ⟨hpage, -, hresult, -⟩ := run_follows hformatters hready
  rw [Option.map_none] at hpage hresult
  rw [Kit.rest_run] at hresult
  have hrender : (kit.context (nesting text + left + 1)).render text [] page =
      .ok ((kit.run (kit.context (nesting text + left)) none (.start text [] page.enter)).nodes,
        (kit.run (kit.context (nesting text + left)) none
          (.start text [] page.enter)).page.leave) := rfl
  rw [Kit.render, Kit.renderIn, hleft, hrender, hpage]
  exact congrArg (·, page) hresult.symm

end Inline

namespace Story

/-- **Rendering a text of words, spaces and signs gives the nodes of the pass**, and changes
nothing, as long as its elements lie less deep inside one another than the limit allows.  What is
shown says the text without its marks. -/
theorem render_inline (s : Story) (hformatters : s.formatters = .standard) (text : List Char)
    (hchars : ∀ c ∈ text, Inline.isCharacter c = true)
    (hdepth : Inline.nesting text < s.config.maxDepth) :
    s.render (String.ofList text) = (Inline.tree text, [], s) ∧
      Node.textContent (Inline.tree text) = String.ofList (Inline.letters text) := by
  have hrender : s.kit.render text s.page = (Inline.tree text, s.page) :=
    Inline.render_eq_tree hformatters hchars hdepth s.page
  refine ⟨?_, Inline.textContent_tree text⟩
  rw [render, String.toList_ofList, hrender]
  rfl

/-- A story in which elements may lie eight deep inside one another. -/
def attic : Story := new (.ofRecords []) { maxDepth := 9 } .empty {} 0

/-- Marks that are crossed, doubled and left open. -/
def tangle : List Char := "''one//two ''three// four'' ==''''^'^^ _five__".toList

/-- The text of the tangle is shown, and all elements that are open at its end are closed there. -/
theorem render_inline_tangle :
    attic.formatters = .standard ∧ (∀ c ∈ tangle, Inline.isCharacter c = true) ∧
      Inline.nesting tangle < attic.config.maxDepth ∧
      attic.render (String.ofList tangle) = (Inline.tree tangle, [], attic) ∧
      Node.textContent (Inline.tree tangle) = String.ofList (Inline.letters tangle) := by
  have hchars : ∀ c ∈ tangle, Inline.isCharacter c = true :=
    List.all_eq_true.1 (by decide +kernel)
  have hdepth : Inline.nesting tangle < attic.config.maxDepth := by decide +kernel
  exact ⟨rfl, hchars, hdepth, render_inline attic rfl tangle hchars hdepth⟩

example : Inline.letters tangle = "onetwo three four ^' _five".toList := by decide +kernel

end Story

end Gamebook
