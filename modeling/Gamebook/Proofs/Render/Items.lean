/-
**Levels and kinds of list items.**

List items are read one after another like quoted lines, and each is put into the innermost list
that is open.  There are always as many lists around an item as it has signs.  Of which kind they
are is another matter: a list keeps the kind of the line that opened it, and only an item on the
same level as the one before it is ever moved to a list of another kind.

Main definitions:

* `Line.item`, `Line.itemPlaces` — an item, and where the items of a row of lines lie;
* `Line.Opens`, `Line.opener` — the line that opened a list which is open at another line;
* `Line.openers` — lines, each with the one that opened the list it lies in.

Main results:

* `Nesting.readItems_places` — **items are read one after another**, each into the innermost list;
* `Line.itemPlaces_eq` — **the list around an item is of the kind of its opener**;
* `Line.sign_opener_iff` — which items lie in lists of their own kind.
-/

import Gamebook.Proofs.Render.Lines

set_option relaxedAutoImplicit false
set_option autoImplicit false

namespace Gamebook

/-! ### Reading items -/

namespace Line

/-- The item that shows a line of a list. -/
def item (l : Line) : Node := .element { tag := .listItem } l.shown

/-- The items of lines, each with the kinds of the lists around it.  `latest` is the kind of the
line before, and `kinds` are those of the lists that are open. -/
def itemPlaces (latest : Option Tag) (kinds : List Tag) : List Line → List (List Tag × Node)
  | [] => []
  | l :: lines =>
      let kinds := Nesting.enterKinds l.sign.tag l.level latest kinds
      (kinds, l.item) :: itemPlaces (some l.sign.tag) kinds lines

theorem isList_tag {l : Line} (h : l.sign ≠ .quote) : Tag.isList l.sign.tag = true := by
  cases hsign : l.sign with
  | quote => exact absurd hsign h
  | bullet => rfl
  | number => rfl

variable {final : Bool} {l : Line} {lines : List Line} {previous : Option Char}

theorem bullets_of_bullet (h : l.sign = .bullet) (hprevious : Pattern.startsLine previous = true) :
    Mark.bullets previous (sources final (l :: lines)) = some l.level := run_marks h hprevious

theorem numbers_of_number (h : l.sign = .number) (hprevious : Pattern.startsLine previous = true) :
    Mark.numbers previous (sources final (l :: lines)) = some l.level := run_marks h hprevious

theorem bullets_of_number (h : l.sign = .number) :
    Mark.bullets previous (sources final (l :: lines)) = none := by
  obtain ⟨rest, hsources⟩ := l.exists_sources final lines
  rw [hsources, h]
  exact (Pattern.startsIn_run '*').onLine '#' (by decide) rest previous

/-- An item starts with marks of a list, as many as it lies deep. -/
theorem listItem_marks (hl : l.sign ≠ .quote) (hprevious : Pattern.startsLine previous = true) :
    Mark.listItem previous (sources final (l :: lines)) = some l.level := by
  rw [Mark.listItem, Pattern.orElse]
  cases hsign : l.sign with
  | quote => exact absurd hsign hl
  | bullet => rw [bullets_of_bullet hsign hprevious]
  | number => rw [bullets_of_number hsign, numbers_of_number hsign hprevious]

end Line

namespace Nesting

open Line (behind sources Reaches itemPlaces)
open Node (places placesOf)

variable {final : Bool} {l : Line} {lines : List Line} {s : Scanner} {frames : List Frame}

/-- The marks of an item tell its kind and its level. -/
theorem itemAt?_line (hl : l.sign ≠ .quote) (hrest : s.cursor.rest = sources final (l :: lines))
    (hprevious : Pattern.startsLine s.cursor.previous = true) :
    itemAt? s.cursor = some (l.sign.tag, l.level) := by
  rw [itemAt?, hrest]
  cases hsign : l.sign with
  | quote => exact absurd hsign hl
  | bullet =>
      rw [Line.bullets_of_bullet hsign hprevious]
      rfl
  | number =>
      rw [Line.bullets_of_number hsign, Line.numbers_of_number hsign hprevious]
      rfl

/-- **An item is put into the innermost list**, and the lists around it are those that it enters. -/
theorem readItem_places (latest : Option Tag) {kit : Kit}
    (hformatters : kit.formatters = .standard) (left : Nat)
    (hl : l.sign ≠ .quote) (hframes : ∀ f ∈ frames, Tag.isList f.tag = true)
    (hrest : s.cursor.rest = sources final (l :: lines)) :
    ∃ frames' t, readItem (kit.context (left + 1)) l.sign.tag l.level latest frames s =
        (frames', t) ∧
      (∀ f ∈ frames', Tag.isList f.tag = true) ∧ Reaches final lines s t ∧
      frames'.map Frame.tag = enterKinds l.sign.tag l.level latest (frames.map Frame.tag) ∧
      held Tag.isList frames' t.nodes = held Tag.isList frames s.nodes ++
        [(enterKinds l.sign.tag l.level latest (frames.map Frame.tag), l.item)] := by
  have hheld := held_enterItem l.sign.tag l.level latest hframes s.nodes
  have hkinds := kinds_enterItem l.sign.tag l.level latest frames s.nodes
  have hlists : ∀ f ∈ (enterItem l.sign.tag l.level latest frames s.nodes).1,
      Tag.isList f.tag = true :=
    ((encloses_stack Tag.isList).enterItem (Line.isList_tag hl) l.level latest hframes trivial).1
  generalize henter : enterItem l.sign.tag l.level latest frames s.nodes = entered
    at hheld hkinds hlists
  obtain ⟨opened, nodes⟩ := entered
  have hletters : ({ s.forward l.level with nodes := nodes } : Scanner).cursor.rest =
      l.letters ++ behind final lines := by
    change s.cursor.rest.drop l.level = _
    rw [hrest, l.drop_marks]
  obtain ⟨t, hscan, hnodes, hreaches⟩ := Line.scanInside_letters hformatters left l hletters []
  have hempty : ∀ s more, ([] : List Node) ≠ .text s :: more := fun _ _ h => nomatch h
  have hshown : Node.addText l.letters [] = l.shown := by
    rw [l.addText_letters hempty, List.append_nil]
  have hput : held Tag.isList (put l.item opened nodes).1 (put l.item opened nodes).2 =
      held Tag.isList opened nodes ++ [(opened.map Frame.tag, l.item)] :=
    held_put l.item opened nodes
  have htags : (put l.item opened nodes).1.map Frame.tag = opened.map Frame.tag := by
    cases opened <;> rfl
  refine ⟨(put l.item opened nodes).1, { t with nodes := (put l.item opened nodes).2 }, ?_, ?_,
    ⟨hreaches.page, hreaches.rest, hreaches.previous⟩, htags.trans hkinds, ?_⟩
  · simp only [readItem, henter, hscan, hshown, l.reverse_shown, hnodes]
    rfl
  · intro f hf
    have hmem : f.tag ∈ (put l.item opened nodes).1.map Frame.tag := List.mem_map_of_mem hf
    rw [htags] at hmem
    obtain ⟨g, hg, htag⟩ := List.mem_map.1 hmem
    exact htag ▸ hlists g hg
  · rw [hput, hheld, hkinds]

/-- **Items are read one after another**, to the end. -/
theorem readItems_places (latest : Option Tag) {kit : Kit}
    (hformatters : kit.formatters = .standard) (left : Nat)
    (hlines : ∀ l ∈ lines, Line.sign l ≠ .quote) (hframes : ∀ f ∈ frames, Tag.isList f.tag = true)
    (hrest : s.cursor.rest = sources final lines)
    (hprevious : lines ≠ [] → Pattern.startsLine s.cursor.previous = true) :
    places Tag.isList [] (readItems (kit.context (left + 1)) latest frames s).nodes.reverse =
        held Tag.isList frames s.nodes ++ itemPlaces latest (frames.map Frame.tag) lines ∧
      (readItems (kit.context (left + 1)) latest frames s).page = s.page ∧
      (readItems (kit.context (left + 1)) latest frames s).cursor.rest = [] := by
  -- at every line the lists that are open hold all lines before it
  induction lines generalizing latest frames s with
  | nil =>
      have hnone : itemAt? s.cursor = none := by
        rw [itemAt?, hrest]
        simp [sources, Mark.bullets, Mark.numbers, Pattern.onLine, Pattern.run]
      rw [readItems_of_none hnone]
      refine ⟨?_, rfl, hrest⟩
      rw [places_closeAll hframes, itemPlaces, List.append_nil]
  | cons l lines ih =>
      obtain ⟨hl, hlines⟩ := List.forall_mem_cons.1 hlines
      have hitem := itemAt?_line hl hrest (hprevious (List.cons_ne_nil _ _))
      obtain ⟨frames', t, hread, hframes', hreaches, hkinds, hheld⟩ :=
        readItem_places latest hformatters left hl hframes hrest
      obtain ⟨hplaces, hpage, hend⟩ := ih (some l.sign.tag) hlines hframes' hreaches.rest
        hreaches.previous
      rw [readItems_of_some (kit.context_advances _) hitem, hread]
      refine ⟨?_, hpage.trans hreaches.page, hend⟩
      rw [hplaces, hheld, hkinds, List.append_assoc]
      rfl

end Nesting

/-! ### The line that opened a list -/

namespace Line

open Nesting (goToKinds enterKinds)

/-- A line behind `p` opens a list on a level: `p` is not that deep, or both are just that deep and
of different kinds. -/
def Opens (level : Nat) (l p : Line) : Prop :=
  p.level < level ∨ (p.level = level ∧ l.level = level ∧ p.sign ≠ l.sign)

instance (level : Nat) (l p : Line) : Decidable (l.Opens level p) :=
  inferInstanceAs (Decidable (_ ∨ _))

/-- The line that opened the list which is open on a level at `l`, the latest line that opened one
there.  `earlier` are the lines before `l`, the latest first. -/
def opener (level : Nat) (l : Line) : List Line → Line
  | [] => l
  | p :: earlier => if l.Opens level p then l else opener level p earlier

/-- Lines, each behind the one that opened the list it lies in.  `earlier` are the lines before
them, the latest first. -/
def openers (earlier : List Line) : List Line → List (Line × Line)
  | [] => []
  | l :: lines => (l.opener l.level earlier, l) :: openers (l :: earlier) lines

/-- The kinds on the levels up to one, the innermost first. -/
def kindsUpTo (kind : Nat → Tag) : Nat → List Tag
  | 0 => []
  | level + 1 => kind (level + 1) :: kindsUpTo kind level

/-- The kinds of the lists that are open behind some lines, the latest of them first. -/
def kindsAfter : List Line → List Tag
  | [] => []
  | p :: earlier => kindsUpTo (fun level => (p.opener level earlier).sign.tag) p.level

variable {kind kind' : Nat → Tag}

theorem kindsUpTo_congr {level : Nat} (h : ∀ k, 0 < k → k ≤ level → kind k = kind' k) :
    kindsUpTo kind level = kindsUpTo kind' level := by
  induction level with
  | zero => rfl
  | succ level ih =>
      rw [kindsUpTo, kindsUpTo, h _ (Nat.succ_pos _) (Nat.le_refl _),
        ih fun k hpos hle => h k hpos (Nat.le_succ_of_le hle)]

theorem length_kindsUpTo (kind : Nat → Tag) (level : Nat) :
    (kindsUpTo kind level).length = level := by
  induction level with
  | zero => rfl
  | succ level ih => rw [kindsUpTo, List.length_cons, ih]

theorem drop_kindsUpTo (kind : Nat → Tag) (level more : Nat) :
    (kindsUpTo kind (level + more)).drop more = kindsUpTo kind level := by
  induction more with
  | zero => rfl
  | succ more ih => rw [← Nat.add_assoc, kindsUpTo, List.drop_succ_cons, ih]

theorem kindsUpTo_add {tag : Tag} {level more : Nat}
    (h : ∀ k, level < k → k ≤ level + more → kind k = tag) :
    kindsUpTo kind (level + more) = List.replicate more tag ++ kindsUpTo kind level := by
  induction more with
  | zero => rfl
  | succ more ih =>
      rw [← Nat.add_assoc, kindsUpTo, List.replicate_succ, List.cons_append,
        ih fun k hlt hle => h k hlt (Nat.le_succ_of_le hle), h _ (by omega) (by omega)]

theorem tag_ne_iff {p l : Line} : some p.sign.tag ≠ some l.sign.tag ↔ p.sign ≠ l.sign := by
  cases p.sign <;> cases l.sign <;> decide

/-- On the levels of the line before, other lines are the openers. -/
theorem opener_of_not {level : Nat} {l p : Line} (h : ¬ l.Opens level p) (earlier : List Line) :
    l.opener level (p :: earlier) = p.opener level earlier := if_neg h

theorem opener_of {level : Nat} {l p : Line} (h : l.Opens level p) (earlier : List Line) :
    l.opener level (p :: earlier) = l := if_pos h

/-- Up to a level on which a line opens no list the kinds are those of the line before. -/
theorem kindsUpTo_opener {level : Nat} {l p : Line} (earlier : List Line)
    (h : ∀ k, 0 < k → k ≤ level → ¬ l.Opens k p) :
    kindsUpTo (fun k => (l.opener k (p :: earlier)).sign.tag) level =
      kindsUpTo (fun k => (p.opener k earlier).sign.tag) level :=
  kindsUpTo_congr fun k hpos hle => by rw [opener_of_not (h k hpos hle)]

/-- **At a line lists are opened and closed** as its openers tell. -/
theorem enterKinds_kindsAfter (l : Line) (earlier : List Line) :
    enterKinds l.sign.tag l.level (earlier.head?.map fun p => p.sign.tag) (kindsAfter earlier) =
      kindsAfter (l :: earlier) := by
  have hpos := l.level_pos
  cases earlier with
  | nil =>
      have hall : kindsUpTo (fun _ => l.sign.tag) (0 + l.level) =
          List.replicate l.level l.sign.tag ++ [] := kindsUpTo_add fun _ _ _ => rfl
      rw [Nat.zero_add] at hall
      rw [enterKinds, if_neg fun h => absurd h.1 (Nat.ne_of_gt hpos), goToKinds]
      exact (if_pos hpos).trans hall.symm
  | cons p earlier =>
      rw [List.head?_cons, Option.map_some, kindsAfter, kindsAfter, enterKinds, goToKinds,
        length_kindsUpTo]
      rcases Nat.lt_trichotomy p.level l.level with hlt | heq | hgt
      · -- on the levels that are new the line itself opens the lists
        obtain ⟨more, hmore⟩ := Nat.exists_eq_add_of_le (Nat.le_of_lt hlt)
        rw [if_neg fun h => absurd h.1 (Nat.ne_of_gt hlt), if_pos hlt, hmore,
          Nat.add_sub_cancel_left, kindsUpTo_add fun k hlow _ => by rw [opener_of (.inl hlow)],
          kindsUpTo_opener earlier fun k _ hle h => by rcases h with h | h <;> omega]
      · by_cases hsign : p.sign = l.sign
        · rw [if_neg fun h => tag_ne_iff.1 h.2 hsign, if_neg (Nat.not_lt.2 (Nat.le_of_eq heq.symm)),
            heq, Nat.sub_self, List.drop_zero, kindsUpTo_opener earlier]
          rintro k - hle (h | h)
          · omega
          · exact h.2.2 hsign
        · -- the list of the line before is closed, and the line opens one in its place
          obtain ⟨outer, houter⟩ := Nat.exists_eq_succ_of_ne_zero (Nat.ne_of_gt hpos)
          rw [if_pos ⟨heq.symm, tag_ne_iff.2 hsign⟩, heq, houter, kindsUpTo, List.drop_one,
            List.tail_cons, kindsUpTo, opener_of (.inr ⟨heq.trans houter, houter, hsign⟩),
            kindsUpTo_opener earlier fun k _ hle h => by rcases h with h | h <;> omega]
      · obtain ⟨more, hmore⟩ := Nat.exists_eq_add_of_le (Nat.le_of_lt hgt)
        rw [if_neg fun h => absurd h.1 (Nat.ne_of_lt hgt), if_neg (Nat.lt_asymm hgt), hmore,
          Nat.add_sub_cancel_left, drop_kindsUpTo]
        exact (kindsUpTo_opener earlier fun k _ hle h => by rcases h with h | h <;> omega).symm

/-- **The innermost list around an item is of the kind of its opener**, and as many lists are around
it as it has signs. -/
theorem itemPlaces_eq (earlier lines : List Line) :
    (itemPlaces (earlier.head?.map fun p => p.sign.tag) (kindsAfter earlier) lines).map
        (fun place => (place.1.head?, place.2)) =
      (openers earlier lines).map fun (o, l) => (some o.sign.tag, l.item) := by
  induction lines generalizing earlier with
  | nil => rfl
  | cons l lines ih =>
      obtain ⟨outer, houter⟩ := Nat.exists_eq_succ_of_ne_zero (Nat.ne_of_gt l.level_pos)
      have hhead : (kindsAfter (l :: earlier)).head? =
          some (l.opener l.level earlier).sign.tag := by
        rw [kindsAfter, houter, kindsUpTo, List.head?_cons]
      rw [itemPlaces, enterKinds_kindsAfter, openers, List.map_cons, List.map_cons, hhead]
      exact congrArg _ (ih (l :: earlier))

theorem length_itemPlaces (latest : Option Tag) (kinds : List Tag) (lines : List Line) :
    (itemPlaces latest kinds lines).map (fun place => (place.1.length, place.2)) =
      lines.map fun l => (l.level, l.item) := by
  induction lines generalizing latest kinds with
  | nil => rfl
  | cons l lines ih =>
      rw [itemPlaces, List.map_cons, List.map_cons, Nesting.length_enterKinds _ l.level_pos, ih]

/-! ### Lists of the own kind -/

/-- A line lies in a list of its own kind. -/
def IsOwn (l : Line) (earlier : List Line) : Prop := (l.opener l.level earlier).sign = l.sign

/-- A line comes back to a list of its kind, if it comes back to any at all. -/
def ReturnsOwn (l : Line) : List Line → Prop
  | [] => True
  | p :: earlier => l.level < p.level → (p.opener l.level earlier).sign = l.sign

/-- Behind a line that lies in a list of its kind, another one does unless it comes back to a list
of the other kind. -/
theorem isOwn_iff {l : Line} {earlier : List Line}
    (h : ∀ p more, earlier = p :: more → p.IsOwn more) :
    l.IsOwn earlier ↔ l.ReturnsOwn earlier := by
  cases earlier with
  | nil => exact iff_of_true rfl trivial
  | cons p earlier =>
      have hp := h p earlier rfl
      rw [IsOwn, ReturnsOwn]
      by_cases hopens : l.Opens l.level p
      · rw [opener_of hopens]
        refine iff_of_true rfl fun hlt => ?_
        rcases hopens with h | h <;> omega
      · rw [opener_of_not hopens]
        rcases Nat.lt_trichotomy p.level l.level with hlt | heq | hgt
        · exact absurd (.inl hlt) hopens
        · -- the line before lies in the same list, and is of the same kind
          have hsign : p.sign = l.sign := by
            by_contra hne
            exact hopens (.inr ⟨heq, rfl, hne⟩)
          rw [IsOwn, heq, hsign] at hp
          exact iff_of_true hp fun hlt => absurd heq (Nat.ne_of_gt hlt)
        · exact ⟨fun hown _ => hown, fun hown => hown hgt⟩

/-- **Items lie in lists of their own kinds** just when every line does so as its opener tells. -/
theorem openers_eq_iff (earlier lines : List Line) :
    ((openers earlier lines).map fun (o, l) => (some o.sign.tag, l.item)) =
        (lines.map fun l => (some l.sign.tag, l.item)) ↔
      ∀ before l after, lines = before ++ l :: after → l.IsOwn (before.reverse ++ earlier) := by
  induction lines generalizing earlier with
  | nil => exact iff_of_true rfl fun before l after h => by cases before <;> cases h
  | cons l lines ih =>
      have hhead : some (l.opener l.level earlier).sign.tag = some l.sign.tag ↔ l.IsOwn earlier :=
        not_iff_not.1 tag_ne_iff
      have hpair : (some (l.opener l.level earlier).sign.tag, l.item) = (some l.sign.tag, l.item) ↔
          l.IsOwn earlier := by
        rw [Prod.mk.injEq, hhead, and_iff_left rfl]
      rw [openers, List.map_cons, List.map_cons, List.cons_eq_cons, hpair, ih]
      constructor
      · rintro ⟨hown, hlines⟩ before l' after h
        rcases List.cons_eq_append_iff.1 h with ⟨rfl, h⟩ | ⟨before, rfl, h⟩
        · cases h
          exact hown
        · rw [List.reverse_cons, List.append_assoc]
          exact hlines before l' after (List.cons.inj h).2
      · intro h
        refine ⟨h [] l lines rfl, fun before l' after hsplit => ?_⟩
        have hown := h (l :: before) l' after (congrArg (l :: ·) hsplit)
        rwa [List.reverse_cons, List.append_assoc] at hown

/-- **All lines lie in lists of their own kinds just when all that come back do.** -/
theorem forall_isOwn_iff (lines : List Line) :
    (∀ before l after, lines = before ++ l :: after → l.IsOwn before.reverse) ↔
      ∀ before l after, lines = before ++ l :: after → l.ReturnsOwn before.reverse := by
  constructor
  · intro hown before l after h
    refine (isOwn_iff fun p more hp => ?_).1 (hown before l after h)
    rw [List.reverse_eq_cons_iff] at hp
    rw [hp, List.append_assoc] at h
    exact List.reverse_reverse more ▸ hown more.reverse p (l :: after) h
  · intro hreturns before
    induction before using List.reverseRecOn with
    | nil =>
        exact fun l after _ =>
          (isOwn_iff fun p more h => absurd h.symm (List.cons_ne_nil p more)).2 trivial
    | append_singleton before p ih =>
        intro l after h
        refine (isOwn_iff fun p' more hp => ?_).2 (hreturns _ l after h)
        rw [List.reverse_append, List.reverse_singleton, List.singleton_append] at hp
        cases hp
        exact ih p (l :: after) (h.trans (List.append_assoc _ _ _))

end Line

end Gamebook
