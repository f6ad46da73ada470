/-
**What two renders of one text have in common.**

Two renders of one text may start from different pages and still show the same.  A bond says which
pages go together, how the page of the first render may change, and which links it may show; a
macro or a formatter keeps the bond if it leads from pages that go together to pages that go
together and shows the same in both renders.  With one page for both renders, a bond speaks about
a single render.

Main definitions:

* `Bond` — a bond between two renders;
* `Page.IsLater`, `Bond.itself` — how a page may change, and the bond of a render with itself;
* `Bond.Shows` — the links of some nodes are allowed;
* `Bond.Joins`, `Bond.Moves`, `Bond.MovesWith` — a scanner that goes with a page of the other
  render, and a step of both renders from there;
* `Bond.Contexts`, `Bond.KeptByMacro`, `Bond.KeptBy` — contexts, macros and formatters that keep a
  bond;
* `Formatter.Transparent` — a formatter that keeps every bond.

Main results:

* `Bond.Contexts.scanInside`, `Bond.Contexts.renderHere` — what lies further in keeps the bond;
* `Bond.call_moves` — so does a macro call, whatever comes of it.
-/

import Gamebook.Render.Rule

set_option relaxedAutoImplicit false
set_option autoImplicit false

namespace Gamebook

/-- What ties two renders of one text together.  The first of them is looked at more closely. -/
structure Bond where
  /-- The settings of the two renders. -/
  settings : Setting → Setting → Prop
  /-- The pages of the two renders at one point of the text. -/
  pages : Page → Page → Prop
  /-- The page of the first render, before and after. -/
  later : Page → Page → Prop
  /-- The links that the first render may show with a page. -/
  link : Page → Link → Prop
  later_refl : ∀ p, later p p
  later_trans : ∀ {p q r}, later p q → later q r → later p r
  link_later : ∀ {p q l}, later p q → link p l → link q l
  store_eq : ∀ {p q}, pages p q → p.store = q.store
  link_passage : ∀ p title, link p (.passage title (!p.store.has title))
  link_external : ∀ p url, link p (.external url)

/-- A relation in which a page may stand to what it is later. -/
structure Page.IsLater (later : Page → Page → Prop) : Prop where
  refl : ∀ p, later p p
  trans : ∀ {p q r}, later p q → later q r → later p r

/-- The bond of a render with itself.  All that it says is how the page is later. -/
def Bond.itself (settings : Setting → Prop) (later : Page → Page → Prop) (h : Page.IsLater later) :
    Bond where
  settings σ τ := τ = σ ∧ settings σ
  pages p q := q = p
  later := later
  link _ _ := True
  later_refl := h.refl
  later_trans := h.trans
  link_later _ _ := trivial
  store_eq h := congrArg Page.store h.symm
  link_passage _ _ := trivial
  link_external _ _ := trivial

/-- Pages of one reading have the same passages. -/
theorem Page.store_eq {p q : Page} (h : q.store = p.store ∧ q.history = p.history) :
    p.store = q.store := h.1.symm

/-- The scanner with another page. -/
def Scanner.withPage (s : Scanner) (q : Page) : Scanner := { s with page := q }

namespace Scanner

variable (s : Scanner) (q : Page)

@[simp] theorem cursor_withPage : (s.withPage q).cursor = s.cursor := rfl

@[simp] theorem foundAt_withPage : (s.withPage q).foundAt = s.foundAt := rfl

@[simp] theorem found_withPage : (s.withPage q).found = s.found := rfl

@[simp] theorem nodes_withPage : (s.withPage q).nodes = s.nodes := rfl

@[simp] theorem page_withPage : (s.withPage q).page = q := rfl

end Scanner

namespace Bond

variable {B : Bond} {p q : Page} {s t u : Scanner}

/-! ### Links of nodes -/

/-- The links of a node are allowed. -/
def ShowsNode (B : Bond) (p : Page) (node : Node) : Prop := ∀ l ∈ Node.linksOf node, B.link p l

/-- The links of some nodes are allowed. -/
def Shows (B : Bond) (p : Page) (nodes : List Node) : Prop := ∀ node ∈ nodes, B.ShowsNode p node

theorem shows_iff {nodes : List Node} :
    B.Shows p nodes ↔ ∀ l ∈ Node.links nodes, B.link p l := by
  induction nodes with
  | nil => simp [Shows, Node.links]
  | cons node nodes ih =>
      rw [Shows] at ih ⊢
      simp only [List.forall_mem_cons, ih, Node.links, List.mem_append, or_imp, forall_and]
      rfl

@[simp] theorem shows_nil : B.Shows p [] := fun _ hn => absurd hn List.not_mem_nil

@[simp] theorem shows_cons {node : Node} {nodes : List Node} :
    B.Shows p (node :: nodes) ↔ B.ShowsNode p node ∧ B.Shows p nodes := List.forall_mem_cons

@[simp] theorem shows_reverse {nodes : List Node} :
    B.Shows p nodes.reverse ↔ B.Shows p nodes := by simp [Shows]

@[simp] theorem showsNode_text {text : String} : B.ShowsNode p (.text text) := by
  simp [ShowsNode, Node.linksOf]

@[simp] theorem showsNode_html {text : String} : B.ShowsNode p (.html text) := by
  simp [ShowsNode, Node.linksOf]

/-- An element shows its own link and those inside. -/
theorem showsNode_element {e : Element} {children : List Node} :
    B.ShowsNode p (.element e children) ↔
      (∀ l, e.target? = some l → B.link p l) ∧ B.Shows p children := by
  simp only [ShowsNode, Node.linksOf, List.mem_append, Option.mem_toList, or_imp, forall_and,
    shows_iff]

/-- An element that is no link shows the links inside. -/
theorem showsNode_plain {e : Element} {children : List Node} (he : e.target? = none)
    (h : B.Shows p children) : B.ShowsNode p (.element e children) :=
  showsNode_element.2 ⟨fun l hl => absurd (he.symm.trans hl) (by simp), h⟩

theorem showsNode_link {target : Link} {children : List Node} (hl : B.link p target)
    (h : B.Shows p children) : B.ShowsNode p (.element (.ofLink target) children) := by
  refine showsNode_element.2 ⟨fun l ht => ?_, h⟩
  rw [Element.target?, Element.ofLink] at ht
  cases ht
  exact hl

@[simp] theorem showsNode_error {message : String} : B.ShowsNode p (Node.error message) :=
  showsNode_plain rfl (shows_cons.2 ⟨showsNode_plain rfl (by simp), shows_nil⟩)

theorem ShowsNode.later {node : Node} (h : B.ShowsNode p node) (hpq : B.later p q) :
    B.ShowsNode q node := fun l hl => B.link_later hpq (h l hl)

theorem Shows.later {nodes : List Node} (h : B.Shows p nodes) (hpq : B.later p q) :
    B.Shows q nodes := fun node hn => (h node hn).later hpq

/-- Text has no links. -/
theorem Shows.addText {nodes : List Node} (h : B.Shows p nodes) (text : List Char) :
    B.Shows p (Node.addText text nodes) := by
  unfold Node.addText
  split
  · exact h
  · rw [shows_cons] at h ⊢
    exact ⟨showsNode_text, h.2⟩
  · rw [shows_cons]
    exact ⟨showsNode_text, h⟩

/-! ### Steps of both renders -/

/-- A scanner of the first render that goes with a page of the second. -/
structure Joins (B : Bond) (s : Scanner) (q : Page) : Prop where
  pages : B.pages s.page q
  shows : B.Shows s.page s.nodes

/-- A step of both renders: the first one goes from `s` to `t`, and the second one to `u`. -/
def Moves (B : Bond) (s t u : Scanner) : Prop :=
  ∃ q, u = t.withPage q ∧ B.Joins t q ∧ B.later s.page t.page

/-- A step of both renders that yields something besides, the same in both, of which `P` holds. -/
def MovesWith {α : Type} (B : Bond) (P : Page → α → Prop) (s : Scanner) (t u : α × Scanner) :
    Prop :=
  ∃ q, u = (t.1, t.2.withPage q) ∧ B.Joins t.2 q ∧ P t.2.page t.1 ∧ B.later s.page t.2.page

/-- A macro call in both renders: what goes wrong is the same. -/
def Ends (B : Bond) (s : Scanner) (t u : Scanner × Option MacroError) : Prop :=
  u.2 = t.2 ∧ B.Moves s t.1 u.1

/-- A step of both renders that both may decline. -/
def MovesOrDeclines (B : Bond) (s : Scanner) : Option Scanner → Option Scanner → Prop
  | none, none => True
  | some t, some u => B.Moves s t u
  | _, _ => False

/-- The outcome of rendering another text in both renders, on page `p` in the first. -/
def Renders (B : Bond) (p : Page) :
    Except MacroError (List Node × Page) → Except MacroError (List Node × Page) → Prop
  | .error e, .error e' => e = e'
  | .ok (nodes, p'), .ok (nodes', q') =>
      nodes = nodes' ∧ B.pages p' q' ∧ B.Shows p' nodes ∧ B.later p p'
  | _, _ => False

theorem Joins.refl (h : B.Joins s q) : B.Moves s s (s.withPage q) :=
  ⟨q, rfl, h, B.later_refl _⟩

theorem Joins.turn {p' q' : Page} (h : B.Joins s q) (hp : B.pages p' q')
    (hl : B.later s.page p') : B.Joins { s with page := p' } q' := ⟨hp, h.shows.later hl⟩

theorem Moves.after {r : Scanner} (h : B.Moves s t u) (hl : B.later r.page s.page) :
    B.Moves r t u := by
  obtain ⟨q, hu, hj, hst⟩ := h
  exact ⟨q, hu, hj, B.later_trans hl hst⟩

theorem Ends.after {r : Scanner} {x y : Scanner × Option MacroError} (h : B.Ends s x y)
    (hl : B.later r.page s.page) : B.Ends r x y := ⟨h.1, h.2.after hl⟩

theorem MovesWith.after {α : Type} {P : Page → α → Prop} {r : Scanner} {x y : α × Scanner}
    (h : B.MovesWith P s x y) (hl : B.later r.page s.page) : B.MovesWith P r x y := by
  obtain ⟨q, hy, hj, hP, hsx⟩ := h
  exact ⟨q, hy, hj, hP, B.later_trans hl hsx⟩

/-- A step that only moves the cursor. -/
theorem Joins.move (h : B.Joins s q) (ht : t.page = s.page) (hn : t.nodes = s.nodes) :
    B.Joins t q := by
  refine ⟨?_, ?_⟩
  · rw [ht]
    exact h.pages
  · rw [ht, hn]
    exact h.shows

theorem Joins.say (h : B.Joins s q) (text : List Char) : B.Joins (s.say text) q :=
  ⟨h.pages, h.shows.addText text⟩

theorem Joins.emit (h : B.Joins s q) {node : Node} (hn : B.ShowsNode s.page node) :
    B.Joins (s.emit node) q := ⟨h.pages, shows_cons.2 ⟨hn, h.shows⟩⟩

/-! ### Contexts, macros and formatters -/

/-- Contexts that keep a bond. -/
structure Contexts (B : Bond) (c d : Context) : Prop where
  settings : B.settings c.setting d.setting
  scan : ∀ stop s q, B.Joins s q → B.Moves s (c.scan stop s) (d.scan stop (s.withPage q))
  render : ∀ text nodes p q, B.pages p q → B.Shows p nodes →
    B.Renders p (c.render text nodes p) (d.render text nodes q)

/-- A macro keeps a bond: it goes on alike in both renders. -/
def KeptByMacro (B : Bond) (m : Macro) : Prop :=
  ∀ c d call s q, B.Contexts c d → B.Joins s q →
    B.Ends s (m.run c call s) (m.run d call (s.withPage q))

/-- All macros of a table keep a bond. -/
def KeptByMacros (B : Bond) (macros : Macros) : Prop :=
  ∀ name m, macros.get? name = some m → B.KeptByMacro m

/-- A formatter keeps a bond, whatever macros keep it. -/
def KeptBy (B : Bond) (f : Formatter) : Prop :=
  ∀ macros c d s q, B.KeptByMacros macros → B.Contexts c d → B.Joins s q →
    B.MovesOrDeclines s (f.handle macros c s) (f.handle macros d (s.withPage q))

variable {c d : Context}

/-- What stands inside an element keeps the bond. -/
theorem Contexts.scanInside (h : B.Contexts c d) (stop : Pattern) (inside : List Node)
    (hj : B.Joins s q) (hin : B.Shows s.page inside) :
    B.MovesWith B.Shows s (c.scanInside stop inside s)
      (d.scanInside stop inside (s.withPage q)) := by
  have hinner : B.Joins { s with nodes := inside } q := ⟨hj.pages, hin⟩
  obtain ⟨q', hu, hj', hl⟩ := h.scan (some stop) _ _ hinner
  refine ⟨q', ?_, ⟨hj'.pages, hj.shows.later hl⟩, hj'.shows, hl⟩
  have hd : d.scan (some stop) { s.withPage q with nodes := inside } =
      (c.scan (some stop) { s with nodes := inside }).withPage q' := hu
  simp only [Context.scanInside, hd]
  rfl

/-- Rendering another text in place keeps the bond. -/
theorem Contexts.renderHere (h : B.Contexts c d) (text : List Char) (hj : B.Joins s q) :
    B.Ends s (c.renderHere text s) (d.renderHere text (s.withPage q)) := by
  have hr := h.render text s.nodes s.page q hj.pages hj.shows
  simp only [Context.renderHere, Scanner.nodes_withPage, Scanner.page_withPage]
  cases hc : c.render text s.nodes s.page with
  | error e =>
      cases hd : d.render text s.nodes q with
      | error e' =>
          rw [hc, hd] at hr
          cases hr
          exact ⟨rfl, hj.refl⟩
      | ok r => simp [hc, hd, Renders] at hr
  | ok r =>
      cases hd : d.render text s.nodes q with
      | error e' => simp [hc, hd, Renders] at hr
      | ok r' =>
          rw [hc, hd] at hr
          obtain ⟨hn, hp, hs, hl⟩ := hr
          refine ⟨rfl, r'.2, ?_, ⟨hp, hs⟩, hl⟩
          simp [Scanner.withPage, hn]

/-- A macro call keeps the bond, whatever comes of it. -/
theorem call_moves {macros : Macros} (hm : B.KeptByMacros macros) (h : B.Contexts c d)
    (call : MacroCall) (hj : B.Joins s q) :
    B.Moves s (macros.call c call s) (macros.call d call (s.withPage q)) := by
  unfold Macros.call
  cases hget : macros.get? call.name with
  | none =>
      have hnode : B.ShowsNode s.page (Node.marked ("macro not found: " ++ call.name)) :=
        showsNode_plain rfl (by simp)
      exact ⟨q, rfl, hj.emit hnode, B.later_refl _⟩
  | some m =>
      obtain ⟨he, q', hu, hj', hl⟩ := hm _ _ hget c d call s q h hj
      simp only
      generalize m.run c call s = r at he hu hj' hl ⊢
      generalize m.run d call (s.withPage q) = r' at he hu ⊢
      obtain ⟨t, e⟩ := r
      obtain ⟨u, e'⟩ := r'
      obtain rfl : e' = e := he
      obtain rfl : u = t.withPage q' := hu
      cases e' with
      | none => exact ⟨q', rfl, hj', hl⟩
      | some e => exact ⟨q', rfl, hj'.emit showsNode_error, hl⟩

end Bond

/-- The formatter changes the page through contexts and macros only, and makes no links but those to
passages and out of the story. -/
def Formatter.Transparent (f : Formatter) : Prop := ∀ B : Bond, B.KeptBy f

end Gamebook
