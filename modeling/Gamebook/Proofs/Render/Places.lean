/-
**Where the nodes of a tree lie.**

Quotations and lists only enclose what they hold.  If they are looked through, a tree is a row of
other nodes, each of which lies inside so many of them.  The same can be said of elements that are
still open: closing them moves nothing, and what is put into the innermost one lies inside all of
them.

Main definitions:

* `Tag.isList`, `Node.places` — the kinds of lists, and the nodes of a tree, each with the kinds of
  the elements around it;
* `Nesting.held` — the nodes in front of some open elements and in them;
* `Nesting.goToKinds`, `Nesting.enterKinds` — the kinds of the elements that are open at a line.

Main results:

* `Node.encloses_of_places` — what lies outermost;
* `Nesting.places_closeAll`, `Nesting.held_goTo`, `Nesting.held_enterItem` — **opening and closing
  moves nothing**;
* `Nesting.held_put` — what is put into the innermost element comes last.
-/

import Gamebook.Proofs.Render.Tidy

set_option relaxedAutoImplicit false
set_option autoImplicit false

namespace Gamebook

/-- The kinds of lists. -/
def Tag.isList : Tag → Bool
  | .unorderedList => true
  | .orderedList => true
  | _ => false

/-! ### Nodes -/

namespace Node

mutual

/-- The nodes of a tree where elements of some kinds are looked through, each with the kinds of
those around it, the innermost first.  `around` are the kinds around the tree. -/
def placesOf (encloses : Tag → Bool) (around : List Tag) : Node → List (List Tag × Node)
  | text s => [(around, text s)]
  | html s => [(around, html s)]
  | element e children =>
      if encloses e.tag then places encloses (e.tag :: around) children
      else [(around, element e children)]

/-- The nodes of a row of trees, in the order in which they are read. -/
def places (encloses : Tag → Bool) (around : List Tag) : List Node → List (List Tag × Node)
  | [] => []
  | node :: nodes => placesOf encloses around node ++ places encloses around nodes

end

variable {encloses : Tag → Bool} {around : List Tag}

theorem places_append (left right : List Node) :
    places encloses around (left ++ right) =
      places encloses around left ++ places encloses around right := by
  induction left with
  | nil => rfl
  | cons node nodes ih => rw [List.cons_append, places, ih, places, List.append_assoc]

theorem places_singleton (node : Node) :
    places encloses around [node] = placesOf encloses around node := by
  rw [places, places, List.append_nil]

/-- **If every node has other elements around it, all that is outermost encloses.** -/
theorem encloses_of_places {nodes : List Node}
    (h : ∀ p ∈ places encloses around nodes, p.1 ≠ around) :
    ∀ node ∈ nodes, ∃ e children, node = element e children ∧ encloses e.tag = true := by
  induction nodes with
  | nil => exact fun node hnode => absurd hnode List.not_mem_nil
  | cons node nodes ih =>
      rw [places] at h
      refine List.forall_mem_cons.2 ⟨?_, ih fun p hp => h p (List.mem_append_right _ hp)⟩
      have hnode := fun p hp => h p (List.mem_append_left _ hp)
      cases node with
      | text s => exact absurd rfl (hnode _ (List.mem_singleton.2 rfl))
      | html s => exact absurd rfl (hnode _ (List.mem_singleton.2 rfl))
      | element e children =>
          refine ⟨e, children, rfl, ?_⟩
          by_contra hother
          rw [placesOf, if_neg hother] at hnode
          exact hnode _ (List.mem_singleton.2 rfl) rfl

end Node

/-! ### Open elements -/

namespace Nesting

open Node (places placesOf places_append places_singleton)

variable {encloses : Tag → Bool} {frames : List Frame} {nodes : List Node} {tag : Tag}

/-- The nodes in front of some open elements and in them, each with the kinds of the elements around
it. -/
def held (encloses : Tag → Bool) : List Frame → List Node → List (List Tag × Node)
  | [], nodes => places encloses [] nodes.reverse
  | frame :: frames, nodes =>
      held encloses frames nodes ++
        places encloses (frame.tag :: frames.map Frame.tag) frame.content.reverse

theorem placesOf_toNode {frame : Frame} (h : encloses frame.tag = true) (around : List Tag) :
    placesOf encloses around frame.toNode =
      places encloses (frame.tag :: around) frame.content.reverse := by
  rw [Frame.toNode, placesOf, if_pos h]

theorem held_closeOne (h : ∀ f ∈ frames, encloses f.tag = true) (nodes : List Node) :
    held encloses (closeOne frames nodes).1 (closeOne frames nodes).2 =
      held encloses frames nodes := by
  match frames with
  | [] => rfl
  | [frame] =>
      rw [closeOne, held, List.reverse_cons, places_append, places_singleton,
        placesOf_toNode (h frame List.mem_cons_self)]
      rfl
  | frame :: outer :: frames =>
      rw [closeOne, held, List.reverse_cons, places_append, places_singleton,
        placesOf_toNode (h frame List.mem_cons_self), ← List.append_assoc]
      rfl

/-- Elements that enclose stay such when others are opened and closed. -/
theorem encloses_stack (encloses : Tag → Bool) :
    Stacks (fun f => encloses f.tag = true) (fun _ => True) where
  inner _ houter := houter
  outermost _ _ := trivial

theorem held_close (count : Nat) (h : ∀ f ∈ frames, encloses f.tag = true) (nodes : List Node) :
    held encloses (close count frames nodes).1 (close count frames nodes).2 =
      held encloses frames nodes := by
  induction count generalizing frames nodes with
  | zero => rfl
  | succ count ih =>
      have hrest : ∀ f ∈ (closeOne frames nodes).1, encloses f.tag = true :=
        ((encloses_stack encloses).closeOne h trivial).1
      rw [close, ih hrest, held_closeOne h]

/-- **Closing all elements moves nothing.** -/
theorem places_closeAll (h : ∀ f ∈ frames, encloses f.tag = true) (nodes : List Node) :
    places encloses [] (closeAll frames nodes).reverse = held encloses frames nodes := by
  have hlength := length_close frames.length frames nodes
  rw [Nat.sub_self, List.length_eq_zero_iff] at hlength
  rw [← held_close frames.length h, hlength]
  rfl

theorem held_openTags (tag : Tag) (count : Nat) (frames : List Frame) (nodes : List Node) :
    held encloses (openTags tag count frames) nodes = held encloses frames nodes := by
  induction count with
  | zero => rfl
  | succ count ih =>
      rw [openTags, List.replicate_succ, List.cons_append, held]
      exact (List.append_nil _).trans ih

theorem held_goTo (tag : Tag) (level : Nat) (h : ∀ f ∈ frames, encloses f.tag = true)
    (nodes : List Node) :
    held encloses (goTo tag level frames nodes).1 (goTo tag level frames nodes).2 =
      held encloses frames nodes := by
  rw [goTo]
  split
  · exact held_openTags tag _ frames nodes
  · exact held_close _ h nodes

theorem held_enterItem (tag : Tag) (level : Nat) (latest : Option Tag)
    (h : ∀ f ∈ frames, encloses f.tag = true) (nodes : List Node) :
    held encloses (enterItem tag level latest frames nodes).1
        (enterItem tag level latest frames nodes).2 = held encloses frames nodes := by
  rw [enterItem]
  split
  · dsimp only
    rw [held_openTags, held_close 1 h]
  · exact held_goTo tag level h nodes

/-- **What is put into the innermost element comes last**, and all that are open are around it. -/
theorem held_put (node : Node) (frames : List Frame) (nodes : List Node) :
    held encloses (put node frames nodes).1 (put node frames nodes).2 =
      held encloses frames nodes ++ placesOf encloses (frames.map Frame.tag) node := by
  cases frames with
  | nil => rw [put, held, List.reverse_cons, places_append, places_singleton]; rfl
  | cons frame frames =>
      rw [put, held, List.reverse_cons, places_append, places_singleton, ← List.append_assoc]
      rfl

/-! ### The kinds of the elements that are open -/

/-- The kinds of the elements that are open after going to a level, from those before. -/
def goToKinds (tag : Tag) (level : Nat) (kinds : List Tag) : List Tag :=
  if kinds.length < level then List.replicate (level - kinds.length) tag ++ kinds
  else kinds.drop (kinds.length - level)

/-- The kinds of the lists that are open at an item. -/
def enterKinds (tag : Tag) (level : Nat) (latest : Option Tag) (kinds : List Tag) : List Tag :=
  if level = kinds.length ∧ latest ≠ some tag then tag :: kinds.drop 1
  else goToKinds tag level kinds

theorem kinds_closeOne (frames : List Frame) (nodes : List Node) :
    (closeOne frames nodes).1.map Frame.tag = (frames.map Frame.tag).drop 1 := by
  match frames with
  | [] => rfl
  | [frame] => rfl
  | frame :: outer :: frames => rfl

theorem kinds_close (count : Nat) (frames : List Frame) (nodes : List Node) :
    (close count frames nodes).1.map Frame.tag = (frames.map Frame.tag).drop count := by
  induction count generalizing frames nodes with
  | zero => rfl
  | succ count ih =>
      rw [close, ih, kinds_closeOne, List.drop_drop, Nat.add_comm]

theorem kinds_goTo (tag : Tag) (level : Nat) (frames : List Frame) (nodes : List Node) :
    (goTo tag level frames nodes).1.map Frame.tag =
      goToKinds tag level (frames.map Frame.tag) := by
  rw [goTo, goToKinds, List.length_map]
  split
  · simp [openTags]
  · exact kinds_close _ frames nodes

theorem kinds_enterItem (tag : Tag) (level : Nat) (latest : Option Tag) (frames : List Frame)
    (nodes : List Node) :
    (enterItem tag level latest frames nodes).1.map Frame.tag =
      enterKinds tag level latest (frames.map Frame.tag) := by
  rw [enterItem, enterKinds, List.length_map]
  split
  · dsimp only
    rw [openTags, List.map_append, kinds_close]
    rfl
  · exact kinds_goTo tag level frames nodes

/-- **At a level there are as many open elements.** -/
theorem length_goToKinds (tag : Tag) (level : Nat) (kinds : List Tag) :
    (goToKinds tag level kinds).length = level := by
  rw [goToKinds]
  split
  · simp only [List.length_append, List.length_replicate]
    omega
  · rw [List.length_drop]
    omega

theorem length_enterKinds (tag : Tag) {level : Nat} (hlevel : 0 < level) (latest : Option Tag)
    (kinds : List Tag) : (enterKinds tag level latest kinds).length = level := by
  rw [enterKinds]
  split
  · rename_i h
    rw [List.length_cons, List.length_drop]
    omega
  · exact length_goToKinds tag level kinds

end Nesting

end Gamebook
