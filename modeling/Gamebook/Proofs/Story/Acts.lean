/-
**What can happen in a reading.**

A reader follows links, a host writes the address and has the story look at it, time passes, and a
host may call any other operation.  A run is a row of such acts, each of them allowed where it
happens.

Main definitions:

* `Story.Act`, `Story.act` — an act, and the story after it;
* `Story.acts` — the story after a row of acts;
* `Story.Runs` — the stories that a story can become by acts that are allowed.

Main results:

* `Story.Runs.invariant` — **what every allowed act preserves holds after every run**.
-/

import Gamebook.Story.Reading

set_option relaxedAutoImplicit false
set_option autoImplicit false

namespace Gamebook

namespace Story

/-- What can happen in a reading. -/
inductive Act where
  | start
  | display (title : String) (mode : DisplayMode)
  | rerender
  | restore (token : String)
  | restart
  | poll
  | activate (link : Link)
  | pageElement (title default : String)
  | renderSource (text : String)
  /-- The host writes the address. -/
  | writeAddress (address : String)
  /-- Time passes. -/
  | clock (now : Nat)

/-- The story after an act. -/
def act (s : Story) : Act → Story
  | .start => s.start.2
  | .display title mode => s.display title mode
  | .rerender => s.rerender.getD s
  | .restore token => (s.restore token).2
  | .restart => s.restart
  | .poll => s.poll.2
  | .activate link => (s.activate link).2
  | .pageElement title default => (s.pageElement title default).2
  | .renderSource text => (s.renderSource text).2
  | .writeAddress address => { s with navigator := { s.navigator with address := address } }
  | .clock now => { s with now := now }

/-- The story after a row of acts. -/
def acts (s : Story) (row : List Act) : Story := row.foldl act s

/-- The stories that a story can become by acts that are allowed where they happen. -/
inductive Runs (allowed : Story → Act → Prop) (s : Story) : Story → Prop
  | refl : Runs allowed s s
  | step {t : Story} {a : Act} (h : Runs allowed s t) (ha : allowed t a) : Runs allowed s (t.act a)

variable {allowed : Story → Act → Prop} {s t : Story} {P : Story → Prop}

/-- **What every allowed act preserves holds after every run.** -/
theorem Runs.invariant (h : Runs allowed s t) (hs : P s)
    (hact : ∀ t a, P t → allowed t a → P (t.act a)) : P t := by
  induction h with
  | refl => exact hs
  | step _ ha ih => exact hact _ _ ih ha

/-- What every act preserves holds after every row of acts. -/
theorem acts_invariant (hs : P s) (hact : ∀ t a, P t → P (t.act a)) (row : List Act) :
    P (s.acts row) := by
  induction row generalizing s with
  | nil => exact hs
  | cons a row ih => exact ih (hact s a hs)

end Story

end Gamebook
