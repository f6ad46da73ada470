/-
**Reading a story.**

A reading goes from passage to passage.  Each passage shown adds an entry to the history and, as a
rule, writes its token to the address of the host.  From such a token the reading is rebuilt by
showing its passages again, all but the last out of sight.

Main definitions:

* `Story.display`, `Story.rerender` — showing a passage, and showing it again;
* `Story.restore` — rebuilding a reading from its token;
* `Story.start`, `Story.restart` — beginning, and beginning anew;
* `Story.poll`, `Story.watch` — following the address of the host;
* `Story.activate` — following a link.
-/

import Gamebook.Story.Basic

set_option relaxedAutoImplicit false
set_option autoImplicit false

namespace Gamebook

/-- Why a reading cannot be restored. -/
inductive RestoreError where
  /-- The address carries no reading. -/
  | empty
  | malformed (e : TrailError)
  | unknownPassage (id : UInt32)
  deriving DecidableEq, Repr

/-- The text of an error. -/
def RestoreError.message : RestoreError → String
  | empty => "no state to restore"
  | malformed e => "malformed token: " ++ e.message
  | unknownPassage id => "no passage with id " ++ toString id.toNat

/-- How a reading began. -/
inductive StartOutcome where
  /-- The address carried a reading, which was restored. -/
  | restored
  /-- There was nothing to restore. -/
  | fresh
  | restoreFailed (e : RestoreError)
  deriving DecidableEq, Repr

/-- What following a link did. -/
inductive Activation where
  | displayed (title : String)
  /-- The address was written and looked at. -/
  | navigated (outcome : PollOutcome)
  /-- The link leads out of the story. -/
  | external (url : String)
  deriving DecidableEq, Repr

namespace Story

/-! ### Showing passages -/

/-- Tells the host which passage is shown.  The start passage leaves the address alone. -/
def announce (s : Story) (title token : String) : Story :=
  let navigator :=
    -- the start passage stands for the story as a whole
    if title = s.config.startPassage then s.navigator.setTitle s.title
    else (s.navigator.setTitle (s.title ++ ": " ++ title)).setAddress token
  { s with navigator := navigator.focusTop, lastAddress := navigator.address }

/-- Renders a passage at the current point of the reading and makes it the one shown. -/
def showPassage (s : Story) (p : Passage) (mode : DisplayMode) : Story :=
  let (nodes, offered, s) := s.render p.text
  { s with
    offeredActions := offered
    offeredPassages := Node.passageTitles nodes
    current := some
      { title := p.title
        id := p.id
        tags := p.tags
        nodes := nodes
        token := s.history.current.token
        mode := mode } }

/-- Goes on to the passage of a title. -/
def display (s : Story) (title : String) (mode : DisplayMode) : Story :=
  let p := s.store.get title
  let s := { s with history := s.history.push p }.showPassage p mode
  if mode = .offscreen then s else s.announce p.title s.history.current.token

/-- Renders the passage of the current entry again, if it shows one. -/
def rerender (s : Story) : Option Story :=
  s.history.current.title.map fun title =>
    s.showPassage (s.store.get title) ((s.current.map Rendered.mode).getD .quietly)

/-! ### Restoring -/

/-- The passages of a list of ids. -/
def passagesOf (store : Store) : List UInt32 → Except RestoreError (List Passage)
  | [] => .ok []
  | id :: ids =>
      match store.findId? id with
      | none => .error (.unknownPassage id)
      | some p =>
          match passagesOf store ids with
          | .error e => .error e
          | .ok ps => .ok (p :: ps)

/-- The passages that a token leads through. -/
def passagesOfToken (store : Store) (token : String) : Except RestoreError (List Passage) :=
  if isEmptyAddress token then .error .empty
  else
    match Trail.decode token with
    | .error e => .error (.malformed e)
    | .ok ids => passagesOf store ids

/-- Notes that an action was followed if one was offered to `title`, and no plain link was. -/
def guessClick (s : Story) (title : String) : Story :=
  if s.offeredActions.contains title && !s.offeredPassages.contains title then
    { s with history := s.history.click title }
  else s

/-- Shows passages in turn, all but the last out of sight.  `isFirst` tells whether the reading
starts with them. -/
def replay (s : Story) (isFirst : Bool) : List String → Story
  | [] => s
  | title :: titles =>
      -- a token does not tell how a passage was reached, so a followed action is guessed
      let s := if isFirst then s else s.guessClick title
      (s.display title (if titles.isEmpty then .normal else .offscreen)).replay false titles

/-- Rebuilds a reading from its token.  The passages are looked up before the history starts over. -/
def restore (s : Story) (token : String) : Except RestoreError Unit × Story :=
  match passagesOfToken s.store token with
  | .error e => (.error e, s)
  | .ok ps => (.ok (), s.resetHistory.replay true (ps.map Passage.title))

/-! ### Beginning -/

/-- Begins a reading with the start passage. -/
def begin (s : Story) : Story := s.resetHistory.display s.config.startPassage .normal

/-- The story as it has now seen the address. -/
def seeAddress (s : Story) : Story := { s with lastAddress := s.navigator.address }

/-- Begins a reading: the one that the address carries, or with the start passage. -/
def start (s : Story) : StartOutcome × Story :=
  match s.restore s.navigator.address with
  | (.ok (), s) => (.restored, s.seeAddress)
  -- an address that carries no reading is no failure
  | (.error .empty, s) => (.fresh, s.begin.seeAddress)
  | (.error e, s) => (.restoreFailed e, s.begin.seeAddress)

/-- Forgets the reading and asks the host to start over. -/
def restart (s : Story) : Story :=
  let s := s.resetHistory
  { s with
    store := s.store.resetAll
    current := none
    navigator := (s.navigator.setAddress "").requestReload
    lastAddress := "" }

/-! ### Following the address -/

/-- Compares the address with the one last seen, and follows a change. -/
def poll (s : Story) : PollOutcome × Story :=
  let address := s.navigator.address
  if address = s.lastAddress then (.unchanged, s)
  else if isEmptyAddress address then
    (.reloadRequested, { s with navigator := s.navigator.requestReload }.seeAddress)
  else
    match s.restore address with
    | (.ok (), s) => (.restored address, s.seeAddress)
    | (.error e, s) => (.restoreFailed address e.message, s.seeAddress)

/-- What a host does after a look at the address: it stops watching, or goes on, perhaps after
writing the address. -/
abbrev Watcher : Type := PollOutcome → Navigator → Option Navigator

/-- Looks at the address until the host stops it, which it does once it has no more watchers.
Returns what was found, the latest last. -/
def watch (s : Story) (watchers : List Watcher) : List PollOutcome × Story :=
  let (outcome, s) := s.poll
  match watchers with
  | [] => ([outcome], s)
  | watcher :: watchers =>
      match watcher outcome s.navigator with
      | none => ([outcome], s)
      | some navigator =>
          let (outcomes, s) := { s with navigator := navigator }.watch watchers
          (outcome :: outcomes, s)

/-! ### Following links -/

/-- Follows a link. -/
def activate (s : Story) : Link → Activation × Story
  | .passage title _ => (.displayed title, s.display title .normal)
  | .action title _ =>
      (.displayed title, { s with history := s.history.click title }.display title .normal)
  | .back token =>
      let (outcome, s) := { s with navigator := s.navigator.setAddress token }.poll
      (.navigated outcome, s)
  | .external url => (.external url, s)

end Story

end Gamebook
