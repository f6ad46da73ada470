/-
**Playing a story without a display.**

A player follows links by what they say and writes down every passage shown.

Main definitions:

* `Player`, `Player.new` — a story being played, and one about to be;
* `Player.start`, `Player.follow`, `Player.navigate` — the steps;
* `Player.choices?` — the links of the passage as a reader sees them;
* `PlayerError` — why a step cannot be taken.
-/

import Gamebook.Jar.File
import Gamebook.Story.Reading

set_option relaxedAutoImplicit false
set_option autoImplicit false

namespace Gamebook

/-- Why a step cannot be taken. -/
inductive PlayerError where
  | notStarted
  | noSuchLink (text : String) (available : List String)
  /-- The link leads out of the story. -/
  | external (url : String)
  deriving DecidableEq, Repr

/-- The text of an error. -/
def PlayerError.message : PlayerError → String
  | notStarted => "the story has not started"
  | noSuchLink text available =>
      "no link reading \"" ++ text ++ "\" (available: " ++ Text.quotedList available ++ ")"
  | external url => "link leaves the story: " ++ url

/-- A link as a reader sees it. -/
structure Choice where
  text : String
  link : Link
  deriving DecidableEq, Repr

mutual

/-- The choices that a node gives.  What lies inside a link belongs to it. -/
def Node.choicesOf : Node → List Choice
  | .text _ => []
  | .html _ => []
  | .element e children =>
      match e.target? with
      | some link => [⟨Node.textContent children, link⟩]
      | none => Node.choices children

/-- The choices that a list of nodes gives, in reading order. -/
def Node.choices : List Node → List Choice
  | [] => []
  | node :: nodes => Node.choicesOf node ++ Node.choices nodes

end

/-- What a reader sees after a step. -/
structure Response where
  title : String
  text : String
  choices : List String
  /-- The address after the step. -/
  token : String
  deriving DecidableEq, Repr

/-- A step as it was written down. -/
structure TranscriptEntry where
  /-- What was followed; nothing at the beginning. -/
  followed : Option String
  title : String
  text : String
  step : Nat
  deriving DecidableEq, Repr

/-- A story being played. -/
structure Player where
  story : Story
  transcript : List TranscriptEntry := []

namespace Player

/-- A story about to be played, with values remembered from before. -/
def new (store : Store) (config : Config) (jar : Jar) (now : Nat) : Player :=
  { story := .new store config jar {} now }

/-- A story about to be played, with the values of a file. -/
def load (store : Store) (config : Config) (file : Option String) (now : Nat) :
    Except JarError Player :=
  match Jar.load file with
  | .error e => .error e
  | .ok jar => .ok (new store config jar now)

/-- The text of a file of the remembered values. -/
def save (p : Player) : String := p.story.jar.save p.story.now

/-- Writes down the passage shown. -/
def record (p : Player) (followed : Option String) : Response × Player :=
  let title := (p.story.current.map Rendered.title).getD ""
  let text := (p.story.current.map Rendered.text).getD ""
  let choices := (p.story.current.map fun r => Node.choices r.nodes).getD []
  let entry := { followed, title, text, step := p.transcript.length + 1 }
  ({ title, text, choices := choices.map Choice.text, token := p.story.navigator.address },
    { p with transcript := p.transcript ++ [entry] })

/-- Shows the first passage, or the one that the address leads to. -/
def start (p : Player) : Response × Player := { p with story := p.story.start.2 }.record none

/-- The links of the passage, in reading order. -/
def choices? (p : Player) : Except PlayerError (List Choice) :=
  match p.story.current with
  | none => .error .notStarted
  | some r => .ok (Node.choices r.nodes)

/-- Follows the first link that reads `text`. -/
def follow (p : Player) (text : String) : Except PlayerError (Response × Player) :=
  match p.choices? with
  | .error e => .error e
  | .ok choices =>
      match choices.find? (·.text == text) with
      | none => .error (.noSuchLink text (choices.map Choice.text))
      | some choice =>
          match p.story.activate choice.link with
          | (.external url, _) => .error (.external url)
          | (_, story) => .ok ({ p with story := story }.record (some text))

/-- Writes the address as a reader would, and follows it. -/
def navigate (p : Player) (token : String) : Response × Player :=
  let story := { p.story with navigator := p.story.navigator.setAddress token }
  { p with story := story.poll.2 }.record (some token)

/-- A variable at the current point of the reading. -/
def valueOf (p : Player) (name : String) : Value := p.story.history.vars.get name

end Player

end Gamebook
