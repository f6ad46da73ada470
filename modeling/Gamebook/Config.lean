/-
**The settings of a story.**

Main definitions:

* `Duration` — a length of time;
* `Config` — the settings, with their defaults;
* `Config.ofJson?`, `Config.toJson` — the settings that a document stands for, and back.
-/

import Gamebook.Json.Basic
import Gamebook.Store

set_option relaxedAutoImplicit false
set_option autoImplicit false

namespace Gamebook

/-- A length of time; the part of a second is below a billion nanoseconds. -/
structure Duration where
  seconds : Nat
  nanos : Nat := 0
  deriving DecidableEq, Repr

namespace Duration

/-- A length of time in milliseconds. -/
def ofMillis (millis : Nat) : Duration := ⟨millis / 1000, millis % 1000 * 1000000⟩

/-- The length of time that a document stands for; it has no other members.  A billion nanoseconds
count as a second. -/
def ofJson? (json : Json) : Option Duration :=
  match json.only ["secs", "nanos"], json.fields? ["secs", "nanos"] with
  | true, some [some seconds, some nanos] => do
      let seconds ← seconds.nat? UInt64.size
      let nanos ← nanos.nat? UInt32.size
      let total := seconds + nanos / 1000000000
      if total < UInt64.size then return ⟨total, nanos % 1000000000⟩ else none
  | _, _ => none

/-- The document of a length of time. -/
def toJson (d : Duration) : Json := .obj [("secs", .ofNat d.seconds), ("nanos", .ofNat d.nanos)]

end Duration

/-- The settings of a story. -/
structure Config where
  /-- The passage that is shown when there is nothing to restore. -/
  startPassage : String := "Start"
  /-- The title of a story that has no passage to name it. -/
  defaultTitle : String := "Sugarcane"
  /-- What the keys of remembered values start with in a story without a title of its own. -/
  defaultKeyStart : String := "__jonah_"
  /-- How long remembered values live. -/
  rememberFor : Duration := ⟨365 * 24 * 60 * 60, 0⟩
  /-- How often a watched address is polled. -/
  pollInterval : Duration := .ofMillis 250
  /-- How deep renders may lie inside one another. -/
  maxDepth : Nat := 64
  /-- The text of passages that do not exist. -/
  missingText : String := defaultMissingText
  deriving DecidableEq, Repr

namespace Config

instance : Inhabited Config := ⟨{}⟩

/-- The names of the settings in a document. -/
def fieldNames : List String :=
  ["start_passage", "default_title", "default_persist_prefix", "remember_ttl", "poll_interval",
    "max_render_depth", "missing_passage_text"]

/-- The setting that a document stands for, or the default if there is none. -/
def setting? {α : Type} (default : α) (read : Json → Option α) : Option Json → Option α
  | none => some default
  | some json => read json

/-- The settings that a document stands for; one that is left out has its default. -/
def ofJson? (json : Json) : Option Config :=
  match json.fields? fieldNames with
  | some [startPassage, defaultTitle, defaultKeyStart, rememberFor, pollInterval, maxDepth,
      missingText] => do
      let d : Config := {}
      return {
        startPassage := ← setting? d.startPassage Json.str? startPassage
        defaultTitle := ← setting? d.defaultTitle Json.str? defaultTitle
        defaultKeyStart := ← setting? d.defaultKeyStart Json.str? defaultKeyStart
        rememberFor := ← setting? d.rememberFor Duration.ofJson? rememberFor
        pollInterval := ← setting? d.pollInterval Duration.ofJson? pollInterval
        maxDepth := ← setting? d.maxDepth (Json.nat? UInt64.size) maxDepth
        missingText := ← setting? d.missingText Json.str? missingText }
  | _ => none

/-- The document of the settings. -/
def toJson (c : Config) : Json :=
  .obj (fieldNames.zip
    [.str c.startPassage, .str c.defaultTitle, .str c.defaultKeyStart, c.rememberFor.toJson,
      c.pollInterval.toJson, .ofNat c.maxDepth, .str c.missingText])

end Config

end Gamebook
