/-
**Remembered values.**

Values that outlive a reading are kept in a jar, each under a key and up to a time.  Times are
seconds since the epoch; a value is live while its time lies ahead.

Main definitions:

* `Cookie`, `Jar` — a kept value, and the jar;
* `Jar.keep`, `Jar.live?`, `Jar.liveUnder` — keeping a value and finding the live ones;
* `Jar.purge` — throwing out what is no longer live;
* `Jar.SameOutside` — jars that differ only under keys of some kind.
-/

import Gamebook.Dict

set_option relaxedAutoImplicit false
set_option autoImplicit false

namespace Gamebook

/-- A kept value and the time up to which it is live. -/
structure Cookie where
  value : String
  expiresAt : Nat
  deriving DecidableEq, Repr

/-- Whether a kept value is live at a time. -/
def Cookie.isLive (c : Cookie) (now : Nat) : Bool := now < c.expiresAt

/-- The kept values by their keys. -/
abbrev Jar : Type := Dict Cookie

namespace Jar

/-- Keeps a value under a key up to a time. -/
def keep (jar : Jar) (key value : String) (expiresAt : Nat) : Jar :=
  jar.insert key ⟨value, expiresAt⟩

/-- The values that are live. -/
def live (jar : Jar) (now : Nat) : Jar := jar.filter fun _ c => c.isLive now

/-- The value under a key, if it is live. -/
def live? (jar : Jar) (now : Nat) (key : String) : Option String :=
  ((jar.get? key).filter (·.isLive now)).map Cookie.value

/-- The live values whose keys start with `start`, in the order of the keys. -/
def liveUnder (jar : Jar) (now : Nat) (start : String) : List (String × String) :=
  (jar.live now).entries.filterMap fun (key, c) =>
    if start.toList.isPrefixOf key.toList then some (key, c.value) else none

/-- Throws out what is no longer live; also the number of values thrown out. -/
def purge (jar : Jar) (now : Nat) : Jar × Nat :=
  (jar.live now, jar.size - (jar.live now).size)

/-! ### What is kept elsewhere -/

variable {keys : String → Prop} {jar jar' jar'' : Jar}

/-- The jars differ only under `keys`. -/
def SameOutside (keys : String → Prop) (jar jar' : Jar) : Prop :=
  ∀ key, ¬ keys key → jar'.get? key = jar.get? key

theorem SameOutside.refl (keys : String → Prop) (jar : Jar) : SameOutside keys jar jar :=
  fun _ _ => rfl

theorem SameOutside.trans (h : SameOutside keys jar jar') (h' : SameOutside keys jar' jar'') :
    SameOutside keys jar jar'' := fun key hkey => (h' key hkey).trans (h key hkey)

theorem sameOutside_keep {key : String} (hkey : keys key) (jar : Jar) (value : String)
    (expiresAt : Nat) : SameOutside keys jar (jar.keep key value expiresAt) := by
  intro other hother
  refine (Dict.get?_insert _ _ _ _).trans (if_neg ?_)
  rintro rfl
  exact hother hkey

end Jar

end Gamebook
