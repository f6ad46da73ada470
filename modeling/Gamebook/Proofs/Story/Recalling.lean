/-
**Remembered values come back.**

What `remember` has kept in one reading is what the next reading starts with: no more, no less, and
no other values.  Only the sign of a zero is lost.

Main definitions:

* `Story.HasKept` — a story has a live value for a name.

Main results:

* `Story.mem_remembered`, `Story.remembered_nodup` — the values that a story has kept;
* `Story.initialVariables_remembered` — **a reading starts with exactly the remembered values**.
-/

import Gamebook.Fixture
import Gamebook.Proofs.Story.Keeping

set_option relaxedAutoImplicit false
set_option autoImplicit false

namespace Gamebook

namespace Story

variable {s : Story}

/-- A story holds a value for a name: a live one, under the name behind the start of its keys. -/
structure HasKept (s : Story) (name : String) (cookie : Cookie) : Prop where
  kept : s.jar.get? (s.keyStart ++ name) = some cookie
  live : cookie.isLive s.now = true

/-- The remembered values are those that the story holds. -/
theorem mem_remembered {key value : String} :
    (key, value) ∈ s.remembered ↔
      ∃ name cookie, key = s.keyStart ++ name ∧ s.HasKept name cookie ∧ cookie.value = value := by
  rw [remembered, Jar.liveUnder, List.mem_filterMap]
  constructor
  · rintro ⟨⟨key', cookie⟩, hin, hpair⟩
    dsimp only at hpair
    split at hpair
    · rename_i hstart
      cases hpair
      obtain ⟨name, hname⟩ := List.isPrefixOf_iff_prefix.1 hstart
      have hkey : key = s.keyStart ++ String.ofList name := by
        rw [← String.toList_inj, String.toList_append, String.toList_ofList, hname]
      have hget := (Dict.get?_eq_some_iff _ _ _).2 hin
      rw [Jar.live, Dict.get?_filter, Option.filter_eq_some_iff] at hget
      exact ⟨String.ofList name, cookie, hkey, ⟨hkey ▸ hget.1, hget.2⟩, rfl⟩
    · cases hpair
  · rintro ⟨name, cookie, rfl, ⟨hkept, hlive⟩, rfl⟩
    refine ⟨(s.keyStart ++ name, cookie), ?_, ?_⟩
    · refine (Dict.get?_eq_some_iff _ _ _).1 ?_
      rw [Jar.live, Dict.get?_filter, hkept]
      exact Option.filter_eq_some_iff.2 ⟨rfl, hlive⟩
    · have hstart : s.keyStart.toList.isPrefixOf (s.keyStart ++ name).toList = true := by
        rw [String.toList_append]
        exact List.isPrefixOf_iff_prefix.2 (List.prefix_append _ _)
      exact if_pos hstart

/-- No two remembered values are under one key. -/
theorem remembered_nodup (s : Story) : (s.remembered.map Prod.fst).Nodup := by
  have hascending := (s.jar.live s.now).ascending
  have hkeys : ((s.jar.live s.now).entries.map Prod.fst).Nodup :=
    List.pairwise_map.2 (hascending.imp fun hlt => String.ne_of_lt hlt)
  have hpairs : s.remembered.map Prod.fst =
      ((s.jar.live s.now).entries.map Prod.fst).filter
        fun key => s.keyStart.toList.isPrefixOf key.toList := by
    rw [remembered, Jar.liveUnder, List.filter_map, List.map_filterMap, ← List.filterMap_eq_map,
      List.filterMap_filter]
    refine List.filterMap_congr fun entry _ => ?_
    dsimp only [Function.comp]
    split <;> rfl
  rw [hpairs]
  exact hkeys.filter _

/-- What was remembered can be recalled. -/
theorem recallable_of_remembered
    (hjar : ∀ name cookie, s.HasKept name cookie → ∃ v, Remembered s.keyStart name v cookie) :
    ∀ pair ∈ s.remembered, Macro.Recallable s.keyStart pair := by
  rintro ⟨key, value⟩ hin
  obtain ⟨name, cookie, rfl, hhas, rfl⟩ := mem_remembered.1 hin
  obtain ⟨v, hv⟩ := hjar name cookie hhas
  exact ⟨name, v, rfl, hv.spec.1, hv.spec.2⟩

/-- A name that is recalled was kept. -/
theorem hasKept_of_recalls {vars : Variables} {name : String}
    (h : Macro.Recalls s.keyStart s.remembered {} vars) (hcontains : vars.contains name = true) :
    ∃ cookie, s.HasKept name cookie := by
  by_contra hnone
  have hkey : s.keyStart ++ name ∉ s.remembered.map Prod.fst := by
    intro hin
    obtain ⟨⟨key, value⟩, hpair, hkey⟩ := List.mem_map.1 hin
    obtain ⟨other, cookie, hother, hhas, -⟩ := mem_remembered.1 hpair
    obtain rfl := (String.append_right_inj s.keyStart).1 (hother.symm.trans hkey)
    exact hnone ⟨cookie, hhas⟩
  rw [Variables.contains, Dict.contains, h.others name hkey] at hcontains
  cases hcontains

/-- A name that was kept is recalled, with its value. -/
theorem value_of_recalls {vars : Variables} {name : String} {v : Value} {cookie : Cookie}
    (h : Macro.Recalls s.keyStart s.remembered {} vars) (hhas : s.HasKept name cookie)
    (hv : Remembered s.keyStart name v cookie) : vars.values.get? name = some v.settled :=
  h.given name v cookie.value (mem_remembered.2 ⟨name, cookie, rfl, hhas, rfl⟩) hv.spec.2

/-- **A reading starts with exactly the remembered values.**  If all that a story has kept was kept
by calls of `remember`, each of the names has the value that was kept for it, up to the sign of a
zero; no other variable has a value, no action was followed, and the order of recalling does not
matter. -/
theorem initialVariables_remembered (hmacros : s.macros.SeededByRemember)
    (hjar : ∀ name cookie, s.HasKept name cookie → ∃ v, Remembered s.keyStart name v cookie) :
    (∀ name, s.initialVariables.contains name = true ↔ ∃ cookie, s.HasKept name cookie) ∧
      (∀ name v cookie, s.HasKept name cookie → Remembered s.keyStart name v cookie →
        s.initialVariables.get name = v.settled) ∧
      s.initialVariables.clicked = .empty ∧
      ∀ pairs : List (String × String), pairs.Perm s.remembered →
        Macro.recallPairs s.keyStart pairs {} = s.initialVariables := by
  have hinitial : s.initialVariables = Macro.recallPairs s.keyStart s.remembered {} :=
    hmacros.initialVariables_eq s.prelude
  have hpairs := recallable_of_remembered hjar
  have hrecalls := Macro.recallPairs_recalls s.remembered_nodup hpairs ({} : Variables)
  rw [hinitial]
  refine ⟨fun name => ⟨hasKept_of_recalls hrecalls, fun ⟨cookie, hhas⟩ => ?_⟩, ?_,
    hrecalls.clicked, ?_⟩
  · obtain ⟨v, hv⟩ := hjar name cookie hhas
    rw [Variables.contains, Dict.contains, value_of_recalls hrecalls hhas hv]
    rfl
  · intro name v cookie hhas hv
    rw [Variables.get, value_of_recalls hrecalls hhas hv]
    rfl
  · exact fun pairs hperm => Macro.recallPairs_perm hperm s.remembered_nodup hpairs

/-- A story with a name, and the reading of a text in it that remembers a motto. -/
def diary : Story :=
  ((({} : Fixture).addPassage "StoryTitle" "Lantern" []).build 0).acts
    [.renderSource "<<remember $motto = 'say \"hi\";\\n $gold'>>"]

/-- The call in this text. -/
def mottoCall : MacroCall where
  name := "remember"
  arguments := " $motto = 'say \"hi\";\\n $gold'".toList
  params := []

/-- What is kept of the motto. -/
def mottoCookie : Cookie := ⟨"\"say \\\"hi\\\";\\n $gold\"", 31536000⟩

/-- A motto with quotation marks, a sign of a variable and a line break comes back. -/
theorem initialVariables_remembered_motto :
    diary.HasKept "motto" mottoCookie ∧
      (∀ name, diary.initialVariables.contains name = true ↔
        ∃ cookie, diary.HasKept name cookie) ∧
      diary.initialVariables.get "motto" = .str "say \"hi\";\n $gold" := by
  have hreading : diary.Remembering :=
    remembering_of_reading _ _ _ _ _ (Jar.remembering_empty _) _
  have hmacros : diary.macros.SeededByRemember :=
    hreading.regular.macros ▸ Macros.standard_seededByRemember
  have hhas : diary.HasKept "motto" mottoCookie :=
    ⟨by decide +kernel, by decide +kernel⟩
  let before := Scanner.start [] [] diary.page
  let after := (Macro.remember.run (diary.kit.context 0) mottoCall before).1
  have hrun : Macro.remember.run (diary.kit.context 0) mottoCall before = (after, none) :=
    Prod.ext rfl (Option.isNone_iff_eq_none.1 (by decide +kernel))
  have hremembered :
      Remembered diary.keyStart "motto" (.str "say \"hi\";\n $gold") mottoCookie :=
    ⟨_, mottoCall, before, after, rfl, hreading.vars, hrun, by decide +kernel, by decide +kernel,
      by decide +kernel⟩
  obtain ⟨hcontains, hget, -, -⟩ := initialVariables_remembered hmacros
    fun name cookie hhas => hreading.jar name cookie hhas.kept
  exact ⟨hhas, hcontains, hget "motto" _ _ hhas hremembered⟩

end Story

end Gamebook
