/-
**Restoring a reading twice.**

A token keeps the passages of a reading and none of its values.  To restore it the passages are shown
afresh, and so are their calls of `remember`, which the next reading starts with.  So the same token
may lead to another reading the second time.  It leads to the same entries, and to the same reading
just when the first time has left the variables alone that a reading starts with.

Main definitions:

* `Story.SameReading` — stories with the same history, of which the same is shown.

Main results:

* `Story.sameReading_restored_iff` — ids are restored alike just when the readings start alike;
* `Story.restore_twice` — **what restoring a token a second time comes to**;
* `Story.restore_twice_differs` — it need not come to the same reading.
-/

import Gamebook.Proofs.Story.Restoring

set_option relaxedAutoImplicit false
set_option autoImplicit false

namespace Gamebook

namespace Story

variable {s t : Story} {token : String} {ids : List UInt32}

/-- Stories with the same history, all variables and followed actions included, of which the same is
shown. -/
structure SameReading (s t : Story) : Prop where
  history : t.history = s.history
  current : t.current = s.current

theorem restored_kept (hs : s.Regular) (ids : List UInt32) : s.Kept (s.restored ids) :=
  s.resetHistory_kept.trans (replay_kept (s.resetHistory_kept.regular hs) true _)

/-- Whatever the variables are, the same entries are restored. -/
theorem Kept.outline_restored_eq (h : s.Kept t) (hs : s.Regular) (ids : List UInt32) :
    (t.restored ids).history.outline = (s.restored ids).history.outline := by
  rw [outline_restored (h.regular hs), outline_restored hs, h.store]
  rfl

/-- **Ids are restored alike just when the readings start alike.** -/
theorem sameReading_restored_iff (h : s.Kept t) (hs : s.Regular) (hne : ids ≠ [])
    (hids : ∀ id ∈ ids, (s.store.findId? id).isSome) :
    (s.restored ids).SameReading (t.restored ids) ↔ t.initialVariables = s.initialVariables := by
  have ht := h.regular hs
  have hids' : ∀ id ∈ ids, (t.store.findId? id).isSome := by
    rw [h.store]
    exact hids
  constructor
  · intro hsame
    -- the oldest entry still has the variables that the reading started with
    have hopening := (restores_of_passages hs hne hids).opening
    have hopening' := (restores_of_passages ht hne hids').opening
    rw [hsame.history, hopening] at hopening'
    exact congrArg Entry.vars (Option.some.inj hopening').symm
  · intro hi
    have hs₀ := s.resetHistory_kept.regular hs
    have hstart := h.startsAlike hi
    have htitles : titlesOf t.store ids = titlesOf s.store ids := by rw [h.store]
    refine ⟨?_, ?_⟩
    · rw [restored, restored, htitles]
      exact (hstart.replay hs₀ true _).history
    · rw [restored, restored, htitles]
      exact hstart.current_replay hs₀ true _ (titlesOf_ne_nil hids hne)

/-- **What restoring a token a second time comes to.**  It is restored again, to the same entries: all
titles, ids and tokens are the same.  It comes to the same reading, with all variables and followed
actions and with the same passage shown, just when a reading now starts with the variables with which
it started before; and so it does if the first time has left the remembered values as they were. -/
theorem restore_twice (hs : s.Regular) (hr : s.restore token = (.ok (), t)) :
    ∃ u, t.restore token = (.ok (), u) ∧ u.history.outline = t.history.outline ∧
      (t.SameReading u ↔ t.initialVariables = s.initialVariables) ∧
      (t.remembered = s.remembered → t.SameReading u) := by
  have hempty := isEmptyAddress_of_restore hr
  obtain ⟨ids, hne, hdecode, hids, rfl⟩ := restore_ok hr
  have hk := restored_kept hs ids
  have hids' : ∀ id ∈ ids, ((s.restored ids).store.findId? id).isSome := by
    rw [hk.store]
    exact hids
  have hiff := sameReading_restored_iff hk hs hne hids
  refine ⟨_, restore_of_known hempty hdecode hids', hk.outline_restored_eq hs ids, hiff, ?_⟩
  intro hremembered
  exact hiff.2 (initialVariables_eq hs.macros hk.macros hk.keyStart hremembered)

/-- A passage that shows what was remembered, and then remembers something. -/
def tally : Fixture := ({} : Fixture).addPassage "Start" "<<print $n>><<remember $n = 1>>" []

/-- Once the value is remembered, the token of the passage leads to the same reading each time. -/
theorem restore_twice_tally :
    ∃ t u, ((tally.build 0).act (.restore "#1")).restore "#1" = (.ok (), t) ∧
      t.restore "#1" = (.ok (), u) ∧ t.SameReading u := by
  have hs : ((tally.build 0).act (.restore "#1")).Regular :=
    (restored_kept (new_regular _ _ _ _ _) [1]).regular (new_regular _ _ _ _ _)
  have hr : ((tally.build 0).act (.restore "#1")).restore "#1" =
      (.ok (), ((tally.build 0).act (.restore "#1")).restored [1]) :=
    restore_of_known (by decide) rfl ((find?_isUnknown _ _).1 (by decide +kernel))
  obtain ⟨u, hu, -, -, hsame⟩ := restore_twice hs hr
  exact ⟨_, u, hr, hu, hsame (by decide +kernel)⟩

/-- **A token need not lead to the same reading a second time**: the first time it shows nothing, and
remembers what the second time shows. -/
theorem restore_twice_differs :
    ∃ once twice, (tally.build 0).restore "#1" = (.ok (), once) ∧
      once.restore "#1" = (.ok (), twice) ∧
      once.history.entries.map (fun e => e.vars.get "n") = [.num 1, .undefined] ∧
      twice.history.entries.map (fun e => e.vars.get "n") = [.num 1, .num 1] ∧
      once.current.map Rendered.text = some "" ∧ twice.current.map Rendered.text = some "1" ∧
      twice.history ≠ once.history ∧
      twice.current.map Rendered.nodes ≠ once.current.map Rendered.nodes := by
  have hok : ∀ s : Story, s.store.findId? 1 ≠ none → s.restore "#1" = (.ok (), s.restored [1]) := by
    intro s hid
    refine restore_of_known (by decide) rfl fun id hin => ?_
    rw [List.mem_singleton.1 hin]
    exact Option.isSome_iff_ne_none.2 hid
  have hsaid : ((tally.build 0).restored [1]).current.map Rendered.text = some "" ∧
      (((tally.build 0).restored [1]).restored [1]).current.map Rendered.text = some "1" := by
    decide +kernel
  have hheld : ((tally.build 0).restored [1]).history.entries.map (fun e => e.vars.get "n") =
        [.num 1, .undefined] ∧
      (((tally.build 0).restored [1]).restored [1]).history.entries.map (fun e => e.vars.get "n") =
        [.num 1, .num 1] := by
    decide +kernel
  refine ⟨_, _, hok _ (by decide +kernel), hok _ (by decide +kernel), hheld.1, hheld.2, hsaid.1,
    hsaid.2, fun hsame => ?_, fun hsame => ?_⟩
  · have hdiffer := hheld.2
    rw [hsame, hheld.1] at hdiffer
    exact absurd hdiffer (by decide)
  · have hdiffer := congrArg (Option.map Node.textContent) hsame
    rw [Option.map_map, Option.map_map] at hdiffer
    have htexts := hsaid.2.symm.trans (hdiffer.trans hsaid.1)
    exact absurd htexts (by decide)

end Story

end Gamebook
