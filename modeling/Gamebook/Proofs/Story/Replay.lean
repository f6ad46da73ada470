/-
**A token rebuilds the reading that it was written for.**

A token keeps no more than the ids of the passages.  The variables, the actions that were followed
and what is shown come back because the passages are shown again in turn, and because a followed
action can be told from what the passage before it offered.  The invariant of a reading is that
showing its passages again from the start leads to a story that agrees with it.

Main definitions:

* `Story.Offers` — what is offered is what the passage shows;
* `Story.Faithful` — the invariant;
* `Story.Follows` — what a reader and a host may do.

Main results:

* `Story.Faithful.display`, `Story.faithful_replay` — a further passage, and another reading, keep
  the invariant;
* `Story.Faithful.act` — **what a reader and a host may do keeps the invariant**;
* `Story.restore_own_token` — **restoring the token of a reading changes nothing**.
-/

import Gamebook.Proofs.Story.Sound

set_option relaxedAutoImplicit false
set_option autoImplicit false

namespace Gamebook

namespace Story

variable {s t : Story} {title token : String} {titles : List String} {ids : List UInt32}

/-! ### What is offered -/

/-- The passages that are offered are those that plain links lead to, and the actions that are shown
are offered. -/
structure Offers (s : Story) : Prop where
  passages : ∀ title, title ∈ s.offeredPassages ↔ ∃ broken, .passage title broken ∈ s.links
  actions : ∀ title broken, .action title broken ∈ s.links → title ∈ s.offeredActions

theorem mem_passageTitles {nodes : List Node} :
    title ∈ Node.passageTitles nodes ↔ ∃ broken, .passage title broken ∈ Node.links nodes := by
  rw [Node.passageTitles, List.mem_filterMap]
  constructor
  · rintro ⟨l, hl, htitle⟩
    cases l with
    | passage title' broken =>
        cases htitle
        exact ⟨broken, hl⟩
    | external url => cases htitle
    | back token => cases htitle
    | action title' broken => cases htitle
  · rintro ⟨broken, hl⟩
    exact ⟨_, hl, rfl⟩

theorem display_offers (hs : s.Regular) (title : String) (mode : DisplayMode) :
    (s.display title mode).Offers := by
  obtain ⟨hcurrent, hactions, hpassages⟩ := current_display hs title mode
  have hlinks : (s.display title mode).links = Node.links (s.yieldOf title).nodes := by
    rw [links, hcurrent]
    rfl
  refine ⟨fun title' => ?_, fun title' broken hl => ?_⟩
  · rw [hpassages, hlinks]
    exact mem_passageTitles
  · rw [hlinks] at hl
    rw [hactions]
    exact offered_of_action ((s.pushed_kept _).regular hs) hl

theorem replay_offers (hs : s.Regular) (isFirst : Bool) (titles : List String)
    (hne : titles ≠ []) : (s.replay isFirst titles).Offers := by
  obtain ⟨t, hk, -, -, heq⟩ := replay_last hs isFirst titles hne
  rw [heq]
  exact display_offers (hk.regular hs) _ _

/-- A title to which a plain link leads is no followed action. -/
theorem guessClick_of_plain (h : title ∈ s.offeredPassages) : s.guessClick title = s := by
  rw [guessClick, if_neg (by simp [h])]

/-- A title that is offered by an action alone is a followed action. -/
theorem guessClick_of_action (ha : title ∈ s.offeredActions) (hp : title ∉ s.offeredPassages) :
    s.guessClick title = { s with history := s.history.click title } := by
  rw [guessClick, if_pos (by simp [ha, hp])]

/-! ### The invariant -/

/-- Showing these passages again from the start leads to a story that agrees with this one. -/
structure Faithful (s : Story) (titles : List String) : Prop where
  regular : s.Regular
  distinct : s.store.DistinctIds
  nonempty : titles ≠ []
  known : ∀ title ∈ titles, s.store.has title = true
  agrees : s.Agrees (s.resetHistory.replay true titles)
  current : (s.resetHistory.replay true titles).current = s.current
  offers : s.Offers

/-- **Another reading keeps the invariant.** -/
theorem faithful_replay (hs : s.Regular) (hd : s.store.DistinctIds) (hne : titles ≠ [])
    (hknown : ∀ title ∈ titles, s.store.has title = true)
    (hr : (s.resetHistory.replay true titles).remembered = s.remembered) :
    (s.resetHistory.replay true titles).Faithful titles := by
  have hs₀ := s.resetHistory_kept.regular hs
  have hk := s.resetHistory_kept.trans (replay_kept hs₀ true titles)
  have hreset := hk.resetHistory hs hr
  refine ⟨hk.regular hs, ?_, hne, ?_, hreset.replay hs₀ true titles,
    hreset.current_replay hs₀ true titles hne, replay_offers hs₀ true titles hne⟩
  · rw [hk.store]
    exact hd
  · rw [hk.store]
    exact hknown

/-- **A further passage keeps the invariant** if the story knows how it was reached. -/
theorem Faithful.display (h : s.Faithful titles) (hknown : s.store.has title = true)
    (hr : ((s.guessClick title).display title .normal).remembered = s.remembered) :
    ((s.guessClick title).display title .normal).Faithful (titles ++ [title]) := by
  have hs := h.regular
  have hs₀ := s.resetHistory_kept.regular hs
  have hguess := s.guessClick_kept title
  have hk := hguess.trans (display_kept (hguess.regular hs) title .normal)
  have hreset := hk.resetHistory hs hr
  -- the reading so far, gone on with, agrees with the longer row of passages
  have hstep := (h.agrees.guessClick title).display (hguess.regular hs) title .normal .normal
  have hshown := (h.agrees.guessClick title).current_display (hguess.regular hs) title .normal
  obtain ⟨happend, hcurrent⟩ := replay_append hs₀ true titles title h.nonempty
  refine ⟨hk.regular hs, ?_, by simp, ?_, ?_, ?_,
    display_offers (hguess.regular hs) title .normal⟩
  · rw [hk.store]
    exact h.distinct
  · intro title' hin
    rw [hk.store]
    rcases List.mem_append.1 hin with hin | hin
    · exact h.known title' hin
    · rw [List.mem_singleton.1 hin]
      exact hknown
  · exact (hstep.trans happend).trans (hreset.replay hs₀ true _)
  · rw [hreset.current_replay hs₀ true _ (by simp), hcurrent, hshown]

/-- What concerns the host and the time alone keeps the invariant. -/
theorem Faithful.frame (h : s.Faithful titles) (ht : s.Alike t)
    (hr : t.remembered = s.remembered) : t.Faithful titles := by
  have hk := ht.kept
  have hs₀ := s.resetHistory_kept.regular h.regular
  have hreset := hk.resetHistory h.regular hr
  refine ⟨hk.regular h.regular, ?_, h.nonempty, ?_, ?_, ?_, ?_⟩
  · rw [hk.store]
    exact h.distinct
  · rw [hk.store]
    exact h.known
  · exact (ht.agrees.symm.trans h.agrees).trans (hreset.replay hs₀ true titles)
  · rw [hreset.current_replay hs₀ true titles h.nonempty, h.current, ht.current]
  · refine ⟨fun title => ?_, fun title broken hl => ?_⟩
    · rw [ht.agrees.offeredPassages, ht.links_eq]
      exact h.offers.passages title
    · rw [ht.agrees.offeredActions]
      exact h.offers.actions title broken (ht.links_eq ▸ hl)

/-! ### What a reader and a host may do -/

/-- What a reader and a host may do at a point of a reading: the reader follows a link that is
shown, a plain link or an action only to a passage of the story, and an action only if no plain link
leads there too; the host writes the address, looks at it or restores a token; and time passes. -/
inductive Follows (s : Story) : Act → Prop
  | back {token : String} (hl : .back token ∈ s.links) : Follows s (.activate (.back token))
  | passage {title : String} {broken : Bool} (hl : .passage title broken ∈ s.links)
      (ht : s.store.has title = true) : Follows s (.activate (.passage title broken))
  | action {title : String} {broken : Bool} (hl : .action title broken ∈ s.links)
      (ht : s.store.has title = true) (hplain : ∀ broken', .passage title broken' ∉ s.links) :
      Follows s (.activate (.action title broken))
  | writeAddress (address : String) : Follows s (.writeAddress address)
  | poll : Follows s .poll
  | restore (token : String) : Follows s (.restore token)
  | clock (now : Nat) : Follows s (.clock now)

theorem Faithful.seeAddress (h : s.Faithful titles) : s.seeAddress.Faithful titles :=
  h.frame (s.host_alike _ _ _) rfl

/-- A story begins with a reading of the start passage alone. -/
theorem begin_eq (s : Story) :
    s.begin = s.resetHistory.replay true [s.config.startPassage] := rfl

theorem restored_faithful (hs : s.Regular) (hd : s.store.DistinctIds)
    (h : s.restore token = (.ok (), t)) (hr : t.remembered = s.remembered) : ∃ titles, t.Faithful titles := by
  obtain ⟨ids, hne, -, hids, rfl⟩ := restore_ok h
  exact ⟨_, faithful_replay hs hd (titlesOf_ne_nil hids hne) (has_titlesOf s.store ids) hr⟩

/-- A reading that was just started is rebuilt by its token. -/
theorem start_faithful (hs : s.Regular) (hd : s.store.DistinctIds)
    (hstart : s.store.has s.config.startPassage = true)
    (hr : s.start.2.remembered = s.remembered) : ∃ titles, s.start.2.Faithful titles := by
  obtain ⟨s', hrestore, heq⟩ | ⟨outcome, heq⟩ := s.start_cases
  · rw [heq] at hr ⊢
    obtain ⟨titles, hf⟩ := restored_faithful hs hd hrestore hr
    exact ⟨titles, hf.seeAddress⟩
  · rw [heq] at hr ⊢
    refine ⟨[s.config.startPassage], Faithful.seeAddress ?_⟩
    rw [begin_eq]
    refine faithful_replay hs hd (by simp) (fun title hin => ?_) hr
    rw [List.mem_singleton.1 hin]
    exact hstart

namespace Faithful

theorem poll (h : s.Faithful titles) (hr : s.poll.2.remembered = s.remembered) :
    ∃ titles, s.poll.2.Faithful titles := by
  obtain ⟨-, hp⟩ | ⟨-, -, hp⟩ | ⟨-, s', hrestore, hp⟩ | ⟨-, e, -, hp⟩ := s.poll_cases
  · rw [hp]
    exact ⟨titles, h⟩
  · rw [hp]
    exact ⟨titles, h.frame (s.host_alike _ _ _) rfl⟩
  · rw [hp] at hr ⊢
    obtain ⟨titles', hf⟩ := restored_faithful h.regular h.distinct hrestore hr
    exact ⟨titles', hf.seeAddress⟩
  · rw [hp]
    exact ⟨titles, h.seeAddress⟩

/-- **What a reader and a host may do keeps the invariant**, as long as the remembered values stay as
they are. -/
theorem act (h : s.Faithful titles) {a : Act} (ha : s.Follows a)
    (hr : (s.act a).remembered = s.remembered) : ∃ titles, (s.act a).Faithful titles := by
  cases ha with
  | @back token hl =>
      have hset : { s with navigator := s.navigator.setAddress token }.Faithful titles :=
        h.frame (s.host_alike _ _ _) rfl
      exact hset.poll hr
  | @passage title broken hl ht =>
      -- where a plain link leads, no followed action is guessed
      have hguess := guessClick_of_plain ((h.offers.passages title).2 ⟨broken, hl⟩)
      have hr' : (s.display title .normal).remembered = s.remembered := hr
      have hf := h.display ht (by rw [hguess]; exact hr')
      rw [hguess] at hf
      exact ⟨_, hf⟩
  | @action title broken hl ht hplain =>
      have hguess := guessClick_of_action (h.offers.actions title broken hl) fun hin => by
        obtain ⟨broken', hl'⟩ := (h.offers.passages title).1 hin
        exact hplain broken' hl'
      have hr' : ({ s with history := s.history.click title }.display title .normal).remembered =
        s.remembered := hr
      have hf := h.display ht (by rw [hguess]; exact hr')
      rw [hguess] at hf
      exact ⟨_, hf⟩
  | writeAddress address =>
      exact ⟨titles, h.frame (s.host_alike _ _ _) rfl⟩
  | poll => exact h.poll hr
  | restore token =>
      refine restore_preserves
        (P := fun t => t.remembered = s.remembered → ∃ titles, t.Faithful titles)
        (fun _ => ⟨titles, h⟩) (fun _ hrestore => ?_) hr
      exact restored_faithful h.regular h.distinct hrestore
  | clock now => exact ⟨titles, h.frame (s.host_alike _ _ _) hr⟩

/-- The token of a reading stands for the passages that rebuild it. -/
theorem restore_own (h : s.Faithful titles) :
    s.restore s.history.current.token = (.ok (), s.resetHistory.replay true titles) := by
  have hs₀ := s.resetHistory_kept.regular h.regular
  have hids : s.history.ids = (titles.map s.store.get).filterMap Passage.id := by
    rw [← h.agrees.history, ids_replay hs₀]
    rfl
  have htoken : s.history.current.token = Trail.encode s.history.ids := by
    rw [← h.agrees.history, token_replay hs₀ true titles h.nonempty]
  have htitles := titlesOf_ids h.distinct h.known
  rw [← hids] at htitles
  have hne : s.history.ids ≠ [] := by
    intro hnil
    rw [hnil] at htitles
    exact h.nonempty htitles.symm
  have hknown : ∀ id ∈ s.history.ids, (s.store.findId? id).isSome := by
    intro id hin
    rw [hids] at hin
    obtain ⟨p, hp, hid⟩ := List.mem_filterMap.1 hin
    obtain ⟨title, ht, rfl⟩ := List.mem_map.1 hp
    exact Store.findId?_isSome (Store.get_mem (h.known title ht)) hid
  rw [htoken, restore_of_known (Trail.isEmptyAddress_encode hne) (Trail.decode_encode _) hknown,
    restored, htitles]

end Faithful

/-- **Restoring the token of a reading changes nothing**: neither the history, with all variables
and followed actions, nor what is shown.  The remembered values stay as they are in particular if
nothing is remembered and nothing that is remembered expires. -/
theorem restore_own_token (store : Store) (config : Config) (jar : Jar) (navigator : Navigator)
    (now : Nat) (hids : store.DistinctIds) (hstart : store.has config.startPassage = true)
    (hremembered : (Story.new store config jar navigator now).start.2.remembered =
      (Story.new store config jar navigator now).remembered)
    (hrun : Runs (fun s a => s.Follows a ∧ (s.act a).remembered = s.remembered)
      (Story.new store config jar navigator now).start.2 s) :
    ∃ s', s.restore s.history.current.token = (.ok (), s') ∧ s'.history = s.history ∧
      s'.current = s.current := by
  have hs := new_regular store config jar navigator now
  have hd : (Story.new store config jar navigator now).store.DistinctIds :=
    ⟨hids.numbered, hids.nodup⟩
  obtain ⟨titles, hf⟩ := hrun.invariant (P := fun s => ∃ titles, s.Faithful titles)
    (start_faithful hs hd hstart hremembered) fun s a ⟨_, hf⟩ ha => hf.act ha.1 ha.2
  exact ⟨_, hf.restore_own, hf.agrees.history, hf.current⟩

/-- Three passages with a variable and an action. -/
def tour : Fixture :=
  ((({} : Fixture).addPassage "Start" "<<set $n = 1>>[[A]]<<actions B>>" []).addPassage "A"
    "<<set $n = $n + 1>>" []).addPassage "B" "[[A]]" []

/-- A reading of these that goes on to the action and to the link there. -/
def toured : Story :=
  ((tour.build 0).start.2.act (.activate (.action "B" false))).act
    (.activate (.passage "A" false))

/-- The token of this reading restores it, the followed action included. -/
theorem restore_own_token_toured :
    toured.history.ids = [1, 3, 2] ∧
      ∃ s', toured.restore toured.history.current.token = (.ok (), s') ∧
        s'.history = toured.history ∧ s'.current = toured.current := by
  have hids : (Store.ofRecords tour.records).DistinctIds :=
    ⟨Store.numbered_ofRecords _, by decide +kernel⟩
  have htoured : Runs (fun s a => s.Follows a ∧ (s.act a).remembered = s.remembered)
      (tour.build 0).start.2 toured := by
    refine .step (.step .refl ?_) ?_
    · exact ⟨.action (by decide +kernel) (by decide +kernel) (by decide +kernel),
        by decide +kernel⟩
    · exact ⟨.passage (by decide +kernel) (by decide +kernel), by decide +kernel⟩
  exact ⟨by decide +kernel, restore_own_token _ {} .empty {} 0 hids (by decide +kernel)
    (by decide +kernel) htoured⟩

end Story

end Gamebook
