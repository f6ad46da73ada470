/-
**When back links work.**

A back link goes through the address of the host: its token is written there, and the story looks at
the address and follows it if it is not the one seen last.  Since the start passage leaves the
address alone, the address may still hold the token of a passage before it.  A back link to that
passage changes nothing; every other back link restores what its token stands for.

Main definitions:

* `Story.Browses` — what a reader may do who follows links to passages of the story;
* `Story.Tracked` — the invariant: the address is the one seen last, and it holds the token of the
  current passage unless that is the start passage.

Main results:

* `Story.Tracked.act` — **following links keeps the invariant**;
* `Story.back_link_works_iff` — **a back link works unless the address holds its token already**.
-/

import Gamebook.Proofs.Story.Sound

set_option relaxedAutoImplicit false
set_option autoImplicit false

namespace Gamebook

namespace Story

variable {s t : Story} {title token : String}

/-- What a reader may do who follows links to passages of the story; the host only looks at the
address. -/
inductive Browses (s : Story) : Act → Prop
  | back {token : String} (hl : .back token ∈ s.links) : Browses s (.activate (.back token))
  | passage {title : String} {broken : Bool} (hl : .passage title broken ∈ s.links)
      (ht : s.store.has title = true) : Browses s (.activate (.passage title broken))
  | action {title : String} {broken : Bool} (hl : .action title broken ∈ s.links)
      (ht : s.store.has title = true) : Browses s (.activate (.action title broken))
  | poll : Browses s .poll

/-! ### Where a reading stands -/

/-- All that was read are passages of the story, and all of them have ids. -/
structure Numbered (s : Story) : Prop where
  store : s.store.Numbered
  known : ∀ id ∈ s.history.ids, (s.store.findId? id).isSome
  entries : ∀ e ∈ s.history.outline, e.isOpening = false → e.id.isSome

theorem resetHistory_numbered (hn : s.store.Numbered) : s.resetHistory.Numbered where
  store := hn
  known id hid := absurd hid List.not_mem_nil
  entries e he hopening := by
    rw [List.mem_singleton.1 he] at hopening
    cases hopening

theorem Numbered.frame (h : s.Numbered) (ht : s.Alike t) : t.Numbered := by
  refine ⟨?_, ?_, ?_⟩
  · rw [ht.agrees.store]
    exact h.store
  · rw [ht.agrees.store, ht.agrees.history]
    exact h.known
  · rw [ht.agrees.history]
    exact h.entries

/-- A passage of the story keeps this so. -/
theorem Numbered.display (h : s.Numbered) (hs : s.Regular) (ht : s.store.has title = true)
    (mode : DisplayMode) : (s.display title mode).Numbered := by
  have hk := display_kept hs title mode
  have hin := Store.get_mem ht
  obtain ⟨id, hid⟩ := Option.isSome_iff_exists.1 (h.store _ hin)
  refine ⟨?_, fun id' hin' => ?_, fun e he hopening => ?_⟩
  · rw [hk.store]
    exact h.store
  · rw [hk.store]
    rw [ids_display hs, hid] at hin'
    rcases List.mem_append.1 hin' with hin' | hin'
    · exact h.known id' hin'
    · rcases List.mem_singleton.1 hin' with rfl
      exact Store.findId?_isSome hin hid
  · rw [outline_display hs] at he
    rcases List.mem_append.1 he with he | he
    · exact h.entries e he hopening
    · rcases List.mem_singleton.1 he with rfl
      exact Option.isSome_iff_exists.2 ⟨id, hid⟩

theorem Numbered.reached (h : s.Numbered) (isFirst : Bool) (title : String) :
    (s.reached isFirst title).Numbered := by
  have hk := s.reached_kept isFirst title
  refine ⟨?_, ?_, ?_⟩
  · rw [hk.store]
    exact h.store
  · rw [hk.store, ids_reached]
    exact h.known
  · rw [outline_reached]
    exact h.entries

theorem Numbered.replay (h : s.Numbered) (hs : s.Regular) (isFirst : Bool) (titles : List String)
    (ht : ∀ title ∈ titles, s.store.has title = true) : (s.replay isFirst titles).Numbered := by
  induction titles generalizing s isFirst with
  | nil => exact h
  | cons title titles ih =>
      obtain ⟨htitle, htitles⟩ := List.forall_mem_cons.1 ht
      have hk := s.reached_kept isFirst title
      have hd := hk.trans (display_kept (hk.regular hs) title
        (if titles.isEmpty then .normal else .offscreen))
      rw [replay_cons]
      refine ih ((h.reached isFirst title).display (hk.regular hs) ?_ _) (hd.regular hs) false ?_
      · rw [hk.store]
        exact htitle
      · rw [hd.store]
        exact htitles

/-- The address is the one seen last, and it holds the token of the passage that is shown, which
stands for all ids, unless this is the start passage. -/
structure Located (s : Story) : Prop where
  seen : s.lastAddress = s.navigator.address
  shown : s.history.current.isOpening = false
  address : s.history.current.title ≠ some s.config.startPassage →
    s.navigator.address = Trail.encode s.history.ids

theorem display_located (hs : s.Regular) (title : String) :
    (s.display title .normal).Located := by
  obtain ⟨hnavigator, hlast⟩ := navigator_display hs title .normal (by simp)
  have htitle : (s.display title .normal).history.current.title = some title := by
    rw [history_display hs]
    exact congrArg some (Store.title_get s.store title)
  refine ⟨hlast, ?_, fun hne => ?_⟩
  · rw [Entry.isOpening, htitle]
    rfl
  · have hstart : title ≠ s.config.startPassage := by
      intro heq
      rw [htitle, (display_kept hs title .normal).config, heq] at hne
      exact hne rfl
    rw [hnavigator, announce, if_neg hstart]
    rfl

theorem replay_located (hs : s.Regular) (isFirst : Bool) (titles : List String)
    (hne : titles ≠ []) : (s.replay isFirst titles).Located := by
  obtain ⟨t, hk, -, -, heq⟩ := replay_last hs isFirst titles hne
  rw [heq]
  exact display_located (hk.regular hs) _

theorem Located.seeAddress (h : s.Located) : s.seeAddress.Located := ⟨rfl, h.shown, h.address⟩

/-! ### The invariant -/

/-- Where a reading stands that was only ever led on by links. -/
structure Tracked (s : Story) : Prop where
  sound : s.Sound
  numbered : s.Numbered
  located : s.Located

theorem Tracked.seeAddress (h : s.Tracked) : s.seeAddress.Tracked :=
  ⟨h.sound.seeAddress, h.numbered.frame (s.host_alike _ _ _), h.located.seeAddress⟩

theorem display_tracked (hs : s.Sound) (hn : s.Numbered) (ht : s.store.has title = true) :
    (s.display title .normal).Tracked :=
  ⟨display_sound hs.regular hs.history title .normal, hn.display hs.regular ht .normal,
    display_located hs.regular title⟩

theorem restore_tracked (hs : s.Sound) (hn : s.store.Numbered) (h : s.restore token = (.ok (), t)) :
    t.Tracked := by
  refine ⟨restore_sound hs.regular h, ?_, ?_⟩
  · obtain ⟨ids, -, -, hids, rfl⟩ := restore_ok h
    exact (resetHistory_numbered hn).replay (s.resetHistory_kept.regular hs.regular) true _
      (has_titlesOf s.store ids)
  · obtain ⟨ids, hne, -, hids, rfl⟩ := restore_ok h
    exact replay_located (s.resetHistory_kept.regular hs.regular) true _
      (titlesOf_ne_nil hids hne)

theorem start_tracked (hs : s.Sound) (hn : s.store.Numbered)
    (hstart : s.store.has s.config.startPassage = true) : s.start.2.Tracked := by
  obtain ⟨s', hrestore, heq⟩ | ⟨outcome, heq⟩ := s.start_cases
  · rw [heq]
    exact (restore_tracked hs hn hrestore).seeAddress
  · rw [heq]
    refine Tracked.seeAddress ⟨begin_sound hs.regular, ?_, ?_⟩
    · exact (resetHistory_numbered hn).display (s.resetHistory_kept.regular hs.regular) hstart _
    · exact display_located (s.resetHistory_kept.regular hs.regular) _

/-- A look at the address finds nothing new. -/
theorem Tracked.poll_eq (h : s.Tracked) : s.poll = (.unchanged, s) := by
  rw [poll, if_pos h.located.seen.symm]

/-! ### Back links -/

/-- **The token of a back link stands for fewer ids than were read**, at least one of them, and all
of them have passages. -/
theorem Tracked.back_token (h : s.Tracked) (hl : .back token ∈ s.links) :
    ∃ ids, token = Trail.encode ids ∧ ids ≠ [] ∧ ids.length < s.history.ids.length ∧
      ∀ id ∈ ids, (s.store.findId? id).isSome := by
  obtain ⟨e, he, hopening, rfl⟩ := h.sound.back token hl
  have hentries : ∀ e ∈ s.history.oldestFirst, e.isOpening = false → e.id.isSome := fun e he ho =>
    h.numbered.entries e.bare (List.mem_map_of_mem he) ho
  rw [History.oldestFirst_eq] at hentries
  have hcurrent := hentries _ (List.mem_append_right _ (List.mem_singleton.2 rfl)) h.located.shown
  obtain ⟨ids, htoken, hbegin, hlt, hown⟩ :=
    h.sound.history.token_of_earlier he hopening hcurrent
  obtain ⟨id, hid⟩ := Option.isSome_iff_exists.1
    (hentries e (List.mem_append_left _ (List.mem_reverse.2 he)) hopening)
  refine ⟨ids, htoken, List.ne_nil_of_mem (hown id hid), hlt, fun id hin => ?_⟩
  exact h.numbered.known id (hbegin.subset hin)

/-- The story after a back link has written its token to the address. -/
def pointed (s : Story) (token : String) : Story :=
  { s with navigator := s.navigator.setAddress token }

theorem activate_back (s : Story) (token : String) :
    s.activate (.back token) = (.navigated (s.pointed token).poll.1, (s.pointed token).poll.2) := rfl

theorem pointed_alike (s : Story) (token : String) : s.Alike (s.pointed token) :=
  s.host_alike _ _ _

theorem Tracked.pointed (h : s.Tracked) (token : String) : (s.pointed token).Sound :=
  h.sound.frame (s.pointed_alike token)

/-- The address holds the token of the back link already: nothing happens. -/
theorem Tracked.poll_pointed_of_eq (h : s.Tracked) (heq : token = s.navigator.address) :
    (s.pointed token).poll = (.unchanged, s.pointed token) := by
  have hseen : (s.pointed token).navigator.address = (s.pointed token).lastAddress := by
    rw [heq]
    exact h.located.seen.symm
  rw [poll, if_pos hseen]

/-- Any other back link restores what its token stands for. -/
theorem Tracked.poll_pointed_of_ne (h : s.Tracked) (hl : .back token ∈ s.links)
    (hne : token ≠ s.navigator.address) :
    ∃ s', (s.pointed token).restore token = (.ok (), s') ∧ Trail.decode token = .ok s'.history.ids ∧
      (s.pointed token).poll = (.restored token, s'.seeAddress) := by
  obtain ⟨ids, rfl, hids, -, hknown⟩ := h.back_token hl
  have hempty := Trail.isEmptyAddress_encode hids
  have hrestore : (s.pointed (Trail.encode ids)).restore (Trail.encode ids) =
      (.ok (), (s.pointed (Trail.encode ids)).restored ids) :=
    restore_of_known hempty (Trail.decode_encode ids) hknown
  refine ⟨_, hrestore, ?_, ?_⟩
  · rw [ids_restored (h.pointed _).regular hknown, Trail.decode_encode]
  · have hseen : (s.pointed (Trail.encode ids)).navigator.address ≠
        (s.pointed (Trail.encode ids)).lastAddress := by
      intro heq
      exact hne (heq.trans h.located.seen)
    obtain ⟨hsame, -⟩ | ⟨-, he, -⟩ | ⟨-, s', hs', hp⟩ | ⟨-, e, he, -⟩ := (s.pointed _).poll_cases
    · exact absurd hsame hseen
    · exact absurd (hempty.symm.trans he) (by simp)
    · cases hrestore.symm.trans hs'
      exact hp
    · cases hrestore.symm.trans he

/-- **Following links keeps the invariant.** -/
theorem Tracked.act (h : s.Tracked) {a : Act} (ha : s.Browses a) : (s.act a).Tracked := by
  cases ha with
  | @back token hl =>
      change (s.pointed token).poll.2.Tracked
      by_cases heq : token = s.navigator.address
      · rw [h.poll_pointed_of_eq heq]
        refine ⟨h.pointed token, h.numbered.frame (s.pointed_alike token),
          ⟨?_, h.located.shown, fun hne => ?_⟩⟩
        · exact h.located.seen.trans heq.symm
        · exact heq.trans (h.located.address hne)
      · obtain ⟨s', hrestore, -, hp⟩ := h.poll_pointed_of_ne hl heq
        rw [hp]
        exact (restore_tracked (h.pointed token) h.numbered.store hrestore).seeAddress
  | @passage title broken hl ht => exact display_tracked h.sound h.numbered ht
  | @action title broken hl ht =>
      have hclicked : { s with history := s.history.click title }.Sound :=
        ⟨(s.click_kept title).regular h.sound.regular, h.sound.history.click title, h.sound.back⟩
      have hnumbered : { s with history := s.history.click title }.Numbered := by
        refine ⟨h.numbered.store, fun id hin => ?_, fun e he hopening => ?_⟩
        · exact h.numbered.known id (History.ids_click s.history title ▸ hin)
        · exact h.numbered.entries e (History.outline_click s.history title ▸ he) hopening
      exact display_tracked hclicked hnumbered ht
  | poll =>
      change s.poll.2.Tracked
      rw [h.poll_eq]
      exact h

/-- **A back link works unless the address holds its token already.**  To work is to answer that its
token was restored, and to lead to a history of the ids that the token stands for.  If the address
holds the token, nothing is restored, and the passage that is shown is the start passage, which has
left the address alone. -/
theorem back_link_works_iff (store : Store) (config : Config) (jar : Jar) (navigator : Navigator)
    (now : Nat) (hn : store.Numbered) (hstart : store.has config.startPassage = true)
    (hrun : Runs Browses (Story.new store config jar navigator now).start.2 s)
    (hl : .back token ∈ s.links) :
    (((s.activate (.back token)).1 = .navigated (.restored token) ∧
        Trail.decode token = .ok (s.activate (.back token)).2.history.ids) ↔
      token ≠ s.navigator.address) ∧
    (token = s.navigator.address → (s.activate (.back token)).1 = .navigated .unchanged ∧
      (s.activate (.back token)).2.history = s.history ∧
      s.history.current.title = some s.config.startPassage) := by
  have hs := new_sound store config jar navigator now
  have h : s.Tracked := hrun.invariant (P := Tracked) (start_tracked hs hn hstart)
    fun _ _ h ha => h.act ha
  rw [activate_back]
  refine ⟨⟨fun hworks heq => ?_, fun hne => ?_⟩, fun heq => ?_⟩
  · rw [h.poll_pointed_of_eq heq] at hworks
    cases hworks.1
  · obtain ⟨s', -, hdecode, hp⟩ := h.poll_pointed_of_ne hl hne
    rw [hp]
    exact ⟨rfl, hdecode⟩
  · rw [h.poll_pointed_of_eq heq]
    refine ⟨rfl, rfl, ?_⟩
    -- elsewhere the address holds the token for all ids, which is longer than that of the link
    obtain ⟨ids, htoken, -, hlt, -⟩ := h.back_token hl
    refine Decidable.by_contra fun hne => ?_
    have heq' := htoken.symm.trans (heq.trans (h.located.address hne))
    rw [Trail.encode_injective heq'] at hlt
    exact absurd hlt (Nat.lt_irrefl _)

/-- The reading of two passages that went there. -/
def gone : Story := (thereAndBack.build 0).start.2.act (.activate (.passage "A" false))

/-- The reading of two passages that went there and came back. -/
def returned : Story := gone.act (.activate (.passage "Start" false))

/-- There, the back link works; back at the start passage, the other one does not. -/
theorem back_links_there_and_back :
    ((gone.activate (.back "#1")).1 = .navigated (.restored "#1") ∧
        Trail.decode "#1" = .ok (gone.activate (.back "#1")).2.history.ids) ∧
      (returned.activate (.back "#1.2")).1 = .navigated .unchanged := by
  have hn : (Store.ofRecords thereAndBack.records).Numbered := Store.numbered_ofRecords _
  have hstart : (Store.ofRecords thereAndBack.records).has "Start" = true := by decide +kernel
  have hgone : Runs Browses (thereAndBack.build 0).start.2 gone :=
    .step .refl (.passage (by decide +kernel) (by decide +kernel))
  have hreturned : Runs Browses (thereAndBack.build 0).start.2 returned :=
    .step hgone (.passage (by decide +kernel) (by decide +kernel))
  refine ⟨?_, ?_⟩
  · exact (back_link_works_iff _ {} .empty {} 0 hn hstart hgone (by decide +kernel)).1.2
      (by decide +kernel)
  · exact ((back_link_works_iff _ {} .empty {} 0 hn hstart hreturned (by decide +kernel)).2
      (by decide +kernel)).1

/-- **Not every back link works**: from the start passage, the link back to the passage before it
answers that nothing has changed, and the history stays. -/
theorem back_link_fails :
    Link.back "#1.2" ∈ returned.links ∧
      (returned.activate (.back "#1.2")).1 = .navigated .unchanged ∧
      (returned.activate (.back "#1.2")).2.history.ids = [1, 2, 1] := by decide +kernel

end Story

end Gamebook
