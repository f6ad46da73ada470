/-
**Watching the address.**

The host and the story share one address, and a change of it is found only by comparing it with the
address that the story saw last.  Two things are asked of this: the story must not take what it
wrote itself for a change, and no change by the host may be lost.  The first one holds, since all
that writes the address notes what it wrote.  The second one does not: the start passage notes the
address too, although it does not write it, and so takes in a change that nothing has followed yet.

Main definitions:

* `Story.Seen` — the address is the one that the story saw last;
* `Story.Act.Own`, `Story.Act.ByReader` — acts without the host, and those of them that a reader
  does between two looks at the address;
* `Navigator.written` — what a host was asked to write to the address;
* `Story.Asks` — a story that has gone on asking its host.

Main results:

* `Story.Seen.act` — **the story sees what it writes**, whatever its macros and formatters are;
* `Story.own_writes_unchanged` — so a look at the address finds no change but those of the host;
* `Story.act_asks` — what a host was asked stays on record;
* `Story.act_of_written_eq` — what an act does that leaves the address alone;
* `Story.poll_unchanged_iff` — **an outside change is lost just when the start passage is shown**
  before the address is looked at.
-/

import Gamebook.Proofs.Story.Sound

set_option relaxedAutoImplicit false
set_option autoImplicit false

namespace Gamebook

/-! ### What a host was asked to write -/

/-- The address that a request writes. -/
def Request.address? : Request → Option String
  | address token => some token
  | _ => none

namespace Navigator

/-- What the host was asked to write to the address, the latest first. -/
def written (n : Navigator) : List String := n.requests.filterMap Request.address?

@[simp] theorem written_setAddress (n : Navigator) (token : String) :
    (n.setAddress token).written = token :: n.written := rfl

@[simp] theorem written_setTitle (n : Navigator) (title : String) :
    (n.setTitle title).written = n.written := rfl

@[simp] theorem written_requestReload (n : Navigator) : n.requestReload.written = n.written := rfl

@[simp] theorem written_focusTop (n : Navigator) : n.focusTop.written = n.written := rfl

end Navigator

namespace Story

variable {s t u : Story} {title token : String} {mode : DisplayMode}

/-! ### The story sees what it writes -/

/-- The address is the one that the story saw last. -/
def Seen (s : Story) : Prop := s.navigator.address = s.lastAddress

theorem Seen.poll_eq (h : s.Seen) : s.poll = (.unchanged, s) := if_pos h

/-- **A look at the address finds nothing** just when the address is the one seen last. -/
theorem poll_fst_eq_unchanged : s.poll.1 = .unchanged ↔ s.Seen := by
  constructor
  · intro h
    obtain ⟨hsame, -⟩ | ⟨-, -, hp⟩ | ⟨-, s', -, hp⟩ | ⟨-, e, -, hp⟩ := s.poll_cases
    · exact hsame
    all_goals
      rw [hp] at h
      cases h
  · intro h
    rw [h.poll_eq]

theorem seeAddress_seen (s : Story) : s.seeAddress.Seen := rfl

/-- A passage in sight leaves the address seen, whether it was written or not. -/
theorem display_seen (s : Story) (title : String) (hm : mode ≠ .offscreen) :
    (s.display title mode).Seen := by
  rw [display_of_ne s title hm]
  rfl

theorem Seen.display (h : s.Seen) (title : String) (mode : DisplayMode) :
    (s.display title mode).Seen := by
  by_cases hm : mode = .offscreen
  · subst hm
    exact h
  · exact display_seen s title hm

/-- The last of some passages is in sight. -/
theorem replay_seen (s : Story) (isFirst : Bool) {titles : List String} (hne : titles ≠ []) :
    (s.replay isFirst titles).Seen := by
  induction titles generalizing s isFirst with
  | nil => exact absurd rfl hne
  | cons title titles ih =>
      rw [replay_cons]
      cases titles with
      | nil => exact display_seen _ title (by simp)
      | cons next titles => exact ih _ false (by simp)

theorem restore_seen (h : s.restore token = (.ok (), t)) : t.Seen := by
  obtain ⟨ids, hne, -, hids, rfl⟩ := restore_ok h
  exact replay_seen _ true (titlesOf_ne_nil hids hne)

theorem start_seen (s : Story) : s.start.2.Seen := by
  obtain ⟨s', -, hstart⟩ | ⟨outcome, hstart⟩ := s.start_cases
  all_goals
    rw [hstart]
    exact seeAddress_seen _

/-- Whatever a look at the address finds, it has been seen afterwards. -/
theorem poll_seen (s : Story) : s.poll.2.Seen := by
  obtain ⟨hsame, hp⟩ | ⟨-, -, hp⟩ | ⟨-, s', -, hp⟩ | ⟨-, e, -, hp⟩ := s.poll_cases
  case inl =>
    rw [hp]
    exact hsame
  all_goals
    rw [hp]
    exact seeAddress_seen _

/-- The host does not write the address in this act. -/
def Act.Own : Act → Prop
  | .writeAddress _ => False
  | _ => True

/-- **The story sees what it writes.** -/
theorem Seen.act (h : s.Seen) {a : Act} (ha : a.Own) : (s.act a).Seen := by
  cases a with
  | start => exact start_seen s
  | display title mode => exact h.display title mode
  | rerender =>
      rw [Story.act, rerender]
      cases s.history.current.title with
      | none => exact h
      | some title => exact h
  | restore token => exact restore_preserves (P := Seen) h fun _ hr => restore_seen hr
  | restart => rfl
  | poll => exact poll_seen s
  | activate link =>
      cases link with
      | passage title broken => exact display_seen s title (by simp)
      | action title broken => exact display_seen _ title (by simp)
      | back token => exact poll_seen _
      | external url => exact h
  | pageElement title default => exact h
  | renderSource text => exact h
  | writeAddress address => exact ha.elim
  | clock now => exact h

theorem Seen.acts (h : s.Seen) (row : List Act) (hrow : ∀ a ∈ row, a.Own) : (s.acts row).Seen := by
  induction row generalizing s with
  | nil => exact h
  | cons a row ih =>
      obtain ⟨ha, hrow⟩ := List.forall_mem_cons.1 hrow
      exact ih (h.act ha) hrow

/-- **The story does not react to what it writes itself**: from the start of a reading on, a look at
the address finds no change and changes nothing, as long as the host does not write the address.  And
so it is again once a look at the address has found what the host wrote. -/
theorem own_writes_unchanged (s : Story) (row : List Act) (hrow : ∀ a ∈ row, a.Own) :
    (s.start.2.acts row).poll = (.unchanged, s.start.2.acts row) ∧
      ∀ address, ((s.act (.writeAddress address)).poll.2.acts row).poll =
        (.unchanged, (s.act (.writeAddress address)).poll.2.acts row) :=
  ⟨((start_seen s).acts row hrow).poll_eq, fun _ => ((poll_seen _).acts row hrow).poll_eq⟩

/-- A reader goes there and follows the link back, and the story is begun anew. -/
def roundTrip : List Act :=
  [.activate (.passage "A" false), .activate (.back "#1"), .restart, .start]

/-- None of this is taken for a change, not even after the host has asked for a passage that does not
exist. -/
theorem own_writes_unchanged_roundTrip :
    (∀ a ∈ roundTrip, a.Own) ∧
      ((thereAndBack.build 0).start.2.acts roundTrip).poll.1 = .unchanged ∧
      (((thereAndBack.build 0).act (.writeAddress "#9")).poll.2.acts roundTrip).poll.1 =
        .unchanged := by
  have hrow : ∀ a ∈ roundTrip, a.Own := by simp [roundTrip, Act.Own]
  obtain ⟨hstart, hwrite⟩ := own_writes_unchanged (thereAndBack.build 0) roundTrip hrow
  exact ⟨hrow, congrArg Prod.fst hstart, congrArg Prod.fst (hwrite "#9")⟩

/-! ### What a host was asked stays on record -/

/-- The story has gone on asking its host, with the same settings. -/
structure Asks (s t : Story) : Prop where
  requests : s.navigator.requests <:+ t.navigator.requests
  config : t.config = s.config

theorem Asks.refl (s : Story) : s.Asks s := ⟨List.suffix_refl _, rfl⟩

theorem Asks.trans (h : s.Asks t) (h' : t.Asks u) : s.Asks u :=
  ⟨h.requests.trans h'.requests, h'.config.trans h.config⟩

theorem Asks.written (h : s.Asks t) : s.navigator.written <:+ t.navigator.written :=
  h.requests.filterMap _

/-- What was written in between was written in the end. -/
theorem Asks.written_eq (h : s.Asks t) (h' : t.Asks u)
    (he : u.navigator.written = s.navigator.written) :
    t.navigator.written = s.navigator.written ∧ u.navigator.written = t.navigator.written := by
  have hle := h.written.length_le
  have hle' := h'.written.length_le
  have hlen : u.navigator.written.length = s.navigator.written.length := congrArg List.length he
  exact ⟨(h.written.eq_of_length (by omega)).symm, (h'.written.eq_of_length (by omega)).symm⟩

theorem announce_asks (s : Story) (title token : String) : s.Asks (s.announce title token) := by
  refine ⟨?_, rfl⟩
  by_cases hstart : title = s.config.startPassage
  · rw [announce, if_pos hstart]
    exact ⟨[.focus, .title s.title], rfl⟩
  · rw [announce, if_neg hstart]
    exact ⟨[.focus, .address token, .title (s.title ++ ": " ++ title)], rfl⟩

theorem showPassage_asks (s : Story) (p : Passage) (mode : DisplayMode) :
    s.Asks (s.showPassage p mode) := ⟨List.suffix_refl _, rfl⟩

theorem display_asks (s : Story) (title : String) (mode : DisplayMode) :
    s.Asks (s.display title mode) := by
  have hshow : s.Asks ((s.pushed title).showPassage (s.store.get title) mode) :=
    ⟨List.suffix_refl _, rfl⟩
  by_cases hm : mode = .offscreen
  · subst hm
    exact hshow
  · rw [display_of_ne s title hm]
    exact hshow.trans (announce_asks _ _ _)

theorem replay_asks (s : Story) (isFirst : Bool) (titles : List String) :
    s.Asks (s.replay isFirst titles) := by
  induction titles generalizing s isFirst with
  | nil => exact .refl s
  | cons title titles ih =>
      have hrequests := congrArg Navigator.requests (navigator_reached s isFirst title)
      have hreached : s.Asks (s.reached isFirst title) :=
        ⟨⟨[], hrequests.symm⟩, (s.reached_kept isFirst title).config⟩
      rw [replay_cons]
      exact (hreached.trans (display_asks _ _ _)).trans (ih _ _)

theorem restore_asks (h : s.restore token = (.ok (), t)) : s.Asks t := by
  obtain ⟨ids, -, -, -, rfl⟩ := restore_ok h
  have hreset : s.Asks s.resetHistory := ⟨List.suffix_refl _, rfl⟩
  exact hreset.trans (replay_asks _ _ _)

theorem poll_asks (s : Story) : s.Asks s.poll.2 := by
  obtain ⟨-, hp⟩ | ⟨-, -, hp⟩ | ⟨-, s', hr, hp⟩ | ⟨-, e, -, hp⟩ := s.poll_cases
  · rw [hp]
    exact .refl s
  · rw [hp]
    exact ⟨List.suffix_cons _ _, rfl⟩
  · rw [hp]
    have hrestored := restore_asks hr
    exact ⟨hrestored.requests, hrestored.config⟩
  · rw [hp]
    exact ⟨List.suffix_refl _, rfl⟩

/-! ### Between two looks at the address -/

/-- A reader does this between two looks at the address: the host writes nothing, and nothing is
begun anew or restored by its token. -/
def Act.ByReader : Act → Prop
  | .display _ _ => True
  | .rerender => True
  | .activate _ => True
  | .pageElement _ _ => True
  | .renderSource _ => True
  | .clock _ => True
  | .start => False
  | .restore _ => False
  | .restart => False
  | .poll => False
  | .writeAddress _ => False

/-- The act shows the passage of this title in sight. -/
def Act.Shows (title : String) : Act → Prop
  | .display shown mode => shown = title ∧ mode ≠ .offscreen
  | .activate (.passage shown _) => shown = title
  | .activate (.action shown _) => shown = title
  | _ => False

/-- A back link writes its token to the address, whatever comes of it. -/
theorem written_back (s : Story) (token : String) :
    s.navigator.written ≠ (s.act (.activate (.back token))).navigator.written := by
  intro heq
  have hle := (poll_asks { s with navigator := s.navigator.setAddress token }).written.length_le
  have hlen := congrArg List.length heq
  change (token :: s.navigator.written).length ≤
    (s.act (.activate (.back token))).navigator.written.length at hle
  rw [List.length_cons] at hle
  omega

theorem act_asks (s : Story) {a : Act} (ha : a.ByReader) : s.Asks (s.act a) := by
  cases a with
  | display title mode => exact display_asks s title mode
  | rerender =>
      rw [act, rerender]
      cases s.history.current.title with
      | none => exact .refl s
      | some title => exact showPassage_asks s _ _
  | activate link =>
      cases link with
      | passage title broken => exact display_asks s title .normal
      | action title broken =>
          have hd := display_asks { s with history := s.history.click title } title .normal
          exact ⟨hd.requests, hd.config⟩
      | back token =>
          have hp := poll_asks { s with navigator := s.navigator.setAddress token }
          exact ⟨(List.suffix_cons _ _).trans hp.requests, hp.config⟩
      | external url => exact .refl s
  | pageElement title default => exact ⟨List.suffix_refl _, rfl⟩
  | renderSource text => exact ⟨List.suffix_refl _, rfl⟩
  | clock now => exact ⟨List.suffix_refl _, rfl⟩
  | start => exact ha.elim
  | restore token => exact ha.elim
  | restart => exact ha.elim
  | poll => exact ha.elim
  | writeAddress address => exact ha.elim

/-- The address stays as it is, and it is seen if something was shown that makes the story see it;
otherwise the address seen last stays as it is too. -/
structure LeavesAddress (s t : Story) (shown : Prop) : Prop where
  address : t.navigator.address = s.navigator.address
  seen : shown → t.lastAddress = s.navigator.address
  unseen : ¬shown → t.lastAddress = s.lastAddress

variable {shown shown' : Prop}

theorem LeavesAddress.trans (h : s.LeavesAddress t shown) (h' : t.LeavesAddress u shown') :
    s.LeavesAddress u (shown ∨ shown') where
  address := h'.address.trans h.address
  seen hs := by
    by_cases hlast : shown'
    · exact (h'.seen hlast).trans h.address
    · exact (h'.unseen hlast).trans (h.seen (hs.resolve_right hlast))
  unseen hs := by
    obtain ⟨hfirst, hlast⟩ := not_or.1 hs
    exact (h'.unseen hlast).trans (h.unseen hfirst)

/-- A passage that leaves the address alone is out of sight, or it is the start passage. -/
theorem display_of_written_eq (s : Story) (title : String) (mode : DisplayMode)
    (hw : (s.display title mode).navigator.written = s.navigator.written) :
    s.LeavesAddress (s.display title mode) (title = s.config.startPassage ∧ mode ≠ .offscreen) := by
  by_cases hm : mode = .offscreen
  · subst hm
    exact ⟨rfl, fun hs => absurd rfl hs.2, fun _ => rfl⟩
  · have hconfig : ((s.pushed title).showPassage (s.store.get title) mode).config = s.config := rfl
    rw [display_of_ne s title hm, announce, hconfig] at hw ⊢
    by_cases hstart : title = s.config.startPassage
    · rw [if_pos hstart]
      exact ⟨rfl, fun _ => rfl, fun hs => absurd ⟨hstart, hm⟩ hs⟩
    · -- any other passage in sight writes its token
      rw [if_neg hstart] at hw
      have hlen := congrArg List.length hw
      simp only [Navigator.written_focusTop, Navigator.written_setAddress,
        Navigator.written_setTitle, List.length_cons] at hlen
      change s.navigator.written.length + 1 = s.navigator.written.length at hlen
      omega

/-- **What an act does that leaves the address alone**: it makes the story see the address just when
it shows the start passage. -/
theorem act_of_written_eq {a : Act} (ha : a.ByReader)
    (hw : (s.act a).navigator.written = s.navigator.written) :
    s.LeavesAddress (s.act a) (a.Shows s.config.startPassage) := by
  have hquiet : ∀ {t : Story} {shown : Prop}, ¬shown → t.navigator = s.navigator →
      t.lastAddress = s.lastAddress → s.LeavesAddress t shown := fun hno hn hl =>
    ⟨congrArg Navigator.address hn, fun hs => absurd hs hno, fun _ => hl⟩
  cases a with
  | display title mode => exact display_of_written_eq s title mode hw
  | rerender =>
      refine hquiet id ?_ ?_
      all_goals
        rw [act, rerender]
        cases s.history.current.title <;> rfl
  | activate link =>
      cases link with
      | passage title broken =>
          obtain ⟨haddress, hseen, hunseen⟩ := display_of_written_eq s title .normal hw
          exact ⟨haddress, fun hs => hseen ⟨hs, by simp⟩, fun hs => hunseen fun h => hs h.1⟩
      | action title broken =>
          obtain ⟨haddress, hseen, hunseen⟩ :=
            display_of_written_eq { s with history := s.history.click title } title .normal hw
          exact ⟨haddress, fun hs => hseen ⟨hs, by simp⟩, fun hs => hunseen fun h => hs h.1⟩
      | back token => exact absurd hw.symm (written_back s token)
      | external url => exact hquiet id rfl rfl
  | pageElement title default => exact hquiet id rfl rfl
  | renderSource text => exact hquiet id rfl rfl
  | clock now => exact hquiet id rfl rfl
  | start => exact ha.elim
  | restore token => exact ha.elim
  | restart => exact ha.elim
  | poll => exact ha.elim
  | writeAddress address => exact ha.elim

theorem acts_asks (s : Story) (row : List Act) (hrow : ∀ a ∈ row, a.ByReader) :
    s.Asks (s.acts row) := by
  induction row generalizing s with
  | nil => exact .refl s
  | cons a row ih =>
      obtain ⟨ha, hrow⟩ := List.forall_mem_cons.1 hrow
      exact (act_asks s ha).trans (ih _ hrow)

/-- In a row of such acts, one that shows the start passage is enough. -/
theorem acts_of_written_eq (s : Story) (row : List Act) (hrow : ∀ a ∈ row, a.ByReader)
    (hw : (s.acts row).navigator.written = s.navigator.written) :
    s.LeavesAddress (s.acts row) (∃ a ∈ row, a.Shows s.config.startPassage) := by
  induction row generalizing s with
  | nil => exact ⟨rfl, fun ⟨_, hin, _⟩ => absurd hin List.not_mem_nil, fun _ => rfl⟩
  | cons a row ih =>
      obtain ⟨ha, hrow⟩ := List.forall_mem_cons.1 hrow
      have hasks := act_asks s ha
      -- an address written and then written over would still be on record
      obtain ⟨hfirst, hrest⟩ := hasks.written_eq (acts_asks (s.act a) row hrow) hw
      have hboth := (act_of_written_eq ha hfirst).trans (ih (s.act a) hrow hrest)
      rw [hasks.config, ← List.exists_mem_cons_iff] at hboth
      exact hboth

/-- **An outside change of the address is lost just when the start passage is shown** before the
address is looked at.  The host has written an address that the story did not see last, and nothing
has been written to it since; then the next look finds nothing if the start passage was shown in
sight in the meantime, and it finds the change otherwise. -/
theorem poll_unchanged_iff (s : Story) (address : String) (row : List Act)
    (hrow : ∀ a ∈ row, a.ByReader) (hne : address ≠ s.lastAddress)
    (hstands : ((s.act (.writeAddress address)).acts row).navigator.written =
      s.navigator.written) :
    ((s.act (.writeAddress address)).acts row).poll.1 = .unchanged ↔
      ∃ a ∈ row, a.Shows s.config.startPassage := by
  obtain ⟨haddress, hseen, hunseen⟩ :=
    acts_of_written_eq (s.act (.writeAddress address)) row hrow hstands
  rw [poll_fst_eq_unchanged, Seen, haddress]
  constructor
  · intro hlast
    by_contra hno
    exact hne (hlast.trans (hunseen hno))
  · intro hs
    exact (hseen hs).symm

/-- The story of two passages, begun, after the host has asked for the reading that goes on to the
second one and a further act. -/
def askedFor (a : Act) : Story :=
  ((thereAndBack.build 0).start.2.act (.writeAddress "#1.2")).acts [a]

/-- A passage shown out of sight leaves the change to be found; the start passage loses it. -/
theorem poll_unchanged_iff_askedFor :
    (askedFor (.display "A" .offscreen)).poll.1 ≠ .unchanged ∧
      (askedFor (.display "Start" .normal)).poll.1 = .unchanged := by
  have hne : "#1.2" ≠ (thereAndBack.build 0).start.2.lastAddress := by decide +kernel
  refine ⟨fun hlost => ?_, ?_⟩
  · have hshown := (poll_unchanged_iff (thereAndBack.build 0).start.2 "#1.2"
      [.display "A" .offscreen] (by simp [Act.ByReader]) hne (by decide +kernel)).1 hlost
    simp [Act.Shows] at hshown
  · refine (poll_unchanged_iff (thereAndBack.build 0).start.2 "#1.2" [.display "Start" .normal]
      (by simp [Act.ByReader]) hne (by decide +kernel)).2 ?_
    exact ⟨.display "Start" .normal, List.mem_singleton.2 rfl, rfl, by simp⟩

/-- **Not every outside change is found**: the host writes the token of a reading that can be restored,
the start passage is shown, and the address still holds that token, since nothing was written to it;
yet a look at it finds nothing. -/
theorem outside_change_lost :
    "#1.2" ≠ (thereAndBack.build 0).start.2.lastAddress ∧
      ((thereAndBack.build 0).start.2.restore "#1.2").1.isOk = true ∧
      (askedFor (.display "Start" .normal)).navigator.address = "#1.2" ∧
      (askedFor (.display "Start" .normal)).navigator.written =
        (thereAndBack.build 0).start.2.navigator.written ∧
      (askedFor (.display "Start" .normal)).poll.1 = .unchanged := by decide +kernel

end Story

end Gamebook
