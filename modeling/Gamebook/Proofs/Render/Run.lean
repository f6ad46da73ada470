/-
**Runs of a scanner, mark by mark.**

A run of a scanner does one of three things: it ends with the text, it ends at the mark that was
waited for, or it hands a mark to its formatter and goes on.  An argument about all runs follows
these three cases.

Main definitions:

* `Scanner.IsAt` — the scanner stands behind a mark.

Main results:

* `Scanner.isAt_find` — a formatter starts behind its mark;
* `Kit.run_of_none`, `Kit.run_of_stop`, `Kit.run_of_rule` — the three cases as equations;
* `Kit.length_rest_handled` — behind a mark there is less to come;
* `Kit.run_induction` — **induction along a run**;
* `Kit.run_of_hit` — a formatter takes over where its mark stands;
* `Kit.scanInside_of_run` — what an element holds is what a run reads one level further in;
* `Kit.rest_run`, `Kit.render_of_run` — a run that waits for no mark reads to the end of the text,
  and that is what a text is rendered by.
-/

import Gamebook.Render.Scan

set_option relaxedAutoImplicit false
set_option autoImplicit false

namespace Gamebook

/-! ### The formatter of a mark -/

theorem Formatters.mem_of_hitFrom? {fs : Formatters} {i index length : Nat}
    {previous : Option Char} {text : List Char} {f : Formatter}
    (h : fs.hitFrom? i previous text = some (.rule index f length)) : f ∈ fs := by
  induction fs generalizing i with
  | nil => simp [hitFrom?] at h
  | cons g fs ih =>
      rw [hitFrom?] at h
      split at h
      · cases h
        exact List.mem_cons_self
      · exact List.mem_cons_of_mem _ (ih h)

/-- The formatter of the next mark is one of the table. -/
theorem Formatters.mem_of_next? {fs : Formatters} {stop : Option Pattern}
    {previous : Option Char} {text skipped : List Char} {index length : Nat} {f : Formatter}
    (h : fs.next? stop previous text = some (skipped, .rule index f length)) : f ∈ fs := by
  induction text generalizing previous skipped with
  | nil => simp [next?] at h
  | cons c rest ih =>
      rw [next?] at h
      split at h
      · rename_i hit hhit
        cases h
        rw [hit?] at hhit
        split at hhit
        · cases hhit
        · exact mem_of_hitFrom? hhit
      · obtain ⟨⟨skipped', hit'⟩, hn, heq⟩ := Option.map_eq_some_iff.1 h
        cases heq
        exact ih hn

/-! ### Where a formatter starts -/

/-- The scanner stands behind a mark, which is not empty. -/
def Scanner.IsAt (p : Pattern) (s : Scanner) : Prop :=
  ∃ n, 0 < n ∧ p s.foundAt.previous s.foundAt.rest = some n ∧
    s.found = s.foundAt.rest.take n ∧ s.cursor = s.foundAt.forward n

theorem Cursor.forward_succ (before : List Char) (ch : Char) (rest : List Char) (n : Nat) :
    (Cursor.mk before (ch :: rest)).forward (n + 1) = (Cursor.mk (ch :: before) rest).forward n := by
  simp [forward]

theorem Formatters.start_of_hitFrom? {fs : Formatters} {i index length : Nat}
    {previous : Option Char} {text : List Char} {f : Formatter}
    (h : fs.hitFrom? i previous text = some (.rule index f length)) :
    0 < length ∧ f.start previous text = some length := by
  induction fs generalizing i with
  | nil => simp [hitFrom?] at h
  | cons g fs ih =>
      rw [hitFrom?] at h
      split at h
      · rename_i n hn
        obtain ⟨hstart, hpos⟩ := Option.filter_eq_some_iff.1 hn
        cases h
        exact ⟨by simpa using hpos, hstart⟩
      · exact ih h

theorem Formatters.ne_stop_of_hitFrom? {fs : Formatters} {i length : Nat}
    {previous : Option Char} {text : List Char} :
    fs.hitFrom? i previous text ≠ some (.stop length) := by
  induction fs generalizing i with
  | nil => simp [hitFrom?]
  | cons g fs ih =>
      rw [hitFrom?]
      split
      · simp
      · exact ih

/-- The next mark stands at the point where it is found. -/
theorem Formatters.hit?_of_next? {fs : Formatters} {stop : Option Pattern} {c : Cursor}
    {skipped : List Char} {hit : Hit} (h : fs.next? stop c.previous c.rest = some (skipped, hit)) :
    fs.hit? stop (c.forward skipped.length).previous (c.forward skipped.length).rest = some hit := by
  obtain ⟨before, rest⟩ := c
  induction rest generalizing before skipped with
  | nil => simp [next?] at h
  | cons ch rest ih =>
      rw [next?] at h
      split at h
      · rename_i hit' hhit
        cases h
        exact hhit
      · obtain ⟨⟨skipped', hit'⟩, hn, heq⟩ := Option.map_eq_some_iff.1 h
        cases heq
        rw [List.length_cons, Cursor.forward_succ]
        exact ih (ch :: before) hn

/-- It is the mark of its formatter there. -/
theorem Formatters.start_of_next? {fs : Formatters} {stop : Option Pattern} {c : Cursor}
    {skipped : List Char} {index length : Nat} {f : Formatter}
    (h : fs.next? stop c.previous c.rest = some (skipped, .rule index f length)) :
    0 < length ∧ f.start (c.forward skipped.length).previous (c.forward skipped.length).rest =
      some length := by
  have hhit := hit?_of_next? h
  rw [hit?] at hhit
  split at hhit
  · cases hhit
  · exact start_of_hitFrom? hhit

/-- Or it is the mark that is waited for. -/
theorem Formatters.stop_of_next? {fs : Formatters} {stop : Option Pattern} {c : Cursor}
    {skipped : List Char} {length : Nat}
    (h : fs.next? stop c.previous c.rest = some (skipped, .stop length)) :
    ∃ p, stop = some p ∧ 0 < length ∧
      p (c.forward skipped.length).previous (c.forward skipped.length).rest = some length := by
  have hhit := hit?_of_next? h
  rw [hit?] at hhit
  split at hhit
  · rename_i n hn
    obtain ⟨p, hp, hnonempty⟩ := Option.bind_eq_some_iff.1 hn
    obtain ⟨hmark, hpos⟩ := Option.filter_eq_some_iff.1 hnonempty
    cases hhit
    exact ⟨p, hp, by simpa using hpos, hmark⟩
  · exact absurd hhit ne_stop_of_hitFrom?

/-- The mark that is waited for is the next one where it stands. -/
theorem Formatters.next?_stop {fs : Formatters} {p : Pattern} {previous : Option Char}
    {text : List Char} {n : Nat} (hne : text ≠ []) (h : p previous text = some n) (hpos : 0 < n) :
    fs.next? (some p) previous text = some ([], .stop n) := by
  obtain ⟨c, rest, rfl⟩ := List.exists_cons_of_ne_nil hne
  have hnonempty : p.nonempty? previous (c :: rest) = some n := by
    rw [Pattern.nonempty?, h]
    exact if_pos (decide_eq_true hpos)
  simp [next?, hit?, hnonempty]

theorem Scanner.isAt_find {fs : Formatters} {stop : Option Pattern} {s : Scanner}
    {skipped : List Char} {index length : Nat} {f : Formatter}
    (h : fs.next? stop s.cursor.previous s.cursor.rest = some (skipped, .rule index f length)) :
    (s.find skipped length).IsAt f.start := by
  obtain ⟨hpos, hstart⟩ := Formatters.start_of_next? h
  exact ⟨length, hpos, hstart, rfl, rfl⟩

namespace Kit

variable {kit : Kit} {ctx : Context} {stop : Option Pattern} {s : Scanner}

/-! ### The three cases -/

/-- Without a further mark the rest is plain text. -/
theorem run_of_none (h : kit.formatters.next? stop s.cursor.previous s.cursor.rest = none) :
    kit.run ctx stop s = s.finish := by
  rw [run]
  split
  · rfl
  · rename_i hn
    rw [h] at hn
    cases hn
  · rename_i hn
    rw [h] at hn
    cases hn

/-- A run ends behind the mark that was waited for. -/
theorem run_of_stop {skipped : List Char} {length : Nat}
    (h : kit.formatters.next? stop s.cursor.previous s.cursor.rest =
      some (skipped, .stop length)) :
    kit.run ctx stop s = s.find skipped length := by
  rw [run]
  split
  · rename_i hn
    rw [h] at hn
    cases hn
  · rename_i hn
    rw [h] at hn
    cases hn
    rfl
  · rename_i hn
    rw [h] at hn
    cases hn

/-- A run goes on behind the mark of a formatter. -/
theorem run_of_rule {skipped : List Char} {index length : Nat} {f : Formatter}
    (h : kit.formatters.next? stop s.cursor.previous s.cursor.rest =
      some (skipped, .rule index f length)) :
    kit.run ctx stop s = kit.run ctx stop (kit.handled ctx f (s.find skipped length)) := by
  rw [run.eq_def kit ctx stop s]
  split
  · rename_i hn
    rw [h] at hn
    cases hn
  · rename_i hn
    rw [h] at hn
    cases hn
  · rename_i hn
    rw [h] at hn
    cases hn
    rfl

/-- A formatter whose mark stands at the cursor takes over there. -/
theorem run_of_hit {c : Char} {rest : List Char} (hrest : s.cursor.rest = c :: rest)
    {index length : Nat} {f : Formatter}
    (hhit : kit.formatters.hit? stop s.cursor.previous (c :: rest) = some (.rule index f length))
    {t : Scanner} (hhandle : f.handle kit.macros ctx (s.find [] length) = some t)
    (hlt : t.cursor.rest.length < s.cursor.rest.length) :
    kit.run ctx stop s = kit.run ctx stop t := by
  have hnext : kit.formatters.next? stop s.cursor.previous s.cursor.rest =
      some ([], .rule index f length) := by
    rw [hrest, Formatters.next?, hhit]
  rw [run_of_rule hnext, handled, hhandle]
  exact congrArg _ (if_pos hlt)

/-- What is read inside of an element is what a run one level further in reads. -/
theorem scanInside_of_run {left : Nat} {p : Pattern} {inside : List Node} {t : Scanner}
    (hrun : kit.run (kit.context left) (some p) { s with nodes := inside }.enter = t) :
    (kit.context (left + 1)).scanInside p inside s =
      (t.nodes, { t.leave with nodes := s.nodes }) := by
  subst hrun
  rfl

/-! ### Induction -/

theorem length_rest_find {skipped : List Char} {hit : Hit}
    (h : kit.formatters.next? stop s.cursor.previous s.cursor.rest = some (skipped, hit)) :
    (s.find skipped hit.length).cursor.rest.length < s.cursor.rest.length := by
  have hd := Formatters.length_drop_lt _ _ _ _ _ _ h
  simpa [Scanner.find] using hd

/-- Behind a mark there is less to come, wherever its formatter has put the cursor. -/
theorem length_rest_handled (ctx : Context) {skipped : List Char} {index length : Nat} {f : Formatter}
    (h : kit.formatters.next? stop s.cursor.previous s.cursor.rest =
      some (skipped, .rule index f length)) :
    (kit.handled ctx f (s.find skipped length)).cursor.rest.length < s.cursor.rest.length := by
  have hm : (s.find skipped length).cursor.rest.length < s.cursor.rest.length :=
    length_rest_find h
  have hfound : (s.find skipped length).foundAt.rest.length ≤ s.cursor.rest.length := by
    simp [Scanner.find]
  rw [handled]
  split
  · exact hm
  · split
    · omega
    · exact hm

/-- **Induction along a run**: what holds where a run ends, and holds of a run if it holds of the
run behind its first mark, holds of every run. -/
theorem run_induction (kit : Kit) (ctx : Context) (stop : Option Pattern)
    {motive : Scanner → Prop}
    (none : ∀ s, kit.formatters.next? stop s.cursor.previous s.cursor.rest = none → motive s)
    (stopped : ∀ s skipped length, kit.formatters.next? stop s.cursor.previous s.cursor.rest =
      some (skipped, .stop length) → motive s)
    (rule : ∀ s skipped index f length,
      kit.formatters.next? stop s.cursor.previous s.cursor.rest =
        some (skipped, .rule index f length) →
      motive (kit.handled ctx f (s.find skipped length)) → motive s) (s : Scanner) : motive s := by
  generalize hn : s.cursor.rest.length = n
  induction n using Nat.strongRecOn generalizing s with
  | ind n ih =>
      cases hnext : kit.formatters.next? stop s.cursor.previous s.cursor.rest with
      | none => exact none s hnext
      | some found =>
          obtain ⟨skipped, hit⟩ := found
          cases hit with
          | stop length => exact stopped s skipped length hnext
          | rule index f length =>
              have hlt := length_rest_handled ctx hnext
              exact rule s skipped index f length hnext (ih _ (hn ▸ hlt) _ rfl)

/-- A scan that waits for no mark reads to the end of the text. -/
theorem rest_run (kit : Kit) (ctx : Context) (s : Scanner) :
    (kit.run ctx none s).cursor.rest = [] := by
  induction s using run_induction kit ctx none with
  | none s hn =>
      rw [run_of_none hn]
      exact Cursor.rest_toEnd _
  | stopped s skipped length hn =>
      obtain ⟨p, hp, -⟩ := Formatters.stop_of_next? hn
      cases hp
  | rule s skipped index f length hn ih => rwa [run_of_rule hn]

/-- A text of which all has been read is rendered to what has been shown so far. -/
theorem render_of_run {left : Nat} (hdepth : kit.setting.config.maxDepth = left + 1)
    {text : List Char} {page : Page} {t : Scanner}
    (hrun : kit.run (kit.context left) none (.start text [] page.enter) =
      kit.run (kit.context left) none t) (hrest : t.cursor.rest = []) :
    kit.render text page = (t.nodes.reverse, t.page.leave) := by
  have hnext : kit.formatters.next? none t.cursor.previous t.cursor.rest = none := by
    rw [hrest]
    rfl
  have hfinish : t.finish.nodes = t.nodes ∧ t.finish.page = t.page := by
    simp [Scanner.finish, Scanner.toEnd, Scanner.say, hrest, Node.addText]
  have hrender : (kit.context (left + 1)).render text [] page = .ok (t.nodes, t.page.leave) := by
    rw [← hfinish.1, ← hfinish.2, ← run_of_none hnext, ← hrun]
    rfl
  rw [render, renderIn, hdepth, hrender]

end Kit

end Gamebook
