/-
**Scanning words and macro calls.**

With the standard formatters no letter is a mark, so words are said letter by letter.  Two angle
brackets are the mark of a macro call; the call is read whole, run, and the scanner goes on behind
it.

Main definitions:

* `Kit.called` — the scanner behind a macro call.

Main results:

* `Formatters.hit?_call` — what stands at a call;
* `Construct.call?_spaced` — a call is read as it was written;
* `Kit.run_plain`, `Kit.run_call` — **one step of a run**: plain characters, and a call;
* `Kit.render_outcome`, `Kit.render_macro` — a text that is one call of a macro that shows nothing.
-/

import Gamebook.Macro.Params
import Gamebook.Macro.Standard
import Gamebook.Proofs.Render.Marks

set_option relaxedAutoImplicit false
set_option autoImplicit false

namespace Gamebook

/-! ### What stands at a call -/

namespace Formatters

open Standard Pattern in
/-- Two angle brackets that are not three are the mark of a macro call. -/
theorem hit?_call {c : Char} (hc : c ≠ '<') (text : List Char) (previous : Option Char) :
    Formatters.standard.hit? none previous ('<' :: '<' :: c :: text) =
      some (.rule 13 Standard.call 2) := by
  have hblock : ['<', '<', '<', '\n'].isPrefixOf ('<' :: '<' :: c :: text) = false := by
    simp [List.isPrefixOf, Ne.symm hc]
  have habsent : ∀ f ∈ inOrder.take 13, f.start.Absent ('<' :: '<' :: c :: text) :=
    absent_of_suspects (List.take_subset 13 firsts)
      (List.forall_mem_singleton.2 (absent_literal hblock).onLine)
  exact hit?_of_first (inOrder.drop 14) habsent (Nat.succ_pos 1) rfl

end Formatters

/-! ### Reading a call -/

namespace Construct

/-- A call is read in three parts, its name, blanks, and its arguments, up to the first closing
bracket.  It is one only if another closing bracket follows. -/
theorem call?_of_parts {name blanks arguments rest : List Char} (hne : name ≠ [])
    (hname : name.all isCallNameChar = true)
    (hblanks : ∀ c ∈ blanks, Text.isBlank c = true)
    (hplain : ∀ c ∈ arguments, (c != '>') = true)
    (hedge : (blanks ++ (arguments ++ '>' :: rest)).takeWhile isCallNameChar = [])
    (htight : (arguments ++ '>' :: rest).takeWhile Text.isBlank = []) :
    call? ('<' :: '<' :: (name ++ (blanks ++ (arguments ++ '>' :: rest)))) =
      if rest.head? = some '>' then
        some (⟨name, arguments⟩, name.length + blanks.length + arguments.length + 4)
      else none := by
  have hread : ∀ {p : Char → Bool} {text behind : List Char}, (∀ c ∈ text, p c = true) →
      behind.takeWhile p = [] → (text ++ behind).takeWhile p = text := by
    intro p text behind htext hbehind
    rw [List.takeWhile_append_of_pos htext, hbehind, List.append_nil]
  have hend : ('>' :: rest).takeWhile (· != '>') = [] :=
    List.takeWhile_cons_of_neg (by decide)
  obtain ⟨c, others, rfl⟩ := List.exists_cons_of_ne_nil hne
  rw [call?]
  simp only [hread (List.all_eq_true.1 hname) hedge, List.drop_left, hread hblanks htight,
    hread hplain hend]
  cases rest with
  | nil => rfl
  | cons d rest =>
      by_cases hd : d = '>'
      · rw [hd]
        rfl
      · rw [if_neg (by simpa using hd)]
        split
        · rename_i heq
          cases heq
          exact absurd rfl hd
        · rfl

/-- **A call is read as it was written**, whatever blanks stand behind its name: they are no part of
its argument. -/
theorem call?_spaced {name blanks written : List Char} (hne : name ≠ [])
    (hname : name.all isCallNameChar = true) (hblanks : ∀ c ∈ blanks, Text.isBlank c = true)
    (hgap : blanks = [] → written = []) (ha : '>' ∉ written) (rest : List Char) :
    call? ('<' :: '<' :: (name ++ (blanks ++ (written ++ ['>', '>']))) ++ rest) =
      some (⟨name, Program.argument written⟩,
        ('<' :: '<' :: (name ++ (blanks ++ (written ++ ['>', '>'])))).length) := by
  have hparts : written = written.takeWhile Text.isBlank ++ Program.argument written :=
    List.takeWhile_append_dropWhile.symm
  have htext : '<' :: '<' :: (name ++ (blanks ++ (written ++ ['>', '>']))) ++ rest =
      '<' :: '<' :: (name ++ ((blanks ++ written.takeWhile Text.isBlank) ++
        (Program.argument written ++ '>' :: '>' :: rest))) := by
    rw [List.append_assoc blanks, ← List.append_assoc (written.takeWhile _), ← hparts]
    simp
  have hlength : ('<' :: '<' :: (name ++ (blanks ++ (written ++ ['>', '>'])))).length =
      name.length + (blanks ++ written.takeWhile Text.isBlank).length +
        (Program.argument written).length + 4 := by
    have h := congrArg List.length hparts
    simp only [List.length_cons, List.length_append, List.length_nil] at h ⊢
    omega
  rw [htext, hlength]
  refine (call?_of_parts hne hname ?_ ?_ ?_ ?_).trans (if_pos rfl)
  · intro c hc
    rcases List.mem_append.1 hc with hc | hc
    · exact hblanks c hc
    · exact List.all_eq_true.1 List.all_takeWhile c hc
  · intro c hc
    have hin : c ∈ written := (List.dropWhile_suffix _).subset hc
    exact bne_iff_ne.2 (ne_of_mem_of_not_mem hin ha)
  · cases blanks with
    | nil =>
        rw [hgap rfl]
        exact List.takeWhile_cons_of_neg (by decide)
    | cons c blanks =>
        have hblank := hblanks c List.mem_cons_self
        exact List.takeWhile_cons_of_neg (by simp [isCallNameChar, hblank])
  · cases harg : Program.argument written with
    | nil => exact List.takeWhile_cons_of_neg (by decide)
    | cons c argument =>
        have hhead := List.head?_dropWhile_not Text.isBlank written
        rw [← Program.argument, harg] at hhead
        exact List.takeWhile_cons_of_neg (by simpa using hhead)

theorem call?_call {name written : List Char} (hne : name ≠ [])
    (hname : name.all isCallNameChar = true) (ha : '>' ∉ written) (rest : List Char) :
    call? (Program.call name written ++ rest) =
      some (⟨name, Program.argument written⟩, (Program.call name written).length) := by
  have hblanks : ∀ c ∈ [' '], Text.isBlank c = true := List.forall_mem_singleton.2 (by decide)
  exact call?_spaced hne hname hblanks (fun h => absurd h (List.cons_ne_nil _ _)) ha rest

end Construct

/-! ### Steps of a run -/

/-- Text is added in one piece or in two. -/
theorem Node.addText_addText (text more : List Char) (nodes : List Node) :
    addText more (addText text nodes) = addText (text ++ more) nodes := by
  cases text with
  | nil => rfl
  | cons c text =>
      cases more with
      | nil =>
          rw [List.append_nil]
          rfl
      | cons d more =>
          have hjoin : String.ofList (c :: (text ++ d :: more)) =
              String.ofList (c :: text) ++ String.ofList (d :: more) := by
            rw [← List.cons_append, String.ofList_append]
          cases nodes with
          | nil => simp only [List.cons_append, addText, hjoin]
          | cons node nodes =>
              cases node <;> simp only [List.cons_append, addText, hjoin, String.append_assoc]

/-- Where no text ends, text is added as a node of its own. -/
theorem Node.addText_eq_append {nodes : List Node} (h : ∀ s more, nodes ≠ .text s :: more)
    (text : List Char) : addText text nodes = addText text [] ++ nodes := by
  cases text with
  | nil => rfl
  | cons c text =>
      cases nodes with
      | nil => rfl
      | cons node nodes =>
          cases node with
          | text s => exact absurd rfl (h s nodes)
          | html s => rfl
          | element e children => rfl

namespace Scanner

variable {s : Scanner} {c : Char} {rest : List Char}

/-- A letter may be said first, and what follows it then. -/
theorem find_cons (h : s.cursor.rest = c :: rest) (skipped : List Char) (length : Nat) :
    s.find (c :: skipped) length = ((s.say [c]).forward 1).find skipped length := by
  obtain ⟨⟨before, rest'⟩, foundAt, found, nodes, page⟩ := s
  cases h
  simp [find, say, forward, Cursor.forward, Node.addText_addText]

theorem finish_cons (h : s.cursor.rest = c :: rest) :
    s.finish = ((s.say [c]).forward 1).finish := by
  obtain ⟨⟨before, rest'⟩, foundAt, found, nodes, page⟩ := s
  cases h
  simp [finish, say, forward, toEnd, Cursor.toEnd, Cursor.forward, Node.addText_addText]

/-- A word may be said letter by letter. -/
theorem say_cons (h : s.cursor.rest = c :: rest) (letters : List Char) :
    (((s.say [c]).forward 1).say letters).forward letters.length =
      (s.say (c :: letters)).forward (c :: letters).length := by
  obtain ⟨⟨before, rest'⟩, foundAt, found, nodes, page⟩ := s
  cases h
  simp [say, forward, Cursor.forward, Node.addText_addText]

/-- Behind a part of the text the rest is still to be read, whatever was said of it. -/
theorem rest_behind {text : List Char} (h : s.cursor.rest = text ++ rest) (said : List Char) :
    ((s.say said).forward text.length).cursor.rest = rest := by
  change s.cursor.rest.drop text.length = rest
  rw [h, List.drop_left]

theorem rest_behind_character (h : s.cursor.rest = c :: rest) :
    ((s.say [c]).forward 1).cursor.rest = rest := by
  have htext : s.cursor.rest = [c] ++ rest := h
  exact rest_behind htext [c]

/-- The scanner behind a macro call that stands at its cursor. -/
def behindCall (s : Scanner) (length : Nat) : Scanner :=
  { s.find [] 2 with cursor := s.cursor.forward length }

@[simp] theorem nodes_behindCall (s : Scanner) (length : Nat) :
    (s.behindCall length).nodes = s.nodes := rfl

@[simp] theorem page_behindCall (s : Scanner) (length : Nat) :
    (s.behindCall length).page = s.page := rfl

theorem rest_behindCall {text : List Char} (h : s.cursor.rest = text ++ rest) :
    (s.behindCall text.length).cursor.rest = rest := rest_behind h []

end Scanner

namespace Kit

variable {kit : Kit} {ctx : Context} {stop : Option Pattern} {s : Scanner}

/-- A letter where no mark stands is said. -/
theorem run_letter {c : Char} {rest : List Char} (hrest : s.cursor.rest = c :: rest)
    (hhit : kit.formatters.hit? stop s.cursor.previous (c :: rest) = none) :
    kit.run ctx stop s = kit.run ctx stop ((s.say [c]).forward 1) := by
  have hrest' := Scanner.rest_behind_character hrest
  have hprevious : ((s.say [c]).forward 1).cursor.previous = some c := by
    change (s.cursor.forward 1).previous = some c
    simp [Cursor.forward, Cursor.previous, hrest]
  have hnext : kit.formatters.next? stop s.cursor.previous s.cursor.rest =
      (kit.formatters.next? stop (some c) rest).map fun found => (c :: found.1, found.2) := by
    rw [hrest, Formatters.next?, hhit]
  cases hn : kit.formatters.next? stop (some c) rest with
  | none =>
      rw [hn] at hnext
      rw [run_of_none hnext, run_of_none (by rw [hrest', hprevious, hn]), s.finish_cons hrest]
  | some found =>
      obtain ⟨skipped, hit⟩ := found
      rw [hn] at hnext
      cases hit with
      | stop length =>
          rw [run_of_stop hnext, run_of_stop (by rw [hrest', hprevious, hn]), s.find_cons hrest]
      | rule index f length =>
          rw [run_of_rule hnext, s.find_cons hrest]
          exact (run_of_rule (by rw [hrest', hprevious, hn])).symm

/-- **Plain characters are said**, up to the next mark that there may be. -/
theorem run_plain (hformatters : kit.formatters = .standard) {letters rest : List Char}
    (hplain : ∀ c ∈ letters, c ∉ Standard.signs)
    (hstop : ∀ p, stop = some p → ∀ c ∈ letters, ∀ text, p.Absent (c :: text))
    (hcolon : ':' ∉ (letters ++ rest).takeWhile (· != '<')) (hrest : s.cursor.rest = letters ++ rest) :
    kit.run ctx stop s = kit.run ctx stop ((s.say letters).forward letters.length) := by
  induction letters generalizing s with
  | nil => rfl
  | cons c letters ih =>
      obtain ⟨hc, hletters⟩ := List.forall_mem_cons.1 hplain
      rw [List.cons_append] at hrest hcolon
      have hhit : kit.formatters.hit? stop s.cursor.previous (c :: (letters ++ rest)) = none := by
        rw [hformatters]
        exact Formatters.hit?_of_absent (fun p hp => hstop p hp c List.mem_cons_self _)
          (Formatters.absent_plain hc hcolon) _
      have hnext : (c :: (letters ++ rest)).takeWhile (· != '<') =
          c :: (letters ++ rest).takeWhile (· != '<') := by
        refine List.takeWhile_cons_of_pos (bne_iff_ne.2 ?_)
        rintro rfl
        exact hc (by decide)
      have hrest' := Scanner.rest_behind_character hrest
      rw [run_letter hrest hhit, ih hletters
        (fun p hp c' hc' => hstop p hp c' (List.mem_cons_of_mem _ hc'))
        (fun hin => hcolon (hnext ▸ List.mem_cons_of_mem _ hin)) hrest', s.say_cons hrest]

/-- Plain characters are said up to the mark that is waited for. -/
theorem run_plain_stop (hformatters : kit.formatters = .standard) {p : Pattern}
    {letters rest : List Char} {n : Nat} (hplain : ∀ c ∈ letters, c ∉ Standard.signs)
    (hstop : ∀ c ∈ letters, ∀ text, p.Absent (c :: text))
    (hcolon : ':' ∉ (letters ++ rest).takeWhile (· != '<')) (hrest : s.cursor.rest = letters ++ rest)
    (hne : rest ≠ []) (hmark : ∀ previous, p previous rest = some n) (hpos : 0 < n) :
    kit.run ctx (some p) s = ((s.say letters).forward letters.length).find [] n := by
  have hsaid : ((s.say letters).forward letters.length).cursor.rest = rest :=
    Scanner.rest_behind hrest letters
  have hnext : kit.formatters.next? (some p)
      ((s.say letters).forward letters.length).cursor.previous
      ((s.say letters).forward letters.length).cursor.rest = some ([], .stop n) := by
    rw [hsaid]
    exact Formatters.next?_stop hne (hmark _) hpos
  have hwaited : ∀ q, some p = some q → ∀ c ∈ letters, ∀ text, q.Absent (c :: text) := by
    rintro q hq
    cases hq
    exact hstop
  rw [run_plain hformatters hplain hwaited hcolon hrest, run_of_stop hnext]

/-- The scanner behind a macro call that stands at its cursor, after the macro. -/
def called (kit : Kit) (ctx : Context) (c : Construct.Call) (length : Nat) (s : Scanner) :
    Scanner :=
  kit.macros.call ctx
    { name := String.ofList c.name
      arguments := c.arguments
      params := (Params.read c.arguments).map String.ofList }
    (s.behindCall length)

/-- **A macro call is run**, and the run goes on where its macro has put the cursor. -/
theorem run_call (hformatters : kit.formatters = .standard) {first : Char} {rest : List Char}
    (hfirst : first ≠ '<') (hrest : s.cursor.rest = '<' :: '<' :: first :: rest)
    {c : Construct.Call} {length : Nat} (hcall : Construct.call? s.cursor.rest = some (c, length))
    (hlt : (kit.called ctx c length s).cursor.rest.length < s.cursor.rest.length) :
    kit.run ctx none s = kit.run ctx none (kit.called ctx c length s) := by
  have hhandle : Standard.call.handle kit.macros ctx (s.find [] 2) =
      some (kit.called ctx c length s) := by
    change (Construct.call? s.cursor.rest).map _ = _
    rw [hcall]
    rfl
  exact run_of_hit hrest (by rw [hformatters, Formatters.hit?_call hfirst]) hhandle hlt

/-- **A text that is one macro call renders to what its macro leaves**, if that is the end of the
text. -/
theorem render_call (hformatters : kit.formatters = .standard) {left : Nat}
    (hdepth : kit.setting.config.maxDepth = left + 1) {first : Char} {others written : List Char}
    (hfirst : first ≠ '<') (hname : (first :: others).all Construct.isCallNameChar = true)
    (ha : '>' ∉ written) {page : Page} {t : Scanner}
    (ht : kit.called (kit.context left) ⟨first :: others, Program.argument written⟩
      (Program.call (first :: others) written).length
      (.start (Program.call (first :: others) written) [] page.enter) = t)
    (hrest : t.cursor.rest = []) :
    kit.render (Program.call (first :: others) written) page = (t.nodes.reverse, t.page.leave) := by
  have hcall := Construct.call?_call (List.cons_ne_nil first others) hname ha []
  rw [List.append_nil] at hcall
  have hlt : t.cursor.rest.length < (Program.call (first :: others) written).length := by
    rw [hrest]
    exact Nat.succ_pos _
  refine render_of_run hdepth ?_ hrest
  rw [run_call hformatters hfirst rfl hcall (by rw [ht]; exact hlt), ht]

theorem setting_context (kit : Kit) (left : Nat) : (kit.context left).setting = kit.setting := by
  cases left <;> rfl

/-- **A text that is one call of a macro that shows nothing**, and turns the page, renders to that
page; if something went wrong, that is shown. -/
theorem render_outcome (hformatters : kit.formatters = .standard) {left : Nat}
    (hdepth : kit.setting.config.maxDepth = left + 1) {first : Char} {others written : List Char}
    (hfirst : first ≠ '<') (hname : (first :: others).all Construct.isCallNameChar = true)
    (ha : '>' ∉ written) {m : Macro}
    (hget : kit.macros.get? (String.ofList (first :: others)) = some m) {page page' : Page}
    {wrong : Option MacroError}
    (hrun : ∀ call : MacroCall, call.arguments = Program.argument written →
      ∀ s : Scanner, s.page = page.enter →
        m.run (kit.context left) call s = ({ s with page := page' }, wrong)) :
    kit.render (Program.call (first :: others) written) page =
      ((wrong.map fun e => Node.error e.message).toList, page'.leave) := by
  let text := Program.call (first :: others) written
  let before := (Scanner.start text [] page.enter).behindCall text.length
  let call : MacroCall :=
    { name := String.ofList (first :: others)
      arguments := Program.argument written
      params := (Params.read (Program.argument written)).map String.ofList }
  let after : Scanner :=
    { before with
      nodes := (wrong.map fun e => Node.error e.message).toList
      page := page' }
  have hcalled : kit.called (kit.context left) ⟨first :: others, Program.argument written⟩
      text.length (.start text [] page.enter) = after := by
    change kit.macros.call (kit.context left) call before = after
    rw [Macros.call, hget]
    dsimp only
    rw [hrun call rfl before rfl]
    cases wrong <;> rfl
  have htext : (Scanner.start text [] page.enter).cursor.rest = text ++ [] :=
    (List.append_nil _).symm
  have hrest : after.cursor.rest = [] := Scanner.rest_behindCall htext
  have hrender := render_call hformatters hdepth hfirst hname ha hcalled hrest
  rw [hrender]
  cases wrong <;> rfl

theorem render_macro (hformatters : kit.formatters = .standard) {left : Nat}
    (hdepth : kit.setting.config.maxDepth = left + 1) {first : Char} {others written : List Char}
    (hfirst : first ≠ '<') (hname : (first :: others).all Construct.isCallNameChar = true)
    (ha : '>' ∉ written) {m : Macro}
    (hget : kit.macros.get? (String.ofList (first :: others)) = some m) {page page' : Page}
    (hrun : ∀ call : MacroCall, call.arguments = Program.argument written →
      ∀ s : Scanner, s.page = page.enter →
        m.run (kit.context left) call s = ({ s with page := page' }, none)) :
    kit.render (Program.call (first :: others) written) page = ([], page'.leave) :=
  render_outcome hformatters hdepth hfirst hname ha hget hrun

end Kit

end Gamebook
