/-
**Rendering styled text.**

What stands between two marks of styled text is shown in one element, and the declarations in front
of it get into its style, all of them and in order.  Their values stay as they are.  Their names do
so, but for capitals, just if every capital of theirs stands behind a hyphen.

Main definitions:

* `Style.styled` — a styled text with its marks;
* `Style.element`, `Style.inTag` — its element, and how that is written in HTML.

Main results:

* `Kit.render_styled` — **what styled text is rendered to**;
* `Story.toHtml_styled` — **which names of properties are kept in HTML**.
-/

import Gamebook.Proofs.Markup.Style
import Gamebook.Proofs.Render.Outline

set_option relaxedAutoImplicit false
set_option autoImplicit false

namespace Gamebook

open Style (Declaration)

/-! ### Styled texts and their elements -/

namespace Style

/-- A styled text with its marks. -/
def styled (ds : List Declaration) (letters : List Char) : List Char :=
  '@' :: '@' :: (Declaration.sources ds ++ (letters ++ ['@', '@']))

/-- The element of a styled text; without any declaration it is marked out. -/
def element (ds : List Declaration) : Element :=
  if ds.isEmpty then { tag := .span, class? := some "marked" }
  else { tag := .span, styles := ds.map Declaration.kept }

/-- What the opening tag of that element holds behind its name. -/
def inTag (ds : List Declaration) : String :=
  if ds.isEmpty then " class=\"marked\""
  else " style=\"" ++ "; ".intercalate (ds.map Declaration.listed) ++ "\""

theorem inTag_cons (d : Declaration) (ds : List Declaration) :
    inTag (d :: ds) =
      " style=\"" ++ "; ".intercalate ((d :: ds).map Declaration.listed) ++ "\"" := rfl

/-- Nothing of the style is escaped in the opening tag. -/
theorem opening_element (ds : List Declaration) :
    Html.opening (element ds) = ("<span" ++ inTag ds ++ ">").toList := by
  cases ds with
  | nil => decide
  | cons d ds =>
      have helement : element (d :: ds) =
          { tag := .span, styles := (d :: ds).map Declaration.kept } := rfl
      have hstyle : Html.writeAttr "style" (Html.styleValue ((d :: ds).map Declaration.kept)) =
          (inTag (d :: ds)).toList := by
        rw [Html.writeAttr, Html.escape_styleValue, inTag_cons]
        simp
      rw [helement, Html.opening]
      simp [Html.linkAttributes, Tag.htmlName, ← hstyle]

/-- **A styled text in HTML.** -/
theorem toHtml_element (ds : List Declaration) (content : List Node) :
    Node.toHtml [.element (element ds) content] =
      "<span" ++ inTag ds ++ ">" ++ Node.toHtml content ++ "</span>" := by
  have htag : (element ds).tag = .span := by cases ds <;> rfl
  have hclosing : Html.closing (element ds) = "</span>".toList := by
    rw [Html.closing, htag]
    decide
  have hvoid : ¬ (element ds).tag.isVoid = true := by
    rw [htag]
    exact Bool.false_ne_true
  have hnode : Html.ofNodes [.element (element ds) content] =
      Html.opening (element ds) ++ Html.ofNodes content ++ Html.closing (element ds) := by
    rw [Html.ofNodes, Html.ofNode, if_neg hvoid, Html.ofNodes, List.append_nil]
  rw [Node.toHtml, hnode, opening_element, hclosing, Node.toHtml, ← String.toList_inj]
  simp

/-- Words in HTML. -/
theorem toHtml_words {letters : List Char} (hletters : ∀ c ∈ letters, Program.isLetter c = true) :
    Node.toHtml (Node.addText letters []) = String.ofList letters := by
  cases letters with
  | nil => rfl
  | cons c letters =>
      have hescape : Html.escape (String.ofList (c :: letters)) = c :: letters := by
        rw [Html.escape_eq_toList (p := Program.isLetter) (by decide)
          (by rwa [String.toList_ofList]), String.toList_ofList]
      rw [Node.addText, Node.toHtml, Html.ofNodes, Html.ofNode, Html.ofNodes, hescape,
        List.append_nil]
      all_goals simp

end Style

/-! ### Rendering them -/

/-- Two signs of styled text are handed to its formatter. -/
theorem Formatters.hit?_styled (previous : Option Char) (text : List Char) :
    Formatters.standard.hit? none previous ('@' :: '@' :: text) =
      some (.rule 23 Standard.styled 2) := by
  have habsent : ∀ f ∈ Standard.inOrder.take 23, f.start.Absent ('@' :: '@' :: text) :=
    absent_of_suspects (List.take_subset 23 Standard.firsts) fun f hf => absurd hf List.not_mem_nil
  exact hit?_of_first (Standard.inOrder.drop 24) habsent (Nat.succ_pos 1) rfl

namespace Kit

variable {kit : Kit} {left : Nat} {letters : List Char} {s : Scanner}

/-- A scan of words stops behind the mark of styled text. -/
theorem run_words (hformatters : kit.formatters = .standard) (ctx : Context)
    (hletters : ∀ c ∈ letters, Program.isLetter c = true)
    (hrest : s.cursor.rest = letters ++ ['@', '@']) :
    kit.run ctx (some Mark.style) s = ((s.say letters).forward letters.length).find [] 2 := by
  have hcolon : ':' ∉ (letters ++ ['@', '@']).takeWhile (· != '<') := by
    intro hin
    rcases List.mem_append.1 ((List.takeWhile_sublist _).subset hin) with hin | hin
    · exact Program.ne_of_isLetter (hletters _ hin) (by decide) rfl
    · exact absurd hin (by decide)
  have hstop : ∀ c ∈ letters, ∀ text, Mark.style.Absent (c :: text) := by
    intro c hc text
    refine Pattern.startsIn_literal '@' ['@'] c (fun hin => ?_) text
    exact Program.ne_of_isLetter (hletters c hc) (by decide) (List.mem_singleton.1 hin)
  exact run_plain_stop hformatters
    (fun c hc => Standard.notMem_signs_of_isLetter (hletters c hc)) hstop hcolon hrest
    (List.cons_ne_nil _ _) (fun _ => rfl) (Nat.succ_pos 1)

/-- A scan of words inside of an element reads to the end of the text and changes nothing else; if
there is a level for it, the words are what the element holds. -/
theorem scanInside_words (hformatters : kit.formatters = .standard) (left : Nat)
    (hletters : ∀ c ∈ letters, Program.isLetter c = true)
    (hrest : s.cursor.rest = letters ++ ['@', '@']) :
    ∃ content t, (kit.context left).scanInside Mark.style [] s = (content, t) ∧
      t.nodes = s.nodes ∧ t.page = s.page ∧ t.cursor.rest = [] ∧
      (0 < left → content = Node.addText letters []) := by
  cases left with
  | zero => exact ⟨_, _, rfl, rfl, rfl, Cursor.rest_toEnd _, fun h => absurd h (Nat.lt_irrefl 0)⟩
  | succ left =>
      let inside : Scanner := { s with nodes := [] }.enter
      let said : Scanner := (inside.say letters).forward letters.length
      have hrun : kit.run (kit.context left) (some Mark.style) inside = said.find [] 2 :=
        run_words hformatters _ hletters hrest
      have hmark : said.cursor.rest = ['@', '@'] := Scanner.rest_behind (s := inside) hrest letters
      refine ⟨Node.addText letters [], { (said.find [] 2).leave with nodes := s.nodes },
        scanInside_of_run hrun, rfl, rfl, ?_, fun _ => rfl⟩
      change said.cursor.rest.drop 2 = []
      rw [hmark]
      rfl

/-- **What styled text is rendered to**: one element with all its declarations, and in it the words,
if there is a level for them. -/
theorem render_styled (hformatters : kit.formatters = .standard)
    (hdepth : kit.setting.config.maxDepth = left + 1) (ds : List Declaration)
    (hletters : ∀ c ∈ letters, Program.isLetter c = true) (page : Page) :
    ∃ content, kit.render (Style.styled ds letters) page =
        ([.element (Style.element ds) content], page) ∧
      (0 < left → content = Node.addText letters []) := by
  let s := (Scanner.start (Style.styled ds letters) [] page.enter).find [] 2
  have hrest : s.cursor.rest = Declaration.sources ds ++ (letters ++ ['@', '@']) := rfl
  have hnone : ∀ {m : Char}, Program.isLetter m = false → m ∉ ['@', '@'] →
      m ∉ letters ++ ['@', '@'] := fun hm hmark =>
    List.not_mem_append (fun hin => Program.ne_of_isLetter (hletters _ hin) hm rfl) hmark
  have hread := Style.declarations_sources ds (hnone (m := '(') (by decide) (by decide))
    (hnone (m := ':') (by decide) (by decide))
  have hinside : (s.forward (Declaration.sources ds).length).cursor.rest =
      letters ++ ['@', '@'] := Scanner.rest_behind hrest []
  obtain ⟨content, t, hscan, hnodes, hpage, hend, hcontent⟩ :=
    scanInside_words hformatters left hletters hinside
  have hhandle : Standard.styled.handle kit.macros (kit.context left) s =
      some (t.emit (.element (Style.element ds) content.reverse)) := by
    simp only [Standard.styled, hrest, hread, hscan]
    rw [Style.element, List.isEmpty_map]
  have hhit : kit.formatters.hit? none none (Style.styled ds letters) =
      some (.rule 23 Standard.styled 2) := hformatters ▸ Formatters.hit?_styled none _
  refine ⟨content.reverse, ?_, fun hleft => ?_⟩
  · refine (render_first hdepth (List.cons_ne_nil _ _) hhit hhandle hend).trans ?_
    exact Prod.ext (congrArg (fun nodes => List.reverse (_ :: nodes)) hnodes)
      (congrArg Page.leave hpage)
  · rw [hcontent hleft]
    cases letters <;> rfl

end Kit

namespace Story

/-- A styled text is shown in one element, which is a span in HTML. -/
theorem render_styled (s : Story) (hformatters : s.formatters = .standard)
    (hdepth : 0 < s.config.maxDepth) (ds : List Declaration) {letters : List Char}
    (hletters : ∀ c ∈ letters, Program.isLetter c = true) :
    ∃ content, s.render (String.ofList (Style.styled ds letters)) =
        ([.element (Style.element ds) content], [], s) ∧
      Node.toHtml [.element (Style.element ds) content] =
        "<span" ++ Style.inTag ds ++ ">" ++ Node.toHtml content ++ "</span>" ∧
      (2 ≤ s.config.maxDepth → Node.toHtml content = String.ofList letters) := by
  obtain ⟨left, hleft⟩ := Nat.exists_eq_add_of_le' hdepth
  have hkit : s.kit.setting.config.maxDepth = left + 1 := hleft
  obtain ⟨content, hrender, hcontent⟩ := Kit.render_styled hformatters hkit ds hletters s.page
  refine ⟨content, render_of_kit hrender, Style.toHtml_element ds content, fun hdeep => ?_⟩
  rw [hcontent (by omega)]
  exact Style.toHtml_words hletters

/-- **Which names of properties are kept in HTML.**  A styled text is shown as a span, the style of
which lists the declarations in order, each with its value, and with a name that has a hyphen for
each hyphen of the author and one for each capital that stands behind none.  So the names are those
of the author, but for capitals, just if every capital stands behind a hyphen. -/
theorem toHtml_styled (s : Story) (hformatters : s.formatters = .standard)
    (hdepth : 0 < s.config.maxDepth) (ds : List Declaration) {letters : List Char}
    (hletters : ∀ c ∈ letters, Program.isLetter c = true) :
    (∃ content, s.render (String.ofList (Style.styled ds letters)) =
        ([.element (Style.element ds) content], [], s) ∧
      Node.toHtml [.element (Style.element ds) content] =
        "<span" ++ Style.inTag ds ++ ">" ++ Node.toHtml content ++ "</span>" ∧
      (2 ≤ s.config.maxDepth → Node.toHtml content = String.ofList letters)) ∧
    ((ds.map fun d => (Style.sheetName d.name).map Char.toLower) =
        (ds.map fun d => d.name.map Char.toLower) ↔
      ∀ d ∈ ds, ∀ before c rest, d.name = before ++ c :: rest → c.isUpper = true →
        before.getLast? = some '-') := by
  refine ⟨render_styled s hformatters hdepth ds hletters, ?_⟩
  rw [List.map_inj_left]
  exact forall₂_congr fun d _ => Style.sheetName_eq_iff d.name

/-- A name with a capital behind its hyphen, and a value in brackets. -/
def backdrop : Declaration where
  name := "background-Color".toList
  value := "red".toList
  bracketed := true
  named := by decide
  full := by decide
  nonempty := by decide
  plain := List.all_eq_true.1 (by decide)

/-- A name that starts with a capital. -/
def loud : Declaration where
  name := "Color".toList
  value := "red".toList
  bracketed := false
  named := by decide
  full := by decide
  nonempty := by decide
  plain := List.all_eq_true.1 (by decide)

/-- The capital behind the hyphen gets no other one. -/
theorem toHtml_styled_backdrop :
    shed.formatters = .standard ∧ 0 < shed.config.maxDepth ∧
      (∀ c ∈ "hot".toList, Program.isLetter c = true) ∧
      (∃ nodes, shed.render "@@background-Color(red):hot@@" = (nodes, [], shed) ∧
        Node.toHtml nodes = "<span style=\"background-color: red\">hot</span>") ∧
      ∀ before c rest, backdrop.name = before ++ c :: rest → c.isUpper = true →
        before.getLast? = some '-' := by
  have hletters : ∀ c ∈ "hot".toList, Program.isLetter c = true :=
    List.all_eq_true.1 (by decide)
  obtain ⟨⟨content, hrender, hhtml, hcontent⟩, hnames⟩ :=
    toHtml_styled shed rfl (by decide) [backdrop] hletters
  have hkept := List.forall_mem_singleton.1 (hnames.1 (by decide))
  rw [hcontent (by decide)] at hhtml
  exact ⟨rfl, by decide, hletters, ⟨_, hrender, hhtml.trans (by decide)⟩, hkept⟩

/-- **A capital at the beginning of a name makes another property**: `Color` is shown as
`-color`. -/
theorem capital_hyphenated :
    shed.formatters = .standard ∧ 2 ≤ shed.config.maxDepth ∧
      String.ofList (Style.styled [loud] "hot".toList) = "@@Color:red;hot@@" ∧
      (∃ nodes, shed.render "@@Color:red;hot@@" = (nodes, [], shed) ∧
        Node.toHtml nodes = "<span style=\"-color: red\">hot</span>") ∧
      "-color".toList.map Char.toLower ≠ loud.name.map Char.toLower := by
  have hsource : String.ofList (Style.styled [loud] "hot".toList) = "@@Color:red;hot@@" := by decide
  have hletters : ∀ c ∈ "hot".toList, Program.isLetter c = true :=
    List.all_eq_true.1 (by decide)
  obtain ⟨content, hrender, hhtml, hcontent⟩ := render_styled shed rfl (by decide) [loud] hletters
  rw [hcontent (by decide)] at hhtml
  rw [hsource] at hrender
  exact ⟨rfl, by decide, hsource, ⟨_, hrender, hhtml.trans (by decide)⟩, by decide⟩

end Story

end Gamebook
