/-
**Whose values a story sees.**

The values of all stories lie in one jar.  A story keeps its own under the names of variables behind a
start of its own, made of its title, and it sees every live value whose key begins so, whoever has
kept it.  So what one story keeps stays out of the sight of another just when no name behind the start
of the first makes a key that begins like those of the second.  It is not enough that the two starts
differ: the keys of a story "A_b" begin like those of a story "A", and some keys of "A" begin like
those of "A_b".

Main definitions:

* `Jar.Names` — the key of a variable behind a start;
* `Jar.Apart` — no key of a variable behind one start begins with the other;
* `Bond.keeping` — the bond of renders that keep values under names of variables alone;
* `Story.Keeper` — a story whose variables all have names that a source can tell;
* `Story.Neighbours` — two stories that share a jar.

Main results:

* `Jar.apart_iff` — when two starts keep keys apart;
* `Bond.keeping_standard` — **the standard macros keep values under names of variables alone**;
* `Story.Keeper.acts` — and so does every row of acts;
* `Story.Regular.jar_rememberTrue` — a text that is one call of `remember` keeps a value;
* `Story.values_apart_iff` — **whether one story can change what another sees**;
* `Story.values_leak` — two titles with which each story sees what the other keeps.
-/

import Gamebook.Fixture
import Gamebook.Proofs.Story.Keeping
import Gamebook.Proofs.Story.Lasting
import Gamebook.Proofs.Story.Naming
import Gamebook.Proofs.Trail.Grammar

set_option relaxedAutoImplicit false
set_option autoImplicit false

namespace Gamebook

/-! ### Keys -/

/-- What begins a name is a name itself, unless it is nothing. -/
theorem IsName.of_prefix {name : String} (h : IsName name) {word : List Char} (hne : word ≠ [])
    (hpre : word <+: name.toList) : IsName (String.ofList word) where
  ne_nil := by
    rw [String.toList_ofList]
    exact hne
  all := by
    rw [String.toList_ofList, List.all_eq_true]
    exact fun c hc => List.all_eq_true.1 h.all c (hpre.subset hc)

namespace Jar

variable {start other : String} {jar jar' : Jar}

/-- The key is the name of a variable behind `start`. -/
def Names (start key : String) : Prop := ∃ name, IsName name ∧ key = start ++ name

/-- No key of a variable behind `start` begins with `other`. -/
def Apart (start other : String) : Prop :=
  ∀ name, IsName name → ¬ other.toList <+: (start ++ name).toList

/-- **When two starts keep keys apart**: the second one begins neither the first one nor itself with
the first one and the name of a variable. -/
theorem apart_iff :
    Apart start other ↔
      ¬ other.toList <+: start.toList ∧ ∀ name, IsName name → other ≠ start ++ name := by
  constructor
  · intro h
    refine ⟨fun hpre => ?_, fun name hname heq => ?_⟩
    · refine h "x" ⟨by decide, by decide⟩ ?_
      rw [String.toList_append]
      exact hpre.trans (List.prefix_append _ _)
    · refine h name hname ?_
      rw [heq]
  · rintro ⟨hshort, hlong⟩ name hname hpre
    rw [String.toList_append] at hpre
    -- of two beginnings of one key the shorter one begins the longer one
    rcases List.prefix_or_prefix_of_prefix hpre (List.prefix_append _ _) with hle | ⟨word, hword⟩
    · exact hshort hle
    · rw [← hword, List.prefix_append_right_inj] at hpre
      have hne : word ≠ [] := by
        rintro rfl
        rw [List.append_nil] at hword
        exact hshort (hword ▸ List.prefix_rfl)
      refine hlong (String.ofList word) (hname.of_prefix hne hpre) ?_
      rw [← String.toList_inj, String.toList_append, String.toList_ofList, hword]

/-- What a story sees depends on the keys that begin like its own. -/
theorem liveUnder_congr (h : ∀ key, start.toList <+: key.toList → jar'.get? key = jar.get? key)
    (now : Nat) : jar'.liveUnder now start = jar.liveUnder now start := by
  have hfilter : ∀ j : Jar, j.liveUnder now start =
      ((j.live now).filter fun key _ => start.toList.isPrefixOf key.toList).entries.map
        fun entry => (entry.1, entry.2.value) := by
    intro j
    rw [liveUnder, Dict.filter, ← List.filterMap_eq_map, List.filterMap_filter]
    rfl
  rw [hfilter, hfilter]
  refine congrArg (fun d : Jar => d.entries.map fun entry => (entry.1, entry.2.value)) ?_
  refine Dict.ext_get? _ _ fun key => ?_
  rw [Dict.get?_filter, Dict.get?_filter, live, live, Dict.get?_filter, Dict.get?_filter]
  by_cases hkey : start.toList.isPrefixOf key.toList = true
  · rw [h key (List.isPrefixOf_iff_prefix.1 hkey)]
  · simp [hkey]

/-- A value kept in an empty jar is seen by those whose keys begin like its own. -/
theorem liveUnder_keep_empty {key value : String} {now expiresAt : Nat} (hlive : now < expiresAt)
    (hpre : start.toList <+: key.toList) :
    (Jar.keep .empty key value expiresAt).liveUnder now start = [(key, value)] := by
  have hentries : ((Jar.keep .empty key value expiresAt).live now).entries =
      [(key, ⟨value, expiresAt⟩)] := by
    simp [Jar.keep, Jar.live, Dict.insert, Dict.filter, Dict.empty, Dict.place, Cookie.isLive, hlive]
  simp [liveUnder, hentries, hpre]

/-- **Keys that are kept apart are not seen.** -/
theorem SameOutside.liveUnder_eq (h : SameOutside (Names start) jar jar') (ha : Apart start other)
    (now : Nat) : jar'.liveUnder now other = jar.liveUnder now other := by
  refine liveUnder_congr (fun key hkey => h key ?_) now
  rintro ⟨name, hname, rfl⟩
  exact ha name hname hkey

end Jar

/-! ### Renders -/

namespace Bond

variable {start : String}

/-- Renders that keep values under names of variables behind `start` alone, if all variables have
names that a source can tell. -/
def keeping (start : String) : Bond :=
  .itself (fun σ => σ.keyStart = start)
    (fun p q => p.vars.Named → q.vars.Named ∧ p.jar.SameOutside (Jar.Names start) q.jar)
    { refl := fun _ hv => ⟨hv, .refl _ _⟩
      trans := fun h h' hv => ⟨(h' (h hv).1).1, (h hv).2.trans (h' (h hv).1).2⟩ }

theorem keeping_mindful (start : String) : (keeping start).Mindful :=
  .of_later (fun _ he hv => ⟨Expr.named_evaluateChars hv he, .refl _ _⟩)
    (fun _ _ hv => ⟨hv, .refl _ _⟩)

/-- A call of `remember` that goes well keeps a value under the name of a variable. -/
theorem keeping_of_run {ctx : Context} {c : MacroCall} {before after : Scanner}
    (hrun : Macro.remember.run ctx c before = (after, none)) (hv : before.page.vars.Named) :
    after.page.vars.Named ∧
      before.page.jar.SameOutside (Jar.Names ctx.setting.keyStart) after.page.jar := by
  obtain ⟨v, page, name, literal, heval, -, hliteral, rfl⟩ := Macro.remember_run hrun
  rw [Page.evaluate] at heval
  split at heval
  · cases heval
  · rename_i v' vars he
    cases heval
    have hnamed := Expr.named_evaluateChars hv he
    -- a value that can be kept is that of a variable, and its name can be told
    have hname : IsName (String.ofList name) := by
      refine hnamed.isName_of_get fun hundefined => ?_
      have hkept : (vars.get (String.ofList name)).literal? = some literal := hliteral
      rw [hundefined] at hkept
      cases hkept
    exact ⟨hnamed, Jar.sameOutside_keep ⟨_, hname, rfl⟩ _ _ _⟩

/-- **The standard macros keep values under names of variables alone.** -/
theorem keeping_standard (start : String) : (keeping start).KeptByMacros Macros.standard := by
  refine (keeping_mindful start).standard_kept ?_
  refine (keeping_mindful start).remember_kept (fun h => congrArg Setting.keyStart h.1) ?_ ?_
  · rintro p q σ τ key value ⟨rfl, -⟩ rfl
    rfl
  · intro c d call s t q hs _ hrun hv
    rw [← hs.2]
    exact keeping_of_run hrun hv

end Bond

namespace Story

variable {s t : Story} {start : String} {j : Jar}

/-! ### Keepers -/

/-- A story with the standard macros whose variables all have names that a source can tell, and whose
keys begin with `start`. -/
structure Keeper (start : String) (s : Story) : Prop where
  regular : s.Regular
  keyStart : s.keyStart = start
  vars : s.history.vars.Named

theorem Keeper.frame (h : s.Keeper start) (hf : t.formatters = s.formatters)
    (hm : t.macros = s.macros) (hk : t.keyStart = s.keyStart) (hv : t.history.vars.Named) :
    t.Keeper start where
  regular := by
    refine ⟨hm.trans h.regular.macros, ?_⟩
    rw [hf]
    exact h.regular.formatters
  keyStart := hk.trans h.keyStart
  vars := hv

/-- A render keeps values under names of variables alone. -/
theorem Keeper.render (h : s.Keeper start) (text : String) :
    (s.renderSource text).2.Keeper start ∧
      s.jar.SameOutside (Jar.Names start) (s.renderSource text).2.jar := by
  have hmacros := Bond.keeping_standard start
  rw [← h.regular.macros] at hmacros
  have hformatters : ∀ f ∈ s.kit.formatters, (Bond.keeping start).KeptBy f :=
    fun f hf => h.regular.formatters f hf _
  obtain ⟨hvars, hjar⟩ := Bond.later_render h.keyStart hformatters hmacros id
    text.toList s.page h.vars
  exact ⟨h.frame rfl rfl rfl hvars, hjar⟩

/-- **Every step keeps values under names of variables alone.** -/
theorem keeper_lasting (start : String) (j : Jar) :
    Lasting fun s => s.Keeper start ∧ j.SameOutside (Jar.Names start) s.jar where
  frame _ _ _ _ _ _ h := ⟨h.1.frame rfl rfl rfl h.1.vars, h.2⟩
  startOver h :=
    ⟨h.1.frame rfl rfl rfl (initialVariables_ofReading h.1.regular.macros).named, h.2⟩
  click title h := ⟨h.1.frame rfl rfl rfl (h.1.vars.click title), h.2⟩
  push _ h := ⟨h.1.frame rfl rfl rfl h.1.vars, h.2⟩
  render text h := ⟨(h.1.render text).1, h.2.trans (h.1.render text).2⟩
  resetTexts h := ⟨h.1.frame rfl rfl rfl h.1.vars, h.2⟩

/-- **Every row of acts keeps values under names of variables alone.** -/
theorem Keeper.acts (h : s.Keeper start) (row : List Act) :
    (s.acts row).Keeper start ∧ s.jar.SameOutside (Jar.Names start) (s.acts row).jar :=
  (keeper_lasting start s.jar).acts ⟨h, .refl _ _⟩ row

/-- Every story that was just built is a keeper. -/
theorem new_keeper (store : Store) (config : Config) (jar : Jar) (navigator : Navigator)
    (now : Nat) : (Story.new store config jar navigator now).Keeper
      (Story.new store config jar navigator now).keyStart :=
  ⟨new_regular _ _ _ _ _, rfl, (initialVariables_ofReading rfl).named⟩

/-! ### Neighbours -/

/-- Two stories with the standard macros that share a jar.  The keys of the first begin with `P`, and
those of the second with `Q`. -/
structure Neighbours (P Q : String) (s t : Story) : Prop where
  first : s.Keeper P
  second : t.Keeper Q
  jar : t.jar = s.jar

/-- **What is kept apart is not seen**: whatever happens in the first story, the second one sees the
same values, and a reading in it starts alike. -/
theorem Neighbours.unseen {P Q : String} (h : Neighbours P Q s t) (ha : Jar.Apart P Q)
    (row : List Act) :
    { t with jar := (s.acts row).jar }.remembered = t.remembered ∧
      { t with jar := (s.acts row).jar }.initialVariables = t.initialVariables := by
  have hkept := (h.first.acts row).2
  rw [← h.jar] at hkept
  have hremembered : { t with jar := (s.acts row).jar }.remembered = t.remembered := by
    rw [remembered, remembered, h.second.keyStart]
    exact hkept.liveUnder_eq ha t.now
  exact ⟨hremembered, initialVariables_eq h.second.regular.macros rfl rfl hremembered⟩

/-! ### One value -/

theorem untitled_keeper (start : String) : (untitled start).Keeper start :=
  new_keeper (.ofRecords []) { defaultKeyStart := start } .empty {} 0

theorem untitled_neighbours (P Q : String) : Neighbours P Q (untitled P) (untitled Q) :=
  ⟨untitled_keeper P, untitled_keeper Q, rfl⟩

/-- A text that remembers that a variable is true. -/
def rememberTrue (name : String) : String :=
  String.ofList (Program.call Macro.rememberName (Macro.recallStatement name "true").toList)

/-- The first variable that the statement names is the one that is given a value. -/
theorem firstVariable?_recallStatement {name : String} (hname : IsName name) (value : String) :
    Expr.firstVariable? (Macro.recallStatement name value).toList = some name.toList := by
  have htext : (Macro.recallStatement name value).toList =
      '$' :: (name.toList ++ '=' :: value.toList) := by simp [Macro.recallStatement]
  have htake : (name.toList ++ '=' :: value.toList).takeWhile Text.isWord = name.toList := by
    have hword : ∀ c ∈ name.toList, Text.isWord c = true := fun c hc =>
      Token.isWord_of_isWordChar (List.all_eq_true.1 hname.all c hc)
    rw [List.takeWhile_append_of_pos hword, List.takeWhile_cons_of_neg (by decide),
      List.append_nil]
  rw [htext, Expr.firstVariable?, htake, if_pos ⟨rfl, hname.ne_nil⟩]

/-- The statement stands in a call as it is. -/
theorem argument_recallStatement {name : String} (hname : IsName name) :
    '>' ∉ (Macro.recallStatement name "true").toList ∧
      Program.argument (Macro.recallStatement name "true").toList =
        (Macro.recallStatement name "true").toList := by
  have htext : (Macro.recallStatement name "true").toList =
      '$' :: (name.toList ++ ['=', 't', 'r', 'u', 'e']) := by simp [Macro.recallStatement]
  have hbracket : '>' ∉ name.toList := by
    intro hin
    exact absurd (List.all_eq_true.1 hname.all '>' hin) (by decide)
  rw [htext]
  exact ⟨by simp [hbracket], rfl⟩

/-- **A text that is one call of `remember` keeps a value under any name** behind the start of the
keys of a story. -/
theorem Regular.jar_rememberTrue (hs : s.Regular) (hf : s.formatters = .standard)
    (hdepth : 0 < s.config.maxDepth) {name : String} (hname : IsName name) :
    (s.act (.renderSource (rememberTrue name))).jar =
      s.jar.keep (s.keyStart ++ name) "true" (s.now + s.config.rememberFor.seconds) := by
  have htrue : (Value.bool true).literal? = some "true" := rfl
  obtain ⟨hbracket, hwritten⟩ := argument_recallStatement hname
  have heval : Expr.evaluateChars (Program.argument (Macro.recallStatement name "true").toList)
      s.history.vars = .ok (.bool true, s.history.vars.set name (.bool true)) := by
    rw [hwritten]
    exact Macro.evaluate_recallStatement hname htrue s.history.vars
  have hnamed : Expr.named? (Program.argument (Macro.recallStatement name "true").toList) =
      some name := by
    rw [hwritten, Expr.named?, firstVariable?_recallStatement hname, Option.map_some,
      String.ofList_toList]
  have hliteral : ((s.history.vars.set name (.bool true)).get name).literal? = some "true" := by
    rw [Variables.get_set, if_pos rfl, htrue]
  have hrender := render_remember hf hs.macros hdepth hbracket heval
  rw [hnamed, ← rememberTrue] at hrender
  change (s.render (rememberTrue name)).2.2.jar = _
  rw [hrender]
  exact jar_remembering hliteral _

/-- What a story without passages sees once another one has kept a value under a key that begins like
its own. -/
theorem remembered_untitled {P Q name : String} (hname : IsName name)
    (hpre : Q.toList <+: (P ++ name).toList) :
    { untitled Q with
      jar := ((untitled P).act (.renderSource (rememberTrue name))).jar }.remembered =
        [(P ++ name, "true")] := by
  have hdepth : 0 < (untitled P).config.maxDepth := Nat.succ_pos 63
  have hnow : 0 < 0 + 365 * 24 * 60 * 60 := by decide
  rw [(untitled_keeper P).regular.jar_rememberTrue rfl hdepth hname]
  exact Jar.liveUnder_keep_empty hnow hpre

/-- A reading starts with what is recalled of the values that are seen. -/
theorem Regular.initialVariables_eq (hs : s.Regular) :
    s.initialVariables = Macro.recallPairs s.keyStart s.remembered {} := by
  rw [initialVariables, hs.macros, Macros.standard_seededByRemember.initialVariables_eq,
    Macro.recallAll_eq]
  rfl

/-- Under a key of its own a story sees a variable. -/
theorem get_initialVariables_untitled {P Q name other : String} (hname : IsName name)
    (hother : IsName other) (hkey : P ++ name = Q ++ other) :
    ({ untitled Q with
      jar := ((untitled P).act (.renderSource (rememberTrue name))).jar }.initialVariables).get
        other = .bool true := by
  have hpre : Q.toList <+: (P ++ name).toList := by
    rw [hkey, String.toList_append]
    exact List.prefix_append _ _
  have htrue : (Value.bool true).literal? = some "true" := rfl
  have hregular : { untitled Q with
      jar := ((untitled P).act (.renderSource (rememberTrue name))).jar }.Regular :=
    ⟨rfl, (untitled_keeper Q).regular.formatters⟩
  rw [hregular.initialVariables_eq, remembered_untitled hname hpre, hkey]
  change (Macro.recallOne {} (String.ofList ((Q ++ other).toList.drop Q.length)) "true").get
    other = _
  rw [Macro.drop_key, Macro.recallOne_literal hother htrue]
  exact (Variables.get_set _ other other _).trans (if_pos rfl)

/-! ### Which values a story sees -/

/-- **Whether one story can change what another sees.**  The keys of the first story begin with `P`,
those of the second with `Q`, and they share a jar.  Whatever happens in the first, the second sees the
same values, in all such pairs of stories, just when no name behind `P` makes a key that begins with
`Q`.  Then its readings start with the same variables, too.  But where a name behind `P` makes the same
key as a name behind `Q`, there are such stories in which one call of `remember` changes the variables
that readings of the second start with. -/
theorem values_apart_iff (P Q : String) :
    (Jar.Apart P Q ↔ ∀ s t, Neighbours P Q s t → ∀ row,
      { t with jar := (s.acts row).jar }.remembered = t.remembered) ∧
    (Jar.Apart P Q → ∀ s t, Neighbours P Q s t → ∀ row,
      { t with jar := (s.acts row).jar }.initialVariables = t.initialVariables) ∧
    ∀ name other, IsName name → IsName other → P ++ name = Q ++ other →
      ∃ s t, Neighbours P Q s t ∧
        { t with jar := (s.act (.renderSource (rememberTrue name))).jar }.initialVariables ≠
          t.initialVariables := by
  refine ⟨⟨fun ha s t h row => (h.unseen ha row).1, fun hsame name hname hpre => ?_⟩,
    fun ha s t h row => (h.unseen ha row).2, fun name other hname hother hkey => ?_⟩
  · have hseen : { untitled Q with
        jar := ((untitled P).act (.renderSource (rememberTrue name))).jar }.remembered = [] :=
      hsame _ _ (untitled_neighbours P Q) [.renderSource (rememberTrue name)]
    rw [remembered_untitled hname hpre] at hseen
    cases hseen
  · refine ⟨_, _, untitled_neighbours P Q, fun hsame => ?_⟩
    have hget := get_initialVariables_untitled hname hother hkey
    rw [hsame, (untitled_keeper Q).regular.initialVariables_eq] at hget
    cases hget

/-- A story that is named by a passage. -/
def titled (title : String) : Story := (({} : Fixture).addPassage "StoryTitle" title []).build 0

theorem titled_keeper (title : String) : (titled title).Keeper (title ++ "_") :=
  new_keeper (.ofRecords (({} : Fixture).addPassage "StoryTitle" title []).records) {} .empty {} 0

/-- What a story "Fox" remembers is nothing to a story "Owl". -/
theorem values_apart_fox_owl :
    Jar.Apart "Fox_" "Owl_" ∧ Neighbours "Fox_" "Owl_" (titled "Fox") (titled "Owl") ∧
      ∀ row, { titled "Owl" with jar := ((titled "Fox").acts row).jar }.initialVariables =
        (titled "Owl").initialVariables := by
  have hapart : Jar.Apart "Fox_" "Owl_" := by
    refine Jar.apart_iff.2 ⟨by decide, fun name _ heq => ?_⟩
    have hpre : "Fox_".toList <+: "Owl_".toList := by
      rw [heq, String.toList_append]
      exact List.prefix_append _ _
    exact absurd hpre (by decide)
  have hneighbours : Neighbours "Fox_" "Owl_" (titled "Fox") (titled "Owl") :=
    ⟨titled_keeper "Fox", titled_keeper "Owl", rfl⟩
  exact ⟨hapart, hneighbours, (values_apart_iff "Fox_" "Owl_").2.1 hapart _ _ hneighbours⟩

/-- **Different titles do not keep stories apart**: a story "A" sees what a story "A_b" remembers as `x`
under the name `b_x`, and what it remembers itself as `b_x` is an `x` to the other. -/
theorem values_leak :
    (titled "A").keyStart = "A_" ∧ (titled "A_b").keyStart = "A_b_" ∧
      (titled "A").initialVariables = {} ∧ (titled "A_b").initialVariables = {} ∧
      ({ titled "A" with jar := ((titled "A_b").act
        (.renderSource "<<remember $x = 1>>")).jar }.initialVariables).get "b_x" = .num 1 ∧
      ({ titled "A_b" with jar := ((titled "A").act
        (.renderSource "<<remember $b_x = 2>>")).jar }.initialVariables).get "x" = .num 2 := by
  decide +kernel

end Story

end Gamebook
