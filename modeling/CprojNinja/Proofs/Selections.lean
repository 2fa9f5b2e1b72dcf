import CprojNinja.Project.Selection
import CprojNinja.Proofs.Documents
import Mathlib.Data.List.Induction

/-!
# Selections

A loaded project is called in any order: a configuration is selected, a property is read in one of four ways, and both
may be asked for in vain. What is selected is a configuration that was put together when the project was loaded, and a
property is the first of its name in there.

Main statement: after any calls the project answers as its document does. The group that is looked at is the first one
directly below the root with the condition for the name that was selected last, and all readings of a property are about
one element of that group.
-/

namespace CprojNinja

open Xml (Node)

namespace Project

/-! ## Calls -/

/-- The ways to read a property. -/
inductive Reading where
  /-- Its text. -/
  | text
  /-- Whether it is on. -/
  | switch (preset : Bool)
  /-- Its text, put into a form. -/
  | filled (form preset : Text)
  /-- Its values, each put into a form. -/
  | values (form : Text)

/-- A call to a loaded project. -/
inductive Call where
  /-- Selects a configuration. -/
  | select (name : Text)
  /-- Reads a property of the selected configuration. -/
  | read (key : Text) (way : Reading)

/-- What a call answers. -/
inductive Answer where
  /-- Whether there is a configuration of the name. -/
  | selected (found : Bool)
  /-- The text of the property, if there is the property. -/
  | text (found : Option Text)
  /-- Whether the property is on. -/
  | switch (on : Bool)
  /-- The form with the text of the property. -/
  | filled (text : Text)
  /-- The forms with the values of the property. -/
  | values (texts : List Text)
  deriving DecidableEq

/-- What a project answers to a call. -/
def answer (p : Project) : Call → Except Violation Answer
  | .select name => .ok (.selected (p.select name).selected.isSome)
  | .read key .text => .text <$> p.textOf key
  | .read key (.switch preset) => .switch <$> p.isOn key preset
  | .read key (.filled form preset) => .filled <$> p.formOf key form preset
  | .read key (.values form) => .values <$> p.valuesOf key form

/-- The project behind a call. -/
def next (p : Project) : Call → Project
  | .select name => p.select name
  | .read _ _ => p

/-- The project behind several calls. -/
def after (p : Project) (calls : List Call) : Project := calls.foldl next p

/-- The name that a call selects, if it selects. -/
def Call.selects? : Call → Option Text
  | select name => some name
  | read _ _ => none

/-- The name that the last of some calls that select has selected. -/
def lastSelected? (calls : List Call) : Option Text := (calls.filterMap Call.selects?).getLast?

/-! ## What the document says -/

/-- The condition of the group for a configuration. -/
def conditionFor (name : Text) : Text := "'$(Configuration)' == '" ++ name ++ "'"

/-- Whether a node is a property group for the configuration of a name. Blanks around the condition do not matter, and
no configuration has a quote in its name. -/
def IsGroupFor (name : Text) (n : Node) : Prop :=
  n.isNamed "PropertyGroup" = true ∧ (n.attribute? "Condition").map Text.trim = some (conditionFor name) ∧ '\'' ∉ name

instance (name : Text) (n : Node) : Decidable (IsGroupFor name n) := inferInstanceAs (Decidable (_ ∧ _ ∧ _))

/-- The first group for a configuration directly below the root. -/
def groupFor? (root : Node) (name : Text) : Option Node := root.children.find? fun n => IsGroupFor name n

/-- The elements that stand for properties in a group: those directly in the settings elements below it, one settings
element after the other. -/
def settingsOf (language : Language) (group : Node) : List Node :=
  ((group.children.flatMap Node.descendants).filter (Node.isNamed language.settingsElement)).flatMap fun settings =>
    settings.children.filter Node.isElement

/-- The element that stands for a property in a group: the first one of its name. -/
def settingOf? (language : Language) (group : Node) (key : Text) : Option Node :=
  (settingsOf language group).find? (Node.isNamed key)

/-- The values that an element lists. -/
def listedValues (n : Node) : List Text :=
  ((n.childrenNamed "ListValues").flatMap (Node.childrenNamed "Value")).map Node.textOrEmpty

/-- The pieces of a form between its marks, which are found from left to right; one piece if there is no mark. -/
def formPieces : (form : Text) → List Text
  | [] => [[]]
  | '{' :: '}' :: form => [] :: formPieces form
  | c :: form => (formPieces form).modifyHead (c :: ·)

/-- A form with a text between its pieces. -/
def formWith (form text : Text) : Text := Text.joinWith text (formPieces form)

/-- What is read off the element of a property, or instead of it if there is none. -/
def Reading.answerFrom : Reading → Option Node → Answer
  | text, setting => .text (setting.map Node.textOrEmpty)
  | switch preset, setting => .switch (setting.elim preset fun n => n.textOrEmpty = "True")
  | filled form preset, setting => .filled (setting.elim preset fun n => formWith form n.textOrEmpty)
  | values form, setting => .values (setting.elim [] fun n => (listedValues n).map (formWith form))

/-- What a document answers to a call while a group of it is looked at. -/
def documentAnswer (language : Language) (root : Node) (group : Option Node) : Call → Except Violation Answer
  | .select name => .ok (.selected (groupFor? root name).isSome)
  | .read key way =>
    match group with
    | some group => .ok (way.answerFrom (settingOf? language group key))
    | none => .error (.noSelection key)

end Project

/-! ## Forms -/

namespace Project

theorem formPieces_ne_nil (form : Text) : formPieces form ≠ [] := by
  fun_induction formPieces form with
  | case1 => exact List.cons_ne_nil _ _
  | case2 form ih => exact List.cons_ne_nil _ _
  | case3 c form hmark ih => exact mt List.modifyHead_eq_nil_iff.1 ih

theorem startsWith_formMark {c : Char} {form : Text}
    (hmark : ∀ rest, c = '{' → form = '}' :: rest → False) : ¬ Text.startsWith formMark (c :: form) = true := by
  rw [Text.startsWith_iff]
  rintro ⟨rest, hrest⟩
  obtain ⟨hc, hform⟩ := List.cons.inj hrest
  exact hmark rest hc.symm hform.symm

/-- A form is filled by putting the text between its pieces. -/
theorem fillForm_eq (form text : Text) : fillForm form text = formWith form text := by
  unfold fillForm formWith Text.replaceAll
  fun_induction formPieces form with
  | case1 => rfl
  | case2 form ih =>
    rw [Text.joinWith_nil_cons _ (formPieces_ne_nil form), ← ih]
    rfl
  | case3 c form hmark ih =>
    rw [Text.joinWith_modifyHead _ _ (formPieces_ne_nil form), ← ih, Text.replaceFrom,
      if_neg (startsWith_formMark hmark)]

end Project

/-! ## Groups -/

theorem Text.dropEnd?_eq_some {ending s rest : Text} : Text.dropEnd? ending s = some rest ↔ s = rest ++ ending := by
  unfold Text.dropEnd?
  rw [Option.map_eq_some_iff]
  constructor
  · rintro ⟨reversed, hreversed, rfl⟩
    simpa using congrArg List.reverse (Text.dropStart?_eq_some.1 hreversed)
  · rintro rfl
    exact ⟨rest.reverse, Text.dropStart?_eq_some.2 List.reverse_append, List.reverse_reverse rest⟩

namespace Project

theorem configurationName?_eq_some {condition name : Text} :
    configurationName? condition = some name ↔ Text.trim condition = conditionFor name ∧ '\'' ∉ name := by
  unfold configurationName? conditionFor
  simp only [Option.bind_eq_bind, Option.bind_eq_some_iff, Text.dropStart?_eq_some, Text.dropEnd?_eq_some]
  constructor
  · rintro ⟨rest, hrest, found, rfl, hfound⟩
    split at hfound
    · cases hfound
    · next hquote =>
      cases hfound
      exact ⟨by rw [hrest, List.append_assoc], by simpa using hquote⟩
  · rintro ⟨hcondition, hquote⟩
    exact ⟨name ++ "'", by rw [hcondition, List.append_assoc], name, rfl, if_neg (by simpa using hquote)⟩

theorem eq_of_configurationOfGroup? {language : Language} {n : Node} {c : Configuration}
    (h : configurationOfGroup? language n = some c) : c = ⟨c.name, propertiesOfGroup language n⟩ := by
  unfold configurationOfGroup? at h
  simp only [Option.bind_eq_bind, Option.bind_eq_some_iff] at h
  obtain ⟨condition, -, name, -, h⟩ := h
  cases h
  rfl

/-- A property group is a configuration just if it is the group for its name. -/
theorem isGroupFor_iff (language : Language) {name : Text} {n : Node} :
    IsGroupFor name n ↔ n.isNamed "PropertyGroup" = true ∧
      configurationOfGroup? language n = some ⟨name, propertiesOfGroup language n⟩ := by
  unfold IsGroupFor configurationOfGroup?
  refine and_congr_right fun _ => ?_
  cases n.attribute? "Condition" with
  | none => simp
  | some condition =>
    simp only [Option.map_some, Option.some.injEq, ← configurationName?_eq_some, Option.bind_eq_bind, Option.bind_some]
    cases configurationName? condition <;> simp

/-- The configuration that a name selects is made from the group for that name. -/
theorem find?_configurations (language : Language) (root : Node) (name : Text) :
    ((root.childrenNamed "PropertyGroup").filterMap (configurationOfGroup? language)).find? (·.name = name) =
      (groupFor? root name).map fun group => ⟨name, propertiesOfGroup language group⟩ := by
  have hgroup (n : Node) : (n.isNamed "PropertyGroup" = true ∧
      (configurationOfGroup? language n).any (·.name = name) = true) ↔ IsGroupFor name n := by
    rw [isGroupFor_iff language]
    refine and_congr_right fun _ => ?_
    cases hc : configurationOfGroup? language n with
    | none => simp
    | some c =>
      rw [Option.any_some, decide_eq_true_eq, Option.some.injEq, eq_of_configurationOfGroup? hc]
      simp
  unfold Node.childrenNamed groupFor?
  rw [List.find?_filterMap, List.find?_filter]
  simp only [hgroup]
  cases hfound : root.children.find? fun n => IsGroupFor name n with
  | none => rfl
  | some group =>
    have hfor : IsGroupFor name group := by simpa using List.find?_some hfound
    exact ((isGroupFor_iff language).1 hfor).2

/-! ## Properties -/

/-- A property group is no settings element, so only what is below it counts. -/
theorem flatMap_allNamed_settings {group : Node} (h : group.isNamed "PropertyGroup" = true) (language : Language) :
    ((group.allNamed language.settingsElement).flatMap Node.children).filter Node.isElement =
      settingsOf language group := by
  have hnot : group.isNamed language.settingsElement = false := by
    rw [Node.isNamed, of_decide_eq_true h]
    cases language <;> decide
  unfold settingsOf
  rw [Node.allNamed_eq, hnot, List.filter_flatMap, List.filter_flatMap]
  rfl

theorem propertyOfElement_of_isNamed {n : Node} {key : Text} (h : n.isNamed key = true) :
    propertyOfElement n = some ⟨key, n.textOrEmpty, listedValues n⟩ := by
  rw [propertyOfElement, of_decide_eq_true h]
  rfl

/-- A property of a group is read off the element that stands for it. -/
theorem property?_of_group {group : Node} (h : group.isNamed "PropertyGroup" = true) (language : Language)
    (name key : Text) : Configuration.property? ⟨name, propertiesOfGroup language group⟩ key =
      (settingOf? language group key).bind propertyOfElement := by
  have hnamed (n : Node) :
      (propertyOfElement n).any (·.name = key) = decide (n.isElement = true ∧ n.isNamed key = true) := by
    cases n <;> simp [propertyOfElement, Node.name?, Node.isElement, Node.isNamed]
  unfold Configuration.property? propertiesOfGroup settingOf?
  rw [List.find?_filterMap, ← flatMap_allNamed_settings h, List.find?_filter]
  simp only [hnamed]

/-! ## Runs -/

/-- Whether a project was loaded from a document and the selection is that of a name. -/
structure LooksAt (root : Node) (last : Option Text) (p : Project) : Prop where
  /-- Its configurations are the property groups directly below the root that have a condition. -/
  configurations_eq : p.configurations =
    (root.childrenNamed "PropertyGroup").filterMap (configurationOfGroup? p.language)
  /-- What is selected is the group for the name. -/
  selected_eq : p.selected = last.bind fun name =>
    (groupFor? root name).map fun group => ⟨name, propertiesOfGroup p.language group⟩

variable {root : Node} {last : Option Text} {output : Text} {p : Project}

theorem looksAt_of_ofDocument (h : ofDocument output root = .ok p) : LooksAt root none p := by
  obtain ⟨-, references, -, rfl⟩ := ofDocument_eq_ok_iff.1 h
  exact ⟨rfl, rfl⟩

theorem LooksAt.select (h : LooksAt root last p) (name : Text) : LooksAt root (some name) (p.select name) where
  configurations_eq := h.configurations_eq
  selected_eq := by
    rw [selected_select, h.configurations_eq]
    exact find?_configurations p.language root name

/-- One call: a name that is selected takes the place of the one before, and reading leaves all as it is. -/
theorem LooksAt.next (h : LooksAt root last p) (call : Call) :
    LooksAt root (call.selects?.or last) (p.next call) := by
  cases call with
  | select name => exact h.select name
  | read key way => exact h

theorem lastSelected?_append (calls : List Call) (call : Call) :
    lastSelected? (calls ++ [call]) = call.selects?.or (lastSelected? calls) := by
  unfold lastSelected?
  rw [List.filterMap_append, List.getLast?_append]
  cases h : call.selects? <;> simp [h]

/-- The language is none of the things that calls change. -/
theorem language_next (p : Project) (call : Call) : (p.next call).language = p.language := by
  cases call <;> rfl

theorem after_append (p : Project) (calls : List Call) (call : Call) :
    p.after (calls ++ [call]) = (p.after calls).next call := by
  simp [after]

/-- Calls that read might as well not be made. -/
theorem after_filter_selects (p : Project) (calls : List Call) :
    p.after (calls.filter fun call => call.selects?.isSome) = p.after calls := by
  induction calls generalizing p with
  | nil => rfl
  | cons call calls ih =>
    cases call with
    | select name => exact ih (p.select name)
    | read key way => exact ih p

/-- Any calls: only the name that was selected last counts. -/
theorem LooksAt.after (h : LooksAt root none p) (calls : List Call) :
    LooksAt root (lastSelected? calls) (p.after calls) ∧ (p.after calls).language = p.language := by
  induction calls using List.reverseRecOn with
  | nil => exact ⟨h, rfl⟩
  | append_singleton calls call ih =>
    rw [lastSelected?_append, after_append]
    exact ⟨ih.1.next call, (language_next _ call).trans ih.2⟩

end Project

/-! ## Answers -/

section Selected

variable {p : Project} {c : Configuration} (h : p.selected = some c)
include h

theorem configurationFor_of_selected (key : Text) : p.configurationFor key = .ok c := by
  unfold Project.configurationFor
  rw [h]

theorem textOf_of_selected (key : Text) : p.textOf key = .ok (c.text? key) := by
  unfold Project.textOf
  rw [configurationFor_of_selected h]
  rfl

theorem isOn_of_selected (key : Text) (preset : Bool) : p.isOn key preset = .ok (c.isOn key preset) := by
  unfold Project.isOn
  rw [configurationFor_of_selected h]
  rfl

theorem formOf_of_selected (key form preset : Text) :
    p.formOf key form preset = .ok (((c.text? key).map (fillForm form)).getD preset) := by
  unfold Project.formOf
  rw [configurationFor_of_selected h]
  show Except.ok _ = Except.ok _
  cases c.text? key <;> rfl

theorem valuesOf_of_selected (key form : Text) : p.valuesOf key form = .ok ((c.values key).map (fillForm form)) := by
  unfold Project.valuesOf
  rw [configurationFor_of_selected h]
  rfl

end Selected

namespace Project

variable {root : Node} {last : Option Text} {p : Project}

/-- All four readings of a property are about one element. -/
theorem answer_read {group : Node} (hgroup : group.isNamed "PropertyGroup" = true) {name : Text}
    (hselected : p.selected = some ⟨name, propertiesOfGroup p.language group⟩) (key : Text) (way : Reading) :
    p.answer (.read key way) = .ok (way.answerFrom (settingOf? p.language group key)) := by
  have hproperty := property?_of_group hgroup p.language name key
  cases hn : settingOf? p.language group key with
  | none =>
    rw [hn, Option.bind_none] at hproperty
    cases way <;>
      simp only [answer, textOf_of_selected hselected, isOn_of_selected hselected, formOf_of_selected hselected,
        valuesOf_of_selected hselected, Configuration.isOn, Configuration.text?, Configuration.values, hproperty,
        funext (fillForm_eq _)] <;>
      rfl
  | some n =>
    have hnamed : n.isNamed key = true := List.find?_some hn
    rw [hn, Option.bind_some, propertyOfElement_of_isNamed hnamed] at hproperty
    cases way <;>
      simp only [answer, textOf_of_selected hselected, isOn_of_selected hselected, formOf_of_selected hselected,
        valuesOf_of_selected hselected, Configuration.isOn, Configuration.text?, Configuration.values, hproperty,
        funext (fillForm_eq _)] <;>
      rfl

/-- Without a selection nothing is read. -/
theorem answer_read_of_selected_eq_none (h : p.selected = none) (key : Text) (way : Reading) :
    p.answer (.read key way) = .error (.noSelection key) := by
  cases way <;> simp only [answer, textOf, isOn, formOf, valuesOf, configurationFor, h] <;> rfl

theorem isNamed_of_groupFor? {name : Text} {group : Node} (h : groupFor? root name = some group) :
    group.isNamed "PropertyGroup" = true := by
  have hfor : IsGroupFor name group := by simpa using List.find?_some h
  exact hfor.1

/-- A project answers as the document that it was loaded from. -/
theorem LooksAt.answer (h : LooksAt root last p) (call : Call) :
    p.answer call = documentAnswer p.language root (last.bind (groupFor? root)) call := by
  cases call with
  | select name =>
    have hselected := (h.select name).selected_eq
    rw [Option.bind_some] at hselected
    show Except.ok (Answer.selected (p.select name).selected.isSome) =
      Except.ok (.selected (groupFor? root name).isSome)
    rw [hselected, Option.isSome_map]
  | read key way =>
    have hselected := h.selected_eq
    cases last with
    | none => exact answer_read_of_selected_eq_none hselected key way
    | some name =>
      rw [Option.bind_some] at hselected ⊢
      cases hgroup : groupFor? root name with
      | none =>
        rw [hgroup] at hselected
        exact answer_read_of_selected_eq_none hselected key way
      | some group =>
        rw [hgroup] at hselected
        exact answer_read (isNamed_of_groupFor? hgroup) hselected key way

end Project

/-- A property group for a configuration. -/
def Xml.Node.configurationGroup (name : Text) (children : List Node) : Node :=
  .element "PropertyGroup" [⟨none, "Condition", " " ++ Project.conditionFor name ++ " "⟩] children

/-- The short document of a C program with more groups. -/
def Xml.Node.withGroups (groups : List Node) : Node :=
  .element "Project" [] ((programDocument []).children ++ groups)

namespace Project

variable {root : Node} {p : Project}

/-- Whatever is called before, a project that was loaded from a document looks at the first property group directly
below the root that has the condition for the name selected last. Every call is answered from there: selecting says
whether there is a group for the name, and a property is read off the first element of its name in the settings of the
group, in all four ways. Only reading without a group is a violation, and the project would be the same if nothing was
read. -/
theorem answer_after {output : Text} (h : ofDocument output root = .ok p) (calls : List Call) :
    (p.after calls).selected = ((lastSelected? calls).bind fun name => (groupFor? root name).map fun group =>
        ⟨name, propertiesOfGroup p.language group⟩) ∧
      (∀ call, (p.after calls).answer call =
        documentAnswer p.language root ((lastSelected? calls).bind (groupFor? root)) call) ∧
      p.after calls = p.after (calls.filter fun call => call.selects?.isSome) := by
  obtain ⟨hlooks, hlanguage⟩ := (looksAt_of_ofDocument h).after calls
  refine ⟨?_, fun call => ?_, (after_filter_selects p calls).symm⟩
  · rw [← hlanguage]
    exact hlooks.selected_eq
  · rw [← hlanguage]
    exact hlooks.answer call

/-- A property that is there twice, in a configuration that is there twice, selected after another one. It has a text
and values, and is read in all four ways; a form may have several marks. -/
theorem answer_after_repeated :
    let root : Node := .withGroups [
      .configurationGroup "Release" [.element "ToolchainSettings" [] [.element "ArmGcc" [] [
        .element "armgcc.compiler.directories.IncludePaths" [] [
          .text "True", .element "ListValues" [] [.leaf "Value" "../inc", .leaf "Value" "src"]],
        .leaf "armgcc.compiler.directories.IncludePaths" "False"]]],
      .configurationGroup "Release" [.element "ArmGcc" [] [
        .leaf "armgcc.compiler.directories.IncludePaths" "Default"]]]
    let key : Text := "armgcc.compiler.directories.IncludePaths"
    ∃ p, ofDocument "rover" root = .ok p ∧
      let q := p.after [.select "Debug", .read key .text, .select "Release"]
      q.answer (.read key .text) = .ok (.text (some "True")) ∧
      q.answer (.read key (.switch false)) = .ok (.switch true) ∧
      q.answer (.read key (.filled "\x7b\x7d=\x7b\x7b\x7d\x7d;" "off")) = .ok (.filled "True=\x7bTrue\x7d;") ∧
      q.answer (.read key (.values "-I\"\x7b\x7d\"")) = .ok (.values ["-I\"../inc\"", "-I\"src\""]) ∧
      q.answer (.read "armgcc.linker.general.UseNewlibNano" (.filled "\x7b\x7d" "off")) = .ok (.filled "off") ∧
      (q.next (.select "None")).answer (.read key .text) = .error (.noSelection key) := by
  intro root key
  have hp : ofDocument "rover" root = .ok (described "rover" root []) := rfl
  let calls : List Call := [.select "Debug", .read key .text, .select "Release"]
  obtain ⟨-, hanswers, -⟩ := answer_after hp calls
  obtain ⟨-, hlast, -⟩ := answer_after hp (calls ++ [.select "None"])
  refine ⟨_, hp, ?_, ?_, ?_, ?_, ?_, ?_⟩
  · exact (hanswers _).trans (by decide)
  · exact (hanswers _).trans (by decide)
  · exact (hanswers _).trans (by decide)
  · exact (hanswers _).trans (by decide)
  · exact (hanswers _).trans (by decide)
  · exact (hlast _).trans (by decide)

end Project

end CprojNinja
