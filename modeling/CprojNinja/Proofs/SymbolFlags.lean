import CprojNinja.Flags.Compiler
import CprojNinja.Proofs.Defines
import CprojNinja.Proofs.Selections

/-!
# Flags about symbols

The symbols that a compilation defines and undefines come from two sides, the caller and the project, and become flags
that stand in one place of a compiler page. The caller's lists are taken without their empty entries, those of the project
are not, and a value is empty in a project wherever its element does not begin with a text.

Main statement: a flag without a symbol is there exactly if the project lists an empty value. The caller has no part in
it, but that it may remove the empty define.
-/

namespace CprojNinja

open Xml (Node)

/-! ## The place of the symbols -/

namespace Configuration

variable {c : Configuration} {page : Language} {changes : SymbolChanges} {symbols : List Text}

/-- The flags of a compiler page that are about symbols. -/
def symbolFlags (c : Configuration) (page : Language) (changes : SymbolChanges) : Except Violation (List Text) := do
  let defines ← mergeDefines changes.added (c.definedSymbols page) changes.removed
  return defines.map defineFlag ++ (mergeUndefines changes.undefined (c.undefinedSymbols page)).map undefineFlag

/-- The flags of a compiler page around certain flags about symbols. -/
def flagsAround (c : Configuration) (page : Language) (symbols : List Text) : List Text :=
  pageFlags (compilerPage page) entriesBeforeSymbols c ++ symbols ++
    pageFlags (compilerPage page) entriesAfterSymbols c

/-- What the caller changes stays in the place of the symbols. -/
theorem compilerFlags_eq_flagsAround (c : Configuration) (page : Language) (changes : SymbolChanges) :
    c.compilerFlags page changes = c.flagsAround page <$> c.symbolFlags page changes := by
  unfold compilerFlags symbolFlags flagsAround
  cases mergeDefines changes.added (c.definedSymbols page) changes.removed with
  | error v => rfl
  | ok defines =>
    show Except.ok _ = Except.ok _
    simp only [List.append_assoc]

theorem exists_symbolFlags_eq_error_iff : (∃ v, c.symbolFlags page changes = .error v) ↔
    RemovesRepeated changes.added (c.definedSymbols page) changes.removed := by
  rw [← exists_mergeDefines_eq_error_iff]
  refine exists_congr fun v => ?_
  unfold symbolFlags
  rw [bind_eq_error]
  constructor
  · rintro (h | ⟨defines, -, h⟩)
    · exact h
    · cases h
  · exact Or.inl

/-! ## Flags without a symbol -/

theorem empty_mem_nonEmpty_append {added own : List Text} : [] ∈ Text.nonEmpty added ++ own ↔ [] ∈ own := by
  unfold Text.nonEmpty
  simp

theorem defineFlag_injective : Function.Injective defineFlag := List.append_right_injective _

theorem undefineFlag_injective : Function.Injective undefineFlag := List.append_right_injective _

theorem defineFlag_ne_undefineFlag (symbol other : Text) : defineFlag symbol ≠ undefineFlag other := by
  intro h
  have hmarks := congrArg (·[1]?) h
  exact absurd hmarks (by simp [defineFlag, undefineFlag])

theorem not_mem_map_of_ne {f g : Text → Text} (h : ∀ symbol other, f symbol ≠ g other) (symbol : Text)
    (names : List Text) : f symbol ∉ names.map g := by
  intro hmem
  obtain ⟨other, -, hother⟩ := List.mem_map.1 hmem
  exact h symbol other hother.symm

/-- Only the project can give rise to a flag without a symbol. -/
theorem bare_mem_of_symbolFlags (h : c.symbolFlags page changes = .ok symbols) :
    (defineFlag [] ∈ symbols ↔ [] ∈ c.definedSymbols page ∧ [] ∉ changes.removed) ∧
      (undefineFlag [] ∈ symbols ↔ [] ∈ c.undefinedSymbols page) := by
  obtain ⟨defines, hdefines, hsymbols⟩ := bind_eq_ok.1 h
  cases hsymbols
  have hdefine (names : List Text) : defineFlag [] ∉ names.map undefineFlag :=
    not_mem_map_of_ne defineFlag_ne_undefineFlag [] names
  have hundefine (names : List Text) : undefineFlag [] ∉ names.map defineFlag :=
    not_mem_map_of_ne (fun symbol other => (defineFlag_ne_undefineFlag other symbol).symm) [] names
  refine ⟨?_, ?_⟩
  · rw [List.mem_append, or_iff_left (hdefine _), List.mem_map_of_injective defineFlag_injective,
      mem_of_mergeDefines hdefines, empty_mem_nonEmpty_append]
  · rw [List.mem_append, or_iff_right (hundefine _), List.mem_map_of_injective undefineFlag_injective]
    exact empty_mem_nonEmpty_append

end Configuration

/-! ## Empty values -/

namespace Project

/-- Whether the element of a property lists a value that has no text: it does not begin with one, or with an empty one. -/
def ListsEmpty (setting : Option Node) : Prop :=
  ∃ n ∈ setting, ∃ value ∈ (n.childrenNamed "ListValues").flatMap (Node.childrenNamed "Value"),
    ∀ content, value.children.head? = some (.text content) → content = []

theorem textOrEmpty_eq_nil_iff (n : Node) :
    n.textOrEmpty = [] ↔ ∀ content, n.children.head? = some (.text content) → content = [] := by
  unfold Node.textOrEmpty Node.text?
  cases n.children.head? with
  | none => simp
  | some child => cases child <;> simp

theorem empty_mem_values_iff {group : Node} (h : group.isNamed "PropertyGroup" = true) (language : Language)
    (name key : Text) :
    [] ∈ Configuration.values ⟨name, propertiesOfGroup language group⟩ key ↔
      ListsEmpty (settingOf? language group key) := by
  unfold Configuration.values ListsEmpty
  rw [property?_of_group h]
  cases hn : settingOf? language group key with
  | none => simp
  | some n =>
    have hnamed : n.isNamed key = true := List.find?_some hn
    rw [Option.bind_some, propertyOfElement_of_isNamed hnamed]
    show [] ∈ listedValues n ↔ _
    unfold listedValues
    simp only [List.mem_map, textOrEmpty_eq_nil_iff, Option.mem_some_iff, exists_eq_left']

variable {output name : Text} {root group : Node} {p : Project}

/-- A project that was loaded from a document has a flag without a symbol exactly if the document lists an empty value
for the selected configuration; an empty define may be removed by the caller. All other flags around those for symbols
do not depend on what the caller changes, and only a define that is to be removed and occurs twice is a violation. -/
theorem bare_mem_symbolFlags (hp : ofDocument output root = .ok p) (hgroup : groupFor? root name = some group)
    (page : Language) (changes : SymbolChanges) :
    let setting (key : Text) := settingOf? p.language group (compilerPage page ++ key)
    ∃ c, (p.select name).selected = some c ∧
      (p.select name).compilerFlags page changes = c.flagsAround page <$> c.symbolFlags page changes ∧
      ((∃ v, c.symbolFlags page changes = .error v) ↔
        RemovesRepeated changes.added (c.definedSymbols page) changes.removed) ∧
      ∀ symbols, c.symbolFlags page changes = .ok symbols →
        (("-D" : Text) ∈ symbols ↔ ListsEmpty (setting "symbols.DefSymbols") ∧ [] ∉ changes.removed) ∧
        (("-U" : Text) ∈ symbols ↔ ListsEmpty (setting "preprocessor.UndefSymbols")) := by
  intro setting
  have hnamed := isNamed_of_groupFor? hgroup
  have hselected := ((looksAt_of_ofDocument hp).select name).selected_eq
  rw [Option.bind_some, hgroup, Option.map_some] at hselected
  refine ⟨⟨name, propertiesOfGroup p.language group⟩, hselected, ?_,
    Configuration.exists_symbolFlags_eq_error_iff, ?_⟩
  · rw [← Configuration.compilerFlags_eq_flagsAround]
    unfold compilerFlags
    rw [configurationFor_of_selected hselected]
    rfl
  · intro symbols hsymbols
    obtain ⟨hdefine, hundefine⟩ := Configuration.bare_mem_of_symbolFlags hsymbols
    refine ⟨?_, ?_⟩
    · rw [← empty_mem_values_iff hnamed p.language name]
      exact hdefine
    · rw [← empty_mem_values_iff hnamed p.language name]
      exact hundefine

/-- A define that a comment hides, and that the caller removes, and a value inside another one. -/
theorem bare_mem_symbolFlags_hidden :
    let values (key : Text) (inside : List Node) : Node :=
      .element key [] [.element "ListValues" [] [.element "Value" [] inside]]
    let group : Node := .configurationGroup "Release" [.element "ArmGcc" [] [
      values "armgcc.compiler.symbols.DefSymbols" [.comment, .text "BOARD"],
      values "armgcc.compiler.preprocessor.UndefSymbols" [.leaf "Value" "NDEBUG"]]]
    let changes : SymbolChanges := ⟨["TRACE", []], [[]], [[]]⟩
    ∃ p c symbols, ofDocument "rover" (.withGroups [group]) = .ok p ∧ (p.select "Release").selected = some c ∧
      c.symbolFlags .c changes = .ok symbols ∧ ("-D" : Text) ∉ symbols ∧ ("-U" : Text) ∈ symbols := by
  intro values group changes
  have hp : ofDocument "rover" (.withGroups [group]) = .ok (described "rover" (.withGroups [group]) []) := rfl
  have hgroup : groupFor? (.withGroups [group]) "Release" = some group := rfl
  obtain ⟨c, hc, -, -, hbare⟩ := bare_mem_symbolFlags hp hgroup .c changes
  have hselected : c = ⟨"Release", propertiesOfGroup .c group⟩ := Option.some.inj (hc.symm.trans rfl)
  have hsymbols : c.symbolFlags .c changes = .ok ["-DTRACE", "-U"] := by
    rw [hselected]
    decide +kernel
  obtain ⟨hdefine, hundefine⟩ := hbare _ hsymbols
  refine ⟨_, c, _, hp, hc, hsymbols, fun hmem => (hdefine.1 hmem).2 List.mem_cons_self, hundefine.2 ?_⟩
  refine ⟨_, rfl, _, List.mem_cons_self, ?_⟩
  rintro content ⟨⟩

/-- Without the caller, both are there as flags without a symbol, and each takes the flag behind it for its symbol. -/
theorem bare_mem_compilerFlags :
    let empty (key : Text) : Node := .element key [] [.element "ListValues" [] [.element "Value" [] []]]
    let root : Node := .withGroups [.configurationGroup "Release" [.element "ArmGcc" [] [
      empty "armgcc.compiler.symbols.DefSymbols", empty "armgcc.compiler.preprocessor.UndefSymbols"]]]
    ∃ p, ofDocument "rover" root = .ok p ∧ (p.select "Release").compilerFlags .c {} =
      .ok ["-D", "-U", "-O0", "-mlong-calls"] := by
  intro empty root
  have hp : ofDocument "rover" root = .ok (described "rover" root []) := rfl
  refine ⟨_, hp, ?_⟩
  decide +kernel

end Project

end CprojNinja
