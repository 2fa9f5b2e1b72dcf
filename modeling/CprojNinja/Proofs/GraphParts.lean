import CprojNinja.Proofs.SourceScan

/-!
# The parts of a build graph

A build graph is put together from a preamble, the edges of the sources, and the statements of the last edge. This
module says what each part declares, binds and builds. The preamble holds all rules and bindings and no edge, the rest
holds all edges and neither rules nor bindings; whatever is said of the order of a build graph rests on that.
-/

namespace CprojNinja

open Ninja (Edge File Rule Statement)

namespace Ninja.File

/-- The names of the rules of a file, in order. -/
def ruleNames (f : File) : List Text := f.rules.map (·.name)

/-- The names of the variables that a file binds, in order. -/
def boundNames (f : File) : List Text := f.filterMap fun | .binding name _ => some name | _ => none

/-- The edges of a file that compile one source. -/
def compileEdges (f : File) : List Edge := f.edges.filter fun e => e.rule = "cc" ∨ e.rule = "cxx"

variable (f g : File)

@[simp] theorem edges_append : edges (f ++ g) = edges f ++ edges g := by simp [edges]

@[simp] theorem defaults_append : defaults (f ++ g) = defaults f ++ defaults g := by simp [defaults]

@[simp] theorem ruleNames_append : ruleNames (f ++ g) = ruleNames f ++ ruleNames g := by simp [ruleNames, rules]

@[simp] theorem boundNames_append : boundNames (f ++ g) = boundNames f ++ boundNames g := by simp [boundNames]

theorem mem_edges {f : File} {e : Edge} : e ∈ f.edges ↔ .edge e ∈ f := by
  unfold edges
  rw [List.mem_filterMap]
  constructor
  · rintro ⟨s, hs, he⟩
    cases s <;> simp_all
  · intro h
    exact ⟨.edge e, h, rfl⟩

end Ninja.File

/-! ## Edges of the sources -/

section Edges

variable (edges : List Edge)

/-- Whoever overlooks edges sees nothing of them. -/
theorem filterMap_map_edge {β : Type} {view : Statement → Option β} (h : ∀ e, view (.edge e) = none) :
    (edges.map Statement.edge).filterMap view = [] := by
  refine List.filterMap_eq_nil_iff.2 fun s hs => ?_
  obtain ⟨e, -, rfl⟩ := List.mem_map.1 hs
  exact h e

@[simp] theorem edges_map_edge : File.edges (edges.map .edge) = edges := by
  unfold File.edges
  rw [List.filterMap_map]
  exact List.filterMap_some

@[simp] theorem defaults_map_edge : File.defaults (edges.map .edge) = [] := filterMap_map_edge edges fun _ => rfl

@[simp] theorem ruleNames_map_edge : File.ruleNames (edges.map .edge) = [] :=
  congrArg (List.map _) (filterMap_map_edge edges fun _ => rfl)

@[simp] theorem boundNames_map_edge : File.boundNames (edges.map .edge) = [] := filterMap_map_edge edges fun _ => rfl

end Edges

namespace Project

/-- The edges that the files of a project ask for. -/
def listedEdges (p : Project) : List Edge := p.sources.filterMap listedEdge?

/-- The object files that the files of a project ask for. -/
def listedObjects (p : Project) : List Path := p.listedEdges.flatMap (·.outputs)

theorem listedObjects_eq_nil_iff (p : Project) : p.listedObjects = [] ↔ p.listedEdges = [] := by
  constructor
  · intro h
    refine List.eq_nil_iff_forall_not_mem.2 fun e he => ?_
    obtain ⟨file, -, hfile⟩ := List.mem_filterMap.1 he
    have hnil : e.outputs = [] := List.flatMap_eq_nil_iff.1 h e he
    rw [outputs_of_listedEdge? hfile] at hnil
    cases hnil
  · intro h
    rw [listedObjects, h]
    rfl

/-- A listed edge compiles C, or C++ in a C++ project. -/
theorem rule_of_mem_listedEdges {p : Project} (hp : Harmless p.language p.sources) {e : Edge}
    (he : e ∈ p.listedEdges) : e.rule = "cc" ∨ e.rule = "cxx" ∧ p.isCpp = true := by
  obtain ⟨file, hmem, hfile⟩ := List.mem_filterMap.1 he
  obtain ⟨before, after, hsplit⟩ := List.append_of_mem hmem
  have hnative : ¬ IsForeign p.language file := fun h => hp before file after hsplit (Or.inl h)
  rw [listedEdge?_eq] at hfile
  obtain ⟨found, hfound, rfl⟩ := Option.map_eq_some_iff.1 hfile
  cases found with
  | c => exact Or.inl rfl
  | cpp =>
    refine Or.inr ⟨rfl, ?_⟩
    cases hlang : p.language with
    | c => exact absurd ⟨hlang, sourceLanguage?_eq_cpp_iff.1 hfound⟩ hnative
    | cpp => simp [isCpp, hlang]

/-- The name of the rule for the last edge. -/
def lastRuleName (p : Project) : Text := if p.isArchive then "ar" else "link"

/-- The name of the variable with the flags for the last edge. -/
def lastVariableName (p : Project) : Text := if p.isArchive then "arflags" else "lflags"

end Project

/-! ## The preamble -/

section Preamble

variable (p : Project) (flags : ResolvedFlags) (programs : Executables) (outdir : Text)

/-- The bindings and rules of a preamble, without the blank lines and comments around them. -/
def declarations : List Statement :=
  [.binding "ninja_required_version" "1.3", .binding "builddir" ".", .binding "src" "$builddir/..",
    .flags "ccflags" flags.c, .rule (cRule programs)] ++
    (if p.isCpp then [.flags "cxxflags" (flags.cpp.getD []), .rule (cppRule programs)] else []) ++
    (if p.isArchive then [.flags "arflags" flags.final, .rule (archiveRule programs)]
      else [.flags "lflags" flags.final, .rule (linkRule programs)])

/-- Whether a statement is neither a blank line nor a comment. -/
def Ninja.Statement.speaks : Statement → Bool
  | .blank | .comment _ => false
  | _ => true

theorem filter_preamble :
    (preamble p flags programs outdir).filter Statement.speaks = declarations p flags programs := by
  have hreferences : (referenceStatements p.references outdir).filter Statement.speaks = [] := by
    unfold referenceStatements
    split
    · rfl
    · simp [Statement.speaks]
  unfold preamble declarations
  simp only [List.filter_append, hreferences, List.append_nil]
  cases p.isCpp <;> cases p.isArchive <;> rfl

/-- Whoever looks at a preamble and overlooks blank lines and comments sees its declarations. -/
theorem filterMap_preamble {β : Type} (view : Statement → Option β) (hblank : view .blank = none)
    (hcomment : ∀ text, view (.comment text) = none) :
    (preamble p flags programs outdir).filterMap view = (declarations p flags programs).filterMap view := by
  rw [← filter_preamble p flags programs outdir, List.filterMap_filter]
  congr 1
  funext s
  cases s <;> simp [Statement.speaks, hblank, hcomment]

theorem edges_preamble : File.edges (preamble p flags programs outdir) = [] := by
  refine (filterMap_preamble p flags programs outdir _ rfl fun _ => rfl).trans ?_
  unfold declarations
  cases p.isCpp <;> cases p.isArchive <;> rfl

theorem defaults_preamble : File.defaults (preamble p flags programs outdir) = [] := by
  refine (filterMap_preamble p flags programs outdir _ rfl fun _ => rfl).trans ?_
  unfold declarations
  cases p.isCpp <;> cases p.isArchive <;> rfl

/-- The rules of a preamble: one for C, one for C++ in a C++ project, and one of two for the last edge. -/
theorem ruleNames_preamble :
    File.ruleNames (preamble p flags programs outdir) =
      (if p.isCpp then ["cc", "cxx", p.lastRuleName] else ["cc", p.lastRuleName] : List Text) := by
  unfold File.ruleNames File.rules
  rw [filterMap_preamble p flags programs outdir _ rfl fun _ => rfl]
  unfold declarations Project.lastRuleName
  cases p.isCpp <;> cases p.isArchive <;> rfl

/-- The variables of a preamble: the directories, and the flags for each of its rules. -/
theorem boundNames_preamble :
    File.boundNames (preamble p flags programs outdir) =
      (["ninja_required_version", "builddir", "src"] : List Text) ++
        (if p.isCpp then ["ccflags", "cxxflags", p.lastVariableName]
          else ["ccflags", p.lastVariableName] : List Text) := by
  refine (filterMap_preamble p flags programs outdir _ rfl fun _ => rfl).trans ?_
  unfold declarations Project.lastVariableName
  cases p.isCpp <;> cases p.isArchive <;> rfl

end Preamble

end CprojNinja
