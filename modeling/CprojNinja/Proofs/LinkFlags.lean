import CprojNinja.Proofs.Selections
import CprojNinja.Proofs.GraphStructure

/-!
# What a program is linked from

The flags of the linker, the comments at the start of a build graph and its link edge are put together in different
places of the program. This module says of each what it is for a program with a selected configuration, so that they can
be compared.
-/

namespace CprojNinja

open Ninja (Edge File Rule Statement)

namespace Ninja.File

/-- The comments of a file, in order. -/
def comments (f : File) : List Text := f.filterMap fun | .comment text => some text | _ => none

/-- The edges of a file that link. -/
def linkEdges (f : File) : List Edge := f.edges.filter fun e => e.rule = "link"

@[simp] theorem comments_append (f g : File) : comments (f ++ g) = comments f ++ comments g := by simp [comments]

end Ninja.File

variable {p : Project} {flags : ResolvedFlags} {programs : Executables} {outdir : Text} {f : File}

/-! ## The graph -/

theorem comments_preamble (p : Project) (flags : ResolvedFlags) (programs : Executables) (outdir : Text) :
    File.comments (preamble p flags programs outdir) = p.references.map fun r =>
      "subninja " ++ siblingPath (r.buildDirectory outdir ++ "/" ++ buildFileName) := by
  have hreferences : File.comments (referenceStatements p.references outdir) = p.references.map fun r =>
      "subninja " ++ siblingPath (r.buildDirectory outdir ++ "/" ++ buildFileName) := by
    unfold referenceStatements
    cases p.references with
    | nil => rfl
    | cons r references =>
      rw [if_neg (by simp), File.comments_append]
      unfold File.comments
      rw [List.filterMap_map]
      simp
  have hrule (name : Text) (values : List Text) (r : Rule) : File.comments (ruleStatements name values r) = [] := rfl
  have hdirectories : File.comments directoryStatements = [] := rfl
  have hcpp : File.comments
      (if p.isCpp then ruleStatements "cxxflags" (flags.cpp.getD []) (cppRule programs) else []) = [] := by
    split <;> rfl
  have hlast : File.comments (if p.isArchive then ruleStatements "arflags" flags.final (archiveRule programs)
      else ruleStatements "lflags" flags.final (linkRule programs)) = [] := by
    split <;> rfl
  unfold preamble
  simp only [File.comments_append, hdirectories, hreferences, hrule, hcpp, hlast, List.nil_append, List.append_nil]

theorem comments_graph (h : p.graph flags programs outdir = .ok f) :
    f.comments = p.references.map fun r =>
      "subninja " ++ siblingPath (r.buildDirectory outdir ++ "/" ++ buildFileName) := by
  obtain ⟨-, rfl⟩ := graph_eq_ok_iff.1 h
  have hedges : File.comments (p.listedEdges.map .edge) = [] := filterMap_map_edge p.listedEdges fun _ => rfl
  have hlast : File.comments (p.lastStatements flags outdir p.listedObjects) = [] := by
    unfold Project.lastStatements
    cases p.listedObjects <;> rfl
  rw [File.comments_append, File.comments_append, comments_preamble, hedges, hlast, List.append_nil, List.append_nil]

/-- A program that is compiled from something has one link edge. -/
theorem linkEdges_graph (h : p.graph flags programs outdir = .ok f) (hprogram : p.isArchive = false)
    (hcompiled : f.compileEdges ≠ []) : f.linkEdges = [p.lastEdge flags outdir p.listedObjects] := by
  have hp := (graph_eq_ok_iff.1 h).1
  rw [compileEdges_graph h] at hcompiled
  have hlisted : p.listedEdges.filter (fun e : Edge => e.rule = "link") = [] := by
    refine List.filter_eq_nil_iff.2 fun e he => ?_
    rcases Project.rule_of_mem_listedEdges hp he with hrule | ⟨hrule, -⟩ <;> rw [hrule] <;> decide
  have hlast : (p.lastEdge flags outdir p.listedObjects).rule = "link" := by
    rw [rule_lastEdge, Project.lastRuleName, hprogram]
    rfl
  rw [File.linkEdges, edges_graph h, if_neg hcompiled, List.filter_append, hlisted, List.nil_append,
    List.filter_singleton, hlast]
  rfl

theorem implicit_lastEdge (hprogram : p.isArchive = false) (objects : List Path) :
    (p.lastEdge flags outdir objects).implicit = p.linkDependencies flags.final outdir := by
  unfold Project.lastEdge
  rw [hprogram]
  rfl

/-! ## The flags -/

variable {c : Configuration} {caller : CallerFlags}

section Selected

variable (hselected : p.selected = some c)
include hselected

theorem compilerFlags_of_selected (page : Language) (changes : SymbolChanges) :
    p.compilerFlags page changes = c.compilerFlags page changes := by
  unfold Project.compilerFlags
  rw [configurationFor_of_selected hselected]
  rfl

theorem pageFlagsFor_of_selected (caller : CallerFlags) (page : Language) :
    p.pageFlagsFor caller page = (caller.flags ++ ·) <$> c.compilerFlags page caller.symbols := by
  unfold Project.pageFlagsFor
  rw [compilerFlags_of_selected hselected]
  rfl

theorem linkerFlags_of_selected (outdir : Text) : p.linkerFlags outdir = .ok (c.linkerFlags p outdir) := by
  unfold Project.linkerFlags
  rw [configurationFor_of_selected hselected]
  rfl

theorem archiverFlags_of_selected : p.archiverFlags = .ok (c.archiverFlags p.language) := by
  unfold Project.archiverFlags
  rw [configurationFor_of_selected hselected]
  rfl

/-- Once a configuration is selected, only the symbols of the compiler pages can still be refused. -/
theorem resolveFlags_of_selected (caller : CallerFlags) (outdir : Text) : p.resolveFlags caller outdir =
    c.compilerFlags .c caller.symbols >>= fun forC =>
      (if p.isCpp then some <$> c.compilerFlags .cpp caller.symbols else .ok none) >>= fun forCpp =>
        .ok {
          c := caller.flags ++ forC
          cpp := forCpp.map (caller.flags ++ ·)
          final := if p.isArchive then c.archiverFlags p.language else caller.flags ++ c.linkerFlags p outdir } := by
  unfold Project.resolveFlags
  simp only [pageFlagsFor_of_selected hselected, linkerFlags_of_selected hselected,
    archiverFlags_of_selected hselected]
  cases c.compilerFlags .c caller.symbols with
  | error v => rfl
  | ok forC =>
    cases p.isCpp with
    | false => cases p.isArchive <;> rfl
    | true =>
      cases c.compilerFlags .cpp caller.symbols with
      | error v => rfl
      | ok forCpp => cases p.isArchive <;> rfl

/-- If no symbol has to go, nothing is refused. -/
theorem exists_resolveFlags_eq_ok (hremoved : caller.removed = []) (outdir : Text) :
    ∃ flags, p.resolveFlags caller outdir = .ok flags := by
  have hpage (page : Language) : ∃ pageFlags, c.compilerFlags page caller.symbols = .ok pageFlags := by
    unfold Configuration.compilerFlags CallerFlags.symbols
    rw [hremoved, mergeDefines_nil]
    exact ⟨_, rfl⟩
  obtain ⟨forC, hforC⟩ := hpage .c
  obtain ⟨forCpp, hforCpp⟩ := hpage .cpp
  rw [resolveFlags_of_selected hselected, hforC, hforCpp]
  cases p.isCpp <;> exact ⟨_, rfl⟩

/-- A project none of whose files offends is built. -/
theorem exists_graph_eq_ok (hremoved : caller.removed = []) (hp : Harmless p.language p.sources)
    (hlisted : p.listedEdges ≠ []) (programs : Executables) (outdir : Text) :
    ∃ flags f, p.resolveFlags caller outdir = .ok flags ∧ p.graph flags programs outdir = .ok f ∧
      f.compileEdges ≠ [] := by
  obtain ⟨flags, hflags⟩ := exists_resolveFlags_eq_ok hselected hremoved outdir
  have hgraph : p.graph flags programs outdir = .ok _ := graph_eq_ok_iff.2 ⟨hp, rfl⟩
  exact ⟨flags, _, hflags, hgraph, by rwa [compileEdges_graph hgraph]⟩

omit hselected in
theorem linkerFlags_eq (c : Configuration) (p : Project) (outdir : Text) : c.linkerFlags p outdir =
    pageFlags (linkerPage p.language) (entriesBeforeLibraries p.outputName) c ++
      [libraryGroup (c.values (linkerPage p.language ++ "libraries.Libraries") ++ p.references.map (·.name))] ++
      pageFlags (linkerPage p.language) searchPathEntries c ++
      p.references.map (referenceSearchFlag outdir) ++
      pageFlags (linkerPage p.language) entriesAfterLibraries c := rfl

/-- A program is linked with the flags of the caller and those of the linker page. -/
theorem final_of_resolveFlags (hprogram : p.isArchive = false) (h : p.resolveFlags caller outdir = .ok flags) :
    flags.final = caller.flags ++ c.linkerFlags p outdir := by
  rw [resolveFlags_of_selected hselected] at h
  obtain ⟨forC, -, h⟩ := bind_eq_ok.1 h
  obtain ⟨forCpp, -, h⟩ := bind_eq_ok.1 h
  cases h
  rw [hprogram]
  rfl

end Selected

/-- The program of a short document with one source is built. -/
theorem exists_graph_programDocument {output : Text} {items : List Xml.Node}
    (hp : Project.ofDocument output (Xml.Node.programDocument items) = .ok p)
    (hsources : Project.includedPaths (Xml.Node.programDocument items) "Compile" = (["main.c"] : List Path)) :
    (p.select "Debug").selected = some ⟨"Debug", []⟩ ∧ p.isArchive = false ∧
      ∃ flags f, (p.select "Debug").resolveFlags {} "Debug" = .ok flags ∧
        (p.select "Debug").graph flags ⟨"gcc", "g++", "ar", "gcc"⟩ "Debug" = .ok f ∧ f.compileEdges ≠ [] := by
  obtain ⟨hlanguage, hprogram, -, hlisted, hconfigurations⟩ := Project.ofDocument_programDocument hp
  rw [hsources] at hlisted
  have hselected : (p.select "Debug").selected = some ⟨"Debug", []⟩ := by
    rw [Project.selected_select, hconfigurations]
    rfl
  have hharmless : Harmless p.language p.sources := by
    rw [hlanguage, hlisted]
    exact eachAfter_cons.2 ⟨by decide, eachAfter_nil⟩
  have hedges : p.listedEdges ≠ [] := by
    rw [Project.listedEdges, hlisted]
    decide
  have hremoved : ({} : CallerFlags).removed = [] := rfl
  exact ⟨hselected, hprogram, exists_graph_eq_ok hselected hremoved hharmless hedges _ _⟩

end CprojNinja
