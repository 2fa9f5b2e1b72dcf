import CprojNinja.Proofs.GraphParts
import Mathlib.Data.List.Nodup

/-!
# The structure of a build graph

What a build graph looks like as a whole, for every project that has one. Main statements: the compile edges are exactly
those that the listed files ask for, the other files are warned about, and the first file that offends decides how a
project fails; and every graph is closed and well ordered, so that whoever reads it from top to bottom meets each rule
and each variable once, before its first use, and the last edge after everything that it puts together.
-/

namespace CprojNinja

open Ninja (Edge File Rule Statement)

variable {p : Project} {flags : ResolvedFlags} {programs : Executables} {outdir : Text} {f : File}

/-! ## The last statements -/

section Last

variable (p flags outdir) (objects : List Path)

theorem edges_lastStatements :
    File.edges (p.lastStatements flags outdir objects) =
      if objects = [] then [] else [p.lastEdge flags outdir objects] := by
  unfold Project.lastStatements
  cases objects <;> rfl

theorem defaults_lastStatements :
    File.defaults (p.lastStatements flags outdir objects) = if objects = [] then [] else [[p.target]] := by
  unfold Project.lastStatements Project.lastEdge
  cases objects with
  | nil => rfl
  | cons object objects => cases p.isArchive <;> rfl

@[simp] theorem ruleNames_lastStatements : File.ruleNames (p.lastStatements flags outdir objects) = [] := by
  unfold Project.lastStatements
  cases objects <;> rfl

@[simp] theorem boundNames_lastStatements : File.boundNames (p.lastStatements flags outdir objects) = [] := by
  unfold Project.lastStatements
  cases objects <;> rfl

theorem rule_lastEdge : (p.lastEdge flags outdir objects).rule = p.lastRuleName := by
  unfold Project.lastEdge Project.lastRuleName
  split <;> rfl

theorem inputs_lastEdge : (p.lastEdge flags outdir objects).inputs = objects := by
  unfold Project.lastEdge
  split <;> rfl

theorem outputs_lastEdge : (p.lastEdge flags outdir objects).outputs = [p.target] := by
  unfold Project.lastEdge
  split <;> rfl

/-- The statements of the last edge, if there is something for it to put together. -/
theorem lastStatements_eq (hobjects : objects ≠ []) : p.lastStatements flags outdir objects =
    [.blank, .edge (p.lastEdge flags outdir objects), .blank, .default [p.target]] := by
  unfold Project.lastStatements
  rw [if_neg (by simpa using hobjects), ← outputs_lastEdge]

theorem target_eq : p.target = "$builddir/" ++ p.outputName ++ p.outputExtension := by
  unfold Project.target builtPath Project.output
  exact (List.append_assoc _ _ _).symm

/-- Where the archive of another project is, seen from the build directory. -/
theorem siblingPath_archivePath (r : Reference) (outdir : Text) : siblingPath (r.archivePath outdir) =
    "$builddir/../" ++ r.directory ++ "/" ++ outdir ++ "/lib" ++ r.name ++ ".a" := by
  unfold siblingPath Reference.archivePath Reference.buildDirectory Reference.fileName Reference.libraryName
    archiveStart archiveEnding
  simp only [List.append_assoc]
  simp

theorem lastRuleName_cases :
    p.lastRuleName = "ar" ∧ p.isArchive = true ∨ p.lastRuleName = "link" ∧ p.isArchive = false := by
  unfold Project.lastRuleName
  cases p.isArchive <;> simp

end Last

/-! ## The whole graph -/

theorem reportedGraph_of_harmless (hp : Harmless p.language p.sources) : p.reportedGraph flags programs outdir =
    ⟨skipWarnings p.sources, .ok (preamble p flags programs outdir ++ p.listedEdges.map .edge ++
      p.lastStatements flags outdir p.listedObjects)⟩ := by
  unfold Project.reportedGraph
  rw [compileEdges_of_harmless hp, Reported.mk_ok_bind_pure]
  rfl

theorem reportedGraph_of_first_offence {before after : List Path} {file : Path}
    (hsources : p.sources = before ++ file :: after) (hbefore : Harmless p.language before)
    (hfile : Offends p.language before file) :
    p.reportedGraph flags programs outdir = ⟨skipWarnings before, .error (offence p.language file)⟩ := by
  unfold Project.reportedGraph
  rw [hsources, compileEdges_of_first_offence hbefore hfile, Reported.mk_error_bind]

/-- A project has a build graph if none of its files offends, and then the graph is put together from its parts. -/
theorem graph_eq_ok_iff :
    p.graph flags programs outdir = .ok f ↔
      Harmless p.language p.sources ∧
        f = preamble p flags programs outdir ++ p.listedEdges.map .edge ++
          p.lastStatements flags outdir p.listedObjects := by
  unfold Project.graph
  constructor
  · intro h
    rw [Project.reportedGraph, Reported.outcome_bind] at h
    cases hedges : (compileEdges p.language [] p.sources).outcome with
    | ok edges =>
      obtain ⟨hp, rfl⟩ := outcome_compileEdges_eq_ok_iff.1 hedges
      rw [hedges] at h
      exact ⟨hp, (Except.ok.inj h).symm⟩
    | error e =>
      rw [hedges] at h
      cases h
  · rintro ⟨hp, rfl⟩
    rw [reportedGraph_of_harmless hp]

theorem edges_graph (h : p.graph flags programs outdir = .ok f) :
    f.edges = p.listedEdges ++ if p.listedEdges = [] then [] else [p.lastEdge flags outdir p.listedObjects] := by
  obtain ⟨-, rfl⟩ := graph_eq_ok_iff.1 h
  simp only [File.edges_append, edges_preamble, edges_map_edge, edges_lastStatements, List.nil_append,
    p.listedObjects_eq_nil_iff]

theorem defaults_graph (h : p.graph flags programs outdir = .ok f) :
    f.defaults = if p.listedEdges = [] then [] else [[p.target]] := by
  obtain ⟨-, rfl⟩ := graph_eq_ok_iff.1 h
  simp only [File.defaults_append, defaults_preamble, defaults_map_edge, defaults_lastStatements, List.nil_append,
    p.listedObjects_eq_nil_iff]

theorem ruleNames_graph (h : p.graph flags programs outdir = .ok f) :
    f.ruleNames = (if p.isCpp then ["cc", "cxx", p.lastRuleName] else ["cc", p.lastRuleName] : List Text) := by
  obtain ⟨-, rfl⟩ := graph_eq_ok_iff.1 h
  simp only [File.ruleNames_append, ruleNames_map_edge, ruleNames_lastStatements, List.append_nil, ruleNames_preamble]

theorem boundNames_graph (h : p.graph flags programs outdir = .ok f) :
    f.boundNames = File.boundNames (preamble p flags programs outdir) := by
  obtain ⟨-, rfl⟩ := graph_eq_ok_iff.1 h
  simp only [File.boundNames_append, boundNames_map_edge, boundNames_lastStatements, List.append_nil]

/-- The compile edges of a graph are those that the files of the project ask for. -/
theorem compileEdges_graph (h : p.graph flags programs outdir = .ok f) : f.compileEdges = p.listedEdges := by
  have hp := (graph_eq_ok_iff.1 h).1
  have hlisted : p.listedEdges.filter (fun e : Edge => e.rule = "cc" ∨ e.rule = "cxx") = p.listedEdges := by
    refine List.filter_eq_self.2 fun e he => decide_eq_true ?_
    exact (Project.rule_of_mem_listedEdges hp he).imp_right And.left
  have hlast : ¬ ((p.lastEdge flags outdir p.listedObjects).rule = "cc" ∨
      (p.lastEdge flags outdir p.listedObjects).rule = "cxx") := by
    rw [rule_lastEdge]
    rcases lastRuleName_cases p with ⟨hname, -⟩ | ⟨hname, -⟩ <;> rw [hname] <;> decide
  rw [File.compileEdges, edges_graph h, List.filter_append, hlisted]
  split
  · simp
  · rw [List.filter_cons_of_neg (by rw [decide_eq_true_eq]; exact hlast)]
    simp

/-! ## What the sources decide -/

/-- The first file that offends decides how a project fails: a C++ source of a C project is a violation, a repeated
object file an error, and each names the file. If no file offends there is a graph, and its compile edges and the object
files are what the names of the listed files ask for. In each case the files before the end of the scan that ask for no
edge are warned about, one by one. -/
theorem reportedGraph_of_listed_files (p : Project) (flags : ResolvedFlags) (programs : Executables) (outdir : Text) :
    (∀ before file after, p.sources = before ++ file :: after → Harmless p.language before →
      (IsForeign p.language file → p.reportedGraph flags programs outdir =
        ⟨skipWarnings before, .error (.violation (.foreignSource file))⟩) ∧
      (¬ IsForeign p.language file → IsRepeated before file → p.reportedGraph flags programs outdir =
        ⟨skipWarnings before, .error (.duplicateObject (listedObject file) file)⟩)) ∧
    (Harmless p.language p.sources → ∃ warnings f, p.reportedGraph flags programs outdir = ⟨warnings, .ok f⟩) ∧
    ∀ warnings f, p.reportedGraph flags programs outdir = ⟨warnings, .ok f⟩ →
      Harmless p.language p.sources ∧
      f.compileEdges = p.sources.filterMap listedEdge? ∧
      p.skippedFiles = p.sources.filter (fun file => (listedEdge? file).isNone) ∧
      warnings.map Warning.message = p.skippedFiles.map (fun file => ("Skipping file " ++ file : Text)) ∧
      (f.compileEdges.flatMap (·.outputs)).Nodup := by
  refine ⟨fun before file after hsources hbefore => ⟨fun hforeign => ?_, fun hnative hrepeated => ?_⟩,
    fun hp => ⟨_, _, reportedGraph_of_harmless hp⟩, fun warnings f hreport => ?_⟩
  · rw [reportedGraph_of_first_offence hsources hbefore (Or.inl hforeign), offence, if_pos hforeign]
  · rw [reportedGraph_of_first_offence hsources hbefore (Or.inr hrepeated), offence, if_neg hnative]
  · have hf : p.graph flags programs outdir = .ok f := congrArg Reported.outcome hreport
    have hp := (graph_eq_ok_iff.1 hf).1
    have hwarnings : warnings = skipWarnings p.sources :=
      (congrArg Reported.warnings hreport).symm.trans (congrArg Reported.warnings (reportedGraph_of_harmless hp))
    have hskipped : p.skippedFiles = (skipWarnings p.sources).map Warning.file := by
      rw [Project.skippedFiles, compileEdges_of_harmless hp]
    refine ⟨hp, compileEdges_graph hf, ?_, ?_, ?_⟩
    · rw [hskipped, file_skipWarnings]
    · rw [hwarnings, hskipped, message_skipWarnings]
    · rw [compileEdges_graph hf]
      exact nodup_outputs_of_harmless hp

/-- Three scans with skipped files. A source may repeat an object file without a look at its own name, because two dots
at the start cost three characters. A C++ source of a C project ends the scan before a source that is listed twice. And
a C++ project has sources of both languages. -/
theorem reportedGraph_of_listed_files_skipped :
    let p (language : Language) (sources : List Path) : Project := {
      language, outputKind := .archive, outputName := "x", outputExtension := ".a", toolchain := ⟨[], [], []⟩
      references := [], sources, configurations := [] }
    let report (p : Project) := p.reportedGraph ⟨[], none, []⟩ ⟨[], [], [], []⟩ "Debug"
    report (p .c ["..xb.c", "b.h", "b.c", "b.txt"]) =
        ⟨[.skippedFile "b.h"], .error (.duplicateObject "$builddir/b.o" "b.c")⟩ ∧
      report (p .c ["a.c", "a.h", "b.cc", "a.c"]) =
        ⟨[.skippedFile "a.h"], .error (.violation (.foreignSource "b.cc"))⟩ ∧
      ∃ warnings f, report (p .cpp ["a.h", "../a.c", "b.cc", "b.c.txt"]) = ⟨warnings, .ok f⟩ ∧
        warnings.map Warning.message = (["Skipping file a.h", "Skipping file b.c.txt"] : List Text) ∧
        f.compileEdges = [
          { outputs := ["$builddir/a.o"], rule := "cc", inputs := ["$src/../a.c"] },
          { outputs := ["$builddir/b.o"], rule := "cxx", inputs := ["$src/b.cc"] }] := by
  intro p report
  have hscan (q : Project) := reportedGraph_of_listed_files q ⟨[], none, []⟩ ⟨[], [], [], []⟩ "Debug"
  refine ⟨?_, ?_, ?_⟩
  · have hbefore : Harmless .c ["..xb.c", "b.h"] :=
      eachAfter_cons.2 ⟨by decide, eachAfter_cons.2 ⟨by decide, eachAfter_nil⟩⟩
    have hnative : ¬ IsForeign .c "b.c" := by decide
    have hrepeated : IsRepeated ["..xb.c", "b.h"] "b.c" := by decide
    exact ((hscan (p .c ["..xb.c", "b.h", "b.c", "b.txt"])).1 _ "b.c" ["b.txt"] rfl hbefore).2 hnative hrepeated
  · have hbefore : Harmless .c ["a.c", "a.h"] :=
      eachAfter_cons.2 ⟨by decide, eachAfter_cons.2 ⟨by decide, eachAfter_nil⟩⟩
    have hforeign : IsForeign .c "b.cc" := by decide
    exact ((hscan (p .c ["a.c", "a.h", "b.cc", "a.c"])).1 _ "b.cc" ["a.c"] rfl hbefore).1 hforeign
  · have hp : Harmless .cpp ["a.h", "../a.c", "b.cc", "b.c.txt"] := eachAfter_cons.2 ⟨by decide,
      eachAfter_cons.2 ⟨by decide, eachAfter_cons.2 ⟨by decide, eachAfter_cons.2 ⟨by decide, eachAfter_nil⟩⟩⟩⟩
    obtain ⟨-, hexists, hreport⟩ := hscan (p .cpp ["a.h", "../a.c", "b.cc", "b.c.txt"])
    obtain ⟨warnings, f, hf⟩ := hexists hp
    obtain ⟨-, hedges, -, hwarnings, -⟩ := hreport warnings f hf
    exact ⟨warnings, f, hf, hwarnings.trans (by decide), hedges.trans (by decide)⟩

/-! ## Order -/

/-- The variable with the flags for the commands of a rule. -/
def flagVariable? (ruleName : Text) : Option Text :=
  ([("cc", "ccflags"), ("cxx", "cxxflags"), ("ar", "arflags"), ("link", "lflags")] : List (Text × Text)).lookup ruleName

/-- A build graph that is closed and well ordered. -/
structure IsOrdered (p : Project) (flags : ResolvedFlags) (outdir : Text) (f : File) : Prop where
  /-- The rule of every edge is declared once, before the edge. -/
  edge_rule : EachAfter (fun before s => ∀ e, s = .edge e →
    e.rule ∈ File.ruleNames before ∧ f.ruleNames.count e.rule = 1) f
  /-- There is a rule for C, one for C++ in a C++ project, and one of two for the last edge. -/
  rule_names : f.ruleNames =
    (if p.isCpp then ["cc", "cxx", if p.isArchive then "ar" else "link"]
      else ["cc", if p.isArchive then "ar" else "link"] : List Text)
  /-- The command of every rule uses its flag variable, which is bound once, before the rule. -/
  rule_flags : EachAfter (fun before s => ∀ r, s = .rule r → ∃ name, flagVariable? r.name = some name ∧
    Text.occursIn ('$' :: name) r.command = true ∧ name ∈ File.boundNames before ∧ f.boundNames.count name = 1) f
  /-- Both directories are bound once, before every edge. -/
  directories : ∀ name ∈ (["builddir", "src"] : List Text), f.boundNames.count name = 1 ∧
    EachAfter (fun before s => ∀ e, s = .edge e → name ∈ File.boundNames before) f
  /-- If something is compiled, one edge is left: it comes last, takes the outputs of all compile edges, each once and
  in order, and makes the output of the project; the one default statement comes after it and names what it makes. -/
  last_edge : f.compileEdges ≠ [] → ∃ before last after, f = before ++ .edge last :: after ∧
    File.edges before = f.compileEdges ∧ File.edges after = [] ∧
    last.rule = (if p.isArchive then "ar" else "link" : Text) ∧
    last.inputs = f.compileEdges.flatMap (·.outputs) ∧ last.inputs.Nodup ∧
    last.outputs = ["$builddir/" ++ p.outputName ++ p.outputExtension] ∧
    File.defaults before = [] ∧ File.defaults after = [last.outputs]
  /-- If nothing is compiled, nothing is built. -/
  no_edge : f.compileEdges = [] → f.edges = [] ∧ f.defaults = []
  /-- An archive depends on nothing besides what goes into it. -/
  archive_implicit : ∀ e ∈ f.edges, e.rule = "ar" → e.implicit = []
  /-- A program depends on its linker script, if it has one, and on the archives of all referenced projects in order. -/
  link_implicit : ∀ e ∈ f.edges, e.rule = "link" → e.implicit =
    ((linkerScript? flags.final).map fun script => ("$src/" ++ script : Text)).toList ++
      p.references.map fun r => ("$builddir/../" ++ r.directory ++ "/" ++ outdir ++ "/lib" ++ r.name ++ ".a" : Text)

/-- Where the flag variable of a rule is bound before the rule. -/
def IsReady (before : File) (r : Rule) : Prop :=
  ∃ name, flagVariable? r.name = some name ∧ Text.occursIn ('$' :: name) r.command = true ∧
    name ∈ File.boundNames before

/-- Flags stand before the rule that uses them. -/
theorem eachAfter_ruleStatements {name : Text} {r : Rule} (hname : flagVariable? r.name = some name)
    (hcommand : ('$' :: name) <:+: r.command) (before : File) (values : List Text) :
    EachAfter (fun earlier s => ∀ r', s = .rule r' → IsReady (before ++ earlier) r')
      (ruleStatements name values r) := by
  have hready : IsReady (before ++ [.flags name values, .blank]) r :=
    ⟨name, hname, Text.occursIn_iff.2 hcommand, by simp [File.boundNames, Statement.flags]⟩
  unfold ruleStatements
  simp only [eachAfter_cons, Statement.flags, reduceCtorEq, false_implies, implies_true, true_and]
  refine ⟨?_, eachAfter_nil⟩
  rintro r' hr
  cases hr
  exact hready

/-- Every rule of a preamble finds its flag variable bound. -/
theorem eachAfter_preamble (p : Project) (flags : ResolvedFlags) (programs : Executables) (outdir : Text) :
    EachAfter (fun before s => ∀ r, s = .rule r → IsReady before r) (preamble p flags programs outdir) := by
  have hdirectories : EachAfter (fun before s => ∀ r, s = .rule r → IsReady before r) directoryStatements := by
    unfold directoryStatements
    simp [eachAfter_cons, eachAfter_nil]
  have hreferences (before : File) : EachAfter (fun earlier s => ∀ r, s = .rule r → IsReady (before ++ earlier) r)
      (referenceStatements p.references outdir) := by
    rintro earlier s after hs r rfl
    have hmem : Statement.rule r ∈ referenceStatements p.references outdir := by simp [hs]
    unfold referenceStatements at hmem
    split at hmem <;> simp at hmem
  have hc (before : File) : EachAfter (fun earlier s => ∀ r, s = .rule r → IsReady (before ++ earlier) r)
      (ruleStatements "ccflags" flags.c (cRule programs)) := by
    refine eachAfter_ruleStatements rfl ?_ before flags.c
    exact ⟨quotedProgram programs.cc ++ " -x c -c ", " -MD -MF $out.d -MT $out -o $out $in",
      by simp [cRule, compileRule]⟩
  have hcpp (before : File) : EachAfter (fun earlier s => ∀ r, s = .rule r → IsReady (before ++ earlier) r)
      (if p.isCpp then ruleStatements "cxxflags" (flags.cpp.getD []) (cppRule programs) else []) := by
    split
    · refine eachAfter_ruleStatements rfl ?_ before _
      exact ⟨quotedProgram programs.cxx ++ " -c ", " -MD -MF $out.d -MT $out -o $out $in",
        by simp [cppRule, compileRule]⟩
    · exact eachAfter_nil
  have hlast (before : File) : EachAfter (fun earlier s => ∀ r, s = .rule r → IsReady (before ++ earlier) r)
      (if p.isArchive then ruleStatements "arflags" flags.final (archiveRule programs)
        else ruleStatements "lflags" flags.final (linkRule programs)) := by
    split
    · refine eachAfter_ruleStatements rfl ?_ before _
      exact ⟨quotedProgram programs.ar ++ " ", " -c -o $out $in", by simp [archiveRule]⟩
    · refine eachAfter_ruleStatements rfl ?_ before _
      exact ⟨quotedProgram programs.link ++ " -o $out @$out.rsp ", [], by simp [linkRule]⟩
  unfold preamble
  simp only [eachAfter_append]
  exact ⟨⟨⟨⟨hdirectories, hreferences _⟩, hc _⟩, hcpp _⟩, hlast _⟩

/-- The rules of a graph stand in its preamble. -/
theorem eachAfter_rule_graph (h : p.graph flags programs outdir = .ok f) :
    EachAfter (fun before s => ∀ r, s = .rule r → IsReady before r) f := by
  obtain ⟨-, rfl⟩ := graph_eq_ok_iff.1 h
  rw [List.append_assoc]
  refine eachAfter_append.2 ⟨eachAfter_preamble p flags programs outdir, ?_⟩
  rintro before s after hs r rfl
  have hrule : Statement.rule r ∈
      p.listedEdges.map .edge ++ p.lastStatements flags outdir p.listedObjects := by simp [hs]
  unfold Project.lastStatements at hrule
  split at hrule <;> simp at hrule

/-- The edges of a graph stand behind its preamble. -/
theorem eachAfter_edge_graph (h : p.graph flags programs outdir = .ok f) {q : File → Edge → Prop}
    (hq : ∀ before e, e ∈ f.edges → q (preamble p flags programs outdir ++ before) e) :
    EachAfter (fun before s => ∀ e, s = .edge e → q before e) f := by
  obtain ⟨-, hf⟩ := graph_eq_ok_iff.1 h
  rw [List.append_assoc] at hf
  rw [hf]
  refine eachAfter_append.2 ⟨?_, ?_⟩
  · rintro before s after hs e rfl
    have hmem : e ∈ File.edges (preamble p flags programs outdir) := File.mem_edges.2 (by simp [hs])
    rw [edges_preamble] at hmem
    cases hmem
  · rintro before s after hs e rfl
    exact hq before e (File.mem_edges.2 (by simp [hf, hs]))

theorem nodup_ruleNames (h : p.graph flags programs outdir = .ok f) : f.ruleNames.Nodup := by
  rw [ruleNames_graph h]
  rcases lastRuleName_cases p with ⟨hname, -⟩ | ⟨hname, -⟩ <;> rw [hname] <;> cases p.isCpp <;> decide

theorem nodup_boundNames (h : p.graph flags programs outdir = .ok f) : f.boundNames.Nodup := by
  rw [boundNames_graph h, boundNames_preamble]
  unfold Project.lastVariableName
  cases p.isCpp <;> cases p.isArchive <;> decide

/-- The rule of every edge is declared. -/
theorem rule_mem_ruleNames (h : p.graph flags programs outdir = .ok f) {e : Edge} (he : e ∈ f.edges) :
    e.rule ∈ f.ruleNames := by
  rw [ruleNames_graph h]
  rw [edges_graph h] at he
  rcases List.mem_append.1 he with he | he
  · rcases Project.rule_of_mem_listedEdges (graph_eq_ok_iff.1 h).1 he with hrule | ⟨hrule, hcpp⟩
    · rw [hrule]
      split <;> simp
    · rw [hrule, if_pos hcpp]
      simp
  · split at he
    · cases he
    · rw [List.mem_singleton.1 he, rule_lastEdge]
      split <;> simp

/-- Only the last edge of a graph has one of the two rules for the last edge. -/
theorem eq_lastEdge_of_rule (h : p.graph flags programs outdir = .ok f) {e : Edge} (he : e ∈ f.edges)
    (hrule : e.rule = "ar" ∨ e.rule = "link") : e = p.lastEdge flags outdir p.listedObjects := by
  rw [edges_graph h] at he
  rcases List.mem_append.1 he with he | he
  · rcases Project.rule_of_mem_listedEdges (graph_eq_ok_iff.1 h).1 he with hcc | ⟨hcxx, -⟩
    · rw [hcc] at hrule
      exact absurd hrule (by decide)
    · rw [hcxx] at hrule
      exact absurd hrule (by decide)
  · split at he
    · cases he
    · exact List.mem_singleton.1 he

/-- Every build graph is closed and well ordered. -/
theorem graph_isOrdered (h : p.graph flags programs outdir = .ok f) : IsOrdered p flags outdir f where
  edge_rule := by
    refine eachAfter_edge_graph h fun before e he => ⟨?_, ?_⟩
    · rw [File.ruleNames_append, ruleNames_preamble, ← ruleNames_graph h]
      exact List.mem_append_left _ (rule_mem_ruleNames h he)
    · exact List.count_eq_one_of_mem (nodup_ruleNames h) (rule_mem_ruleNames h he)
  rule_names := ruleNames_graph h
  rule_flags := by
    rintro before s after hs r rfl
    obtain ⟨name, hname, hcommand, hbound⟩ := eachAfter_rule_graph h before _ after hs r rfl
    refine ⟨name, hname, hcommand, hbound, List.count_eq_one_of_mem (nodup_boundNames h) ?_⟩
    rw [hs, File.boundNames_append]
    exact List.mem_append_left _ hbound
  directories := by
    intro name hname
    have hmem : name ∈ File.boundNames (preamble p flags programs outdir) := by
      rw [boundNames_preamble]
      exact List.mem_append_left _ (List.mem_cons_of_mem _ hname)
    refine ⟨?_, eachAfter_edge_graph h fun before e he => ?_⟩
    · exact List.count_eq_one_of_mem (nodup_boundNames h) (boundNames_graph h ▸ hmem)
    · rw [File.boundNames_append]
      exact List.mem_append_left _ hmem
  last_edge := by
    intro hedges
    have hlisted : p.listedEdges ≠ [] := compileEdges_graph h ▸ hedges
    have hobjects : p.listedObjects ≠ [] := fun hnil => hlisted (p.listedObjects_eq_nil_iff.1 hnil)
    obtain ⟨hp, hf⟩ := graph_eq_ok_iff.1 h
    refine ⟨preamble p flags programs outdir ++ p.listedEdges.map .edge ++ [.blank],
      p.lastEdge flags outdir p.listedObjects, [.blank, .default [p.target]], ?_, ?_, rfl, rule_lastEdge _ _ _ _, ?_,
      ?_, ?_, ?_, ?_⟩
    · rw [hf, lastStatements_eq _ _ _ _ hobjects, List.append_assoc _ [Statement.blank], List.singleton_append]
    · rw [File.edges_append, File.edges_append, edges_preamble, edges_map_edge, compileEdges_graph h]
      exact List.append_nil _
    · rw [inputs_lastEdge, compileEdges_graph h]
      rfl
    · rw [inputs_lastEdge]
      exact nodup_outputs_of_harmless hp
    · rw [outputs_lastEdge, target_eq]
    · rw [File.defaults_append, File.defaults_append, defaults_preamble, defaults_map_edge]
      rfl
    · rw [outputs_lastEdge]
      rfl
  no_edge := by
    intro hedges
    rw [compileEdges_graph h] at hedges
    rw [edges_graph h, defaults_graph h, if_pos hedges, if_pos hedges, hedges]
    exact ⟨rfl, rfl⟩
  archive_implicit := by
    intro e he hrule
    have hlast := eq_lastEdge_of_rule h he (Or.inl hrule)
    rw [hlast, rule_lastEdge] at hrule
    rcases lastRuleName_cases p with ⟨-, harchive⟩ | ⟨hname, -⟩
    · rw [hlast, Project.lastEdge, if_pos harchive]
    · exact absurd (hname.symm.trans hrule) (by decide)
  link_implicit := by
    intro e he hrule
    have hlast := eq_lastEdge_of_rule h he (Or.inr hrule)
    rw [hlast, rule_lastEdge] at hrule
    rcases lastRuleName_cases p with ⟨hname, -⟩ | ⟨-, hprogram⟩
    · exact absurd (hname.symm.trans hrule) (by decide)
    · rw [hlast, Project.lastEdge, if_neg (by simp [hprogram])]
      unfold Project.linkDependencies sourcePath
      simp only [siblingPath_archivePath]

/-- A C++ program with a header among its files, a linker script and a reference. -/
theorem graph_isOrdered_program :
    let p : Project := {
      language := .cpp, outputKind := .executable, outputName := "rover", outputExtension := ".elf"
      toolchain := ⟨[], [], []⟩, references := [⟨"../centre", "Centre", by decide⟩]
      sources := ["src/main.cpp", "src/main.h", "../common/util.c"], configurations := [] }
    let flags : ResolvedFlags := ⟨["-O0"], some ["-O2"], ["-T../flash.ld"]⟩
    ∃ f, p.graph flags ⟨"gcc", "g++", "ar", "g++"⟩ "Debug" = .ok f ∧ f.compileEdges.length = 2 ∧
      IsOrdered p flags "Debug" f := by
  intro p flags
  have hp : Harmless p.language p.sources :=
    eachAfter_cons.2 ⟨by decide, eachAfter_cons.2 ⟨by decide, eachAfter_cons.2 ⟨by decide, eachAfter_nil⟩⟩⟩
  have h : p.graph flags ⟨"gcc", "g++", "ar", "g++"⟩ "Debug" = .ok _ := graph_eq_ok_iff.2 ⟨hp, rfl⟩
  refine ⟨_, h, ?_, graph_isOrdered h⟩
  rw [compileEdges_graph h]
  decide

end CprojNinja
