import CprojNinja.Proofs.GraphStructure
import CprojNinja.Proofs.ScriptSearch

/-!
# Written flags

A build graph takes its flags as lists of texts and writes them on a line, with blanks between them and without the
empty ones. So empty flags change nothing, and all other characters than those between the flags are found on the line
as often as in the flags, wherever it is cut.
-/

namespace CprojNinja

open Ninja (File Statement contents joinLines layout)

/-! ## Flags that are empty -/

theorem Text.mem_nonEmpty_iff {parts : List Text} {part : Text} :
    part ∈ Text.nonEmpty parts ↔ part ∈ parts ∧ part ≠ [] := by
  simp [Text.nonEmpty]

theorem Text.nonEmpty_eq_self {parts : List Text} (h : [] ∉ parts) : Text.nonEmpty parts = parts := by
  unfold Text.nonEmpty
  rw [List.filter_eq_self]
  intro part hpart
  simpa using ne_of_mem_of_not_mem hpart h

theorem Text.nonEmpty_append (first second : List Text) :
    Text.nonEmpty (first ++ second) = Text.nonEmpty first ++ Text.nonEmpty second :=
  List.filter_append ..

theorem Text.nonEmpty_nonEmpty (parts : List Text) : Text.nonEmpty (Text.nonEmpty parts) = Text.nonEmpty parts := by
  unfold Text.nonEmpty
  rw [List.filter_filter]
  simp only [Bool.and_self]

theorem Text.flatten_nonEmpty (parts : List Text) : (Text.nonEmpty parts).flatten = parts.flatten :=
  List.flatten_filter_ne_nil

/-- The flags without those that are empty. -/
def ResolvedFlags.written (flags : ResolvedFlags) : ResolvedFlags :=
  { c := Text.nonEmpty flags.c, cpp := flags.cpp.map Text.nonEmpty, final := Text.nonEmpty flags.final }

section Graph

variable {p : Project} {flags flags' : ResolvedFlags} {programs : Executables} {outdir : Text} {f : File}

theorem flags_nonEmpty (name : Text) (values : List Text) :
    Statement.flags name (Text.nonEmpty values) = Statement.flags name values := by
  unfold Statement.flags
  rw [Text.nonEmpty_nonEmpty]

theorem ruleStatements_nonEmpty (name : Text) (values : List Text) (rule : Ninja.Rule) :
    ruleStatements name (Text.nonEmpty values) rule = ruleStatements name values rule := by
  unfold ruleStatements
  rw [flags_nonEmpty]

theorem linkerScript?_nonEmpty (values : List Text) : linkerScript? (Text.nonEmpty values) = linkerScript? values := by
  unfold linkerScript?
  rw [flatMap_scriptsIn_nonEmpty]

theorem preamble_written (p : Project) (flags : ResolvedFlags) (programs : Executables) (outdir : Text) :
    preamble p flags.written programs outdir = preamble p flags programs outdir := by
  have hcpp : (flags.cpp.map Text.nonEmpty).getD [] = Text.nonEmpty (flags.cpp.getD []) := by
    cases flags.cpp <;> rfl
  unfold preamble ResolvedFlags.written
  simp only [hcpp, ruleStatements_nonEmpty]

theorem lastStatements_written (p : Project) (flags : ResolvedFlags) (outdir : Text) (objects : List Path) :
    p.lastStatements flags.written outdir objects = p.lastStatements flags outdir objects := by
  unfold Project.lastStatements Project.lastEdge Project.linkDependencies ResolvedFlags.written
  simp only [linkerScript?_nonEmpty]

/-- A graph does not change with flags that are empty. -/
theorem graph_written (p : Project) (flags : ResolvedFlags) (programs : Executables) (outdir : Text) :
    p.graph flags.written programs outdir = p.graph flags programs outdir := by
  unfold Project.graph Project.reportedGraph
  rw [preamble_written]
  simp only [lastStatements_written]

/-! ## Characters of flags -/

variable {c : Char}

/-- Whether a character belongs to what is written, and not to the blanks, dollars and line feeds that are put
between. -/
def IsWritten (c : Char) : Prop := c ≠ ' ' ∧ c ≠ '$' ∧ c ≠ '\n'

theorem count_joinWith (hc : IsWritten c) (parts : List Text) :
    (Text.joinWith " " parts).count c = parts.flatten.count c := by
  induction parts with
  | nil => rfl
  | cons part parts ih =>
    cases parts with
    | nil => simp [Text.joinWith]
    | cons next parts =>
      have hparts : (part :: next :: parts).flatten = part ++ (next :: parts).flatten := List.flatten_cons
      rw [Text.joinWith_cons_cons, List.count_append, List.count_cons_of_ne hc.1.symm, ih, hparts, List.count_append]

theorem count_joinLines (hc : IsWritten c) (lead nextLead : Nat) (lines : List Text) :
    (joinLines lead nextLead lines).count c = lines.flatten.count c := by
  have hindentation (width : Nat) : (Ninja.indentation width).count c = 0 := by
    unfold Ninja.indentation
    rw [List.count_replicate, if_neg (by simpa using hc.1.symm)]
  have hfeed : ("\n" : Text).count c = 0 := by
    simp [hc.2.2.symm]
  have hcontinuation : Ninja.continuation.count c = 0 := by
    simp [Ninja.continuation, hc.1.symm, hc.2.1.symm]
  induction lines generalizing lead with
  | nil => rfl
  | cons line lines ih =>
    cases lines with
    | nil =>
      rw [joinLines, List.count_append, List.count_append, hindentation, hfeed, List.flatten_singleton]
      omega
    | cons next lines =>
      have hlines : (line :: next :: lines).flatten = line ++ (next :: lines).flatten := List.flatten_cons
      show (Ninja.indentation lead ++ line ++ Ninja.continuation ++ "\n" ++
        joinLines nextLead nextLead (next :: lines)).count c = _
      rw [List.count_append, List.count_append, List.count_append, List.count_append, hindentation, hfeed,
        hcontinuation, ih, hlines, List.count_append]
      omega

/-- Cuts cost no character but blanks, and add none but dollars, line feeds and blanks. -/
theorem count_layout (hc : IsWritten c) (depth : Nat) (s : Text) : (layout depth s).count c = s.count c := by
  rw [layout, count_joinLines hc, ← count_joinWith hc, Ninja.joinWith_contents]

theorem count_text_ruleStatements (hc : IsWritten c) (name : Text) (values : List Text) (rule : Ninja.Rule) :
    (File.text (ruleStatements name values rule)).count c =
      (File.text (ruleStatements name [] rule)).count c + values.flatten.count c := by
  have hflags (values : List Text) : (Statement.flags name values).text.count c =
      (name ++ " = " : Text).count c + values.flatten.count c := by
    show (layout 0 _).count c = _
    rw [count_layout hc, List.count_append, count_joinWith hc, Text.flatten_nonEmpty]
  unfold ruleStatements File.text
  simp only [List.flatMap_cons, List.count_append, hflags]
  simp only [List.flatten_nil, List.count_nil]
  omega

/-- The flags of the compilers that a project needs. -/
def ResolvedFlags.forCompilers (flags : ResolvedFlags) (p : Project) : List Text :=
  flags.c ++ if p.isCpp then flags.cpp.getD [] else []

theorem count_text_preamble (hc : IsWritten c) (p : Project) (flags : ResolvedFlags) (programs : Executables)
    (outdir : Text) : (File.text (preamble p flags programs outdir)).count c =
      (File.text (preamble p { c := [], cpp := none, final := flags.final } programs outdir)).count c +
        (flags.forCompilers p).flatten.count c := by
  unfold preamble ResolvedFlags.forCompilers
  rw [File.text_append, File.text_append, File.text_append, File.text_append]
  simp only [File.text_append, List.count_append, List.flatten_append]
  rw [count_text_ruleStatements hc "ccflags" flags.c]
  cases p.isCpp with
  | false =>
    simp only [Bool.false_eq_true, if_false, List.flatten_nil, List.count_nil]
    omega
  | true =>
    simp only [if_true]
    rw [count_text_ruleStatements hc "cxxflags" (flags.cpp.getD [])]
    simp only [Option.getD_none]
    omega

/-- The characters of a graph are those of the graph that has no flags for the compilers, and those of such flags. -/
theorem exists_count_text_graph (h : p.graph flags programs outdir = .ok f) :
    ∃ bare, p.graph { c := [], cpp := none, final := flags.final } programs outdir = .ok bare ∧
      ∀ c, IsWritten c → f.text.count c = bare.text.count c + (flags.forCompilers p).flatten.count c := by
  obtain ⟨hp, rfl⟩ := graph_eq_ok_iff.1 h
  refine ⟨_, graph_eq_ok_iff.2 ⟨hp, rfl⟩, fun c hc => ?_⟩
  have hlast : p.lastStatements { c := [], cpp := none, final := flags.final } outdir p.listedObjects =
      p.lastStatements flags outdir p.listedObjects := rfl
  rw [hlast]
  simp only [File.text_append, List.count_append]
  rw [count_text_preamble hc]
  omega

end Graph

end CprojNinja
