import CprojNinja.Proofs.GraphStructure
import CprojNinja.Proofs.Positions

/-!
# Files that a build makes

No path is an output of two sources, but two paths may name one file: nothing is normalised, so `a.c` and `./a.c` are
different sources with one object file. And the output of a project is not compared with its object files at all.

Main statement: apart from the output of the project, outputs in normal form are different files. If the output is in
turn the path of an object file, that file is made twice.
-/

namespace CprojNinja

open Ninja

/-- A path in the build directory with names alone for its components. -/
def IsNormal (path : Path) : Prop :=
  ∃ name, path = builtPath name ∧ Text.occursIn buildVariable name = false ∧ ∀ c ∈ Text.splitOn '/' name, IsName c

theorem positionOf_of_isName {name : Path} (hvariable : Text.occursIn buildVariable name = false)
    (hnames : ∀ c ∈ Text.splitOn '/' name, IsName c) :
    positionOf (builtPath name) = ⟨0, (Text.splitOn '/' name).reverse⟩ := by
  have hsteps : Path.steps name = Text.splitOn '/' name := by
    unfold Path.steps
    rw [Text.replaceAll_of_not_occursIn _ hvariable]
  rw [positionOf_builtPath, positionOf, hsteps, Position.walk_of_isName _ hnames]
  exact congrArg (Position.mk 0) (List.append_nil _)

theorem eq_of_positionOf_eq {first second : Path} (hfirst : IsNormal first) (hsecond : IsNormal second)
    (h : positionOf first = positionOf second) : first = second := by
  obtain ⟨name, rfl, hvariable, hnames⟩ := hfirst
  obtain ⟨other, rfl, hvariable', hnames'⟩ := hsecond
  rw [positionOf_of_isName hvariable hnames, positionOf_of_isName hvariable' hnames'] at h
  have hpieces := List.reverse_injective (Position.mk.inj h).2
  rw [Text.splitOn_eq, Text.splitOn_eq] at hpieces
  have hnames := congrArg ['/'].intercalate hpieces
  rw [List.intercalate_splitOn, List.intercalate_splitOn] at hnames
  rw [hnames]

/-- Which files the edges of a graph make. -/
structure MakesFiles (p : Project) (f : File) : Prop where
  /-- Two normal outputs are one file only if both are the output of the project. -/
  normal : (f.edges.flatMap (·.outputs)).Pairwise fun first second =>
    IsNormal first → IsNormal second → positionOf first = positionOf second → first = p.target ∧ second = p.target
  /-- If the output of the project is an object file, that file is made twice. -/
  target : p.target ∈ f.compileEdges.flatMap (·.outputs) → ¬ ((f.edges.flatMap (·.outputs)).map positionOf).Nodup

variable {p : Project} {flags : ResolvedFlags} {programs : Executables} {outdir : Text} {f : File}

/-- The outputs of a graph: the object files, and the output of the project if there are any. -/
theorem outputs_graph (h : p.graph flags programs outdir = .ok f) :
    f.edges.flatMap (·.outputs) = p.listedObjects ++ if p.listedEdges = [] then [] else [p.target] := by
  rw [edges_graph h, List.flatMap_append]
  split
  · rfl
  · rw [List.flatMap_singleton, outputs_lastEdge]
    rfl

/-- No file is made twice, unless a path is not in normal form or the output of the project is an object file. -/
theorem makesFiles_graph (h : p.graph flags programs outdir = .ok f) : MakesFiles p f where
  normal := by
    rw [outputs_graph h, List.pairwise_append]
    refine ⟨?_, ?_, ?_⟩
    · refine (nodup_outputs_of_harmless (graph_eq_ok_iff.1 h).1).imp fun hne hfirst hsecond hsame => ?_
      exact absurd (eq_of_positionOf_eq hfirst hsecond hsame) hne
    · split
      · exact List.Pairwise.nil
      · exact List.pairwise_singleton _ _
    · intro object _ target htarget hfirst hsecond hsame
      split at htarget
      · cases htarget
      · rw [List.mem_singleton.1 htarget] at hsecond hsame ⊢
        exact ⟨eq_of_positionOf_eq hfirst hsecond hsame, rfl⟩
  target := by
    intro hmem hnodup
    rw [compileEdges_graph h] at hmem
    have hlisted : p.listedEdges ≠ [] := by
      intro hnil
      rw [hnil] at hmem
      cases hmem
    rw [outputs_graph h, if_neg hlisted, List.map_append, List.nodup_append] at hnodup
    exact hnodup.2.2 _ (List.mem_map_of_mem hmem) _ (List.mem_map_of_mem (List.mem_singleton_self _)) rfl

/-- A library two of whose sources are one file in two spellings. -/
theorem makesFiles_graph_archive :
    let p : Project := {
      language := .c, outputKind := .archive, outputName := "libRover", outputExtension := ".a"
      toolchain := ⟨[], [], []⟩, references := [], sources := ["../common/laser.c", "common//laser.c", "drive.c"]
      configurations := [] }
    ∃ f, p.graph ⟨[], none, ["-r"]⟩ ⟨"gcc", "g++", "ar", "g++"⟩ "Debug" = .ok f ∧ MakesFiles p f ∧
      positionOf "$builddir/common/laser.o" = positionOf "$builddir/common//laser.o" := by
  intro p
  have hp : Harmless p.language p.sources :=
    eachAfter_cons.2 ⟨by decide, eachAfter_cons.2 ⟨by decide, eachAfter_cons.2 ⟨by decide, eachAfter_nil⟩⟩⟩
  have h : p.graph ⟨[], none, ["-r"]⟩ ⟨"gcc", "g++", "ar", "g++"⟩ "Debug" = .ok _ := graph_eq_ok_iff.2 ⟨hp, rfl⟩
  exact ⟨_, h, makesFiles_graph h, by decide⟩

/-- A file is made twice where a source is listed in two spellings, and where the output has the path of an object. -/
theorem not_nodup_outputs_graph :
    let project (outputName outputExtension : Text) (sources : List Path) : Project := {
      language := .c, outputKind := .archive, outputName, outputExtension, toolchain := ⟨[], [], []⟩
      references := [], sources, configurations := [] }
    [project "rover" ".a" ["a.c", "./a.c"], project "rover" ".a" ["a.c", "sub/../a.c"],
      project "rover" ".a" ["a.c", "/a.c"], project "main" ".o" ["main.c"]].Forall fun p =>
      ∃ f, p.graph ⟨[], none, ["-r"]⟩ ⟨"gcc", "g++", "ar", "g++"⟩ "Debug" = .ok f ∧
        ¬ ((f.edges.flatMap (·.outputs)).map positionOf).Nodup := by
  intro project
  refine ⟨?_, ?_, ?_, ?_⟩ <;> exact ⟨_, rfl, by decide⟩

end CprojNinja
