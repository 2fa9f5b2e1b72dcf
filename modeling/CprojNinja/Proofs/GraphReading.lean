import CprojNinja.Proofs.EdgeReading
import CprojNinja.Proofs.GraphStructure

/-!
# Reading build graphs

Every edge of a build graph is read back from its text, if the names in the project hold no character that ninja reads
in a way of its own. Blanks and colons are no such characters, because they are escaped, and the dollar of the two
directories is one sign with the letter behind it.
-/

namespace CprojNinja

open Ninja

/-- A name without the characters that ninja reads in a way of its own even where they are escaped like a path. -/
def IsPlain (name : Text) : Prop := ∀ c ∈ name, c ≠ '$' ∧ c ≠ '|' ∧ c ≠ '\r' ∧ c ≠ '\n'

instance (name : Text) : Decidable (IsPlain name) := List.decidableBAll _ name

theorem isPlain_append {s t : Text} : IsPlain (s ++ t) ↔ IsPlain s ∧ IsPlain t := List.forall_mem_append

/-! ## Words of plain names -/

/-- How a character of a plain name is read in its word. -/
def escapedSign (c : Char) : Sign := if c = ' ' ∨ c = ':' then .escaped c else .plain c

theorem meaning_escapedSigns (name : Text) : meaning (name.map escapedSign) = name := by
  have hsingle (c : Char) : (escapedSign c).meaning = [c] := by
    unfold escapedSign
    split
    · next hescaped => rw [Sign.meaning, if_pos hescaped]
    · rfl
  unfold meaning
  rw [List.flatMap_map, List.flatMap_congr fun c _ => hsingle c]
  exact List.flatMap_singleton' name

theorem escape_cons {c : Char} (hc : c ≠ '$') (s : Text) :
    escape (c :: s) = (if c = ' ' ∨ c = ':' then ['$', c] else [c]) ++ escape s := by
  by_cases hblank : c = ' '
  · rw [hblank]
    rfl
  · by_cases hcolon : c = ':'
    · rw [hcolon]
      rfl
    · rw [if_neg (not_or.2 ⟨hblank, hcolon⟩), escape]
      · rfl
      all_goals simp [hc, hblank, hcolon]

/-- The word of a plain name has one sign for each character. -/
theorem signs_escape {name : Text} (hname : IsPlain name) :
    IsWhole (escape name) ∧ signs (escape name) = name.map escapedSign := by
  induction name with
  | nil => exact ⟨rfl, rfl⟩
  | cons c name ih =>
    obtain ⟨⟨hc, -⟩, hrest⟩ := List.forall_mem_cons.1 hname
    obtain ⟨hwhole, hsigns⟩ := ih hrest
    rw [escape_cons hc]
    by_cases hescaped : c = ' ' ∨ c = ':'
    · have hpair : IsWhole ['$', c] := by rcases hescaped with rfl | rfl <;> rfl
      rw [if_pos hescaped, signs_append hpair, hsigns]
      refine ⟨isWhole_append hpair hwhole, ?_⟩
      simp [escapedSign, hescaped, signs, signsAfter]
    · have hsingle := isWhole_of_not_mem (s := [c]) (by simp [Ne.symm hc])
      rw [if_neg hescaped, signs_append hsingle.1, hsingle.2, hsigns]
      refine ⟨isWhole_append hsingle.1 hwhole, ?_⟩
      simp [escapedSign, hescaped]

/-- The word of a plain name in one of the two directories is read as the path. -/
theorem reads_placed {start name : Text} (hstart : start = "$builddir/" ∨ start = "$src/") (hname : IsPlain name) :
    Reads (escape (start ++ name)) (start ++ name) ∧ signs (escape (start ++ name)) ≠ bar := by
  obtain ⟨hwhole, hsigns⟩ := signs_escape hname
  have hstartReads : Reads start start := by
    rcases hstart with rfl | rfl <;>
      exact ⟨rfl, ⟨by decide, by decide, by decide, by decide⟩, by decide, rfl⟩
  have hescape : escape (start ++ name) = start ++ escape name := by
    rcases hstart with rfl | rfl <;> simp [escape]
  have hpath : signs (escape (start ++ name)) = signs start ++ name.map escapedSign := by
    rw [hescape, signs_append hstartReads.whole, hsigns]
  -- a character of the name is read as a sign that ends nothing
  have hinner {g : Sign} (hstart : g ∉ signs start) (hg : g ∈ [.blank, colon, .plain '\n', .escaped '\n']) :
      g ∉ signs (escape (start ++ name)) := by
    rw [hpath, List.mem_append, not_or]
    refine ⟨hstart, fun hmem => ?_⟩
    obtain ⟨c, hc, rfl⟩ := List.mem_map.1 hmem
    have hfeed := (hname c hc).2.2.2
    unfold escapedSign at hg
    split at hg
    · next hescaped => rcases hescaped with rfl | rfl <;> exact absurd hg (by decide)
    · next hescaped => simp_all [Sign.blank, colon]
  have hword := hstartReads.isWord
  refine ⟨⟨?_, ⟨?_, hinner hword.blank_not_mem (by decide), hinner hword.feed_not_mem (by decide),
    hinner hword.escapedFeed_not_mem (by decide)⟩, hinner hstartReads.colon_not_mem (by decide), ?_⟩, ?_⟩
  · rw [hescape]
    exact isWhole_append hstartReads.whole hwhole
  · rw [hpath]
    exact List.append_ne_nil_of_left_ne_nil hword.ne_nil _
  · rw [hpath, meaning, List.flatMap_append]
    exact congrArg₂ _ hstartReads.meaning_eq (meaning_escapedSigns name)
  · have hlength : 1 < (signs start).length := by
      rcases hstart with rfl | rfl <;> decide
    intro hbar
    rw [hpath] at hbar
    have := congrArg List.length hbar
    simp only [bar, List.length_append, List.length_singleton] at this
    omega

/-! ## Paths of a graph -/

/-- A path of one of the two directories of a build, with a plain name in it. -/
def IsPlaced (path : Path) : Prop :=
  ∃ start name : Text, (start = "$builddir/" ∨ start = "$src/") ∧ IsPlain name ∧ path = start ++ name

theorem isPlaced_builtPath {path : Path} (h : IsPlain path) : IsPlaced (builtPath path) :=
  ⟨_, path, Or.inl rfl, h, rfl⟩

theorem isPlaced_sourcePath {path : Path} (h : IsPlain path) : IsPlaced (sourcePath path) :=
  ⟨_, path, Or.inr rfl, h, rfl⟩

theorem isPlaced_siblingPath {path : Path} (h : IsPlain path) : IsPlaced (siblingPath path) := by
  have hstart : ("$builddir/../" : Text) = "$builddir/" ++ "../" := by decide
  have hname : IsPlain ("../" ++ path) := isPlain_append.2 ⟨by decide, h⟩
  refine ⟨"$builddir/", "../" ++ path, Or.inl rfl, hname, ?_⟩
  unfold siblingPath
  rw [hstart]
  exact List.append_assoc _ _ _

/-- The names from which the paths of a build graph are made are plain. -/
structure HasPlainNames (p : Project) (flags : ResolvedFlags) (outdir : Text) : Prop where
  /-- The listed files. -/
  sources : ∀ file ∈ p.sources, IsPlain file
  /-- The directories and names of the referenced libraries. -/
  references : ∀ r ∈ p.references, IsPlain r.directory ∧ IsPlain r.name
  /-- The output, with its extension. -/
  output : IsPlain p.output
  /-- The linker script of a program, if it has one. -/
  script : p.isArchive = false → ∀ script, linkerScript? flags.final = some script → IsPlain script
  /-- The name of the build directory. -/
  outdir : IsPlain outdir

variable {p : Project} {flags : ResolvedFlags} {programs : Executables} {outdir : Text} {f : File}

/-- The object file of a plain name has a plain name. -/
theorem isPlaced_objectPath {file : Path} (h : IsPlain file) : IsPlaced (objectPath file) := by
  have hstem : IsPlain (Path.splitExtension file).1 := by
    rw [← Path.splitExtension_append file] at h
    exact (isPlain_append.1 h).1
  refine isPlaced_builtPath (isPlain_append.2 ⟨fun c hc => hstem c ?_, by decide⟩)
  exact (Path.dropParents_suffix _).subset hc

theorem isPlaced_archivePath {r : Reference} (hr : IsPlain r.directory ∧ IsPlain r.name) (houtdir : IsPlain outdir) :
    IsPlaced (siblingPath (r.archivePath outdir)) := by
  refine isPlaced_siblingPath ?_
  unfold Reference.archivePath Reference.buildDirectory Reference.fileName Reference.libraryName
  simp only [isPlain_append]
  exact ⟨⟨⟨⟨hr.1, by decide⟩, houtdir⟩, by decide⟩, ⟨by decide, hr.2⟩, by decide⟩

/-- The edge of a plain file is legible. -/
theorem isLegible_of_placed {e : Edge} (hrule : e.rule ∈ (["cc", "cxx", "ar", "link"] : List Text))
    (hpaths : ∀ path ∈ e.outputs ++ e.inputs ++ e.implicit, IsPlaced path) : e.IsLegible where
  rule := by
    have hreads : ∀ rule ∈ (["cc", "cxx", "ar", "link"] : List Text), Reads rule rule := by
      intro rule hrule
      simp only [List.mem_cons, List.not_mem_nil, or_false] at hrule
      rcases hrule with rfl | rfl | rfl | rfl <;>
        exact ⟨rfl, ⟨by decide, by decide, by decide, by decide⟩, by decide, rfl⟩
    exact hreads _ hrule
  paths := by
    intro path hpath
    obtain ⟨start, name, hstart, hname, rfl⟩ := hpaths path hpath
    exact reads_placed hstart hname

/-- The edge that a plain file asks for is legible. -/
theorem isLegible_listedEdge {file : Path} {e : Edge} (h : listedEdge? file = some e) (hfile : IsPlain file) :
    e.IsLegible := by
  rw [listedEdge?_eq] at h
  obtain ⟨language, -, rfl⟩ := Option.map_eq_some_iff.1 h
  refine isLegible_of_placed (by cases language <;> simp [compileEdge, Language.ruleName]) fun path hpath => ?_
  simp only [compileEdge, List.append_nil, List.singleton_append, List.mem_cons, List.not_mem_nil, or_false] at hpath
  rcases hpath with rfl | rfl
  · exact isPlaced_objectPath hfile
  · exact isPlaced_sourcePath hfile

/-- The last edge of plain names is legible. -/
theorem isLegible_lastEdge (hnames : HasPlainNames p flags outdir) :
    (p.lastEdge flags outdir p.listedObjects).IsLegible := by
  have hobjects : ∀ object ∈ p.listedObjects, IsPlaced object := by
    intro object hobject
    obtain ⟨e, he, hobject⟩ := List.mem_flatMap.1 hobject
    obtain ⟨file, hfile, hlisted⟩ := List.mem_filterMap.1 he
    rw [outputs_of_listedEdge? hlisted, List.mem_singleton, ← objectPath_eq] at hobject
    rw [hobject]
    exact isPlaced_objectPath (hnames.sources file hfile)
  have himplicit : ∀ path ∈ (p.lastEdge flags outdir p.listedObjects).implicit, IsPlaced path := by
    intro path hpath
    unfold Project.lastEdge at hpath
    split at hpath
    · cases hpath
    · next hprogram =>
      rcases List.mem_append.1 hpath with hpath | hpath
      · obtain ⟨script, hscript, rfl⟩ := by simpa using hpath
        exact isPlaced_sourcePath (hnames.script (by simpa using hprogram) script hscript)
      · obtain ⟨r, hr, rfl⟩ := List.mem_map.1 hpath
        exact isPlaced_archivePath (hnames.references r hr) hnames.outdir
  refine isLegible_of_placed ?_ fun path hpath => ?_
  · rw [rule_lastEdge]
    rcases lastRuleName_cases p with ⟨hname, -⟩ | ⟨hname, -⟩ <;> rw [hname] <;> decide
  · rw [outputs_lastEdge, inputs_lastEdge, List.mem_append, List.mem_append, List.mem_singleton] at hpath
    rcases hpath with (rfl | hpath) | hpath
    · exact isPlaced_builtPath hnames.output
    · exact hobjects path hpath
    · exact himplicit path hpath

/-- Each edge of a graph of plain names is legible. -/
theorem isLegible_of_mem_edges (h : p.graph flags programs outdir = .ok f) (hnames : HasPlainNames p flags outdir)
    {e : Edge} (he : e ∈ f.edges) : e.IsLegible := by
  rw [edges_graph h] at he
  rcases List.mem_append.1 he with he | he
  · obtain ⟨file, hfile, hlisted⟩ := List.mem_filterMap.1 he
    exact isLegible_listedEdge hlisted (hnames.sources file hfile)
  · split at he
    · cases he
    · rw [List.mem_singleton.1 he]
      exact isLegible_lastEdge hnames

/-- Build statements survive being written and read: if the names of a project are plain, the text of every edge of its
graph is read as that edge, with its outputs, its rule, its inputs and its implicit dependencies in order. -/
theorem readEdge?_graph (h : p.graph flags programs outdir = .ok f) (hnames : HasPlainNames p flags outdir) :
    ∀ e ∈ f.edges, readEdge? (Statement.edge e).text = some e :=
  fun _ he => readEdge?_text (isLegible_of_mem_edges h hnames he)

/-- A program whose names have blanks and colons, and whose last edge is too long for one line. -/
theorem readEdge?_graph_program :
    let p : Project := {
      language := .cpp, outputKind := .executable, outputName := "C: rover", outputExtension := ".elf"
      toolchain := ⟨[], [], []⟩, references := [⟨"../mission  control", "Centre", by decide⟩]
      sources := ["src/a rather long name of a source file.cpp", "notes: none", "../common/ util of all projects.c"]
      configurations := [] }
    let flags : ResolvedFlags := ⟨["-O0"], some ["-O2"], ["-T../flash.ld"]⟩
    ∃ f, p.graph flags ⟨"gcc", "g++", "ar", "g++"⟩ "Debug build" = .ok f ∧ f.edges.length = 3 ∧
      HasPlainNames p flags "Debug build" ∧
      ∀ e ∈ f.edges, readEdge? (Statement.edge e).text = some e := by
  intro p flags
  have hp : Harmless p.language p.sources :=
    eachAfter_cons.2 ⟨by decide, eachAfter_cons.2 ⟨by decide, eachAfter_cons.2 ⟨by decide, eachAfter_nil⟩⟩⟩
  have h : p.graph flags ⟨"gcc", "g++", "ar", "g++"⟩ "Debug build" = .ok _ := graph_eq_ok_iff.2 ⟨hp, rfl⟩
  have hscript : linkerScript? flags.final = some "flash.ld" := by decide
  have hnames : HasPlainNames p flags "Debug build" := {
    sources := by decide
    references := by decide
    output := by decide
    script := fun _ script hs => by
      rw [← Option.some.inj (hscript.symm.trans hs)]
      decide
    outdir := by decide }
  refine ⟨_, h, ?_, hnames, readEdge?_graph h hnames⟩
  rw [edges_graph h]
  decide

end CprojNinja
