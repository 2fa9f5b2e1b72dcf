import CprojNinja.Proofs.Documents
import CprojNinja.Proofs.LinkFlags

/-!
# Referenced libraries

A library that a project refers to turns up in four places of its build: in the flag that names all libraries, in a flag
with a directory to search, in a comment, and among the dependencies of the link edge. The four are put together apart
from each other, from a directory and a name that the document gives in one path.

Main statement: they agree, in what they say of a library and in the order of the libraries. A document with a decorated
name does not get that far.
-/

namespace CprojNinja

open Ninja (Edge File)
open Xml (Node)

/-! ## Bare names -/

theorem Text.withoutStart_of_not_startsWith {start s : Text} (h : Text.startsWith start s = false) :
    Text.withoutStart start s = s := by
  unfold Text.withoutStart
  cases hrest : Text.dropStart? start s with
  | none => rfl
  | some rest =>
    have hstart : Text.startsWith start s = true := Text.startsWith_iff.2 ⟨rest, (Text.dropStart?_eq_some.1 hrest).symm⟩
    exact absurd hstart (by simp [h])

theorem Text.withoutEnd_of_not_endsWith {ending s : Text} (h : Text.endsWith ending s = false) :
    Text.withoutEnd ending s = s := by
  unfold Text.withoutEnd Text.dropEnd?
  cases hrest : Text.dropStart? ending.reverse s.reverse with
  | none => rfl
  | some rest =>
    have hs : s = rest.reverse ++ ending := by simpa using congrArg List.reverse (Text.dropStart?_eq_some.1 hrest)
    have hend : Text.endsWith ending s = true := Text.endsWith_iff.2 ⟨rest.reverse, hs.symm⟩
    exact absurd hend (by simp [h])

/-- A name without decorations has none to lose. -/
theorem bareName_of_isBare {name : Text} (h : IsBare name) : bareName name = name := by
  unfold bareName
  rw [Text.withoutStart_of_not_startsWith h.1, Text.withoutEnd_of_not_endsWith h.2]

namespace Project

/-! ## References of a document -/

/-- The directory and the name to which a path refers. -/
def referenceParts (path : Path) : Path × Text :=
  ((Path.splitBase path).1, (Path.splitExtension (Path.splitBase path).2).1)

/-- The directory and the name to which an item refers, if it includes something. -/
def referenceOfItem? (item : Node) : Option (Path × Text) :=
  (item.attribute? "Include").map fun path => referenceParts (Path.forwardSlashes path)

/-- The directories and names to which a document refers, group by group. -/
def listedReferences (root : Node) : List (Path × Text) :=
  ((root.allNamed "ItemGroup").flatMap (Node.childrenNamed "ProjectReference")).filterMap referenceOfItem?

variable {output : Text} {root : Node} {p : Project}

theorem listedReferences_eq (root : Node) :
    listedReferences root = (includedPaths root "ProjectReference").map referenceParts := by
  unfold listedReferences includedPaths
  rw [List.map_map, List.map_filterMap]
  rfl

theorem referenceOfPath_eq (path : Path) : referenceOfPath path =
    match Reference.ofName? (referenceParts path).1 (referenceParts path).2 with
    | some reference => .ok reference
    | none => .error (.decoratedLibrary (referenceParts path).2) := rfl

theorem referenceOfPath_of_isBare {path : Path} (h : IsBare (referenceParts path).2) :
    referenceOfPath path = .ok ⟨(referenceParts path).1, (referenceParts path).2, h⟩ := by
  rw [referenceOfPath_eq, Reference.ofName?, dif_pos h]

theorem referenceOfPath_of_not_isBare {path : Path} (h : ¬ IsBare (referenceParts path).2) :
    referenceOfPath path = .error (.decoratedLibrary (referenceParts path).2) := by
  rw [referenceOfPath_eq, Reference.ofName?_eq_none_iff.2 h]

/-- The references of a project are those that its document lists. -/
theorem references_of_ofDocument (h : ofDocument output root = .ok p) :
    p.references.map (fun r => (r.directory, r.name)) = listedReferences root := by
  obtain ⟨-, references, hreferences, rfl⟩ := ofDocument_eq_ok_iff.1 h
  rw [listedReferences_eq]
  refine map_of_mapM_eq_ok (fun path r hr => ?_) hreferences
  by_cases hbare : IsBare (referenceParts path).2
  · rw [referenceOfPath_of_isBare hbare] at hr
    cases hr
    rfl
  · rw [referenceOfPath_of_not_isBare hbare] at hr
    cases hr

/-- Bare names are accepted. -/
theorem exists_ofDocument_eq_ok (hidentity : HasIdentity root) (h : ∀ r ∈ listedReferences root, IsBare r.2)
    (output : Text) : ∃ p, ofDocument output root = .ok p := by
  rw [listedReferences_eq, List.forall_mem_map] at h
  obtain ⟨references, hreferences⟩ := exists_mapM_eq_ok fun path hpath => ⟨_, referenceOfPath_of_isBare (h path hpath)⟩
  exact ⟨_, ofDocument_eq_ok_iff.2 ⟨hidentity, references, hreferences, rfl⟩⟩

/-- The first decorated name is reported. -/
theorem ofDocument_of_first_decorated (hidentity : HasIdentity root) {before after : List (Path × Text)}
    {r : Path × Text} (hlisted : listedReferences root = before ++ r :: after)
    (hbefore : ∀ earlier ∈ before, IsBare earlier.2) (hr : ¬ IsBare r.2) (output : Text) :
    ofDocument output root = .error (.decoratedLibrary r.2) := by
  rw [listedReferences_eq] at hlisted
  obtain ⟨first, rest, hpaths, rfl, hrest⟩ := List.map_eq_append_iff.1 hlisted
  obtain ⟨path, last, rfl, rfl, rfl⟩ := List.map_eq_cons_iff.1 hrest
  have hfirst (earlier : Path) (hearlier : earlier ∈ first) : ∃ r, referenceOfPath earlier = .ok r :=
    ⟨_, referenceOfPath_of_isBare (hbefore _ (List.mem_map_of_mem hearlier))⟩
  rw [ofDocument_of_hasIdentity hidentity, hpaths,
    mapM_of_first_error hfirst (referenceOfPath_of_not_isBare hr)]
  rfl

/-- As long as no item group is part of another one, the references are listed in document order. -/
theorem listedReferences_of_groupsApart (h : root.GroupsApart) :
    listedReferences root = (root.itemsInOrder "ProjectReference" false).filterMap referenceOfItem? := by
  rw [Node.itemsInOrder_of_groupsApart "ProjectReference" h]
  rfl

end Project

/-! ## The four places -/

/-- The directory in which the referenced project of a directory is built, seen from the directory in which this one is
built. -/
def searchDirectory (outdir : Text) (directory : Path) : Path := "../" ++ directory ++ "/" ++ outdir

/-- What the flags and the graph of a program say of its references. -/
structure LinksAgainst (listed : List (Path × Text)) (p : Project) (c : Configuration) (caller : CallerFlags)
    (outdir : Text) (flags : ResolvedFlags) (f : File) : Prop where
  /-- One flag names all libraries, those of the project first. The directories stand behind the search paths of the
  project. -/
  final_eq : flags.final = caller.flags ++
    pageFlags (linkerPage p.language) (entriesBeforeLibraries p.outputName) c ++
    ["-Wl,--start-group" ++ (c.values (linkerPage p.language ++ "libraries.Libraries")).flatMap libraryFlag ++
      listed.flatMap (fun r => (" -l" ++ r.2 : Text)) ++ " -Wl,--end-group"] ++
    pageFlags (linkerPage p.language) searchPathEntries c ++
    listed.map (fun r => ("-L\"" ++ searchDirectory outdir r.1 ++ "\"" : Text)) ++
    pageFlags (linkerPage p.language) entriesAfterLibraries c
  /-- The comments tell where the build files are. -/
  comments_eq : f.comments = listed.map fun r =>
    ("subninja $builddir/" ++ searchDirectory outdir r.1 ++ "/build.ninja" : Text)
  /-- The one link edge depends on the archives, after the linker script. -/
  implicit_eq : ∃ last, f.linkEdges = [last] ∧ last.implicit =
    ((linkerScript? flags.final).map sourcePath).toList ++ listed.map fun r =>
      ("$builddir/" ++ searchDirectory outdir r.1 ++ "/lib" ++ r.2 ++ ".a" : Path)

section Places

variable (references : List Reference) (outdir : Text)

/-- The referenced libraries stand in the group of libraries under their own names. -/
theorem libraryGroup_append (declared : List Text) : libraryGroup (declared ++ references.map (·.name)) =
    "-Wl,--start-group" ++ declared.flatMap libraryFlag ++
      (references.map fun r => (r.directory, r.name)).flatMap (fun r => (" -l" ++ r.2 : Text)) ++
      " -Wl,--end-group" := by
  have hreferences : (references.map (·.name)).flatMap libraryFlag =
      (references.map fun r => (r.directory, r.name)).flatMap (fun r => (" -l" ++ r.2 : Text)) := by
    rw [List.flatMap_map, List.flatMap_map]
    refine List.flatMap_congr fun r _ => ?_
    rw [libraryFlag, bareName_of_isBare r.bare]
  unfold libraryGroup
  rw [List.flatMap_append, hreferences, List.append_assoc _ (declared.flatMap libraryFlag)]

theorem map_referenceSearchFlag : references.map (referenceSearchFlag outdir) =
    (references.map fun r => (r.directory, r.name)).map fun r =>
      ("-L\"" ++ searchDirectory outdir r.1 ++ "\"" : Text) := by
  rw [List.map_map]
  refine List.map_congr_left fun r _ => ?_
  unfold referenceSearchFlag Reference.buildDirectory searchDirectory
  simp

theorem map_comment : (references.map fun r =>
    ("subninja " ++ siblingPath (r.buildDirectory outdir ++ "/" ++ buildFileName) : Text)) =
    (references.map fun r => (r.directory, r.name)).map fun r =>
      ("subninja $builddir/" ++ searchDirectory outdir r.1 ++ "/build.ninja" : Text) := by
  rw [List.map_map]
  refine List.map_congr_left fun r _ => ?_
  unfold siblingPath Reference.buildDirectory searchDirectory buildFileName
  simp

theorem map_archivePath : (references.map fun r => siblingPath (r.archivePath outdir)) =
    (references.map fun r => (r.directory, r.name)).map fun r =>
      ("$builddir/" ++ searchDirectory outdir r.1 ++ "/lib" ++ r.2 ++ ".a" : Path) := by
  rw [List.map_map]
  refine List.map_congr_left fun r _ => ?_
  rw [siblingPath_archivePath]
  unfold searchDirectory
  simp

end Places

variable {p : Project} {c : Configuration} {caller : CallerFlags} {flags : ResolvedFlags} {programs : Executables}
  {outdir : Text} {f : File}

/-- A program is linked against the libraries that its project refers to. -/
theorem linksAgainst_references (hselected : p.selected = some c) (hprogram : p.isArchive = false)
    (hflags : p.resolveFlags caller outdir = .ok flags) (hgraph : p.graph flags programs outdir = .ok f)
    (hcompiled : f.compileEdges ≠ []) :
    LinksAgainst (p.references.map fun r => (r.directory, r.name)) p c caller outdir flags f where
  final_eq := by
    rw [final_of_resolveFlags hselected hprogram hflags, linkerFlags_eq, libraryGroup_append, map_referenceSearchFlag]
    simp only [List.append_assoc]
  comments_eq := by
    rw [comments_graph hgraph, map_comment]
  implicit_eq := by
    refine ⟨_, linkEdges_graph hgraph hprogram hcompiled, ?_⟩
    rw [implicit_lastEdge hprogram, Project.linkDependencies, map_archivePath]

/-- The four places agree on the references that the document lists. A document is accepted if all of their names are
bare, and otherwise the first name that is not is reported. They are listed group by group, which is document order
unless an item group is part of another one. -/
theorem linksAgainst_listedReferences (output : Text) (root : Node) :
    (Project.HasIdentity root →
      ((∀ r ∈ Project.listedReferences root, IsBare r.2) → ∃ p, Project.ofDocument output root = .ok p) ∧
      ∀ before r after, Project.listedReferences root = before ++ r :: after →
        (∀ earlier ∈ before, IsBare earlier.2) → ¬ IsBare r.2 →
        Project.ofDocument output root = .error (.decoratedLibrary r.2)) ∧
    (root.GroupsApart → Project.listedReferences root =
      (root.itemsInOrder "ProjectReference" false).filterMap Project.referenceOfItem?) ∧
    ∀ p name c caller outdir flags programs f, Project.ofDocument output root = .ok p → p.isArchive = false →
      (p.select name).selected = some c → (p.select name).resolveFlags caller outdir = .ok flags →
      (p.select name).graph flags programs outdir = .ok f → f.compileEdges ≠ [] →
      LinksAgainst (Project.listedReferences root) (p.select name) c caller outdir flags f := by
  refine ⟨fun hidentity => ⟨fun hbare => ?_, fun before r after hlisted hbefore hr => ?_⟩, fun hgroups => ?_, ?_⟩
  · exact Project.exists_ofDocument_eq_ok hidentity hbare output
  · exact Project.ofDocument_of_first_decorated hidentity hlisted hbefore hr output
  · exact Project.listedReferences_of_groupsApart hgroups
  · intro p name c caller outdir flags programs f hp hprogram hselected hflags hgraph hcompiled
    rw [← Project.references_of_ofDocument hp]
    exact linksAgainst_references hselected hprogram hflags hgraph hcompiled

/-- Names with `lib` and a dot inside, and a reference to a project in the same directory. -/
theorem linksAgainst_listedReferences_program :
    let root : Node := .programDocument [
      .item "ProjectReference" "..\\Calibration\\Calibration.cproj", .item "Compile" "main.c",
      .item "ProjectReference" "Centre.v2.cproj"]
    ∃ p c flags f, Project.ofDocument "rover" root = .ok p ∧
      Project.listedReferences root = ([("../Calibration", "Calibration"), ([], "Centre.v2")] : List (Path × Text)) ∧
      f.compileEdges ≠ [] ∧ LinksAgainst (Project.listedReferences root) (p.select "Debug") c {} "Debug" flags f := by
  intro root
  have hlisted : Project.listedReferences root =
      ([("../Calibration", "Calibration"), ([], "Centre.v2")] : List (Path × Text)) := by decide
  have hbare : ∀ r ∈ Project.listedReferences root, IsBare r.2 := by
    rw [hlisted]
    decide
  obtain ⟨p, hp⟩ := ((linksAgainst_listedReferences "rover" root).1 (Project.hasIdentity_programDocument _)).1 hbare
  obtain ⟨hselected, hprogram, flags, f, hflags, hgraph, hcompiled⟩ := exists_graph_programDocument hp (by decide)
  exact ⟨p, _, flags, f, hp, hlisted, hcompiled, (linksAgainst_listedReferences "rover" root).2.2 p "Debug" _ _ _ _ _ _
    hp hprogram hselected hflags hgraph hcompiled⟩

/-- A group inside a group comes after all of the group around it. -/
theorem not_linksAgainst_itemsInOrder :
    let root : Node := .programDocument [
      .item "Compile" "main.c", .item "ProjectReference" "../Arm/Arm.cproj",
      .element "ItemGroup" [] [.item "ProjectReference" "../Laser/Laser.cproj"],
      .item "ProjectReference" "../Wheel/Wheel.cproj"]
    ∃ p c flags f, Project.ofDocument "rover" root = .ok p ∧ p.isArchive = false ∧
      (p.select "Debug").selected = some c ∧ (p.select "Debug").resolveFlags {} "Debug" = .ok flags ∧
      (p.select "Debug").graph flags ⟨"gcc", "g++", "ar", "gcc"⟩ "Debug" = .ok f ∧ f.compileEdges ≠ [] ∧
      ¬ LinksAgainst ((root.itemsInOrder "ProjectReference" false).filterMap Project.referenceOfItem?)
        (p.select "Debug") c {} "Debug" flags f := by
  intro root
  have hidentity : Project.HasIdentity root := Project.hasIdentity_programDocument _
  obtain ⟨p, hp⟩ := Project.exists_ofDocument_eq_ok hidentity (by decide) "rover"
  obtain ⟨hselected, hprogram, flags, f, hflags, hgraph, hcompiled⟩ := exists_graph_programDocument hp (by decide)
  refine ⟨p, _, flags, f, hp, hprogram, hselected, hflags, hgraph, hcompiled, fun hordered => ?_⟩
  have hgrouped : f.comments = (p.references.map fun r => (r.directory, r.name)).map _ :=
    (linksAgainst_references hselected hprogram hflags hgraph hcompiled).comments_eq
  rw [Project.references_of_ofDocument hp] at hgrouped
  exact absurd (hgrouped.symm.trans hordered.comments_eq) (by decide)

end CprojNinja
