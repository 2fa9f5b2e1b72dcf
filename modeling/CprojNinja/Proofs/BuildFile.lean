import CprojNinja.Conversion
import CprojNinja.Proofs.DiskRuns

/-!
# Writing the build file

A conversion is all or nothing on files. Whatever goes wrong, be it in the project, on the way to the build directory or
in one of the operations that write, the files are what they were, apart from the temporary file; and if the conversion
succeeds, the build file holds the whole text of the graph, the temporary file is gone and no other file differs.

Before the first operation that writes, everything is decided by what was read, so nothing has changed yet. From then on
the disk goes through two changes: directories are made, and the build file is replaced by way of the temporary file.
Each is described by a relation on disks, and the two are composed.
-/

namespace CprojNinja

open Disk (Keeps Made Only Respects)

/-! ## Replacing a file -/

/-- The file through which another one is replaced. -/
def temporaryPath (path : Path) : Path := path ++ ".tmp"

/-- The build file of a directory and its temporary file never share a location. -/
theorem ne_of_locate {d : Disk} {dir : Path} {location temporary : Location}
    (hpath : d.locate (dir.join buildFileName) = .ok location)
    (htemporary : d.locate (temporaryPath (dir.join buildFileName)) = .ok temporary) : location ≠ temporary := by
  have hjoin : temporaryPath (dir.join buildFileName) = dir.join (buildFileName ++ ".tmp") := by
    have hname : buildFileName.head? ≠ some '/' := by decide
    have htemporaryName : (buildFileName ++ ".tmp").head? ≠ some '/' := by decide
    unfold temporaryPath Path.join
    rw [if_neg hname, if_neg htemporaryName]
    split <;> simp only [List.append_assoc]
  rw [hjoin] at htemporary
  have hlast := Disk.getLast?_of_locate (by decide) (by decide) hpath
  have htemporaryLast := Disk.getLast?_of_locate (by decide) (by decide) htemporary
  rintro rfl
  rw [hlast] at htemporaryLast
  exact absurd htemporaryLast (by decide)

/-- A file holds a new text, its temporary file is gone, and nothing else has changed. -/
structure Replaced (path : Path) (text : Text) (before after : Disk) : Prop where
  /-- Directories stay where they are. -/
  keeps : Keeps before after
  /-- The file holds the text. -/
  content : ∃ location, after.locate path = .ok location ∧ after.at? location = some (.file (.text text))
  /-- There is no temporary file. -/
  gone : ∃ location, after.locate (temporaryPath path) = .ok location ∧ after.at? location = none
  /-- Every other location holds what it held. -/
  other : ∀ location, after.locate path ≠ .ok location → after.locate (temporaryPath path) ≠ .ok location →
    after.at? location = before.at? location

/-- A text that is written to the temporary file and moved from there replaces the file. -/
theorem replaced_of_rename {before between after : Disk} {dir : Path} {text : Text}
    (hwrite : before.nextMishap.2.write (temporaryPath (dir.join buildFileName)) (.text text) = .ok between)
    (hrename : between.nextMishap.2.rename (temporaryPath (dir.join buildFileName)) (dir.join buildFileName) =
      .ok after) :
    Replaced (dir.join buildFileName) text before after := by
  obtain ⟨written, hlocate, hfree, rfl⟩ := Disk.write_eq_ok_iff.1 hwrite
  obtain ⟨old, new, content, hold, hnew, hat, hnewFree, rfl⟩ := Disk.rename_eq_ok_iff.1 hrename
  generalize hmiddle : (before.nextMishap.2.put written (.file (.text text))).nextMishap.2 = middle at *
  have hmiddleAt (location : Location) : middle.at? location =
      if location = written then some (.file (.text text)) else before.at? location := by
    rw [← hmiddle]
    exact Disk.at?_put (Disk.ne_nil_of_at? hfree)
  have hmiddleKeeps : Keeps before middle := by
    rw [← hmiddle]
    exact ⟨rfl, (Disk.keeps_put hfree _).directory⟩
  -- what is moved is what was written
  have hsame : old = written := Except.ok.inj (hold.symm.trans (hmiddleKeeps.locate hlocate))
  subst hsame
  have hcontent : content = .text text := by
    rw [hmiddleAt, if_pos rfl] at hat
    cases hat
    rfl
  subst hcontent
  have hdistinct : new ≠ old := ne_of_locate hnew hold
  have holdFree : middle.at? old ≠ some .directory := by simp [hat]
  have herasedFree : (middle.erase old).at? new ≠ some .directory := by
    rwa [Disk.at?_erase (Disk.ne_nil_of_at? holdFree), if_neg hdistinct]
  have hkeeps := (Disk.keeps_erase holdFree).trans (Disk.keeps_put herasedFree (.file (.text text)))
  have hafter (location : Location) : ((middle.erase old).put new (.file (.text text))).at? location =
      if location = new then some (.file (.text text))
      else if location = old then none else before.at? location := by
    rw [Disk.at?_put (Disk.ne_nil_of_at? herasedFree), Disk.at?_erase (Disk.ne_nil_of_at? holdFree), hmiddleAt]
    split
    · rfl
    · split <;> rfl
  refine ⟨hmiddleKeeps.trans hkeeps, ⟨new, hkeeps.locate hnew, ?_⟩, ⟨old, hkeeps.locate hold, ?_⟩, ?_⟩
  · rw [hafter, if_pos rfl]
  · rw [hafter, if_neg hdistinct.symm, if_pos rfl]
  · intro location hpath htemporary
    rw [hafter, if_neg, if_neg]
    · rintro rfl
      exact htemporary (hkeeps.locate hold)
    · rintro rfl
      exact hpath (hkeeps.locate hnew)

/-- A file is replaced, or that fails and at most the temporary file has changed. -/
theorem replaceText_cases {dir : Path} {text : Text} {before after : Disk} {result : Except Fault Unit}
    (h : FileSystem.replaceText (m := StateM Disk) (dir.join buildFileName) text before = (result, after)) :
    (result = .ok () ∧ Replaced (dir.join buildFileName) text before after) ∨
      ∃ fault, result = .error fault ∧ Only (temporaryPath (dir.join buildFileName)) before after := by
  have hremoved {d : Disk} {fault : Fault} (hd : Only (temporaryPath (dir.join buildFileName)) before d)
      (hrun : (do let _ ← FileSystem.remove (temporaryPath (dir.join buildFileName))
                  return .error fault : StateM Disk (Except Fault Unit)) d = (result, after)) :
      ∃ fault, result = .error fault ∧ Only (temporaryPath (dir.join buildFileName)) before after := by
    cases hrun
    exact ⟨fault, rfl, hd.trans (Disk.only_remove _ d)⟩
  rcases hwrite : FileSystem.writeText (m := StateM Disk) (temporaryPath (dir.join buildFileName)) text before with
    ⟨written, between⟩
  have hbetween : Only (temporaryPath (dir.join buildFileName)) before between := by
    have := Disk.only_writeText (temporaryPath (dir.join buildFileName)) text before
    rwa [hwrite] at this
  unfold FileSystem.replaceText at h
  simp only [bind, StateT.bind, ← temporaryPath.eq_1, hwrite] at h
  cases written with
  | error fault => exact Or.inr (hremoved hbetween h)
  | ok done =>
    rcases hrename : FileSystem.rename (m := StateM Disk) (temporaryPath (dir.join buildFileName))
      (dir.join buildFileName) between with ⟨renamed, last⟩
    simp only [StateT.bind, hrename] at h
    have hwritten : before.nextMishap.2.write (temporaryPath (dir.join buildFileName)) (.text text) = .ok between := by
      rcases Disk.change_cases hwrite with ⟨-, hwritten⟩ | ⟨fault, hfault, -⟩
      · exact hwritten
      · cases hfault
    rcases Disk.change_cases hrename with ⟨rfl, hmoved⟩ | ⟨fault, rfl, hlast⟩
    · cases h
      exact Or.inl ⟨rfl, replaced_of_rename hwritten hmoved⟩
    · have hlast' : last = between.nextMishap.2 := by
        rcases hlast with hlast | ⟨-, hlast⟩
        · exact hlast
        · cases hlast
          rfl
      subst hlast'
      exact Or.inr (hremoved (hbetween.trans ((Disk.isFrame_only _).next between)) h)

/-! ## Conversions -/

namespace Disk

/-- What a file holds, if there is a file at a location. -/
def file? (d : Disk) (location : Location) : Option Content :=
  match d.at? location with
  | some (.file content) => some content
  | _ => none

end Disk

namespace Options

variable {o : Options} {settings : Settings} {before after : Disk}

/-- A ninja file is the build graph of the selected configuration of the project with a certain text. -/
def IsBuildGraph (o : Options) (settings : Settings) (source : Text) (f : Ninja.File) : Prop :=
  ∃ p flags toolchain, Project.read o.outputName source = .ok p ∧
    (p.select o.configurationName).selected.isSome ∧
    (p.select o.configurationName).resolveFlags o.caller o.buildDirectoryName = .ok flags ∧
    resolveToolchain (p.select o.configurationName) o.toolchain settings = .ok toolchain ∧
    (p.select o.configurationName).graph flags (toolchain.executables (p.select o.configurationName).isCpp)
      o.buildDirectoryName = .ok f

/-- The text of the build file is that of the build graph. -/
theorem buildText_eq_ok_iff {source text : Text} :
    o.buildText settings source = .ok text ↔ ∃ f, o.IsBuildGraph settings source f ∧ text = f.text := by
  unfold IsBuildGraph
  simp only [buildText_eq, buildGraph_eq, bind_eq_ok, mapError_eq_ok]
  constructor
  · rintro ⟨p, hread, f, hgraph, htext⟩
    cases htext
    split at hgraph
    · cases hgraph
    · next hselected =>
      obtain ⟨flags, hflags, toolchain, htoolchain, hgraph⟩ := by simpa only [bind_eq_ok, mapError_eq_ok] using hgraph
      refine ⟨f, ⟨p, flags, toolchain, hread, ?_, hflags, htoolchain, hgraph⟩, rfl⟩
      simpa using hselected
  · rintro ⟨f, ⟨p, flags, toolchain, hread, hselected, hflags, htoolchain, hgraph⟩, rfl⟩
    refine ⟨p, hread, f, ?_, rfl⟩
    rw [if_neg (by simpa using hselected)]
    simp only [bind_eq_ok, mapError_eq_ok]
    exact ⟨flags, hflags, toolchain, htoolchain, hgraph⟩

section Reading

variable {between : Disk}

theorem convert_of_unreadable {fault : Fault}
    (hread : FileSystem.readText (m := StateM Disk) o.project before = (.error fault, between)) :
    (o.convert settings : StateM Disk _) before = (.error (.load o.project (.unreadable fault)), between) := by
  unfold convert
  simp only [bind, StateT.bind, hread]
  rfl

theorem forM_warn (warnings : List Warning) (d : Disk) :
    (warnings.forM Console.warn : StateM Disk PUnit) d = ((), d) := by
  induction warnings with
  | nil => rfl
  | cons w warnings ih => exact ih

/-- What a conversion does once it has read the project file. -/
theorem convert_of_readable {source : Text}
    (hread : FileSystem.readText (m := StateM Disk) o.project before = (.ok source, between)) :
    (o.convert settings : StateM Disk _) before =
      match o.buildText settings source with
      | .error e => (.error e, between)
      | .ok text => (o.writeBuildFile text : StateM Disk _) between := by
  unfold convert buildText
  simp only [bind, StateT.bind, hread, forM_warn]
  cases (o.reportedText settings source).outcome <;> rfl

end Reading

/-- Writing the build file either fails, or it is replaced after its directory was made. -/
theorem writeBuildFile_cases {text : Text} {result : Except ConversionError Path}
    (h : (o.writeBuildFile text : StateM Disk _) before = (result, after)) :
    ∃ between, Made o.buildDirectory.ancestors before between ∧
      ((result = .ok o.buildFile ∧ Replaced o.buildFile text between after) ∨
        ∃ e, result = .error e ∧ e.violation? = none ∧ Only (temporaryPath o.buildFile) between after) := by
  rcases hmake : FileSystem.makeDirectories (m := StateM Disk) o.buildDirectory before with ⟨made, between⟩
  have hbetween : Made o.buildDirectory.ancestors before between := by
    have := Disk.made_nested o.buildDirectory.ancestors before
    rwa [← FileSystem.makeDirectories, hmake] at this
  refine ⟨between, hbetween, ?_⟩
  unfold writeBuildFile at h
  simp only [bind, StateT.bind, hmake] at h
  cases made with
  | error fault =>
    cases h
    exact Or.inr ⟨_, rfl, rfl, Only.refl _ _⟩
  | ok done =>
    rcases hreplace : FileSystem.replaceText (m := StateM Disk) o.buildFile text between with ⟨replaced, last⟩
    simp only [StateT.bind, hreplace] at h
    rcases replaceText_cases hreplace with ⟨rfl, hreplaced⟩ | ⟨fault, rfl, honly⟩
    · cases h
      exact Or.inl ⟨rfl, hreplaced⟩
    · cases h
      exact Or.inr ⟨_, rfl, rfl, honly⟩

/-- A conversion fails before anything changes, or the build directory is made and the build file is written, which may
fail as well. -/
theorem convert_cases {result : Except ConversionError Path}
    (h : (o.convert settings : StateM Disk _) before = (result, after)) :
    ((∃ e, result = .error e) ∧ after = before.nextMishap.2) ∨
      ∃ source f between, before.readText o.project = .ok source ∧ o.IsBuildGraph settings source f ∧
        Made o.buildDirectory.ancestors before between ∧
        ((result = .ok o.buildFile ∧ Replaced o.buildFile f.text between after) ∨
          ∃ e, result = .error e ∧ e.violation? = none ∧ Only (temporaryPath o.buildFile) between after) := by
  rcases hread : FileSystem.readText (m := StateM Disk) o.project before with ⟨fault | source, between⟩
  · have hlook : Disk.look (·.readText o.project) .error before = (.error fault, between) := hread
    obtain ⟨rfl, -⟩ := Disk.look_cases hlook
    rw [convert_of_unreadable hread] at h
    cases h
    exact Or.inl ⟨⟨_, rfl⟩, rfl⟩
  · have hlook : Disk.look (·.readText o.project) .error before = (.ok source, between) := hread
    obtain ⟨rfl, hanswer⟩ := Disk.look_cases hlook
    have hsource : before.readText o.project = .ok source := by
      rcases hanswer with hanswer | ⟨fault, hanswer⟩
      · exact hanswer.symm
      · cases hanswer
    rw [convert_of_readable hread] at h
    cases htext : o.buildText settings source with
    | error e =>
      simp only [htext] at h
      cases h
      exact Or.inl ⟨⟨e, rfl⟩, rfl⟩
    | ok text =>
      simp only [htext] at h
      obtain ⟨f, hgraph, rfl⟩ := buildText_eq_ok_iff.1 htext
      obtain ⟨between, hmade, hwritten⟩ := writeBuildFile_cases h
      have hframe := Disk.isFrame_made o.buildDirectory.ancestors
      exact Or.inr ⟨source, f, between, hsource, hgraph, hframe.trans (hframe.next before) hmade, hwritten⟩

/-! ## All or nothing -/

/-- Whether an entry has appeared at a location: a directory that the build directory is or lies in. -/
def IsNewDirectory (o : Options) (before after : Disk) (location : Location) : Prop :=
  before.at? location = none ∧ after.at? location = some .directory ∧
    ∃ dir ∈ o.buildDirectory.ancestors, after.locate dir = .ok location

/-- What a conversion leaves that failed. -/
structure LeavesFiles (o : Options) (e : ConversionError) (before after : Disk) : Prop where
  /-- Every file is what it was, apart from the temporary file. -/
  files : ∀ location, after.locate (o.buildFile ++ ".tmp") ≠ .ok location →
    after.file? location = before.file? location
  /-- Apart from the temporary file, at most directories on the way to the build file have appeared. -/
  directories : ∀ location, after.locate (o.buildFile ++ ".tmp") ≠ .ok location →
    after.at? location = before.at? location ∨ o.IsNewDirectory before after location
  /-- A violated contract stops the conversion before anything has changed. -/
  violation : e.violation? ≠ none → after.entries = before.entries ∧ after.current = before.current

/-- What a conversion leaves that succeeded with a path. -/
structure WritesBuildFile (o : Options) (settings : Settings) (path : Path) (before after : Disk) : Prop where
  /-- The path is that of the build file in the build directory. -/
  path_eq : path = o.buildDirectory.join "build.ninja"
  /-- The build file holds the text of the build graph of the selected configuration. -/
  content : ∃ source f location, before.readText o.project = .ok source ∧ o.IsBuildGraph settings source f ∧
    after.locate path = .ok location ∧ after.file? location = some (.text f.text)
  /-- There is no temporary file. -/
  gone : ∃ location, after.locate (path ++ ".tmp") = .ok location ∧ after.at? location = none
  /-- Every other file is what it was. -/
  files : ∀ location, after.locate path ≠ .ok location → after.locate (path ++ ".tmp") ≠ .ok location →
    after.file? location = before.file? location
  /-- Apart from the two files, at most directories on the way to the build file have appeared. -/
  directories : ∀ location, after.locate path ≠ .ok location → after.locate (path ++ ".tmp") ≠ .ok location →
    after.at? location = before.at? location ∨ o.IsNewDirectory before after location

/-- Where at most a directory has appeared there is the same file as before, or none. -/
theorem file?_eq_of_newDirectory {location : Location}
    (h : after.at? location = before.at? location ∨ o.IsNewDirectory before after location) :
    after.file? location = before.file? location := by
  unfold Disk.file?
  rcases h with h | ⟨hnone, hdirectory, -⟩
  · rw [h]
  · rw [hnone, hdirectory]

/-- Directories that were made before the disk went on changing elsewhere are new directories. -/
theorem newDirectory_of_made {between : Disk} (hmade : Made o.buildDirectory.ancestors before between)
    (hkeeps : Keeps between after) {location : Location} (hlocation : after.at? location = between.at? location) :
    after.at? location = before.at? location ∨ o.IsNewDirectory before after location := by
  rcases hmade.made location with hsame | ⟨hnone, hdirectory, dir, hdir, hlocate⟩
  · exact Or.inl (hlocation.trans hsame)
  · exact Or.inr ⟨hnone, hlocation.trans hdirectory, dir, hdir, hkeeps.locate hlocate⟩

/-- A conversion is all or nothing on files, for every disk, every options and settings, and whatever mishaps its
operations meet. -/
theorem convert_allOrNothing (o : Options) (settings : Settings) (before : Disk) :
    (∀ e after, (o.convert settings : StateM Disk _) before = (.error e, after) → o.LeavesFiles e before after) ∧
    (∀ path after, (o.convert settings : StateM Disk _) before = (.ok path, after) →
      o.WritesBuildFile settings path before after) := by
  refine ⟨fun e after h => ?_, fun path after h => ?_⟩
  · rcases convert_cases h with ⟨-, rfl⟩ | ⟨source, f, between, -, -, hmade, hwritten⟩
    · exact ⟨fun _ _ => rfl, fun _ _ => Or.inl rfl, fun _ => ⟨rfl, rfl⟩⟩
    · rcases hwritten with ⟨hok, -⟩ | ⟨e', he, hviolation, honly⟩
      · cases hok
      · cases he
        have hdirectories : ∀ location, after.locate (o.buildFile ++ ".tmp") ≠ .ok location →
            after.at? location = before.at? location ∨ o.IsNewDirectory before after location :=
          fun location hlocation => newDirectory_of_made hmade honly.keeps (honly.other location hlocation)
        refine ⟨fun location hlocation => ?_, hdirectories, fun h => absurd hviolation h⟩
        exact file?_eq_of_newDirectory (hdirectories location hlocation)
  · rcases convert_cases h with ⟨⟨e, he⟩, -⟩ | ⟨source, f, between, hsource, hgraph, hmade, hwritten⟩
    · cases he
    · rcases hwritten with ⟨hok, hreplaced⟩ | ⟨e, he, -⟩
      · cases hok
        obtain ⟨location, hlocate, hat⟩ := hreplaced.content
        have hdirectories : ∀ location, after.locate o.buildFile ≠ .ok location →
            after.locate (o.buildFile ++ ".tmp") ≠ .ok location →
            after.at? location = before.at? location ∨ o.IsNewDirectory before after location :=
          fun location hpath htemporary =>
            newDirectory_of_made hmade hreplaced.keeps (hreplaced.other location hpath htemporary)
        refine ⟨rfl, ⟨source, f, location, hsource, hgraph, hlocate, ?_⟩, hreplaced.gone, ?_, hdirectories⟩
        · rw [Disk.file?, hat]
        · exact fun location hpath htemporary => file?_eq_of_newDirectory (hdirectories location hpath htemporary)
      · cases he

end Options

end CprojNinja
