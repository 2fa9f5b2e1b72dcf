import CprojNinja.Proofs.BuildFile
import CprojNinja.Proofs.ByteLayout
import CprojNinja.Proofs.Defines
import CprojNinja.Proofs.LinkFlags

/-!
# Violations

A conversion stops at once if a contract is violated. There are three contracts in the program, and a conversion keeps
one of them itself: it reads no property before a configuration is selected. The other two are promises of the user.
This module says exactly when one of those is broken, stage by stage, because a stage runs only if all stages before it
gave something.

Nothing else stops a conversion at once. Where a text is cut at byte positions the slices always exist.
-/

namespace CprojNinja

/-! ## Flags -/

/-- Whether the caller removes a symbol that occurs twice on a compiler page. -/
def RemovesRepeatedOn (c : Configuration) (caller : CallerFlags) (page : Language) : Prop :=
  RemovesRepeated caller.added (c.definedSymbols page) caller.removed

section Flags

variable {p : Project} {c : Configuration}

theorem compilerFlags_cases (c : Configuration) (caller : CallerFlags) (page : Language) :
    (RemovesRepeatedOn c caller page ∧
        ∃ name count, c.compilerFlags page caller.symbols = .error (.repeatedDefine name count)) ∨
      (¬ RemovesRepeatedOn c caller page ∧ ∃ flags, c.compilerFlags page caller.symbols = .ok flags) := by
  unfold Configuration.compilerFlags CallerFlags.symbols
  by_cases h : RemovesRepeatedOn c caller page
  · obtain ⟨before, name, after, -, -, herror⟩ := mergeDefines_of_removesRepeated h
    rw [herror]
    exact Or.inl ⟨h, _, _, rfl⟩
  · rw [mergeDefines_of_not_removesRepeated h]
    exact Or.inr ⟨h, _, rfl⟩

/-- The flags are refused by the C page or, if there is one, by the C++ page. -/
theorem resolveFlags_cases (hselected : p.selected = some c) (caller : CallerFlags) (outdir : Text) :
    ((RemovesRepeatedOn c caller .c ∨ p.isCpp = true ∧ RemovesRepeatedOn c caller .cpp) ∧
        ∃ name count, p.resolveFlags caller outdir = .error (.repeatedDefine name count)) ∨
      (¬ (RemovesRepeatedOn c caller .c ∨ p.isCpp = true ∧ RemovesRepeatedOn c caller .cpp) ∧
        ∃ flags, p.resolveFlags caller outdir = .ok flags) := by
  rw [resolveFlags_of_selected hselected]
  rcases compilerFlags_cases c caller .c with ⟨hc, name, count, herror⟩ | ⟨hc, forC, hforC⟩
  · rw [herror]
    exact Or.inl ⟨Or.inl hc, name, count, rfl⟩
  · rw [hforC]
    cases hcpp : p.isCpp with
    | false =>
      refine Or.inr ⟨?_, _, rfl⟩
      rintro (h | ⟨h, -⟩)
      · exact hc h
      · cases h
    | true =>
      rcases compilerFlags_cases c caller .cpp with ⟨hpage, name, count, herror⟩ | ⟨hpage, forCpp, hforCpp⟩
      · rw [herror]
        exact Or.inl ⟨Or.inr ⟨rfl, hpage⟩, name, count, rfl⟩
      · rw [hforCpp]
        refine Or.inr ⟨?_, _, rfl⟩
        rintro (h | ⟨-, h⟩)
        · exact hc h
        · exact hpage h

end Flags

/-! ## Sources -/

/-- Whether a C++ source of a C project is met before any source whose object file is that of an earlier one. -/
def MeetsForeign (language : Language) (files : List Path) : Prop :=
  ∃ before file after, files = before ++ file :: after ∧ IsForeign language file ∧
    EachAfter (fun earlier file => ¬ IsRepeated earlier file) before

section Sources

variable {language : Language} {files before after : List Path} {file : Path}

/-- The first file that offends is foreign if a foreign one is met in time. -/
theorem MeetsForeign.isForeign (h : MeetsForeign language (before ++ file :: after))
    (hbefore : Harmless language before) (hfile : Offends language before file) : IsForeign language file := by
  obtain ⟨before', foreign, after', heq, hforeign, hbefore'⟩ := h
  -- two members of one list: either they are the same, or one of them comes first and should not be there
  rcases List.append_eq_append_iff.1 heq with ⟨middle, rfl, hmiddle⟩ | ⟨middle, rfl, hmiddle⟩
  · cases middle with
    | nil =>
      obtain ⟨rfl, -⟩ := List.cons.inj hmiddle
      exact hforeign
    | cons first middle =>
      obtain ⟨rfl, -⟩ := List.cons.inj hmiddle
      exact hfile.resolve_right (hbefore' before file middle rfl)
  · cases middle with
    | nil =>
      obtain ⟨rfl, -⟩ := List.cons.inj hmiddle
      exact hforeign
    | cons first middle =>
      obtain ⟨rfl, -⟩ := List.cons.inj hmiddle
      exact absurd (Or.inl hforeign) (hbefore before' foreign middle rfl)

theorem compileEdges_cases (language : Language) (files : List Path) :
    (MeetsForeign language files ∧
        ∃ file, (compileEdges language [] files).outcome = .error (.violation (.foreignSource file))) ∨
      (¬ MeetsForeign language files ∧ ∀ v, (compileEdges language [] files).outcome ≠ .error (.violation v)) := by
  by_cases hfiles : Harmless language files
  · refine Or.inr ⟨?_, fun v => by simp [compileEdges_of_harmless hfiles]⟩
    rintro ⟨before, file, after, heq, hforeign, -⟩
    exact hfiles before file after heq (Or.inl hforeign)
  · obtain ⟨before, file, after, rfl, hbefore, hfile⟩ := exists_first_of_not_eachAfter hfiles
    rw [compileEdges_of_first_offence hbefore (not_not.1 hfile), offence]
    by_cases hforeign : IsForeign language file
    · have hbefore' : EachAfter (fun earlier file => ¬ IsRepeated earlier file) before :=
        fun first x rest heq hx => hbefore first x rest heq (Or.inr hx)
      rw [if_pos hforeign]
      exact Or.inl ⟨⟨before, file, after, rfl, hforeign, hbefore'⟩, file, rfl⟩
    · rw [if_neg hforeign]
      exact Or.inr ⟨fun h => hforeign (h.isForeign hbefore (not_not.1 hfile)), fun v => by simp⟩

theorem graph_eq_error_iff {p : Project} {flags : ResolvedFlags} {programs : Executables} {outdir : Text}
    {e : GraphError} :
    p.graph flags programs outdir = .error e ↔ (compileEdges p.language [] p.sources).outcome = .error e := by
  unfold Project.graph Project.reportedGraph
  rw [Reported.outcome_bind, bind_eq_error]
  simp [pure]

end Sources

/-! ## Conversions -/

namespace Options

variable {o : Options} {settings : Settings} {before : Disk} {v : Violation}

/-- Whether the project file of a conversion is read and describes a project. -/
def Loads (o : Options) (before : Disk) (p : Project) : Prop :=
  ∃ source after, FileSystem.readText (m := StateM Disk) o.project before = (.ok source, after) ∧
    Project.read o.outputName source = .ok p

/-- Whether a conversion stops because a contract is violated. -/
def Violates (o : Options) (settings : Settings) (before : Disk) (v : Violation) : Prop :=
  ∃ e after, (o.convert settings : StateM Disk _) before = (.error e, after) ∧ e.violation? = some v

/-- What a selected project violates: its flags are refused, or its graph is. -/
def Refuses (o : Options) (settings : Settings) (p : Project) (v : Violation) : Prop :=
  p.resolveFlags o.caller o.buildDirectoryName = .error v ∨
    ∃ flags toolchain, p.resolveFlags o.caller o.buildDirectoryName = .ok flags ∧
      resolveToolchain p o.toolchain settings = .ok toolchain ∧
      p.graph flags (toolchain.executables p.isCpp) o.buildDirectoryName = .error (.violation v)

/-- What the user promises about a project of which a configuration is selected is all that it can refuse. -/
theorem exists_refuses_iff {p : Project} {c : Configuration} (hselected : p.selected = some c) :
    (∃ v, o.Refuses settings p v) ↔
      RemovesRepeatedOn c o.caller .c ∨ (p.isCpp = true ∧ RemovesRepeatedOn c o.caller .cpp) ∨
        (∃ flags toolchain, p.resolveFlags o.caller o.buildDirectoryName = .ok flags ∧
          resolveToolchain p o.toolchain settings = .ok toolchain) ∧ MeetsForeign p.language p.sources := by
  rcases resolveFlags_cases hselected o.caller o.buildDirectoryName with
    ⟨hrepeated, name, count, herror⟩ | ⟨hrepeated, flags, hflags⟩
  · rw [← or_assoc]
    exact iff_of_true ⟨_, Or.inl herror⟩ (Or.inl hrepeated)
  · rw [← or_assoc, or_iff_right hrepeated]
    constructor
    · rintro ⟨v, herror | ⟨flags, toolchain, hflags, htoolchain, hgraph⟩⟩
      · rw [hflags] at herror
        cases herror
      · rcases compileEdges_cases p.language p.sources with ⟨hmeets, -⟩ | ⟨-, hnone⟩
        · exact ⟨⟨flags, toolchain, hflags, htoolchain⟩, hmeets⟩
        · exact absurd (graph_eq_error_iff.1 hgraph) (hnone v)
    · rintro ⟨⟨flags, toolchain, hflags, htoolchain⟩, hmeets⟩
      rcases compileEdges_cases p.language p.sources with ⟨-, file, herror⟩ | ⟨hnone, -⟩
      · exact ⟨_, Or.inr ⟨flags, toolchain, hflags, htoolchain, graph_eq_error_iff.2 herror⟩⟩
      · exact absurd hmeets hnone

theorem not_refuses_noSelection {p : Project} {c : Configuration} (hselected : p.selected = some c) (key : Text) :
    ¬ o.Refuses settings p (.noSelection key) := by
  rintro (herror | ⟨flags, toolchain, -, -, hgraph⟩)
  · rcases resolveFlags_cases hselected o.caller o.buildDirectoryName with
      ⟨-, name, count, hrepeated⟩ | ⟨-, flags, hflags⟩
    · rw [hrepeated] at herror
      cases herror
    · rw [hflags] at herror
      cases herror
  · rcases compileEdges_cases p.language p.sources with ⟨-, file, hforeign⟩ | ⟨-, hnone⟩
    · rw [graph_eq_error_iff, hforeign] at hgraph
      cases hgraph
    · exact hnone _ (graph_eq_error_iff.1 hgraph)

theorem violation_of_buildGraph_iff {p : Project} :
    (∃ e, o.buildGraph settings p = .error e ∧ e.violation? = some v) ↔
      ∃ c, (p.select o.configurationName).selected = some c ∧
        o.Refuses settings (p.select o.configurationName) v := by
  rw [buildGraph_eq]
  unfold Refuses
  dsimp only
  cases hselected : (p.select o.configurationName).selected with
  | none =>
    refine ⟨?_, fun ⟨c, hc, _⟩ => by cases hc⟩
    rintro ⟨e, he, hv⟩
    cases he
    cases hv
  | some c =>
    simp only [Option.isNone_some, Bool.false_eq_true, if_false, bind_eq_error, mapError_eq_error, mapError_eq_ok]
    constructor
    · rintro ⟨e, ⟨cause, hflags, rfl⟩ |
        ⟨flags, hflags, ⟨cause, -, rfl⟩ | ⟨toolchain, htoolchain, cause, hgraph, rfl⟩⟩, hv⟩
      · cases hv
        exact ⟨c, rfl, Or.inl hflags⟩
      · cases hv
      · cases cause with
        | duplicateObject object source => cases hv
        | violation v' =>
          cases hv
          exact ⟨c, rfl, Or.inr ⟨flags, toolchain, hflags, htoolchain, hgraph⟩⟩
    · rintro ⟨-, -, hflags | ⟨flags, toolchain, hflags, htoolchain, hgraph⟩⟩
      · exact ⟨_, Or.inl ⟨v, hflags, rfl⟩, rfl⟩
      · exact ⟨_, Or.inr ⟨flags, hflags, Or.inr ⟨toolchain, htoolchain, _, hgraph, rfl⟩⟩, rfl⟩

theorem violation_of_buildText_iff {source : Text} :
    (∃ e, o.buildText settings source = .error e ∧ e.violation? = some v) ↔
      ∃ p, Project.read o.outputName source = .ok p ∧
        ∃ e, o.buildGraph settings p = .error e ∧ e.violation? = some v := by
  rw [buildText_eq]
  simp only [bind_eq_error, mapError_eq_error, mapError_eq_ok]
  constructor
  · rintro ⟨e, ⟨cause, -, rfl⟩ | ⟨p, hread, hgraph | ⟨f, -, htext⟩⟩, hv⟩
    · cases hv
    · exact ⟨p, hread, e, hgraph, hv⟩
    · cases htext
  · rintro ⟨p, hread, e, hgraph, hv⟩
    exact ⟨e, Or.inr ⟨p, hread, Or.inl hgraph⟩, hv⟩

/-- Neither reading nor writing violates a contract. -/
theorem violates_iff : o.Violates settings before v ↔
    ∃ p c, o.Loads before p ∧ (p.select o.configurationName).selected = some c ∧
      o.Refuses settings (p.select o.configurationName) v := by
  unfold Violates
  constructor
  · rintro ⟨e, after, hrun, hv⟩
    rcases hread : FileSystem.readText (m := StateM Disk) o.project before with ⟨fault | source, between⟩
    · rw [convert_of_unreadable hread] at hrun
      cases hrun
      cases hv
    · rw [convert_of_readable hread] at hrun
      cases htext : o.buildText settings source with
      | error e' =>
        simp only [htext] at hrun
        cases hrun
        obtain ⟨p, hp, hgraph⟩ := violation_of_buildText_iff.1 ⟨e, htext, hv⟩
        obtain ⟨c, hc, hrefuses⟩ := violation_of_buildGraph_iff.1 hgraph
        exact ⟨p, c, ⟨source, _, hread, hp⟩, hc, hrefuses⟩
      | ok text =>
        simp only [htext] at hrun
        obtain ⟨-, -, ⟨hok, -⟩ | ⟨e', he', hnone, -⟩⟩ := writeBuildFile_cases hrun
        · cases hok
        · cases he'
          rw [hnone] at hv
          cases hv
  · rintro ⟨p, c, ⟨source, between, hread, hp⟩, hc, hrefuses⟩
    obtain ⟨e, he, hv⟩ := violation_of_buildText_iff.2 ⟨p, hp, violation_of_buildGraph_iff.2 ⟨c, hc, hrefuses⟩⟩
    refine ⟨e, between, ?_, hv⟩
    rw [convert_of_readable hread, he]

end Options

/-! ## Slices -/

/-- Whether every slice that is taken of a text exists, and the functions that take them are those of the program. -/
structure SlicesExist (s : Text) : Prop where
  /-- Parent directories are dropped from the start of a path. -/
  parents : Path.dropParentsAt s = Path.dropParents s
  /-- A path is split at its last separator. -/
  base : Path.splitBaseAt? s = some (Path.splitBase s)
  /-- A path is split at the dot of its extension. -/
  extension : Path.splitExtensionAt? s = some (Path.splitExtension s)
  /-- A directory has a name. -/
  directory : Path.directoryNameAt? s = some (Path.directoryName s)
  /-- Scripts are found in a flag. -/
  scripts : scriptsInAt? s = some (scriptsIn s)
  /-- A text is laid out at the two depths that there are in a ninja file. -/
  lines : ∀ depth ≤ 1, Ninja.layoutAt? depth s = some (Ninja.layout depth s)
  /-- A text could be laid out at any depth. -/
  anyLines : ∀ depth, ∃ lines, Ninja.layoutAt? depth s = some lines

theorem slicesExist (s : Text) : SlicesExist s where
  parents := Path.dropParentsAt_eq s
  base := Path.splitBaseAt?_eq s
  extension := Path.splitExtensionAt?_eq s
  directory := Path.directoryNameAt?_eq s
  scripts := scriptsInAt?_eq s
  lines _ hdepth := Ninja.layoutAt?_eq hdepth s
  anyLines depth := Ninja.exists_layoutAt?_eq depth s

namespace Options

/-- A conversion stops at once exactly if a loaded project whose configuration is selected breaks one of two promises: a
symbol to remove occurs twice, or, once flags and toolchain are there, a C++ source of a C project is met. It never
reads a property without a selection, and all slices that it takes exist. -/
theorem exists_violates_iff (o : Options) (settings : Settings) (before : Disk) :
    ((∃ v, o.Violates settings before v) ↔
      ∃ p c, o.Loads before p ∧ (p.select o.configurationName).selected = some c ∧
        (RemovesRepeatedOn c o.caller .c ∨ (p.isCpp = true ∧ RemovesRepeatedOn c o.caller .cpp) ∨
          (∃ flags toolchain,
              (p.select o.configurationName).resolveFlags o.caller o.buildDirectoryName = .ok flags ∧
              resolveToolchain p o.toolchain settings = .ok toolchain) ∧
            MeetsForeign p.language p.sources)) ∧
    (∀ key, ¬ o.Violates settings before (.noSelection key)) ∧
    ∀ s, SlicesExist s := by
  refine ⟨?_, ?_, slicesExist⟩
  · constructor
    · rintro ⟨v, hviolates⟩
      obtain ⟨p, c, hloads, hselected, hrefuses⟩ := violates_iff.1 hviolates
      exact ⟨p, c, hloads, hselected, (exists_refuses_iff hselected).1 ⟨v, hrefuses⟩⟩
    · rintro ⟨p, c, hloads, hselected, hbroken⟩
      obtain ⟨v, hrefuses⟩ := (exists_refuses_iff hselected).2 hbroken
      exact ⟨v, violates_iff.2 ⟨p, c, hloads, hselected, hrefuses⟩⟩
  · intro key hviolates
    obtain ⟨p, c, -, hselected, hrefuses⟩ := violates_iff.1 hviolates
    exact not_refuses_noSelection hselected key hrefuses

end Options

end CprojNinja
