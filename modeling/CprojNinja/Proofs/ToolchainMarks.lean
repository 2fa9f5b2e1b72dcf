import CprojNinja.Proofs.ToolchainSources

/-!
# Naming the toolchain that was found

The caller who names a directory leaves the family to its path. The studio's own toolchains are found by another way: the
family is known from a name, and the path is put together from the directory of the studio and a way that has the mark of
this family. The directory of the studio is not under the control of the program, and it may have marks of its own.

Main statement: the directory of a toolchain that was found is always accepted, and it gives the same toolchain unless
the directory of the studio has a mark that is looked for earlier.
-/

namespace CprojNinja

/-! ## Marks in paths -/

theorem Text.infix_append_cons_iff {mark : Text} {c : Char} (hc : c ∉ mark) (s t : Text) :
    mark <:+: s ++ c :: t ↔ mark <:+: s ∨ mark <:+: t := by
  rw [← occursIn_iff, occursIn_append_cons hc, Bool.or_eq_true, occursIn_iff, occursIn_iff]

namespace Path

variable {mark : Text} {dir name : Path}

theorem infix_join_iff (hmark : '/' ∉ mark) (hname : name.head? ≠ some '/') :
    mark <:+: dir.join name ↔ mark <:+: dir ∨ mark <:+: name := by
  have hnil {s : Text} (h : mark <:+: []) : mark <:+: s := by
    rw [List.infix_nil.1 h]
    exact List.nil_infix
  rcases join_cases dir hname with ⟨rfl, hjoin⟩ | ⟨start, hdir, hjoin⟩
  · rw [hjoin]
    exact ⟨Or.inr, fun h => h.elim hnil id⟩
  · have hstart : mark <:+: dir ↔ mark <:+: start := by
      rcases hdir with rfl | rfl
      · rfl
      · rw [Text.infix_append_cons_iff hmark, or_iff_left_of_imp hnil]
    rw [hjoin, Text.infix_append_cons_iff hmark, hstart]

theorem infix_foldl_join_iff (hmark : '/' ∉ mark) {names : List Text} (hnames : ∀ name ∈ names, name.head? ≠ some '/') :
    mark <:+: names.foldl join dir ↔ mark <:+: dir ∨ ∃ name ∈ names, mark <:+: name := by
  induction names generalizing dir with
  | nil => simp
  | cons name names ih =>
    obtain ⟨hname, hnames⟩ := List.forall_mem_cons.1 hnames
    rw [List.foldl_cons, ih hnames, infix_join_iff hmark hname, or_assoc, List.exists_mem_cons_iff]

theorem join_injective {other : Path} (hname : name.head? ≠ some '/') (hother : other.head? ≠ some '/')
    (h : dir.join name = dir.join other) : name = other := by
  unfold join at h
  rw [if_neg hname, if_neg hother] at h
  split at h
  · exact List.append_cancel_left h
  · exact List.append_cancel_left h

end Path

/-! ## The family of a directory -/

namespace Family

variable {mark : Family → Text} {text : Text} {f g : Family}

theorem ne_of_mem_earlier (h : g ∈ f.earlier) : g ≠ f := of_decide_eq_true (List.all_eq_true.1 List.all_takeWhile g h)

theorem programStart_injective (h : f.programStart = g.programStart) : f = g := by
  revert h
  cases f <;> cases g <;> decide

theorem IsFirstIn.unique (hf : f.IsFirstIn mark text) (hg : g.IsFirstIn mark text) : f = g :=
  Option.some.inj ((find?_all_eq_some_iff.2 hf).symm.trans (find?_all_eq_some_iff.2 hg))

/-- The way from the studio to the programs of a family has the mark of this family and no other one. -/
theorem infix_programPath_iff (version : StudioVersion) :
    (∃ name ∈ version.programPath f, g.pathMark <:+: name) ↔ g = f := by
  simp only [← Text.occursIn_iff]
  cases version <;> cases f <;> cases g <;> decide

theorem infix_studio_iff (version : StudioVersion) (studio : Path) :
    g.pathMark <:+: (version.programPath f).foldl Path.join studio ↔ g.pathMark <:+: studio ∨ g = f := by
  have hmark : '/' ∉ g.pathMark := by cases g <;> decide
  have hnames : ∀ name ∈ version.programPath f, name.head? ≠ some '/' := by cases version <;> cases f <;> decide
  rw [Path.infix_foldl_join_iff hmark hnames, infix_programPath_iff]

end Family

namespace Toolchain

variable {t u : Toolchain}

/-- The names of the programs tell the family. -/
theorem executables_inj (hdirectory : u.directory = t.directory) {isCpp : Bool} :
    u.executables isCpp = t.executables isCpp ↔ u = t := by
  constructor
  · intro h
    have hrelative (f : Family) : (f.programStart ++ "-" ++ "gcc").head? ≠ some '/' := by cases f <;> decide
    have hcc : u.cc = t.cc := congrArg Executables.cc h
    unfold cc program at hcc
    rw [hdirectory] at hcc
    have hname := Path.join_injective (hrelative u.family) (hrelative t.family) hcc
    have hfamily := Family.programStart_injective (List.append_cancel_right (List.append_cancel_right hname))
    cases u
    cases t
    exact congrArg₂ mk hdirectory hfamily
  · rintro rfl
    rfl

end Toolchain

namespace ToolchainId

variable {id : ToolchainId} {registry : Registry} {t : Toolchain}

theorem toolchain_cases (h : id.toolchain registry = .ok t) :
    (id.flavour = nativeFlavour ∧ ∃ (version : StudioVersion) (studio : Path),
        registry.value? (id.registryStart ++ "_Config") "InstallDir" = some studio ∧
        t.directory = (version.programPath t.family).foldl Path.join studio) ∨
      (id.flavour ≠ nativeFlavour ∧ t.family.IsFirstIn Family.pathMark t.directory) := by
  have hends := toolchain_eq_iff.1 h
  generalize hvalue : (registry.valuesAt id.place).head? = value at hends
  cases hends with
  | @native f version studio hnative _ _ =>
    refine Or.inl ⟨hnative, version, studio, ?_, rfl⟩
    rw [Registry.value?_eq_head?, ← place_of_native hnative, hvalue]
  | package hpackage hf => exact Or.inr ⟨hpackage, hf⟩

theorem infix_directory (h : id.toolchain registry = .ok t) : t.family.pathMark <:+: t.directory := by
  rcases toolchain_cases h with ⟨-, version, studio, -, hdirectory⟩ | ⟨-, hf⟩
  · rw [hdirectory, Family.infix_studio_iff]
    exact Or.inr rfl
  · exact hf.1

/-- The mark of the family is the first one in the directory that was found, unless that of the studio has another one
before. -/
theorem isFirstIn_directory_iff (h : id.toolchain registry = .ok t) :
    t.family.IsFirstIn Family.pathMark t.directory ↔ (id.flavour = nativeFlavour →
      ∀ studio, registry.value? (id.registryStart ++ "_Config") "InstallDir" = some studio →
        ∀ f ∈ t.family.earlier, ¬ f.pathMark <:+: studio) := by
  rcases toolchain_cases h with ⟨hnative, version, studio, hstudio, hdirectory⟩ | ⟨hpackage, hf⟩
  · constructor
    · rintro ⟨-, hearlier⟩ - studio' hstudio' f hf hmark
      cases hstudio.symm.trans hstudio'
      apply hearlier f hf
      rw [hdirectory, Family.infix_studio_iff]
      exact Or.inl hmark
    · intro hclear
      refine ⟨infix_directory h, ?_⟩
      intro f hf hmark
      rw [hdirectory, Family.infix_studio_iff] at hmark
      rcases hmark with hmark | rfl
      · exact hclear hnative studio hstudio f hf hmark
      · exact Family.ne_of_mem_earlier hf rfl
  · exact iff_of_true hf fun hnative => absurd hnative hpackage

end ToolchainId

/-- A caller who names the directory of the toolchain that was found is given a toolchain there. It is another one exactly
if the toolchain comes with the studio and the directory of the studio has a mark that is looked for before that of its
family, and then its programs are others too. -/
theorem ofPath_directory {id : ToolchainId} {registry : Registry} {t : Toolchain}
    (h : id.toolchain registry = .ok t) :
    ∃ u, Toolchain.ofPath t.directory = .ok u ∧ u.directory = t.directory ∧
      (u = t ↔ (id.flavour = "Native" →
        ∀ studio, registry.value? (id.registryStart ++ "_Config") "InstallDir" = some studio →
          ∀ f ∈ t.family.earlier, ¬ f.pathMark <:+: studio)) ∧
      ∀ isCpp, u.executables isCpp = t.executables isCpp ↔ u = t := by
  obtain ⟨first, hfirst⟩ := Family.exists_isFirstIn (ToolchainId.infix_directory h)
  have hsame : Toolchain.mk t.directory first = t ↔ t.family.IsFirstIn Family.pathMark t.directory := by
    constructor
    · intro hu
      rw [← hu]
      exact hfirst
    · intro ht
      rw [hfirst.unique ht]
  refine ⟨⟨t.directory, first⟩, Toolchain.ofPath_of_isFirstIn hfirst, rfl, ?_, ?_⟩
  · rw [hsame]
    exact ToolchainId.isFirstIn_directory_iff h
  · intro isCpp
    apply Toolchain.executables_inj
    rfl

/-- The mark of a later family in the directory of the studio does no harm. -/
theorem ofPath_directory_avr32 :
    let id : ToolchainId := ⟨"6.2", "com.Atmel.AVR32GCC.C", "Native"⟩
    let registry : Registry := [[("Software\\Atmel\\AtmelStudio\\6.2_Config", [("InstallDir", "avr8-studio")])]]
    let t : Toolchain :=
      ⟨"avr8-studio/../Atmel Toolchain/AVR32 GCC/Native/3.4.1067/avr32-gnu-toolchain/bin", .avr32⟩
    id.toolchain registry = .ok t ∧ Toolchain.ofPath t.directory = .ok t := by
  intro id registry t
  have htoolchain : id.toolchain registry = .ok t := by decide
  obtain ⟨u, hu, -, hsame, -⟩ := ofPath_directory htoolchain
  have hclear : ∀ f ∈ t.family.earlier, ¬ f.pathMark <:+: ("avr8-studio" : Text) := by
    simp only [← Text.occursIn_iff]
    decide
  refine ⟨htoolchain, ?_⟩
  rw [hu, hsame.2]
  rintro - studio ⟨⟩
  exact hclear

/-- A studio below a directory with the mark of another family: the programs of that family are called. -/
theorem ofPath_directory_ne :
    let id : ToolchainId := ⟨"7.0", "com.Atmel.AVR8GCC.C", "Native"⟩
    let registry : Registry := [[("Software\\Atmel\\AtmelStudio\\7.0_Config", [("InstallDir", "/opt/arm-studio")])]]
    let directory : Path := "/opt/arm-studio/toolchain/avr8/avr8-gnu-toolchain/bin"
    id.toolchain registry = .ok ⟨directory, .avr8⟩ ∧ Toolchain.ofPath directory = .ok ⟨directory, .arm⟩ ∧
      (Toolchain.mk directory .arm).executables false ≠ (Toolchain.mk directory .avr8).executables false := by
  decide

end CprojNinja
