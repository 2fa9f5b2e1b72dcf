import CprojNinja.Conversion
import Mathlib.Data.List.Basic

/-!
# Where a toolchain comes from

A toolchain is looked for in three places: the caller, the settings, and the project, which only gives a name. For the
last one the registry has to be asked, and it is asked for one value.

Main statement: the first place that has an answer decides, also if that answer is a defect, and of the whole registry
nothing counts but that one value, which is that of the first layer in which it is not empty.
-/

namespace CprojNinja

/-! ## Marks of families -/

namespace Family

/-- The families whose marks are looked for before that of this one. -/
def earlier (f : Family) : List Family := all.takeWhile (· ≠ f)

/-- Whether this is the first family whose mark occurs in a text. -/
def IsFirstIn (mark : Family → Text) (text : Text) (f : Family) : Prop :=
  mark f <:+: text ∧ ∀ e ∈ f.earlier, ¬ mark e <:+: text

variable {mark : Family → Text} {text : Text} {f : Family}

theorem find?_all_eq_some_iff : (all.find? fun f => Text.occursIn (mark f) text) = some f ↔ IsFirstIn mark text f := by
  have harm : earlier arm = [] := rfl
  have havr32 : earlier avr32 = [arm] := rfl
  have havr8 : earlier avr8 = [arm, avr32] := rfl
  unfold IsFirstIn all
  simp only [← Text.occursIn_iff]
  by_cases hA : Text.occursIn (mark arm) text = true <;> by_cases hB : Text.occursIn (mark avr32) text = true <;>
    by_cases hC : Text.occursIn (mark avr8) text = true <;> cases f <;> simp [*]

theorem find?_all_eq_none_iff : (all.find? fun f => Text.occursIn (mark f) text) = none ↔ ∀ f, ¬ mark f <:+: text := by
  have hall (f : Family) : f ∈ all := by cases f <;> decide
  rw [List.find?_eq_none]
  simp only [Text.occursIn_iff]
  exact ⟨fun h f => h f (hall f), fun h f _ => h f⟩

theorem exists_isFirstIn (h : mark f <:+: text) : ∃ first, IsFirstIn mark text first := by
  obtain ⟨first, hfirst⟩ := Option.ne_none_iff_exists'.1 fun hnone => find?_all_eq_none_iff.1 hnone f h
  exact ⟨first, find?_all_eq_some_iff.1 hfirst⟩

theorem exists_ofName?_of_infix {name : Text} (h : f.nameMark <:+: name) : ∃ first, ofName? name = some first := by
  obtain ⟨first, hfirst⟩ := exists_isFirstIn h
  exact ⟨first, find?_all_eq_some_iff.2 hfirst⟩

end Family

theorem Toolchain.ofPath_of_isFirstIn {path : Path} {f : Family} (h : f.IsFirstIn Family.pathMark path) :
    ofPath path = .ok ⟨path, f⟩ := by
  have hfirst : Family.ofPath? path = some f := Family.find?_all_eq_some_iff.2 h
  rw [ofPath, hfirst]

theorem Toolchain.ofPath_of_unmarked {path : Path} (h : ∀ f : Family, ¬ f.pathMark <:+: path) :
    ofPath path = .error (.unsupportedToolchain path) := by
  have hnone : Family.ofPath? path = none := Family.find?_all_eq_none_iff.2 h
  rw [ofPath, hnone]

/-! ## One value of the registry -/

/-- Where a value of the registry stands. -/
structure RegistryPlace where
  /-- The key. -/
  key : Text
  /-- The name of the value under the key. -/
  name : Text

/-- The values that the layers of a registry have at a place, in order and without the empty ones. -/
def Registry.valuesAt (registry : Registry) (place : RegistryPlace) : List Text :=
  Text.nonEmpty (registry.filterMap fun layer => RegistryLayer.value? layer place.key place.name)

theorem Registry.value?_eq_head? (registry : Registry) (key name : Text) :
    registry.value? key name = (registry.valuesAt ⟨key, name⟩).head? := by
  unfold Registry.value? Registry.valuesAt Text.nonEmpty
  rw [List.filter_filterMap, List.head?_filterMap]

/-- A layer without a value, or with an empty one, might as well not be there. -/
theorem Registry.valuesAt_append_cons {place : RegistryPlace} {layer : RegistryLayer}
    (h : ∀ value, layer.value? place.key place.name = some value → value = []) (before after : Registry) :
    Registry.valuesAt (before ++ layer :: after) place = Registry.valuesAt (before ++ after) place := by
  unfold Registry.valuesAt Text.nonEmpty
  rw [List.filterMap_append, List.filterMap_append, List.filter_append, List.filter_append, List.append_cancel_left_eq,
    List.filterMap_cons]
  cases hvalue : layer.value? place.key place.name with
  | none => rfl
  | some value =>
    rw [h value hvalue]
    rfl

theorem StudioVersion.exists_ofText?_iff {version : Text} :
    (∃ v, ofText? version = some v) ↔ version = "6.2" ∨ version = "7.0" := by
  unfold ofText?
  by_cases h62 : version = "6.2"
  · rw [if_pos h62]
    exact iff_of_true ⟨v62, rfl⟩ (Or.inl h62)
  · rw [if_neg h62, or_iff_right h62]
    by_cases h70 : version = "7.0"
    · rw [if_pos h70]
      exact iff_of_true ⟨v70, rfl⟩ h70
    · rw [if_neg h70]
      refine iff_of_false ?_ h70
      rintro ⟨v, ⟨⟩⟩

namespace ToolchainId

/-- The place of the one value that a toolchain is found by. -/
def place (id : ToolchainId) : RegistryPlace :=
  if id.flavour = nativeFlavour then
    { key := "Software\\Atmel\\AtmelStudio\\" ++ id.studioVersion ++ "_Config"
      name := "InstallDir" }
  else
    { key := "Software\\Atmel\\AtmelStudio\\" ++ id.studioVersion ++ "\\ToolchainPackages\\" ++ id.name ++ "\\" ++
        id.flavour
      name := "BasePath" }

/-- How the search for a toolchain ends, given its value of the registry. The defects stand in the order in which they
count: one that stands behind another supposes that there is no such defect. -/
inductive Ends (id : ToolchainId) : Option Text → Except ToolchainError Toolchain → Prop where
  | unknownName {value : Option Text} : id.flavour = nativeFlavour → (∀ f : Family, ¬ f.nameMark <:+: id.name) →
      Ends id value (.error (.unsupportedToolchain id.name))
  | unknownVersion {value : Option Text} {f : Family} : id.flavour = nativeFlavour → f.nameMark <:+: id.name →
      StudioVersion.ofText? id.studioVersion = none → Ends id value (.error (.unsupportedStudio id.studioVersion))
  | noStudio {f : Family} {version : StudioVersion} : id.flavour = nativeFlavour → f.nameMark <:+: id.name →
      StudioVersion.ofText? id.studioVersion = some version → Ends id none (.error (.studioNotFound id.studioVersion))
  | native {f : Family} {version : StudioVersion} {studio : Text} : id.flavour = nativeFlavour →
      f.IsFirstIn Family.nameMark id.name → StudioVersion.ofText? id.studioVersion = some version →
      Ends id (some studio) (.ok ⟨(version.programPath f).foldl Path.join studio, f⟩)
  | noPackage : id.flavour ≠ nativeFlavour → Ends id none (.error (.packageNotFound id.name id.flavour))
  | unknownPath {path : Text} : id.flavour ≠ nativeFlavour → (∀ f : Family, ¬ f.pathMark <:+: path) →
      Ends id (some path) (.error (.unsupportedToolchain path))
  | package {f : Family} {path : Text} : id.flavour ≠ nativeFlavour → f.IsFirstIn Family.pathMark path →
      Ends id (some path) (.ok ⟨path, f⟩)

variable {id : ToolchainId} {registry : Registry} {value : Option Text} {result : Except ToolchainError Toolchain}

theorem place_of_native (hnative : id.flavour = nativeFlavour) :
    id.place = ⟨id.registryStart ++ "_Config", "InstallDir"⟩ :=
  if_pos hnative

theorem place_of_package (hpackage : id.flavour ≠ nativeFlavour) :
    id.place = ⟨id.registryStart ++ "\\ToolchainPackages\\" ++ id.name ++ "\\" ++ id.flavour, "BasePath"⟩ :=
  if_neg hpackage

theorem toolchain_of_native (hnative : id.flavour = nativeFlavour) : id.toolchain registry =
    match Family.ofName? id.name, StudioVersion.ofText? id.studioVersion, (registry.valuesAt id.place).head? with
    | none, _, _ => .error (.unsupportedToolchain id.name)
    | some _, none, _ => .error (.unsupportedStudio id.studioVersion)
    | some _, some _, none => .error (.studioNotFound id.studioVersion)
    | some f, some version, some studio => .ok ⟨(version.programPath f).foldl Path.join studio, f⟩ := by
  have hvalue : registry.value? (id.registryStart ++ "_Config") "InstallDir" = (registry.valuesAt id.place).head? := by
    rw [Registry.value?_eq_head?, place_of_native hnative]
  unfold toolchain nativeToolchain
  rw [if_pos hnative, hvalue]
  cases Family.ofName? id.name with
  | none => rfl
  | some f =>
    cases StudioVersion.ofText? id.studioVersion with
    | none => rfl
    | some version => cases (registry.valuesAt id.place).head? <;> rfl

theorem toolchain_of_package (hpackage : id.flavour ≠ nativeFlavour) : id.toolchain registry =
    match (registry.valuesAt id.place).head? with
    | none => .error (.packageNotFound id.name id.flavour)
    | some path => Toolchain.ofPath path := by
  have hvalue : registry.value? (id.registryStart ++ "\\ToolchainPackages\\" ++ id.name ++ "\\" ++ id.flavour)
      "BasePath" = (registry.valuesAt id.place).head? := by
    rw [Registry.value?_eq_head?, place_of_package hpackage]
  unfold toolchain packagedToolchain
  rw [if_neg hpackage]
  simp only [hvalue]
  cases (registry.valuesAt id.place).head? <;> rfl

theorem ends_toolchain (id : ToolchainId) (registry : Registry) :
    id.Ends (registry.valuesAt id.place).head? (id.toolchain registry) := by
  by_cases hnative : id.flavour = nativeFlavour
  · rw [toolchain_of_native hnative]
    cases hname : Family.ofName? id.name with
    | none => exact .unknownName hnative (Family.find?_all_eq_none_iff.1 hname)
    | some f =>
      have hf := Family.find?_all_eq_some_iff.1 hname
      cases hversion : StudioVersion.ofText? id.studioVersion with
      | none => exact .unknownVersion hnative hf.1 hversion
      | some version =>
        cases (registry.valuesAt id.place).head? with
        | none => exact .noStudio hnative hf.1 hversion
        | some studio => exact .native hnative hf hversion
  · rw [toolchain_of_package hnative]
    cases (registry.valuesAt id.place).head? with
    | none => exact .noPackage hnative
    | some path =>
      show id.Ends (some path) (Toolchain.ofPath path)
      by_cases hmarked : ∃ f : Family, f.pathMark <:+: path
      · obtain ⟨f, hf⟩ := hmarked
        obtain ⟨first, hfirst⟩ := Family.exists_isFirstIn hf
        rw [Toolchain.ofPath_of_isFirstIn hfirst]
        exact .package hnative hfirst
      · rw [Toolchain.ofPath_of_unmarked (not_exists.1 hmarked)]
        exact .unknownPath hnative (not_exists.1 hmarked)

theorem toolchain_of_ends (h : id.Ends (registry.valuesAt id.place).head? result) : id.toolchain registry = result := by
  generalize hvalue : (registry.valuesAt id.place).head? = value at h
  cases h with
  | unknownName hnative hmarks =>
    have hnone : Family.ofName? id.name = none := Family.find?_all_eq_none_iff.2 hmarks
    rw [toolchain_of_native hnative, hnone]
  | unknownVersion hnative hf hversion =>
    obtain ⟨first, hfirst⟩ := Family.exists_ofName?_of_infix hf
    rw [toolchain_of_native hnative, hfirst, hversion]
  | noStudio hnative hf hversion =>
    obtain ⟨first, hfirst⟩ := Family.exists_ofName?_of_infix hf
    rw [toolchain_of_native hnative, hfirst, hversion, hvalue]
  | native hnative hf hversion =>
    have hfirst : Family.ofName? id.name = some _ := Family.find?_all_eq_some_iff.2 hf
    rw [toolchain_of_native hnative, hfirst, hversion, hvalue]
  | noPackage hpackage => rw [toolchain_of_package hpackage, hvalue]
  | unknownPath hpackage hmarks =>
    rw [toolchain_of_package hpackage, hvalue]
    exact Toolchain.ofPath_of_unmarked hmarks
  | package hpackage hf =>
    rw [toolchain_of_package hpackage, hvalue]
    exact Toolchain.ofPath_of_isFirstIn hf

theorem toolchain_eq_iff : id.toolchain registry = result ↔ id.Ends (registry.valuesAt id.place).head? result := by
  constructor
  · rintro rfl
    exact ends_toolchain id registry
  · exact toolchain_of_ends

theorem toolchain_congr {other : Registry} (h : (other.valuesAt id.place).head? = (registry.valuesAt id.place).head?) :
    id.toolchain other = id.toolchain registry := by
  rw [toolchain_eq_iff, h]
  exact ends_toolchain id registry

theorem exists_toolchain_iff (hnative : id.flavour = nativeFlavour) : (∃ t, id.toolchain registry = .ok t) ↔
    (∃ f : Family, f.nameMark <:+: id.name) ∧ (id.studioVersion = "6.2" ∨ id.studioVersion = "7.0") ∧
      ∃ studio, (registry.valuesAt id.place).head? = some studio := by
  constructor
  · rintro ⟨t, ht⟩
    have hends := toolchain_eq_iff.1 ht
    generalize (registry.valuesAt id.place).head? = value at hends ⊢
    cases hends with
    | native _ hf hversion => exact ⟨⟨_, hf.1⟩, StudioVersion.exists_ofText?_iff.1 ⟨_, hversion⟩, _, rfl⟩
    | package hpackage => exact absurd hnative hpackage
  · rintro ⟨⟨f, hf⟩, hversion, studio, hstudio⟩
    obtain ⟨version, hversion⟩ := StudioVersion.exists_ofText?_iff.2 hversion
    obtain ⟨first, hfirst⟩ := Family.exists_ofName?_of_infix hf
    rw [toolchain_of_native hnative, hfirst, hversion, hstudio]
    exact ⟨_, rfl⟩

end ToolchainId

/-- A directory that the caller names decides, or else one that the settings name, and no other place is asked then.
Otherwise the project does, and of the registry one value counts: that of the first layer in which it is not empty. The
name is looked at before the version, the version before the value and the value before its marks. -/
theorem resolveToolchain_decided :
    (∀ (p : Project) (settings : Settings) (path : Path),
      resolveToolchain p (some path) settings = Toolchain.ofPath path ∧
        (settings.toolchain = some path → resolveToolchain p none settings = Toolchain.ofPath path)) ∧
      (∀ (p : Project) (settings : Settings), settings.toolchain = none →
        resolveToolchain p none settings = p.toolchain.toolchain [settings.registry, []]) ∧
      ∀ (id : ToolchainId) (registry : Registry),
        (∀ result, id.toolchain registry = result ↔ id.Ends (registry.valuesAt id.place).head? result) ∧
          (∀ other : Registry, (other.valuesAt id.place).head? = (registry.valuesAt id.place).head? →
            id.toolchain other = id.toolchain registry) ∧
          (∀ before layer after, registry = before ++ layer :: after →
            (∀ value, RegistryLayer.value? layer id.place.key id.place.name = some value → value = []) →
            id.toolchain registry = id.toolchain (before ++ after)) ∧
          (id.flavour = "Native" → ((∃ t, id.toolchain registry = .ok t) ↔
            (∃ f : Family, f.nameMark <:+: id.name) ∧ (id.studioVersion = "6.2" ∨ id.studioVersion = "7.0") ∧
              ∃ studio, (registry.valuesAt id.place).head? = some studio)) := by
  refine ⟨fun p settings path => ⟨rfl, ?_⟩, ?_, fun id registry => ⟨fun result => ToolchainId.toolchain_eq_iff,
    fun other => ToolchainId.toolchain_congr, ?_, ToolchainId.exists_toolchain_iff⟩⟩
  · intro hpath
    unfold resolveToolchain
    rw [hpath]
    rfl
  · intro p settings hnone
    unfold resolveToolchain
    rw [hnone]
    rfl
  · rintro before layer after rfl hlayer
    exact ToolchainId.toolchain_congr (by rw [Registry.valuesAt_append_cons hlayer])

/-- The studio's toolchain for a family, found in a registry whose first layer has an empty value. -/
theorem resolveToolchain_decided_native :
    let id : ToolchainId := ⟨"7.0", "com.Atmel.AVR8GCC.C", "Native"⟩
    let p : Project := {
      language := .c, outputKind := .executable, outputName := "rover", outputExtension := ".elf", toolchain := id
      references := [], sources := [], configurations := [] }
    let layer (studio : Text) : RegistryLayer :=
      [("Software\\Atmel\\AtmelStudio\\7.0_Config", [("InstallDir", studio)])]
    resolveToolchain p none { toolchain := some "avr32-tools", registry := layer "AS7" } =
        .ok ⟨"avr32-tools", .avr32⟩ ∧
      resolveToolchain p none { registry := layer "AS7" } =
        .ok ⟨"AS7/toolchain/avr8/avr8-gnu-toolchain/bin", .avr8⟩ ∧
      id.toolchain [layer [], layer "AS7"] = id.toolchain [layer "AS7"] ∧
      id.toolchain [layer "AS7", layer "AS6"] = id.toolchain [layer "AS7"] ∧
      ∃ t, id.toolchain [layer "AS7"] = .ok t := by
  intro id p layer
  have hlayer : RegistryLayer.value? (layer "AS7") id.place.key id.place.name = some ("AS7" : Text) := rfl
  have hempty : RegistryLayer.value? (layer []) id.place.key id.place.name = some [] := rfl
  have hvalue (rest : Registry) : (Registry.valuesAt (layer "AS7" :: rest) id.place).head? =
      some ("AS7" : Text) := by
    unfold Registry.valuesAt
    rw [List.filterMap_cons, hlayer]
    rfl
  have hfirst : Family.avr8.IsFirstIn Family.nameMark id.name := Family.find?_all_eq_some_iff.1 (by decide)
  obtain ⟨hpath, hproject, hid⟩ := resolveToolchain_decided
  refine ⟨((hpath p _ _).2 rfl).trans (by decide), (hproject p _ rfl).trans (((hid id _).1 _).2 ?_), ?_, ?_, ?_⟩
  · rw [hvalue]
    exact .native rfl hfirst rfl
  · refine (hid id _).2.2.1 [] (layer []) [layer "AS7"] rfl fun value h => ?_
    exact (Option.some.inj (hempty.symm.trans h)).symm
  · refine (hid id _).2.1 _ ?_
    rw [hvalue, hvalue]
  · exact ((hid id _).2.2.2 rfl).2 ⟨⟨.avr8, hfirst.1⟩, Or.inr rfl, "AS7", hvalue []⟩

end CprojNinja
