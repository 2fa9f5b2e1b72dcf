import CprojNinja.Proofs.References

/-!
# What decides on the linker script

A program depends on the linker script that the last `-T` among its flags names, wherever in a flag that stands. One of
the flags is made from the name of the output: the one that asks for a map file. So that name may look like a script.

Main statement: two builds of one project under different names depend on the same files just if a flag behind that one
names a script anyway, or there is no map file, or both names make the same script.
-/

namespace CprojNinja

open Ninja (Edge File)
open Xml (Node)

/-! ## Flags that name no script -/

/-- Whether a flag names no linker script. -/
def NamesNoScript (flag : Text) : Prop := Text.occursIn "-T" flag = false

instance (flag : Text) : Decidable (NamesNoScript flag) := inferInstanceAs (Decidable (_ = _))

theorem namesNoScript_append_cons {c : Char} (hc : c ∉ ("-T" : Text)) {s t : Text} :
    NamesNoScript (s ++ c :: t) ↔ NamesNoScript s ∧ NamesNoScript t := by
  unfold NamesNoScript
  rw [Text.occursIn_append_cons hc, Bool.or_eq_false_iff]

theorem scriptsIn_eq_nil_iff {flag : Text} : scriptsIn flag = [] ↔ NamesNoScript flag := by
  unfold NamesNoScript
  induction flag with
  | nil => decide
  | cons c s ih =>
    have hstart : Text.startsWith "-T" (c :: s) = (Text.dropStart? "-T" (c :: s)).isSome := by
      rw [Bool.eq_iff_iff, Text.startsWith_iff, Option.isSome_iff_exists]
      simp only [Text.dropStart?_eq_some]
      exact ⟨fun ⟨rest, h⟩ => ⟨rest, h.symm⟩, fun ⟨rest, h⟩ => ⟨rest, h.symm⟩⟩
    rw [Text.occursIn, Bool.or_eq_false_iff, hstart, ← ih, scriptsIn]
    cases Text.dropStart? "-T" (c :: s) with
    | none => simp
    | some rest => simp

/-- There is a linker script just if some flag names one. -/
theorem linkerScript?_eq_none_iff {flags : List Text} :
    linkerScript? flags = none ↔ ∀ flag ∈ flags, NamesNoScript flag := by
  unfold linkerScript?
  rw [List.getLast?_eq_none_iff, List.flatMap_eq_nil_iff]
  exact forall₂_congr fun flag _ => scriptsIn_eq_nil_iff

/-! ## The flags around the map file -/

/-- The linker entries before the map file. -/
def entriesBeforeMap : List PageEntry := [
  .off "general.DoNotUseStandardStartFiles" "-nostartfiles",
  .off "general.DoNotUseDefaultLibraries" "-nodefaultlibs",
  .off "general.NoStartupOrDefaultLibs" "-nostdlib",
  .off "general.OmitAllSymbolInformation" "-s",
  .off "general.NoSharedLibraries" "-static"]

/-- The switch for the map file. -/
def mapKey (language : Language) : Text := linkerPage language ++ "general.GenerateMAPFile"

/-- The flag that asks for a map file. -/
def mapFlag (outputName : Text) : Text := "-Wl,-Map=\"" ++ outputName ++ ".map\""

/-- The linker flags behind the one for the map file. -/
def flagsBehindMap (c : Configuration) (p : Project) (outdir : Text) : List Text :=
  pageFlags (linkerPage p.language) [.off "general.UseNewlibNano" "--specs=nano.specs"] c ++
    [libraryGroup (c.values (linkerPage p.language ++ "libraries.Libraries") ++ p.references.map (·.name))] ++
    pageFlags (linkerPage p.language) searchPathEntries c ++
    p.references.map (referenceSearchFlag outdir) ++
    pageFlags (linkerPage p.language) entriesAfterLibraries c

variable {c : Configuration} {p : Project} {outdir : Text} {caller : CallerFlags} {flags : ResolvedFlags}

theorem linkerFlags_eq_around_map (c : Configuration) (p : Project) (outdir : Text) : c.linkerFlags p outdir =
    pageFlags (linkerPage p.language) entriesBeforeMap c ++
      (if c.isOn (mapKey p.language) true then [mapFlag p.outputName] else []) ++ flagsBehindMap c p outdir := by
  have hentries : entriesBeforeLibraries p.outputName =
      entriesBeforeMap ++ [.on "general.GenerateMAPFile" (mapFlag p.outputName)] ++
        [.off "general.UseNewlibNano" "--specs=nano.specs"] := rfl
  have hmap : pageFlags (linkerPage p.language) [.on "general.GenerateMAPFile" (mapFlag p.outputName)] c =
      if c.isOn (mapKey p.language) true then [mapFlag p.outputName] else [] := List.append_nil _
  rw [linkerFlags_eq, hentries, pageFlags_append, pageFlags_append, hmap, flagsBehindMap]
  simp only [List.append_assoc]

/-! ## Entries that name no script -/

/-- The fixed parts of an entry make no script. -/
def PageEntry.IsQuiet : PageEntry → Prop
  | .switch _ _ flag => NamesNoScript flag
  | .level _ start marks preset =>
    (∀ mark ∈ marks, NamesNoScript (start ++ [mark])) ∧ ∀ flag ∈ preset, NamesNoScript flag
  | .freeText _ => True
  | .values _ before after => ∀ value, NamesNoScript value → NamesNoScript (before ++ value ++ after)

/-- What a configuration says on a page names no script. -/
def IsQuietPage (page : Text) (c : Configuration) : Prop :=
  ∀ property ∈ c.properties, page <+: property.name →
    NamesNoScript property.text ∧ ∀ value ∈ property.values, NamesNoScript value

section Quiet

variable {page : Text}

theorem IsQuietPage.text (h : IsQuietPage page c) {key text : Text} (htext : c.text? (page ++ key) = some text) :
    NamesNoScript text := by
  obtain ⟨property, hproperty, rfl⟩ := Option.map_eq_some_iff.1 htext
  have hname : property.name = page ++ key := by simpa using List.find?_some hproperty
  exact (h property (List.mem_of_find?_eq_some hproperty) ⟨key, hname.symm⟩).1

theorem IsQuietPage.values (h : IsQuietPage page c) {key value : Text} (hvalue : value ∈ c.values (page ++ key)) :
    NamesNoScript value := by
  unfold Configuration.values at hvalue
  cases hproperty : c.property? (page ++ key) with
  | none =>
    rw [hproperty] at hvalue
    cases hvalue
  | some property =>
    rw [hproperty] at hvalue
    have hname : property.name = page ++ key := by simpa using List.find?_some hproperty
    exact (h property (List.mem_of_find?_eq_some hproperty) ⟨key, hname.symm⟩).2 value hvalue

theorem exists_mark_of_firstLevel? {start : Text} {marks : List Char} {s flag : Text}
    (h : firstLevel? start marks s = some flag) : ∃ mark ∈ marks, flag = start ++ [mark] := by
  induction s with
  | nil => cases h
  | cons c s ih =>
    unfold firstLevel? at h
    split at h
    · next mark rest hrest =>
      split at h
      · next hmark => exact ⟨mark, hmark, (Option.some.inj h).symm⟩
      · exact ih h
    · exact ih h

/-- What a switch adds is fixed, whatever the configuration says. -/
theorem namesNoScript_of_mem_switch {key on flag : Text} {preset : Bool} (hon : NamesNoScript on)
    (hflag : flag ∈ (PageEntry.switch key preset on).flags page c) : NamesNoScript flag := by
  rw [PageEntry.flags] at hflag
  split at hflag
  · rw [List.mem_singleton.1 hflag]
    exact hon
  · cases hflag

/-- A quiet entry of a quiet page makes flags that name no script. -/
theorem namesNoScript_of_mem_flags (h : IsQuietPage page c) {entry : PageEntry} (hentry : entry.IsQuiet) {flag : Text}
    (hflag : flag ∈ entry.flags page c) : NamesNoScript flag := by
  cases entry with
  | switch key preset on => exact namesNoScript_of_mem_switch hentry hflag
  | level key start marks preset =>
    rw [PageEntry.flags] at hflag
    split at hflag
    · obtain ⟨mark, hmark, rfl⟩ := exists_mark_of_firstLevel? (Option.mem_toList.1 hflag)
      exact hentry.1 mark hmark
    · exact hentry.2 flag hflag
  | freeText key =>
    obtain ⟨hflag, -⟩ := List.mem_filter.1 hflag
    exact h.text (Option.mem_toList.1 hflag)
  | values key before after =>
    obtain ⟨value, hvalue, rfl⟩ := List.mem_map.1 hflag
    exact hentry value (h.values hvalue)

theorem namesNoScript_of_mem_pageFlags (h : IsQuietPage page c) {entries : List PageEntry}
    (hentries : ∀ entry ∈ entries, entry.IsQuiet) {flag : Text} (hflag : flag ∈ pageFlags page entries c) :
    NamesNoScript flag := by
  obtain ⟨entry, hentry, hflag⟩ := List.mem_flatMap.1 hflag
  exact namesNoScript_of_mem_flags h (hentries entry hentry) hflag

end Quiet

/-! ## Names that name no script -/

theorem namesNoScript_mapFlag_iff {name : Text} : NamesNoScript (mapFlag name) ↔ NamesNoScript name := by
  have hflag : mapFlag name = ("-Wl,-Map=" : Text) ++ '"' :: (name ++ '.' :: ("map\"" : Text)) := by
    unfold mapFlag
    simp
  rw [hflag, namesNoScript_append_cons (by decide), namesNoScript_append_cons (by decide)]
  exact ⟨fun h => h.2.1, fun h => ⟨by decide, h, by decide⟩⟩

theorem linkerScript?_mapFlag_eq_none_iff {name : Text} :
    linkerScript? [mapFlag name] = none ↔ NamesNoScript name := by
  rw [linkerScript?_eq_none_iff, List.forall_mem_singleton, namesNoScript_mapFlag_iff]

theorem NamesNoScript.bareName {name : Text} (h : NamesNoScript name) : NamesNoScript (bareName name) := by
  have hinfix : CprojNinja.bareName name <:+: name :=
    (Text.withoutEnd_prefix _ _).isInfix.trans (Text.withoutStart_suffix _ _).isInfix
  unfold NamesNoScript at *
  rw [Bool.eq_false_iff, ne_eq, Text.occursIn_iff] at *
  exact fun hmark => h (hmark.trans hinfix)

theorem namesNoScript_libraries {libraries : List Text} (h : ∀ name ∈ libraries, NamesNoScript name) {start : Text}
    (hstart : NamesNoScript start) :
    NamesNoScript (start ++ libraries.flatMap libraryFlag ++ " -Wl,--end-group") := by
  induction libraries generalizing start with
  | nil =>
    show NamesNoScript (start ++ [] ++ ' ' :: ("-Wl,--end-group" : Text))
    rw [List.append_nil, namesNoScript_append_cons (by decide)]
    exact ⟨hstart, by decide⟩
  | cons name libraries ih =>
    obtain ⟨hname, hrest⟩ := List.forall_mem_cons.1 h
    have hflag : start ++ (name :: libraries).flatMap libraryFlag ++ " -Wl,--end-group" =
        start ++ ' ' :: ((['-'] ++ 'l' :: bareName name) ++ libraries.flatMap libraryFlag ++ " -Wl,--end-group") := by
      simp [libraryFlag]
    rw [hflag, namesNoScript_append_cons (by decide)]
    refine ⟨hstart, ih hrest ?_⟩
    rw [namesNoScript_append_cons (by decide)]
    exact ⟨by decide, hname.bareName⟩

theorem namesNoScript_libraryGroup {libraries : List Text} (h : ∀ name ∈ libraries, NamesNoScript name) :
    NamesNoScript (libraryGroup libraries) := by
  unfold libraryGroup
  exact namesNoScript_libraries h (by decide)

theorem namesNoScript_referenceSearchFlag {r : Reference} (hdirectory : NamesNoScript r.directory)
    (houtdir : NamesNoScript outdir) : NamesNoScript (referenceSearchFlag outdir r) := by
  have hflag : referenceSearchFlag outdir r =
      ("-L\".." : Text) ++ '/' :: (r.directory ++ '/' :: (outdir ++ '"' :: [])) := by
    unfold referenceSearchFlag Reference.buildDirectory
    simp
  rw [hflag, namesNoScript_append_cons (by decide), namesNoScript_append_cons (by decide),
    namesNoScript_append_cons (by decide)]
  exact ⟨by decide, hdirectory, houtdir, by decide⟩

/-! ## The script of a program -/

theorem linkerScript?_entriesBeforeMap (page : Text) (c : Configuration) :
    linkerScript? (pageFlags page entriesBeforeMap c) = none := by
  rw [linkerScript?_eq_none_iff]
  intro flag hflag
  obtain ⟨entry, hentry, hflag⟩ := List.mem_flatMap.1 hflag
  simp only [entriesBeforeMap, PageEntry.off, List.mem_cons, List.not_mem_nil, or_false] at hentry
  rcases hentry with rfl | rfl | rfl | rfl | rfl <;> exact namesNoScript_of_mem_switch (by decide) hflag

/-- The last place where a script may be named decides. -/
theorem linkerScript?_final (hselected : p.selected = some c) (hprogram : p.isArchive = false)
    (hflags : p.resolveFlags caller outdir = .ok flags) : linkerScript? flags.final =
      (linkerScript? (flagsBehindMap c p outdir)).or
        ((if c.isOn (mapKey p.language) true then linkerScript? [mapFlag p.outputName] else none).or
          (linkerScript? caller.flags)) := by
  rw [final_of_resolveFlags hselected hprogram hflags, linkerFlags_eq_around_map, linkerScript?_append,
    linkerScript?_append, linkerScript?_append, linkerScript?_entriesBeforeMap, Option.or_none, Option.or_assoc]
  split <;> rfl

theorem isQuiet_searchPathEntries : ∀ entry ∈ searchPathEntries, entry.IsQuiet := by
  intro entry hentry
  rw [List.mem_singleton.1 hentry]
  intro value hvalue
  show NamesNoScript (("-L" : Text) ++ '"' :: (value ++ '"' :: []))
  rw [namesNoScript_append_cons (by decide), namesNoScript_append_cons (by decide)]
  exact ⟨by decide, hvalue, by decide⟩

theorem isQuiet_entriesAfterLibraries : ∀ entry ∈ entriesAfterLibraries, entry.IsQuiet := by
  have hoption : (PageEntry.values "miscellaneous.OtherOptions" "-Xlinker " []).IsQuiet := by
    intro value hvalue
    rw [List.append_nil]
    show NamesNoScript (("-Xlinker" : Text) ++ ' ' :: value)
    exact (namesNoScript_append_cons (by decide)).2 ⟨by decide, hvalue⟩
  have hobject : (PageEntry.values "miscellaneous.OtherObjects" [] []).IsQuiet := by
    intro value hvalue
    rwa [List.append_nil]
  have hswitch (key on : Text) (hon : NamesNoScript on) : (PageEntry.off key on).IsQuiet := hon
  unfold entriesAfterLibraries
  simp only [List.forall_mem_cons, List.not_mem_nil, false_implies, implies_true, and_true]
  exact ⟨hswitch _ _ (by decide), hswitch _ _ (by decide), hswitch _ _ (by decide), hswitch _ _ (by decide), trivial,
    hoption, hobject⟩

/-- No flag of a quiet linker page names a script, if the names around it do not. -/
theorem namesNoScript_flagsBehindMap (hpage : IsQuietPage (linkerPage p.language) c) (houtdir : NamesNoScript outdir)
    (hreferences : ∀ r ∈ p.references, NamesNoScript r.directory ∧ NamesNoScript r.name) :
    ∀ flag ∈ flagsBehindMap c p outdir, NamesNoScript flag := by
  have hnano : ∀ entry ∈ [PageEntry.off "general.UseNewlibNano" "--specs=nano.specs"], entry.IsQuiet := by
    intro entry hentry
    rw [List.mem_singleton.1 hentry]
    show NamesNoScript "--specs=nano.specs"
    decide
  intro flag hflag
  unfold flagsBehindMap at hflag
  simp only [List.mem_append, List.mem_singleton, List.mem_map] at hflag
  rcases hflag with (((hflag | rfl) | hflag) | ⟨r, hr, rfl⟩) | hflag
  · exact namesNoScript_of_mem_pageFlags hpage hnano hflag
  · refine namesNoScript_libraryGroup fun name hname => ?_
    rcases List.mem_append.1 hname with hname | hname
    · exact hpage.values hname
    · obtain ⟨r, hr, rfl⟩ := List.mem_map.1 hname
      exact (hreferences r hr).2
  · exact namesNoScript_of_mem_pageFlags hpage isQuiet_searchPathEntries hflag
  · exact namesNoScript_referenceSearchFlag (hreferences r hr).1 houtdir
  · exact namesNoScript_of_mem_pageFlags hpage isQuiet_entriesAfterLibraries hflag

/-- What a program depends on is its script and the archives of its references. -/
theorem linkEdges_script {programs : Executables} {f : File} (hprogram : p.isArchive = false)
    (hgraph : p.graph flags programs outdir = .ok f) (hcompiled : f.compileEdges ≠ []) :
    ∃ e, f.linkEdges = [e] ∧ e.implicit = ((linkerScript? flags.final).map sourcePath).toList ++
      p.references.map fun r => siblingPath (r.archivePath outdir) :=
  ⟨_, linkEdges_graph hgraph hprogram hcompiled, implicit_lastEdge hprogram _⟩

theorem map_sourcePath_toList_inj {first second : Option Text} :
    (first.map sourcePath).toList = (second.map sourcePath).toList ↔ first = second := by
  have hinjective : Function.Injective sourcePath := fun _ _ h => List.append_cancel_left h
  constructor
  · intro h
    refine Option.map_injective hinjective ?_
    cases hfirst : first.map sourcePath <;> cases hsecond : second.map sourcePath <;> simp_all
  · rintro rfl
    rfl

/-- Only where nothing behind it decides it matters what a place says. -/
theorem or_or_eq_iff {behind first second last : Option Text} {on : Bool} :
    behind.or ((if on then first else none).or last) = behind.or ((if on then second else none).or last) ↔
      behind.isSome ∨ on = false ∨ first.or last = second.or last := by
  cases behind <;> cases on <;> simp

/-! ## Two names for one project -/

/-- The name of the output is all that it decides in the project. -/
theorem ofDocument_outputName {output₁ output₂ : Text} {root : Node} {p₁ p₂ : Project}
    (h₁ : Project.ofDocument output₁ root = .ok p₁) (h₂ : Project.ofDocument output₂ root = .ok p₂) :
    p₂ = { p₁ with outputName := p₂.outputName } := by
  obtain ⟨-, references₁, hreferences₁, rfl⟩ := Project.ofDocument_eq_ok_iff.1 h₁
  obtain ⟨-, references₂, hreferences₂, rfl⟩ := Project.ofDocument_eq_ok_iff.1 h₂
  cases hreferences₁.symm.trans hreferences₂
  rfl

/-- Two builds of one project under different names depend on the same files just if some flag behind the one for the
map file names a script, or there is no such flag, or it names the same script in both, where the flags of the caller
count if it names none. That is so if neither name of the output holds a `-T`. And if neither the caller's flags nor the
linker page nor any of the names do, a program depends on no script at all. -/
theorem implicit_eq_iff_of_outputs {output₁ output₂ name : Text} {root : Node} {p₁ p₂ : Project}
    {flags₁ flags₂ : ResolvedFlags} {programs : Executables} {f₁ f₂ : File}
    (h₁ : Project.ofDocument output₁ root = .ok p₁) (h₂ : Project.ofDocument output₂ root = .ok p₂)
    (hprogram : p₁.isArchive = false) (hselected : (p₁.select name).selected = some c)
    (hflags₁ : (p₁.select name).resolveFlags caller outdir = .ok flags₁)
    (hflags₂ : (p₂.select name).resolveFlags caller outdir = .ok flags₂)
    (hgraph₁ : (p₁.select name).graph flags₁ programs outdir = .ok f₁)
    (hgraph₂ : (p₂.select name).graph flags₂ programs outdir = .ok f₂) (hcompiled : f₁.compileEdges ≠ []) :
    ∃ e₁ e₂, f₁.linkEdges = [e₁] ∧ f₂.linkEdges = [e₂] ∧
      (e₁.implicit = e₂.implicit ↔
        (linkerScript? (flagsBehindMap c p₁ outdir)).isSome ∨ c.isOn (mapKey p₁.language) true = false ∨
          (linkerScript? [mapFlag p₁.outputName]).or (linkerScript? caller.flags) =
            (linkerScript? [mapFlag p₂.outputName]).or (linkerScript? caller.flags)) ∧
      (NamesNoScript p₁.outputName → NamesNoScript p₂.outputName → e₁.implicit = e₂.implicit) ∧
      ((∀ flag ∈ caller.flags, NamesNoScript flag) → IsQuietPage (linkerPage p₁.language) c →
        NamesNoScript p₁.outputName → NamesNoScript outdir →
        (∀ r ∈ p₁.references, NamesNoScript r.directory ∧ NamesNoScript r.name) →
        e₁.implicit = p₁.references.map fun r => siblingPath (r.archivePath outdir)) := by
  -- from here on there is one project with two names, so all that is read off `p₁` holds of both runs
  obtain ⟨outputName, rfl⟩ : ∃ outputName, p₂ = { p₁ with outputName } := ⟨_, ofDocument_outputName h₁ h₂⟩
  have hcompiled₂ : f₂.compileEdges ≠ [] := by
    rw [compileEdges_graph hgraph₁] at hcompiled
    rw [compileEdges_graph hgraph₂]
    exact hcompiled
  have hscript₁ := linkerScript?_final hselected hprogram hflags₁
  have hscript₂ := linkerScript?_final (p := Project.select { p₁ with outputName } name) hselected hprogram hflags₂
  obtain ⟨e₁, he₁, himplicit₁⟩ := linkEdges_script hprogram hgraph₁ hcompiled
  obtain ⟨e₂, he₂, himplicit₂⟩ :=
    linkEdges_script (p := Project.select { p₁ with outputName } name) hprogram hgraph₂ hcompiled₂
  have hiff : e₁.implicit = e₂.implicit ↔
      (linkerScript? (flagsBehindMap c p₁ outdir)).isSome ∨ c.isOn (mapKey p₁.language) true = false ∨
        (linkerScript? [mapFlag p₁.outputName]).or (linkerScript? caller.flags) =
          (linkerScript? [mapFlag outputName]).or (linkerScript? caller.flags) := by
    rw [himplicit₁, himplicit₂]
    refine (List.append_left_inj _).trans (map_sourcePath_toList_inj.trans ?_)
    rw [hscript₁, hscript₂]
    exact or_or_eq_iff
  refine ⟨e₁, e₂, he₁, he₂, hiff, fun hname₁ hname₂ => ?_, fun hcaller hpage hname houtdir hreferences => ?_⟩
  · rw [hiff, linkerScript?_mapFlag_eq_none_iff.2 hname₁, linkerScript?_mapFlag_eq_none_iff.2 hname₂]
    exact Or.inr (Or.inr rfl)
  · have hbehind : linkerScript? (flagsBehindMap c (p₁.select name) outdir) = none :=
      linkerScript?_eq_none_iff.2 (namesNoScript_flagsBehindMap hpage houtdir hreferences)
    have hnone : linkerScript? flags₁.final = none := by
      have hmap : linkerScript? [mapFlag (p₁.select name).outputName] = none :=
        linkerScript?_mapFlag_eq_none_iff.2 hname
      rw [hscript₁, hbehind, linkerScript?_eq_none_iff.2 hcaller, hmap]
      split <;> rfl
    rw [himplicit₁, hnone]
    rfl

/-- Two names without a script, and a reference. -/
theorem implicit_eq_iff_of_outputs_quiet :
    let root : Node := .programDocument [
      .item "Compile" "main.c", .item "ProjectReference" "../Centre/Centre.cproj"]
    ∃ p₁ p₂ flags₁ flags₂ f₁ f₂ e₁ e₂, Project.ofDocument "rover" root = .ok p₁ ∧
      Project.ofDocument "tracker" root = .ok p₂ ∧
      (p₁.select "Debug").resolveFlags {} "Debug" = .ok flags₁ ∧
      (p₂.select "Debug").resolveFlags {} "Debug" = .ok flags₂ ∧
      (p₁.select "Debug").graph flags₁ ⟨"gcc", "g++", "ar", "gcc"⟩ "Debug" = .ok f₁ ∧
      (p₂.select "Debug").graph flags₂ ⟨"gcc", "g++", "ar", "gcc"⟩ "Debug" = .ok f₂ ∧
      f₁.linkEdges = [e₁] ∧ f₂.linkEdges = [e₂] ∧ e₁.implicit = e₂.implicit := by
  intro root
  have hidentity : Project.HasIdentity root := Project.hasIdentity_programDocument _
  obtain ⟨p₁, h₁⟩ := Project.exists_ofDocument_eq_ok hidentity (by decide) "rover"
  obtain ⟨p₂, h₂⟩ := Project.exists_ofDocument_eq_ok hidentity (by decide) "tracker"
  obtain ⟨hselected, hprogram, flags₁, f₁, hflags₁, hgraph₁, hcompiled⟩ := exists_graph_programDocument h₁ (by decide)
  obtain ⟨-, -, flags₂, f₂, hflags₂, hgraph₂, -⟩ := exists_graph_programDocument h₂ (by decide)
  have hname₁ : NamesNoScript p₁.outputName := by
    rw [(Project.ofDocument_programDocument h₁).2.2.1]
    decide
  have hname₂ : NamesNoScript p₂.outputName := by
    rw [(Project.ofDocument_programDocument h₂).2.2.1]
    decide
  obtain ⟨e₁, e₂, he₁, he₂, -, hsame, -⟩ :=
    implicit_eq_iff_of_outputs h₁ h₂ hprogram hselected hflags₁ hflags₂ hgraph₁ hgraph₂ hcompiled
  exact ⟨p₁, p₂, flags₁, flags₂, f₁, f₂, e₁, e₂, h₁, h₂, hflags₁, hflags₂, hgraph₁, hgraph₂, he₁, he₂,
    hsame hname₁ hname₂⟩

/-- The script of a short document without linker flags can only come from its name. -/
theorem exists_linkEdge_programDocument (output : Text) :
    let root : Node := .programDocument [.item "Compile" "main.c"]
    ∃ p flags f e, Project.ofDocument output root = .ok p ∧
      (p.select "Debug").resolveFlags {} "Debug" = .ok flags ∧
      (p.select "Debug").graph flags ⟨"gcc", "g++", "ar", "gcc"⟩ "Debug" = .ok f ∧ f.linkEdges = [e] ∧
      e.implicit = ((linkerScript? [mapFlag (Text.replaceAll Project.nameVariable output Project.nameVariable)]).map
        sourcePath).toList := by
  intro root
  have hidentity : Project.HasIdentity root := Project.hasIdentity_programDocument _
  obtain ⟨p, hp⟩ := Project.exists_ofDocument_eq_ok hidentity (by decide) output
  obtain ⟨hselected, hprogram, flags, f, hflags, hgraph, hcompiled⟩ := exists_graph_programDocument hp (by decide)
  obtain ⟨e, he, himplicit⟩ := linkEdges_script hprogram hgraph hcompiled
  have hreferences : p.references = [] := List.map_eq_nil_iff.1 (Project.references_of_ofDocument hp)
  have hbehind : linkerScript? (flagsBehindMap ⟨"Debug", []⟩ (p.select "Debug") "Debug") = none := by
    refine linkerScript?_eq_none_iff.2 (namesNoScript_flagsBehindMap (fun _ h => by cases h) (by decide) ?_)
    show ∀ r ∈ p.references, _
    simp [hreferences]
  have hname : (p.select "Debug").outputName = Text.replaceAll Project.nameVariable output Project.nameVariable :=
    (Project.ofDocument_programDocument hp).2.2.1
  have hscript := linkerScript?_final hselected hprogram hflags
  have hon : Configuration.isOn ⟨"Debug", []⟩ (mapKey (p.select "Debug").language) true = true := rfl
  have hcaller : linkerScript? ({} : CallerFlags).flags = none := rfl
  rw [hbehind, hname, hon, hcaller, if_pos rfl, Option.none_or, Option.or_none] at hscript
  refine ⟨p, flags, f, e, hp, hflags, hgraph, he, ?_⟩
  rw [himplicit, hscript, hreferences]
  exact List.append_nil _

/-- A name with a `-T` in it: what follows that in the name of the map file is taken for a script. -/
theorem implicit_of_outputs_marked :
    let root : Node := .programDocument [.item "Compile" "main.c"]
    ∃ p₁ p₂ flags₁ flags₂ f₁ f₂ e₁ e₂, Project.ofDocument "rover" root = .ok p₁ ∧
      Project.ofDocument "rover-Test" root = .ok p₂ ∧
      (p₁.select "Debug").resolveFlags {} "Debug" = .ok flags₁ ∧
      (p₂.select "Debug").resolveFlags {} "Debug" = .ok flags₂ ∧
      (p₁.select "Debug").graph flags₁ ⟨"gcc", "g++", "ar", "gcc"⟩ "Debug" = .ok f₁ ∧
      (p₂.select "Debug").graph flags₂ ⟨"gcc", "g++", "ar", "gcc"⟩ "Debug" = .ok f₂ ∧
      f₁.linkEdges = [e₁] ∧ f₂.linkEdges = [e₂] ∧ e₁.implicit = [] ∧ e₂.implicit = ["$src/est.map\""] := by
  intro root
  obtain ⟨p₁, flags₁, f₁, e₁, h₁, hflags₁, hgraph₁, he₁, himplicit₁⟩ := exists_linkEdge_programDocument "rover"
  obtain ⟨p₂, flags₂, f₂, e₂, h₂, hflags₂, hgraph₂, he₂, himplicit₂⟩ := exists_linkEdge_programDocument "rover-Test"
  refine ⟨p₁, p₂, flags₁, flags₂, f₁, f₂, e₁, e₂, h₁, h₂, hflags₁, hflags₂, hgraph₁, hgraph₂, he₁, he₂, ?_, ?_⟩
  · rw [himplicit₁]
    decide
  · rw [himplicit₂]
    decide

end CprojNinja
