import CprojNinja.Proofs.LinkFlags

/-!
# Properties that count

The flags of a build are read off some pages of the selected configuration: the C page, the C++ page if the project is
in C++, and the page of the one step that puts the object files together. The names of all properties of a page start
with the name of the page, and no page has a name that another one starts with.

Main statement: properties of other pages do not matter. Two projects that differ only there have the same flags, down
to the violation that may take their place, and the same graph.
-/

namespace CprojNinja

open Ninja (File)

/-- The name of the archiver page of a language. -/
def archiverPage (language : Language) : Text := language.keyStart ++ ".archiver."

namespace Project

/-- Whether a property of this name counts for a build of a project. -/
def Reads (p : Project) (key : Text) : Prop :=
  compilerPage .c <+: key ∨ p.isCpp = true ∧ compilerPage .cpp <+: key ∨
    (if p.isArchive then archiverPage p.language else linkerPage p.language) <+: key

instance (p : Project) (key : Text) : Decidable (p.Reads key) := inferInstanceAs (Decidable (_ ∨ _ ∧ _ ∨ _))

/-- All of a project that has nothing to do with its configurations. -/
def identity (p : Project) : Project := { p with configurations := [], selected := none }

end Project

/-! ## One page -/

namespace Configuration

/-- Whether two configurations have the same properties, as far as a name counts. -/
def AgreeOn (counts : Text → Prop) (c d : Configuration) : Prop :=
  ∀ key, counts key → c.property? key = d.property? key

variable {c d : Configuration} {counts : Text → Prop} {page : Text}

theorem AgreeOn.mono {fewer : Text → Prop} (h : c.AgreeOn counts d) (hfewer : ∀ key, fewer key → counts key) :
    c.AgreeOn fewer d :=
  fun key hkey => h key (hfewer key hkey)

/-- A property that does not count may be left out. -/
theorem agreeOn_cons {property : Property} (h : ¬ counts property.name) (name : Text) (properties : List Property) :
    AgreeOn counts ⟨name, property :: properties⟩ ⟨name, properties⟩ := by
  intro key hkey
  have hne : property.name ≠ key := by
    rintro rfl
    exact h hkey
  exact List.find?_cons_of_neg (by simpa using hne)

theorem AgreeOn.text?_eq (h : c.AgreeOn counts d) {key : Text} (hkey : counts key) : c.text? key = d.text? key := by
  rw [text?, text?, h key hkey]

theorem AgreeOn.isOn_eq (h : c.AgreeOn counts d) {key : Text} (hkey : counts key) (preset : Bool) :
    c.isOn key preset = d.isOn key preset := by
  rw [isOn, isOn, h.text?_eq hkey]

theorem AgreeOn.values_eq (h : c.AgreeOn counts d) {key : Text} (hkey : counts key) : c.values key = d.values key := by
  rw [values, values, h key hkey]

/-- An entry reads one property of its page. -/
theorem AgreeOn.flags_eq (h : c.AgreeOn (page <+: ·) d) (entry : PageEntry) :
    entry.flags page c = entry.flags page d := by
  have hkey (key : Text) : page <+: page ++ key := List.prefix_append page key
  cases entry with
  | switch key preset flag => rw [PageEntry.flags, PageEntry.flags, h.isOn_eq (hkey key)]
  | level key start marks preset => rw [PageEntry.flags, PageEntry.flags, h.text?_eq (hkey key)]
  | freeText key => rw [PageEntry.flags, PageEntry.flags, h.text?_eq (hkey key)]
  | values key before after => rw [PageEntry.flags, PageEntry.flags, h.values_eq (hkey key)]

theorem AgreeOn.pageFlags_eq (h : c.AgreeOn (page <+: ·) d) (entries : List PageEntry) :
    pageFlags page entries c = pageFlags page entries d :=
  List.flatMap_congr fun entry _ => h.flags_eq entry

theorem AgreeOn.compilerFlags_eq {language : Language} (h : c.AgreeOn (compilerPage language <+: ·) d)
    (changes : SymbolChanges) : c.compilerFlags language changes = d.compilerFlags language changes := by
  have hdefined : c.definedSymbols language = d.definedSymbols language := h.values_eq (List.prefix_append _ _)
  have hundefined : c.undefinedSymbols language = d.undefinedSymbols language := h.values_eq (List.prefix_append _ _)
  unfold compilerFlags
  rw [hdefined, hundefined, h.pageFlags_eq entriesBeforeSymbols, h.pageFlags_eq entriesAfterSymbols]

theorem AgreeOn.linkerFlags_eq {p : Project} (h : c.AgreeOn (linkerPage p.language <+: ·) d) (outdir : Text) :
    c.linkerFlags p outdir = d.linkerFlags p outdir := by
  rw [CprojNinja.linkerFlags_eq, CprojNinja.linkerFlags_eq, h.values_eq (List.prefix_append _ _),
    h.pageFlags_eq (entriesBeforeLibraries p.outputName), h.pageFlags_eq searchPathEntries,
    h.pageFlags_eq entriesAfterLibraries]

theorem AgreeOn.archiverFlags_eq {language : Language} (h : c.AgreeOn (archiverPage language <+: ·) d) :
    c.archiverFlags language = d.archiverFlags language := by
  have hkey : archiverPage language <+: archiverKey language := by cases language <;> decide
  rw [archiverFlags, archiverFlags, h.text?_eq hkey]

end Configuration

/-! ## All pages of a build -/

namespace Project

variable {p q : Project} {c d : Configuration}

theorem eq_of_identity_eq (h : p.identity = q.identity) :
    q = { p with configurations := q.configurations, selected := q.selected } := by
  cases p
  cases q
  cases h
  rfl

/-- Without a selection the first property that is asked for is the first one of the C page. -/
theorem resolveFlags_of_selected_eq_none (h : p.selected = none) (caller : CallerFlags) (outdir : Text) :
    p.resolveFlags caller outdir =
      .error (.noSelection (compilerPage .c ++ "general.ChangeDefaultCharTypeUnsigned")) := by
  unfold resolveFlags pageFlagsFor compilerFlags configurationFor
  rw [h]
  rfl

theorem compilerFlags_c_congr (h : c.AgreeOn p.Reads d) (changes : SymbolChanges) :
    c.compilerFlags .c changes = d.compilerFlags .c changes :=
  (h.mono fun _ hkey => Or.inl hkey).compilerFlags_eq changes

/-- The C++ page counts only if there may be C++ sources. -/
theorem compilerFlags_cpp_congr (h : c.AgreeOn p.Reads d) (changes : SymbolChanges) :
    (if p.isCpp then some <$> c.compilerFlags .cpp changes else .ok none) =
      if p.isCpp then some <$> d.compilerFlags .cpp changes else .ok none := by
  by_cases hcpp : p.isCpp = true
  · rw [if_pos hcpp, if_pos hcpp, (h.mono fun _ hkey => Or.inr (Or.inl ⟨hcpp, hkey⟩)).compilerFlags_eq changes]
  · rw [if_neg hcpp, if_neg hcpp]

/-- An archive is made with the archiver page, a program with the linker page. -/
theorem final_congr (h : c.AgreeOn p.Reads d) (flags : List Text) (outdir : Text) :
    (if p.isArchive then c.archiverFlags p.language else flags ++ c.linkerFlags p outdir) =
      if p.isArchive then d.archiverFlags p.language else flags ++ d.linkerFlags p outdir := by
  by_cases harchive : p.isArchive = true
  · have hpage : c.AgreeOn (archiverPage p.language <+: ·) d :=
      h.mono fun key hkey => Or.inr (Or.inr (by rwa [if_pos harchive]))
    rw [if_pos harchive, if_pos harchive, hpage.archiverFlags_eq]
  · have hpage : c.AgreeOn (linkerPage p.language <+: ·) d :=
      h.mono fun key hkey => Or.inr (Or.inr (by rwa [if_neg harchive]))
    rw [if_neg harchive, if_neg harchive, hpage.linkerFlags_eq]

/-- The flags of a build are read off the properties that count. -/
theorem resolveFlags_congr (hidentity : p.identity = q.identity)
    (hselected : Option.Rel (fun c d => c.AgreeOn p.Reads d) p.selected q.selected) (caller : CallerFlags)
    (outdir : Text) : p.resolveFlags caller outdir = q.resolveFlags caller outdir := by
  rw [eq_of_identity_eq hidentity]
  generalize q.configurations = configurations, q.selected = selected at *
  cases hp : p.selected with
  | none =>
    rw [hp] at hselected
    cases hselected
    rw [resolveFlags_of_selected_eq_none hp, resolveFlags_of_selected_eq_none rfl]
  | some c =>
    rw [hp] at hselected
    cases hselected with
    | some hagree =>
      rw [resolveFlags_of_selected hp, compilerFlags_c_congr hagree, compilerFlags_cpp_congr hagree,
        final_congr hagree, resolveFlags_of_selected rfl]
      rfl

/-- The graph of a project is made from its flags, whatever its configurations are. -/
theorem graph_congr (hidentity : p.identity = q.identity) (flags : ResolvedFlags) (programs : Executables)
    (outdir : Text) : p.graph flags programs outdir = q.graph flags programs outdir := by
  rw [eq_of_identity_eq hidentity]
  rfl

/-! ## Pages that do not count -/

/-- Whether none of two names starts with the other. -/
def Apart (first second : Text) : Prop := ¬ first <+: second ∧ ¬ second <+: first

instance (first second : Text) : Decidable (Apart first second) := inferInstanceAs (Decidable (_ ∧ _))

section Apart

variable {start key : Text} {language : Language}

theorem Apart.not_startsWith {page : Text} (h : Apart start page) (hkey : start <+: key) : ¬ page <+: key :=
  fun hpage => (List.prefix_or_prefix_of_prefix hkey hpage).elim h.1 h.2

/-- A name does not count if its start is apart from all pages of the build. -/
theorem not_reads_of_apart (hkey : start <+: key) (hc : Apart start (compilerPage .c))
    (hcpp : p.isCpp = true → Apart start (compilerPage .cpp))
    (hlast : Apart start (if p.isArchive then archiverPage p.language else linkerPage p.language)) : ¬ p.Reads key := by
  rintro (hpage | ⟨hp, hpage⟩ | hpage)
  · exact hc.not_startsWith hkey hpage
  · exact (hcpp hp).not_startsWith hkey hpage
  · exact hlast.not_startsWith hkey hpage

/-- The linker pages have nothing to say about an archive. -/
theorem not_reads_linkerPage (harchive : p.isArchive = true) (hkey : linkerPage language <+: key) : ¬ p.Reads key := by
  refine not_reads_of_apart hkey (by cases language <;> decide) (fun _ => by cases language <;> decide) ?_
  rw [if_pos harchive]
  cases language <;> cases p.language <;> decide

/-- The archiver pages have nothing to say about a program. -/
theorem not_reads_archiverPage (hprogram : p.isArchive = false) (hkey : archiverPage language <+: key) :
    ¬ p.Reads key := by
  refine not_reads_of_apart hkey (by cases language <;> decide) (fun _ => by cases language <;> decide) ?_
  rw [hprogram, if_neg Bool.false_ne_true]
  cases language <;> cases p.language <;> decide

/-- No page for C++ has anything to say about a C project. -/
theorem not_reads_cpp (hc : p.isCpp = false) (hkey : Language.cpp.keyStart <+: key) : ¬ p.Reads key := by
  have hlanguage : p.language = .c := by
    cases hlanguage : p.language with
    | c => rfl
    | cpp => simp [isCpp, hlanguage] at hc
  refine not_reads_of_apart hkey (by decide) (fun hcpp => absurd hcpp (by simp [hc])) ?_
  rw [hlanguage]
  split <;> decide

end Apart

/-- Two projects with the same configuration selected, which differ in nothing but properties of that configuration that
do not count, have the same flags for every caller, or violate the same contract, and so the same graph and the same
text. The properties of a linker page do not count for an archive, those of an archiver page not for a program, and
those of a C++ page not for a C project. -/
theorem resolveFlags_eq_of_unread (hidentity : p.identity = q.identity)
    (hselected : Option.Rel (fun c d => c.name = d.name ∧ ∀ key, p.Reads key → c.property? key = d.property? key)
      p.selected q.selected) :
    (∀ caller outdir, p.resolveFlags caller outdir = q.resolveFlags caller outdir) ∧
      (∀ flags programs outdir, p.graph flags programs outdir = q.graph flags programs outdir ∧
        (p.graph flags programs outdir).map File.text = (q.graph flags programs outdir).map File.text) ∧
      (p.isArchive = true → ∀ language key, linkerPage language <+: key → ¬ p.Reads key) ∧
      (p.isArchive = false → ∀ language key, archiverPage language <+: key → ¬ p.Reads key) ∧
      (p.isCpp = false → ∀ key, Language.cpp.keyStart <+: key → ¬ p.Reads key) := by
  have hagree : Option.Rel (fun c d => c.AgreeOn p.Reads d) p.selected q.selected := by
    generalize p.selected = selected, q.selected = selected' at hselected
    cases hselected with
    | none => exact .none
    | some h => exact .some h.2
  refine ⟨resolveFlags_congr hidentity hagree, fun flags programs outdir => ?_, ?_, ?_, ?_⟩
  · rw [graph_congr hidentity]
    exact ⟨rfl, rfl⟩
  · exact fun harchive language key => not_reads_linkerPage harchive
  · exact fun hprogram language key => not_reads_archiverPage hprogram
  · exact fun hc key => not_reads_cpp hc

/-- An archive in C, once with a linker script and a level for C++, once without. -/
theorem resolveFlags_eq_of_unread_archive :
    let p (properties : List Property) : Project := {
      language := .c, outputKind := .archive, outputName := "rover", outputExtension := ".a"
      toolchain := ⟨"7.0", "com.Atmel.ARMGCC.C", "Native"⟩, references := [], sources := ["main.c"]
      configurations := [⟨"Debug", properties⟩], selected := some ⟨"Debug", properties⟩ }
    let first := p [⟨"armgcc.linker.miscellaneous.LinkerFlags", "-T../flash.ld", []⟩,
      ⟨"armgcccpp.compiler.optimization.level", "Optimize most (-O3)", []⟩,
      ⟨"armgcc.compiler.optimization.level", "Optimize (-O1)", []⟩]
    let second := p [⟨"armgcc.compiler.optimization.level", "Optimize (-O1)", []⟩]
    first.resolveFlags {} "Debug" = second.resolveFlags {} "Debug" := by
  intro p first second
  have hlinker : ¬ first.Reads "armgcc.linker.miscellaneous.LinkerFlags" := by decide
  have hcpp : ¬ first.Reads "armgcccpp.compiler.optimization.level" := by decide
  have hselected : Option.Rel (fun c d : Configuration => c.name = d.name ∧
      ∀ key, first.Reads key → c.property? key = d.property? key) first.selected second.selected :=
    .some ⟨rfl, fun key hkey => (Configuration.agreeOn_cons hlinker _ _ key hkey).trans
      (Configuration.agreeOn_cons hcpp _ _ key hkey)⟩
  have hidentity : first.identity = second.identity := by simp only [identity, first, second, p]
  exact (resolveFlags_eq_of_unread hidentity hselected).1 {} "Debug"

end Project

end CprojNinja
