import CprojNinja.Proofs.PropertyReads
import CprojNinja.Proofs.SymbolFlags

/-!
# What the caller changes

A caller changes the flags of a build in two ways: by symbols, which become flags in one place of a compiler page, and by
flags of its own, which stand before all others.

Main statement: the flags around those for symbols are read off the page alone, and an archiver gets nothing from the
caller.
-/

namespace CprojNinja

variable {p : Project} {c d : Configuration} {page : Language} {changes : SymbolChanges} {caller : CallerFlags}
  {outdir : Text}

namespace Configuration

/-- The flags of a compiler page that stand before those for symbols. -/
def flagsBeforeSymbols (c : Configuration) (page : Language) : List Text :=
  pageFlags (compilerPage page) entriesBeforeSymbols c

/-- The flags of a compiler page that stand behind those for symbols. -/
def flagsBehindSymbols (c : Configuration) (page : Language) : List Text :=
  pageFlags (compilerPage page) entriesAfterSymbols c

theorem symbolFlags_eq_ok_iff {symbols : List Text} : c.symbolFlags page changes = .ok symbols ↔
    ∃ defines, mergeDefines changes.added (c.definedSymbols page) changes.removed = .ok defines ∧
      symbols = defines.map defineFlag ++
        (Text.nonEmpty changes.undefined ++ c.undefinedSymbols page).map undefineFlag := by
  unfold symbolFlags
  rw [bind_eq_ok]
  constructor
  · rintro ⟨defines, hdefines, h⟩
    cases h
    exact ⟨defines, hdefines, rfl⟩
  · rintro ⟨defines, hdefines, rfl⟩
    exact ⟨defines, hdefines, rfl⟩

end Configuration

theorem compilerFlags_eq_ok_iff (hselected : p.selected = some c) {flags : List Text} :
    p.compilerFlags page changes = .ok flags ↔
      ∃ defines, mergeDefines changes.added (c.definedSymbols page) changes.removed = .ok defines ∧
        flags = c.flagsBeforeSymbols page ++ defines.map defineFlag ++
          (Text.nonEmpty changes.undefined ++ c.undefinedSymbols page).map undefineFlag ++
          c.flagsBehindSymbols page := by
  rw [compilerFlags_of_selected hselected, Configuration.compilerFlags_eq_flagsAround, map_eq_ok]
  unfold Configuration.flagsAround Configuration.flagsBeforeSymbols Configuration.flagsBehindSymbols
  constructor
  · rintro ⟨symbols, hsymbols, rfl⟩
    obtain ⟨defines, hdefines, rfl⟩ := Configuration.symbolFlags_eq_ok_iff.1 hsymbols
    refine ⟨defines, hdefines, ?_⟩
    simp only [List.append_assoc]
  · rintro ⟨defines, hdefines, rfl⟩
    refine ⟨_, Configuration.symbolFlags_eq_ok_iff.2 ⟨defines, hdefines, rfl⟩, ?_⟩
    simp only [List.append_assoc]

/-- The flags of a build, put together from those of the caller and those of the pages that the build needs. -/
structure ResolvedFlags.IsPutTogether (flags : ResolvedFlags) (p : Project) (caller : CallerFlags) (outdir : Text) :
    Prop where
  /-- The C page is always needed. -/
  c : ∃ own, p.compilerFlags .c { added := caller.added, removed := caller.removed } = .ok own ∧
    flags.c = caller.flags ++ own
  /-- The C++ page is needed in C++ projects. -/
  cpp : if p.isCpp then
      ∃ own, p.compilerFlags .cpp { added := caller.added, removed := caller.removed } = .ok own ∧
        flags.cpp = some (caller.flags ++ own)
    else flags.cpp = none
  /-- The last step is that of the linker or of the archiver. -/
  final : if p.isArchive then p.archiverFlags = .ok flags.final
    else ∃ own, p.linkerFlags outdir = .ok own ∧ flags.final = caller.flags ++ own

section Selected

variable (hselected : p.selected = some c)
include hselected

theorem exists_forCpp_iff {cpp : Option (List Text)} :
    (∃ forCpp, (if p.isCpp then some <$> c.compilerFlags .cpp caller.symbols else .ok none) = Except.ok forCpp ∧
        cpp = forCpp.map (caller.flags ++ ·)) ↔
      if p.isCpp then
        ∃ own, p.compilerFlags .cpp { added := caller.added, removed := caller.removed } = .ok own ∧
          cpp = some (caller.flags ++ own)
      else cpp = none := by
  rw [compilerFlags_of_selected hselected]
  by_cases hcpp : p.isCpp = true
  · rw [if_pos hcpp, if_pos hcpp]
    constructor
    · rintro ⟨forCpp, hforCpp, rfl⟩
      obtain ⟨own, hown, rfl⟩ := map_eq_ok.1 hforCpp
      exact ⟨own, hown, rfl⟩
    · rintro ⟨own, hown, rfl⟩
      exact ⟨some own, map_eq_ok.2 ⟨own, hown, rfl⟩, rfl⟩
  · rw [if_neg hcpp, if_neg hcpp]
    constructor
    · rintro ⟨forCpp, ⟨⟩, rfl⟩
      rfl
    · rintro rfl
      exact ⟨none, rfl, rfl⟩

theorem final_eq_iff {final : List Text} :
    (if p.isArchive then c.archiverFlags p.language else caller.flags ++ c.linkerFlags p outdir) = final ↔
      if p.isArchive then p.archiverFlags = .ok final
      else ∃ own, p.linkerFlags outdir = .ok own ∧ final = caller.flags ++ own := by
  rw [archiverFlags_of_selected hselected, linkerFlags_of_selected hselected]
  by_cases harchive : p.isArchive = true
  · rw [if_pos harchive, if_pos harchive, Except.ok.injEq]
  · rw [if_neg harchive, if_neg harchive]
    constructor
    · rintro rfl
      exact ⟨_, rfl, rfl⟩
    · rintro ⟨own, ⟨⟩, rfl⟩
      rfl

theorem resolveFlags_eq_ok_iff {flags : ResolvedFlags} :
    p.resolveFlags caller outdir = .ok flags ↔ flags.IsPutTogether p caller outdir := by
  rw [resolveFlags_of_selected hselected, bind_eq_ok]
  constructor
  · rintro ⟨forC, hforC, h⟩
    obtain ⟨forCpp, hforCpp, h⟩ := bind_eq_ok.1 h
    cases h
    refine ⟨⟨forC, ?_, rfl⟩, (exists_forCpp_iff hselected).1 ⟨forCpp, hforCpp, rfl⟩, (final_eq_iff hselected).1 rfl⟩
    rw [compilerFlags_of_selected hselected]
    exact hforC
  · intro h
    obtain ⟨forC, hforC, hflags⟩ := h.c
    obtain ⟨forCpp, hforCpp, hflagsCpp⟩ := (exists_forCpp_iff hselected).2 h.cpp
    rw [compilerFlags_of_selected hselected] at hforC
    refine ⟨forC, hforC, bind_eq_ok.2 ⟨forCpp, hforCpp, ?_⟩⟩
    rw [← hflags, ← hflagsCpp, (final_eq_iff hselected).2 h.final]

end Selected

/-- On a compiler page with a selected configuration the symbols of the caller are found in one place: the defines that
are left of its own and those of the project, then its undefines and those of the project. What stands around them is the
same for all callers and for all configurations that agree on the page. The flags of the caller stand before those of
the compilers and of the linker, and an archiver gets none. -/
theorem compilerFlags_around_symbols (hselected : p.selected = some c) :
    (∀ page changes flags, p.compilerFlags page changes = .ok flags ↔
      ∃ defines, mergeDefines changes.added (c.definedSymbols page) changes.removed = .ok defines ∧
        flags = c.flagsBeforeSymbols page ++ defines.map (("-D" : Text) ++ ·) ++
          (Text.nonEmpty changes.undefined ++ c.undefinedSymbols page).map (("-U" : Text) ++ ·) ++ c.flagsBehindSymbols page) ∧
      (∀ page (d : Configuration), (∀ key, compilerPage page <+: key → c.property? key = d.property? key) →
        c.flagsBeforeSymbols page = d.flagsBeforeSymbols page ∧
          c.flagsBehindSymbols page = d.flagsBehindSymbols page) ∧
      ∀ caller outdir flags, p.resolveFlags caller outdir = .ok flags ↔ flags.IsPutTogether p caller outdir := by
  refine ⟨fun page changes flags => compilerFlags_eq_ok_iff hselected, fun page d h => ?_,
    fun caller outdir flags => resolveFlags_eq_ok_iff hselected⟩
  have hagree : c.AgreeOn (compilerPage page <+: ·) d := h
  exact ⟨hagree.pageFlags_eq entriesBeforeSymbols, hagree.pageFlags_eq entriesAfterSymbols⟩

/-- An archive in C++ whose two compiler pages have symbols of their own. -/
theorem compilerFlags_around_symbols_archive :
    let c : Configuration := ⟨"Debug", [
      ⟨"armgcc.compiler.symbols.DefSymbols", [], ["NDEBUG"]⟩,
      ⟨"armgcccpp.compiler.symbols.DefSymbols", [], ["BOARD", "NDEBUG"]⟩,
      ⟨"armgcccpp.compiler.preprocessor.UndefSymbols", [], ["TEST"]⟩]⟩
    let p : Project := {
      language := .cpp, outputKind := .archive, outputName := "librover", outputExtension := ".a"
      toolchain := ⟨"7.0", "com.Atmel.ARMGCC.CPP", "Native"⟩, references := [], sources := ["main.cpp"]
      configurations := [c], selected := some c }
    let around (page : Language) (defines undefines : List Text) : List Text :=
      c.flagsBeforeSymbols page ++ defines ++ undefines ++ c.flagsBehindSymbols page
    p.compilerFlags .cpp ⟨["TRACE", []], ["NDEBUG"], [[], "BENCH"]⟩ =
        .ok (around .cpp ["-DTRACE", "-DBOARD"] ["-UBENCH", "-UTEST"]) ∧
      p.resolveFlags ⟨["-g3"], ["TRACE"], ["NDEBUG"]⟩ "Debug" = .ok {
        c := "-g3" :: around .c ["-DTRACE"] []
        cpp := some ("-g3" :: around .cpp ["-DTRACE", "-DBOARD"] ["-UTEST"])
        final := ["-r"] } := by
  intro c p around
  obtain ⟨hpage, -, hresolved⟩ := compilerFlags_around_symbols (p := p) (c := c) rfl
  refine ⟨(hpage _ _ _).2 ⟨["TRACE", "BOARD"], by decide +kernel, rfl⟩, (hresolved _ _ _).2 ⟨?_, ?_, ?_⟩⟩
  · exact ⟨_, (hpage _ _ _).2 ⟨["TRACE"], by decide +kernel, rfl⟩, rfl⟩
  · exact ⟨_, (hpage _ _ _).2 ⟨["TRACE", "BOARD"], by decide +kernel, rfl⟩, rfl⟩
  · rfl

end CprojNinja
