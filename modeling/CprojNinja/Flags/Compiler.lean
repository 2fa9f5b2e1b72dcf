import CprojNinja.Flags.Define
import CprojNinja.Flags.Page

/-!
# Compiler flags

There is a compiler page for C and one for C++, with the same entries. The symbols that the caller adds and removes
touch only the flags for symbols, which stand between the entries about the preprocessor and all others.
-/

namespace CprojNinja

/-- The name of the compiler page of a language. -/
def compilerPage (language : Language) : Text := language.keyStart ++ ".compiler."

/-- The entries before the symbols. -/
def entriesBeforeSymbols : List PageEntry := [
  .off "general.ChangeDefaultCharTypeUnsigned" "-funsigned-char",
  .off "general.ChangeDefaultBitFieldUnsigned" "-funsigned-bitfields",
  .off "general.DoNotSearchSystemDirectories" "-nostdinc",
  .off "general.PreprocessOnly" "-E"]

/-- The entries after the symbols. -/
def entriesAfterSymbols : List PageEntry := [
  .values "directories.IncludePaths" "-I\"" "\"",
  .level "optimization.level" "-O" ['0', '1', '2', '3', 's'] ["-O0"],
  .freeText "optimization.OtherFlags",
  .off "optimization.PrepareFunctionsForGarbageCollection" "-ffunction-sections",
  .off "optimization.PrepareDataForGarbageCollection" "-fdata-sections",
  .off "optimization.EnableUnsafeMatchOptimizations" "-funsafe-math-optimizations",
  .off "optimization.EnableFastMath" "-ffast-math",
  .off "optimization.GeneratePositionIndependentCode" "-fpic",
  .on "optimization.EnableLongCalls" "-mlong-calls",
  .level "optimization.DebugLevel" "-g" ['1', '2', '3'] [],
  .freeText "optimization.OtherDebuggingFlags",
  .off "optimization.GenerateGprofInformation" "-pg",
  .off "optimization.GenerateProfInformation" "-p",
  .off "warnings.AllWarnings" "-Wall",
  .off "warnings.ExtraWarnings" "-Wextra",
  .off "warnings.Undefined" "-Wundef",
  .off "warnings.WarningsAsErrors" "-Werror",
  .off "warnings.CheckSyntaxOnly" "-fsyntax-only",
  .off "warnings.Pedantic" "-pedantic",
  .off "warnings.PedanticWarningsAsErrors" "-pedantic-errors",
  .off "warnings.InhibitAllWarnings" "-w",
  .freeText "miscellaneous.OtherFlags",
  .off "miscellaneous.Verbose" "-v",
  .off "miscellaneous.SupportAnsiPrograms" "-ansi"]

/-- The flag that defines a symbol. -/
def defineFlag (symbol : Text) : Text := "-D" ++ symbol

/-- The flag that undefines a symbol. -/
def undefineFlag (symbol : Text) : Text := "-U" ++ symbol

/-- What the caller changes about the symbols of a compilation. -/
structure SymbolChanges where
  /-- Symbols to define. -/
  added : List Text := []
  /-- Symbols not to define. -/
  removed : List Text := []
  /-- Symbols to undefine. -/
  undefined : List Text := []
  deriving Repr

namespace Configuration

/-- The symbols that a compiler page defines. -/
def definedSymbols (c : Configuration) (page : Language) : List Text :=
  c.values (compilerPage page ++ "symbols.DefSymbols")

/-- The symbols that a compiler page undefines. -/
def undefinedSymbols (c : Configuration) (page : Language) : List Text :=
  c.values (compilerPage page ++ "preprocessor.UndefSymbols")

/-- The flags of a compiler page. -/
def compilerFlags (c : Configuration) (page : Language) (changes : SymbolChanges) :
    Except Violation (List Text) := do
  let defines ← mergeDefines changes.added (c.definedSymbols page) changes.removed
  let undefines := mergeUndefines changes.undefined (c.undefinedSymbols page)
  return pageFlags (compilerPage page) entriesBeforeSymbols c ++
    defines.map defineFlag ++ undefines.map undefineFlag ++
    pageFlags (compilerPage page) entriesAfterSymbols c

end Configuration

/-- The compiler flags of the selected configuration. -/
def Project.compilerFlags (p : Project) (page : Language) (changes : SymbolChanges) :
    Except Violation (List Text) := do
  let c ← p.configurationFor (compilerPage page ++ "general.ChangeDefaultCharTypeUnsigned")
  c.compilerFlags page changes

end CprojNinja
