import CprojNinja.Flags.Page

/-!
# Linker and archiver flags

A program is linked with the flags of the linker page, a static library is put together with those of the archiver
page. Referenced libraries take part in two places: their names stand in the group of libraries, after those that the
project lists itself, and their build directories are searched.
-/

namespace CprojNinja

/-- The name of the linker page of a language. -/
def linkerPage (language : Language) : Text := language.keyStart ++ ".linker."

/-- The property with the archiver flags of a language. -/
def archiverKey (language : Language) : Text := language.keyStart ++ ".archiver.general.ArchiverFlags"

/-- The linker entries before the libraries. -/
def entriesBeforeLibraries (outputName : Text) : List PageEntry := [
  .off "general.DoNotUseStandardStartFiles" "-nostartfiles",
  .off "general.DoNotUseDefaultLibraries" "-nodefaultlibs",
  .off "general.NoStartupOrDefaultLibs" "-nostdlib",
  .off "general.OmitAllSymbolInformation" "-s",
  .off "general.NoSharedLibraries" "-static",
  .on "general.GenerateMAPFile" ("-Wl,-Map=\"" ++ outputName ++ ".map\""),
  .off "general.UseNewlibNano" "--specs=nano.specs"]

/-- The linker entry with the directories that are searched for libraries. -/
def searchPathEntries : List PageEntry := [.values "libraries.LibrarySearchPaths" "-L\"" "\""]

/-- The linker entries after the libraries. -/
def entriesAfterLibraries : List PageEntry := [
  .off "optimization.GarbageCollectUnusedSections" "-Wl,--gc-sections",
  .off "optimization.EnableUnsafeMatchOptimizations" "-funsafe-math-optimizations",
  .off "optimization.EnableFastMath" "-ffast-math",
  .off "optimization.GeneratePositionIndependentCode" "-fpic",
  .freeText "miscellaneous.LinkerFlags",
  .values "miscellaneous.OtherOptions" "-Xlinker " [],
  .values "miscellaneous.OtherObjects" [] []]

/-- A library among the flags of the linker. -/
def libraryFlag (name : Text) : Text := " -l" ++ bareName name

/-- The one flag that names all libraries, so that they may refer to each other in any order. -/
def libraryGroup (libraries : List Text) : Text :=
  "-Wl,--start-group" ++ libraries.flatMap libraryFlag ++ " -Wl,--end-group"

/-- The flag that makes the linker search the build directory of a referenced project. -/
def referenceSearchFlag (outdir : Text) (r : Reference) : Text := "-L\"../" ++ r.buildDirectory outdir ++ "\""

/-- The linker flags of a configuration of a project. -/
def Configuration.linkerFlags (c : Configuration) (p : Project) (outdir : Text) : List Text :=
  let page := linkerPage p.language
  pageFlags page (entriesBeforeLibraries p.outputName) c ++
    [libraryGroup (c.values (page ++ "libraries.Libraries") ++ p.references.map (·.name))] ++
    pageFlags page searchPathEntries c ++
    p.references.map (referenceSearchFlag outdir) ++
    pageFlags page entriesAfterLibraries c

/-- The archiver flags of a configuration. -/
def Configuration.archiverFlags (c : Configuration) (language : Language) : List Text :=
  [(c.text? (archiverKey language)).getD "-r"]

namespace Project

/-- The linker flags of the selected configuration; `outdir` is the name of the directory in which this project and
those that it refers to are built. -/
def linkerFlags (p : Project) (outdir : Text) : Except Violation (List Text) :=
  return (← p.configurationFor (linkerPage p.language ++ "general.DoNotUseStandardStartFiles")).linkerFlags p outdir

/-- The archiver flags of the selected configuration. -/
def archiverFlags (p : Project) : Except Violation (List Text) :=
  return (← p.configurationFor (archiverKey p.language)).archiverFlags p.language

end Project

end CprojNinja
