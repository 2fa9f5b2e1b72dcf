import CprojNinja.Flags.Resolved
import CprojNinja.Graph.Place
import CprojNinja.Ninja.File
import CprojNinja.Text.Blank
import CprojNinja.Toolchain.Basic

/-!
# Rules of a build

A build file begins with what its edges refer to: the two directories, the flags, and the rules that use them. Which
rules there are depends on the project alone: one for C always, one for C++ if the project is in C++, and one of two for
the step that puts the object files together.
-/

namespace CprojNinja

open Ninja (Rule Statement)

/-- The name of the build file. -/
def buildFileName : Text := "build.ninja"

/-! ## Commands -/

/-- A program at the start of a command. It is quoted if it would fall into several words. -/
def quotedProgram (path : Path) : Text := if path.any Text.isBlank then "\"" ++ path ++ "\"" else path

/-- A rule that compiles one source and keeps track of the files that it includes. -/
def compileRule (name program arguments : Text) : Rule :=
  { name
    command := quotedProgram program ++ arguments ++ " -MD -MF $out.d -MT $out -o $out $in"
    description := some (name ++ " $out")
    depfile := some "$out.d"
    deps := some "gcc" }

/-- The rule for C sources. -/
def cRule (programs : Executables) : Rule := compileRule "cc" programs.cc " -x c -c $ccflags"

/-- The rule for C++ sources. -/
def cppRule (programs : Executables) : Rule := compileRule "cxx" programs.cxx " -c $cxxflags"

/-- The rule for static libraries. -/
def archiveRule (programs : Executables) : Rule :=
  { name := "ar"
    command := quotedProgram programs.ar ++ " $arflags -c -o $out $in"
    description := some "ar $out" }

/-- The rule for programs. The object files are passed through a file, because there may be many. -/
def linkRule (programs : Executables) : Rule :=
  { name := "link"
    command := quotedProgram programs.link ++ " -o $out @$out.rsp $lflags"
    description := some "link $out"
    response := some { name := "$out.rsp", content := "$in" } }

/-! ## Statements -/

/-- The directories: builds take place in a directory of their own below that of the project. -/
def directoryStatements : List Statement := [
  .binding "ninja_required_version" "1.3", .blank,
  .binding "builddir" ".", .binding "src" "$builddir/..", .blank]

/-- Comments that tell where the build files of the referenced projects are. -/
def referenceStatements (references : List Reference) (outdir : Text) : List Statement :=
  if references.isEmpty then []
  else
    references.map (fun r => .comment ("subninja " ++ siblingPath (r.buildDirectory outdir ++ "/" ++ buildFileName))) ++
      [.blank]

/-- Flags and the rule that uses them. -/
def ruleStatements (variableName : Text) (flags : List Text) (rule : Rule) : List Statement :=
  [.flags variableName flags, .blank, .rule rule, .blank]

/-- All statements before the edges. -/
def preamble (p : Project) (flags : ResolvedFlags) (programs : Executables) (outdir : Text) : List Statement :=
  directoryStatements ++
    referenceStatements p.references outdir ++
    ruleStatements "ccflags" flags.c (cRule programs) ++
    (if p.isCpp then ruleStatements "cxxflags" (flags.cpp.getD []) (cppRule programs) else []) ++
    (if p.isArchive then ruleStatements "arflags" flags.final (archiveRule programs)
      else ruleStatements "lflags" flags.final (linkRule programs))

end CprojNinja
