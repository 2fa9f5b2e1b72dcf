import CprojNinja.Graph.Place
import CprojNinja.Ninja.File
import CprojNinja.Project.Basic
import CprojNinja.Report
import CprojNinja.Violation

/-!
# Compile edges

Every source of a project that a compiler takes gives one edge. All other files that the project lists are skipped with
a warning. The object file has the path of its source inside the build directory, where parent directories at the start of the path
are dropped, so two sources may ask for the same object file. That is an error, and a C++ source of a C project is a
violation; the first source of either kind decides.
-/

namespace CprojNinja

open Ninja (Edge)

/-- Why a project has no build graph. -/
inductive GraphError where
  /-- Two sources have the same object file. -/
  | duplicateObject (object source : Path)
  /-- A contract was violated. -/
  | violation (v : Violation)
  deriving Repr, DecidableEq

/-- How an error of the graph is reported. -/
def GraphError.message : GraphError → Text
  | duplicateObject object source => "Object file " ++ object ++ " of " ++ source ++ " is produced twice"
  | violation v => v.message

/-- The language of sources with an extension. -/
def Language.ofExtension? (extension : Text) : Option Language :=
  if extension = ".c" then some .c
  else if extension = ".cpp" ∨ extension = ".cc" ∨ extension = ".cxx" then some .cpp
  else none

/-- The name of the rule that compiles a language. -/
def Language.ruleName : Language → Text
  | c => "cc"
  | cpp => "cxx"

/-- The language of a file, if a compiler takes it. -/
def sourceLanguage? (file : Path) : Option Language := Language.ofExtension? (Path.splitExtension file).2

/-- The object file of a source. -/
def objectPath (file : Path) : Path := builtPath (Path.dropParents (Path.splitExtension file).1 ++ ".o")

/-- The edge that compiles a source. -/
def compileEdge (language : Language) (file : Path) : Edge :=
  { outputs := [objectPath file], rule := language.ruleName, inputs := [sourcePath file] }

/-- The edges of some files; `seen` are the object files of those before them. -/
def compileEdges (language : Language) (seen : List Path) : (files : List Path) → Reported GraphError (List Edge)
  | [] => return []
  | file :: files =>
    match sourceLanguage? file with
    | none => do
      Reported.warn (.skippedFile file)
      compileEdges language seen files
    | some sourceLanguage =>
      if sourceLanguage = .cpp ∧ language = .c then .fail (.violation (.foreignSource file))
      else if objectPath file ∈ seen then .fail (.duplicateObject (objectPath file) file)
      else do
        let rest ← compileEdges language (objectPath file :: seen) files
        return compileEdge sourceLanguage file :: rest

/-- The files of a project about which the scan of its sources warns. -/
def Project.skippedFiles (p : Project) : List Path := (compileEdges p.language [] p.sources).warnings.map Warning.file

end CprojNinja
