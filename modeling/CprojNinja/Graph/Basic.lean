import CprojNinja.Graph.Compile
import CprojNinja.Graph.LinkerScript
import CprojNinja.Graph.Rules

/-!
# Build graphs

The build graph of a project: its rules, an edge for every source, and one last edge that puts the object files
together. A project without sources that a compiler takes has no last edge, because there is nothing to put together.
-/

namespace CprojNinja

open Ninja (Edge Statement)

namespace Project

/-- The file that a project builds. -/
def target (p : Project) : Path := builtPath p.output

/-- What a program depends on besides its object files: the linker script and the archives of other projects. -/
def linkDependencies (p : Project) (linkerFlags : List Text) (outdir : Text) : List Path :=
  ((linkerScript? linkerFlags).map sourcePath).toList ++
    p.references.map fun r => siblingPath (r.archivePath outdir)

/-- The edge that puts object files together. -/
def lastEdge (p : Project) (flags : ResolvedFlags) (outdir : Text) (objects : List Path) : Edge :=
  if p.isArchive then { outputs := [p.target], rule := "ar", inputs := objects }
  else
    { outputs := [p.target], rule := "link", inputs := objects, implicit := p.linkDependencies flags.final outdir }

/-- The statements after the edges of the sources. -/
def lastStatements (p : Project) (flags : ResolvedFlags) (outdir : Text) (objects : List Path) : List Statement :=
  if objects.isEmpty then []
  else
    let last := p.lastEdge flags outdir objects
    [.blank, .edge last, .blank, .default last.outputs]

/-- The build graph of a project, to be built in a directory named `outdir`, with the warnings about its sources. -/
def reportedGraph (p : Project) (flags : ResolvedFlags) (programs : Executables) (outdir : Text) :
    Reported GraphError Ninja.File := do
  let edges ← compileEdges p.language [] p.sources
  return preamble p flags programs outdir ++ edges.map .edge ++
    p.lastStatements flags outdir (edges.flatMap (·.outputs))

/-- The build graph alone. -/
def graph (p : Project) (flags : ResolvedFlags) (programs : Executables) (outdir : Text) :
    Except GraphError Ninja.File := (p.reportedGraph flags programs outdir).outcome

end Project

end CprojNinja
