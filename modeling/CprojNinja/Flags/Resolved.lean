import CprojNinja.Flags.Compiler
import CprojNinja.Flags.Linker

/-!
# Resolved flags

All flags that one build needs: those of the C compiler, those of the C++ compiler if the project is in C++, and those
of the step that puts the object files together. The caller's own flags go before the flags of the compilers and of the
linker; an archiver would not understand them.
-/

namespace CprojNinja

/-- The flags of one build. -/
structure ResolvedFlags where
  /-- For C sources. -/
  c : List Text
  /-- For C++ sources, if there may be any. -/
  cpp : Option (List Text)
  /-- For the linker or the archiver. -/
  final : List Text
  deriving Repr, DecidableEq

/-- The flags that the caller gives for one build. -/
structure CallerFlags where
  /-- Flags for the compilers and the linker. -/
  flags : List Text := []
  /-- Symbols to define. -/
  added : List Text := []
  /-- Symbols not to define. -/
  removed : List Text := []
  deriving Repr

/-- The changes of symbols among the caller's flags. -/
def CallerFlags.symbols (caller : CallerFlags) : SymbolChanges := { added := caller.added, removed := caller.removed }

namespace Project

/-- The flags of a compiler page after those of the caller. -/
def pageFlagsFor (p : Project) (caller : CallerFlags) (page : Language) : Except Violation (List Text) :=
  return caller.flags ++ (← p.compilerFlags page caller.symbols)

/-- All flags for a build of the selected configuration in a directory named `outdir`. -/
def resolveFlags (p : Project) (caller : CallerFlags) (outdir : Text) : Except Violation ResolvedFlags := do
  let c ← p.pageFlagsFor caller .c
  let cpp ← if p.isCpp then some <$> p.pageFlagsFor caller .cpp else pure none
  let final ← if p.isArchive then p.archiverFlags else (caller.flags ++ ·) <$> p.linkerFlags outdir
  return { c, cpp, final }

end Project

end CprojNinja
