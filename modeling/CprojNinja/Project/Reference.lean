import CprojNinja.Path

/-!
# Referenced libraries

A project may refer to other projects whose archives it links against. A reference knows the directory of the other
project and the *bare* name of its archive, without the decorations `lib…` and `….a` that the file carries. Bareness is
part of the type: a reference can only be built from a name that has neither decoration.
-/

namespace CprojNinja

/-- The start of the name of an archive file. -/
def archiveStart : Text := "lib"

/-- The ending of the name of an archive file. -/
def archiveEnding : Text := ".a"

/-- Whether a library name carries no decoration. -/
def IsBare (name : Text) : Prop :=
  Text.startsWith archiveStart name = false ∧ Text.endsWith archiveEnding name = false

instance (name : Text) : Decidable (IsBare name) := inferInstanceAs (Decidable (_ ∧ _))

/-- A library name without one decoration at each end: of `libFoo.a`, `libFoo` and `Foo.a` the name `Foo` remains. -/
def bareName (name : Text) : Text := Text.withoutEnd archiveEnding (Text.withoutStart archiveStart name)

/-- A project whose archive is linked. -/
structure Reference where
  /-- The directory of the other project, seen from this one. -/
  directory : Path
  /-- The bare name of its archive. -/
  name : Text
  /-- The name carries no decoration. -/
  bare : IsBare name
  deriving Repr, DecidableEq

namespace Reference

/-- A reference to the archive `name` built in `directory`, if the name is bare. -/
def ofName? (directory : Path) (name : Text) : Option Reference :=
  if bare : IsBare name then some ⟨directory, name, bare⟩ else none

/-- A reference exists exactly for the bare names. -/
theorem ofName?_eq_none_iff {directory : Path} {name : Text} : ofName? directory name = none ↔ ¬ IsBare name := by
  unfold ofName?
  split <;> simp_all

/-- The name of the library with its first decoration. -/
def libraryName (r : Reference) : Text := archiveStart ++ r.name

/-- The name of the archive file. -/
def fileName (r : Reference) : Text := r.libraryName ++ archiveEnding

/-- The directory in which the other project is built, if all projects are built in directories of one name. -/
def buildDirectory (r : Reference) (outdir : Text) : Path := r.directory ++ "/" ++ outdir

/-- Where the archive is, seen from this project. -/
def archivePath (r : Reference) (outdir : Text) : Path := r.buildDirectory outdir ++ "/" ++ r.fileName

end Reference

end CprojNinja
