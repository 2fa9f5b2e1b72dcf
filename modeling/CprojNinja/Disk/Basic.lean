import CprojNinja.Disk.Fault
import CprojNinja.Path

/-!
# File systems

What the program does to files and directories, as an interface: a file system is any monad with these operations. The
program runs on the real one, and everything about it is stated on a model of a disk.

Every operation that can fail returns its fault instead of throwing it, because the program looks at most faults itself.
-/

namespace CprojNinja

/-- A monad with operations on files and directories. -/
class FileSystem (m : Type → Type) where
  /-- The text of a file. -/
  readText : Path → m (Except Fault Text)
  /-- Whether the path names a file. -/
  isFile : Path → m Bool
  /-- Whether the path names a directory. -/
  isDirectory : Path → m Bool
  /-- Makes a directory, whose parent must exist. -/
  makeDirectory : Path → m (Except Fault Unit)
  /-- Writes a file, in place of what it held before if it exists. -/
  writeText : Path → Text → m (Except Fault Unit)
  /-- Moves a file, in place of the file that has the new name. -/
  rename : (source target : Path) → m (Except Fault Unit)
  /-- Removes a file. -/
  remove : Path → m (Except Fault Unit)

namespace FileSystem

variable {m : Type → Type} [Monad m] [FileSystem m]

/-- Whether making a directory that failed with a fault is good all the same, because the directory is there. -/
def settle (path : Path) (fault : Fault) : m (Except Fault Unit) := do
  if ← isDirectory path then return .ok () else return .error fault

/-- Makes the first of some directories, each of which lies in the next one. A directory is made at once if it can be;
otherwise those around it are made first. Of the empty path nothing is to be made. -/
def makeNested : List Path → m (Except Fault Unit)
  | [] => return .ok ()
  | path :: around => do
    if path = [] then return .ok ()
    match ← makeDirectory path with
    | .ok () => return .ok ()
    | .error .notFound =>
      match ← makeNested around with
      | .error fault => return .error fault
      | .ok () =>
        match ← makeDirectory path with
        | .ok () => return .ok ()
        | .error fault => settle path fault
    | .error fault => settle path fault

/-- Makes a directory together with those that it lies in. -/
def makeDirectories (path : Path) : m (Except Fault Unit) := makeNested path.ancestors

/-- Writes a file so that at no time half of it is there: the text goes to a temporary file, which then takes the place
of the file. If that fails the temporary file is removed. -/
def replaceText (path : Path) (text : Text) : m (Except Fault Unit) := do
  let temporary := path ++ ".tmp"
  let written ← writeText temporary text
  let outcome ← match written with
    | .ok () => rename temporary path
    | .error fault => pure (.error fault)
  match outcome with
  | .ok () => return .ok ()
  | .error fault =>
    let _ ← remove temporary
    return .error fault

end FileSystem

end CprojNinja
