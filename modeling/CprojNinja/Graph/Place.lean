import CprojNinja.Path

/-!
# Places of a build

A build file names files in three places, each relative to one of its two directories: what is built lies in the build
directory, sources lie below the project directory, and other projects lie beside the project.
-/

namespace CprojNinja

/-- The path of a built file. -/
def builtPath (path : Path) : Path := "$builddir/" ++ path

/-- The path of a file of the project. -/
def sourcePath (path : Path) : Path := "$src/" ++ path

/-- The path of a file of another project, whose path starts at the directory of this project. -/
def siblingPath (path : Path) : Path := "$builddir/../" ++ path

end CprojNinja
