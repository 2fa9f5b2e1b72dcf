import CprojNinja.Path
import CprojNinja.Toml.Document
import CprojNinja.Toolchain.Registry

/-!
# Settings

The settings of a user: the directory of a toolchain, which is then used for every project, and values of the studio's
registry for hosts that have none. A settings file has these two fields and no others.
-/

namespace CprojNinja

/-- The settings of a user. -/
structure Settings where
  /-- The directory of the toolchain. -/
  toolchain : Option Path := none
  /-- Values of the registry. -/
  registry : RegistryLayer := []
  deriving Repr, DecidableEq

namespace Settings

/-- Reads the registry values of a settings file. -/
def registryOfValue? (value : Toml.Value) : Option RegistryLayer := do
  (← value.entries?).mapM? fun key => do (← key.entries?).mapM? Toml.Value.text?

/-- The settings with one more field. -/
def withField? (settings : Settings) (name : Text) (value : Toml.Value) : Option Settings :=
  if name = "gcc_toolchain" then do return { settings with toolchain := some (← value.text?) }
  else if name = "registry" then do return { settings with registry := ← registryOfValue? value }
  else none

/-- Reads the text of a settings file. -/
def parse? (s : Text) : Option Settings := do
  (← Toml.parse? s).foldlM (fun settings (name, value) => settings.withField? name value) {}

end Settings

end CprojNinja
