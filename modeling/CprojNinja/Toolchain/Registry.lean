import CprojNinja.Text.Basic

/-!
# The registry

The studio records where it is installed in a registry of keys, each with named values. What is known of the registry
comes in layers, and the first layer that has a value that is not empty decides: an empty value means the same as no
value. The layer of the system itself is empty on hosts without such a registry.
-/

namespace CprojNinja

/-- One layer of the registry: the keys with their named values. -/
abbrev RegistryLayer := List (Text × List (Text × Text))

/-- The registry: its layers, the most important one first. -/
abbrev Registry := List RegistryLayer

/-- The value that a layer has under a key and a name. -/
def RegistryLayer.value? (layer : RegistryLayer) (key name : Text) : Option Text := do
  let values ← layer.lookup key
  values.lookup name

/-- The value of the registry under a key and a name: the first one over the layers that is not empty. -/
def Registry.value? (registry : Registry) (key name : Text) : Option Text :=
  List.findSome? (fun layer => (RegistryLayer.value? layer key name).filter (· ≠ [])) registry

end CprojNinja
