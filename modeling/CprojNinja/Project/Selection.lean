import CprojNinja.Project.Basic
import CprojNinja.Violation

/-!
# Selection and properties

Properties are read from the configuration that is selected. Selecting is by name, and a name that no configuration has
leaves nothing selected. Reading a property while nothing is selected violates the contract of the project, and the
violation names the property.

A property is read in one of four ways: its text, a switch that is on for the text `True`, its text put into a form, or
its values, each put into a form. The place of the text in a form is marked by a pair of braces.
-/

namespace CprojNinja

/-- The mark for the place of a text in a form. -/
def formMark : Text := ['{', '}']

/-- A form with `text` at every mark. -/
def fillForm (form text : Text) : Text := Text.replaceAll formMark text form

namespace Configuration

/-- The property of this name: the first one in the document. -/
def property? (c : Configuration) (key : Text) : Option Property := c.properties.find? (·.name = key)

/-- The text of a property. -/
def text? (c : Configuration) (key : Text) : Option Text := (c.property? key).map (·.text)

/-- Whether a switch is on; `preset` holds if the configuration does not have it. -/
def isOn (c : Configuration) (key : Text) (preset : Bool) : Bool :=
  match c.text? key with
  | some text => text = "True"
  | none => preset

/-- The values of a property; none if the configuration does not have it. -/
def values (c : Configuration) (key : Text) : List Text :=
  match c.property? key with
  | some property => property.values
  | none => []

end Configuration

namespace Project

/-! ## Selecting -/

/-- Selects the configuration of this name, or none if there is no such configuration. -/
def select (p : Project) (name : Text) : Project :=
  { p with selected := p.configurations.find? (·.name = name) }

/-- The name of the selected configuration. -/
def selectedName? (p : Project) : Option Text := p.selected.map (·.name)

@[simp] theorem selected_select (p : Project) (name : Text) :
    (p.select name).selected = p.configurations.find? (·.name = name) := rfl

/-! ## Reading -/

/-- The configuration from which `key` is read. -/
def configurationFor (p : Project) (key : Text) : Except Violation Configuration :=
  match p.selected with
  | some c => .ok c
  | none => .error (.noSelection key)

/-- The text of a property of the selected configuration. -/
def textOf (p : Project) (key : Text) : Except Violation (Option Text) :=
  return (← p.configurationFor key).text? key

/-- Whether a switch of the selected configuration is on. -/
def isOn (p : Project) (key : Text) (preset : Bool) : Except Violation Bool :=
  return (← p.configurationFor key).isOn key preset

/-- The text of a property put into a form; `preset` if the configuration does not have it. -/
def formOf (p : Project) (key form preset : Text) : Except Violation Text :=
  return match (← p.configurationFor key).text? key with
    | some text => fillForm form text
    | none => preset

/-- The values of a property, each put into a form. -/
def valuesOf (p : Project) (key form : Text) : Except Violation (List Text) :=
  return ((← p.configurationFor key).values key).map (fillForm form)

end Project

end CprojNinja
