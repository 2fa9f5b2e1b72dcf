import CprojNinja.Ninja.Escape
import CprojNinja.Ninja.Layout
import CprojNinja.Path

/-!
# Ninja files

A ninja file is a list of statements, written one after the other. Its text is the concatenation of their texts, so a
statement can be added at the end without a look at those before it.
-/

namespace CprojNinja.Ninja

/-- A file through which long arguments are passed to a command. -/
structure ResponseFile where
  /-- Its name. -/
  name : Text
  /-- What is written into it. -/
  content : Text
  deriving Repr, DecidableEq

/-- A rule: how one kind of outputs is made. -/
structure Rule where
  /-- Its name. -/
  name : Text
  /-- The command that makes the outputs. -/
  command : Text
  /-- What is shown while the command runs. -/
  description : Option Text := none
  /-- The file into which the command writes further dependencies. -/
  depfile : Option Text := none
  /-- The file through which arguments are passed. -/
  response : Option ResponseFile := none
  /-- The format of the file with further dependencies. -/
  deps : Option Text := none
  deriving Repr, DecidableEq

/-- A build edge: certain outputs are made from certain inputs by a rule. -/
structure Edge where
  /-- What is made. -/
  outputs : List Path
  /-- The name of the rule. -/
  rule : Text
  /-- What it is made from. -/
  inputs : List Path
  /-- What it depends on besides. -/
  implicit : List Path := []
  deriving Repr, DecidableEq

/-- A statement of a ninja file. -/
inductive Statement where
  /-- An empty line. -/
  | blank
  /-- A comment, perhaps of several lines. -/
  | comment (text : Text)
  /-- The value of a variable. -/
  | binding (name value : Text)
  /-- A rule. -/
  | rule (r : Rule)
  /-- A build edge. -/
  | edge (e : Edge)
  /-- What is built if nothing else is asked for. -/
  | default (targets : List Path)
  deriving Repr, DecidableEq

namespace Statement

/-- The value of a variable that holds flags: those that are not empty, with blanks between them. -/
def flags (name : Text) (values : List Text) : Statement := binding name (Text.joinWith " " (Text.nonEmpty values))

/-- The line of a binding. -/
def bindingLine (depth : Nat) (name value : Text) : Text := layout depth (name ++ " = " ++ value)

/-- A binding that is written only if it has a value. -/
def optionalBinding (name : Text) (value : Option Text) : List (Text × Text) := value.toList.map fun v => (name, v)

/-- The bindings of a rule, in the order in which they are written. -/
def ruleBindings (r : Rule) : List (Text × Text) :=
  optionalBinding "command" r.command ++
    optionalBinding "description" r.description ++
    optionalBinding "depfile" r.depfile ++
    optionalBinding "rspfile" (r.response.map (·.name)) ++
    optionalBinding "rspfile_content" (r.response.map (·.content)) ++
    optionalBinding "deps" r.deps

/-- The words of an edge after the colon. -/
def edgeWords (e : Edge) : List Text :=
  e.rule :: e.inputs.map escape ++ if e.implicit.isEmpty then [] else ['|'] :: e.implicit.map escape

/-- The text of a statement. -/
def text : Statement → Text
  | blank => "\n"
  | comment text => (Text.lines text).flatMap fun line => "# " ++ line ++ "\n"
  | binding name value => bindingLine 0 name value
  | rule r => layout 0 ("rule " ++ r.name) ++ (ruleBindings r).flatMap fun (name, value) => bindingLine 1 name value
  | edge e => layout 0 ("build " ++ escapedWords e.outputs ++ ": " ++ Text.joinWith " " (edgeWords e))
  | default targets => layout 0 ("default " ++ Text.joinWith " " targets)

end Statement

/-- A ninja file. -/
abbrev File := List Statement

namespace File

/-- The text of a file. -/
def text (f : File) : Text := f.flatMap Statement.text

/-- What is written of a file does not change when more is added. -/
@[simp] theorem text_append (f g : File) : text (f ++ g) = text f ++ text g := by simp [text]

/-- The rules of a file, in order. -/
def rules (f : File) : List Rule := f.filterMap fun | .rule r => some r | _ => none

/-- The edges of a file, in order. -/
def edges (f : File) : List Edge := f.filterMap fun | .edge e => some e | _ => none

/-- The targets of the default statements of a file, in order. -/
def defaults (f : File) : List (List Path) := f.filterMap fun | .default targets => some targets | _ => none

end File

end CprojNinja.Ninja
