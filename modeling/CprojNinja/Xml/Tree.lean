import CprojNinja.Text.Basic

/-!
# Document trees

What is left of a document once it is read: elements with their attributes, runs of text, and markers where a comment or
a processing instruction stood. The markers matter, because the text of an element is the text of its *first* child, and
a comment in front of it hides it.

Elements are known by the local part of their name, whatever namespace it belongs to. An attribute keeps its namespace,
because only attributes without one are looked up.
-/

namespace CprojNinja.Xml

/-- An attribute of an element. -/
structure Attribute where
  /-- The namespace that its name belongs to, if the name has a namespace. -/
  space : Option Text
  /-- The local part of its name. -/
  name : Text
  /-- Its value, with references resolved. -/
  value : Text
  deriving Repr, DecidableEq

/-- A node of a document below its root. -/
inductive Node where
  /-- An element, by the local part of its name. -/
  | element (name : Text) (attributes : List Attribute) (children : List Node)
  /-- A run of text: adjacent characters, sections and references together. -/
  | text (content : Text)
  /-- The place of a comment. -/
  | comment
  /-- The place of a processing instruction. -/
  | instruction
  deriving Repr

namespace Node

/-- The children of a node. -/
def children : Node → List Node
  | element _ _ children => children
  | _ => []

/-- Whether a node is an element. -/
def isElement : Node → Bool
  | element .. => true
  | _ => false

/-- The name of an element. -/
def name? : Node → Option Text
  | element name _ _ => some name
  | _ => none

/-- Whether a node is an element of this name. -/
def isNamed (name : Text) (n : Node) : Bool := n.name? = some name

/-- The value of the attribute of this name that belongs to no namespace. -/
def attribute? (name : Text) : Node → Option Text
  | element _ attributes _ => (attributes.find? fun a => a.space = none ∧ a.name = name).map (·.value)
  | _ => none

/-- The text of a node: that of its first child, or none if there is no first child or it is no text. -/
def text? (n : Node) : Option Text :=
  match n.children.head? with
  | some (.text content) => some content
  | _ => none

/-- The text of a node, empty if it has none. -/
def textOrEmpty (n : Node) : Text := n.text?.getD []

mutual

/-- The node itself and everything below it, in document order. -/
def descendants : Node → List Node
  | .element name attributes children => .element name attributes children :: descendantsOfAll children
  | .text content => [.text content]
  | .comment => [.comment]
  | .instruction => [.instruction]

/-- The descendants of several nodes, one after the other. -/
def descendantsOfAll : List Node → List Node
  | [] => []
  | n :: ns => descendants n ++ descendantsOfAll ns

end

theorem descendantsOfAll_eq (ns : List Node) : descendantsOfAll ns = ns.flatMap descendants := by
  induction ns with
  | nil => simp [descendantsOfAll]
  | cons n ns ih => simp [descendantsOfAll, ih]

/-- The descendants of a node are itself and those of its children. -/
theorem descendants_eq (n : Node) : descendants n = n :: n.children.flatMap descendants := by
  cases n <;> simp [descendants, children, descendantsOfAll_eq]

/-- The descendants that are elements of this name. -/
def allNamed (name : Text) (n : Node) : List Node := n.descendants.filter (isNamed name)

/-- The children that are elements of this name. -/
def childrenNamed (name : Text) (n : Node) : List Node := n.children.filter (isNamed name)

end Node

end CprojNinja.Xml
