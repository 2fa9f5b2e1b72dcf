import CprojNinja.Xml.Content
import CprojNinja.Xml.Token
import CprojNinja.Xml.Tree

/-!
# Documents

From tokens to a tree. Tokens are taken one by one; the state is the stack of elements that are open, each with the
namespaces in force inside it and its children so far, and the root element once it is closed. A document is well formed
if no token is refused and at the end one root was read and nothing is open.

Document type declarations are not read: the markup that would start one is no token.
-/

namespace CprojNinja.Xml

/-! ## Namespaces -/

/-- The namespace of the prefix `xml`. -/
def xmlSpace : Text := "http://www.w3.org/XML/1998/namespace"

/-- The namespace of declarations, which nothing else may be bound to. -/
def declarationSpace : Text := "http://www.w3.org/2000/xmlns/"

/-- The namespaces in force: a prefix (none for the default namespace) with what it is bound to, innermost first. -/
abbrev Scope := List (Option Text × Text)

/-- What a prefix is bound to. -/
def Scope.find? (scope : Scope) (mark : Option Text) : Option Text :=
  (List.find? (fun b => b.1 = mark) scope).map (·.2)

/-- Adds the declaration of a namespace to the declarations `own` of one element. A prefix is declared once in an
element, the default namespace any number of times (the first one counts), and the reserved names and namespaces are
respected. -/
def declare? (own : Scope) (name : QName) (value : Text) : Option Scope :=
  if name.space = "xmlns" then
    if value = declarationSpace then none
    else if name.localPart = "xml" then if value = xmlSpace then some own else none
    else if value = xmlSpace ∨ (own.find? (some name.localPart)).isSome then none
    else some (own ++ [(some name.localPart, value)])
  else if value = xmlSpace ∨ value = declarationSpace then none
  else some (own ++ [(none, value)])

/-- Whether an attribute declares a namespace. -/
def QName.isDeclaration (name : QName) : Bool := name.space = "xmlns" || name.localPart = "xmlns"

/-- Reads the values of the attributes of an element, and tells its namespace declarations from its other attributes. -/
def sortAttributes? : (own : Scope) → List RawAttribute → Option (Scope × List (QName × Text))
  | own, [] => some (own, [])
  | own, a :: rest => do
    let value ← attributeValue? a.value
    if a.name.isDeclaration then
      sortAttributes? (← declare? own a.name value) rest
    else
      let (own, others) ← sortAttributes? own rest
      return (own, (a.name, value) :: others)

/-- The namespace of an attribute; the outer option is about prefixes that are not bound. -/
def attributeSpace? (scope : Scope) (name : QName) : Option (Option Text) :=
  if name.space = "xml" then some (some xmlSpace)
  else if name.space = [] then some none
  else (scope.find? (some name.space)).map some

/-- Gives the attributes of an element their namespaces. No two of them may then have the same name. -/
def resolveAttributes? (scope : Scope) : List (QName × Text) → Option (List Attribute)
  | [] => some []
  | (name, value) :: rest => do
    let space ← attributeSpace? scope name
    let others ← resolveAttributes? scope rest
    if others.any fun a => a.space = space && a.name = name.localPart then none
    else return ⟨space, name.localPart, value⟩ :: others

/-! ## Open elements -/

/-- An element whose end tag is still to come. -/
structure OpenElement where
  /-- Its name as written: the end tag must repeat it. -/
  name : QName
  /-- Its attributes. -/
  attributes : List Attribute
  /-- The namespaces in force inside it. -/
  scope : Scope
  /-- Its children so far, the last one first. -/
  reversed : List Node
  deriving Repr

namespace OpenElement

/-- The element with one more child. -/
def addNode (e : OpenElement) (n : Node) : OpenElement := { e with reversed := n :: e.reversed }

/-- The element with more character data: it joins the text before it, if text is the last child so far. -/
def addText (e : OpenElement) (content : Text) : OpenElement :=
  match e.reversed with
  | .text before :: rest => { e with reversed := .text (before ++ content) :: rest }
  | reversed => { e with reversed := .text content :: reversed }

/-- The node that the element is once it is closed. -/
def close (e : OpenElement) : Node := .element e.name.localPart e.attributes e.reversed.reverse

end OpenElement

/-- Opens an element: its name and its attributes are resolved. -/
def openElement? (outer : Scope) (name : QName) (attributes : List RawAttribute) : Option OpenElement := do
  let (own, others) ← sortAttributes? [] attributes
  let scope := own ++ outer
  let attributes ← resolveAttributes? scope others
  if name.space = "xmlns" ∨ name.space ≠ [] ∧ (scope.find? (some name.space)).isNone then none
  else return ⟨name, attributes, scope, []⟩

/-! ## Building the tree -/

/-- What is known of a document after some of its tokens. -/
structure Builder where
  /-- The open elements, innermost first. -/
  stack : List OpenElement := []
  /-- The root element, once it is closed. -/
  root : Option Node := none
  deriving Repr

namespace Builder

/-- Puts a finished node where it belongs. Outside of all elements only the root counts. -/
def place (b : Builder) (n : Node) : Builder :=
  match b.stack with
  | e :: rest => { b with stack := e.addNode n :: rest }
  | [] => if n.isElement then { b with root := some n } else b

/-- Takes one token. -/
def take? (b : Builder) : Token → Option Builder
  | .characters raw =>
    match b.stack with
    | e :: rest => (characterData? raw).map fun content => { b with stack := e.addText content :: rest }
    | [] => if raw.all isSpace then some b else none
  | .unparsed raw =>
    match b.stack with
    | e :: rest => some { b with stack := e.addText (sectionData raw) :: rest }
    | [] => none
  | .comment => some (b.place .comment)
  | .instruction => some (b.place .instruction)
  | .startTag name attributes closed =>
    if b.stack.isEmpty && b.root.isSome then none
    else
      let outer := (b.stack.head?.map (·.scope)).getD []
      (openElement? outer name attributes).map fun e =>
        if closed then b.place e.close else { b with stack := e :: b.stack }
  | .endTag name =>
    match b.stack with
    | e :: rest => if e.name = name then some ({ b with stack := rest }.place e.close) else none
    | [] => none

/-- The root of the document, if nothing is open any more. -/
def finish? (b : Builder) : Option Node := if b.stack.isEmpty then b.root else none

end Builder

/-- The root element of a document given by its tokens. -/
def ofTokens? (tokens : List Token) : Option Node := do (← tokens.foldlM Builder.take? {}).finish?

/-! ## Documents as written -/

/-- The characters behind a space, or behind nothing if the declaration ends here. -/
def declarationGap? (s : Text) : Option Text :=
  if s.head?.all isSpace || Text.startsWith "?>" s then some (skipSpace s) else none

/-- Passes an attribute whose name starts in a given way. -/
def skipDeclared? (start s : Text) : Option Text :=
  if Text.startsWith start s then (readAttribute s).map (·.2) else none

/-- Passes the XML declaration behind its `<?xml`: a version, then perhaps an encoding, then perhaps a remark on
standing alone. None of their values matters. -/
def skipDeclaration? (s : Text) : Option Text := do
  let s ← declarationGap? s
  let s ← skipDeclared? "version" s
  let s ← declarationGap? s
  let s ← if Text.startsWith "encoding" s then skipDeclared? "encoding" s >>= declarationGap? else some s
  let s ← if Text.startsWith "standalone" s then skipDeclared? "standalone" s else some s
  Text.dropStart? "?>" (skipSpace s)

/-- The root element of a document as written: a byte order mark and an XML declaration may come first, in this order
and at the very start. -/
def parse? (source : Text) : Option Node := do
  if source.all isXmlChar then
    let s := Text.withoutStart "\uFEFF" source
    let s ← if Text.startsWith "<?xml " s then skipDeclaration? (s.drop 5) else some s
    ofTokens? (← readTokens s)
  else none

end CprojNinja.Xml
