import CprojNinja.Project.Reader
import CprojNinja.Proofs.Outcomes

/-!
# What a document says

A project document has to state a few facts. If it does, then only the names of its references can still be refused, and
the project is put together from the parts of the document, each of which is looked up on its own.

Items are looked up group by group. That is the order in which they stand in the document as long as no group is part of
another one.
-/

namespace CprojNinja

open Xml (Node)

/-! ## Trees -/

namespace Xml.Node

/-- What holds of a node if it holds of its children holds of every node. -/
theorem induction_on_children {motive : Node → Prop} (n : Node)
    (step : ∀ n, (∀ child ∈ n.children, motive child) → motive n) : motive n := by
  refine @Node.rec motive (fun children => ∀ child ∈ children, motive child) ?_ ?_ ?_ ?_ ?_ ?_ n
  · exact fun name attributes children hchildren => step _ hchildren
  · exact fun content => step _ (by simp [children])
  · exact step _ (by simp [children])
  · exact step _ (by simp [children])
  · exact fun child hchild => absurd hchild List.not_mem_nil
  · exact fun first rest hfirst hrest => List.forall_mem_cons.2 ⟨hfirst, hrest⟩

theorem allNamed_eq (name : Text) (n : Node) :
    n.allNamed name = (if n.isNamed name then [n] else []) ++ n.children.flatMap (allNamed name) := by
  unfold allNamed
  rw [descendants_eq, List.filter_cons, List.filter_flatMap]
  split <;> rfl

end Xml.Node

namespace Project

/-! ## Facts -/

/-- The facts that have no default. -/
def identityKeys : List Text := ["Language", "OutputType", "OutputFileName", "OutputFileExtension"]

/-- All facts that are looked up. -/
def factNames : List Text := ["SchemaVersion", "Language", "OutputType", "OutputFileName", "OutputFileExtension",
  "ProjectVersion", "ToolchainName", "ToolchainFlavour"]

/-- The kinds of items that are looked up. -/
def itemKinds : List Text := ["ProjectReference", "Compile"]

/-- Whether two documents state the same facts and list the same items. -/
structure SameLookups (root root' : Node) : Prop where
  /-- All facts are the same. -/
  facts : ∀ name ∈ factNames, property? root name = property? root' name
  /-- All items are the same. -/
  items : ∀ kind ∈ itemKinds, includedPaths root kind = includedPaths root' kind

/-- Whether a document states what every project has to state. -/
structure HasIdentity (root : Node) : Prop where
  /-- Its schema is the one that is understood. -/
  schema : property? root "SchemaVersion" = some supportedSchema
  /-- All facts without a default are there. -/
  keys : ∀ key ∈ identityKeys, (property? root key).isSome

/-- The project of a document with certain references. -/
def described (output : Text) (root : Node) (references : List Reference) : Project :=
  let language : Language := if (property? root "Language").getD [] = "CPP" then .cpp else .c
  { language
    outputKind := if (property? root "OutputType").getD [] = "StaticLibrary" then .archive else .executable
    outputName := Text.replaceAll nameVariable output ((property? root "OutputFileName").getD [])
    outputExtension := (property? root "OutputFileExtension").getD []
    toolchain := {
      studioVersion := (property? root "ProjectVersion").getD []
      name := (property? root "ToolchainName").getD []
      flavour := (property? root "ToolchainFlavour").getD [] }
    references
    sources := includedPaths root "Compile"
    configurations := (root.childrenNamed "PropertyGroup").filterMap (configurationOfGroup? language) }

variable {output : Text} {root : Node} {p : Project}

theorem requiredProperty_eq_ok {name text : Text} :
    requiredProperty root name = .ok text ↔ property? root name = some text := by
  unfold requiredProperty
  cases property? root name <;> simp

/-- Once the facts are there, only the references decide. -/
theorem ofDocument_of_hasIdentity (h : HasIdentity root) (output : Text) :
    ofDocument output root =
      described output root <$> (includedPaths root "ProjectReference").mapM referenceOfPath := by
  have hkeys := h.keys
  simp only [identityKeys, List.forall_mem_cons, Option.isSome_iff_exists] at hkeys
  obtain ⟨⟨language, hlanguage⟩, ⟨kind, hkind⟩, ⟨name, hname⟩, ⟨extension, hextension⟩, -⟩ := hkeys
  have hschema : ¬ (property? root "SchemaVersion").getD [] ≠ supportedSchema := by
    rw [h.schema]
    exact not_not.2 rfl
  unfold ofDocument
  rw [if_neg hschema, requiredProperty_eq_ok.2 hlanguage, requiredProperty_eq_ok.2 hkind,
    requiredProperty_eq_ok.2 hname, requiredProperty_eq_ok.2 hextension]
  cases (includedPaths root "ProjectReference").mapM referenceOfPath with
  | error e => rfl
  | ok references =>
    show Except.ok _ = Except.ok (described output root references)
    unfold described
    rw [hlanguage, hkind, hname, hextension]
    rfl

/-- A document that is accepted states all facts. -/
theorem hasIdentity_of_ofDocument (h : ofDocument output root = .ok p) : HasIdentity root := by
  unfold ofDocument at h
  by_cases hschema : (property? root "SchemaVersion").getD [] = supportedSchema
  · rw [if_neg (not_not.2 hschema)] at h
    obtain ⟨language, hlanguage, h⟩ := bind_eq_ok.1 h
    obtain ⟨kind, hkind, h⟩ := bind_eq_ok.1 h
    obtain ⟨name, hname, h⟩ := bind_eq_ok.1 h
    obtain ⟨extension, hextension, -⟩ := bind_eq_ok.1 h
    refine ⟨?_, ?_⟩
    · cases hversion : property? root "SchemaVersion" with
      | none =>
        rw [hversion] at hschema
        exact absurd hschema (by decide)
      | some version =>
        rw [hversion] at hschema
        exact congrArg some hschema
    · simp only [identityKeys, List.forall_mem_cons, requiredProperty_eq_ok.1 hlanguage,
        requiredProperty_eq_ok.1 hkind, requiredProperty_eq_ok.1 hname, requiredProperty_eq_ok.1 hextension]
      simp
  · rw [if_pos hschema] at h
    cases h

/-- The project of a document is the one that its parts describe. -/
theorem ofDocument_eq_ok_iff : ofDocument output root = .ok p ↔ HasIdentity root ∧
    ∃ references, (includedPaths root "ProjectReference").mapM referenceOfPath = .ok references ∧
      p = described output root references := by
  constructor
  · intro h
    have hidentity := hasIdentity_of_ofDocument h
    rw [ofDocument_of_hasIdentity hidentity] at h
    cases hreferences : (includedPaths root "ProjectReference").mapM referenceOfPath with
    | error e =>
      rw [hreferences] at h
      cases h
    | ok references =>
      rw [hreferences] at h
      exact ⟨hidentity, references, rfl, (Except.ok.inj h).symm⟩
  · rintro ⟨hidentity, references, hreferences, rfl⟩
    rw [ofDocument_of_hasIdentity hidentity, hreferences]
    rfl

/-- The configurations of a document. -/
def configurationsIn (language : Language) (root : Node) : List Configuration :=
  (root.childrenNamed "PropertyGroup").filterMap (configurationOfGroup? language)

/-- Documents that state the same facts and list the same items differ in nothing but their configurations. -/
theorem ofDocument_of_sameLookups {root' : Node} (h : SameLookups root root') (output : Text) :
    ofDocument output root' =
      (ofDocument output root).map fun p => { p with configurations := configurationsIn p.language root' } := by
  have hfacts := h.facts
  have hitems := h.items
  simp only [factNames, itemKinds, List.forall_mem_cons] at hfacts hitems
  obtain ⟨hschema, hlanguage, hkind, hname, hextension, hversion, htoolchain, hflavour, -⟩ := hfacts
  obtain ⟨hreferences, hsources, -⟩ := hitems
  unfold ofDocument requiredProperty
  rw [← hschema, ← hlanguage, ← hkind, ← hname, ← hextension, ← hversion, ← htoolchain, ← hflavour, ← hreferences,
    ← hsources]
  by_cases hsupported : (property? root "SchemaVersion").getD [] = supportedSchema
  · rw [if_neg (not_not.2 hsupported), if_neg (not_not.2 hsupported)]
    cases property? root "Language"
    · rfl
    cases property? root "OutputType"
    · rfl
    cases property? root "OutputFileName"
    · rfl
    cases property? root "OutputFileExtension"
    · rfl
    cases (includedPaths root "ProjectReference").mapM referenceOfPath <;> rfl
  · rw [if_pos hsupported, if_pos hsupported]
    rfl

/-- Documents that state the same facts, list the same items and have the same configurations are the same to the
reader. -/
theorem ofDocument_congr {root' : Node} (h : SameLookups root root')
    (hconfigurations : ∀ language, configurationsIn language root = configurationsIn language root') (output : Text) :
    ofDocument output root = ofDocument output root' := by
  rw [ofDocument_of_sameLookups h]
  cases hp : ofDocument output root with
  | error e => rfl
  | ok p =>
    obtain ⟨-, references, -, rfl⟩ := ofDocument_eq_ok_iff.1 hp
    exact congrArg (fun configurations => Except.ok { described output root references with configurations })
      (hconfigurations (described output root references).language)

end Project

/-! ## Items -/

namespace Xml.Node

/-- The name of the elements that hold items. -/
def groupName : Text := "ItemGroup"

mutual

/-- The items of a kind in a node, in document order: the children of item groups that have the name of the kind.
`inGroup` tells whether the node itself is such a child. -/
def itemsInOrder (kind : Text) (inGroup : Bool) : Node → List Node
  | .element name attributes children =>
    (if inGroup && name = kind then [.element name attributes children] else []) ++
      itemsInOrderOfAll kind (name = groupName) children
  | _ => []

/-- The items in several nodes, one after the other. -/
def itemsInOrderOfAll (kind : Text) (inGroup : Bool) : List Node → List Node
  | [] => []
  | n :: ns => itemsInOrder kind inGroup n ++ itemsInOrderOfAll kind inGroup ns

end

theorem itemsInOrderOfAll_eq (kind : Text) (inGroup : Bool) (ns : List Node) :
    itemsInOrderOfAll kind inGroup ns = ns.flatMap (itemsInOrder kind inGroup) := by
  induction ns with
  | nil => simp [itemsInOrderOfAll]
  | cons n ns ih => simp [itemsInOrderOfAll, ih]

theorem itemsInOrder_eq (kind : Text) (inGroup : Bool) (n : Node) : itemsInOrder kind inGroup n =
    (if inGroup && n.isNamed kind then [n] else []) ++
      n.children.flatMap (itemsInOrder kind (n.isNamed groupName)) := by
  cases n <;> simp [itemsInOrder, itemsInOrderOfAll_eq, isNamed, name?, children]

/-- No item group is part of another one. -/
def GroupsApart (n : Node) : Prop :=
  ∀ group ∈ n.allNamed groupName, ∀ child ∈ group.children, ∀ below ∈ child.descendants,
    below.isNamed groupName = false

theorem GroupsApart.child {n child : Node} (h : n.GroupsApart) (hchild : child ∈ n.children) : child.GroupsApart := by
  intro group hgroup
  refine h group ?_
  rw [allNamed_eq]
  exact List.mem_append_right _ (List.mem_flatMap.2 ⟨child, hchild, hgroup⟩)

theorem flatMap_if_singleton {α : Type} (q : α → Bool) (xs : List α) :
    xs.flatMap (fun x => if q x then [x] else []) = xs.filter q := by
  induction xs with
  | nil => rfl
  | cons x xs ih => by_cases h : q x <;> simp [h, ih]

/-- Without groups in groups the items of all groups, one group after the other, are the items in document order. -/
theorem itemsInOrder_of_groupsApart (kind : Text) {n : Node} (h : n.GroupsApart) (inGroup : Bool) :
    n.itemsInOrder kind inGroup = (if inGroup && n.isNamed kind then [n] else []) ++
      (n.allNamed groupName).flatMap (childrenNamed kind) := by
  induction n using induction_on_children generalizing inGroup with
  | step n ih =>
    have hchildren : n.children.flatMap (itemsInOrder kind (n.isNamed groupName)) =
        n.children.flatMap fun child => (if n.isNamed groupName && child.isNamed kind then [child] else []) ++
          (child.allNamed groupName).flatMap (childrenNamed kind) :=
      List.flatMap_congr fun child hchild => ih child hchild (h.child hchild) _
    rw [itemsInOrder_eq, hchildren, allNamed_eq, List.flatMap_append, List.flatMap_assoc]
    congr 1
    by_cases hgroup : n.isNamed groupName = true
    · -- there are no groups below a group, so its items are all that is listed
      have hmem : n ∈ n.allNamed groupName := by
        rw [allNamed_eq, if_pos hgroup]
        exact List.mem_append_left _ (List.mem_singleton_self n)
      have hinner (child : Node) (hchild : child ∈ n.children) : child.allNamed groupName = [] :=
        List.filter_eq_nil_iff.2 fun below hbelow => by simp [h n hmem child hchild below hbelow]
      have hgroups : n.children.flatMap (allNamed groupName) = [] := List.flatMap_eq_nil_iff.2 hinner
      have hitems : n.children.flatMap (fun child =>
          (if n.isNamed groupName && child.isNamed kind then [child] else []) ++
            (child.allNamed groupName).flatMap (childrenNamed kind)) = n.childrenNamed kind := by
        rw [childrenNamed, ← flatMap_if_singleton]
        refine List.flatMap_congr fun child hchild => ?_
        rw [hinner child hchild, hgroup]
        simp
      rw [hitems, if_pos hgroup, ← List.flatMap_assoc, hgroups]
      simp
    · simp [hgroup]

end Xml.Node

/-! ## Short documents -/

namespace Xml.Node

/-- An element with a text. -/
def leaf (name content : Text) : Node := .element name [] [.text content]

/-- An item that includes a path. -/
def item (kind path : Text) : Node := .element kind [⟨none, "Include", path⟩] []

/-- The document of a C program with one configuration, called `Debug`, without any properties. -/
def programDocument (items : List Node) : Node :=
  .element "Project" [] [
    .element "PropertyGroup" [] [
      leaf "SchemaVersion" "2.0", leaf "Language" "C", leaf "OutputType" "Executable",
      leaf "OutputFileName" "$(MSBuildProjectName)", leaf "OutputFileExtension" ".elf"],
    .element "PropertyGroup" [⟨none, "Condition", "'$(Configuration)' == 'Debug'"⟩] [],
    .element groupName [] items]

end Xml.Node

namespace Project

open Xml.Node (programDocument)

variable {items : List Node} {output : Text} {p : Project}

theorem hasIdentity_programDocument (items : List Node) : HasIdentity (programDocument items) := by
  refine ⟨rfl, ?_⟩
  unfold identityKeys
  simp only [List.forall_mem_cons, List.not_mem_nil, false_implies, implies_true, and_true]
  exact ⟨rfl, rfl, rfl, rfl⟩

theorem ofDocument_programDocument (h : ofDocument output (programDocument items) = .ok p) :
    p.language = .c ∧ p.isArchive = false ∧ p.outputName = Text.replaceAll nameVariable output nameVariable ∧
      p.sources = includedPaths (programDocument items) "Compile" ∧ p.configurations = [⟨"Debug", []⟩] := by
  obtain ⟨-, references, -, rfl⟩ := ofDocument_eq_ok_iff.1 h
  exact ⟨rfl, rfl, rfl, rfl, rfl⟩

end Project

end CprojNinja
