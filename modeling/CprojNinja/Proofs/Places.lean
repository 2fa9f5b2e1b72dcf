import CprojNinja.Proofs.Selections

/-!
# Places in a document

An element stands in a place: the elements around it, each with the children on both sides. Two documents that differ in
one element are that element and another one in the same place.

The reader looks for elements of some name anywhere in the document, and at each of them for children of some name. What
it finds so in two such documents differs only where it looks at the element itself, as long as the two elements cannot
be told apart from the outside. This module says so for all three things that are looked for: facts, items and settings.
-/

namespace CprojNinja

namespace Xml

/-- An element with a gap among its children. -/
structure Frame where
  /-- The name of the element. -/
  name : Text
  /-- Its attributes. -/
  attributes : List Attribute
  /-- The children before the gap. -/
  before : List Node
  /-- The children behind the gap. -/
  after : List Node

/-- The element with a node in its gap. -/
def Frame.plug (frame : Frame) (n : Node) : Node :=
  .element frame.name frame.attributes (frame.before ++ n :: frame.after)

namespace Node

/-- A document with a node in some place; the outermost element comes first. -/
def within (place : List Frame) (n : Node) : Node := place.foldr Frame.plug n

@[simp] theorem within_nil (n : Node) : n.within [] = n := rfl

@[simp] theorem within_cons (frame : Frame) (place : List Frame) (n : Node) :
    n.within (frame :: place) = frame.plug (n.within place) := rfl

/-! ## Gathering -/

variable {α : Type} {group : Text} {f : Node → List α} {n n' : Node}

/-- What `f` finds in the elements of some name, in document order. -/
def gather (group : Text) (f : Node → List α) (n : Node) : List α := (n.allNamed group).flatMap f

theorem gather_eq (group : Text) (f : Node → List α) (n : Node) :
    n.gather group f = (if n.isNamed group then f n else []) ++ n.children.flatMap (gather group f) := by
  unfold gather
  rw [allNamed_eq, List.flatMap_append, List.flatMap_assoc]
  split <;> simp

theorem gather_plug (frame : Frame) (n : Node) : (frame.plug n).gather group f =
    (if (frame.plug n).isNamed group then f (frame.plug n) else []) ++ frame.before.flatMap (gather group f) ++
      n.gather group f ++ frame.after.flatMap (gather group f) := by
  rw [gather_eq]
  simp [Frame.plug, children]

/-- What is found before and around a place. -/
def gatherBefore (group : Text) (f : Node → List α) (n : Node) : List Frame → List α
  | [] => []
  | frame :: place => (if frame.name = group then f (n.within (frame :: place)) else []) ++
      frame.before.flatMap (gather group f) ++ gatherBefore group f n place

/-- What is found behind a place. -/
def gatherBehind (group : Text) (f : Node → List α) : List Frame → List α
  | [] => []
  | frame :: place => gatherBehind group f place ++ frame.after.flatMap (gather group f)

theorem gather_within (place : List Frame) (n : Node) : (n.within place).gather group f =
    gatherBefore group f n place ++ n.gather group f ++ gatherBehind group f place := by
  induction place with
  | nil => simp [gatherBefore, gatherBehind]
  | cons frame place ih =>
    have hnamed : (frame.plug (n.within place)).isNamed group = decide (frame.name = group) := by
      simp [isNamed, name?, Frame.plug]
    rw [within_cons, gather_plug, ih, hnamed, gatherBefore, gatherBehind, within_cons]
    simp only [List.append_assoc, decide_eq_true_eq]

/-! ## Children of some name -/

/-- The texts of a child, if it has the name that is looked for. -/
def textIn (name : Text) (child : Node) : List Text := if child.isNamed name then [child.textOrEmpty] else []

theorem textIn_of_ne {name other : Text} (h : name ≠ other) (attributes : List Attribute) (children : List Node) :
    textIn other (element name attributes children) = [] := by
  have hnamed : (element name attributes children).isNamed other = false :=
    decide_eq_false fun heq => h (Option.some.inj heq)
  rw [textIn, hnamed, if_neg Bool.false_ne_true]

/-- The values in a child, if it lists values. -/
def valuesIn (child : Node) : List Text :=
  if child.isNamed "ListValues" then child.children.flatMap (textIn "Value") else []

theorem flatMap_filter_eq {β : Type} (q : β → Bool) (g : β → List α) (xs : List β) :
    (xs.filter q).flatMap g = xs.flatMap fun x => if q x then g x else [] := by
  rw [← flatMap_if_singleton, List.flatMap_assoc]
  refine List.flatMap_congr fun x _ => ?_
  split <;> simp

theorem map_textOrEmpty_childrenNamed (name : Text) (n : Node) :
    (n.childrenNamed name).map textOrEmpty = n.children.flatMap (textIn name) := by
  rw [List.map_eq_flatMap, childrenNamed, flatMap_filter_eq]
  rfl

theorem listedValues_eq (n : Node) : Project.listedValues n = n.children.flatMap valuesIn := by
  unfold Project.listedValues
  rw [List.map_flatMap, childrenNamed, flatMap_filter_eq]
  simp only [map_textOrEmpty_childrenNamed]
  rfl

/-! ## Two elements in one place -/

/-- Whether two elements cannot be told apart from the outside: by their name, by their attributes, or by what they
contribute to the values of a setting. -/
structure Alike (n n' : Node) : Prop where
  /-- Both are elements. -/
  isElement : n.isElement = true ∧ n'.isElement = true
  /-- They have the same name. -/
  name?_eq : n.name? = n'.name?
  /-- They have the same attributes. -/
  attribute?_eq : ∀ name, n.attribute? name = n'.attribute? name
  /-- They are the same values. -/
  value_eq : textIn "Value" n = textIn "Value" n'
  /-- They list the same values. -/
  values_eq : valuesIn n = valuesIn n'

theorem flatMap_children_plug {v : Node → List α} (frame : Frame) (h : v n = v n') :
    (frame.plug n).children.flatMap v = (frame.plug n').children.flatMap v := by
  simp [Frame.plug, children, h]

theorem exists_eq_element (h : n.isElement = true) :
    ∃ name attributes children, n = .element name attributes children := by
  cases n with
  | element name attributes children => exact ⟨name, attributes, children, rfl⟩
  | text content => cases h
  | comment => cases h
  | instruction => cases h

/-- An element never is the text of the element around it. -/
theorem textOrEmpty_plug (frame : Frame) (h : n.isElement = true) (h' : n'.isElement = true) :
    (frame.plug n).textOrEmpty = (frame.plug n').textOrEmpty := by
  obtain ⟨_, _, _, rfl⟩ := exists_eq_element h
  obtain ⟨_, _, _, rfl⟩ := exists_eq_element h'
  obtain ⟨name, attributes, before, after⟩ := frame
  cases before <;> rfl

theorem Alike.isNamed_eq (h : Alike n n') (name : Text) : n.isNamed name = n'.isNamed name := by
  unfold isNamed
  rw [h.name?_eq]

theorem Alike.textIn_plug (h : Alike n n') (frame : Frame) (name : Text) :
    textIn name (frame.plug n) = textIn name (frame.plug n') := by
  unfold textIn
  rw [textOrEmpty_plug frame h.isElement.1 h.isElement.2]
  rfl

theorem Alike.plug (h : Alike n n') (frame : Frame) : Alike (frame.plug n) (frame.plug n') where
  isElement := ⟨rfl, rfl⟩
  name?_eq := rfl
  attribute?_eq _ := rfl
  value_eq := h.textIn_plug frame "Value"
  values_eq := by
    unfold valuesIn
    rw [flatMap_children_plug frame h.value_eq]
    rfl

theorem Alike.within (h : Alike n n') (place : List Frame) : Alike (n.within place) (n'.within place) := by
  induction place with
  | nil => exact h
  | cons frame place ih => exact ih.plug frame

theorem Alike.propertyOfElement_plug (h : Alike n n') (frame : Frame) :
    Project.propertyOfElement (frame.plug n) = Project.propertyOfElement (frame.plug n') := by
  have hvalues : Project.listedValues (frame.plug n) = Project.listedValues (frame.plug n') := by
    rw [listedValues_eq, listedValues_eq, flatMap_children_plug frame h.values_eq]
  show some (Property.mk frame.name (frame.plug n).textOrEmpty (Project.listedValues (frame.plug n))) =
    some (Property.mk frame.name (frame.plug n').textOrEmpty (Project.listedValues (frame.plug n')))
  rw [hvalues, textOrEmpty_plug frame h.isElement.1 h.isElement.2]

/-- The name of the element around a place. -/
def parentName? (place : List Frame) : Option Text := place.getLast?.map (·.name)

/-- What is found before and around two elements is the same, if what is looked for tells them apart at most where it is
looked for among the children of the element around them. -/
theorem gatherBefore_congr {v : Node → List α} {place : List Frame}
    (hbelow : ∀ frame inner, v (n.within (frame :: inner)) = v (n'.within (frame :: inner)))
    (hlast : parentName? place = some group → v n = v n') :
    gatherBefore group (fun g => g.children.flatMap v) n place =
      gatherBefore group (fun g => g.children.flatMap v) n' place := by
  induction place with
  | nil => rfl
  | cons frame place ih =>
    unfold gatherBefore
    cases place with
    | nil =>
      by_cases hframe : frame.name = group
      · have hv := hlast (congrArg some hframe)
        rw [within_cons, within_cons, within_nil, within_nil, flatMap_children_plug frame hv]
        rfl
      · rw [if_neg hframe, if_neg hframe]
        rfl
    | cons inner place =>
      have hchildren := flatMap_children_plug frame (hbelow inner place)
      rw [ih hlast, within_cons, within_cons frame, hchildren]

end Node

end Xml

namespace Project

open Xml Xml.Node

/-! ## What the reader looks for -/

/-- The path that a child includes, if it is an item of the kind that is looked for. -/
def pathIn (kind : Text) (child : Node) : List Path :=
  if child.isNamed kind then ((child.attribute? "Include").map Path.forwardSlashes).toList else []

/-- The property that a child of a settings element stands for. -/
def settingIn (child : Node) : List Property := (propertyOfElement child).toList

theorem property?_eq (root : Node) (name : Text) :
    property? root name = (root.gather "PropertyGroup" fun g => g.children.flatMap (textIn name)).head? := by
  unfold property? propertyElements gather
  rw [← List.head?_filter, List.filter_flatMap, ← List.head?_map, List.map_flatMap]
  simp only [← map_textOrEmpty_childrenNamed]
  rfl

theorem includedPaths_eq (root : Node) (kind : Text) :
    includedPaths root kind = root.gather "ItemGroup" fun g => g.children.flatMap (pathIn kind) := by
  unfold includedPaths gather
  rw [List.filterMap_flatMap, List.map_flatMap]
  refine List.flatMap_congr fun g _ => ?_
  rw [List.map_filterMap, List.filterMap_eq_flatMap_toList, childrenNamed, flatMap_filter_eq]
  rfl

theorem propertiesOfGroup_eq (language : Language) (group : Node) : propertiesOfGroup language group =
    group.gather language.settingsElement fun s => s.children.flatMap settingIn := by
  unfold propertiesOfGroup gather
  rw [List.filterMap_flatMap]
  refine List.flatMap_congr fun s _ => ?_
  rw [List.filterMap_eq_flatMap_toList]
  rfl

end Project

end CprojNinja
