import CprojNinja.Conversion
import CprojNinja.Proofs.Places
import Mathlib.Logic.Relation

/-!
# Stray text

Comments, processing instructions and text stand between the elements of a document. The reader goes from element to
element, and the only text that it reads is that of a fact, of a property and of a value. The text of such an element is
its first child, so even a comment in front of it matters there.

Main statement: nowhere else does any of this matter. Indenting a document in another way changes neither the project
nor its build file.
-/

namespace CprojNinja

open Xml (Attribute Frame Node)
open Xml.Node (Alike groupName item leaf parentName? programDocument textIn textIn_of_ne)

/-! ## Elements whose text is read -/

namespace Project

/-- Whether the text of an element is one that may be read, by its name and by that of the element around it: it states
a fact, it is a property, or it is a value. -/
def HasReadText (parent? : Option Text) (name : Text) : Prop :=
  (parent? = some "PropertyGroup" ∧ name ∈ factNames) ∨ parent? = some Language.c.settingsElement ∨
    parent? = some Language.cpp.settingsElement ∨ name = "Value"

instance (parent? : Option Text) (name : Text) : Decidable (HasReadText parent? name) :=
  inferInstanceAs (Decidable (_ ∧ _ ∨ _ ∨ _ ∨ _))

theorem hasReadText_of_settingsElement (language : Language) (name : Text) :
    HasReadText (some language.settingsElement) name := by
  cases language with
  | c => exact .inr (.inl rfl)
  | cpp => exact .inr (.inr (.inl rfl))

/-- Whether two documents differ in nothing but comments, instructions and texts among the children of one element, and
it is no element whose text may be read. -/
inductive Restyles : Node → Node → Prop where
  /-- The element stands in the same place. -/
  | intro (place : List Frame) (name : Text) (attributes : List Attribute) {old new : List Node}
      (elements : old.filter Node.isElement = new.filter Node.isElement)
      (unread : ¬ HasReadText (parentName? place) name) :
      Restyles ((Node.element name attributes old).within place) ((Node.element name attributes new).within place)

end Project

/-! ## Looking at elements only -/

namespace Xml.Node

variable {α : Type} {v : Node → List α} {old new : List Node}

/-- Whether nothing is found in a node that is no element. -/
def OnElements (v : Node → List α) : Prop := ∀ n, n.isElement = false → v n = []

theorem isNamed_of_isElement_eq_false {n : Node} (h : n.isElement = false) (name : Text) : n.isNamed name = false := by
  cases n with
  | element name attributes children => cases h
  | text content => rfl
  | comment => rfl
  | instruction => rfl

theorem onElements_textIn (name : Text) : OnElements (textIn name) := fun n h => by
  rw [textIn, isNamed_of_isElement_eq_false h, if_neg Bool.false_ne_true]

theorem onElements_gather (group : Text) (f : Node → List α) : OnElements (gather group f) := fun n h => by
  have hchildren : n.children = [] := by
    cases n with
    | element name attributes children => cases h
    | text content => rfl
    | comment => rfl
    | instruction => rfl
  rw [gather_eq, isNamed_of_isElement_eq_false h, hchildren]
  rfl

/-- What is found among children is found among those of them that are elements. -/
theorem OnElements.flatMap_eq (hv : OnElements v) (h : old.filter isElement = new.filter isElement) :
    old.flatMap v = new.flatMap v := by
  have hfilter (children : List Node) : children.flatMap v = (children.filter isElement).flatMap v := by
    rw [flatMap_filter_eq]
    refine List.flatMap_congr fun child _ => ?_
    by_cases hchild : child.isElement = true
    · rw [if_pos hchild]
    · rw [if_neg hchild, hv child (Bool.eq_false_iff.2 hchild)]
  rw [hfilter, h, ← hfilter]

section Restyled

variable {name group : Text} {attributes : List Attribute} {place : List Frame}
  (h : old.filter isElement = new.filter isElement)
include h

/-- Only if an element is a value can its stray text be told from the outside. -/
theorem alike_of_elements (hname : name ≠ "Value") :
    Alike (.element name attributes old) (.element name attributes new) where
  isElement := ⟨rfl, rfl⟩
  name?_eq := rfl
  attribute?_eq _ := rfl
  value_eq := (textIn_of_ne hname attributes old).trans (textIn_of_ne hname attributes new).symm
  values_eq := by
    have hvalues : old.flatMap (textIn "Value") = new.flatMap (textIn "Value") := (onElements_textIn _).flatMap_eq h
    rw [valuesIn, valuesIn, children, children, hvalues]
    rfl

/-- What is looked for at elements of some name is found whatever stands between the children of an element. -/
theorem gather_within_of_elements (hv : OnElements v)
    (hbelow : ∀ frame inner, v ((element name attributes old).within (frame :: inner)) =
      v ((element name attributes new).within (frame :: inner)))
    (hlast : parentName? place = some group → v (.element name attributes old) = v (.element name attributes new)) :
    ((element name attributes old).within place).gather group (fun g => g.children.flatMap v) =
      ((element name attributes new).within place).gather group fun g => g.children.flatMap v := by
  have hinside : (element name attributes old).gather group (fun g => g.children.flatMap v) =
      (element name attributes new).gather group fun g => g.children.flatMap v := by
    rw [gather_eq, gather_eq, children, children, hv.flatMap_eq h, (onElements_gather group _).flatMap_eq h]
    rfl
  rw [gather_within, gather_within, gatherBefore_congr hbelow hlast, hinside]

end Restyled

end Xml.Node

/-! ## One element -/

namespace Project

open Xml.Node (OnElements alike_of_elements flatMap_children_plug gather_within_of_elements
  isNamed_of_isElement_eq_false)

theorem onElements_pathIn (kind : Text) : OnElements (pathIn kind) := fun n h => by
  rw [pathIn, isNamed_of_isElement_eq_false h, if_neg Bool.false_ne_true]

theorem onElements_settingIn : OnElements settingIn := fun n h => by
  cases n with
  | element name attributes children => cases h
  | text content => rfl
  | comment => rfl
  | instruction => rfl

/-- The configuration that a child of the root describes, if it describes one. -/
def configurationIn (language : Language) (child : Node) : List Configuration :=
  if child.isNamed "PropertyGroup" then (configurationOfGroup? language child).toList else []

theorem onElements_configurationIn (language : Language) : OnElements (configurationIn language) := fun n h => by
  rw [configurationIn, isNamed_of_isElement_eq_false h, if_neg Bool.false_ne_true]

theorem configurationsIn_eq (language : Language) (root : Node) :
    configurationsIn language root = root.children.flatMap (configurationIn language) := by
  unfold configurationsIn
  rw [List.filterMap_eq_flatMap_toList, Node.childrenNamed, Xml.Node.flatMap_filter_eq]
  rfl

section Restyled

variable {name : Text} {attributes : List Attribute} {old new : List Node} {place : List Frame}

/-- An element whose text is not read further in is not read further out either. -/
theorem HasReadText.cons {frame : Frame} (h : HasReadText (parentName? place) name) :
    HasReadText (parentName? (frame :: place)) name := by
  cases place with
  | nil =>
    obtain ⟨hparent, -⟩ | hparent | hparent | hvalue := h
    · cases hparent
    · cases hparent
    · cases hparent
    · exact .inr (.inr (.inr hvalue))
  | cons inner place => exact h

variable (helements : old.filter Node.isElement = new.filter Node.isElement)
include helements

theorem includedPaths_of_restyled (kind : Text) :
    includedPaths ((Node.element name attributes old).within place) kind =
      includedPaths ((Node.element name attributes new).within place) kind := by
  rw [includedPaths_eq, includedPaths_eq, gather_within_of_elements helements (onElements_pathIn kind)
    (fun frame inner => rfl) fun _ => rfl]

variable (hunread : ¬ HasReadText (parentName? place) name)
include hunread

theorem alike_of_unread : Alike (.element name attributes old) (.element name attributes new) :=
  alike_of_elements helements fun hvalue => hunread (.inr (.inr (.inr hvalue)))

theorem property?_of_restyled {key : Text} (hkey : key ∈ factNames) :
    property? ((Node.element name attributes old).within place) key =
      property? ((Node.element name attributes new).within place) key := by
  have halike : Alike (.element name attributes old) (.element name attributes new) :=
    alike_of_unread helements hunread
  have hlast (hparent : parentName? place = some "PropertyGroup") :
      textIn key (.element name attributes old) = textIn key (.element name attributes new) := by
    have hne : name ≠ key := by
      rintro rfl
      exact hunread (.inl ⟨hparent, hkey⟩)
    rw [textIn_of_ne hne, textIn_of_ne hne]
  rw [property?_eq, property?_eq, gather_within_of_elements helements (Xml.Node.onElements_textIn key)
    (fun frame inner => (halike.within inner).textIn_plug frame key) hlast]

theorem propertiesOfGroup_of_restyled (language : Language) :
    propertiesOfGroup language ((Node.element name attributes old).within place) =
      propertiesOfGroup language ((Node.element name attributes new).within place) := by
  have halike : Alike (.element name attributes old) (.element name attributes new) :=
    alike_of_unread helements hunread
  have hbelow (frame : Frame) (inner : List Frame) :
      settingIn ((Node.element name attributes old).within (frame :: inner)) =
        settingIn ((Node.element name attributes new).within (frame :: inner)) :=
    congrArg Option.toList ((halike.within inner).propertyOfElement_plug frame)
  rw [propertiesOfGroup_eq, propertiesOfGroup_eq, gather_within_of_elements helements onElements_settingIn hbelow
    fun hparent => absurd (hparent ▸ hasReadText_of_settingsElement language name) hunread]

theorem configurationIn_of_restyled (language : Language) :
    configurationIn language ((Node.element name attributes old).within place) =
      configurationIn language ((Node.element name attributes new).within place) := by
  have halike : Alike ((Node.element name attributes old).within place)
      ((Node.element name attributes new).within place) :=
    (alike_of_unread helements hunread).within place
  unfold configurationIn configurationOfGroup?
  rw [halike.isNamed_eq, halike.attribute?_eq, propertiesOfGroup_of_restyled helements hunread]

theorem configurationsIn_of_restyled (language : Language) :
    configurationsIn language ((Node.element name attributes old).within place) =
      configurationsIn language ((Node.element name attributes new).within place) := by
  rw [configurationsIn_eq, configurationsIn_eq]
  cases place with
  | nil => exact (onElements_configurationIn language).flatMap_eq helements
  | cons frame place =>
    have hinner : ¬ HasReadText (parentName? place) name := fun hread => hunread hread.cons
    exact flatMap_children_plug frame (configurationIn_of_restyled helements hinner language)

end Restyled

/-! ## Documents -/

variable {root root' : Node}

/-- One element: the document says the same. -/
theorem Restyles.ofDocument_eq (h : Restyles root root') (output : Text) :
    ofDocument output root = ofDocument output root' := by
  obtain ⟨place, name, attributes, helements, hunread⟩ := h
  exact ofDocument_congr ⟨fun _ => property?_of_restyled helements hunread,
    fun kind _ => includedPaths_of_restyled helements kind⟩ (configurationsIn_of_restyled helements hunread) output

/-- Any number of elements, one after the other. -/
theorem ofDocument_eq_of_reflTransGen (h : Relation.ReflTransGen Restyles root root') (output : Text) :
    ofDocument output root = ofDocument output root' := by
  induction h with
  | refl => rfl
  | tail _ hstep ih => exact ih.trans (hstep.ofDocument_eq output)

/-- Comments, instructions and text that come or go anywhere but in a fact, a property or a value leave the outcome of
reading as it is, and with it the text of the build file or the reason why there is none. -/
theorem ofDocument_eq_of_restyled (h : Relation.ReflTransGen Restyles root root') :
    (∀ output, ofDocument output root = ofDocument output root') ∧
      ∀ source source', Xml.parse? source = some root → Xml.parse? source' = some root' →
        (∀ output, read output source = read output source') ∧
        ∀ (o : Options) settings, o.buildText settings source = o.buildText settings source' := by
  have hdocument := ofDocument_eq_of_reflTransGen h
  refine ⟨hdocument, fun source source' hsource hsource' => ?_⟩
  have hread (output : Text) : read output source = read output source' := by
    rw [read, hsource, read, hsource']
    exact hdocument output
  refine ⟨hread, fun o settings => ?_⟩
  rw [Options.buildText_eq, Options.buildText_eq, hread]

/-- A program whose sources are listed in lines of their own behind a remark, and the text of a short document, once
with the same remark in it. -/
theorem ofDocument_eq_of_restyled_lines :
    (let root : Node := programDocument [item "Compile" "main.c"]
      let root' : Node := .element "Project" [] (.comment :: (programDocument [
        .text "\n  ", item "Compile" "main.c", .text "\n"]).children)
      ofDocument "rover" root = ofDocument "rover" root') ∧
      read "rover" "<P><PropertyGroup>2.0</PropertyGroup></P>" =
        read "rover" "<P><!-- -->\n<PropertyGroup>2.0</PropertyGroup></P>" := by
  constructor
  · intro root root'
    -- the group first, then the root around it
    have hgroup : Restyles root (programDocument [.text "\n  ", item "Compile" "main.c", .text "\n"]) :=
      .intro [⟨"Project", [], (programDocument []).children.take 2, []⟩] groupName [] rfl (by decide)
    have hroot : Restyles (programDocument [.text "\n  ", item "Compile" "main.c", .text "\n"]) root' :=
      .intro [] "Project" [] rfl (by decide)
    exact (ofDocument_eq_of_restyled (.tail (.single hgroup) hroot)).1 "rover"
  · have hparse : Xml.parse? "<P><PropertyGroup>2.0</PropertyGroup></P>" =
        some (.element "P" [] [leaf "PropertyGroup" "2.0"]) := by
      with_unfolding_all rfl
    have hparse' : Xml.parse? "<P><!-- -->\n<PropertyGroup>2.0</PropertyGroup></P>" =
        some (.element "P" [] [.comment, .text "\n", leaf "PropertyGroup" "2.0"]) := by
      with_unfolding_all rfl
    have hroot : Restyles (.element "P" [] [leaf "PropertyGroup" "2.0"])
        (.element "P" [] [.comment, .text "\n", leaf "PropertyGroup" "2.0"]) :=
      .intro [] "P" [] rfl (by decide)
    exact ((ofDocument_eq_of_restyled (.single hroot)).2 _ _ hparse hparse').1 "rover"

end Project

end CprojNinja
