import CprojNinja.Conversion
import CprojNinja.Proofs.Places
import CprojNinja.Proofs.PropertyReads

/-!
# Groups of other configurations

The properties of a configuration stand in its own property group. The facts about the project and its items do not:
they are looked up in all groups of the document, also in those of single configurations, and a group may even stand
inside the group of another configuration.

Main statement: this is all by which one configuration has to do with another one. If the group of a configuration gets
other contents, and they state the same facts (as far as these are not stated before), list the same items and have the
same settings (if the group stands inside the one that is selected), then nothing changes for those who select another
configuration.
-/

namespace CprojNinja

open Xml (Attribute Frame Node)
open Xml.Node (Alike gather gatherBefore gatherBefore_congr gatherBehind gather_within textIn textIn_of_ne)

/-! ## Being the same to a configuration -/

namespace Project

/-- Whether two projects are the same to those who select the configuration of a name. -/
structure SameFor (name : Text) (p p' : Project) : Prop where
  /-- All that has nothing to do with configurations is the same. -/
  identity_eq : p.identity = p'.identity
  /-- Both have a configuration of this name, or none has. -/
  selectedName?_eq : (p.select name).selectedName? = (p'.select name).selectedName?
  /-- The flags are the same, or the violation instead of them. -/
  resolveFlags_eq : ∀ caller outdir,
    (p.select name).resolveFlags caller outdir = (p'.select name).resolveFlags caller outdir
  /-- The graphs are the same. -/
  graph_eq : ∀ flags programs outdir,
    (p.select name).graph flags programs outdir = (p'.select name).graph flags programs outdir
  /-- The build files are the same, or the reason why there is none. -/
  buildGraph_eq : ∀ (o : Options) settings, o.configurationName = name →
    o.buildGraph settings p = o.buildGraph settings p'

/-- Whether two outcomes of loading are the same to those who select the configuration of a name. -/
def SameOutcomeFor (name : Text) : Except LoadError Project → Except LoadError Project → Prop
  | .ok p, .ok p' => SameFor name p p'
  | .error e, .error e' => e = e'
  | _, _ => False

variable {p p' : Project} {name : Text}

theorem sameFor_of_selected (hidentity : p.identity = p'.identity)
    (hselected : Option.Rel (fun c d => c.name = d.name ∧ c.AgreeOn p.Reads d)
      (p.select name).selected (p'.select name).selected) : SameFor name p p' := by
  have hidentity' : (p.select name).identity = (p'.select name).identity := hidentity
  have hname : (p.select name).selectedName? = (p'.select name).selectedName? := by
    unfold selectedName?
    generalize (p.select name).selected = selected, (p'.select name).selected = selected' at hselected
    cases hselected with
    | none => rfl
    | some h => exact congrArg some h.1
  have hagree : Option.Rel (fun c d => c.AgreeOn (p.select name).Reads d)
      (p.select name).selected (p'.select name).selected := by
    generalize (p.select name).selected = selected, (p'.select name).selected = selected' at hselected
    cases hselected with
    | none => exact .none
    | some h => exact .some h.2
  have hflags := resolveFlags_congr hidentity' hagree
  have hgraph := graph_congr hidentity'
  refine ⟨hidentity, hname, hflags, hgraph, ?_⟩
  rintro o settings rfl
  have hfound := congrArg Option.isNone hname
  unfold selectedName? at hfound
  rw [Option.isNone_map, Option.isNone_map] at hfound
  have htoolchain : (p.select o.configurationName).toolchain = (p'.select o.configurationName).toolchain := by
    rw [eq_of_identity_eq hidentity']
  have hcpp : (p.select o.configurationName).isCpp = (p'.select o.configurationName).isCpp := by
    rw [eq_of_identity_eq hidentity']
    rfl
  rw [Options.buildGraph_eq, Options.buildGraph_eq]
  unfold resolveToolchain
  simp only [hfound, hflags, htoolchain, hcpp, hgraph]

end Project

/-! ## Lookups around a place -/

/-- A property group. -/
def Xml.Node.propertyGroup (attributes : List Attribute) (children : List Node) : Node :=
  .element "PropertyGroup" attributes children

namespace Project

open Xml.Node (configurationGroup item leaf programDocument propertyGroup)

/-- Whether a document states a fact before the node in some place: in a property group around it, or in one that stands
before it. -/
def StatesBefore (name : Text) (n : Node) : List Frame → Prop
  | [] => False
  | frame :: place =>
    (frame.name = "PropertyGroup" ∧ ∃ child ∈ (n.within (frame :: place)).children, child.isNamed name = true) ∨
      (∃ sibling ∈ frame.before, (property? sibling name).isSome = true) ∨ StatesBefore name n place

instance instDecidableStatesBefore (name : Text) (n : Node) :
    (place : List Frame) → Decidable (StatesBefore name n place)
  | [] => inferInstanceAs (Decidable False)
  | _ :: place =>
    have := instDecidableStatesBefore name n place
    inferInstanceAs (Decidable (_ ∧ _ ∨ _ ∨ StatesBefore name n place))

variable {name kind : Text} {n : Node} {place : List Frame}

/-- The first statement of a fact counts. -/
theorem property?_within (name : Text) (n : Node) (place : List Frame) : property? (n.within place) name =
    ((gatherBefore "PropertyGroup" (fun g => g.children.flatMap (textIn name)) n place).head?.or
      (property? n name)).or
        (gatherBehind "PropertyGroup" (fun g => g.children.flatMap (textIn name)) place).head? := by
  rw [property?_eq, gather_within, List.head?_append, List.head?_append, ← property?_eq]

theorem gatherBefore_of_statesBefore (h : StatesBefore name n place) :
    gatherBefore "PropertyGroup" (fun g => g.children.flatMap (textIn name)) n place ≠ [] := by
  induction place with
  | nil => exact h.elim
  | cons frame place ih =>
    unfold gatherBefore
    obtain ⟨hframe, child, hchild, hnamed⟩ | ⟨sibling, hsibling, hstates⟩ | hinner := h
    · have hne : (n.within (frame :: place)).children.flatMap (textIn name) ≠ [] := by
        intro hnil
        have hchild := List.flatMap_eq_nil_iff.1 hnil child hchild
        rw [textIn, if_pos hnamed] at hchild
        cases hchild
      rw [if_pos hframe, List.append_assoc]
      exact List.append_ne_nil_of_left_ne_nil hne _
    · have hne : frame.before.flatMap (gather "PropertyGroup" fun g => g.children.flatMap (textIn name)) ≠ [] := by
        intro hnil
        rw [property?_eq, List.flatMap_eq_nil_iff.1 hnil sibling hsibling] at hstates
        cases hstates
      exact List.append_ne_nil_of_left_ne_nil (List.append_ne_nil_of_right_ne_nil _ hne) _
    · exact List.append_ne_nil_of_right_ne_nil _ (ih hinner)

section Contents

variable {attributes : List Attribute} {old new : List Node} {outer : Frame} {inner : List Frame} {c d : Text}
  {language : Language}

/-- The contents of a property group cannot be told from the outside. -/
theorem alike_propertyGroup (attributes : List Attribute) (old new : List Node) :
    Alike (propertyGroup attributes old) (propertyGroup attributes new) where
  isElement := ⟨rfl, rfl⟩
  name?_eq := rfl
  attribute?_eq _ := rfl
  value_eq := rfl
  values_eq := rfl

/-- No fact has the name of a property group. -/
theorem textIn_propertyGroup (hname : name ∈ factNames) (attributes : List Attribute) (children : List Node) :
    textIn name (propertyGroup attributes children) = [] := by
  refine textIn_of_ne ?_ attributes children
  rintro rfl
  exact absurd hname (by decide)

/-- A fact is the same if it is stated before, or if the contents state it in the same way. -/
theorem property?_of_contents (hname : name ∈ factNames)
    (hfact : StatesBefore name (propertyGroup attributes old) place ∨
      property? (propertyGroup attributes old) name = property? (propertyGroup attributes new) name) :
    property? ((propertyGroup attributes old).within place) name =
      property? ((propertyGroup attributes new).within place) name := by
  have hbefore : gatherBefore "PropertyGroup" (fun g => g.children.flatMap (textIn name))
      (propertyGroup attributes old) place =
      gatherBefore "PropertyGroup" (fun g => g.children.flatMap (textIn name)) (propertyGroup attributes new) place :=
    gatherBefore_congr (fun frame inner => ((alike_propertyGroup _ _ _).within inner).textIn_plug frame name)
      fun _ => by rw [textIn_propertyGroup hname, textIn_propertyGroup hname]
  rw [property?_within, property?_within, ← hbefore]
  obtain hstated | hsame := hfact
  · obtain ⟨text, rest, hcons⟩ := List.exists_cons_of_ne_nil (gatherBefore_of_statesBefore hstated)
    rw [hcons]
    rfl
  · rw [hsame]

/-- The items are the same if the contents list the same items. -/
theorem includedPaths_of_contents
    (hitems : includedPaths (propertyGroup attributes old) kind = includedPaths (propertyGroup attributes new) kind) :
    includedPaths ((propertyGroup attributes old).within place) kind =
      includedPaths ((propertyGroup attributes new).within place) kind := by
  have hbefore : gatherBefore "ItemGroup" (fun g => g.children.flatMap (pathIn kind))
      (propertyGroup attributes old) place =
      gatherBefore "ItemGroup" (fun g => g.children.flatMap (pathIn kind)) (propertyGroup attributes new) place :=
    gatherBefore_congr (fun _ _ => rfl) fun _ => rfl
  rw [includedPaths_eq, includedPaths_eq] at hitems ⊢
  rw [gather_within, gather_within, hbefore, hitems]

/-! ## Settings around a place -/

/-- No property that is read has the name of a property group. -/
theorem ne_of_reads {p : Project} {key : Text} (h : p.Reads key) : key ≠ "PropertyGroup" := by
  rintro rfl
  obtain hpage | ⟨-, hpage⟩ | hpage := h
  · exact absurd hpage (by decide)
  · exact absurd hpage (by decide)
  · revert hpage
    cases p.language <;> split <;> decide

/-- The properties that do not have a certain name. -/
def withoutKey (key : Text) (properties : List Property) : List Property :=
  properties.filter fun property => property.name ≠ key

theorem withoutKey_flatMap {α : Type} (key : Text) (xs : List α) (f : α → List Property) :
    withoutKey key (xs.flatMap f) = xs.flatMap fun x => withoutKey key (f x) :=
  List.filter_flatMap

/-- Configurations that have the same properties up to those of one name agree on all others. -/
theorem agreeOn_of_withoutKey_eq {first second : List Property} {key : Text}
    (h : withoutKey key first = withoutKey key second) (name : Text) :
    Configuration.AgreeOn (· ≠ key) ⟨name, first⟩ ⟨name, second⟩ := by
  intro other hother
  have hfind (properties : List Property) :
      Configuration.property? ⟨name, properties⟩ other =
        Configuration.property? ⟨name, withoutKey key properties⟩ other := by
    unfold Configuration.property? withoutKey
    rw [List.find?_filter]
    congr 1
    funext property
    by_cases hproperty : property.name = other <;> simp [hproperty, hother]
  rw [hfind first, h, ← hfind second]

/-- What a child of a settings element stands for, unless it is a property group. -/
def readSettingIn (child : Node) : List Property := withoutKey "PropertyGroup" (settingIn child)

theorem withoutKey_propertiesOfGroup (language : Language) (n : Node) :
    withoutKey "PropertyGroup" (propertiesOfGroup language n) =
      n.gather language.settingsElement fun s => s.children.flatMap readSettingIn := by
  rw [propertiesOfGroup_eq, gather, withoutKey_flatMap]
  refine List.flatMap_congr fun s _ => ?_
  rw [withoutKey_flatMap]
  rfl

/-- The settings around a property group are those of its contents and others that have nothing to do with it, except
that it is no property itself. -/
theorem agreeOn_of_contents
    (hsettings : propertiesOfGroup language (propertyGroup attributes old) =
      propertiesOfGroup language (propertyGroup attributes new)) (name : Text) (place : List Frame) :
    Configuration.AgreeOn (· ≠ "PropertyGroup")
      ⟨name, propertiesOfGroup language ((propertyGroup attributes old).within place)⟩
      ⟨name, propertiesOfGroup language ((propertyGroup attributes new).within place)⟩ := by
  have hbelow (frame : Frame) (inner : List Frame) :
      readSettingIn ((propertyGroup attributes old).within (frame :: inner)) =
        readSettingIn ((propertyGroup attributes new).within (frame :: inner)) :=
    congrArg (fun property => withoutKey "PropertyGroup" (Option.toList property))
      (((alike_propertyGroup attributes old new).within inner).propertyOfElement_plug frame)
  have hinside := congrArg (withoutKey "PropertyGroup") hsettings
  refine agreeOn_of_withoutKey_eq ?_ name
  rw [withoutKey_propertiesOfGroup, withoutKey_propertiesOfGroup] at hinside ⊢
  rw [gather_within, gather_within, gatherBefore_congr hbelow fun _ => rfl, hinside]

/-! ## The selected group -/

/-- A group is for one configuration only. -/
theorem eq_of_isGroupFor (hc : IsGroupFor c n) (hd : IsGroupFor d n) : c = d := by
  have hcondition := hc.2.1.symm.trans hd.2.1
  exact List.append_cancel_left (List.append_cancel_right (Option.some.inj hcondition))

theorem isGroupFor_congr {n' : Node} (h : Alike n n') : IsGroupFor name n ↔ IsGroupFor name n' := by
  unfold IsGroupFor
  rw [h.isNamed_eq, h.attribute?_eq]

/-- Whether the child of the root in which a place is, is the group that the name of a configuration selects. -/
def BelongsTo (name : Text) (outer : Frame) (child : Node) : Prop :=
  IsGroupFor name child ∧ ∀ sibling ∈ outer.before, ¬ IsGroupFor name sibling

instance (name : Text) (outer : Frame) (child : Node) : Decidable (BelongsTo name outer child) :=
  inferInstanceAs (Decidable (_ ∧ _))

/-- The group of a configuration stands before a child of the root, or is this child, or stands behind it. -/
theorem groupFor?_plug (outer : Frame) (child : Node) (name : Text) : groupFor? (outer.plug child) name =
    if BelongsTo name outer child then some child
    else (outer.before.find? fun n => IsGroupFor name n).or (outer.after.find? fun n => IsGroupFor name n) := by
  unfold groupFor? Frame.plug Node.children
  rw [List.find?_append, List.find?_cons]
  cases hbefore : outer.before.find? fun n => decide (IsGroupFor name n) with
  | none =>
    have hnone : ∀ sibling ∈ outer.before, ¬ IsGroupFor name sibling := by simpa using hbefore
    by_cases hchild : IsGroupFor name child
    · have hown : BelongsTo name outer child := And.intro hchild hnone
      rw [if_pos hown, decide_eq_true hchild]
      rfl
    · have hforeign : ¬ BelongsTo name outer child := fun hown => hchild hown.1
      rw [if_neg hforeign, decide_eq_false hchild]
  | some group =>
    have hgroup : IsGroupFor name group := by simpa using List.find?_some hbefore
    have hforeign : ¬ BelongsTo name outer child :=
      fun hown => hown.2 group (List.mem_of_find?_eq_some hbefore) hgroup
    rw [if_neg hforeign]
    rfl

/-- The configuration that is selected has the same properties, as far as any is read. -/
theorem selected_of_contents {p : Project}
    (hsettings : BelongsTo c outer ((propertyGroup attributes old).within inner) →
      propertiesOfGroup p.language (propertyGroup attributes old) =
        propertiesOfGroup p.language (propertyGroup attributes new)) :
    Option.Rel (fun first second : Configuration => first.name = second.name ∧ first.AgreeOn p.Reads second)
      ((groupFor? ((propertyGroup attributes old).within (outer :: inner)) c).map fun group =>
        ⟨c, propertiesOfGroup p.language group⟩)
      ((groupFor? ((propertyGroup attributes new).within (outer :: inner)) c).map fun group =>
        ⟨c, propertiesOfGroup p.language group⟩) := by
  have halike := (alike_propertyGroup attributes old new).within inner
  have hbelongs : BelongsTo c outer ((propertyGroup attributes old).within inner) ↔
      BelongsTo c outer ((propertyGroup attributes new).within inner) :=
    and_congr_left' (isGroupFor_congr halike)
  rw [Xml.Node.within_cons, Xml.Node.within_cons, groupFor?_plug, groupFor?_plug]
  by_cases hown : BelongsTo c outer ((propertyGroup attributes old).within inner)
  · rw [if_pos hown, if_pos (hbelongs.1 hown)]
    exact .some ⟨rfl, (agreeOn_of_contents (hsettings hown) c inner).mono fun key => ne_of_reads⟩
  · rw [if_neg hown, if_neg (hbelongs.not.1 hown)]
    cases (outer.before.find? fun n => IsGroupFor c n).or (outer.after.find? fun n => IsGroupFor c n) with
    | none => exact .none
    | some group => exact .some ⟨rfl, fun _ _ => rfl⟩

/-! ## Foreign groups -/

/-- The language that a document states. -/
def languageIn (root : Node) : Language := if (property? root "Language").getD [] = "CPP" then .cpp else .c

theorem language_of_ofDocument {output : Text} {root : Node} {p : Project} (h : ofDocument output root = .ok p) :
    p.language = languageIn root := by
  obtain ⟨-, references, -, rfl⟩ := ofDocument_eq_ok_iff.1 h
  rfl

/-- Other contents of a group for the configuration `d`, anywhere below the root, change nothing for those who select
the configuration `c`, as long as they state the same facts, unless these are stated before, and list the same items.
Inside the group that `c` selects they have to have the same settings, too. -/
theorem sameOutcomeFor_of_foreign (outer : Frame) (inner : List Frame)
    (hforeign : IsGroupFor d (propertyGroup attributes old)) (hne : d ≠ c)
    (hfacts : ∀ name ∈ factNames, StatesBefore name (propertyGroup attributes old) (outer :: inner) ∨
      property? (propertyGroup attributes old) name = property? (propertyGroup attributes new) name)
    (hitems : ∀ kind ∈ itemKinds,
      includedPaths (propertyGroup attributes old) kind = includedPaths (propertyGroup attributes new) kind)
    (hsettings : inner ≠ [] → BelongsTo c outer ((propertyGroup attributes old).within inner) →
      let language := languageIn ((propertyGroup attributes old).within (outer :: inner))
      propertiesOfGroup language (propertyGroup attributes old) =
        propertiesOfGroup language (propertyGroup attributes new))
    (output : Text) :
    SameOutcomeFor c (ofDocument output ((propertyGroup attributes old).within (outer :: inner)))
      (ofDocument output ((propertyGroup attributes new).within (outer :: inner))) := by
  have hlookups : SameLookups ((propertyGroup attributes old).within (outer :: inner))
      ((propertyGroup attributes new).within (outer :: inner)) :=
    ⟨fun name hname => property?_of_contents hname (hfacts name hname),
      fun kind hkind => includedPaths_of_contents (hitems kind hkind)⟩
  rw [ofDocument_of_sameLookups hlookups]
  cases hp : ofDocument output ((propertyGroup attributes old).within (outer :: inner)) with
  | error e => rfl
  | ok p =>
    refine sameFor_of_selected rfl ?_
    have hown : BelongsTo c outer ((propertyGroup attributes old).within inner) →
        propertiesOfGroup p.language (propertyGroup attributes old) =
          propertiesOfGroup p.language (propertyGroup attributes new) := by
      intro hbelongs
      rw [language_of_ofDocument hp]
      -- directly below the root the group is not the one that `c` selects
      have hinner : inner ≠ [] := by
        rintro rfl
        exact hne (eq_of_isGroupFor hforeign hbelongs.1)
      exact hsettings hinner hbelongs
    rw [selected_select, selected_select, (looksAt_of_ofDocument hp).configurations_eq, find?_configurations]
    show Option.Rel _ _ ((configurationsIn p.language _).find? _)
    rw [configurationsIn, find?_configurations]
    exact selected_of_contents hown

/-- Two groups for another configuration: one behind the facts, which says what is stated before, and one inside the
group that is selected, where the settings stay. -/
theorem sameOutcomeFor_of_foreign_release :
    let release : List Node → Node := configurationGroup "Release"
    let level : Node := .element "ArmGcc" [] [leaf "armgcc.compiler.optimization.level" "Optimize (-O1)"]
    SameOutcomeFor "Debug" (ofDocument "rover" (.withGroups [release [leaf "Language" "CPP", level]]))
        (ofDocument "rover" (.withGroups [release [leaf "OutputType" "StaticLibrary"]])) ∧
      SameOutcomeFor "Trace" (ofDocument "rover" (.withGroups [configurationGroup "Trace" [release [level]]]))
        (ofDocument "rover" (.withGroups [configurationGroup "Trace" [release [leaf "Language" "CPP", level]]])) := by
  intro release level
  let root : Frame := ⟨"Project", [], (programDocument []).children, []⟩
  let trace : Frame := ⟨"PropertyGroup", [⟨none, "Condition", " " ++ conditionFor "Trace" ++ " "⟩], [], []⟩
  have hrelease (contents : List Node) : IsGroupFor "Release" (release contents) := ⟨rfl, rfl, by decide⟩
  have hsettings (language : Language) :
      propertiesOfGroup language (release [level]) =
        propertiesOfGroup language (release [leaf "Language" "CPP", level]) := by
    cases language <;> rfl
  constructor
  · exact sameOutcomeFor_of_foreign root [] (hrelease _) (by decide) (by decide) (by decide)
      (fun hinner => absurd rfl hinner) "rover"
  · exact sameOutcomeFor_of_foreign root [trace] (hrelease _) (by decide) (by decide) (by decide)
      (fun _ _ => hsettings _) "rover"

/-- Without its conditions the statement fails: a group for another configuration may state a fact, list an item, give
the selected group a setting, or be the root. -/
theorem not_sameOutcomeFor_of_foreign :
    let release : List Node → Node := configurationGroup "Release"
    let level : Node := .element "ArmGcc" [] [leaf "armgcc.compiler.optimization.level" "Optimize (-O1)"]
    (∀ contents, IsGroupFor "Release" (release contents)) ∧
      ¬ SameOutcomeFor "Debug"
        (ofDocument "rover" (.withGroups [release [leaf "ToolchainName" "com.Atmel.ARMGCC.C"]]))
        (ofDocument "rover" (.withGroups [release []])) ∧
      ¬ SameOutcomeFor "Debug"
        (ofDocument "rover" (.withGroups [release [.element "ItemGroup" [] [item "Compile" "main.c"]]]))
        (ofDocument "rover" (.withGroups [release []])) ∧
      ¬ SameOutcomeFor "Trace"
        (ofDocument "rover" (.withGroups [configurationGroup "Trace" [release [level]]]))
        (ofDocument "rover" (.withGroups [configurationGroup "Trace" [release []]])) ∧
      ¬ SameOutcomeFor "Debug" (ofDocument "rover" (release (programDocument []).children))
        (ofDocument "rover" (release ((programDocument []).children.take 1))) := by
  intro release level
  refine ⟨fun contents => ⟨rfl, rfl, by decide⟩, fun h => ?_, fun h => ?_, fun h => ?_, fun h => ?_⟩
  · have hname := congrArg (fun p => p.toolchain.name) h.identity_eq
    exact absurd hname (by decide)
  · have hsources := congrArg Project.sources h.identity_eq
    exact absurd hsources (by decide)
  · have hflags := congrArg (fun flags => flags.map ResolvedFlags.c) (h.resolveFlags_eq {} "Trace")
    exact absurd (congrArg Except.toOption hflags) (by decide)
  · exact absurd h.selectedName?_eq (by decide)

end Contents

end Project

end CprojNinja
