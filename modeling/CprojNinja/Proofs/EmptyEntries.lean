import CprojNinja.Proofs.CallerFlags
import CprojNinja.Proofs.Violations
import CprojNinja.Proofs.WrittenFlags

/-!
# Empty entries

The lists of a caller may have empty entries. An empty flag is not written and an empty symbol is not added. An empty
symbol to remove is looked for like any other, and it meets the defines of the project, which may be empty as well.

Main statement: empty entries are harmless, unless the project has an empty define and one is to be removed.
-/

namespace CprojNinja

/-! ## Callers -/

/-- Whether two callers give the same, apart from what is empty. -/
structure CallerFlags.SameWords (caller other : CallerFlags) : Prop where
  /-- The same flags. -/
  flags : Text.nonEmpty caller.flags = Text.nonEmpty other.flags
  /-- The same symbols to define. -/
  added : Text.nonEmpty caller.added = Text.nonEmpty other.added
  /-- The same symbols not to define. -/
  removed : Text.nonEmpty caller.removed = Text.nonEmpty other.removed

section Callers

variable {caller other : CallerFlags} {own : List Text} {c : Configuration} {page : Language}

theorem CallerFlags.SameWords.symm (h : caller.SameWords other) : other.SameWords caller :=
  ⟨h.flags.symm, h.added.symm, h.removed.symm⟩

theorem CallerFlags.SameWords.mem_removed_iff (h : caller.SameWords other) {name : Text} (hname : name ≠ []) :
    name ∈ caller.removed ↔ name ∈ other.removed := by
  have hmem (removed : List Text) : name ∈ Text.nonEmpty removed ↔ name ∈ removed :=
    Text.mem_nonEmpty_iff.trans (and_iff_left hname)
  rw [← hmem, h.removed, hmem]

/-- An empty symbol to remove does nothing if there is no empty define. -/
theorem mergeDefines_nonEmpty (hown : [] ∉ own) (added removed : List Text) :
    mergeDefines added own (Text.nonEmpty removed) = mergeDefines added own removed := by
  have hempty : [] ∉ Text.nonEmpty added ++ own := mt Configuration.empty_mem_nonEmpty_append.1 hown
  have hfirst : firstRepeated? added own (Text.nonEmpty removed) = firstRepeated? added own removed := by
    unfold firstRepeated?
    rw [Text.nonEmpty.eq_1 removed, List.find?_filter]
    congr 1
    funext name
    by_cases hname : name = []
    · rw [hname, List.count_eq_zero.2 hempty]
      rfl
    · simp [hname]
  have hfilter : (Text.nonEmpty added ++ own).filter (· ∉ Text.nonEmpty removed) =
      (Text.nonEmpty added ++ own).filter (· ∉ removed) := by
    apply List.filter_congr
    intro name hname
    have hne : name ≠ [] := fun h => hempty (h ▸ hname)
    simp [Text.nonEmpty, hne]
  rw [mergeDefines_eq_match, mergeDefines_eq_match, hfirst, hfilter]

theorem mergeDefines_congr_added {added added' : List Text} (h : Text.nonEmpty added = Text.nonEmpty added')
    (own removed : List Text) : mergeDefines added own removed = mergeDefines added' own removed := by
  unfold mergeDefines
  rw [h]

theorem CallerFlags.SameWords.compilerFlags_eq (h : caller.SameWords other)
    (hpage : [] ∉ c.definedSymbols page ∨ ([] ∉ caller.removed ∧ [] ∉ other.removed)) :
    c.compilerFlags page caller.symbols = c.compilerFlags page other.symbols := by
  have hremoved : mergeDefines other.added (c.definedSymbols page) caller.removed =
      mergeDefines other.added (c.definedSymbols page) other.removed := by
    rcases hpage with hown | ⟨hcaller, hother⟩
    · rw [← mergeDefines_nonEmpty hown, h.removed, mergeDefines_nonEmpty hown]
    · rw [← Text.nonEmpty_eq_self hcaller, h.removed, Text.nonEmpty_eq_self hother]
  unfold Configuration.compilerFlags CallerFlags.symbols
  dsimp only
  rw [mergeDefines_congr_added h.added, hremoved]

end Callers

/-! ## Conversions -/

/-- Whether a project needs a compiler page. -/
def Project.HasPage (p : Project) (page : Language) : Prop := page = .c ∨ p.isCpp = true

section Projects

variable {p : Project} {caller other : CallerFlags} {outdir : Text}

theorem CallerFlags.SameWords.nonEmpty_append (h : caller.SameWords other) (flags : List Text) :
    Text.nonEmpty (caller.flags ++ flags) = Text.nonEmpty (other.flags ++ flags) := by
  rw [Text.nonEmpty_append, h.flags, ← Text.nonEmpty_append]

/-- The flags of the last step for a caller. -/
def Project.finalFlags (p : Project) (c : Configuration) (caller : CallerFlags) (outdir : Text) : List Text :=
  if p.isArchive then c.archiverFlags p.language else caller.flags ++ c.linkerFlags p outdir

theorem CallerFlags.SameWords.finalFlags_eq (h : caller.SameWords other) (p : Project) (c : Configuration)
    (outdir : Text) :
    Text.nonEmpty (p.finalFlags c caller outdir) = Text.nonEmpty (p.finalFlags c other outdir) := by
  unfold Project.finalFlags
  split
  · rfl
  · exact h.nonEmpty_append _

/-- Callers that are treated alike by the compiler pages are treated alike by the whole build. -/
theorem CallerFlags.SameWords.resolveFlags_eq {c : Configuration} (h : caller.SameWords other)
    (hselected : p.selected = some c)
    (hpages : ∀ page, p.HasPage page → c.compilerFlags page caller.symbols = c.compilerFlags page other.symbols) :
    ResolvedFlags.written <$> p.resolveFlags caller outdir = ResolvedFlags.written <$> p.resolveFlags other outdir := by
  have hcpp : (if p.isCpp then some <$> c.compilerFlags .cpp caller.symbols else .ok none) =
      (if p.isCpp then some <$> c.compilerFlags .cpp other.symbols else .ok none) := by
    split
    · next hcpp => rw [hpages .cpp (Or.inr hcpp)]
    · rfl
  rw [resolveFlags_of_selected hselected, resolveFlags_of_selected hselected, hpages .c (Or.inl rfl), hcpp]
  cases c.compilerFlags .c other.symbols with
  | error v => rfl
  | ok forC =>
    cases (if p.isCpp then some <$> c.compilerFlags .cpp other.symbols else .ok none) with
    | error v => rfl
    | ok forCpp =>
      show Except.ok (ResolvedFlags.mk _ _ (Text.nonEmpty (p.finalFlags c caller outdir))) =
        Except.ok (ResolvedFlags.mk _ _ (Text.nonEmpty (p.finalFlags c other outdir)))
      rw [h.nonEmpty_append forC, h.finalFlags_eq, Option.map_map, Option.map_map]
      simp only [Function.comp_def, h.nonEmpty_append]

theorem final_of_resolveFlags_of_selected {c : Configuration} (hselected : p.selected = some c) {flags : ResolvedFlags}
    (hflags : p.resolveFlags caller outdir = .ok flags) : flags.final = p.finalFlags c caller outdir := by
  rw [resolveFlags_of_selected hselected] at hflags
  obtain ⟨forC, -, hflags⟩ := bind_eq_ok.1 hflags
  obtain ⟨forCpp, -, hflags⟩ := bind_eq_ok.1 hflags
  cases hflags
  rfl

end Projects

namespace Options

variable {o : Options} {settings : Settings} {before : Disk} {caller other : CallerFlags}

/-- The options with another caller. -/
def withCaller (o : Options) (caller : CallerFlags) : Options := { o with caller }

/-- The part of a conversion between flags and graph. -/
def graphWith (o : Options) (settings : Settings) (p : Project) (flags : ResolvedFlags) :
    Except ConversionError Ninja.File := do
  let toolchain ← (resolveToolchain p o.toolchain settings).mapError .toolchain
  (p.graph flags (toolchain.executables p.isCpp) o.buildDirectoryName).mapError .graph

theorem buildGraph_withCaller_of_selected {p : Project} {c : Configuration}
    (hselected : (p.select o.configurationName).selected = some c) (caller : CallerFlags) :
    (o.withCaller caller).buildGraph settings p =
      ((p.select o.configurationName).resolveFlags caller o.buildDirectoryName).mapError .violation >>=
        o.graphWith settings (p.select o.configurationName) := by
  rw [buildGraph_eq]
  show (if (p.select o.configurationName).selected.isNone then _ else _) = _
  rw [hselected]
  rfl

/-- A build graph needs only what is written of the flags. -/
theorem graphWith_written (p : Project) (flags : ResolvedFlags) :
    o.graphWith settings p flags.written = o.graphWith settings p flags := by
  unfold graphWith
  simp only [graph_written]

theorem buildGraph_withCaller_eq {p : Project} {c : Configuration}
    (hselected : (p.select o.configurationName).selected = some c)
    (h : ResolvedFlags.written <$> (p.select o.configurationName).resolveFlags caller o.buildDirectoryName =
      ResolvedFlags.written <$> (p.select o.configurationName).resolveFlags other o.buildDirectoryName) :
    (o.withCaller caller).buildGraph settings p = (o.withCaller other).buildGraph settings p := by
  have hgraph (flags : Except Violation ResolvedFlags) :
      flags.mapError .violation >>= o.graphWith settings (p.select o.configurationName) =
        (ResolvedFlags.written <$> flags).mapError .violation >>=
          o.graphWith settings (p.select o.configurationName) := by
    cases flags with
    | error v => rfl
    | ok flags => exact (graphWith_written _ flags).symm
  rw [buildGraph_withCaller_of_selected hselected, buildGraph_withCaller_of_selected hselected, hgraph, h, ← hgraph]

theorem buildGraph_withCaller_of_not_selected {p : Project}
    (hselected : (p.select o.configurationName).selected = none) (caller : CallerFlags) :
    (o.withCaller caller).buildGraph settings p = .error (.undefinedConfiguration o.configurationName) := by
  rw [buildGraph_eq]
  show (if (p.select o.configurationName).selected.isNone then _ else _) = _
  rw [hselected]
  rfl

section Reading

variable {source : Text}

theorem buildText_of_read {p : Project} (hp : Project.read o.outputName source = .ok p) :
    o.buildText settings source = Ninja.File.text <$> o.buildGraph settings p := by
  rw [buildText_eq, hp]
  rfl

theorem buildText_of_not_read {e : LoadError} (he : Project.read o.outputName source = .error e) :
    o.buildText settings source = .error (.load o.project e) := by
  rw [buildText_eq, he]
  rfl

end Reading

/-- Callers for whom every project that may be loaded has the same build graph are treated alike. -/
theorem convert_withCaller_eq
    (h : ∀ p, o.Loads before p →
      (o.withCaller caller).buildGraph settings p = (o.withCaller other).buildGraph settings p) :
    ((o.withCaller caller).convert settings : StateM Disk _) before =
      ((o.withCaller other).convert settings : StateM Disk _) before := by
  rcases hread : FileSystem.readText (m := StateM Disk) o.project before with ⟨fault | source, between⟩
  · rw [convert_of_unreadable (o := o.withCaller caller) hread, convert_of_unreadable (o := o.withCaller other) hread]
    rfl
  · have htext : (o.withCaller caller).buildText settings source = (o.withCaller other).buildText settings source := by
      cases hp : Project.read o.outputName source with
      | error e =>
        rw [buildText_of_not_read (o := o.withCaller caller) hp, buildText_of_not_read (o := o.withCaller other) hp]
        rfl
      | ok p =>
        rw [buildText_of_read (o := o.withCaller caller) hp, buildText_of_read (o := o.withCaller other) hp,
          h p ⟨source, between, hread, hp⟩]
    rw [convert_of_readable (o := o.withCaller caller) hread, convert_of_readable (o := o.withCaller other) hread,
      htext]
    rfl

/-- Whether a conversion finds an empty define on a compiler page that the build needs. -/
def DefinesEmpty (o : Options) (before : Disk) : Prop :=
  ∃ p c page, o.Loads before p ∧ (p.select o.configurationName).selected = some c ∧ p.HasPage page ∧
    [] ∈ c.definedSymbols page

theorem convert_eq_of_pages (h : caller.SameWords other)
    (hpages : ∀ p c page, o.Loads before p → (p.select o.configurationName).selected = some c → p.HasPage page →
      c.compilerFlags page caller.symbols = c.compilerFlags page other.symbols) :
    ((o.withCaller caller).convert settings : StateM Disk _) before =
      ((o.withCaller other).convert settings : StateM Disk _) before := by
  apply convert_withCaller_eq
  intro p hloads
  cases hselected : (p.select o.configurationName).selected with
  | none => rw [buildGraph_withCaller_of_not_selected hselected, buildGraph_withCaller_of_not_selected hselected]
  | some c =>
    apply buildGraph_withCaller_eq hselected
    exact h.resolveFlags_eq hselected fun page hpage => hpages p c page hloads hselected hpage

/-- Empty entries are harmless if there is nothing empty to remove, or no list that says so. -/
theorem convert_eq_of_sameWords (h : caller.SameWords other)
    (hempty : ¬ o.DefinesEmpty before ∨ ([] ∉ caller.removed ∧ [] ∉ other.removed)) :
    ((o.withCaller caller).convert settings : StateM Disk _) before =
      ((o.withCaller other).convert settings : StateM Disk _) before := by
  apply convert_eq_of_pages h
  intro p c page hloads hselected hpage
  apply h.compilerFlags_eq
  exact hempty.imp_left fun hnone hmem => hnone ⟨p, c, page, hloads, hselected, hpage, hmem⟩

/-! ### Symbols that are refused -/

/-- Whether a conversion stops because a symbol to remove occurs twice. -/
def ViolatesRepeated (o : Options) (settings : Settings) (before : Disk) : Prop :=
  ∃ name count, o.Violates settings before (.repeatedDefine name count)

theorem violatesRepeated_of_removesRepeatedOn {p : Project} {c : Configuration} {page : Language}
    (hloads : o.Loads before p) (hselected : (p.select o.configurationName).selected = some c) (hpage : p.HasPage page)
    (hrepeated : RemovesRepeatedOn c o.caller page) : o.ViolatesRepeated settings before := by
  have hpages : RemovesRepeatedOn c o.caller .c ∨ p.isCpp = true ∧ RemovesRepeatedOn c o.caller .cpp := by
    rcases hpage with rfl | hcpp
    · exact Or.inl hrepeated
    · cases page with
      | c => exact Or.inl hrepeated
      | cpp => exact Or.inr ⟨hcpp, hrepeated⟩
  rcases resolveFlags_cases hselected o.caller o.buildDirectoryName with ⟨-, name, count, herror⟩ | ⟨hnone, -⟩
  · exact ⟨name, count, violates_iff.2 ⟨p, c, hloads, hselected, Or.inl herror⟩⟩
  · exact absurd hpages hnone

/-- If both lists of symbols to remove have an empty entry, or none has, the conversions differ at most in the symbol
that is refused first. -/
theorem convert_eq_or_violates (h : caller.SameWords other) (hempty : [] ∈ caller.removed ↔ [] ∈ other.removed) :
    ((o.withCaller caller).convert settings : StateM Disk _) before =
        ((o.withCaller other).convert settings : StateM Disk _) before ∨
      (o.withCaller caller).ViolatesRepeated settings before ∧
        (o.withCaller other).ViolatesRepeated settings before := by
  have hmem (name : Text) : name ∈ caller.removed ↔ name ∈ other.removed := by
    by_cases hname : name = []
    · rw [hname, hempty]
    · exact h.mem_removed_iff hname
  have hrepeated (c : Configuration) (page : Language) :
      RemovesRepeatedOn c caller page ↔ RemovesRepeatedOn c other page := by
    unfold RemovesRepeatedOn RemovesRepeated
    rw [h.added]
    simp only [hmem]
  by_cases hrefused : ∃ p c page, o.Loads before p ∧ (p.select o.configurationName).selected = some c ∧
      p.HasPage page ∧ RemovesRepeatedOn c caller page
  · obtain ⟨p, c, page, hloads, hselected, hpage, hcaller⟩ := hrefused
    have hother := (hrepeated c page).1 hcaller
    right
    exact ⟨violatesRepeated_of_removesRepeatedOn (o := o.withCaller caller) hloads hselected hpage hcaller,
      violatesRepeated_of_removesRepeatedOn (o := o.withCaller other) hloads hselected hpage hother⟩
  · left
    apply convert_eq_of_pages h
    intro p c page hloads hselected hpage
    have hcaller : ¬ RemovesRepeatedOn c caller page := fun hcaller =>
      hrefused ⟨p, c, page, hloads, hselected, hpage, hcaller⟩
    unfold Configuration.compilerFlags CallerFlags.symbols
    dsimp only
    rw [mergeDefines_of_not_removesRepeated hcaller,
      mergeDefines_of_not_removesRepeated (mt (hrepeated c page).2 hcaller), h.added]
    simp only [hmem]

end Options

end CprojNinja
