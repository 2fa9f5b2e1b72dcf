import CprojNinja.CommandLine
import CprojNinja.Proofs.EmptyEntries

/-!
# Extra blanks

The lists of the command line are split at single blanks, so a blank too much makes an empty entry. Only among the
symbols to remove an empty entry says something, and what it says is seen in the build file.

Main statement: what is converted depends on the words of the lists alone, unless the project has an empty define and
there is an extra blank in the list of symbols to remove.
-/

namespace CprojNinja

/-! ## Words -/

namespace Text

variable {s : Text}

/-- The words of a text, with any number of blanks around them. -/
def words (s : Text) : List Text := nonEmpty (splitOn ' ' s)

/-- Whether a text has a blank that is not a single one between two words. -/
def HasExtraBlank (s : Text) : Prop := (" " : Text) <+: s ∨ (" " : Text) <:+ s ∨ ("  " : Text) <:+: s

instance : DecidablePred HasExtraBlank := fun _ => inferInstanceAs (Decidable (_ ∨ _))

section Pieces

variable {c : Char}

theorem tail_splitOn_cons (hc : c ≠ ' ') (s : Text) : (splitOn ' ' (c :: s)).tail = (splitOn ' ' s).tail := by
  rw [splitOn, if_neg hc]
  cases splitOn ' ' s <;> rfl

/-- A first piece that is not empty does not count. -/
theorem empty_mem_splitOn_cons (hc : c ≠ ' ') : [] ∈ splitOn ' ' (c :: s) ↔ [] ∈ (splitOn ' ' s).tail := by
  rw [splitOn, if_neg hc]
  cases splitOn ' ' s <;> simp

/-- Behind the first piece, an empty one is what two blanks or a last one leave. -/
theorem empty_mem_tail_splitOn_iff :
    [] ∈ (splitOn ' ' s).tail ↔ (" " : Text) <:+ s ∨ ("  " : Text) <:+: s := by
  induction s with
  | nil => decide
  | cons c s ih =>
    by_cases hc : c = ' '
    · rw [hc, splitOn, if_pos rfl, List.tail_cons]
      cases s with
      | nil => decide
      | cons d s =>
        by_cases hd : d = ' '
        · simp [hd, splitOn, List.infix_cons_iff]
        · rw [empty_mem_splitOn_cons hd, ← tail_splitOn_cons hd, ih]
          simp [List.suffix_cons_iff, List.infix_cons_iff, Ne.symm hd]
    · rw [tail_splitOn_cons hc, ih]
      simp [List.suffix_cons_iff, List.infix_cons_iff, Ne.symm hc]

theorem empty_mem_splitOn_iff (h : s ≠ []) : [] ∈ splitOn ' ' s ↔ s.HasExtraBlank := by
  unfold HasExtraBlank
  cases s with
  | nil => exact absurd rfl h
  | cons c s =>
    by_cases hc : c = ' '
    · simp [hc, splitOn]
    · rw [empty_mem_splitOn_cons hc, ← tail_splitOn_cons hc, empty_mem_tail_splitOn_iff]
      simp [Ne.symm hc]

end Pieces

end Text

namespace Arguments

theorem nonEmpty_splitList (list : Text) : Text.nonEmpty (splitList list) = Text.words list := by
  unfold splitList
  split
  · next h => rw [h]; rfl
  · rfl

theorem empty_mem_splitList_iff {list : Text} : [] ∈ splitList list ↔ Text.HasExtraBlank list := by
  unfold splitList
  split
  · next h => rw [h]; decide
  · next h => exact Text.empty_mem_splitOn_iff h

end Arguments

/-- The caller that gives three lists. -/
def CallerFlags.ofLists (flags added removed : Text) : CallerFlags :=
  { flags := Arguments.splitList flags, added := Arguments.splitList added, removed := Arguments.splitList removed }

theorem CallerFlags.sameWords_ofLists {flags added removed flags' added' removed' : Text}
    (hflags : Text.words flags = Text.words flags') (hadded : Text.words added = Text.words added')
    (hremoved : Text.words removed = Text.words removed') :
    (ofLists flags added removed).SameWords (ofLists flags' added' removed') where
  flags := by simpa only [ofLists, Arguments.nonEmpty_splitList] using hflags
  added := by simpa only [ofLists, Arguments.nonEmpty_splitList] using hadded
  removed := by simpa only [ofLists, Arguments.nonEmpty_splitList] using hremoved

/-! ## Defines that are counted

The flag for an empty define is nothing but the start of a flag. So a build file that lacks one has a letter less, while
everything else in it is the same. -/

theorem count_defineFlags (symbols : List Text) : (symbols.map defineFlag).flatten.count 'D' =
    ((Text.nonEmpty symbols).map defineFlag).flatten.count 'D' + symbols.count [] := by
  induction symbols with
  | nil => rfl
  | cons symbol symbols ih =>
    by_cases hsymbol : symbol = []
    · have hnonEmpty : Text.nonEmpty (symbol :: symbols) = Text.nonEmpty symbols := by
        simp [Text.nonEmpty, hsymbol]
      rw [hnonEmpty, hsymbol, List.map_cons, List.flatten_cons, List.count_append, ih, List.count_cons_self]
      show 1 + _ = _
      omega
    · have hnonEmpty : Text.nonEmpty (symbol :: symbols) = symbol :: Text.nonEmpty symbols := by
        simp [Text.nonEmpty, hsymbol]
      rw [hnonEmpty, List.map_cons, List.map_cons, List.flatten_cons, List.flatten_cons, List.count_append,
        List.count_append, ih, List.count_cons_of_ne hsymbol]
      omega

section Removal

variable {p : Project} {caller other : CallerFlags} {outdir : Text}
variable (h : caller.SameWords other) (hcaller : [] ∉ caller.removed) (hother : [] ∈ other.removed)
include h hcaller hother

/-- Among the defines that are left, those that are removed only by the other caller are the empty ones. -/
theorem eq_nonEmpty_of_mergeDefines {own defines defines' : List Text}
    (hdefines : mergeDefines caller.added own caller.removed = .ok defines)
    (hdefines' : mergeDefines other.added own other.removed = .ok defines') :
    defines' = Text.nonEmpty defines ∧ defines.count [] = own.count [] := by
  have hself : [] ∉ Text.nonEmpty caller.added := fun hmem => absurd rfl (Text.mem_nonEmpty_iff.1 hmem).2
  refine ⟨?_, ?_⟩
  · rw [eq_filter_of_mergeDefines hdefines, eq_filter_of_mergeDefines hdefines', h.added]
    unfold Text.nonEmpty
    rw [List.filter_filter]
    apply List.filter_congr
    intro name _
    by_cases hname : name = []
    · simp [hname, hother]
    · simp [hname, h.mem_removed_iff hname]
  · rw [eq_filter_of_mergeDefines hdefines, count_filter_not_mem hcaller, List.count_append,
      List.count_eq_zero.2 hself, Nat.zero_add]

theorem count_compilerFlags {c : Configuration} {page : Language} {flags flags' : List Text}
    (hflags : c.compilerFlags page caller.symbols = .ok flags)
    (hflags' : c.compilerFlags page other.symbols = .ok flags') :
    flags.flatten.count 'D' = flags'.flatten.count 'D' + (c.definedSymbols page).count [] := by
  obtain ⟨defines, hdefines, hpage⟩ := bind_eq_ok.1 hflags
  obtain ⟨defines', hdefines', hpage'⟩ := bind_eq_ok.1 hflags'
  cases hpage
  cases hpage'
  obtain ⟨rfl, hcount⟩ := eq_nonEmpty_of_mergeDefines h hcaller hother hdefines hdefines'
  have hundefined : caller.symbols.undefined = other.symbols.undefined := rfl
  rw [hundefined]
  simp only [List.flatten_append, List.count_append]
  rw [count_defineFlags, hcount]
  omega

/-- The other caller has less in its flags, if there is an empty define on a page. -/
theorem count_forCompilers_lt {c : Configuration} (hselected : p.selected = some c) {page : Language}
    (hpage : p.HasPage page) (hempty : [] ∈ c.definedSymbols page) {flags flags' : ResolvedFlags}
    (hflags : p.resolveFlags caller outdir = .ok flags) (hflags' : p.resolveFlags other outdir = .ok flags') :
    (flags'.forCompilers p).flatten.count 'D' < (flags.forCompilers p).flatten.count 'D' := by
  rw [resolveFlags_of_selected hselected] at hflags hflags'
  obtain ⟨forC, hforC, hflags⟩ := bind_eq_ok.1 hflags
  obtain ⟨forC', hforC', hflags'⟩ := bind_eq_ok.1 hflags'
  obtain ⟨forCpp, hforCpp, hflags⟩ := bind_eq_ok.1 hflags
  obtain ⟨forCpp', hforCpp', hflags'⟩ := bind_eq_ok.1 hflags'
  cases hflags
  cases hflags'
  have hcallers : caller.flags.flatten.count 'D' = other.flags.flatten.count 'D' := by
    rw [← Text.flatten_nonEmpty, h.flags, Text.flatten_nonEmpty]
  have hc := count_compilerFlags h hcaller hother hforC hforC'
  have hpositive : 0 < (c.definedSymbols page).count [] := List.count_pos_iff.2 hempty
  unfold ResolvedFlags.forCompilers
  cases hcpp : p.isCpp with
  | false =>
    have hpageC : page = .c := hpage.resolve_right (by simp [hcpp])
    subst hpageC
    simp only [Bool.false_eq_true, if_false, List.append_nil, List.flatten_append, List.count_append]
    omega
  | true =>
    rw [hcpp, if_pos rfl] at hforCpp hforCpp'
    obtain ⟨own, hown, rfl⟩ := map_eq_ok.1 hforCpp
    obtain ⟨own', hown', rfl⟩ := map_eq_ok.1 hforCpp'
    have hcpp := count_compilerFlags h hcaller hother hown hown'
    simp only [if_true, Option.map_some, Option.getD_some, List.flatten_append, List.count_append]
    cases page <;> omega

end Removal

namespace Options

variable {o : Options} {settings : Settings} {before : Disk} {caller other : CallerFlags}

/-! ## Empty defines that are removed -/

theorem exists_replaced_of_convert {source : Text} {between after : Disk} {path : Path}
    (hread : FileSystem.readText (m := StateM Disk) o.project before = (.ok source, between))
    (hrun : (o.convert settings : StateM Disk _) before = (.ok path, after)) :
    ∃ f middle, o.IsBuildGraph settings source f ∧ path = o.buildFile ∧ Replaced o.buildFile f.text middle after := by
  rw [convert_of_readable hread] at hrun
  cases htext : o.buildText settings source with
  | error e =>
    rw [htext] at hrun
    cases hrun
  | ok text =>
    rw [htext] at hrun
    obtain ⟨f, hgraph, rfl⟩ := buildText_eq_ok_iff.1 htext
    obtain ⟨middle, -, ⟨hpath, hreplaced⟩ | ⟨e, he, -⟩⟩ := writeBuildFile_cases hrun
    · exact ⟨f, middle, hgraph, Except.ok.inj hpath, hreplaced⟩
    · cases he

theorem readText_of_replaced {path : Path} {text : Text} {middle after : Disk} (h : Replaced path text middle after) :
    after.readText path = .ok text := by
  obtain ⟨location, hlocation, hat⟩ := h.content
  unfold Disk.readText
  rw [hlocation]
  simp only [bind, Except.bind, hat]
  rfl

/-- The build files differ if only one of two callers removes an empty define that is there. -/
theorem text_ne_of_definesEmpty (h : caller.SameWords other) (hcaller : [] ∉ caller.removed)
    (hother : [] ∈ other.removed) {source : Text} {p : Project} {c : Configuration} {page : Language}
    (hp : Project.read o.outputName source = .ok p) (hselected : (p.select o.configurationName).selected = some c)
    (hpage : p.HasPage page) (hempty : [] ∈ c.definedSymbols page) {f f' : Ninja.File}
    (hf : (o.withCaller caller).IsBuildGraph settings source f)
    (hf' : (o.withCaller other).IsBuildGraph settings source f') : f.text ≠ f'.text := by
  obtain ⟨q, flags, toolchain, hq, -, hflags, htoolchain, hgraph⟩ := hf
  obtain ⟨q', flags', toolchain', hq', -, hflags', htoolchain', hgraph'⟩ := hf'
  cases hp.symm.trans hq
  cases hp.symm.trans hq'
  cases htoolchain.symm.trans htoolchain'
  obtain ⟨bare, hbare, hcount⟩ := exists_count_text_graph hgraph
  obtain ⟨bare', hbare', hcount'⟩ := exists_count_text_graph hgraph'
  -- apart from the flags for the compilers the two graphs are the same
  have hsame : bare = bare' := by
    have hfinal : Text.nonEmpty flags.final = Text.nonEmpty flags'.final := by
      rw [final_of_resolveFlags_of_selected hselected hflags, final_of_resolveFlags_of_selected hselected hflags']
      exact h.finalFlags_eq _ _ _
    have hwritten : ResolvedFlags.written { c := [], cpp := none, final := flags.final } =
        ResolvedFlags.written { c := [], cpp := none, final := flags'.final } := by
      unfold ResolvedFlags.written
      rw [hfinal]
    rw [← graph_written, hwritten, graph_written] at hbare
    exact Except.ok.inj (hbare.symm.trans hbare')
  subst hsame
  have hletter : IsWritten 'D' := by
    unfold IsWritten
    decide
  have hless := count_forCompilers_lt h hcaller hother hselected hpage hempty hflags hflags'
  intro htext
  have htotal := congrArg (List.count 'D') htext
  rw [hcount 'D' hletter, hcount' 'D' hletter] at htotal
  exact hless.ne' (Nat.add_left_cancel htotal)

theorem readText_ne_of_definesEmpty (h : caller.SameWords other) (hcaller : [] ∉ caller.removed)
    (hother : [] ∈ other.removed) (hempty : o.DefinesEmpty before) {path path' : Path} {after after' : Disk}
    (hrun : ((o.withCaller caller).convert settings : StateM Disk _) before = (.ok path, after))
    (hrun' : ((o.withCaller other).convert settings : StateM Disk _) before = (.ok path', after')) :
    after.readText path ≠ after'.readText path' := by
  obtain ⟨p, c, page, ⟨source, between, hread, hp⟩, hselected, hpage, hdefined⟩ := hempty
  obtain ⟨f, middle, hf, rfl, hreplaced⟩ := exists_replaced_of_convert (o := o.withCaller caller) hread hrun
  obtain ⟨f', middle', hf', rfl, hreplaced'⟩ := exists_replaced_of_convert (o := o.withCaller other) hread hrun'
  rw [readText_of_replaced hreplaced, readText_of_replaced hreplaced', ne_eq, Except.ok.injEq]
  exact text_ne_of_definesEmpty h hcaller hother hp hselected hpage hdefined hf hf'

end Options

/-! ## A project with empty defines -/

/-- A project file of two configurations: one of them has an empty define, the other one has two. -/
def roverText : Text := ([
  "<Project><PropertyGroup><SchemaVersion>2.0</SchemaVersion>",
  "<Language>C</Language><OutputType>Executable</OutputType>",
  "<OutputFileName>rover</OutputFileName>",
  "<OutputFileExtension>.elf</OutputFileExtension></PropertyGroup>",
  "<PropertyGroup Condition=\"'$(Configuration)' == 'Debug'\">",
  "<ArmGcc><armgcc.compiler.symbols.DefSymbols><ListValues>",
  "<Value/><Value>BOARD</Value><Value/>",
  "</ListValues></armgcc.compiler.symbols.DefSymbols></ArmGcc>",
  "</PropertyGroup>",
  "<PropertyGroup Condition=\"'$(Configuration)' == 'Release'\">",
  "<ArmGcc><armgcc.compiler.symbols.DefSymbols><ListValues>",
  "<Value/><Value>BOARD</Value>",
  "</ListValues></armgcc.compiler.symbols.DefSymbols></ArmGcc>",
  "</PropertyGroup>",
  "<ItemGroup><Compile Include=\"main.c\"/></ItemGroup></Project>"] : List Text).flatten

/-- The project in that file. -/
def rover : Project := {
  language := .c, outputKind := .executable, outputName := "rover", outputExtension := ".elf"
  toolchain := ⟨[], [], []⟩, references := [], sources := ["main.c"]
  configurations := [
    ⟨"Debug", [⟨"armgcc.compiler.symbols.DefSymbols", [], [[], "BOARD", []]⟩]⟩,
    ⟨"Release", [⟨"armgcc.compiler.symbols.DefSymbols", [], [[], "BOARD"]⟩]⟩] }

/-- A disk with that file. -/
def roverDisk : Disk := { current := [], entries := [(["rover.cproj"], .file (.text roverText))] }

/-- The conversion of a configuration in that file. -/
def roverOptions (configuration : Text) : Options :=
  { project := "rover.cproj", configuration, toolchain := some "arm-gnu-toolchain" }

theorem read_rover : Project.read "rover" roverText = .ok rover := by
  have hread : (Project.read "rover" roverText).toOption = some rover := by decide +kernel
  cases h : Project.read "rover" roverText with
  | error e =>
    rw [h] at hread
    cases hread
  | ok p =>
    rw [h] at hread
    exact congrArg Except.ok (Option.some.inj hread)

namespace Options

section Rover

variable {configuration : Text} {caller : CallerFlags}

theorem convert_rover : (((roverOptions configuration).withCaller caller).convert {} : StateM Disk _) roverDisk =
    match ((roverOptions configuration).withCaller caller).buildGraph {} rover with
    | .error e => (.error e, roverDisk)
    | .ok f => ((roverOptions configuration).writeBuildFile f.text : StateM Disk _) roverDisk := by
  have hread : FileSystem.readText (m := StateM Disk) (roverOptions configuration).project roverDisk =
      (.ok roverText, roverDisk) := rfl
  rw [convert_of_readable (o := (roverOptions configuration).withCaller caller) hread,
    buildText_of_read (o := (roverOptions configuration).withCaller caller) read_rover]
  cases ((roverOptions configuration).withCaller caller).buildGraph {} rover <;> rfl

theorem exists_writeBuildFile_rover (hconfiguration : configuration = "Debug" ∨ configuration = "Release")
    (text : Text) : ∃ after, ((roverOptions configuration).writeBuildFile text : StateM Disk _) roverDisk =
      (.ok (configuration ++ "/build.ninja"), after) := by
  rcases hconfiguration with rfl | rfl
  · exact ⟨_, rfl⟩
  · exact ⟨_, rfl⟩

theorem exists_convert_rover (hconfiguration : configuration = "Debug" ∨ configuration = "Release")
    (hgraph : (((roverOptions configuration).withCaller caller).buildGraph {} rover).isOk = true) :
    ∃ after, (((roverOptions configuration).withCaller caller).convert {} : StateM Disk _) roverDisk =
      (.ok (configuration ++ "/build.ninja"), after) := by
  rw [convert_rover]
  cases h : ((roverOptions configuration).withCaller caller).buildGraph {} rover with
  | error e =>
    rw [h] at hgraph
    cases hgraph
  | ok f => exact exists_writeBuildFile_rover hconfiguration f.text

end Rover

/-! ## Lists -/

/-- The options with the lists of a caller. -/
def withLists (o : Options) (flags added removed : Text) : Options :=
  o.withCaller (.ofLists flags added removed)

/-- Let three lists have the same words as three others. If the project that is converted has no empty define on a page
that the build needs, or neither list of symbols to remove has an extra blank, then both conversions end alike and leave
the same disk. If both such lists have an extra blank, or neither has, then they end alike as well, or both stop at a
symbol to remove that occurs twice. But if the project has an empty define and only one of the two lists has an extra
blank, then the conversions do not write the same build file. -/
theorem convert_of_same_words (o : Options) (settings : Settings) (before : Disk)
    {flags flags' added added' removed removed' : Text} (hflags : Text.words flags = Text.words flags')
    (hadded : Text.words added = Text.words added') (hremoved : Text.words removed = Text.words removed') :
    let run (o : Options) := (o.convert settings : StateM Disk _) before
    let one := o.withLists flags added removed
    let other := o.withLists flags' added' removed'
    (¬ o.DefinesEmpty before ∨ (¬ Text.HasExtraBlank removed ∧ ¬ Text.HasExtraBlank removed') → run one = run other) ∧
    ((Text.HasExtraBlank removed ↔ Text.HasExtraBlank removed') →
      run one = run other ∨ one.ViolatesRepeated settings before ∧ other.ViolatesRepeated settings before) ∧
    (o.DefinesEmpty before → ¬ (Text.HasExtraBlank removed ↔ Text.HasExtraBlank removed') →
      ∀ path path' after after', run one = (.ok path, after) → run other = (.ok path', after') →
        after.readText path ≠ after'.readText path') := by
  intro run one other
  have h : (CallerFlags.ofLists flags added removed).SameWords (.ofLists flags' added' removed') :=
    CallerFlags.sameWords_ofLists hflags hadded hremoved
  have hone : [] ∈ (CallerFlags.ofLists flags added removed).removed ↔ Text.HasExtraBlank removed :=
    Arguments.empty_mem_splitList_iff
  have hother : [] ∈ (CallerFlags.ofLists flags' added' removed').removed ↔ Text.HasExtraBlank removed' :=
    Arguments.empty_mem_splitList_iff
  rw [← hone, ← hother]
  refine ⟨convert_eq_of_sameWords h, convert_eq_or_violates h, ?_⟩
  intro hempty hdiffer path path' after after' hrun hrun'
  by_cases hmem : [] ∈ (CallerFlags.ofLists flags added removed).removed
  · have hmem' : [] ∉ (CallerFlags.ofLists flags' added' removed').removed := fun hmem' =>
      hdiffer (iff_of_true hmem hmem')
    exact (readText_ne_of_definesEmpty h.symm hmem' hmem hempty hrun' hrun).symm
  · have hmem' : [] ∈ (CallerFlags.ofLists flags' added' removed').removed := by
      by_contra hmem'
      exact hdiffer (iff_of_false hmem hmem')
    exact readText_ne_of_definesEmpty h hmem hmem' hempty hrun hrun'

/-- Blanks around flags and symbols to define change nothing. A blank behind the symbol to remove takes the one empty
define out of the build file. -/
theorem convert_of_same_words_around :
    let o := roverOptions "Release"
    let run (o : Options) := (o.convert {} : StateM Disk _) roverDisk
    let path : Path := "Release/build.ninja"
    (∃ after, run (o.withLists " -Wall  -g " " TRACE" "NDEBUG") = (.ok path, after) ∧
        run (o.withLists "-Wall -g" "TRACE " "NDEBUG") = (.ok path, after)) ∧
      ∃ after after', run (o.withLists "-Wall" "TRACE" "NDEBUG") = (.ok path, after) ∧
        run (o.withLists "-Wall" "TRACE" "NDEBUG ") = (.ok path, after') ∧
        after.readText path ≠ after'.readText path := by
  intro o run path
  have hruns (flags added removed : Text)
      (hgraph : ((o.withLists flags added removed).buildGraph {} rover).isOk = true) :
      ∃ after, run (o.withLists flags added removed) = (.ok path, after) :=
    exists_convert_rover (Or.inr rfl) hgraph
  constructor
  · obtain ⟨after, hafter⟩ := hruns "-Wall -g" "TRACE " "NDEBUG" (by decide +kernel)
    have hflags : Text.words " -Wall  -g " = Text.words "-Wall -g" := by decide
    have hadded : Text.words " TRACE" = Text.words "TRACE " := by decide
    have hremoved : Text.words "NDEBUG" = Text.words "NDEBUG" := rfl
    obtain ⟨hsame, -, -⟩ := convert_of_same_words o {} roverDisk hflags hadded hremoved
    exact ⟨after, (hsame (Or.inr (by decide))).trans hafter, hafter⟩
  · obtain ⟨after, hafter⟩ := hruns "-Wall" "TRACE" "NDEBUG" (by decide +kernel)
    obtain ⟨after', hafter'⟩ := hruns "-Wall" "TRACE" "NDEBUG " (by decide +kernel)
    have hflags : Text.words "-Wall" = Text.words "-Wall" := rfl
    have hadded : Text.words "TRACE" = Text.words "TRACE" := rfl
    have hremoved : Text.words "NDEBUG" = Text.words "NDEBUG " := by decide
    have hempty : o.DefinesEmpty roverDisk :=
      ⟨rover, _, .c, ⟨roverText, roverDisk, rfl, read_rover⟩, rfl, Or.inl rfl, by decide⟩
    obtain ⟨-, -, hdiffer⟩ := convert_of_same_words o {} roverDisk hflags hadded hremoved
    exact ⟨after, after', hafter, hafter', hdiffer hempty (by decide) _ _ _ _ hafter hafter'⟩

/-- A blank behind the symbol to remove, in a configuration with two empty defines: now they are to be removed. -/
theorem convert_of_extra_blank :
    let o := roverOptions "Debug"
    let run (o : Options) := (o.convert {} : StateM Disk _) roverDisk
    Text.words "NDEBUG " = Text.words "NDEBUG" ∧
      (∃ after, run (o.withLists [] [] "NDEBUG") = (.ok "Debug/build.ninja", after)) ∧
      run (o.withLists [] [] "NDEBUG ") = (.error (.violation (.repeatedDefine [] 2)), roverDisk) := by
  intro o run
  refine ⟨by decide, exists_convert_rover (Or.inl rfl) (by decide +kernel), convert_rover.trans ?_⟩
  have hgraph : ((roverOptions "Debug").withCaller (.ofLists [] [] "NDEBUG ")).buildGraph {} rover =
      .error (.violation (.repeatedDefine [] 2)) := rfl
  rw [hgraph]

end Options

end CprojNinja
