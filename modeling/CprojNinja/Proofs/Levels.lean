import CprojNinja.Proofs.CallerFlags

/-!
# Levels

A compiler page has two levels, one for optimization and one for debugging. The user chooses a level by its description,
and the flag is looked for in that description: a fixed start with one of a few marks right behind it. Descriptions are
free texts, so the start may stand there without a mark, also where another start begins, and there may be several
flags.

Main statement: a level gives the flag that begins first in its description, or no flag if there is none; only where the
level is missing the preset counts.
-/

namespace CprojNinja

/-! ## Flags in a description -/

/-- Whether a description has the flag with a mark right behind a part of it. -/
def IsLevelAt (start : Text) (marks : List Char) (text before : Text) (mark : Char) : Prop :=
  mark ∈ marks ∧ before ++ start ++ [mark] <+: text

/-- Whether no flag of a description begins before this one. -/
def IsFirstLevelAt (start : Text) (marks : List Char) (text before : Text) (mark : Char) : Prop :=
  IsLevelAt start marks text before mark ∧
    ∀ before' mark', IsLevelAt start marks text before' mark' → before.length ≤ before'.length

/-- The flags that a level gives, by its description if it is there. -/
inductive LevelFlags (start : Text) (marks : List Char) (preset : List Text) : Option Text → List Text → Prop where
  /-- There is no such level. -/
  | absent : LevelFlags start marks preset none preset
  /-- The description has a flag. -/
  | recognised {text before : Text} {mark : Char} (h : IsFirstLevelAt start marks text before mark) :
    LevelFlags start marks preset (some text) [start ++ [mark]]
  /-- The description has no flag. -/
  | unrecognised {text : Text} (h : ∀ before mark, ¬ IsLevelAt start marks text before mark) :
    LevelFlags start marks preset (some text) []

section Description

variable {start : Text} {marks : List Char} {preset : List Text} {front text before : Text} {mark : Char}

theorem not_isLevelAt_nil : ¬ IsLevelAt start marks [] before mark := by
  rintro ⟨-, h⟩
  exact absurd (List.prefix_nil.1 h) (by simp)

theorem isLevelAt_append_iff :
    IsLevelAt start marks (front ++ text) (front ++ before) mark ↔ IsLevelAt start marks text before mark := by
  unfold IsLevelAt
  rw [List.append_assoc, List.append_assoc, List.prefix_append_right_inj, ← List.append_assoc]

/-- A flag that does not begin before the end of some part belongs to the rest. -/
theorem exists_isLevelAt_of_append (h : IsLevelAt start marks (front ++ text) before mark)
    (hlength : front.length ≤ before.length) :
    ∃ before', before = front ++ before' ∧ IsLevelAt start marks text before' mark := by
  have hbefore : before <+: front ++ text := by
    have hprefix := h.2
    rw [List.append_assoc] at hprefix
    exact (List.prefix_append _ _).trans hprefix
  obtain ⟨before', rfl⟩ := List.prefix_of_prefix_length_le (List.prefix_append front text) hbefore hlength
  exact ⟨before', rfl, isLevelAt_append_iff.1 h⟩

/-- What is before all flags makes no difference. -/
theorem LevelFlags.append {flags : List Text} (h : LevelFlags start marks preset (some text) flags)
    (hfront : ∀ before mark, IsLevelAt start marks (front ++ text) before mark → front.length ≤ before.length) :
    LevelFlags start marks preset (some (front ++ text)) flags := by
  cases h with
  | @recognised _ before mark hfirst =>
    refine .recognised ⟨isLevelAt_append_iff.2 hfirst.1, fun before' mark' h => ?_⟩
    obtain ⟨behind, rfl, hbehind⟩ := exists_isLevelAt_of_append h (hfront before' mark' h)
    rw [List.length_append, List.length_append]
    exact Nat.add_le_add_left (hfirst.2 behind mark' hbehind) _
  | unrecognised hnone =>
    refine .unrecognised fun before mark h => ?_
    obtain ⟨behind, -, hbehind⟩ := exists_isLevelAt_of_append h (hfront before mark h)
    exact hnone behind mark hbehind

theorem LevelFlags.unique {description : Option Text} {flags flags' : List Text}
    (h : LevelFlags start marks preset description flags) (h' : LevelFlags start marks preset description flags') :
    flags = flags' := by
  cases h with
  | absent =>
    cases h'
    rfl
  | @recognised _ before mark hfirst =>
    cases h' with
    | @recognised _ before' mark' hfirst' =>
      have hlength := Nat.le_antisymm (hfirst.2 _ _ hfirst'.1) (hfirst'.2 _ _ hfirst.1)
      have hprefix := List.prefix_of_prefix_length_le hfirst.1.2 hfirst'.1.2 (by simp [hlength])
      have heq := hprefix.eq_of_length (by simp [hlength])
      rw [List.append_inj_right' heq rfl]
    | unrecognised hnone => exact absurd hfirst.1 (hnone _ _)
  | unrecognised hnone =>
    cases h' with
    | recognised hfirst => exact absurd hfirst.1 (hnone _ _)
    | unrecognised => rfl

/-! ## The search for a flag -/

variable {c : Char} {s : Text}

theorem isLevelAt_start_iff :
    IsLevelAt start marks text [] mark ↔ mark ∈ marks ∧ ∃ rest, Text.dropStart? start text = some (mark :: rest) := by
  refine and_congr_right fun _ => exists_congr fun rest => ?_
  rw [Text.dropStart?_eq_some, List.nil_append, List.append_assoc, List.singleton_append, eq_comm]

theorem firstLevel?_of_isLevelAt (h : IsLevelAt start marks (c :: s) [] mark) :
    firstLevel? start marks (c :: s) = some (start ++ [mark]) := by
  obtain ⟨hmark, rest, hrest⟩ := isLevelAt_start_iff.1 h
  rw [firstLevel?, hrest]
  exact if_pos hmark

theorem firstLevel?_of_not_isLevelAt (h : ∀ mark, ¬ IsLevelAt start marks (c :: s) [] mark) :
    firstLevel? start marks (c :: s) = firstLevel? start marks s := by
  rw [firstLevel?]
  split
  · next mark rest hrest => exact if_neg fun hmark => h mark (isLevelAt_start_iff.2 ⟨hmark, rest, hrest⟩)
  · rfl

theorem levelFlags_firstLevel? (start : Text) (marks : List Char) (preset : List Text) (text : Text) :
    LevelFlags start marks preset (some text) (firstLevel? start marks text).toList := by
  induction text with
  | nil => exact .unrecognised fun before mark => not_isLevelAt_nil
  | cons c s ih =>
    by_cases hstart : ∃ mark, IsLevelAt start marks (c :: s) [] mark
    · obtain ⟨mark, hmark⟩ := hstart
      rw [firstLevel?_of_isLevelAt hmark]
      exact .recognised ⟨hmark, fun before' mark' _ => Nat.zero_le _⟩
    · rw [firstLevel?_of_not_isLevelAt (not_exists.1 hstart)]
      have hfront : ∀ before mark, IsLevelAt start marks ([c] ++ s) before mark → [c].length ≤ before.length := by
        intro before mark h
        refine List.length_pos_of_ne_nil ?_
        rintro rfl
        exact hstart ⟨mark, h⟩
      exact ih.append hfront

/-- A level gives what the entry of a page gives. -/
theorem levelFlags_iff {description : Option Text} {flags : List Text} :
    LevelFlags start marks preset description flags ↔
      flags = description.elim preset fun text => (firstLevel? start marks text).toList := by
  have hflags : LevelFlags start marks preset description
      (description.elim preset fun text => (firstLevel? start marks text).toList) := by
    cases description with
    | none => exact .absent
    | some text => exact levelFlags_firstLevel? start marks preset text
  refine ⟨fun h => h.unique hflags, ?_⟩
  rintro rfl
  exact hflags

theorem levelFlags_append_iff {flags : List Text}
    (hfront : ∀ before mark, IsLevelAt start marks (front ++ text) before mark → front.length ≤ before.length) :
    LevelFlags start marks preset (some (front ++ text)) flags ↔ LevelFlags start marks preset (some text) flags := by
  refine ⟨fun h => ?_, fun h => h.append hfront⟩
  have hflags := levelFlags_firstLevel? start marks preset text
  rwa [h.unique (hflags.append hfront)]

theorem LevelFlags.length_le {flags : List Text} (h : LevelFlags start marks preset (some text) flags) :
    flags.length ≤ 1 := by
  cases h <;> simp

end Description

/-! ## The levels of a compiler page -/

/-- The entries of a compiler page between its two levels. -/
def entriesBetweenLevels : List PageEntry := (entriesAfterSymbols.drop 2).take 7

/-- The entries of a compiler page behind its two levels. -/
def entriesBehindLevels : List PageEntry := entriesAfterSymbols.drop 10

namespace Configuration

variable {c : Configuration} {page : Language}

/-- The flags for the directories in which a compiler page looks for included files. -/
def includeFlags (c : Configuration) (page : Language) : List Text :=
  (c.values (compilerPage page ++ "directories.IncludePaths")).map fun directory => "-I\"" ++ directory ++ "\""

/-- The description of the optimization level of a compiler page. -/
def optimizationLevel? (c : Configuration) (page : Language) : Option Text :=
  c.text? (compilerPage page ++ "optimization.level")

/-- The description of the debug level of a compiler page. -/
def debugLevel? (c : Configuration) (page : Language) : Option Text :=
  c.text? (compilerPage page ++ "optimization.DebugLevel")

theorem flags_level (page key start : Text) (marks : List Char) (preset : List Text) (c : Configuration) :
    LevelFlags start marks preset (c.text? (page ++ key)) (PageEntry.flags page c (.level key start marks preset)) := by
  rw [levelFlags_iff, PageEntry.flags]
  cases c.text? (page ++ key) <;> rfl

theorem flagsBehindSymbols_eq (c : Configuration) (page : Language) : c.flagsBehindSymbols page = c.includeFlags page ++
    PageEntry.flags (compilerPage page) c (.level "optimization.level" "-O" ['0', '1', '2', '3', 's'] ["-O0"]) ++
    pageFlags (compilerPage page) entriesBetweenLevels c ++
    PageEntry.flags (compilerPage page) c (.level "optimization.DebugLevel" "-g" ['1', '2', '3'] []) ++
    pageFlags (compilerPage page) entriesBehindLevels c := by
  have hentries : entriesAfterSymbols = [.values "directories.IncludePaths" "-I\"" "\""] ++
      [.level "optimization.level" "-O" ['0', '1', '2', '3', 's'] ["-O0"]] ++ entriesBetweenLevels ++
      [.level "optimization.DebugLevel" "-g" ['1', '2', '3'] []] ++ entriesBehindLevels := rfl
  have hsingle (entry : PageEntry) :
      pageFlags (compilerPage page) [entry] c = PageEntry.flags (compilerPage page) c entry :=
    List.flatMap_singleton ..
  rw [flagsBehindSymbols, hentries]
  simp only [pageFlags_append, hsingle]
  rfl

end Configuration

variable {p : Project} {c : Configuration}

/-- The flags of a compiler page with a selected configuration have the one for optimization right behind the
directories and the one for debugging further on. A level that is missing has its preset, which is none for debugging,
and a level that is there has the flag that begins first in its description, or none. So each description decides, never
for two flags, and what stands in it before the first flag makes no difference. -/
theorem compilerFlags_levels (hselected : p.selected = some c) (page : Language) (changes : SymbolChanges) :
    (∀ flags, p.compilerFlags page changes = .ok flags ↔
      ∃ symbols optimization debug, c.symbolFlags page changes = .ok symbols ∧
        LevelFlags "-O" ['0', '1', '2', '3', 's'] ["-O0"] (c.optimizationLevel? page) optimization ∧
        LevelFlags "-g" ['1', '2', '3'] [] (c.debugLevel? page) debug ∧
        flags = c.flagsBeforeSymbols page ++ symbols ++ c.includeFlags page ++ optimization ++
          pageFlags (compilerPage page) entriesBetweenLevels c ++ debug ++
          pageFlags (compilerPage page) entriesBehindLevels c) ∧
      ∀ start marks preset text, (∃! flags, LevelFlags start marks preset (some text) flags) ∧
        (∀ flags, LevelFlags start marks preset (some text) flags → flags.length ≤ 1) ∧
        ∀ front flags,
          (∀ before mark, IsLevelAt start marks (front ++ text) before mark → front.length ≤ before.length) →
          (LevelFlags start marks preset (some (front ++ text)) flags ↔
            LevelFlags start marks preset (some text) flags) := by
  refine ⟨fun flags => ?_, fun start marks preset text => ⟨?_, fun flags => LevelFlags.length_le, fun front flags =>
    levelFlags_append_iff⟩⟩
  · rw [compilerFlags_of_selected hselected, Configuration.compilerFlags_eq_flagsAround, map_eq_ok]
    have haround (symbols : List Text) : c.flagsAround page symbols =
        c.flagsBeforeSymbols page ++ symbols ++ c.flagsBehindSymbols page := rfl
    constructor
    · rintro ⟨symbols, hsymbols, rfl⟩
      refine ⟨symbols, _, _, hsymbols, Configuration.flags_level .., Configuration.flags_level .., ?_⟩
      rw [haround, Configuration.flagsBehindSymbols_eq]
      simp only [List.append_assoc]
    · rintro ⟨symbols, optimization, debug, hsymbols, hoptimization, hdebug, rfl⟩
      refine ⟨symbols, hsymbols, ?_⟩
      rw [haround, Configuration.flagsBehindSymbols_eq, hoptimization.unique (Configuration.flags_level ..),
        hdebug.unique (Configuration.flags_level ..)]
      simp only [List.append_assoc]
  · exact ⟨_, levelFlags_firstLevel? start marks preset text, fun flags h => h.unique (levelFlags_firstLevel? ..)⟩

/-- Starts without a mark stand before the first flag and behind it, and the debug level has nothing else. -/
theorem compilerFlags_levels_overlapping :
    let c : Configuration := ⟨"Release", [
      ⟨"armgcc.compiler.directories.IncludePaths", [], ["../inc"]⟩,
      ⟨"armgcc.compiler.optimization.level", "-Og or -O-O2 (-O3)", []⟩,
      ⟨"armgcc.compiler.optimization.DebugLevel", "-g-g0 -g", []⟩]⟩
    let p : Project := {
      language := .c, outputKind := .executable, outputName := "rover", outputExtension := ".elf"
      toolchain := ⟨"7.0", "com.Atmel.ARMGCC.C", "Native"⟩, references := [], sources := ["main.c"]
      configurations := [c], selected := some c }
    p.compilerFlags .c ⟨["TRACE"], [], []⟩ = .ok ["-DTRACE", "-I\"../inc\"", "-O2", "-mlong-calls"] := by
  intro c p
  refine ((compilerFlags_levels (p := p) (c := c) rfl .c _).1 _).2
    ⟨["-DTRACE"], ["-O2"], [], rfl, levelFlags_iff.2 ?_, levelFlags_iff.2 ?_, ?_⟩
  · decide +kernel
  · decide +kernel
  · decide +kernel

end CprojNinja
