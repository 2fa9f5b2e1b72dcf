import CprojNinja.Graph.Basic
import CprojNinja.Proofs.Order

/-!
# The scan of the sources

A project lists files of all kinds. What each of them asks of the build graph is a matter of its name alone: its
extension says whether a compiler takes it and which one, and its path says where the object file goes. A file offends
if it cannot be compiled where it stands: because it is a C++ source of a C project, or because a file before it has the
same object file.

The compile edges are made in one pass that carries the object files it has seen. The invariant of the pass is that
these are the object files of what was scanned, no more and no less; so the pass stops at the first file that offends,
and if there is none it gives the edge of every file that asks for one. On its way it warns about every file that asks
for none.
-/

namespace CprojNinja

open Ninja (Edge)

/-! ## What a file asks for -/

/-- The extensions of C++ sources. -/
def cppExtensions : List Text := [".cpp", ".cc", ".cxx"]

/-- Where the object file of a listed file goes. -/
def listedObject (file : Path) : Path :=
  "$builddir/" ++ Path.dropParents (Path.splitExtension file).1 ++ ".o"

/-- The edge that a listed file asks for, if its extension is one of those that a compiler takes. -/
def listedEdge? (file : Path) : Option Edge :=
  let edge (rule : Text) : Edge :=
    { outputs := [listedObject file], rule, inputs := ["$src/" ++ file], implicit := [] }
  if (Path.splitExtension file).2 = ".c" then some (edge "cc")
  else if cppExtensions.contains (Path.splitExtension file).2 then some (edge "cxx")
  else none

/-- The warnings about listed files: those that ask for no edge are skipped. -/
def skipWarnings (files : List Path) : List Warning :=
  (files.filter fun file => (listedEdge? file).isNone).map .skippedFile

theorem message_skipWarnings (files : List Path) : (skipWarnings files).map Warning.message =
    ((skipWarnings files).map Warning.file).map fun file => ("Skipping file " ++ file : Text) := by
  rw [List.map_map]
  rfl

theorem file_skipWarnings (files : List Path) :
    (skipWarnings files).map Warning.file = files.filter fun file => (listedEdge? file).isNone := by
  unfold skipWarnings
  rw [List.map_map]
  exact List.map_id _

/-- A C++ source in a project of this language, if the language is C. -/
def IsForeign (language : Language) (file : Path) : Prop :=
  language = .c ∧ (Path.splitExtension file).2 ∈ cppExtensions

instance (language : Language) (file : Path) : Decidable (IsForeign language file) :=
  inferInstanceAs (Decidable (_ ∧ _))

/-- A source whose object file is that of a source before it. -/
def IsRepeated (before : List Path) (file : Path) : Prop :=
  (listedEdge? file).isSome ∧
    ∃ earlier ∈ before, (listedEdge? earlier).isSome ∧ listedObject earlier = listedObject file

instance (before : List Path) (file : Path) : Decidable (IsRepeated before file) :=
  inferInstanceAs (Decidable (_ ∧ _))

/-- A file that cannot be compiled after those before it. -/
def Offends (language : Language) (before : List Path) (file : Path) : Prop :=
  IsForeign language file ∨ IsRepeated before file

instance (language : Language) (before : List Path) (file : Path) : Decidable (Offends language before file) :=
  inferInstanceAs (Decidable (_ ∨ _))

/-- None of the files offends. -/
def Harmless (language : Language) (files : List Path) : Prop :=
  EachAfter (fun before file => ¬ Offends language before file) files

/-- How the first file that offends is reported. A source that is foreign and repeated counts as foreign. -/
def offence (language : Language) (file : Path) : GraphError :=
  if IsForeign language file then .violation (.foreignSource file) else .duplicateObject (listedObject file) file

/-! ## One step of the pass -/

theorem sourceLanguage?_eq_cpp_iff {file : Path} :
    sourceLanguage? file = some .cpp ↔ (Path.splitExtension file).2 ∈ cppExtensions := by
  unfold sourceLanguage? Language.ofExtension?
  generalize (Path.splitExtension file).2 = extension
  split
  · next h => subst h; decide
  · split
    · next h => simpa [cppExtensions] using h
    · next h => simpa [cppExtensions] using h

/-- The edge that a file asks for is the one that its language calls for. -/
theorem listedEdge?_eq (file : Path) :
    listedEdge? file = (sourceLanguage? file).map fun language => compileEdge language file := by
  unfold listedEdge? sourceLanguage? Language.ofExtension?
  split
  · rfl
  · have hmem : (Path.splitExtension file).2 ∈ cppExtensions ↔ (Path.splitExtension file).2 = ".cpp" ∨
        (Path.splitExtension file).2 = ".cc" ∨ (Path.splitExtension file).2 = ".cxx" := by
      simp [cppExtensions]
    by_cases hcpp : (Path.splitExtension file).2 ∈ cppExtensions
    · rw [if_pos (List.contains_iff_mem.2 hcpp), if_pos (hmem.1 hcpp)]
      rfl
    · rw [if_neg (fun h => hcpp (List.contains_iff_mem.1 h)), if_neg (fun h => hcpp (hmem.2 h))]
      rfl

theorem objectPath_eq (file : Path) : objectPath file = listedObject file := rfl

/-- A C++ source is taken by a compiler. -/
theorem IsForeign.sourceLanguage? {language : Language} {file : Path} (h : IsForeign language file) :
    CprojNinja.sourceLanguage? file = some .cpp :=
  sourceLanguage?_eq_cpp_iff.2 h.2

/-- The invariant of the pass: the object files seen are those of the scanned files that a compiler takes. -/
def Scanned (before seen : List Path) : Prop :=
  ∀ object, object ∈ seen ↔ ∃ earlier ∈ before, (listedEdge? earlier).isSome ∧ listedObject earlier = object

section Pass

variable {language : Language} {before seen : List Path} {file : Path}

theorem scanned_nil : Scanned [] [] := by
  simp [Scanned]

/-- A skipped file leaves what was seen as it is. -/
theorem Scanned.skip (hseen : Scanned before seen) (hfile : listedEdge? file = none) :
    Scanned (before ++ [file]) seen := by
  intro object
  rw [hseen object]
  simp [or_and_right, exists_or, hfile]

/-- A file that a compiler takes adds its object file. -/
theorem Scanned.take (hseen : Scanned before seen) (hfile : (listedEdge? file).isSome) :
    Scanned (before ++ [file]) (listedObject file :: seen) := by
  intro object
  rw [List.mem_cons, hseen object]
  simp only [List.mem_append, List.mem_singleton, or_and_right, exists_or, exists_eq_left, hfile, true_and]
  rw [eq_comm, or_comm]

/-- The pass stops at a file that offends. -/
theorem compileEdges_cons_of_offends (hseen : Scanned before seen) (h : Offends language before file)
    (files : List Path) : compileEdges language seen (file :: files) = .fail (offence language file) := by
  unfold compileEdges offence
  cases hlang : sourceLanguage? file with
  | none =>
    rcases h with hforeign | ⟨htaken, -⟩
    · exact absurd hforeign.sourceLanguage? (by simp [hlang])
    · exact absurd htaken (by simp [listedEdge?_eq, hlang])
  | some found =>
    by_cases hforeign : IsForeign language file
    · have hcpp : found = .cpp := Option.some.inj (hlang.symm.trans hforeign.sourceLanguage?)
      rw [if_pos hforeign]
      exact if_pos ⟨hcpp, hforeign.1⟩
    · have hnot : ¬ (found = .cpp ∧ language = .c) := by
        rintro ⟨rfl, hc⟩
        exact hforeign ⟨hc, sourceLanguage?_eq_cpp_iff.1 hlang⟩
      obtain ⟨-, hrepeated⟩ := h.resolve_left hforeign
      have hmem : objectPath file ∈ seen := (hseen _).2 hrepeated
      rw [if_neg hforeign]
      show (if _ then _ else _) = _
      rw [if_neg hnot, if_pos hmem, objectPath_eq]

/-- What the pass reports about some files and those behind them, if none of the former offends. -/
def scanBefore (files : List Path) (rest : Reported GraphError (List Edge)) : Reported GraphError (List Edge) :=
  ⟨skipWarnings files ++ rest.warnings, rest.outcome.map (files.filterMap listedEdge? ++ ·)⟩

theorem scanBefore_nil (rest : Reported GraphError (List Edge)) : scanBefore [] rest = rest := by
  obtain ⟨warnings, outcome⟩ := rest
  cases outcome <;> rfl

theorem scanBefore_cons (file : Path) (files : List Path) (rest : Reported GraphError (List Edge)) :
    scanBefore (file :: files) rest = scanBefore [file] (scanBefore files rest) := by
  obtain ⟨warnings, outcome⟩ := rest
  cases outcome <;> cases hedge : listedEdge? file <;> simp [scanBefore, skipWarnings, Except.map, hedge]

/-- The pass goes on after a file that does not offend, with the edge of that file if it asks for one, or else with a
warning about it. -/
theorem compileEdges_cons_of_not_offends (hseen : Scanned before seen) (h : ¬ Offends language before file)
    (files : List Path) :
    ∃ seen', Scanned (before ++ [file]) seen' ∧
      compileEdges language seen (file :: files) = scanBefore [file] (compileEdges language seen' files) := by
  cases hlang : sourceLanguage? file with
  | none =>
    have hfile : listedEdge? file = none := by simp [listedEdge?_eq, hlang]
    refine ⟨seen, hseen.skip hfile, ?_⟩
    rw [compileEdges, hlang]
    dsimp only
    rw [Reported.warn_bind]
    generalize compileEdges language seen files = rest
    obtain ⟨warnings, outcome⟩ := rest
    cases outcome <;> simp [scanBefore, skipWarnings, Except.map, hfile]
  | some found =>
    have hfile : listedEdge? file = some (compileEdge found file) := by simp [listedEdge?_eq, hlang]
    have hnot : ¬ (found = .cpp ∧ language = .c) := by
      rintro ⟨rfl, hc⟩
      exact h (Or.inl ⟨hc, sourceLanguage?_eq_cpp_iff.1 hlang⟩)
    have hnew : objectPath file ∉ seen := fun hmem =>
      h (Or.inr ⟨by simp [hfile], (hseen _).1 hmem⟩)
    refine ⟨listedObject file :: seen, hseen.take (by simp [hfile]), ?_⟩
    rw [compileEdges, hlang]
    show (if _ then _ else if _ then _ else _) = _
    rw [if_neg hnot, if_neg hnew, objectPath_eq]
    generalize compileEdges language (listedObject file :: seen) files = rest
    obtain ⟨warnings, outcome⟩ := rest
    cases outcome <;> simp [scanBefore, skipWarnings, Except.map, hfile]

/-! ## The whole pass -/

/-- Files none of which offends give the edges that they ask for, and the pass goes on after them. -/
theorem compileEdges_append {files : List Path} (hseen : Scanned before seen)
    (h : EachAfter (fun earlier file => ¬ Offends language (before ++ earlier) file) files) (rest : List Path) :
    ∃ seen', Scanned (before ++ files) seen' ∧
      compileEdges language seen (files ++ rest) = scanBefore files (compileEdges language seen' rest) := by
  induction files generalizing before seen with
  | nil => exact ⟨seen, by simpa using hseen, (scanBefore_nil _).symm⟩
  | cons file files ih =>
    obtain ⟨hfile, hfiles⟩ := eachAfter_cons.1 h
    obtain ⟨seen₁, hseen₁, hstep⟩ := compileEdges_cons_of_not_offends hseen (by simpa using hfile) (files ++ rest)
    obtain ⟨seen₂, hseen₂, hrun⟩ := ih hseen₁ (by simpa using hfiles)
    refine ⟨seen₂, by simpa using hseen₂, ?_⟩
    rw [List.cons_append, hstep, hrun, ← scanBefore_cons]

end Pass

/-- If no file offends, every file that asks for an edge gets it, and every other file is warned about. -/
theorem compileEdges_of_harmless {language : Language} {files : List Path} (h : Harmless language files) :
    compileEdges language [] files = ⟨skipWarnings files, .ok (files.filterMap listedEdge?)⟩ := by
  obtain ⟨seen, -, hrun⟩ := compileEdges_append scanned_nil (by simpa [Harmless] using h) []
  rw [List.append_nil] at hrun
  rw [hrun]
  simp [scanBefore, compileEdges, Except.map, pure]

/-- The first file that offends decides, and only the files before it are warned about. -/
theorem compileEdges_of_first_offence {language : Language} {before after : List Path} {file : Path}
    (hbefore : Harmless language before) (hfile : Offends language before file) :
    compileEdges language [] (before ++ file :: after) = ⟨skipWarnings before, .error (offence language file)⟩ := by
  obtain ⟨seen, hseen, hrun⟩ := compileEdges_append scanned_nil (by simpa [Harmless] using hbefore) (file :: after)
  rw [hrun, compileEdges_cons_of_offends hseen (by simpa using hfile)]
  simp [scanBefore, Reported.fail, Except.map]

/-- There are compile edges only if no file offends. -/
theorem outcome_compileEdges_eq_ok_iff {language : Language} {files : List Path} {edges : List Edge} :
    (compileEdges language [] files).outcome = .ok edges ↔
      Harmless language files ∧ edges = files.filterMap listedEdge? := by
  constructor
  · intro h
    by_cases hfiles : Harmless language files
    · rw [compileEdges_of_harmless hfiles] at h
      exact ⟨hfiles, (Except.ok.inj h).symm⟩
    · obtain ⟨before, file, after, rfl, hbefore, hfile⟩ := exists_first_of_not_eachAfter hfiles
      rw [compileEdges_of_first_offence hbefore (not_not.1 hfile)] at h
      cases h
  · rintro ⟨hfiles, rfl⟩
    rw [compileEdges_of_harmless hfiles]

/-! ## The edges of a pass -/

/-- A listed file that asks for an edge has one of four extensions. -/
theorem extension_of_listedEdge? {file : Path} (h : (listedEdge? file).isSome) :
    (Path.splitExtension file).2 = ".c" ∨ (Path.splitExtension file).2 = ".cpp" ∨
      (Path.splitExtension file).2 = ".cc" ∨ (Path.splitExtension file).2 = ".cxx" := by
  unfold listedEdge? at h
  by_cases hc : (Path.splitExtension file).2 = ".c"
  · exact Or.inl hc
  · by_cases hcpp : cppExtensions.contains (Path.splitExtension file).2
    · have hmem := List.contains_iff_mem.1 hcpp
      simp only [cppExtensions, List.mem_cons, List.not_mem_nil, or_false] at hmem
      exact Or.inr hmem
    · rw [if_neg hc, if_neg hcpp] at h
      cases h

/-- An edge that a file asks for has one output, the object file. -/
theorem outputs_of_listedEdge? {file : Path} {e : Edge} (h : listedEdge? file = some e) :
    e.outputs = [listedObject file] := by
  rw [listedEdge?_eq] at h
  obtain ⟨language, -, rfl⟩ := Option.map_eq_some_iff.1 h
  rfl

theorem mem_outputs_listed {files : List Path} {object : Path} :
    object ∈ (files.filterMap listedEdge?).flatMap (·.outputs) ↔
      ∃ file ∈ files, (listedEdge? file).isSome ∧ listedObject file = object := by
  simp only [List.mem_flatMap, List.mem_filterMap]
  constructor
  · rintro ⟨e, ⟨file, hfile, he⟩, ho⟩
    rw [outputs_of_listedEdge? he, List.mem_singleton] at ho
    exact ⟨file, hfile, by simp [he], ho.symm⟩
  · rintro ⟨file, hfile, htaken, rfl⟩
    obtain ⟨e, he⟩ := Option.isSome_iff_exists.1 htaken
    exact ⟨e, ⟨file, hfile, he⟩, by simp [outputs_of_listedEdge? he]⟩

/-- No object file is made twice. -/
theorem nodup_outputs_of_harmless {language : Language} {files : List Path} (h : Harmless language files) :
    ((files.filterMap listedEdge?).flatMap (·.outputs)).Nodup := by
  induction files using List.reverseRecOn with
  | nil => simp
  | append_singleton files file ih =>
    obtain ⟨hfiles, hfile⟩ := eachAfter_concat.1 h
    cases he : listedEdge? file with
    | none => simpa [List.filterMap_append, he] using ih hfiles
    | some e =>
      have hnew : listedObject file ∉ (files.filterMap listedEdge?).flatMap (·.outputs) := fun hmem =>
        hfile (Or.inr ⟨by simp [he], mem_outputs_listed.1 hmem⟩)
      simp only [List.filterMap_append, List.filterMap_cons, List.filterMap_nil, he, List.flatMap_append,
        List.flatMap_cons, List.flatMap_nil, List.append_nil, outputs_of_listedEdge? he]
      refine List.nodup_append.2 ⟨ih hfiles, by simp, ?_⟩
      intro object hobject other hother
      rw [List.mem_singleton.1 hother]
      exact fun heq => hnew (heq ▸ hobject)

end CprojNinja
