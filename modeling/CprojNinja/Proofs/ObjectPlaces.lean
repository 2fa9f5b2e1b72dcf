import CprojNinja.Proofs.GraphStructure
import CprojNinja.Proofs.Positions

/-!
# Places of object files

An object file lies where its source lies, but in the build directory, so a source outside of the project must not take
its object file along. Parent directories are dropped at the start of the path for that, and nowhere else.

Main statement: an object file is in the build directory just if its source, seen from the first directory that is not
dropped, is below that directory all the way. A parent directory in the middle of a path may lead out of it.
-/

namespace CprojNinja

open Ninja

/-! ## Extensions -/

/-- A file is as far up as its directory, whatever its extension. -/
theorem ups_positionOf_append {word : Text} (hslash : '/' ∉ word) (hvariable : Text.occursIn buildVariable word = false)
    {c : Char} (hlast : word.getLast? = some c) (hc : c ≠ '.') (stem : Path) :
    (positionOf (stem ++ '.' :: word)).ups = (Position.start.walk (Path.steps stem).dropLast).ups := by
  have hreplaced : Text.replaceAll buildVariable "." (stem ++ '.' :: word) =
      Text.replaceAll buildVariable "." stem ++ '.' :: word := by
    rw [Text.replaceAll_append_cons (by decide) (by decide), Text.replaceAll_of_not_occursIn _ hvariable]
  have hextension : '/' ∉ '.' :: word := by
    rw [List.mem_cons, not_or]
    exact ⟨by decide, hslash⟩
  obtain ⟨directories, base, hstem, hfile⟩ :=
    Text.exists_splitOn_append hextension (Text.replaceAll buildVariable "." stem)
  -- the last component is a name and leads nowhere up, because it ends as the extension does
  have hname : IsName (base ++ '.' :: word) := by
    obtain ⟨word, rfl⟩ := List.getLast?_eq_some_iff.1 hlast
    have hend : (base ++ '.' :: (word ++ [c])).getLast? = some c := by
      rw [← List.cons_append, ← List.append_assoc, List.getLast?_concat]
    refine ⟨?_, ?_, ?_⟩ <;> intro heq <;> rw [heq] at hend
    · cases hend
    · exact hc (Option.some.inj hend).symm
    · exact hc (Option.some.inj hend).symm
  unfold positionOf Path.steps
  rw [hreplaced, hfile, hstem, List.dropLast_concat, Position.walk_append]
  show ((Position.start.walk directories).step _).ups = _
  rw [Position.step_of_isName _ hname]

/-- The object file of a source is as far up as the source, once parent directories are dropped. -/
theorem staysBelow_objectPath_iff {file : Path} (h : (listedEdge? file).isSome) : StaysBelow (objectPath file) ↔
    StaysBelow (Path.dropParents (Path.splitExtension file).1 ++ (Path.splitExtension file).2) := by
  obtain ⟨word, c, hextension, hslash, hvariable, hlast, hc⟩ : ∃ word c, (Path.splitExtension file).2 = '.' :: word ∧
      '/' ∉ word ∧ Text.occursIn buildVariable word = false ∧ word.getLast? = some c ∧ c ≠ '.' := by
    rcases extension_of_listedEdge? h with h | h | h | h <;> rw [h]
    · exact ⟨['c'], 'c', rfl, by decide, by decide, rfl, by decide⟩
    · exact ⟨['c', 'p', 'p'], 'p', rfl, by decide, by decide, rfl, by decide⟩
    · exact ⟨['c', 'c'], 'c', rfl, by decide, by decide, rfl, by decide⟩
    · exact ⟨['c', 'x', 'x'], 'x', rfl, by decide, by decide, rfl, by decide⟩
  have ho : '/' ∉ ['o'] ∧ Text.occursIn buildVariable ['o'] = false := by decide
  have hobject := ups_positionOf_append ho.1 ho.2 rfl (by decide) (Path.dropParents (Path.splitExtension file).1)
  unfold objectPath
  rw [staysBelow_iff, staysBelow_iff, positionOf_builtPath, hextension, ups_positionOf_append hslash hvariable hlast hc]
  exact iff_of_eq (congrArg (· = 0) hobject)

/-! ## Parent directories -/

/-- Some steps up. -/
def parents (n : Nat) : Path := (List.replicate n ("../" : Text)).flatten

theorem dropParents_parents_append (n : Nat) (path : Path) :
    Path.dropParents (parents n ++ path) = Path.dropParents path := by
  induction n with
  | zero => rfl
  | succ n ih => exact ih

theorem dropParents_of_not_prefix {path : Path} (h : ¬ ".." <+: path) : Path.dropParents path = path := by
  fun_cases Path.dropParents path with
  | case1 c rest => exact absurd ⟨c :: rest, rfl⟩ h
  | case2 c rest => exact absurd ⟨c :: rest, rfl⟩ h
  | case3 => exact absurd List.prefix_rfl h
  | case4 => rfl

theorem eq_nil_of_parents_eq_append {n : Nat} {start rest : Path} (h : parents n = start ++ rest)
    (hslash : '/' ∉ rest) : rest = [] := by
  cases n with
  | zero => exact (List.append_eq_nil_iff.1 h.symm).2
  | succ n =>
    have hlast : (parents (n + 1)).getLast? = some '/' := by
      unfold parents
      rw [List.replicate_succ', List.flatten_append, List.getLast?_append]
      rfl
    by_contra hne
    rw [h, List.getLast?_append, List.getLast?_eq_some_getLast hne, Option.some_or] at hlast
    exact hslash (Option.some.inj hlast ▸ List.getLast_mem hne)

/-- The object file of a source behind parent directories is in the build directory just if the path behind them stays
where it starts. -/
theorem staysBelow_objectPath_parents_iff {n : Nat} {rest : Path} (h : (listedEdge? (parents n ++ rest)).isSome)
    (hrest : ¬ ".." <+: rest) : StaysBelow (objectPath (parents n ++ rest)) ↔ StaysBelow rest := by
  have hslash : '/' ∉ (Path.splitExtension (parents n ++ rest)).2 := by
    rcases extension_of_listedEdge? h with h | h | h | h <;> rw [h] <;> decide
  -- the extension ends the path behind the parent directories, because they end in a separator
  obtain ⟨stem, hstem, hsplit⟩ : ∃ stem, (Path.splitExtension (parents n ++ rest)).1 = parents n ++ stem ∧
      stem ++ (Path.splitExtension (parents n ++ rest)).2 = rest := by
    have hsplit := Path.splitExtension_append (parents n ++ rest)
    rcases List.append_eq_append_iff.1 hsplit with ⟨more, hparents, hextension⟩ | ⟨stem, hstem, hrest⟩
    · have hnil : more = [] := eq_nil_of_parents_eq_append hparents fun hmem => hslash (by simp [hextension, hmem])
      rw [hnil, List.append_nil] at hparents
      rw [hnil, List.nil_append] at hextension
      exact ⟨[], by rw [List.append_nil, ← hparents], hextension⟩
    · exact ⟨stem, hstem, hrest.symm⟩
  have hdrop : Path.dropParents stem = stem :=
    dropParents_of_not_prefix fun hprefix => hrest (hsplit ▸ hprefix.trans (List.prefix_append _ _))
  rw [staysBelow_objectPath_iff h, hstem, dropParents_parents_append, hdrop, hsplit]

/-! ## Object files of a graph -/

variable {p : Project} {flags : ResolvedFlags} {programs : Executables} {outdir : Text} {f : File}

/-- The object file of a compiled source is in the build directory just if the source stays below the directory that is
left at the start of its path, when parent directories are dropped there. -/
theorem staysBelow_objects_graph (h : p.graph flags programs outdir = .ok f) : ∀ e ∈ f.compileEdges, ∃ file ∈ p.sources,
    e.inputs = [sourcePath file] ∧ e.outputs = [objectPath file] ∧
      (StaysBelow (objectPath file) ↔
        StaysBelow (Path.dropParents (Path.splitExtension file).1 ++ (Path.splitExtension file).2)) ∧
      ∀ n rest, file = parents n ++ rest → ¬ ".." <+: rest → (StaysBelow (objectPath file) ↔ StaysBelow rest) := by
  intro e he
  rw [compileEdges_graph h] at he
  obtain ⟨file, hfile, hlisted⟩ := List.mem_filterMap.1 he
  have htaken : (listedEdge? file).isSome := by simp [hlisted]
  refine ⟨file, hfile, ?_, outputs_of_listedEdge? hlisted, staysBelow_objectPath_iff htaken, ?_⟩
  · rw [listedEdge?_eq] at hlisted
    obtain ⟨language, -, rfl⟩ := Option.map_eq_some_iff.1 hlisted
    rfl
  · rintro n rest rfl hrest
    exact staysBelow_objectPath_parents_iff htaken hrest

/-- Sources outside of the project, one of them with a name that begins with two dots. -/
theorem staysBelow_objects_graph_library :
    let p : Project := {
      language := .c, outputKind := .archive, outputName := "libRover", outputExtension := ".a"
      toolchain := ⟨[], [], []⟩, references := []
      sources := ["../../common/./old/../laser.c", "..drive/../arm.c", "/opt/hal.c"], configurations := [] }
    ∃ f, p.graph ⟨[], none, ["-r"]⟩ ⟨"gcc", "g++", "ar", "g++"⟩ "Debug" = .ok f ∧
      ∀ e ∈ f.compileEdges, ∀ object ∈ e.outputs, StaysBelow object := by
  intro p
  have hp : Harmless p.language p.sources :=
    eachAfter_cons.2 ⟨by decide, eachAfter_cons.2 ⟨by decide, eachAfter_cons.2 ⟨by decide, eachAfter_nil⟩⟩⟩
  have h : p.graph ⟨[], none, ["-r"]⟩ ⟨"gcc", "g++", "ar", "g++"⟩ "Debug" = .ok _ := graph_eq_ok_iff.2 ⟨hp, rfl⟩
  refine ⟨_, h, fun e he object hobject => ?_⟩
  obtain ⟨file, hfile, -, houtputs, hdropped, -⟩ := staysBelow_objects_graph h e he
  rw [houtputs, List.mem_singleton] at hobject
  rw [hobject, hdropped, staysBelow_iff]
  have hsources : ∀ file ∈ p.sources, (positionOf
      (Path.dropParents (Path.splitExtension file).1 ++ (Path.splitExtension file).2)).ups = 0 := by decide
  exact hsources file hfile

/-- A parent directory in the middle of a path takes the object file out of the build directory. -/
theorem not_staysBelow_objects_graph :
    let p : Project := {
      language := .c, outputKind := .archive, outputName := "libRover", outputExtension := ".a"
      toolchain := ⟨[], [], []⟩, references := [], sources := ["src/../../laser.c"], configurations := [] }
    ∃ f, p.graph ⟨[], none, ["-r"]⟩ ⟨"gcc", "g++", "ar", "g++"⟩ "Debug" = .ok f ∧
      ∃ e ∈ f.compileEdges, ∃ object ∈ e.outputs, ¬ StaysBelow object ∧ positionOf object = ⟨1, ["laser.o"]⟩ := by
  intro p
  have hp : Harmless p.language p.sources := eachAfter_cons.2 ⟨by decide, eachAfter_nil⟩
  have h : p.graph ⟨[], none, ["-r"]⟩ ⟨"gcc", "g++", "ar", "g++"⟩ "Debug" = .ok _ := graph_eq_ok_iff.2 ⟨hp, rfl⟩
  refine ⟨_, h, compileEdge .c "src/../../laser.c", ?_, objectPath "src/../../laser.c", List.mem_singleton_self _, ?_⟩
  · rw [compileEdges_graph h]
    decide
  · rw [staysBelow_iff]
    decide

end CprojNinja
