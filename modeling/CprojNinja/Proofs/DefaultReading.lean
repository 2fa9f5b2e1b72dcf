import CprojNinja.Proofs.GraphReading
import CprojNinja.Proofs.LogicalLines

/-!
# The default target

The path of the last output stands twice in a build file: in the build statement that makes it, and in the default
statement behind that. In the first one it is escaped, in the second one it is not.

Main statement: whatever else the build statement names, its outputs are read back from its first line, but the default
statement gives the same path only if there is neither a blank nor a colon in it.
-/

namespace CprojNinja

open Ninja

namespace Ninja

/-! ## The readers -/

/-- The outputs in the line of a build statement: they end at the first colon. -/
def readOutputs? (line : List Sign) : Option (List Path) :=
  match lineWords (line.takeWhile (· ≠ colon)) with
  | keyword :: outputs => if meaning keyword = "build" then some (outputs.map meaning) else none
  | [] => none

/-- The paths that are written in some words, if there is nothing but paths: a path ends at a colon too. -/
def readPaths? (words : List (List Sign)) : Option (List Path) :=
  if ∀ w ∈ words, colon ∉ w then some (words.map meaning) else none

/-- The targets in the line of a default statement. -/
def readTargets? (line : List Sign) : Option (List Path) :=
  match lineWords line with
  | keyword :: targets => if meaning keyword = "default" then readPaths? targets else none
  | [] => none

/-! ## The outputs of a build statement -/

/-- What stands at the start of a text stands at the start of its line, wherever the text is cut. -/
theorem exists_joined_joinLines_append (lead nextLead : Nat) {start : Text} (hstart : IsWhole start)
    (ht : IsTidy (signs start)) (rest after : Text) :
    ∃ tail, joined (signs (joinLines lead nextLead (contents lead nextLead (start ++ ' ' :: rest)) ++ after)) =
      List.replicate lead .blank ++ signs start ++ tail := by
  generalize hs : start ++ ' ' :: rest = s
  fun_induction contents lead nextLead s generalizing start with
  | case1 lead s =>
    refine ⟨_, Eq.trans ?_ (joined_indentation_append lead hstart ht.unbroken (' ' :: rest ++ "\n" ++ after))⟩
    simp [joinLines, ← hs]
  | case2 lead s =>
    refine ⟨_, Eq.trans ?_ (joined_indentation_append lead hstart ht.unbroken (' ' :: rest ++ "\n" ++ after))⟩
    simp [joinLines, ← hs]
  | case3 lead s _ before next hcut _ ih =>
    rw [eq_of_cut? hcut] at hs
    rw [joinLines_cons lead nextLead before (contents_ne_nil _ _ _), List.append_assoc _ _ after]
    generalize hlines : joinLines nextLead nextLead (contents nextLead nextLead next) ++ after = lines at ih ⊢
    by_cases hprefix : start <+: before
    · obtain ⟨more, rfl⟩ := hprefix
      refine ⟨_, Eq.trans ?_
        (joined_indentation_append lead hstart ht.unbroken (more ++ continuation ++ "\n" ++ lines))⟩
      simp
    · -- the cut lies inside the start, at one of its single blanks
      obtain ⟨more, rfl, hnext⟩ : ∃ more, start = before ++ ' ' :: more ∧ next = more ++ ' ' :: rest := by
        rcases List.append_eq_append_iff.1 hs with ⟨more, hbefore, -⟩ | ⟨more, hmore, hrest⟩
        · exact absurd ⟨more, hbefore.symm⟩ hprefix
        · cases more with
          | nil => exact absurd (by simp [hmore]) hprefix
          | cons c more =>
            obtain ⟨rfl, hnext⟩ := List.cons.inj hrest
            exact ⟨more, hmore, hnext⟩
      have hbefore := isWhole_of_cut? hcut
      rw [signs_append hbefore, signs_cons (by decide)] at ht
      obtain ⟨htbefore, htmore⟩ := isTidy_append_blank.1 ht
      obtain ⟨tail, htail⟩ := ih (isWhole_after hstart) htmore hnext.symm
      refine ⟨tail, ?_⟩
      rw [joined_brokenLine lead hbefore htbefore.unbroken, htail, List.append_assoc _ _ tail,
        List.dropWhile_append_of_pos (by simp), htmore.dropWhile_append, signs_append hbefore, signs_cons (by decide)]
      simp [Sign.blank]

/-- What stands before the colon of an edge: the keyword and the outputs. -/
def Edge.outputText (e : Edge) : Text := Text.joinWith " " ("build" :: e.outputs.map escape)

theorem Edge.line_eq {e : Edge} (hne : e.outputs ≠ []) :
    e.line = (e.outputText ++ ":") ++ ' ' :: Text.joinWith " " (Statement.edgeWords e) := by
  unfold Edge.line Edge.outputText escapedWords Text.joinWith
  rw [List.intercalate_cons_of_ne_nil (by simpa using hne)]
  simp

section Outputs

variable {e : Edge} (houtputs : ∀ path ∈ e.outputs, Reads (escape path) path)
include houtputs

theorem Edge.signs_outputText : IsWhole e.outputText ∧
    signs e.outputText = [Sign.blank].intercalate (signs "build" :: e.outputSigns) := by
  refine signs_joinWith ("build" :: e.outputs.map escape) (List.forall_mem_cons.2 ⟨rfl, fun word hword => ?_⟩)
  obtain ⟨path, hpath, rfl⟩ := List.mem_map.1 hword
  exact (houtputs path hpath).whole

theorem Edge.isWord_outputText : ∀ w ∈ signs "build" :: e.outputSigns, IsWord w ∧ colon ∉ w :=
  List.forall_mem_cons.2
    ⟨⟨⟨by decide, by decide, by decide, by decide⟩, by decide⟩, fun _ hw => e.isWord_of_mem_outputSigns houtputs hw⟩

/-- The outputs are read back from every line that starts with them. -/
theorem Edge.readOutputs?_append (tail : List Sign) :
    readOutputs? (signs e.outputText ++ colon :: tail) = some e.outputs := by
  have hwords := Edge.isWord_outputText houtputs
  have hcolon : colon ∉ [Sign.blank].intercalate (signs "build" :: e.outputSigns) :=
    not_mem_intercalate (by decide) fun w hw => (hwords w hw).2
  have hmeant : meaning (signs "build") = "build" := rfl
  unfold readOutputs?
  rw [(Edge.signs_outputText houtputs).2, (cut_at_mark hcolon tail).1,
    lineWords_intercalate fun w hw => (hwords w hw).1]
  simp only [hmeant, if_true]
  exact congrArg some (meaning_words houtputs)

/-- The outputs of an edge are read back from its first line, whatever its other paths are and whatever follows it. -/
theorem exists_readOutputs?_layout (hne : e.outputs ≠ []) (after : Text) :
    ∃ line others, logicalLines (layout 0 e.line ++ after) = line :: others ∧ readOutputs? line = some e.outputs := by
  have hwords := Edge.isWord_outputText houtputs
  obtain ⟨hwhole, hsigns⟩ := Edge.signs_outputText houtputs
  have hstart : signs (e.outputText ++ ":") = signs e.outputText ++ [colon] := signs_append hwhole _
  have htidy : IsTidy (signs (e.outputText ++ ":")) := by
    rw [hstart, hsigns]
    exact isTidy_intercalate_colon fun w hw => (hwords w hw).1
  have hfeed : feed ∉ signs (e.outputText ++ ":") := by
    rw [hstart, hsigns]
    exact List.not_mem_append (not_mem_intercalate (by decide) fun w hw => (hwords w hw).1.feed_not_mem) (by decide)
  have hnil : signs (e.outputText ++ ":") ≠ [] := by
    rw [hstart]
    exact List.append_ne_nil_of_right_ne_nil _ (List.cons_ne_nil _ _)
  have hcolon : IsWhole (":" : Text) := rfl
  obtain ⟨tail, htail⟩ := exists_joined_joinLines_append 0 4 (isWhole_append hwhole hcolon) htidy
    (Text.joinWith " " (Statement.edgeWords e)) after
  obtain ⟨first, hfirst⟩ := exists_linesOfSigns_append hfeed hnil tail
  have hlines := (congrArg linesOfSigns htail).trans hfirst
  rw [← Edge.line_eq hne] at hlines
  refine ⟨_, _, hlines, ?_⟩
  rw [hstart, List.append_assoc, List.singleton_append]
  exact Edge.readOutputs?_append houtputs first

end Outputs

/-! ## The targets of a default statement -/

/-- A default statement is one line, and its targets are the words of what is written behind the keyword. -/
theorem exists_readTargets?_layout {target : Path} (hwhole : IsWhole target) (hfeed : '\n' ∉ target) :
    ∃ line, logicalLines (Statement.default [target]).text = [line] ∧
      readTargets? line = readPaths? (lineWords (signs target)) := by
  have htext : ("default " ++ Text.joinWith " " [target] : Text) = "default" ++ ' ' :: target := by
    rw [Text.joinWith, List.intercalate_singleton]
    exact (List.append_cons "default" ' ' target).symm
  have hline : '\n' ∉ ("default" ++ ' ' :: target : Text) := by
    simp only [List.mem_append, List.mem_cons, not_or]
    exact ⟨by decide, by decide, hfeed⟩
  obtain ⟨line, hlines, hwords⟩ := logicalLines_layout 0 (isWhole_append_blank.2 hwhole) hline
  refine ⟨line, ?_, ?_⟩
  · show logicalLines (layout 0 _) = _
    rw [htext, hlines]
  · have hkeyword : IsWhole ("default" : Text) := rfl
    have hmeant : meaning (signs "default") = "default" := rfl
    have hdefault : lineWords (signs "default") = [signs "default"] := by decide
    rw [signs_append hkeyword, signs_cons (by decide)] at hwords
    have hsplit : lineWords line = signs "default" :: lineWords (signs target) := by
      rw [hwords]
      exact (lineWords_append_blank _ _).trans (by rw [hdefault, List.singleton_append])
    unfold readTargets?
    rw [hsplit]
    simp only [hmeant, if_true]

end Ninja

variable {p : Project} {flags : ResolvedFlags} {programs : Executables} {outdir : Text} {f : File}

/-! ## The two paths of the last output -/

theorem signs_builtPath {name : Text} (hname : '$' ∉ name) :
    signs (builtPath name) = signs "$builddir/" ++ name.map .plain := by
  have hstart : IsWhole ("$builddir/" : Text) := rfl
  unfold builtPath
  rw [signs_append hstart, (isWhole_of_not_mem hname).2]

/-- A character of the name that the directory does not have. -/
theorem mem_signs_builtPath {name : Text} (hname : '$' ∉ name) {c : Char} (hc : .plain c ∉ signs "$builddir/") :
    .plain c ∈ signs (builtPath name) ↔ c ∈ name := by
  rw [signs_builtPath hname, List.mem_append, or_iff_right hc, List.mem_map]
  exact ⟨fun ⟨d, hd, heq⟩ => Sign.plain.inj heq ▸ hd, fun h => ⟨c, h, rfl⟩⟩

/-- A path in the build directory without a blank in it is one word. -/
theorem lineWords_builtPath {name : Text} (hname : '$' ∉ name) (hblank : ' ' ∉ name) :
    lineWords (signs (builtPath name)) = [signs (builtPath name)] := by
  have hone : Sign.blank ∉ signs (builtPath name) := mt (mem_signs_builtPath hname (by decide)).1 hblank
  unfold lineWords
  rw [List.splitOn_eq_singleton hone]
  refine List.filter_eq_self.2 fun w hw => decide_eq_true ?_
  rw [List.mem_singleton.1 hw, signs_builtPath hname]
  exact List.append_ne_nil_of_left_ne_nil (by decide) _

theorem meaning_builtPath {name : Text} (hname : '$' ∉ name) : meaning (signs (builtPath name)) = builtPath name := by
  have hmeant : meaning (signs "$builddir/") = "$builddir/" := rfl
  rw [signs_builtPath hname, meaning, List.flatMap_append, List.flatMap_map]
  exact congrArg₂ (· ++ ·) hmeant (List.flatMap_singleton' name)

/-- A path with a blank in its name falls into more than one word. -/
theorem meaning_lineWords_ne {name : Text} (hname : '$' ∉ name) (hblank : ' ' ∈ name) :
    (lineWords (signs (builtPath name))).map meaning ≠ [builtPath name] := by
  intro hwords
  obtain ⟨before, after, rfl, hbefore⟩ := List.eq_append_cons_of_mem hblank
  simp only [List.mem_append, not_or] at hname
  have hstart : IsWhole ("$builddir/" : Text) := rfl
  have hwhole : IsWhole (builtPath before) := isWhole_append hstart (isWhole_of_not_mem hname.1).1
  have hsplit : builtPath (before ++ ' ' :: after) = builtPath before ++ ' ' :: after := (List.append_assoc _ _ _).symm
  have hcut : lineWords (signs (builtPath before) ++ signs (' ' :: after)) =
      lineWords (signs (builtPath before)) ++ lineWords (signs after) := by
    rw [signs_cons (by decide)]
    exact lineWords_append_blank _ _
  rw [hsplit, signs_append hwhole, hcut, lineWords_builtPath hname.1 hbefore, List.map_append, List.map_singleton,
    meaning_builtPath hname.1, List.singleton_append] at hwords
  -- the first word is what stands before the blank, so it is shorter than the path
  have hlength := congrArg List.length (List.cons.inj hwords).1
  rw [List.length_append, List.length_cons] at hlength
  omega

/-- A path in the build directory is read as it is written only if it needs no escape. -/
theorem readPaths?_builtPath_iff {name : Text} (hname : '$' ∉ name) :
    readPaths? (lineWords (signs (builtPath name))) = some [builtPath name] ↔ ' ' ∉ name ∧ ':' ∉ name := by
  by_cases hblank : ' ' ∈ name
  · refine iff_of_false (fun hread => ?_) fun h => h.1 hblank
    unfold readPaths? at hread
    split at hread
    · exact meaning_lineWords_ne hname hblank (Option.some.inj hread)
    · cases hread
  · have hcolon : colon ∈ signs (builtPath name) ↔ ':' ∈ name := mem_signs_builtPath hname (by decide)
    unfold readPaths?
    rw [lineWords_builtPath hname hblank]
    simp [meaning_builtPath hname, hcolon, hblank]

/-- The last output is named by the first line of the build statement that makes it, and by the last line of the file.
Both give the same path exactly if there is neither a blank nor a colon in the output, whatever else the project
holds. -/
theorem readTargets?_graph_iff (h : p.graph flags programs outdir = .ok f) (hedges : f.compileEdges ≠ [])
    (houtput : IsPlain p.output) :
    ∃ (start : File) (last : Edge) (line : List Sign) (others : List (List Sign)) (final : List Sign),
      f = start ++ [.edge last, .blank] ++ [.default last.outputs] ∧
      logicalLines (File.text [.edge last, .blank]) = line :: others ∧
      logicalLines f.text = logicalLines start.text ++ (line :: others) ++ [final] ∧
      ((∃ target, readTargets? final = some [target] ∧ readOutputs? line = some [target]) ↔
        ' ' ∉ p.output ∧ ':' ∉ p.output) := by
  have hlisted : p.listedEdges ≠ [] := compileEdges_graph h ▸ hedges
  have hobjects : p.listedObjects ≠ [] := fun hnil => hlisted (p.listedObjects_eq_nil_iff.1 hnil)
  obtain ⟨-, hf⟩ := graph_eq_ok_iff.1 h
  have hdollar : '$' ∉ p.output := fun hmem => (houtput _ hmem).1 rfl
  have hfeed : '\n' ∉ p.target := List.not_mem_append (by decide) fun hmem => (houtput _ hmem).2.2.2 rfl
  have hstart : IsWhole ("$builddir/" : Text) := rfl
  have hwhole : IsWhole p.target := isWhole_append hstart (isWhole_of_not_mem hdollar).1
  obtain ⟨last, hlast, houtputs⟩ : ∃ last, p.lastEdge flags outdir p.listedObjects = last ∧ last.outputs = [p.target] :=
    ⟨_, rfl, outputs_lastEdge _ _ _ _⟩
  have hreads : ∀ path ∈ last.outputs, Reads (escape path) path := by
    rw [houtputs]
    exact List.forall_mem_singleton.2 (reads_placed (Or.inl rfl) houtput).1
  have hne : last.outputs ≠ [] := by
    rw [houtputs]
    exact List.cons_ne_nil _ _
  obtain ⟨line, others, hline, houtputLine⟩ := exists_readOutputs?_layout hreads hne "\n"
  obtain ⟨final, hfinal, htargets⟩ := exists_readTargets?_layout hwhole hfeed
  have hfile : f = preamble p flags programs outdir ++ p.listedEdges.map .edge ++ [.blank] ++
      [.edge last, .blank] ++ [.default last.outputs] := by
    rw [hf, lastStatements_eq _ _ _ _ hobjects, hlast, houtputs]
    simp
  refine ⟨_, last, line, others, final, hfile, hline, ?_, ?_⟩
  · -- whatever the paths of the other edges leave at the end of their lines, an empty statement takes it
    have hlast : logicalLines (File.text [.default last.outputs]) = [final] := by
      rw [houtputs, ← hfinal]
      exact congrArg logicalLines (List.append_nil _)
    have hmiddle : logicalLines (File.text [.edge last, .blank]) = line :: others := hline
    have hclosed : IsClosed (File.text [.edge last, .blank]) := isClosed_concat_blank [.edge last]
    rw [hfile, File.text_append, File.text_append,
      logicalLines_append (isClosed_append (isClosed_concat_blank _) hclosed),
      logicalLines_append (isClosed_concat_blank _), hlast, hmiddle]
  · rw [htargets, houtputLine, houtputs, ← readPaths?_builtPath_iff hdollar]
    constructor
    · rintro ⟨target, hread, hmade⟩
      rwa [← Option.some.inj hmade] at hread
    · exact fun hread => ⟨p.target, hread, rfl⟩

/-- An archive whose build statement is cut, and one of whose sources has a blank in its name. -/
theorem readTargets?_graph_archive :
    let p : Project := {
      language := .c, outputKind := .archive, outputName := "rover-of-the-second-mission", outputExtension := ".a"
      toolchain := ⟨[], [], []⟩, references := []
      sources := ["navigation/landing.c", "navigation/driving.c", "science/laser.c", "science/wide camera.c"]
      configurations := [] }
    ∃ f, p.graph ⟨[], none, ["-r"]⟩ ⟨"gcc", "g++", "ar", "g++"⟩ "Debug" = .ok f ∧ f.compileEdges ≠ [] ∧
      IsPlain p.output ∧ ∃ start line others final, logicalLines f.text = start ++ (line :: others) ++ [final] ∧
        ∃ target, readTargets? final = some [target] ∧ readOutputs? line = some [target] := by
  intro p
  have hp : Harmless p.language p.sources := eachAfter_cons.2
    ⟨by decide, eachAfter_cons.2 ⟨by decide, eachAfter_cons.2 ⟨by decide, eachAfter_cons.2 ⟨by decide, eachAfter_nil⟩⟩⟩⟩
  have h : p.graph ⟨[], none, ["-r"]⟩ ⟨"gcc", "g++", "ar", "g++"⟩ "Debug" = .ok _ := graph_eq_ok_iff.2 ⟨hp, rfl⟩
  have hedges : File.compileEdges _ ≠ [] := (compileEdges_graph h).trans_ne (by decide)
  have houtput : IsPlain p.output := by decide
  obtain ⟨start, last, line, others, final, -, -, hlines, hread⟩ := readTargets?_graph_iff h hedges houtput
  exact ⟨_, h, hedges, houtput, logicalLines start.text, line, others, final, hlines, hread.2 (by decide)⟩

/-- An output with a blank in its name is made under one name, and another two are asked for. -/
theorem readTargets?_graph_blank :
    let p : Project := {
      language := .c, outputKind := .archive, outputName := "my rover", outputExtension := ".a"
      toolchain := ⟨[], [], []⟩, references := [], sources := ["main.c"], configurations := [] }
    ∃ f, p.graph ⟨[], none, ["-r"]⟩ ⟨"gcc", "g++", "ar", "g++"⟩ "Debug" = .ok f ∧ f.compileEdges ≠ [] ∧
      IsPlain p.output ∧
      (logicalLines f.text).filterMap readOutputs? =
        ([["$builddir/main.o"], ["$builddir/my rover.a"]] : List (List Path)) ∧
      (logicalLines f.text).filterMap readTargets? = ([["$builddir/my", "rover.a"]] : List (List Path)) := by
  intro p
  have hp : Harmless p.language p.sources := eachAfter_cons.2 ⟨by decide, eachAfter_nil⟩
  have h : p.graph ⟨[], none, ["-r"]⟩ ⟨"gcc", "g++", "ar", "g++"⟩ "Debug" = .ok _ := graph_eq_ok_iff.2 ⟨hp, rfl⟩
  exact ⟨_, h, (compileEdges_graph h).trans_ne (by decide), by decide, by decide +kernel, by decide +kernel⟩

end CprojNinja
