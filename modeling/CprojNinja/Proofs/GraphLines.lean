import CprojNinja.Project.Reader
import CprojNinja.Proofs.GraphStructure
import CprojNinja.Proofs.LogicalLines

/-!
# Lines of a build graph

What a project says is copied into its build file as it stands: flags without any change, paths with their blanks and
colons escaped. So it depends on the project whether the statements of the file stay apart. `KeepsLines` collects what
is asked of its texts: no line feed anywhere, and no dollar that would escape the line feed behind the last flag or the
linker script.

Main statement: if that holds, the file is read statement by statement, each as what it is. A flag that ends in a dollar
and a flag of two lines show that neither part can be left out.
-/

namespace CprojNinja

open Ninja

/-! ## Texts on one line -/

section Texts

variable {s t : Text} {words : List Text}

theorem staysOnLine_append_blank (hs : '\n' ∉ s) (ht : StaysOnLine t) : StaysOnLine (s ++ ' ' :: t) where
  feed_not_mem := by
    simp only [List.mem_append, List.mem_cons, not_or]
    exact ⟨hs, by decide, ht.feed_not_mem⟩
  even_dollars := by
    rw [← isWhole_iff_even, isWhole_append_blank, isWhole_iff_even]
    exact ht.even_dollars

theorem staysOnLine_append {c : Char} (hs : '\n' ∉ s) (ht : '\n' ∉ t) (hlast : t.getLast? = some c) (hc : c ≠ '$') :
    StaysOnLine (s ++ t) where
  feed_not_mem := List.not_mem_append hs ht
  even_dollars := isWhole_iff_even.1 (isWhole_append_of_getLast? s hlast hc)

theorem feed_not_mem_joinWith (h : ∀ w ∈ words, '\n' ∉ w) : '\n' ∉ Text.joinWith " " words :=
  not_mem_intercalate (by decide) h

theorem joinWith_concat (hne : words ≠ []) (w : Text) :
    Text.joinWith " " (words ++ [w]) = Text.joinWith " " words ++ ' ' :: w := by
  induction words with
  | nil => exact absurd rfl hne
  | cons v words ih =>
    cases words with
    | nil => simp [Text.joinWith]
    | cons v' words =>
      have htail := ih (List.cons_ne_nil v' words)
      rw [List.cons_append] at htail
      rw [List.cons_append, List.cons_append, Text.joinWith_cons_cons, Text.joinWith_cons_cons, htail,
        List.append_assoc]
      rfl

theorem staysOnLine_joinWith (hfeed : ∀ w ∈ words, '\n' ∉ w) (hlast : ∀ w ∈ words.getLast?, Even (dollarsAtEnd w)) :
    StaysOnLine (Text.joinWith " " words) := by
  refine ⟨feed_not_mem_joinWith hfeed, isWhole_iff_even.1 ?_⟩
  rcases List.eq_nil_or_concat words with rfl | ⟨words, w, rfl⟩
  · rfl
  · rw [List.concat_eq_append] at hlast ⊢
    have hw : IsWhole w := isWhole_iff_even.2 (hlast w (by simp))
    by_cases hwords : words = []
    · rw [hwords]
      simpa [Text.joinWith] using hw
    · rw [joinWith_concat hwords]
      exact isWhole_append_blank.2 hw

theorem mem_of_mem_escape {c : Char} (hc : c ≠ '$') (h : c ∈ escape s) : c ∈ s := by
  fun_induction escape s with
  | case1 => exact h
  | case2 s ih | case3 s ih | case4 s ih =>
    simp only [List.mem_cons, hc, false_or] at h ⊢
    exact h.imp_right ih
  | case5 d s _ _ _ ih =>
    rw [List.mem_cons] at h ⊢
    exact h.imp_right ih

/-- Escaping leaves the dollars at the end of a text as they are. -/
theorem isWhole_escape : IsWhole (escape s) ↔ IsWhole s := by
  have hstates (odd : Bool) : (escape s).foldl oddDollars odd = s.foldl oddDollars odd := by
    fun_induction escape s generalizing odd with
    | case1 => rfl
    | case2 s ih => simp [oddDollars, ih]
    | case3 s ih => simp [oddDollars, ih]
    | case4 s ih => simp [oddDollars, ih]
    | case5 c s _ _ _ ih => simp [ih]
  unfold IsWhole
  rw [hstates]

end Texts

/-! ## Lines of edges -/

section Edges

variable {e : Edge} (hrule : '\n' ∉ e.rule) (hpaths : ∀ path ∈ e.outputs ++ e.inputs ++ e.implicit, '\n' ∉ path)

include hpaths in
theorem feed_not_mem_escape {path : Path} (h : path ∈ e.outputs ++ e.inputs ++ e.implicit) : '\n' ∉ escape path :=
  fun hmem => hpaths path h (mem_of_mem_escape (by decide) hmem)

include hrule hpaths in
theorem feed_not_mem_edgeWords {word : Text} (h : word ∈ Statement.edgeWords e) : '\n' ∉ word := by
  unfold Statement.edgeWords at h
  rcases List.mem_append.1 h with h | h
  · rcases List.mem_cons.1 h with rfl | h
    · exact hrule
    · obtain ⟨path, hpath, rfl⟩ := List.mem_map.1 h
      exact feed_not_mem_escape hpaths (by simp [hpath])
  · split at h
    · cases h
    · rcases List.mem_cons.1 h with rfl | h
      · decide
      · obtain ⟨path, hpath, rfl⟩ := List.mem_map.1 h
        exact feed_not_mem_escape hpaths (by simp [hpath])

/-- The last word of an edge is its last path, with or without a bar before it. -/
theorem exists_edgeWords_eq_concat {last : Path} (hlast : (e.inputs ++ e.implicit).getLast? = some last) :
    ∃ words, words ≠ [] ∧ Statement.edgeWords e = words ++ [escape last] := by
  obtain ⟨paths, hlast⟩ := List.getLast?_eq_some_iff.1 hlast
  unfold Statement.edgeWords
  rcases List.eq_nil_or_concat e.implicit with hnil | ⟨implicit, path, hpath⟩
  · rw [hnil, List.append_nil] at hlast
    rw [hnil, hlast]
    exact ⟨e.rule :: paths.map escape, List.cons_ne_nil _ _, by simp⟩
  · rw [hpath, List.concat_eq_append, ← List.append_assoc] at hlast
    obtain ⟨-, hsame⟩ := List.append_inj' hlast rfl
    rw [hpath, List.concat_eq_append]
    refine ⟨e.rule :: e.inputs.map escape ++ ['|'] :: implicit.map escape, List.cons_ne_nil _ _, ?_⟩
    simp [List.cons.inj hsame]

include hrule hpaths in
/-- An edge stays on its line if its paths hold no line feed and the last of them leaves no dollar. -/
theorem staysOnLine_line {last : Path} (hlast : (e.inputs ++ e.implicit).getLast? = some last) (hwhole : IsWhole last) :
    StaysOnLine e.line := by
  have hmem : last ∈ e.outputs ++ e.inputs ++ e.implicit := by
    rw [List.append_assoc]
    exact List.mem_append_right _ (List.mem_of_getLast? hlast)
  have houtputs : '\n' ∉ escapedWords e.outputs := feed_not_mem_joinWith fun w hw => by
    obtain ⟨path, hpath, rfl⟩ := List.mem_map.1 hw
    exact feed_not_mem_escape hpaths (by simp [hpath])
  obtain ⟨words, hne, hedge⟩ := exists_edgeWords_eq_concat hlast
  have hwords : '\n' ∉ Text.joinWith " " words := feed_not_mem_joinWith fun w hw =>
    feed_not_mem_edgeWords hrule hpaths (hedge ▸ List.mem_append_left _ hw)
  unfold Edge.line
  rw [hedge, joinWith_concat hne, ← List.append_assoc]
  refine staysOnLine_append_blank ?_ ⟨feed_not_mem_escape hpaths hmem, isWhole_iff_even.1 (isWhole_escape.2 hwhole)⟩
  exact List.not_mem_append (List.not_mem_append (List.not_mem_append (by decide) houtputs) (by decide)) hwords

end Edges

/-! ## What a project must hold -/

/-- The flags that are bound in the build graph of a project, list by list. -/
def Project.boundFlags (p : Project) (flags : ResolvedFlags) : List (List Text) :=
  [flags.c, flags.final] ++ if p.isCpp then [flags.cpp.getD []] else []

/-- No text that goes into a build graph holds a line feed, and none of those that may stand at the end of a line leaves
a dollar there: the last flag that is not empty, and the linker script if no archive follows it. Nothing is asked of a
text that the graph does not take. -/
structure KeepsLines (p : Project) (flags : ResolvedFlags) (programs : Executables) (outdir : Text) : Prop where
  programs : '\n' ∉ programs.cc ∧ '\n' ∉ programs.cxx ∧ '\n' ∉ programs.ar ∧ '\n' ∉ programs.link
  outdir : '\n' ∉ outdir
  values : ∀ values ∈ p.boundFlags flags, (∀ value ∈ values, '\n' ∉ value) ∧
    ∀ last ∈ (Text.nonEmpty values).getLast?, Even (dollarsAtEnd last)
  sources : ∀ file ∈ p.sources, (listedEdge? file).isSome → '\n' ∉ file
  output : p.listedEdges ≠ [] → '\n' ∉ p.output
  references : p.listedEdges ≠ [] → p.isArchive = false → ∀ r ∈ p.references, '\n' ∉ r.directory ∧ '\n' ∉ r.name
  script : p.listedEdges ≠ [] → p.isArchive = false → p.references = [] →
    ∀ script ∈ linkerScript? flags.final, Even (dollarsAtEnd script)

variable {p : Project} {flags : ResolvedFlags} {programs : Executables} {outdir : Text} {f : File}

/-! ## Edges of the graph -/

theorem mem_of_mem_scriptsIn {flag script : Text} (h : script ∈ scriptsIn flag) : script ⊆ flag := by
  induction flag with
  | nil => cases h
  | cons c s ih =>
    have hrest (h : script ∈ scriptsIn s) : script ⊆ c :: s := fun d hd => List.mem_cons_of_mem _ (ih h hd)
    unfold scriptsIn at h
    split at h
    · next rest hstart =>
      rcases List.mem_cons.1 h with rfl | h
      · intro d hd
        have hd' : d ∈ rest.takeWhile (· ≠ ' ') := (Text.withoutStart_suffix _ _).subset hd
        rw [Text.dropStart?_eq_some.1 hstart]
        exact List.mem_append_right _ ((List.takeWhile_prefix _).subset hd')
      · exact hrest h
    · exact hrest h

theorem exists_flag_of_linkerScript? {values : List Text} {script : Text} (h : linkerScript? values = some script) :
    ∃ flag ∈ values, script ⊆ flag := by
  obtain ⟨flag, hflag, hscript⟩ := List.mem_flatMap.1 (List.mem_of_getLast? h)
  exact ⟨flag, hflag, mem_of_mem_scriptsIn hscript⟩

theorem feed_not_mem_objectPath {file : Path} (h : '\n' ∉ file) : '\n' ∉ objectPath file := by
  have hstem : '\n' ∉ (Path.splitExtension file).1 := by
    intro hmem
    rw [← Path.splitExtension_append file] at h
    exact h (List.mem_append_left _ hmem)
  have hdropped : '\n' ∉ Path.dropParents (Path.splitExtension file).1 := fun hmem =>
    hstem ((Path.dropParents_suffix _).subset hmem)
  exact List.not_mem_append (by decide) (List.not_mem_append hdropped (by decide))

theorem isWhole_objectPath (file : Path) : IsWhole (objectPath file) := by
  have hending : (".o" : Text).getLast? = some 'o' := rfl
  unfold objectPath builtPath
  rw [← List.append_assoc]
  exact isWhole_append_of_getLast? _ hending (by decide)

/-- A file that a compiler takes ends in a letter. -/
theorem isWhole_sourcePath {file : Path} (h : (listedEdge? file).isSome) : IsWhole (sourcePath file) := by
  obtain ⟨c, hc, hlast⟩ : ∃ c, c ≠ '$' ∧ (Path.splitExtension file).2.getLast? = some c := by
    rcases extension_of_listedEdge? h with h | h | h | h <;> rw [h]
    · exact ⟨'c', by decide, rfl⟩
    · exact ⟨'p', by decide, rfl⟩
    · exact ⟨'c', by decide, rfl⟩
    · exact ⟨'x', by decide, rfl⟩
  unfold sourcePath
  rw [← Path.splitExtension_append file, ← List.append_assoc]
  exact isWhole_append_of_getLast? _ hlast hc

theorem isSafe_listedEdge {file : Path} {e : Edge} (h : listedEdge? file = some e) (hfile : '\n' ∉ file) :
    (Statement.edge e).IsSafe := by
  have hsource := isWhole_sourcePath (Option.isSome_iff_exists.2 ⟨e, h⟩)
  rw [listedEdge?_eq] at h
  obtain ⟨language, -, rfl⟩ := Option.map_eq_some_iff.1 h
  have hrule : '\n' ∉ language.ruleName := by cases language <;> decide
  refine List.forall_mem_singleton.2 (staysOnLine_line hrule ?_ rfl hsource)
  · intro path hpath
    simp only [compileEdge, List.append_nil, List.singleton_append, List.mem_cons, List.not_mem_nil, or_false] at hpath
    rcases hpath with rfl | rfl
    · exact feed_not_mem_objectPath hfile
    · exact List.not_mem_append (by decide) hfile

theorem feed_not_mem_target (h : '\n' ∉ p.output) : '\n' ∉ p.target := List.not_mem_append (by decide) h

/-- The last implicit dependency of the last edge is an archive, or else a linker script. -/
theorem isWhole_lastDependency (hkeeps : KeepsLines p flags programs outdir) (hlisted : p.listedEdges ≠ [])
    {last : Path} (h : (p.lastEdge flags outdir p.listedObjects).implicit.getLast? = some last) : IsWhole last := by
  unfold Project.lastEdge at h
  split at h
  · cases h
  · next hprogram =>
    have hprogram : p.isArchive = false := by simpa using hprogram
    unfold Project.linkDependencies at h
    rw [List.getLast?_append, List.getLast?_map] at h
    rcases List.eq_nil_or_concat p.references with hnil | ⟨references, r, hconcat⟩
    · obtain ⟨script, hscript, rfl⟩ : ∃ script, linkerScript? flags.final = some script ∧ sourcePath script = last := by
        cases hfound : linkerScript? flags.final <;> simp_all
      have hwhole : IsWhole script := isWhole_iff_even.2 (hkeeps.script hlisted hprogram hnil script hscript)
      have hstart : IsWhole ("$src/" : Text) := rfl
      exact isWhole_append hstart hwhole
    · have hr : siblingPath (r.archivePath outdir) = last := by simpa [hconcat] using h
      rw [← hr, siblingPath_archivePath]
      have hending : (".a" : Text).getLast? = some 'a' := rfl
      exact isWhole_append_of_getLast? _ hending (by decide)

theorem feed_not_mem_lastDependencies (hkeeps : KeepsLines p flags programs outdir) (hlisted : p.listedEdges ≠ [])
    {path : Path} (h : path ∈ (p.lastEdge flags outdir p.listedObjects).implicit) : '\n' ∉ path := by
  unfold Project.lastEdge at h
  split at h
  · cases h
  · next hprogram =>
    have hprogram : p.isArchive = false := by simpa using hprogram
    rcases List.mem_append.1 h with h | h
    · obtain ⟨script, hscript, rfl⟩ := by simpa using h
      obtain ⟨flag, hflag, hsubset⟩ := exists_flag_of_linkerScript? hscript
      have hfeed := (hkeeps.values flags.final (by simp [Project.boundFlags])).1 flag hflag
      exact List.not_mem_append (by decide) fun hmem => hfeed (hsubset hmem)
    · obtain ⟨r, hr, rfl⟩ := List.mem_map.1 h
      obtain ⟨hdirectory, hname⟩ := hkeeps.references hlisted hprogram r hr
      rw [siblingPath_archivePath]
      simp only [List.mem_append, not_or]
      exact ⟨⟨⟨⟨⟨⟨by decide, hdirectory⟩, by decide⟩, hkeeps.outdir⟩, by decide⟩, hname⟩, by decide⟩

theorem isSafe_lastEdge (hkeeps : KeepsLines p flags programs outdir) (hlisted : p.listedEdges ≠ []) :
    (Statement.edge (p.lastEdge flags outdir p.listedObjects)).IsSafe := by
  have hobjects : p.listedObjects ≠ [] := fun hnil => hlisted (p.listedObjects_eq_nil_iff.1 hnil)
  have hobject : ∀ object ∈ p.listedObjects, '\n' ∉ object ∧ IsWhole object := by
    intro object hobject
    obtain ⟨file, hfile, htaken, rfl⟩ := mem_outputs_listed.1 hobject
    exact ⟨feed_not_mem_objectPath (hkeeps.sources file hfile htaken), isWhole_objectPath file⟩
  obtain ⟨last, hlast, hwhole⟩ : ∃ last,
      (p.listedObjects ++ (p.lastEdge flags outdir p.listedObjects).implicit).getLast? = some last ∧ IsWhole last := by
    rw [List.getLast?_append]
    cases hdependency : (p.lastEdge flags outdir p.listedObjects).implicit.getLast? with
    | none =>
      refine ⟨p.listedObjects.getLast hobjects, List.getLast?_eq_some_getLast hobjects, ?_⟩
      exact (hobject _ (List.getLast_mem hobjects)).2
    | some last => exact ⟨last, rfl, isWhole_lastDependency hkeeps hlisted hdependency⟩
  refine List.forall_mem_singleton.2 (staysOnLine_line ?_ ?_ (by rw [inputs_lastEdge, hlast]) hwhole)
  · rw [rule_lastEdge]
    rcases lastRuleName_cases p with ⟨hname, -⟩ | ⟨hname, -⟩ <;> rw [hname] <;> decide
  · intro path hpath
    rw [outputs_lastEdge, inputs_lastEdge, List.mem_append, List.mem_append, List.mem_singleton] at hpath
    rcases hpath with (rfl | hpath) | hpath
    · exact feed_not_mem_target (hkeeps.output hlisted)
    · exact (hobject path hpath).1
    · exact feed_not_mem_lastDependencies hkeeps hlisted hpath

/-! ## Statements of the graph -/

theorem getLast?_lines_concat {c : Char} (hc : c ≠ '\n') (s : Text) :
    ∃ line, (Text.lines (s ++ [c])).getLast? = some (line ++ [c]) := by
  have hfeed : '\n' ∉ [c] := fun hmem => hc (List.mem_singleton.1 hmem).symm
  obtain ⟨pieces, last, -, hpieces⟩ := Text.exists_splitOn_append hfeed s
  refine ⟨last, ?_⟩
  unfold Text.lines
  simp [hpieces]

theorem isSafe_flags {name : Text} {values : List Text} (hname : '\n' ∉ name) (hfeed : ∀ value ∈ values, '\n' ∉ value)
    (hlast : ∀ last ∈ (Text.nonEmpty values).getLast?, Even (dollarsAtEnd last)) :
    (Statement.flags name values).IsSafe := by
  refine List.forall_mem_singleton.2 ?_
  have hline : name ++ " = " ++ Text.joinWith " " (Text.nonEmpty values) =
      (name ++ " =") ++ ' ' :: Text.joinWith " " (Text.nonEmpty values) := by simp
  rw [hline]
  have hwords := staysOnLine_joinWith (fun w hw => hfeed w (List.mem_filter.1 hw).1) hlast
  exact staysOnLine_append_blank (List.not_mem_append hname (by decide)) hwords

theorem feed_not_mem_quotedProgram {program : Path} (h : '\n' ∉ program) : '\n' ∉ quotedProgram program := by
  unfold quotedProgram
  split
  · exact List.not_mem_append (List.not_mem_append (by decide) h) (by decide)
  · exact h

theorem staysOnLine_command {program arguments : Text} {c : Char} (hprogram : '\n' ∉ program)
    (harguments : '\n' ∉ arguments) (hlast : arguments.getLast? = some c) (hc : c ≠ '$') :
    StaysOnLine ("command" ++ " = " ++ (quotedProgram program ++ arguments)) := by
  rw [← List.append_assoc]
  exact staysOnLine_append (List.not_mem_append (by decide) (feed_not_mem_quotedProgram hprogram)) harguments hlast hc

theorem isSafe_compileRule {name program arguments : Text} (hname : StaysOnLine ("rule " ++ name))
    (hprogram : '\n' ∉ program) (harguments : '\n' ∉ arguments)
    (hdescription : StaysOnLine ("description" ++ " = " ++ (name ++ " $out"))) :
    (Statement.rule (compileRule name program arguments)).IsSafe := by
  have hcommand : StaysOnLine ("command" ++ " = " ++
      (quotedProgram program ++ arguments ++ " -MD -MF $out.d -MT $out -o $out $in")) := by
    have hending : (" -MD -MF $out.d -MT $out -o $out $in" : Text).getLast? = some 'n' := rfl
    have hlast : (arguments ++ " -MD -MF $out.d -MT $out -o $out $in" : Text).getLast? = some 'n' := by
      rw [List.getLast?_append, hending]
      rfl
    rw [List.append_assoc (quotedProgram program)]
    exact staysOnLine_command hprogram (List.not_mem_append harguments (by decide)) hlast (by decide)
  refine List.forall_mem_cons.2 ⟨hname, List.forall_mem_cons.2 ⟨hcommand, List.forall_mem_cons.2 ⟨hdescription, ?_⟩⟩⟩
  show ∀ text ∈ (["depfile = $out.d", "deps = gcc"] : List Text), StaysOnLine text
  decide

theorem isSafe_archiveRule (h : '\n' ∉ programs.ar) : (Statement.rule (archiveRule programs)).IsSafe := by
  have hending : (" $arflags -c -o $out $in" : Text).getLast? = some 'n' := rfl
  have hhead : StaysOnLine ("rule " ++ "ar") := by decide
  have hcommand := staysOnLine_command h (by decide) hending (by decide)
  refine List.forall_mem_cons.2 ⟨hhead, List.forall_mem_cons.2 ⟨hcommand, ?_⟩⟩
  show ∀ text ∈ (["description = ar $out"] : List Text), StaysOnLine text
  decide

theorem isSafe_linkRule (h : '\n' ∉ programs.link) : (Statement.rule (linkRule programs)).IsSafe := by
  have hending : (" -o $out @$out.rsp $lflags" : Text).getLast? = some 's' := rfl
  have hhead : StaysOnLine ("rule " ++ "link") := by decide
  have hcommand := staysOnLine_command h (by decide) hending (by decide)
  refine List.forall_mem_cons.2 ⟨hhead, List.forall_mem_cons.2 ⟨hcommand, ?_⟩⟩
  show ∀ text ∈ (["description = link $out", "rspfile = $out.rsp", "rspfile_content = $in"] : List Text),
    StaysOnLine text
  decide

/-- The comment about a reference ends in the name of a build file, whatever lines the reference has. -/
theorem isSafe_reference (r : Reference) (outdir : Text) :
    (Statement.comment ("subninja " ++ siblingPath (r.buildDirectory outdir ++ "/" ++ buildFileName))).IsSafe := by
  have hending : buildFileName.getLast? = some 'a' := rfl
  obtain ⟨start, htext⟩ : ∃ start,
      ("subninja " ++ siblingPath (r.buildDirectory outdir ++ "/" ++ buildFileName) : Text) = start ++ ['a'] := by
    refine List.getLast?_eq_some_iff.1 ?_
    unfold siblingPath
    rw [List.getLast?_append, List.getLast?_append, List.getLast?_append, hending]
    rfl
  intro last hlast
  obtain ⟨line, hline⟩ := getLast?_lines_concat (by decide : 'a' ≠ '\n') start
  rw [htext, hline] at hlast
  rw [← Option.some.inj hlast]
  exact isWhole_iff_even.1 (isWhole_concat line (by decide))

theorem isSafe_blank : Statement.blank.IsSafe := List.forall_mem_singleton.2 (by decide)

theorem isSafe_directoryStatements : ∀ s ∈ directoryStatements, s.IsSafe := by
  intro s hs
  simp only [directoryStatements, List.mem_cons, List.not_mem_nil, or_false] at hs
  rcases hs with rfl | rfl | rfl | rfl | rfl <;> exact List.forall_mem_singleton.2 (by decide)

theorem isSafe_referenceStatements (references : List Reference) (outdir : Text) :
    ∀ s ∈ referenceStatements references outdir, s.IsSafe := by
  intro s hs
  unfold referenceStatements at hs
  split at hs
  · cases hs
  · rcases List.mem_append.1 hs with hs | hs
    · obtain ⟨r, -, rfl⟩ := List.mem_map.1 hs
      exact isSafe_reference r outdir
    · rw [List.mem_singleton.1 hs]
      exact isSafe_blank

theorem isSafe_ruleStatements (hkeeps : KeepsLines p flags programs outdir) {name : Text} {values : List Text}
    {r : Rule} (hname : '\n' ∉ name) (hvalues : values ∈ p.boundFlags flags) (hrule : (Statement.rule r).IsSafe) :
    ∀ s ∈ ruleStatements name values r, s.IsSafe := by
  obtain ⟨hfeed, hlast⟩ := hkeeps.values values hvalues
  intro s hs
  simp only [ruleStatements, List.mem_cons, List.not_mem_nil, or_false] at hs
  rcases hs with rfl | rfl | rfl | rfl
  · exact isSafe_flags hname hfeed hlast
  · exact isSafe_blank
  · exact hrule
  · exact isSafe_blank

theorem isSafe_preamble (hkeeps : KeepsLines p flags programs outdir) :
    ∀ s ∈ preamble p flags programs outdir, s.IsSafe := by
  obtain ⟨hcc, hcxx, har, hlink⟩ := hkeeps.programs
  have hc : flags.c ∈ p.boundFlags flags := by simp [Project.boundFlags]
  have hfinal : flags.final ∈ p.boundFlags flags := by simp [Project.boundFlags]
  intro s hs
  unfold preamble at hs
  simp only [List.mem_append] at hs
  rcases hs with (((hs | hs) | hs) | hs) | hs
  · exact isSafe_directoryStatements s hs
  · exact isSafe_referenceStatements p.references outdir s hs
  · exact isSafe_ruleStatements hkeeps (by decide) hc (isSafe_compileRule (by decide) hcc (by decide) (by decide)) s hs
  · split at hs
    · next hcpp =>
      have hmem : flags.cpp.getD [] ∈ p.boundFlags flags := by simp [Project.boundFlags, hcpp]
      exact isSafe_ruleStatements hkeeps (by decide) hmem
        (isSafe_compileRule (by decide) hcxx (by decide) (by decide)) s hs
    · cases hs
  · split at hs
    · exact isSafe_ruleStatements hkeeps (by decide) hfinal (isSafe_archiveRule har) s hs
    · exact isSafe_ruleStatements hkeeps (by decide) hfinal (isSafe_linkRule hlink) s hs

/-- A document of a project with one source and one configuration. -/
def oneSourceDocument (outputType outputName source : Text) (properties : List (Text × Text)) : Xml.Node :=
  let leaf (name text : Text) : Xml.Node := .element name [] [.text text]
  .element "Project" [] [
    .element "PropertyGroup" [] [
      leaf "SchemaVersion" "2.0", leaf "Language" "C", leaf "OutputType" outputType,
      leaf "OutputFileName" outputName, leaf "OutputFileExtension" ".out"],
    .element "PropertyGroup" [⟨none, "Condition", "'$(Configuration)' == 'Debug'"⟩] [
      .element "ArmGcc" [] (properties.map fun (name, text) => leaf name text)],
    .element "ItemGroup" [] [.element "Compile" [⟨none, "Include", source⟩] []]]

end CprojNinja
