import CprojNinja.Proofs.LinkerScripts

/-!
# The script on the linker line

The script is looked for flag by flag, but the linker is given the flags on one line, with blanks between them. No `-T`
reaches over a blank, and a script ends at one, so the line names the scripts of its flags in their order.

Main statement: the flags and their line have the same script, which is the one behind the last `-T` of the line.
-/

namespace CprojNinja

open Ninja (Statement)

/-! ## From flags to the line -/

theorem Text.dropStart?_append_cons {start : Text} {c : Char} (hc : c ∉ start) (s t : Text) :
    Text.dropStart? start (s ++ c :: t) = (Text.dropStart? start s).map (· ++ c :: t) := by
  induction start generalizing s with
  | nil => rw [Text.dropStart?, Text.dropStart?, Option.map_some]
  | cons p start ih =>
    rw [List.mem_cons, not_or] at hc
    obtain ⟨hp, hstart⟩ := hc
    cases s with
    | nil =>
      show (if p = c then Text.dropStart? start t else none) = none
      exact if_neg (Ne.symm hp)
    | cons d s =>
      rw [List.cons_append, Text.dropStart?, Text.dropStart?]
      by_cases h : p = d
      · rw [if_pos h, if_pos h, ih hstart]
      · rw [if_neg h, if_neg h]
        rfl

theorem scriptPath_append_blank (s t : Text) : scriptPath (s ++ ' ' :: t) = scriptPath s := by
  unfold scriptPath
  congr 1
  induction s with
  | nil => rfl
  | cons c s ih =>
    by_cases h : c = ' '
    · rw [h]
      rfl
    · rw [List.cons_append, List.takeWhile_cons_of_pos (by simpa using h), List.takeWhile_cons_of_pos (by simpa using h),
        ih]

theorem scriptsIn_append_blank (s t : Text) : scriptsIn (s ++ ' ' :: t) = scriptsIn s ++ scriptsIn t := by
  induction s with
  | nil => rfl
  | cons c s ih =>
    have hstart : Text.dropStart? "-T" (c :: s ++ ' ' :: t) = _ := Text.dropStart?_append_cons (by decide) (c :: s) t
    rw [List.cons_append] at hstart ⊢
    rw [scriptsIn, scriptsIn, hstart, ih]
    cases Text.dropStart? "-T" (c :: s) with
    | none => rfl
    | some rest =>
      rw [Option.map_some]
      show scriptPath (rest ++ ' ' :: t) :: _ = _
      rw [scriptPath_append_blank, List.cons_append]

theorem scriptsIn_joinWith (flags : List Text) : scriptsIn (Text.joinWith " " flags) = flags.flatMap scriptsIn := by
  induction flags with
  | nil => rfl
  | cons flag flags ih =>
    cases flags with
    | nil => simp [Text.joinWith]
    | cons next flags =>
      rw [Text.joinWith_cons_cons, scriptsIn_append_blank, ih]
      exact List.flatMap_cons.symm

theorem flatMap_scriptsIn_nonEmpty (flags : List Text) :
    (Text.nonEmpty flags).flatMap scriptsIn = flags.flatMap scriptsIn := by
  induction flags with
  | nil => rfl
  | cons flag flags ih =>
    unfold Text.nonEmpty at ih ⊢
    by_cases h : flag = []
    · rw [List.filter_cons_of_neg (by simpa using h), ih, List.flatMap_cons, h]
      rfl
    · rw [List.filter_cons_of_pos (by simpa using h), List.flatMap_cons, ih, List.flatMap_cons]

theorem linkerScript?_joinWith (flags : List Text) :
    linkerScript? [Text.joinWith " " (Text.nonEmpty flags)] = linkerScript? flags := by
  unfold linkerScript?
  rw [List.flatMap_singleton, scriptsIn_joinWith, flatMap_scriptsIn_nonEmpty]

/-! ## The last script of a line -/

/-- A mark that occurs has a last occurrence. -/
theorem Text.exists_last_of_infix {mark s : Text} (hne : mark ≠ []) (h : mark <:+: s) :
    ∃ before rest, s = before ++ mark ++ rest ∧ ¬ mark <:+: rest := by
  induction s with
  | nil => exact absurd (List.infix_nil.1 h) hne
  | cons c s ih =>
    by_cases hlater : mark <:+: s
    · obtain ⟨before, rest, rfl, hrest⟩ := ih hlater
      exact ⟨c :: before, rest, rfl, hrest⟩
    · obtain ⟨rest, hrest⟩ := (List.infix_cons_iff.1 h).resolve_right hlater
      refine ⟨[], rest, hrest.symm, fun hmark => hlater ?_⟩
      -- the mark takes at least the first character, so what stands behind it lies in the rest
      obtain ⟨d, mark', rfl⟩ := List.exists_cons_of_ne_nil hne
      have hsuffix : rest <:+ s := ⟨mark', (List.cons.inj hrest).2⟩
      exact hmark.trans hsuffix.isInfix

theorem scriptsIn_suffix_append (before s : Text) : scriptsIn s <:+ scriptsIn (before ++ s) := by
  induction before with
  | nil => exact List.suffix_rfl
  | cons c before ih =>
    rw [List.cons_append, scriptsIn]
    cases Text.dropStart? "-T" (c :: (before ++ s)) with
    | none => exact ih
    | some rest => exact ih.trans (List.suffix_cons _ _)

theorem linkerScript?_of_last {before rest : Text} (h : NamesNoScript rest) :
    linkerScript? [before ++ "-T" ++ rest] = some (scriptPath rest) := by
  have hlast : scriptsIn ("-T" ++ rest) = [scriptPath rest] := by
    show scriptPath rest :: scriptsIn rest = _
    rw [scriptsIn_eq_nil_iff.2 h]
  obtain ⟨scripts, hscripts⟩ := scriptsIn_suffix_append before ("-T" ++ rest)
  unfold linkerScript?
  rw [List.flatMap_singleton, List.append_assoc, ← hscripts, hlast, List.getLast?_concat]

theorem not_infix_iff_namesNoScript {s : Text} : ¬ ("-T" : Text) <:+: s ↔ NamesNoScript s := by
  rw [← Text.occursIn_iff, Bool.not_eq_true]
  rfl

theorem linkerScript?_singleton_eq_some_iff {line script : Text} :
    linkerScript? [line] = some script ↔ ∃ before rest, line = before ++ "-T" ++ rest ∧ ¬ ("-T" : Text) <:+: rest ∧
      script = Text.withoutStart "../" (rest.takeWhile (· ≠ ' ')) := by
  constructor
  · intro h
    have hmark : ("-T" : Text) <:+: line := by
      by_contra hmark
      have hnone : linkerScript? [line] = none :=
        linkerScript?_eq_none_iff.2 (List.forall_mem_singleton.2 (not_infix_iff_namesNoScript.1 hmark))
      rw [hnone] at h
      cases h
    obtain ⟨before, rest, rfl, hrest⟩ := Text.exists_last_of_infix (by decide) hmark
    rw [linkerScript?_of_last (not_infix_iff_namesNoScript.1 hrest)] at h
    exact ⟨before, rest, rfl, hrest, (Option.some.inj h).symm⟩
  · rintro ⟨before, rest, rfl, hrest, rfl⟩
    exact linkerScript?_of_last (not_infix_iff_namesNoScript.1 hrest)

/-- Some flags have the same script as the line on which they are written: none if there is no `-T` on it, and otherwise
what stands behind the last one up to a blank or the end, less one step up. So of flags before and behind others those
behind decide if they name a script. -/
theorem linkerScript?_line (flags : List Text) :
    ∃ line, (∀ name, Statement.flags name flags = .binding name line) ∧
      linkerScript? flags = linkerScript? [line] ∧
      (linkerScript? flags = none ↔ ¬ ("-T" : Text) <:+: line) ∧
      (∀ script, linkerScript? flags = some script ↔ ∃ before rest, line = before ++ "-T" ++ rest ∧
        ¬ ("-T" : Text) <:+: rest ∧ script = Text.withoutStart "../" (rest.takeWhile (· ≠ ' '))) ∧
      ∀ behind, linkerScript? (flags ++ behind) = (linkerScript? behind).or (linkerScript? flags) := by
  refine ⟨Text.joinWith " " (Text.nonEmpty flags), fun name => rfl, ?_, ?_, ?_, linkerScript?_append flags⟩
  · exact (linkerScript?_joinWith flags).symm
  · rw [← linkerScript?_joinWith, linkerScript?_eq_none_iff, List.forall_mem_singleton, not_infix_iff_namesNoScript]
  · intro script
    rw [← linkerScript?_joinWith]
    exact linkerScript?_singleton_eq_some_iff

-- a script in a flag of its own is behind a blank, where the script of the `-T` has ended
example : linkerScript? ["-s -T../a.ld", [], "-T", "../flash.ld"] = some [] := by decide

end CprojNinja
