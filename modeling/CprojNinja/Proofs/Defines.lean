import CprojNinja.Flags.Define
import CprojNinja.Proofs.Outcomes

/-!
# Removed defines

The symbols to remove are taken one after the other, each from what the ones before it have left. Still they are counted
as in the whole list: a name takes only its own occurrences with it, and one that is there twice stops the run before
anything of it is gone. So the result is a filter, unless a name to remove is there twice.
-/

namespace CprojNinja

/-- Whether a symbol to remove occurs twice among those that are added and those of the project. -/
def RemovesRepeated (added own removed : List Text) : Prop :=
  ∃ name ∈ removed, 2 ≤ (Text.nonEmpty added ++ own).count name

instance (added own removed : List Text) : Decidable (RemovesRepeated added own removed) :=
  inferInstanceAs (Decidable (∃ name ∈ removed, _))

section Removal

variable {defines removed before after : List Text} {name : Text}

theorem removeDefine_of_count_le (h : defines.count name ≤ 1) :
    removeDefine defines name = .ok (defines.filter (· ≠ name)) :=
  if_pos h

theorem removeDefine_of_lt_count (h : 1 < defines.count name) :
    removeDefine defines name = .error (.repeatedDefine name (defines.count name)) :=
  if_neg (Nat.not_le.2 h)

/-- What was removed before does not change how often a name occurs that is still there. -/
theorem count_filter_not_mem (hname : name ∉ before) :
    (defines.filter (· ∉ before)).count name = defines.count name :=
  List.count_filter (by simpa using hname)

/-- Names that occur at most once are all removed, and nothing else is. -/
theorem foldlM_removeDefine_of_count_le (h : ∀ name ∈ removed, defines.count name ≤ 1) :
    removed.foldlM removeDefine defines = .ok (defines.filter (· ∉ removed)) := by
  induction removed generalizing defines with
  | nil => simp [pure, Except.pure]
  | cons name removed ih =>
    obtain ⟨hname, hremoved⟩ := List.forall_mem_cons.1 h
    have hless : ∀ other ∈ removed, (defines.filter (· ≠ name)).count other ≤ 1 := fun other hother =>
      Nat.le_trans (List.filter_sublist.count_le other) (hremoved other hother)
    have hfilter : (defines.filter (· ≠ name)).filter (· ∉ removed) = defines.filter (· ∉ name :: removed) := by
      rw [List.filter_filter]
      exact List.filter_congr fun other _ => by simp [Bool.and_comm]
    rw [List.foldlM_cons, removeDefine_of_count_le hname, ← hfilter, ← ih hless]
    rfl

/-- The first name that occurs twice decides. -/
theorem foldlM_removeDefine_of_lt_count (hbefore : ∀ other ∈ before, defines.count other ≤ 1)
    (hname : 1 < defines.count name) :
    (before ++ name :: after).foldlM removeDefine defines = .error (.repeatedDefine name (defines.count name)) := by
  have hnew : name ∉ before := fun hmem => absurd hname (Nat.not_lt.2 (hbefore name hmem))
  have hcount : (defines.filter (· ∉ before)).count name = defines.count name := count_filter_not_mem hnew
  rw [List.foldlM_append, foldlM_removeDefine_of_count_le hbefore]
  show (List.foldlM removeDefine (defines.filter (· ∉ before)) (name :: after)) = _
  rw [List.foldlM_cons, removeDefine_of_lt_count (hcount.symm ▸ hname), hcount]
  rfl

end Removal

section Merge

variable {added own removed : List Text}

/-- The first symbol to remove that occurs twice. -/
def firstRepeated? (added own removed : List Text) : Option Text :=
  removed.find? fun name => 2 ≤ (Text.nonEmpty added ++ own).count name

theorem firstRepeated?_eq_none_iff : firstRepeated? added own removed = none ↔ ¬ RemovesRepeated added own removed := by
  unfold firstRepeated? RemovesRepeated
  rw [List.find?_eq_none]
  simp only [decide_eq_true_eq, not_exists, not_and]

theorem exists_append_of_firstRepeated? {name : Text} (h : firstRepeated? added own removed = some name) :
    ∃ before after, removed = before ++ name :: after ∧
      (∀ other ∈ before, (Text.nonEmpty added ++ own).count other ≤ 1) ∧
      1 < (Text.nonEmpty added ++ own).count name := by
  obtain ⟨hname, before, after, hremoved, hbefore⟩ := List.find?_eq_some_iff_append.1 h
  refine ⟨before, after, hremoved, ?_, of_decide_eq_true hname⟩
  intro other hother
  simpa [Nat.lt_succ_iff] using hbefore other hother

theorem count_le_of_not_removesRepeated (h : ¬ RemovesRepeated added own removed) :
    ∀ name ∈ removed, (Text.nonEmpty added ++ own).count name ≤ 1 := by
  intro name hname
  by_contra hcount
  exact h ⟨name, hname, Nat.not_le.1 hcount⟩

/-- The counts of the whole list decide, although they are taken of a list that gets shorter. -/
theorem mergeDefines_eq_match (added own removed : List Text) :
    mergeDefines added own removed =
      match firstRepeated? added own removed with
      | some name => .error (.repeatedDefine name ((Text.nonEmpty added ++ own).count name))
      | none => .ok ((Text.nonEmpty added ++ own).filter (· ∉ removed)) := by
  cases hfirst : firstRepeated? added own removed with
  | none =>
    have hcounts := count_le_of_not_removesRepeated (firstRepeated?_eq_none_iff.1 hfirst)
    exact foldlM_removeDefine_of_count_le hcounts
  | some name =>
    obtain ⟨before, after, rfl, hcounts, hname⟩ := exists_append_of_firstRepeated? hfirst
    exact foldlM_removeDefine_of_lt_count hcounts hname

theorem mergeDefines_of_not_removesRepeated (h : ¬ RemovesRepeated added own removed) :
    mergeDefines added own removed = .ok ((Text.nonEmpty added ++ own).filter (· ∉ removed)) := by
  rw [mergeDefines_eq_match, firstRepeated?_eq_none_iff.2 h]

theorem mergeDefines_of_removesRepeated (h : RemovesRepeated added own removed) :
    ∃ before name after, removed = before ++ name :: after ∧
      (∀ other ∈ before, (Text.nonEmpty added ++ own).count other ≤ 1) ∧
      mergeDefines added own removed = .error (.repeatedDefine name ((Text.nonEmpty added ++ own).count name)) := by
  obtain ⟨name, hfirst⟩ := Option.ne_none_iff_exists'.1 (mt firstRepeated?_eq_none_iff.1 (not_not.2 h))
  obtain ⟨before, after, hremoved, hcounts, -⟩ := exists_append_of_firstRepeated? hfirst
  refine ⟨before, name, after, hremoved, hcounts, ?_⟩
  rw [mergeDefines_eq_match, hfirst]

/-- Defines are refused exactly if a symbol to remove occurs twice. -/
theorem exists_mergeDefines_eq_error_iff :
    (∃ v, mergeDefines added own removed = .error v) ↔ RemovesRepeated added own removed := by
  refine ⟨fun ⟨v, hv⟩ => ?_, fun h => ?_⟩
  · by_contra h
    rw [mergeDefines_of_not_removesRepeated h] at hv
    cases hv
  · obtain ⟨before, name, after, -, -, herror⟩ := mergeDefines_of_removesRepeated h
    exact ⟨_, herror⟩

theorem eq_filter_of_mergeDefines {defines : List Text} (h : mergeDefines added own removed = .ok defines) :
    defines = (Text.nonEmpty added ++ own).filter (· ∉ removed) := by
  by_cases hremoved : RemovesRepeated added own removed
  · obtain ⟨v, hv⟩ := exists_mergeDefines_eq_error_iff.2 hremoved
    rw [hv] at h
    cases h
  · rw [mergeDefines_of_not_removesRepeated hremoved] at h
    cases h
    rfl

theorem mem_of_mergeDefines {defines : List Text} (h : mergeDefines added own removed = .ok defines) {name : Text} :
    name ∈ defines ↔ name ∈ Text.nonEmpty added ++ own ∧ name ∉ removed := by
  rw [eq_filter_of_mergeDefines h, List.mem_filter, decide_eq_true_iff]

example : mergeDefines ["NDEBUG", []] ["BOARD", "NDEBUG"] ["NDEBUG"] = .error (.repeatedDefine "NDEBUG" 2) := rfl

/-! ## The names to remove -/

/-- A name that does not occur, or that is removed before, might as well not be there. -/
theorem mergeDefines_append_cons {before after : List Text} {name : Text}
    (h : name ∉ Text.nonEmpty added ++ own ∨ name ∈ before) :
    mergeDefines added own (before ++ name :: after) = mergeDefines added own (before ++ after) := by
  have hfilter : (Text.nonEmpty added ++ own).filter (· ∉ before ++ name :: after) =
      (Text.nonEmpty added ++ own).filter (· ∉ before ++ after) := by
    apply List.filter_congr
    intro x hx
    have hmem : x = name → x ∈ before := by
      rintro rfl
      exact h.resolve_left (not_not.2 hx)
    have hiff : x ∈ before ++ name :: after ↔ x ∈ before ++ after := by
      simp only [List.mem_append, List.mem_cons]
      tauto
    simp only [hiff]
  have hfirst : firstRepeated? added own (before ++ name :: after) = firstRepeated? added own (before ++ after) := by
    unfold firstRepeated?
    rw [List.find?_append, List.find?_append]
    by_cases hbefore : before.find? (fun x => 2 ≤ (Text.nonEmpty added ++ own).count x) = none
    · have hname : (Text.nonEmpty added ++ own).count name < 2 := by
        rcases h with habsent | hmem
        · rw [List.count_eq_zero.2 habsent]
          omega
        · have hcount := List.find?_eq_none.1 hbefore name hmem
          simpa using hcount
      rw [List.find?_cons_of_neg (by simpa using hname)]
    · obtain ⟨first, hfirst⟩ := Option.ne_none_iff_exists'.1 hbefore
      rw [hfirst]
      rfl
  rw [mergeDefines_eq_match, mergeDefines_eq_match, hfirst, hfilter]

/-- Which names are removed decides, not their order and not how often each of them is given. Only the name that is
reported may be another one. -/
theorem mergeDefines_congr {other : List Text} (h : ∀ name, name ∈ other ↔ name ∈ removed) :
    mergeDefines added own other = mergeDefines added own removed ∨
      ∃ v v', mergeDefines added own other = .error v ∧ mergeDefines added own removed = .error v' := by
  have hrepeated : RemovesRepeated added own other ↔ RemovesRepeated added own removed := by
    unfold RemovesRepeated
    simp only [h]
  by_cases hremoved : RemovesRepeated added own removed
  · obtain ⟨v, hv⟩ := exists_mergeDefines_eq_error_iff.2 (hrepeated.2 hremoved)
    obtain ⟨v', hv'⟩ := exists_mergeDefines_eq_error_iff.2 hremoved
    exact Or.inr ⟨v, v', hv, hv'⟩
  · left
    rw [mergeDefines_of_not_removesRepeated hremoved, mergeDefines_of_not_removesRepeated (mt hrepeated.1 hremoved)]
    simp only [h]

/-- Let the symbols be those that are added, less the empty ones, and then those of the project. If a name to remove
occurs twice among them, the first such name is reported with the number of its occurrences; otherwise the symbols that
are not removed are left, in their order. So a name that does not occur, or that was given before, changes nothing, and
the same names in another order give the same list or are refused as well. -/
theorem mergeDefines_eq_filter (added own removed : List Text) :
    let defines := Text.nonEmpty added ++ own
    (mergeDefines added own removed =
      match removed.find? fun name => 2 ≤ defines.count name with
      | some name => .error (.repeatedDefine name (defines.count name))
      | none => .ok (defines.filter (· ∉ removed))) ∧
    (∀ before name after, removed = before ++ name :: after → name ∉ defines ∨ name ∈ before →
      mergeDefines added own removed = mergeDefines added own (before ++ after)) ∧
    (∀ other, other.Perm removed →
      mergeDefines added own other = mergeDefines added own removed ∨
        ∃ v v', mergeDefines added own other = .error v ∧ mergeDefines added own removed = .error v') := by
  refine ⟨mergeDefines_eq_match added own removed, ?_, ?_⟩
  · rintro before name after rfl h
    exact mergeDefines_append_cons h
  · intro other hperm
    exact mergeDefines_congr fun name => hperm.mem_iff

end Merge

end CprojNinja
