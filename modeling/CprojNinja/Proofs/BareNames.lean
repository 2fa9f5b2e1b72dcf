import CprojNinja.Proofs.References

/-!
# Bare names

Decorated names of libraries are treated in two ways. A library that the project declares loses a decoration at each end
of its name, where there is one; a reference with a decorated name is refused. Taking off is done once, so a name with
the same decoration twice is not bare afterwards.

Main statement: those are all the names on which the two ways differ, and on which taking off again takes off more.
-/

namespace CprojNinja

namespace Text

/-! ## Both ends of a text -/

section Ends

variable {start ending s : Text}

theorem withoutStart_append (start rest : Text) : withoutStart start (start ++ rest) = rest := by
  rw [withoutStart, dropStart?_eq_some.2 rfl]
  rfl

theorem withoutEnd_append (rest ending : Text) : withoutEnd ending (rest ++ ending) = rest := by
  rw [withoutEnd, dropEnd?, List.reverse_append, dropStart?_eq_some.2 rfl]
  exact List.reverse_reverse rest

theorem withoutStart_eq_self (h : ¬ start <+: s) : withoutStart start s = s :=
  withoutStart_of_not_startsWith (Bool.eq_false_iff.2 (mt startsWith_iff.1 h))

theorem withoutEnd_eq_self (h : ¬ ending <:+ s) : withoutEnd ending s = s :=
  withoutEnd_of_not_endsWith (Bool.eq_false_iff.2 (mt endsWith_iff.1 h))

theorem prefix_withoutStart_iff : start <+: withoutStart start s ↔ start ++ start <+: s := by
  by_cases h : start <+: s
  · obtain ⟨rest, rfl⟩ := h
    rw [withoutStart_append, List.prefix_append_right_inj]
  · rw [withoutStart_eq_self h]
    exact iff_of_false h fun htwice => h ((List.prefix_append start start).trans htwice)

theorem suffix_withoutEnd_iff : ending <:+ withoutEnd ending s ↔ ending ++ ending <:+ s := by
  by_cases h : ending <:+ s
  · obtain ⟨rest, rfl⟩ := h
    rw [withoutEnd_append]
    constructor
    · rintro ⟨first, rfl⟩
      exact ⟨first, (List.append_assoc first ending ending).symm⟩
    · rintro ⟨first, hfirst⟩
      rw [← List.append_assoc] at hfirst
      exact ⟨first, List.append_cancel_right hfirst⟩
  · rw [withoutEnd_eq_self h]
    exact iff_of_false h fun htwice => h ((List.suffix_append ending ending).trans htwice)

/-- A start does not reach into an ending with which it has no character in common. -/
theorem prefix_of_prefix_append (hapart : ∀ c ∈ start, c ∉ ending) (h : start <+: s ++ ending) : start <+: s := by
  rcases List.prefix_or_prefix_of_prefix h (List.prefix_append s ending) with h' | ⟨common, rfl⟩
  · exact h'
  · cases common with
    | nil => exact ⟨[], by simp⟩
    | cons c common =>
      have hc : c ∈ ending := ((List.prefix_append_right_inj s).1 h).subset List.mem_cons_self
      exact absurd hc (hapart c (List.mem_append_right s List.mem_cons_self))

theorem prefix_withoutEnd_iff (hapart : ∀ c ∈ start, c ∉ ending) : start <+: withoutEnd ending s ↔ start <+: s := by
  have hprefix : withoutEnd ending s <+: s := withoutEnd_prefix ending s
  refine ⟨fun h => h.trans hprefix, fun h => ?_⟩
  by_cases hending : ending <:+ s
  · obtain ⟨rest, rfl⟩ := hending
    rw [withoutEnd_append]
    exact prefix_of_prefix_append hapart h
  · rwa [withoutEnd_eq_self hending]

theorem suffix_withoutStart_iff (hapart : ∀ c ∈ ending, c ∉ start) :
    ending <:+ withoutStart start s ↔ ending <:+ s := by
  refine ⟨fun h => h.trans (withoutStart_suffix start s), fun h => ?_⟩
  by_cases hstart : start <+: s
  · obtain ⟨rest, rfl⟩ := hstart
    rw [withoutStart_append]
    -- the same as for a start, read from the end
    have hreverse : ending.reverse <+: rest.reverse ++ start.reverse := by
      rw [← List.reverse_append]
      exact List.reverse_prefix.2 h
    have hapart' : ∀ c ∈ ending.reverse, c ∉ start.reverse := by simpa using hapart
    exact List.reverse_prefix.1 (prefix_of_prefix_append hapart' hreverse)
  · rwa [withoutStart_eq_self hstart]

end Ends

end Text

/-! ## Decorations -/

section Decorations

variable {name : Text}

theorem isBare_iff : IsBare name ↔ ¬ archiveStart <+: name ∧ ¬ archiveEnding <:+ name := by
  rw [IsBare, Bool.eq_false_iff, Bool.eq_false_iff, ne_eq, ne_eq, Text.startsWith_iff, Text.endsWith_iff]

/-- Whether a name has the same decoration twice. -/
def IsTwiceDecorated (name : Text) : Prop :=
  archiveStart ++ archiveStart <+: name ∨ archiveEnding ++ archiveEnding <:+ name

theorem isBare_bareName_iff : IsBare (bareName name) ↔ ¬ IsTwiceDecorated name := by
  have hstart : ∀ c ∈ archiveStart, c ∉ archiveEnding := by simp [archiveStart, archiveEnding]
  have hending : ∀ c ∈ archiveEnding ++ archiveEnding, c ∉ archiveStart := by simp [archiveStart, archiveEnding]
  rw [isBare_iff, bareName, Text.prefix_withoutEnd_iff hstart, Text.prefix_withoutStart_iff,
    Text.suffix_withoutEnd_iff, Text.suffix_withoutStart_iff hending, IsTwiceDecorated, not_or]

/-- A name that has a decoration loses it. -/
theorem bareName_eq_self_iff : bareName name = name ↔ IsBare name := by
  refine ⟨fun h => ?_, bareName_of_isBare⟩
  have hstart : ¬ archiveStart <+: name := by
    rintro ⟨rest, rfl⟩
    have hprefix : Text.withoutEnd archiveEnding rest <+: rest := Text.withoutEnd_prefix archiveEnding rest
    have hshorter := hprefix.length_le
    rw [bareName, Text.withoutStart_append] at h
    rw [h, List.length_append] at hshorter
    exact absurd hshorter (by simp [archiveStart])
  have hending : ¬ archiveEnding <:+ name := by
    intro hending
    rw [bareName, Text.withoutStart_eq_self hstart] at h
    obtain ⟨rest, rfl⟩ := hending
    rw [Text.withoutEnd_append] at h
    exact absurd (congrArg List.length h) (by simp [archiveEnding])
  exact isBare_iff.2 ⟨hstart, hending⟩

/-- A library whose name is decorated at most once at each end can be referred to by what is left of its name, and that
is the same however often decorations are taken off. If the name starts with `liblib` or ends with `.a.a`, a reference
to what is left is refused, and taking off again leaves less. -/
theorem isBare_bareName (name : Text) :
    (IsBare (bareName name) ↔ ¬ (("liblib" : Text) <+: name ∨ (".a.a" : Text) <:+ name)) ∧
      (∀ directory, (∃ r, Reference.ofName? directory (bareName name) = some r) ↔
        ¬ (("liblib" : Text) <+: name ∨ (".a.a" : Text) <:+ name)) ∧
      (bareName (bareName name) = bareName name ↔ ¬ (("liblib" : Text) <+: name ∨ (".a.a" : Text) <:+ name)) := by
  have hbare : IsBare (bareName name) ↔ ¬ (("liblib" : Text) <+: name ∨ (".a.a" : Text) <:+ name) :=
    isBare_bareName_iff
  refine ⟨hbare, fun directory => ?_, bareName_eq_self_iff.trans hbare⟩
  rw [← hbare, ← Option.ne_none_iff_exists', ne_eq, Reference.ofName?_eq_none_iff, not_not]

/-- Names with one decoration twice. -/
theorem not_isBare_bareName :
    bareName "liblibcrc.a" = "libcrc" ∧ ¬ IsBare (bareName "liblibcrc.a") ∧
      bareName (bareName "liblibcrc.a") ≠ bareName "liblibcrc.a" ∧
      ¬ IsBare (bareName "crc.a.a") ∧ bareName (bareName "crc.a.a") ≠ bareName "crc.a.a" := by
  decide

end Decorations

end CprojNinja
