import CprojNinja.Proofs.DiskFrame

/-!
# Runs on a disk

A run of operations on a disk is described by what it leaves alone. The relations on disks for that are all of one kind:
they hold when nothing happens and when a mishap passes, and they are closed under composition. So a run respects such a
relation if each of its operations does, whatever the operations answer and whatever mishaps they meet.
-/

namespace CprojNinja

namespace Disk

variable {before after d : Disk} {path : Path}

/-! ## What a run leaves alone -/

/-- A relation between disks that holds when nothing happens, when a mishap passes, and of two changes in a row. -/
structure IsFrame (R : Disk → Disk → Prop) : Prop where
  /-- Nothing happens. -/
  refl : ∀ d, R d d
  /-- A mishap passes. -/
  next : ∀ d, R d d.nextMishap.2
  /-- Two changes in a row. -/
  trans : ∀ {before between after}, R before between → R between after → R before after

/-- A run takes every disk to a related one. -/
def Respects {α : Type} (R : Disk → Disk → Prop) (run : StateM Disk α) : Prop := ∀ before, R before (run before).2

theorem isFrame_only (path : Path) : IsFrame (Only path) :=
  ⟨Only.refl path, fun _ => ⟨⟨rfl, fun _ h => h⟩, fun _ _ => rfl⟩, Only.trans⟩

theorem isFrame_made (paths : List Path) : IsFrame (Made paths) :=
  ⟨Made.refl paths, fun _ => ⟨⟨rfl, fun _ h => h⟩, fun _ => Or.inl rfl⟩, Made.trans⟩

/-- A look changes no entry, and it gives the answer or fails. -/
theorem look_cases {α : Type} {answer : Disk → α} {failed : Fault → α} {a : α}
    (h : look answer failed before = (a, after)) :
    after = before.nextMishap.2 ∧ (a = answer before.nextMishap.2 ∨ ∃ fault, a = failed fault) := by
  unfold look at h
  split at h
  · next mishap d hnext =>
    have hd : before.nextMishap.2 = d := by rw [hnext]
    cases h
    exact ⟨hd.symm, Or.inr ⟨_, rfl⟩⟩
  · next d hnext =>
    have hd : before.nextMishap.2 = d := by rw [hnext]
    cases h
    exact ⟨hd.symm, Or.inl (by rw [hd])⟩

/-- A change does what it is for, or it fails and the disk is as it was or as a mishap left it. -/
theorem change_cases {f : Disk → Except Fault Disk} {spoil : Mishap → Disk → Except Fault Disk}
    {result : Except Fault Unit} (h : change f spoil before = (result, after)) :
    (result = .ok () ∧ f before.nextMishap.2 = .ok after) ∨
      ∃ fault, result = .error fault ∧
        (after = before.nextMishap.2 ∨ ∃ mishap, spoil mishap before.nextMishap.2 = .ok after) := by
  unfold change at h
  split at h
  · next mishap d hnext =>
    have hd : before.nextMishap.2 = d := by rw [hnext]
    cases h
    refine Or.inr ⟨_, rfl, ?_⟩
    rw [hd]
    cases hspoil : spoil mishap d with
    | error fault => exact Or.inl rfl
    | ok d' => exact Or.inr ⟨mishap, hspoil⟩
  · next d hnext =>
    have hd : before.nextMishap.2 = d := by rw [hnext]
    rw [hd]
    split at h
    · next hf =>
      cases h
      exact Or.inl ⟨rfl, hf⟩
    · next fault hf =>
      cases h
      exact Or.inr ⟨fault, rfl, Or.inl rfl⟩

section Frame

variable {R : Disk → Disk → Prop} (hR : IsFrame R)
include hR

theorem IsFrame.pure {α : Type} (a : α) : Respects R (pure a : StateM Disk α) := hR.refl

theorem IsFrame.bind {α β : Type} {run : StateM Disk α} {rest : α → StateM Disk β} (hrun : Respects R run)
    (hrest : ∀ a, Respects R (rest a)) : Respects R (run >>= rest) := by
  intro before
  exact hR.trans (hrun before) (hrest (run before).1 (run before).2)

theorem IsFrame.look {α : Type} (answer : Disk → α) (failed : Fault → α) : Respects R (look answer failed) := by
  intro before
  rcases hrun : Disk.look answer failed before with ⟨a, after⟩
  rw [(look_cases hrun).1]
  exact hR.next before

/-- A change respects a relation if what it is for and what a mishap does both do. -/
theorem IsFrame.change {f : Disk → Except Fault Disk} {spoil : Mishap → Disk → Except Fault Disk}
    (hf : ∀ {before after}, f before = .ok after → R before after)
    (hspoil : ∀ {mishap before after}, spoil mishap before = .ok after → R before after) :
    Respects R (change f spoil) := by
  intro before
  refine hR.trans (hR.next before) ?_
  rcases hrun : Disk.change f spoil before with ⟨result, after⟩
  rcases change_cases hrun with ⟨-, h⟩ | ⟨-, -, rfl | ⟨mishap, h⟩⟩
  · exact hf h
  · exact hR.refl _
  · exact hspoil h

end Frame

/-! ## Single operations -/

theorem only_write {content : Content} (h : d.write path content = .ok after) : Only path d after := by
  obtain ⟨location, hlocate, hfree, rfl⟩ := write_eq_ok_iff.1 h
  exact only_put hlocate hfree _

/-- Writing a file changes that file only, even where it breaks off. -/
theorem only_writeText (path : Path) (text : Text) :
    Respects (Only path) (FileSystem.writeText (m := StateM Disk) path text) := by
  refine (isFrame_only path).change only_write ?_
  intro mishap before after h
  unfold breakOff at h
  split at h
  · exact only_write h
  · cases h
    exact Only.refl path before

theorem only_remove (path : Path) : Respects (Only path) (FileSystem.remove (m := StateM Disk) path) := by
  refine (isFrame_only path).change ?_ ?_
  · intro before after h
    obtain ⟨location, content, hlocate, hat, rfl⟩ := remove_eq_ok_iff.1 h
    exact only_erase hlocate (by simp [hat])
  · intro mishap before after h
    cases h
    exact Only.refl path before

theorem made_directory (path : Path) : Respects (Made [path]) (FileSystem.makeDirectory (m := StateM Disk) path) := by
  refine (isFrame_made [path]).change made_makeDirectory ?_
  intro mishap before after h
  cases h
  exact Made.refl [path] before

/-! ## Directories -/

theorem made_settle (paths : List Path) (path : Path) (fault : Fault) :
    Respects (Made paths) (FileSystem.settle (m := StateM Disk) path fault) := by
  have hframe := isFrame_made paths
  unfold FileSystem.settle
  refine hframe.bind (hframe.look _ _) fun there => ?_
  split
  · exact hframe.pure _
  · exact hframe.pure _

/-- Only the directories in question are made, and only where nothing was. -/
theorem made_nested (paths : List Path) : Respects (Made paths) (FileSystem.makeNested (m := StateM Disk) paths) := by
  have hframe := isFrame_made paths
  induction paths with
  | nil => exact hframe.pure _
  | cons path around ih =>
    have hpath : Respects (Made (path :: around)) (FileSystem.makeDirectory (m := StateM Disk) path) :=
      fun before => (made_directory path before).mono (by simp)
    have haround : Respects (Made (path :: around)) (FileSystem.makeNested (m := StateM Disk) around) :=
      fun before => (ih (isFrame_made around) before).mono (List.subset_cons_self path around)
    unfold FileSystem.makeNested
    split
    · exact hframe.pure _
    · refine hframe.bind hpath fun first => ?_
      split
      · exact hframe.pure _
      · refine hframe.bind haround fun made => ?_
        split
        · exact hframe.pure _
        · refine hframe.bind hpath fun second => ?_
          split
          · exact hframe.pure _
          · exact made_settle _ _ _
      · exact made_settle _ _ _

end Disk

end CprojNinja
