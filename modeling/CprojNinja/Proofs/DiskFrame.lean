import CprojNinja.Disk.Model
import CprojNinja.Proofs.Outcomes
import Mathlib.Data.List.Induction

/-!
# What operations on a disk leave alone

Every operation of the program changes at most one entry of the disk, and none takes a directory away. So a path that
leads somewhere still leads there after any number of operations (`Keeps`), and a sequence of operations on one path
changes only the location that this path names (`Only`). Making directories is the other case: entries appear at the
locations of certain paths, where nothing was before (`Made`).

Each of the three relations is closed under composition. What the program does is described by composing what its
operations do, whatever mishaps they meet.
-/

namespace CprojNinja

namespace Disk

variable {before between after d : Disk} {location : Location} {path : Path}

/-! ## Paths that keep their meaning -/

/-- Directories stay where they are. -/
structure Keeps (before after : Disk) : Prop where
  /-- The current directory is the same. -/
  current : after.current = before.current
  /-- Each directory is still there. -/
  directory : ∀ location, before.at? location = some .directory → after.at? location = some .directory

theorem Keeps.refl (d : Disk) : Keeps d d := ⟨rfl, fun _ h => h⟩

theorem Keeps.trans (h : Keeps before between) (h' : Keeps between after) : Keeps before after :=
  ⟨h'.current.trans h.current, fun location hlocation => h'.directory location (h.directory location hlocation)⟩

theorem at?_of_step {name : Text} {target : Location} (h : d.step location name = .ok target) :
    d.at? location = some .directory := by
  unfold step at h
  split at h
  · cases h
  · cases h
  · next hdirectory => exact hdirectory

theorem Keeps.step (h : Keeps before after) {name : Text} {target : Location}
    (hstep : before.step location name = .ok target) : after.step location name = .ok target := by
  have hbefore := at?_of_step hstep
  unfold Disk.step at hstep ⊢
  rw [hbefore] at hstep
  rw [h.directory location hbefore]
  exact hstep

theorem Keeps.steps (h : Keeps before after) {names : List Text} {target : Location}
    (hsteps : names.foldlM before.step location = .ok target) : names.foldlM after.step location = .ok target := by
  induction names generalizing location with
  | nil => exact hsteps
  | cons name names ih =>
    rw [List.foldlM_cons, bind_eq_ok] at hsteps ⊢
    obtain ⟨next, hnext, hsteps⟩ := hsteps
    exact ⟨next, h.step hnext, ih hsteps⟩

theorem Keeps.walk (h : Keeps before after) (hwalk : before.walk path = .ok location) :
    after.walk path = .ok location := by
  unfold Disk.walk at hwalk ⊢
  rw [h.current]
  exact h.steps hwalk

/-- A path leads where it led before. -/
theorem Keeps.locate (h : Keeps before after) (hlocate : before.locate path = .ok location) :
    after.locate path = .ok location := by
  unfold Disk.locate at hlocate ⊢
  rw [bind_eq_ok] at hlocate ⊢
  obtain ⟨_, hcheck, hwalk⟩ := hlocate
  exact ⟨_, hcheck, h.walk hwalk⟩

/-! ## The last name of a path -/

/-- Slashes behind the path of a directory change nothing. -/
theorem walk_append_slashes {slashes : Text} (hslashes : ∀ c ∈ slashes, c = '/') (hpath : path ≠ [])
    (hwalk : d.walk path = .ok location) (hdirectory : d.at? location = some .directory) :
    d.walk (path ++ slashes) = .ok location := by
  induction slashes using List.reverseRecOn with
  | nil => rwa [List.append_nil]
  | append_singleton slashes c ih =>
    have ih := ih fun c hc => hslashes c (List.mem_append_left _ hc)
    have hstep : d.step location [] = .ok location := by simp [step, hdirectory, Text.byteWidth]
    have habsolute : Path.isAbsolute (path ++ (slashes ++ [c])) = Path.isAbsolute (path ++ slashes) := by
      cases path with
      | nil => exact absurd rfl hpath
      | cons c' path => rfl
    unfold walk at ih ⊢
    rw [Text.splitOn_eq] at ih
    rw [habsolute, ← List.append_assoc, hslashes c (by simp), Text.splitOn_eq, List.splitOn_append_cons_self,
      List.foldlM_append, bind_eq_ok]
    exact ⟨location, ih, by simpa using hstep⟩

theorem exists_splitOn_join (dir : Path) {name : Path} (hname : '/' ∉ name) :
    ∃ names, Text.splitOn '/' (dir.join name) = names ++ [name] := by
  have hsingle : List.splitOn '/' name = [name] := List.splitOn_eq_singleton hname
  have hhead : name.head? ≠ some '/' := fun h => hname (List.mem_of_mem_head? h)
  rw [Text.splitOn_eq]
  rcases Path.join_cases dir hhead with ⟨-, hjoin⟩ | ⟨start, -, hjoin⟩
  · exact ⟨[], by rw [hjoin, hsingle, List.nil_append]⟩
  · exact ⟨List.splitOn '/' start, by rw [hjoin, List.splitOn_append_cons_self, hsingle]⟩

/-- The path of a name in a directory leads to a location that ends in this name. -/
theorem getLast?_of_locate {dir name : Path} (hname : '/' ∉ name) (hproper : name ≠ [] ∧ name ≠ "." ∧ name ≠ "..")
    (h : d.locate (dir.join name) = .ok location) : location.getLast? = some name := by
  unfold locate walk at h
  obtain ⟨_, -, h⟩ := bind_eq_ok.1 h
  obtain ⟨names, hnames⟩ := exists_splitOn_join dir hname
  rw [hnames, List.foldlM_append, bind_eq_ok] at h
  obtain ⟨around, -, hlast⟩ := h
  rw [List.foldlM_cons, bind_eq_ok] at hlast
  obtain ⟨_, hstep, hlast⟩ := hlast
  cases hlast
  have hdirectory := at?_of_step hstep
  unfold step at hstep
  rw [hdirectory] at hstep
  simp only [hproper.1, hproper.2.1, hproper.2.2, or_self, if_false] at hstep
  split at hstep
  · cases hstep
  · cases hstep
    simp

/-! ## Operations on one path -/

/-- Nothing changes except at the location that a path names. -/
structure Only (path : Path) (before after : Disk) : Prop where
  /-- Directories stay where they are. -/
  keeps : Keeps before after
  /-- Every other location holds what it held. -/
  other : ∀ location, after.locate path ≠ .ok location → after.at? location = before.at? location

theorem Only.refl (path : Path) (d : Disk) : Only path d d := ⟨Keeps.refl d, fun _ _ => rfl⟩

theorem Only.trans (h : Only path before between) (h' : Only path between after) : Only path before after where
  keeps := h.keeps.trans h'.keeps
  other location hlocation := by
    rw [h'.other location hlocation]
    exact h.other location fun hbetween => hlocation (h'.keeps.locate hbetween)

theorem ne_nil_of_at? (h : d.at? location ≠ some .directory) : location ≠ [] := by
  rintro rfl
  exact h (by simp [at?])

theorem keeps_put (hfree : d.at? location ≠ some .directory) (entry : Entry) : Keeps d (d.put location entry) where
  current := rfl
  directory := by
    intro other hother
    rw [at?_put (ne_nil_of_at? hfree), if_neg]
    · exact hother
    · rintro rfl
      exact hfree hother

theorem keeps_erase (hfree : d.at? location ≠ some .directory) : Keeps d (d.erase location) where
  current := rfl
  directory := by
    intro other hother
    rw [at?_erase (ne_nil_of_at? hfree), if_neg]
    · exact hother
    · rintro rfl
      exact hfree hother

theorem only_put (hlocate : d.locate path = .ok location) (hfree : d.at? location ≠ some .directory) (entry : Entry) :
    Only path d (d.put location entry) where
  keeps := keeps_put hfree entry
  other := by
    intro other hother
    rw [at?_put (ne_nil_of_at? hfree), if_neg]
    rintro rfl
    exact hother ((keeps_put hfree entry).locate hlocate)

theorem only_erase (hlocate : d.locate path = .ok location) (hfree : d.at? location ≠ some .directory) :
    Only path d (d.erase location) where
  keeps := keeps_erase hfree
  other := by
    intro other hother
    rw [at?_erase (ne_nil_of_at? hfree), if_neg]
    rintro rfl
    exact hother ((keeps_erase hfree).locate hlocate)

theorem write_eq_ok_iff {content : Content} : d.write path content = .ok after ↔
    ∃ location, d.locate path = .ok location ∧ d.at? location ≠ some .directory ∧
      after = d.put location (.file content) := by
  unfold write
  rw [bind_eq_ok]
  refine exists_congr fun location => and_congr_right fun _ => ?_
  cases hat : d.at? location with
  | none => simp [pure, Except.pure, eq_comm]
  | some entry => cases entry <;> simp [throw, throwThe, MonadExceptOf.throw, pure, Except.pure, eq_comm]

theorem remove_eq_ok_iff : d.remove path = .ok after ↔
    ∃ location content, d.locate path = .ok location ∧ d.at? location = some (.file content) ∧
      after = d.erase location := by
  unfold remove
  rw [bind_eq_ok]
  refine exists_congr fun location => ?_
  cases hat : d.at? location with
  | none => simp [throw, throwThe, MonadExceptOf.throw]
  | some entry => cases entry <;> simp [throw, throwThe, MonadExceptOf.throw, pure, Except.pure, eq_comm]

theorem rename_eq_ok_iff {source target : Path} : d.rename source target = .ok after ↔
    ∃ old new content, d.locate source = .ok old ∧ d.locate target = .ok new ∧ d.at? old = some (.file content) ∧
      d.at? new ≠ some .directory ∧ after = (d.erase old).put new (.file content) := by
  unfold rename
  simp only [bind_eq_ok]
  constructor
  · rintro ⟨old, hold, new, hnew, h⟩
    refine ⟨old, new, ?_⟩
    cases hat : d.at? old with
    | none => simp [hat, throw, throwThe, MonadExceptOf.throw] at h
    | some entry =>
      cases entry with
      | directory => simp [hat, throw, throwThe, MonadExceptOf.throw] at h
      | file content =>
        cases hfree : d.at? new with
        | none =>
          simp only [hat, hfree] at h
          cases h
          exact ⟨content, hold, hnew, rfl, by simp, rfl⟩
        | some entry =>
          cases entry with
          | directory => simp [hat, hfree, throw, throwThe, MonadExceptOf.throw] at h
          | file _ =>
            simp only [hat, hfree] at h
            cases h
            exact ⟨content, hold, hnew, rfl, by simp, rfl⟩
  · rintro ⟨old, new, content, hold, hnew, hat, hfree, rfl⟩
    refine ⟨old, hold, new, hnew, ?_⟩
    rw [hat]
    cases hnewAt : d.at? new with
    | none => rfl
    | some entry =>
      cases entry with
      | directory => exact absurd hnewAt hfree
      | file _ => rfl

/-! ## New directories -/

/-- Nothing changes except that directories appear at locations of some paths, where nothing was before. -/
structure Made (paths : List Path) (before after : Disk) : Prop where
  /-- Directories stay where they are. -/
  keeps : Keeps before after
  /-- What is new is a directory. -/
  made : ∀ location, after.at? location = before.at? location ∨
    before.at? location = none ∧ after.at? location = some .directory ∧ ∃ path ∈ paths, after.locate path = .ok location

theorem Made.refl (paths : List Path) (d : Disk) : Made paths d d := ⟨Keeps.refl d, fun _ => Or.inl rfl⟩

theorem Made.trans {paths : List Path} (h : Made paths before between) (h' : Made paths between after) :
    Made paths before after where
  keeps := h.keeps.trans h'.keeps
  made := by
    intro location
    rcases h.made location with hsame | ⟨hnone, hdirectory, path, hpath, hlocate⟩
    · rw [← hsame]
      exact h'.made location
    · exact Or.inr ⟨hnone, h'.keeps.directory location hdirectory, path, hpath, h'.keeps.locate hlocate⟩

theorem Made.mono {paths more : List Path} (h : Made paths before after) (hpaths : paths ⊆ more) :
    Made more before after where
  keeps := h.keeps
  made := by
    intro location
    rcases h.made location with hsame | ⟨hnone, hdirectory, path, hpath, hlocate⟩
    · exact Or.inl hsame
    · exact Or.inr ⟨hnone, hdirectory, path, hpaths hpath, hlocate⟩

/-- A directory that was made is the only change, and its path leads to it. -/
theorem made_makeDirectory (h : d.makeDirectory path = .ok after) : Made [path] d after := by
  unfold makeDirectory at h
  obtain ⟨_, hcheck, h⟩ := bind_eq_ok.1 h
  obtain ⟨location, hwalk, h⟩ := bind_eq_ok.1 h
  split at h
  · cases h
  · next hnone =>
    cases h
    have hfree : d.at? location ≠ some .directory := by simp [hnone]
    have hkeeps := keeps_put hfree .directory
    have hdirectory : (d.put location .directory).at? location = some .directory := by
      rw [at?_put (ne_nil_of_at? hfree), if_pos rfl]
    have hpath : (d.put location .directory).walk path = .ok location := by
      split at hwalk
      · exact hkeeps.walk hwalk
      · next htrimmed =>
        obtain ⟨slashes, hsplit, hslashes⟩ := Text.exists_trimEnd_append (· = '/') path
        rw [hsplit]
        exact walk_append_slashes (fun c hc => by simpa using hslashes c hc) htrimmed (hkeeps.walk hwalk) hdirectory
    refine ⟨hkeeps, fun other => ?_⟩
    by_cases hother : other = location
    · rw [hother]
      exact Or.inr ⟨hnone, hdirectory, path, List.mem_singleton_self path, bind_eq_ok.2 ⟨_, hcheck, hpath⟩⟩
    · rw [at?_put (ne_nil_of_at? hfree), if_neg hother]
      exact Or.inl rfl

end Disk

end CprojNinja
