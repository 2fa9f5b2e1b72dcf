import CprojNinja.Path

/-!
# Reports

Not everything that the program has to say is an error. After a warning the program goes on, so a step reports its
outcome together with the warnings on the way to it. An error does not take back the warnings before it.
-/

namespace CprojNinja

/-- Something that the user should know although the program goes on. -/
inductive Warning where
  /-- No compiler takes a file that the project lists. -/
  | skippedFile (file : Path)
  deriving Repr, DecidableEq

namespace Warning

/-- What is told. -/
def message : Warning → Text
  | skippedFile file => "Skipping file " ++ file

/-- The file that a warning is about. -/
def file : Warning → Path
  | skippedFile file => file

end Warning

/-- A monad in which warnings are told. -/
class Console (m : Type → Type) where
  /-- Tells a warning. -/
  warn : Warning → m Unit

/-- What a step reports. -/
structure Reported (ε α : Type) where
  /-- The warnings, in the order in which they came up. -/
  warnings : List Warning
  /-- The value of the step or its error. -/
  outcome : Except ε α

namespace Reported

variable {ε ε' α β : Type}

/-- The step that does nothing but warn. -/
def warn (w : Warning) : Reported ε Unit := ⟨[w], .ok ()⟩

/-- The step that fails. -/
def fail (e : ε) : Reported ε α := ⟨[], .error e⟩

/-- A step whose errors are seen as errors of another kind. -/
def mapError (f : ε → ε') (r : Reported ε α) : Reported ε' α := ⟨r.warnings, r.outcome.mapError f⟩

/-- Of two steps the second one is taken, and may warn, only if the first one has a value. -/
instance : Monad (Reported ε) where
  pure a := ⟨[], .ok a⟩
  bind r f := {
    warnings := r.warnings ++ match r.outcome with
      | .ok a => (f a).warnings
      | .error _ => []
    outcome := r.outcome >>= fun a => (f a).outcome }

/-- A step that cannot warn. -/
instance : MonadLift (Except ε) (Reported ε) where
  monadLift outcome := ⟨[], outcome⟩

@[simp] theorem outcome_pure (a : α) : (pure a : Reported ε α).outcome = .ok a := rfl

@[simp] theorem outcome_fail (e : ε) : (fail e : Reported ε α).outcome = .error e := rfl

@[simp] theorem outcome_lift (r : Except ε α) : (liftM r : Reported ε α).outcome = r := rfl

@[simp] theorem outcome_mapError (f : ε → ε') (r : Reported ε α) :
    (r.mapError f).outcome = r.outcome.mapError f := rfl

@[simp] theorem outcome_bind (r : Reported ε α) (f : α → Reported ε β) :
    (r >>= f).outcome = r.outcome >>= fun a => (f a).outcome := rfl

@[simp] theorem warn_bind (w : Warning) (f : Unit → Reported ε α) :
    (warn w >>= f) = ⟨w :: (f ()).warnings, (f ()).outcome⟩ := rfl

@[simp] theorem mk_ok_bind_pure (warnings : List Warning) (a : α) (f : α → β) :
    ((⟨warnings, .ok a⟩ : Reported ε α) >>= fun a => pure (f a)) = ⟨warnings, .ok (f a)⟩ :=
  congrArg (fun warnings => mk warnings (.ok (f a))) (List.append_nil warnings)

@[simp] theorem mk_error_bind (warnings : List Warning) (e : ε) (f : α → Reported ε β) :
    ((⟨warnings, .error e⟩ : Reported ε α) >>= f) = ⟨warnings, .error e⟩ :=
  congrArg (fun warnings => mk warnings (.error e)) (List.append_nil warnings)

end Reported

end CprojNinja
