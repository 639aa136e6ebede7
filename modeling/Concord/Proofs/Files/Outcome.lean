import Concord.Files.Text

/-!
# Computations on files that may fail

On given files, such a computation comes to a result or to a fault.  `Lookup.outcome` is what it
comes to, and the lemmas follow a computation step by step: a step that succeeds is gone past, and
a step that fails ends it.
-/

set_option autoImplicit false

namespace Concord.Files.Lookup

variable {ε α β : Type} {files : String → Entry}

/-- What a computation comes to on given files. -/
def outcome (files : String → Entry) (x : ExceptT ε Lookup α) : Except ε α := run files x.run

@[simp] theorem run_map (f : α → β) (x : Lookup α) : run files (f <$> x) = f (run files x) :=
  run_bind files x _

@[simp] theorem outcome_mk (x : Lookup (Except ε α)) :
    outcome files (ExceptT.mk x) = run files x := rfl

/-- A computation that cannot fail. -/
@[simp] theorem outcome_lift (x : Lookup α) :
    outcome files (liftM x : ExceptT ε Lookup α) = .ok (run files x) :=
  run_bind files x _

theorem outcome_bind (x : ExceptT ε Lookup α) (f : α → ExceptT ε Lookup β) :
    outcome files (x >>= f) = (outcome files x).bind fun a ↦ outcome files (f a) := by
  have hrun := run_bind files x.run (ExceptT.bindCont f)
  rw [outcome, outcome]
  refine hrun.trans ?_
  cases run files x.run <;> rfl

/-- A step that succeeds is gone past. -/
theorem outcome_bind_ok {x : ExceptT ε Lookup α} {a : α} (h : outcome files x = .ok a)
    (f : α → ExceptT ε Lookup β) : outcome files (x >>= f) = outcome files (f a) := by
  rw [outcome_bind, h]
  rfl

/-- A step that fails ends the computation. -/
theorem outcome_bind_error {x : ExceptT ε Lookup α} {e : ε} (h : outcome files x = .error e)
    (f : α → ExceptT ε Lookup β) : outcome files (x >>= f) = .error e := by
  rw [outcome_bind, h]
  rfl

end Concord.Files.Lookup
