/-!
# Looking at files

What a program does may depend on files, and which files it looks at on those it has seen.  A
`Lookup` is such a computation as a value: it is done, or it looks at a path and goes on with what
is there.  `Lookup.run` answers all looks from one function, so that the same computation can be
run on the files of a machine and on any files that one thinks of.
-/

set_option autoImplicit false

namespace Concord.Files

/-- What a path leads to. -/
inductive Entry where
  | file (bytes : ByteArray)
  | directory
  | missing
  /-- A part of the path that should be a directory is a file. -/
  | blocked
deriving Inhabited

/-- A computation that looks at files. -/
inductive Lookup (α : Type) where
  | done (a : α)
  | look (path : String) (next : Entry → Lookup α)

namespace Lookup

/-- Goes on with the result of a computation. -/
def bind {α β : Type} : Lookup α → (α → Lookup β) → Lookup β
  | done a, f => f a
  | look path next, f => look path fun e ↦ bind (next e) f

instance : Monad Lookup where
  pure := done
  bind := bind

/-- Looks at one path. -/
def entry (path : String) : Lookup Entry := look path done

/-- The result of a computation on given files. -/
def run {α : Type} (files : String → Entry) : Lookup α → α
  | done a => a
  | look path next => run files (next (files path))

@[simp] theorem run_pure {α : Type} (files : String → Entry) (a : α) :
    run files (pure a) = a := rfl

@[simp] theorem run_entry (files : String → Entry) (path : String) :
    run files (entry path) = files path := rfl

@[simp] theorem run_bind {α β : Type} (files : String → Entry) (x : Lookup α)
    (f : α → Lookup β) : run files (x >>= f) = run files (f (run files x)) := by
  show run files (bind x f) = _
  induction x with
  | done a => rfl
  | look path next ih => exact ih (files path)

end Lookup

end Concord.Files
