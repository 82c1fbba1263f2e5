import Mutiny.Lib.FileSystem

/-!
# Procedures on a disk where one operation fails

A procedure reads and changes the files and ends with a result or an error; what it has
done before an error stays done.  The operations it tries are counted, and one of them
may be made to fail without effect while all others do what they do.
-/

/-- The files in the middle of a run, and how many operations have been tried. -/
structure Disk where
  fs : FileSystem
  tried : Nat

namespace Disk

variable {ε ε' α β : Type} {fault : Option Nat} {d d' : Disk}

/-- A procedure that ends with a value or an error, and leaves a disk behind either way. -/
structure Proc (ε α : Type) where
  run : Disk → Except ε α × Disk

/-- Carry on with the value of a finished run, or pass its error on. -/
def andThen (outcome : Except ε α × Disk) (f : α → Proc ε β) : Except ε β × Disk :=
  match outcome with
  | (.ok a, d) => (f a).run d
  | (.error e, d) => (.error e, d)

instance : Monad (Proc ε) where
  pure a := ⟨fun d => (.ok a, d)⟩
  bind x f := ⟨fun d => andThen (x.run d) f⟩

/-- Stop with an error. -/
def fail (e : ε) : Proc ε α := ⟨fun d => (.error e, d)⟩

/-- A computation that does not touch the disk. -/
def lift (r : Except ε α) : Proc ε α := ⟨fun d => (r, d)⟩

/-- Whether a file exists. -/
def holds (p : String) : Proc ε Bool := ⟨fun d => (.ok (d.fs.holds p), d)⟩

/-- Run a procedure and, when it fails, another one in its place. -/
def recover (x : Proc ε α) (handler : ε → Proc ε' α) : Proc ε' α where
  run d :=
    match x.run d with
    | (.ok a, d) => (.ok a, d)
    | (.error e, d) => (handler e).run d

/-- An operation on the files. -/
inductive Op where
  /-- One that leaves every file as it is. -/
  | touch
  /-- Create an empty file where there is none. -/
  | create (p : String)
  /-- Fill a file that has just been created. -/
  | fill (p : String) (bytes : Bytes)
  /-- Give a file a second name that is not taken. -/
  | link (src dst : String)
  /-- Remove a file that is there. -/
  | remove (p : String)

/-- The files after an operation, if it can be done. -/
def Op.effect (op : Op) (fs : FileSystem) : Option FileSystem :=
  match op with
  | touch => some fs
  | create p => if fs.holds p then none else some (fs.write p [])
  | fill p bytes => some (fs.write p bytes)
  | link src dst => if fs.holds dst then none else (fs.read src).map (fs.write dst)
  | remove p => if fs.holds p then some (fs.remove p) else none

/-- Try one operation: it fails when it cannot be done or is the one numbered
{lit}`fault`. -/
def attempt (fault : Option Nat) (failure : ε) (op : Op) : Proc ε Unit where
  run d :=
    if fault = some d.tried then (.error failure, ⟨d.fs, d.tried + 1⟩)
    else
      match op.effect d.fs with
      | some fs => (.ok (), ⟨fs, d.tried + 1⟩)
      | none => (.error failure, ⟨d.fs, d.tried + 1⟩)

/-- Remove files one by one, whether or not it works. -/
def removeAll {E : Type} (fault : Option Nat) (failure : ε) : List String → Proc E Unit
  | [] => pure ()
  | p :: ps => do
    recover (attempt fault failure (.remove p)) fun _ => pure ()
    removeAll fault failure ps

@[simp]
theorem run_pure (a : α) : (pure a : Proc ε α).run d = (.ok a, d) := rfl

@[simp]
theorem run_fail (e : ε) : (fail e : Proc ε α).run d = (.error e, d) := rfl

@[simp]
theorem run_lift (r : Except ε α) : (lift r).run d = (r, d) := rfl

@[simp]
theorem run_holds (p : String) : (holds p : Proc ε Bool).run d = (.ok (d.fs.holds p), d) := rfl

/-- A sequence goes on exactly after a success. -/
theorem run_bind (x : Proc ε α) (f : α → Proc ε β) : (x >>= f).run d = andThen (x.run d) f := rfl

@[simp]
theorem andThen_ok (a : α) (f : α → Proc ε β) : andThen (.ok a, d) f = (f a).run d := rfl

@[simp]
theorem andThen_error (e : ε) (f : α → Proc ε β) : andThen (.error e, d) f = (.error e, d) := rfl

theorem recover_ok {x : Proc ε α} {a : α} (handler : ε → Proc ε' α) (h : x.run d = (.ok a, d')) :
    (recover x handler).run d = (.ok a, d') := by
  simp only [recover, h]

theorem recover_error {x : Proc ε α} {e : ε} (handler : ε → Proc ε' α)
    (h : x.run d = (.error e, d')) : (recover x handler).run d = (handler e).run d' := by
  simp only [recover, h]

/-! ## Operations -/

namespace Op

variable {fs : FileSystem} {p src dst : String} {bytes : Bytes}

theorem effect_touch : touch.effect fs = some fs := rfl

theorem effect_create (h : fs.read p = none) : (create p).effect fs = some (fs.write p []) := by
  simp [effect, FileSystem.holds, h]

theorem effect_fill : (fill p bytes).effect fs = some (fs.write p bytes) := rfl

theorem effect_link (hsrc : fs.read src = some bytes) (hdst : fs.read dst = none) :
    (link src dst).effect fs = some (fs.write dst bytes) := by
  simp [effect, FileSystem.holds, hsrc, hdst]

theorem effect_remove (h : fs.read p = some bytes) : (remove p).effect fs = some (fs.remove p) := by
  simp [effect, FileSystem.holds, h]

end Op

section Attempt

variable {failure : ε} {op : Op} {fs fs' : FileSystem} {n : Nat} {f : Unit → Proc ε β}

/-- An operation that does not fail takes effect. -/
theorem attempt_spared (hfault : fault ≠ some n) (heffect : op.effect fs = some fs') :
    (attempt fault failure op).run ⟨fs, n⟩ = (.ok (), ⟨fs', n + 1⟩) := by
  simp only [attempt, if_neg hfault, heffect]

/-- The operation that fails takes no effect. -/
theorem attempt_failed (hfault : fault = some n) :
    (attempt fault failure op).run ⟨fs, n⟩ = (.error failure, ⟨fs, n + 1⟩) := by
  simp only [attempt, if_pos hfault]

theorem attempt_bind_spared (hfault : fault ≠ some n) (heffect : op.effect fs = some fs') :
    (attempt fault failure op >>= f).run ⟨fs, n⟩ = (f ()).run ⟨fs', n + 1⟩ := by
  rw [run_bind, attempt_spared hfault heffect, andThen_ok]

theorem attempt_bind_failed (hfault : fault = some n) :
    (attempt fault failure op >>= f).run ⟨fs, n⟩ = (.error failure, ⟨fs, n + 1⟩) := by
  rw [run_bind, attempt_failed hfault, andThen_error]

/-- Whether or not the file was there, it is gone after a removal that is not made to fail. -/
theorem recover_remove {E : Type} (failure : ε) (fs : FileSystem) (p : String)
    (hfault : fault ≠ some n) :
    ∃ fs', (recover (attempt fault failure (.remove p)) fun _ => (pure () : Proc E Unit)).run
        ⟨fs, n⟩ = (.ok (), ⟨fs', n + 1⟩) ∧
      ∀ q, fs'.read q = if q = p then none else fs.read q := by
  cases hp : fs.read p with
  | some bytes =>
    refine ⟨fs.remove p, recover_ok _ (attempt_spared hfault (Op.effect_remove hp)), ?_⟩
    intro q
    by_cases hq : q = p <;> simp [hq]
  | none =>
    have hgone : (attempt fault failure (.remove p)).run ⟨fs, n⟩ =
        (.error failure, ⟨fs, n + 1⟩) := by
      simp [attempt, hfault, Op.effect, FileSystem.holds, hp]
    refine ⟨fs, recover_error _ hgone, ?_⟩
    intro q
    split
    · next hq => rw [hq, hp]
    · rfl

/-- When no operation is made to fail any more, removing files leaves exactly the others. -/
theorem run_removeAll {E : Type} (failure : ε) (fs : FileSystem) (ps : List String)
    (hfault : ∀ k, n ≤ k → fault ≠ some k) :
    ∃ d', (removeAll (E := E) fault failure ps).run ⟨fs, n⟩ = (.ok (), d') ∧
      ∀ q, d'.fs.read q = if q ∈ ps then none else fs.read q := by
  induction ps generalizing fs n with
  | nil => exact ⟨⟨fs, n⟩, rfl, by simp⟩
  | cons p ps ih =>
    rcases recover_remove (E := E) failure fs p (hfault n le_rfl) with ⟨fs', hrun, hread⟩
    have hlater : ∀ k, n + 1 ≤ k → fault ≠ some k := fun k hk => hfault k (Nat.le_of_succ_le hk)
    rcases ih fs' hlater with ⟨d', hrest, hread'⟩
    refine ⟨d', ?_, ?_⟩
    · rw [removeAll, run_bind, hrun, andThen_ok, hrest]
    · intro q
      rw [hread', hread]
      by_cases hq : q = p <;> simp [hq]

end Attempt

end Disk
