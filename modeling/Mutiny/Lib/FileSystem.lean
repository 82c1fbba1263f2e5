import Mathlib.Logic.Function.Basic
import Mutiny.Lib.Bytes

/-!
# A file system with atomic steps

A file system is the map from paths to the contents of the files it holds.
Creating, removing and renaming a file are atomic.  A procedure that changes the
file system is a list of steps, and a crash keeps the effect of the steps before
it and of nothing after.
-/

/-- The files that exist, by path. -/
def FileSystem := String → Option Bytes

namespace FileSystem

variable {fs : FileSystem} {p q src dst : String} {bytes : Bytes}

/-- The contents of the file at a path, if there is one. -/
def read (fs : FileSystem) (p : String) : Option Bytes := fs p

theorem ext {fs fs' : FileSystem} (h : ∀ p, fs.read p = fs'.read p) : fs = fs' := funext h

/-- Whether there is a file. -/
def holds (fs : FileSystem) (p : String) : Bool := (fs.read p).isSome

/-- Create or truncate a file and fill it. -/
def write (fs : FileSystem) (p : String) (bytes : Bytes) : FileSystem :=
  Function.update fs p (some bytes)

/-- A file is removed. -/
def remove (fs : FileSystem) (p : String) : FileSystem :=
  Function.update fs p none

/-- Remove a file if it exists. -/
def removeIfPresent (fs : FileSystem) (p : String) : FileSystem :=
  if fs.holds p then fs.remove p else fs

/-- Move a file over another path; there is no result when the source is absent. -/
def rename (fs : FileSystem) (src dst : String) : Option FileSystem :=
  (fs.read src).map fun bytes => (fs.remove src).write dst bytes

@[simp]
theorem read_write_self : (fs.write p bytes).read p = some bytes :=
  Function.update_self ..

@[simp]
theorem read_write_of_ne (h : q ≠ p) : (fs.write p bytes).read q = fs.read q :=
  Function.update_of_ne h ..

@[simp]
theorem read_remove_self : (fs.remove p).read p = none :=
  Function.update_self ..

@[simp]
theorem read_remove_of_ne (h : q ≠ p) : (fs.remove p).read q = fs.read q :=
  Function.update_of_ne h ..

@[simp]
theorem read_removeIfPresent_self : (fs.removeIfPresent p).read p = none := by
  unfold removeIfPresent
  split
  · exact read_remove_self
  · simp_all [holds]

@[simp]
theorem read_removeIfPresent_of_ne (h : q ≠ p) : (fs.removeIfPresent p).read q = fs.read q := by
  unfold removeIfPresent
  split <;> simp [h]

theorem rename_of_read (h : fs.read src = some bytes) :
    fs.rename src dst = some ((fs.remove src).write dst bytes) := by
  simp [rename, h]

/-! ## Procedures and crashes -/

/-- The effect of a list of steps. -/
def runSteps (steps : List (FileSystem → FileSystem)) (fs : FileSystem) : FileSystem :=
  steps.foldl (fun fs step => step fs) fs

/-- What is on disk when a procedure is stopped after its first {lit}`k` steps. -/
def crashAt (k : Nat) (steps : List (FileSystem → FileSystem)) (fs : FileSystem) : FileSystem :=
  runSteps (steps.take k) fs

/-- A crash after the last step leaves what the whole procedure leaves. -/
theorem crashAt_of_length_le {k : Nat} {steps : List (FileSystem → FileSystem)}
    (h : steps.length ≤ k) : crashAt k steps fs = runSteps steps fs := by
  rw [crashAt, List.take_of_length_le h]

/-! ## Companion files -/

/-- The path of a file kept beside another one under a further extension. -/
def companion (path suffix : String) : String := path ++ "." ++ suffix

theorem companion_injective {path : String} {s t : String}
    (h : companion path s = companion path t) : s = t := by
  have := congrArg String.toList h
  simpa [companion, String.toList_inj] using this

theorem companion_ne_self (path suffix : String) : companion path suffix ≠ path := by
  intro h
  have := congrArg (fun s => s.toList.length) h
  simp [companion] at this

end FileSystem
