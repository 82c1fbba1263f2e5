import Mutiny.Lib.FileSystem
import Mutiny.Worker.LedgerCodec

/-!
# Crashes of the ledger's replacement protocol

The ledger is replaced in five file-system steps: drop a stale {lit}`.next`,
write the new bytes to {lit}`.next`, drop {lit}`.prev`, move the ledger to
{lit}`.prev`, move {lit}`.next` to the ledger.  Reading falls back to
{lit}`.prev` when the ledger is absent.  Seen from outside the three files are
one register, the durable contents, and a commit should replace it atomically.

Main results:

- Theorem {lit}`reservations_survive`: survivable crashes lose no reservation and repeat no
  ticket.
- Theorem {lit}`ledger_written_through`: a process works on the ledger on disk.
-/

namespace Mutiny

open Result FileSystem

/-! ## The replacement protocol -/

/-- Where the new contents wait. -/
def nextPath (path : String) : String := companion path "next"

/-- Where the old contents are kept. -/
def prevPath (path : String) : String := companion path "prev"

@[simp]
theorem nextPath_ne (path : String) : nextPath path ≠ path := companion_ne_self path _

@[simp]
theorem prevPath_ne (path : String) : prevPath path ≠ path := companion_ne_self path _

@[simp]
theorem ne_nextPath (path : String) : path ≠ nextPath path := (nextPath_ne path).symm

@[simp]
theorem ne_prevPath (path : String) : path ≠ prevPath path := (prevPath_ne path).symm

@[simp]
theorem prevPath_ne_nextPath (path : String) : prevPath path ≠ nextPath path := fun h =>
  absurd (companion_injective h) (by decide)

@[simp]
theorem nextPath_ne_prevPath (path : String) : nextPath path ≠ prevPath path :=
  (prevPath_ne_nextPath path).symm

/-- Move the ledger, if there is one, to {lit}`.prev`. -/
def retireCurrent (path : String) (fs : FileSystem) : FileSystem :=
  if fs.holds path then (fs.rename path (prevPath path)).getD fs else fs

/-- The steps of a commit up to the last one. -/
def stagingSteps (path : String) (bytes : Bytes) : List (FileSystem → FileSystem) :=
  [fun fs => fs.removeIfPresent (nextPath path),
    fun fs => fs.write (nextPath path) bytes,
    fun fs => fs.removeIfPresent (prevPath path),
    retireCurrent path]

/-- The last step: move the staged bytes into place, or put the old ones back. -/
def publish (path : String) (fs : FileSystem) : Except LedgerError Unit × FileSystem :=
  match fs.rename (nextPath path) path with
  | some fs' => (.ok (), fs')
  | none =>
    (.error .io,
      if !fs.holds path && fs.holds (prevPath path) then
        (fs.rename (prevPath path) path).getD fs
      else fs)

/-- A file is replaced; the old one is kept. -/
def commitAtomic (fs : FileSystem) (path : String) (bytes : Bytes) :
    Except LedgerError Unit × FileSystem :=
  publish path (runSteps (stagingSteps path bytes) fs)

/-- All steps of a commit. -/
def commitSteps (path : String) (bytes : Bytes) : List (FileSystem → FileSystem) :=
  stagingSteps path bytes ++ [fun fs => (publish path fs).2]

/-- The contents a reader finds: the ledger, or {lit}`.prev` when it is absent. -/
def durable (fs : FileSystem) (path : String) : Option Bytes :=
  (fs.read path).or (fs.read (prevPath path))

/-- A crash after {lit}`k` steps of a commit leaves a copy behind: the commit found
the ledger in place, or there was nothing to lose, or the crash came before
{lit}`.prev` was dropped or after the new ledger was in place. -/
def CrashSurvivable (fs : FileSystem) (path : String) (k : Nat) : Prop :=
  fs.holds path ∨ ¬ fs.holds (prevPath path) ∨ k ≤ 2 ∨ 5 ≤ k

instance (fs : FileSystem) (path : String) (k : Nat) : Decidable (CrashSurvivable fs path k) :=
  inferInstanceAs (Decidable (_ ∨ _))

section Protocol

variable {fs : FileSystem} {path : String} {bytes : Bytes} {k : Nat}

/-- Retiring the ledger leaves its contents in an empty {lit}`.prev`. -/
theorem read_retireCurrent (hprev : fs.read (prevPath path) = none) :
    (retireCurrent path fs).read path = none ∧
      (retireCurrent path fs).read (prevPath path) = fs.read path ∧
      (retireCurrent path fs).read (nextPath path) = fs.read (nextPath path) := by
  cases hcur : fs.read path with
  | none => simp [retireCurrent, holds, hcur, hprev]
  | some old => simp [retireCurrent, holds, hcur, rename_of_read hcur]

/-- The first two steps touch neither the ledger nor {lit}`.prev`. -/
theorem read_crashAt_of_le_two (hk : k ≤ 2) :
    (crashAt k (commitSteps path bytes) fs).read path = fs.read path ∧
      (crashAt k (commitSteps path bytes) fs).read (prevPath path) =
        fs.read (prevPath path) := by
  obtain rfl | rfl | rfl : k = 0 ∨ k = 1 ∨ k = 2 := by omega
  all_goals simp [crashAt, runSteps, commitSteps, stagingSteps]

theorem read_crashAt_three :
    (crashAt 3 (commitSteps path bytes) fs).read path = fs.read path ∧
      (crashAt 3 (commitSteps path bytes) fs).read (prevPath path) = none := by
  simp [crashAt, runSteps, commitSteps, stagingSteps]

theorem read_staged :
    (runSteps (stagingSteps path bytes) fs).read path = none ∧
      (runSteps (stagingSteps path bytes) fs).read (prevPath path) = fs.read path ∧
      (runSteps (stagingSteps path bytes) fs).read (nextPath path) = some bytes := by
  simp only [runSteps, stagingSteps, List.foldl_cons, List.foldl_nil]
  have hempty : (((fs.removeIfPresent (nextPath path)).write (nextPath path) bytes).removeIfPresent
      (prevPath path)).read (prevPath path) = none := read_removeIfPresent_self
  simpa using read_retireCurrent hempty

theorem crashAt_four :
    crashAt 4 (commitSteps path bytes) fs = runSteps (stagingSteps path bytes) fs :=
  rfl

/-- The staged file is always there, so the last step cannot fail. -/
theorem commitAtomic_eq :
    commitAtomic fs path bytes = (.ok (), crashAt 5 (commitSteps path bytes) fs) ∧
      durable (crashAt 5 (commitSteps path bytes) fs) path = some bytes := by
  have hrun : crashAt 5 (commitSteps path bytes) fs =
      (publish path (runSteps (stagingSteps path bytes) fs)).2 := rfl
  have hpub : publish path (runSteps (stagingSteps path bytes) fs) =
      (.ok (), ((runSteps (stagingSteps path bytes) fs).remove (nextPath path)).write path
        bytes) := by
    simp [publish, rename_of_read read_staged.2.2]
  refine ⟨?_, ?_⟩
  · rw [commitAtomic, hrun, hpub]
  · simp [hrun, hpub, durable]

theorem crashAt_of_five_le (hk : 5 ≤ k) :
    crashAt k (commitSteps path bytes) fs = crashAt 5 (commitSteps path bytes) fs := by
  have hlen : (commitSteps path bytes).length = 5 := rfl
  rw [crashAt_of_length_le (hlen ▸ hk), crashAt_of_length_le hlen.le]

/-- A commit stopped at a survivable point leaves the old contents or the new. -/
theorem durable_crashAt (h : CrashSurvivable fs path k) :
    durable (crashAt k (commitSteps path bytes) fs) path =
      if k < 5 then durable fs path else some bytes := by
  obtain hk | rfl | rfl | hk : k ≤ 2 ∨ k = 3 ∨ k = 4 ∨ 5 ≤ k := by omega
  · rw [if_pos (by omega), durable, (read_crashAt_of_le_two hk).1, (read_crashAt_of_le_two hk).2,
      durable]
  · -- without {lit}`.prev` the ledger itself must still be there
    rw [if_pos (by omega), durable, read_crashAt_three.1, read_crashAt_three.2, durable]
    cases hcur : fs.read path <;> cases hprev : fs.read (prevPath path) <;>
      simp_all [CrashSurvivable, holds]
  · rw [if_pos (by omega), crashAt_four, durable, read_staged.1, read_staged.2.1, durable]
    cases hcur : fs.read path <;> cases hprev : fs.read (prevPath path) <;>
      simp_all [CrashSurvivable, holds]
  · rw [if_neg (by omega), crashAt_of_five_le hk, commitAtomic_eq.2]

/-- Every other crash leaves neither the ledger nor {lit}`.prev`. -/
theorem durable_crashAt_of_lost (h : ¬ CrashSurvivable fs path k) :
    durable (crashAt k (commitSteps path bytes) fs) path = none := by
  simp only [CrashSurvivable, holds, not_or, Bool.not_eq_true, Option.isSome_eq_false_iff,
    Option.isNone_iff_eq_none] at h
  obtain ⟨hcur, -, hlow, hhigh⟩ := h
  obtain rfl | rfl : k = 3 ∨ k = 4 := by omega
  · rw [durable, read_crashAt_three.1, read_crashAt_three.2, hcur, Option.or_none]
  · rw [crashAt_four, durable, read_staged.1, read_staged.2.1, hcur, Option.or_none]

end Protocol

/-! ## Ledger calls -/

section Calls

variable [Crypto]

namespace WorkerBudgetLedgerV1

/-- The ledger of a file. -/
def load (fs : FileSystem) (path : String) (expectedNetworkId : UInt32) :
    Except LedgerError WorkerBudgetLedgerV1 := do
  let bytes ← okOr (fs.read path) .io
  let value ← decode bytes
  reject (value.networkId ≠ expectedNetworkId) .networkMismatch
  .ok value

/-- The ledger, or the one before it. -/
def loadRecover (fs : FileSystem) (path : String) (expectedNetworkId : UInt32) :
    Except LedgerError WorkerBudgetLedgerV1 :=
  match load fs path expectedNetworkId with
  | .ok v => .ok v
  | .error primaryError =>
    if fs.holds (prevPath path) then load fs (prevPath path) expectedNetworkId
    else .error primaryError

/-- The bytes of the empty ledger that a first opening commits. -/
def emptyBytes (networkId : UInt32) : Except LedgerError Bytes := (empty networkId).encode

/-- The ledger, or a new one. -/
def openOrCreate (fs : FileSystem) (path : String) (networkId : UInt32) :
    Except LedgerError WorkerBudgetLedgerV1 × FileSystem :=
  if fs.holds path || fs.holds (prevPath path) then
    (loadRecover fs path networkId, fs)
  else
    match emptyBytes networkId with
    | .error e => (.error e, fs)
    | .ok bytes =>
      match commitAtomic fs path bytes with
      | (.error e, fs') => (.error e, fs')
      | (.ok _, fs') => (.ok (empty networkId), fs')

/-- The checks and the new ledger of a reservation, before anything is written. -/
def reserveCandidate (l : WorkerBudgetLedgerV1) (record : LedgerRecordV1) :
    Except LedgerError (Bool × WorkerBudgetLedgerV1 × Bytes) := do
  record.validate l.networkId
  reject (l.assignmentSeen record.assignmentId) .replay
  let wasNewUniqueTicket := !l.ticketSeen record.ticketKey
  reject (2 ^ 64 ≤ l.generation.toNat + 1) (.format "ledger generation overflow")
  let candidate := { l with generation := l.generation + 1, records := l.records ++ [record] }
  let bytes ← candidate.encode
  .ok (wasNewUniqueTicket, candidate, bytes)

/-- A ticket is reserved and written. -/
def reserveAndPersist (l : WorkerBudgetLedgerV1) (fs : FileSystem) (path : String)
    (record : LedgerRecordV1) : Except LedgerError Bool × WorkerBudgetLedgerV1 × FileSystem :=
  match l.reserveCandidate record with
  | .error e => (.error e, l, fs)
  | .ok (wasNewUniqueTicket, candidate, bytes) =>
    match commitAtomic fs path bytes with
    | (.error e, fs') => (.error e, l, fs')
    | (.ok _, fs') => (.ok wasNewUniqueTicket, candidate, fs')

/-- Give the first record of an assignment a new status. -/
def setStatus (assignmentId : Bytes32) (newStatus : UInt8) :
    List LedgerRecordV1 → Option (List LedgerRecordV1)
  | [] => none
  | r :: rs =>
    if r.assignmentId = assignmentId then some ({ r with status := newStatus } :: rs)
    else (setStatus assignmentId newStatus rs).map (r :: ·)

/-- The checks and the new ledger of a status update, before anything is written. -/
def updateStatusCandidate (l : WorkerBudgetLedgerV1) (assignmentId : Bytes32)
    (newStatus : UInt8) : Except LedgerError (WorkerBudgetLedgerV1 × Bytes) := do
  reject (newStatus ∉ knownStatuses) (.format "unknown status transition")
  let records ← okOr (setStatus assignmentId newStatus l.records) .assignmentNotFound
  reject (2 ^ 64 ≤ l.generation.toNat + 1) (.format "ledger generation overflow")
  let candidate := { l with generation := l.generation + 1, records := records }
  let bytes ← candidate.encode
  .ok (candidate, bytes)

/-- A status is set and written. -/
def updateStatusAndPersist (l : WorkerBudgetLedgerV1) (fs : FileSystem) (path : String)
    (assignmentId : Bytes32) (newStatus : UInt8) :
    Except LedgerError Unit × WorkerBudgetLedgerV1 × FileSystem :=
  match l.updateStatusCandidate assignmentId newStatus with
  | .error e => (.error e, l, fs)
  | .ok (candidate, bytes) =>
    match commitAtomic fs path bytes with
    | (.error e, fs') => (.error e, l, fs')
    | (.ok _, fs') => (.ok (), candidate, fs')

/-- The ledger still accounts for a reservation: its record is there, under
whatever status it has reached. -/
def Accounts (l : WorkerBudgetLedgerV1) (r : LedgerRecordV1) : Prop :=
  ∃ r' ∈ l.records, { r' with status := r.status } = r

variable {l : WorkerBudgetLedgerV1} {r : LedgerRecordV1}

omit [Crypto] in
theorem Accounts.ticketSeen (h : l.Accounts r) :
    l.ticketSeen r.ticketKey = true := by
  obtain ⟨r', hmem, hr⟩ := h
  simp only [WorkerBudgetLedgerV1.ticketSeen, List.any_eq_true, beq_iff_eq]
  have hkey := congrArg LedgerRecordV1.ticketKey hr
  exact ⟨r', hmem, hkey⟩

variable {candidate : WorkerBudgetLedgerV1} {bytes : Bytes}

/-- A reservation appends its record and keeps every other. -/
theorem reserveCandidate_spec {record : LedgerRecordV1} {wasNew : Bool}
    (h : l.reserveCandidate record = .ok (wasNew, candidate, bytes)) :
    candidate.encode = .ok bytes ∧ candidate.networkId = l.networkId ∧
      candidate.Accounts record ∧ (∀ r, l.Accounts r → candidate.Accounts r) ∧
      (wasNew = true → l.ticketSeen record.ticketKey = false) := by
  simp only [reserveCandidate, ok_rules, Prod.mk.injEq] at h
  obtain ⟨_, -, _, -, _, -, _, hbytes, rfl, rfl, rfl⟩ := h
  refine ⟨hbytes, rfl, ⟨record, by simp, rfl⟩, ?_, by simp⟩
  rintro r ⟨r', hmem, hr⟩
  exact ⟨r', by simp [hmem], hr⟩

variable {assignmentId : Bytes32} {newStatus : UInt8}

omit [Crypto] in
theorem accounts_setStatus :
    ∀ {rs rs' : List LedgerRecordV1}, setStatus assignmentId newStatus rs = some rs' →
      (∃ r' ∈ rs, { r' with status := r.status } = r) →
        ∃ r' ∈ rs', { r' with status := r.status } = r
  | [], _, h, _ => by simp [setStatus] at h
  | x :: xs, rs', h, ⟨r', hmem, hr⟩ => by
      unfold setStatus at h
      split at h
      · obtain rfl := Option.some.inj h
        rcases List.mem_cons.mp hmem with rfl | hmem
        · exact ⟨_, List.mem_cons_self, hr⟩
        · exact ⟨r', List.mem_cons_of_mem _ hmem, hr⟩
      · obtain ⟨xs', hxs, rfl⟩ := Option.map_eq_some_iff.mp h
        rcases List.mem_cons.mp hmem with rfl | hmem
        · exact ⟨r', List.mem_cons_self, hr⟩
        · obtain ⟨r'', hmem', hr'⟩ := accounts_setStatus hxs ⟨r', hmem, hr⟩
          exact ⟨r'', List.mem_cons_of_mem _ hmem', hr'⟩

/-- A status update keeps every record but for its status. -/
theorem updateStatusCandidate_spec
    (h : l.updateStatusCandidate assignmentId newStatus = .ok (candidate, bytes)) :
    candidate.encode = .ok bytes ∧ candidate.networkId = l.networkId ∧
      ∀ r, l.Accounts r → candidate.Accounts r := by
  simp only [updateStatusCandidate, ok_rules, Prod.mk.injEq] at h
  obtain ⟨_, -, records, hset, _, -, _, hbytes, rfl, rfl⟩ := h
  exact ⟨hbytes, rfl, fun r hr => accounts_setStatus hset hr⟩

variable {fs : FileSystem} {path : String}

theorem load_of_read (hread : fs.read path = some bytes) (hbytes : l.encode = .ok bytes) :
    load fs path l.networkId = .ok l := by
  simp [load, okOr, hread, decode_encode hbytes, reject]

/-- Opening finds the durable contents. -/
theorem openOrCreate_of_durable (hdurable : durable fs path = some bytes)
    (hbytes : l.encode = .ok bytes) :
    openOrCreate fs path l.networkId = (.ok l, fs) := by
  unfold openOrCreate loadRecover
  cases hcur : fs.read path with
  | some current =>
    have : current = bytes := by simpa [durable, hcur] using hdurable
    simp [holds, hcur, load_of_read (this ▸ hcur) hbytes]
  | none =>
    have hprev : fs.read (prevPath path) = some bytes := by simpa [durable, hcur] using hdurable
    have hmissing : load fs path l.networkId = .error .io := by simp [load, okOr, hcur]
    simp [holds, hcur, hprev, hmissing, load_of_read hprev hbytes]

theorem empty_encode (networkId : UInt32) : ∃ bytes, (empty networkId).encode = .ok bytes := by
  simp [encode, empty, encodeRecords, reject]

/-- Opening without durable contents starts an empty ledger. -/
theorem openOrCreate_of_fresh {networkId : UInt32} (hdurable : durable fs path = none)
    (hbytes : (empty networkId).encode = .ok bytes) :
    openOrCreate fs path networkId =
      (.ok (empty networkId), crashAt 5 (commitSteps path bytes) fs) := by
  obtain ⟨hcur, hprev⟩ := Option.or_eq_none_iff.mp hdurable
  simp [openOrCreate, holds, hcur, hprev, emptyBytes, hbytes, commitAtomic_eq.1]

end WorkerBudgetLedgerV1

end Calls

/-! ## Runs with crashes and restarts -/

/-- The disk, the ledger of the running process if there is one, and what the
process has told its callers so far. -/
structure LedgerWorld where
  files : FileSystem
  memory : Option WorkerBudgetLedgerV1
  /-- Records whose reservation returned successfully. -/
  reserved : List LedgerRecordV1
  /-- Ticket keys a reservation reported as new. -/
  reportedNew : List Bytes32

/-- A call of the process. -/
inductive LedgerCall where
  | openOrCreate
  | reserve (record : LedgerRecordV1)
  | updateStatus (assignmentId : Bytes32) (newStatus : UInt8)
deriving DecidableEq, Repr

/-- What happens to the process: a call that returns, a call that is stopped after
some steps of its commit, or a stop between calls. -/
inductive LedgerEvent where
  | call (c : LedgerCall)
  | crashIn (c : LedgerCall) (k : Nat)
  | crash
deriving DecidableEq, Repr

namespace LedgerWorld

/-- Nothing is loaded. -/
def start (files : FileSystem) : LedgerWorld where
  files := files
  memory := none
  reserved := []
  reportedNew := []

variable [Crypto]

/-- The bytes a call commits, if it gets as far as a commit. -/
def commits (path : String) (networkId : UInt32) (w : LedgerWorld) : LedgerCall → Option Bytes
  | .openOrCreate =>
    if w.files.holds path || w.files.holds (prevPath path) then none
    else (WorkerBudgetLedgerV1.emptyBytes networkId).toOption
  | .reserve record =>
    w.memory.bind fun l => (l.reserveCandidate record).toOption.map fun c => c.2.2
  | .updateStatus assignmentId newStatus =>
    w.memory.bind fun l =>
      (l.updateStatusCandidate assignmentId newStatus).toOption.map fun c => c.2

/-- A call that returns.  Opening is for a process without a ledger, the other
calls for a process with one. -/
def perform (path : String) (networkId : UInt32) (w : LedgerWorld) : LedgerCall → LedgerWorld
  | .openOrCreate =>
    match w.memory with
    | some _ => w
    | none =>
      match WorkerBudgetLedgerV1.openOrCreate w.files path networkId with
      | (.ok l, fs) => { w with files := fs, memory := some l }
      | (.error _, fs) => { w with files := fs }
  | .reserve record =>
    match w.memory with
    | none => w
    | some l =>
      match l.reserveAndPersist w.files path record with
      | (.ok wasNew, l', fs) =>
        { files := fs
          memory := some l'
          reserved := record :: w.reserved
          reportedNew :=
            if wasNew then record.ticketKey :: w.reportedNew else w.reportedNew }
      | (.error _, l', fs) => { w with files := fs, memory := some l' }
  | .updateStatus assignmentId newStatus =>
    match w.memory with
    | none => w
    | some l =>
      match l.updateStatusAndPersist w.files path assignmentId newStatus with
      | (_, l', fs) => { w with files := fs, memory := some l' }

/-- A call, whole or cut short. -/
def step (path : String) (networkId : UInt32) (w : LedgerWorld) : LedgerEvent → LedgerWorld
  | .call c => w.perform path networkId c
  | .crashIn c k =>
    match w.commits path networkId c with
    | some bytes =>
      { w with files := crashAt k (commitSteps path bytes) w.files, memory := none }
    | none => { w with memory := none }
  | .crash => { w with memory := none }

/-- One event after the other. -/
def run (path : String) (networkId : UInt32) (w : LedgerWorld) (events : List LedgerEvent) :
    LedgerWorld :=
  events.foldl (step path networkId) w

/-- A crash inside a commit is survivable where it happens. -/
def EventSurvivable (path : String) (networkId : UInt32) (w : LedgerWorld) : LedgerEvent → Prop
  | .crashIn c k => (w.commits path networkId c).isSome → CrashSurvivable w.files path k
  | _ => True

/-- Every crash of a run is survivable where it happens. -/
def RunSurvivable (path : String) (networkId : UInt32) : LedgerWorld → List LedgerEvent → Prop
  | _, [] => True
  | w, e :: es =>
    EventSurvivable path networkId w e ∧ RunSurvivable path networkId (step path networkId w e) es

/-- The disk holds a ledger that accounts for everything acknowledged, and the
process, if it runs, works on that ledger. -/
structure Consistent (path : String) (networkId : UInt32) (w : LedgerWorld) : Prop where
  fresh : durable w.files path = none → w.memory = none ∧ w.reserved = []
  held : ∀ bytes, durable w.files path = some bytes →
    ∃ l : WorkerBudgetLedgerV1, l.encode = .ok bytes ∧ l.networkId = networkId ∧
      (∀ m, w.memory = some m → m = l) ∧ ∀ r ∈ w.reserved, l.Accounts r
  reported : ∀ key ∈ w.reportedNew, ∃ r ∈ w.reserved, r.ticketKey = key
  once : w.reportedNew.Nodup

section Invariant

variable {path : String} {networkId : UInt32} {w : LedgerWorld}

theorem consistent_start {files : FileSystem} (hfresh : durable files path = none) :
    Consistent path networkId (start files) where
  fresh _ := ⟨rfl, rfl⟩
  held bytes h := by simp [start, hfresh] at h
  reported _ h := by simp [start] at h
  once := List.nodup_nil

variable {l : WorkerBudgetLedgerV1}

/-- A completed commit of a ledger that accounts for all reservations. -/
theorem consistent_of_commit {bytes : Bytes} (hdurable : durable w.files path = some bytes)
    (hbytes : l.encode = .ok bytes) (hnet : l.networkId = networkId)
    (hmem : ∀ m, w.memory = some m → m = l) (hacc : ∀ r ∈ w.reserved, l.Accounts r)
    (hreported : ∀ key ∈ w.reportedNew, ∃ r ∈ w.reserved, r.ticketKey = key)
    (honce : w.reportedNew.Nodup) : Consistent path networkId w where
  fresh h := by simp [hdurable] at h
  held bytes' h := by
    obtain rfl : bytes = bytes' := Option.some.inj (hdurable.symm.trans h)
    exact ⟨l, hbytes, hnet, hmem, hacc⟩
  reported := hreported
  once := honce

section Steps

variable (hw : Consistent path networkId w)

include hw

/-- The ledger in memory is the one on disk. -/
theorem Consistent.memory_held (hl : w.memory = some l) :
    ∃ bytes, durable w.files path = some bytes ∧ l.encode = .ok bytes ∧
      l.networkId = networkId ∧ ∀ r ∈ w.reserved, l.Accounts r := by
  cases hdurable : durable w.files path with
  | none => simp [(hw.fresh hdurable).1] at hl
  | some bytes =>
    obtain ⟨l', hbytes, hnet, hmem, hacc⟩ := hw.held bytes hdurable
    obtain rfl := hmem l hl
    exact ⟨bytes, rfl, hbytes, hnet, hacc⟩

/-- Losing the process keeps the disk consistent. -/
theorem Consistent.crash :
    Consistent path networkId { w with memory := none } where
  fresh h := ⟨rfl, (hw.fresh h).2⟩
  held bytes h := by
    obtain ⟨l, hbytes, hnet, -, hacc⟩ := hw.held bytes h
    exact ⟨l, hbytes, hnet, by simp, hacc⟩
  reported := hw.reported
  once := hw.once

/-- Whatever a call commits is a ledger that accounts for all reservations. -/
theorem Consistent.commits_spec {c : LedgerCall}
    {bytes : Bytes} (h : w.commits path networkId c = some bytes) :
    ∃ l : WorkerBudgetLedgerV1, l.encode = .ok bytes ∧ l.networkId = networkId ∧
      ∀ r ∈ w.reserved, l.Accounts r := by
  cases c with
  | openOrCreate =>
    simp only [commits, holds, Bool.or_eq_true, Option.isSome_iff_ne_none, ne_eq] at h
    split at h
    · cases h
    · rename_i habsent
      have hnone : durable w.files path = none := by
        rw [not_or, not_not, not_not] at habsent
        rw [durable, habsent.1, habsent.2, Option.or_none]
      refine ⟨.empty networkId, toOption_eq_some.mp h, rfl, ?_⟩
      simp [(hw.fresh hnone).2]
  | reserve record =>
    simp only [commits, Option.bind_eq_some_iff, Option.map_eq_some_iff] at h
    obtain ⟨l, hl, ⟨wasNew, l', bytes'⟩, hcand, rfl⟩ := h
    obtain ⟨_, -, -, rfl, hacc⟩ := hw.memory_held hl
    obtain ⟨hbytes, hnet, -, hkeep, -⟩ :=
      WorkerBudgetLedgerV1.reserveCandidate_spec (toOption_eq_some.mp hcand)
    exact ⟨l', hbytes, hnet, fun r hr => hkeep r (hacc r hr)⟩
  | updateStatus assignmentId newStatus =>
    simp only [commits, Option.bind_eq_some_iff, Option.map_eq_some_iff] at h
    obtain ⟨l, hl, ⟨l', bytes'⟩, hcand, rfl⟩ := h
    obtain ⟨_, -, -, rfl, hacc⟩ := hw.memory_held hl
    obtain ⟨hbytes, hnet, hkeep⟩ :=
      WorkerBudgetLedgerV1.updateStatusCandidate_spec (toOption_eq_some.mp hcand)
    exact ⟨l', hbytes, hnet, fun r hr => hkeep r (hacc r hr)⟩

/-- A survivable crash inside a commit keeps the disk consistent. -/
theorem Consistent.crashIn {c : LedgerCall} {k : Nat}
    (hsafe : EventSurvivable path networkId w (.crashIn c k)) :
    Consistent path networkId (step path networkId w (.crashIn c k)) := by
  cases hcommit : w.commits path networkId c with
  | none => simpa only [step, hcommit] using hw.crash
  | some bytes =>
    have hdurable : durable (crashAt k (commitSteps path bytes) w.files) path =
        if k < 5 then durable w.files path else some bytes :=
      durable_crashAt (hsafe (by simp [hcommit]))
    simp only [step, hcommit]
    obtain ⟨l, hbytes, hnet, hacc⟩ := hw.commits_spec hcommit
    by_cases hk : k < 5
    · -- the durable contents are the old ones
      rw [if_pos hk] at hdurable
      exact ⟨fun h => ⟨rfl, (hw.fresh (hdurable ▸ h)).2⟩,
        fun b h => hw.crash.held b (hdurable ▸ h), hw.reported, hw.once⟩
    · rw [if_neg hk] at hdurable
      exact consistent_of_commit hdurable hbytes hnet (by simp) hacc hw.reported hw.once

theorem Consistent.openOrCreate :
    Consistent path networkId (w.perform path networkId .openOrCreate) := by
  cases hmem : w.memory with
  | some l => simpa only [perform, hmem] using hw
  | none =>
    simp only [perform, hmem]
    cases hdurable : durable w.files path with
    | none =>
      obtain ⟨bytes, hbytes⟩ := WorkerBudgetLedgerV1.empty_encode networkId
      rw [WorkerBudgetLedgerV1.openOrCreate_of_fresh hdurable hbytes]
      exact consistent_of_commit commitAtomic_eq.2 hbytes rfl (by simp)
        (by simp [(hw.fresh hdurable).2]) hw.reported hw.once
    | some bytes =>
      obtain ⟨l, hbytes, rfl, -, hacc⟩ := hw.held bytes hdurable
      rw [WorkerBudgetLedgerV1.openOrCreate_of_durable hdurable hbytes]
      exact consistent_of_commit hdurable hbytes rfl (by simp) hacc hw.reported hw.once

theorem Consistent.reserve (record : LedgerRecordV1) :
    Consistent path networkId (w.perform path networkId (.reserve record)) := by
  cases hmem : w.memory with
  | none => simpa only [perform, hmem] using hw
  | some l =>
    obtain ⟨_, hdurable, hold, rfl, hacc⟩ := hw.memory_held hmem
    simp only [perform, hmem, WorkerBudgetLedgerV1.reserveAndPersist]
    cases hcand : l.reserveCandidate record with
    | error e => simpa only [← hmem] using hw
    | ok result =>
      obtain ⟨wasNew, l', bytes⟩ := result
      obtain ⟨hbytes, hnet, hself, hkeep, hnew⟩ :=
        WorkerBudgetLedgerV1.reserveCandidate_spec hcand
      simp only [commitAtomic_eq.1]
      refine consistent_of_commit commitAtomic_eq.2 hbytes hnet (by simp) ?_ ?_ ?_
      · simpa using ⟨hself, fun r hr => hkeep r (hacc r hr)⟩
      · intro key hkey
        by_cases hn : wasNew = true
        · rcases List.mem_cons.mp (by simpa [hn] using hkey) with rfl | hkey
          · exact ⟨record, List.mem_cons_self, rfl⟩
          · obtain ⟨r, hr, hrkey⟩ := hw.reported key hkey
            exact ⟨r, List.mem_cons_of_mem _ hr, hrkey⟩
        · obtain ⟨r, hr, hrkey⟩ := hw.reported key (by simpa [hn] using hkey)
          exact ⟨r, List.mem_cons_of_mem _ hr, hrkey⟩
      · by_cases hn : wasNew = true
        · -- a key already reported belongs to a record the ledger accounts for
          have hfresh : record.ticketKey ∉ w.reportedNew := by
            intro hkey
            obtain ⟨r, hr, hrkey⟩ := hw.reported _ hkey
            have hseen := (hacc r hr).ticketSeen
            rw [hrkey, hnew hn] at hseen
            cases hseen
          simpa [hn] using ⟨hfresh, hw.once⟩
        · simpa [hn] using hw.once

theorem Consistent.updateStatus (assignmentId : Bytes32)
    (newStatus : UInt8) :
    Consistent path networkId (w.perform path networkId (.updateStatus assignmentId newStatus)) := by
  cases hmem : w.memory with
  | none => simpa only [perform, hmem] using hw
  | some l =>
    obtain ⟨_, hdurable, hold, rfl, hacc⟩ := hw.memory_held hmem
    simp only [perform, hmem, WorkerBudgetLedgerV1.updateStatusAndPersist]
    cases hcand : l.updateStatusCandidate assignmentId newStatus with
    | error e => simpa only [← hmem] using hw
    | ok result =>
      obtain ⟨l', bytes⟩ := result
      obtain ⟨hbytes, hnet, hkeep⟩ := WorkerBudgetLedgerV1.updateStatusCandidate_spec hcand
      simp only [commitAtomic_eq.1]
      exact consistent_of_commit commitAtomic_eq.2 hbytes hnet (by simp)
        (fun r hr => hkeep r (hacc r hr)) hw.reported hw.once

theorem Consistent.step {e : LedgerEvent}
    (hsafe : EventSurvivable path networkId w e) :
    Consistent path networkId (step path networkId w e) := by
  cases e with
  | crash => exact hw.crash
  | crashIn c k => exact hw.crashIn hsafe
  | call c =>
    cases c with
    | openOrCreate => exact hw.openOrCreate
    | reserve record => exact hw.reserve record
    | updateStatus assignmentId newStatus => exact hw.updateStatus assignmentId newStatus

end Steps

theorem Consistent.run {events : List LedgerEvent} (hw : Consistent path networkId w)
    (hsafe : RunSurvivable path networkId w events) :
    Consistent path networkId (run path networkId w events) := by
  induction events generalizing w with
  | nil => exact hw
  | cons e es ih => exact ih (hw.step hsafe.1) hsafe.2

end Invariant

/-- Over every run from an empty disk whose crashes are survivable, reopening the
ledger succeeds, every acknowledged reservation is still accounted for, and no
ticket key has been reported as new twice. -/
theorem reservations_survive {path : String} {networkId : UInt32} {files : FileSystem}
    {events : List LedgerEvent} (hfresh : durable files path = none)
    (hsafe : RunSurvivable path networkId (start files) events) :
    (∃ l, (WorkerBudgetLedgerV1.openOrCreate (run path networkId (start files) events).files path
        networkId).1 = .ok l ∧
      ∀ r ∈ (run path networkId (start files) events).reserved, l.Accounts r) ∧
    (run path networkId (start files) events).reportedNew.Nodup := by
  have hw := (consistent_start hfresh).run hsafe
  refine ⟨?_, hw.once⟩
  cases hdurable : durable (run path networkId (start files) events).files path with
  | none =>
    obtain ⟨bytes, hbytes⟩ := WorkerBudgetLedgerV1.empty_encode networkId
    rw [WorkerBudgetLedgerV1.openOrCreate_of_fresh hdurable hbytes]
    exact ⟨_, rfl, by simp [(hw.fresh hdurable).2]⟩
  | some bytes =>
    obtain ⟨l, hbytes, rfl, -, hacc⟩ := hw.held bytes hdurable
    rw [WorkerBudgetLedgerV1.openOrCreate_of_durable hdurable hbytes]
    exact ⟨l, rfl, hacc⟩

/-- Over every such run the ledger a process works on is the durable one; its records are
valid, no two are of one assignment, and it accounts for every acknowledged reservation. -/
theorem ledger_written_through {path : String} {networkId : UInt32} {files : FileSystem}
    {events : List LedgerEvent} {l : WorkerBudgetLedgerV1} (hfresh : durable files path = none)
    (hsafe : RunSurvivable path networkId (start files) events)
    (hl : (run path networkId (start files) events).memory = some l) :
    (∃ bytes, durable (run path networkId (start files) events).files path = some bytes ∧
      WorkerBudgetLedgerV1.decode bytes = .ok l) ∧
    (∀ r ∈ l.records, r.validate networkId = .ok ()) ∧ (l.records.map (·.assignmentId)).Nodup ∧
    ∀ r ∈ (run path networkId (start files) events).reserved, l.Accounts r := by
  rcases ((consistent_start hfresh).run hsafe).memory_held hl with
    ⟨bytes, hdurable, hbytes, rfl, hacc⟩
  have hwritten := hbytes
  simp only [WorkerBudgetLedgerV1.encode, bind_eq_ok] at hwritten
  rcases hwritten with ⟨_, -, _, hrecords, -⟩
  rcases WorkerBudgetLedgerV1.valid_of_encodeRecords hrecords with ⟨hvalid, -, hdistinct⟩
  exact ⟨⟨bytes, hdurable, WorkerBudgetLedgerV1.decode_encode hbytes⟩, hvalid, hdistinct, hacc⟩

end LedgerWorld

/-! ## A second crash from the half-renamed layout -/

section SecondCrash

attribute [local instance] sampleCrypto

/-- A valid record of one ticket, under a given assignment. -/
def sampleRecord (ticketIndex : UInt16) (assignmentId : Bytes32) : LedgerRecordV1 where
  ticketKey := ticketKey 0x4D555403 17 100 34 ticketIndex
  parentBlockHash := 17
  targetEpoch := 100
  licenseId := 34
  ticketIndex := ticketIndex
  workUnitsForEpoch := 2
  workerId := 51
  sessionId := 68
  assignmentId := assignmentId
  assignmentSequence := 1
  status := statusReserved

/-- A first reservation is acknowledged; the second is stopped once after the ledger
has moved to {lit}`.prev` and again, after the restart, when {lit}`.prev` has been
dropped. -/
def twoCrashes : List LedgerEvent :=
  [.call .openOrCreate, .call (.reserve (sampleRecord 0 1)),
    .crashIn (.reserve (sampleRecord 1 2)) 4, .call .openOrCreate,
    .crashIn (.reserve (sampleRecord 1 2)) 3]

/-- After the two crashes the acknowledged record is gone, and its ticket is reported
as new again. -/
theorem second_crash_loses_reservation :
    (LedgerWorld.run "ledger" 0x4D555403 (.start fun _ => none) twoCrashes).reserved =
        [sampleRecord 0 1] ∧
      (WorkerBudgetLedgerV1.openOrCreate
        (LedgerWorld.run "ledger" 0x4D555403 (.start fun _ => none) twoCrashes).files "ledger"
        0x4D555403).1 = .ok (.empty 0x4D555403) ∧
      (LedgerWorld.run "ledger" 0x4D555403 (.start fun _ => none)
        (twoCrashes ++ [.call .openOrCreate, .call (.reserve (sampleRecord 0 1))])).reportedNew =
        [(sampleRecord 0 1).ticketKey, (sampleRecord 0 1).ticketKey] := by
  decide +kernel

/-- A single crash, in a commit that found the ledger in place, meets the condition. -/
theorem survivable_twoCrashes_take : LedgerWorld.RunSurvivable "ledger" 0x4D555403
    (.start fun _ => none) (twoCrashes.take 4) := by
  refine ⟨trivial, trivial, fun _ => ?_, trivial, trivial⟩
  decide +kernel

theorem reservations_survive_ordinary_crash :
    durable (fun _ => none) "ledger" = none ∧
      LedgerWorld.RunSurvivable "ledger" 0x4D555403 (.start fun _ => none)
        (twoCrashes.take 4) ∧
      (LedgerWorld.run "ledger" 0x4D555403 (.start fun _ => none)
        (twoCrashes.take 4)).reportedNew.Nodup :=
  ⟨rfl, survivable_twoCrashes_take,
    (LedgerWorld.reservations_survive rfl survivable_twoCrashes_take).2⟩

theorem ledger_written_through_crash :
    ∃ l bytes, durable (LedgerWorld.run "ledger" 0x4D555403 (.start fun _ => none)
      (twoCrashes.take 4)).files "ledger" = some bytes ∧
      WorkerBudgetLedgerV1.decode bytes = .ok l ∧ l.records ≠ [] := by
  have hheld : (LedgerWorld.run "ledger" 0x4D555403 (.start fun _ => none)
      (twoCrashes.take 4)).memory.any (fun l => decide (l.records ≠ [])) = true := by
    decide +kernel
  rcases (Option.any_eq_true _ _).mp hheld with ⟨l, hl, hsome⟩
  rcases LedgerWorld.ledger_written_through rfl survivable_twoCrashes_take hl with ⟨⟨bytes, hdurable, hdecode⟩, -⟩
  exact ⟨l, bytes, hdurable, hdecode, of_decide_eq_true hsome⟩

end SecondCrash

end Mutiny
