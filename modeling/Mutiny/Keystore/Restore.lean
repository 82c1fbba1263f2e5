import Mutiny.Keystore.WalletFiles
import Mutiny.Lib.FaultyDisk
import Mutiny.Protocol.Operations

/-!
# Restoring a wallet backup

The restore command checks a backup, refuses to start when one of its key files exists,
and then publishes the files one after the other: each is written under a temporary name,
linked to its own name, and the temporary name is removed.  When a file cannot be
published, those published before it are removed again.

Main result:

- Theorem {lit}`restore_all_or_nothing`: exactly when a restore is all-or-nothing.
-/

namespace Mutiny
namespace Keystore

open Result Slice Disk

/-! ## Publishing one file -/

/-- Where a file is kept. -/
structure Location where
  dir : String
  file : String
deriving DecidableEq, Repr

namespace Location

/-- The path of a file. -/
def path (t : Location) : String := t.dir ++ "/" ++ t.file

/-- The name a file has while it is written; the suffix is drawn at random. -/
def temp (t : Location) (suffix : String) : String :=
  t.dir ++ "/" ++ ("." ++ t.file ++ "." ++ suffix ++ ".tmp")

end Location

/-- The error of the operating system, whose text does not matter here. -/
def ioFailure : KeystoreError := .io "input/output error"

/-- The operations, in this order: create the directory, create the temporary file, set its
permissions, write it, sync it, link it, remove the temporary name. -/
def writeNewFile (fault : Option Nat) (t : Location) (suffix : String) (bytes : Bytes) :
    Proc KeystoreError Unit := do
  let path := t.path
  let temp := t.temp suffix
  if ← holds path then
    fail .alreadyExists
  else
    attempt fault ioFailure .touch
    attempt fault ioFailure (.create temp)
    attempt fault ioFailure .touch
    attempt fault ioFailure (.fill temp bytes)
    attempt fault ioFailure .touch
    recover (attempt fault ioFailure (.link temp path)) fun e => do
      recover (attempt fault ioFailure (.remove temp)) fun _ => pure ()
      if ← holds path then fail .alreadyExists else fail e
    attempt fault ioFailure (.remove temp)

/-- What a publication leaves behind when nothing stands in its way. -/
inductive Published (fault : Option Nat) (d : Disk) (path temp : String) (bytes : Bytes) :
    Except KeystoreError Unit × Disk → Prop
  /-- No operation of it fails: the file is there and nothing else has changed. -/
  | done (hfault : ∀ k < 7, fault ≠ some (d.tried + k)) :
      Published fault d path temp bytes (.ok (), ⟨d.fs.write path bytes, d.tried + 7⟩)
  /-- The removal of the temporary name fails: the file is there all the same. -/
  | stranded {e : KeystoreError} {d' : Disk} (hfault : fault = some (d.tried + 6))
      (htried : d.tried + 6 < d'.tried) (hpath : d'.fs.read path = some bytes) :
      Published fault d path temp bytes (.error e, d')
  /-- An operation before that fails: only the temporary file may be there. -/
  | undone {e : KeystoreError} {d' : Disk} {k : Nat} (hk : k < 6)
      (hfault : fault = some (d.tried + k)) (htried : d.tried + k < d'.tried)
      (hsame : ∀ p, p ≠ temp → d'.fs.read p = d.fs.read p) :
      Published fault d path temp bytes (.error e, d')

/-- What one publication leaves behind, for each operation of it that may fail. -/
theorem run_writeNewFile {fault : Option Nat} {d : Disk} {t : Location} {suffix : String}
    {bytes : Bytes} (hpath : d.fs.read t.path = none) (htemp : d.fs.read (t.temp suffix) = none)
    (hne : t.path ≠ t.temp suffix) :
    Published fault d t.path (t.temp suffix) bytes ((writeNewFile fault t suffix bytes).run d) := by
  rcases d with ⟨fs, n⟩
  generalize hp : t.path = path at hpath hne ⊢
  generalize ht : t.temp suffix = temp at htemp hne ⊢
  have hfree : fs.holds path = false := by simpa [FileSystem.holds] using hpath
  rw [writeNewFile, run_bind, run_holds, andThen_ok, hp, hfree, if_neg Bool.false_ne_true, ht]
  -- the operations one by one: each is the one that fails, or takes effect
  by_cases h0 : fault = some n
  · rw [attempt_bind_failed h0]
    exact .undone (k := 0) (by omega) h0 (by simp) fun _ _ => rfl
  rw [attempt_bind_spared h0 Op.effect_touch]
  by_cases h1 : fault = some (n + 1)
  · rw [attempt_bind_failed h1]
    exact .undone (k := 1) (by omega) h1 (by simp) fun _ _ => rfl
  rw [attempt_bind_spared h1 (Op.effect_create htemp)]
  by_cases h2 : fault = some (n + 2)
  · rw [attempt_bind_failed h2]
    exact .undone (k := 2) (by omega) h2 (by simp) fun p hp => by simp [hp]
  rw [attempt_bind_spared h2 Op.effect_touch]
  by_cases h3 : fault = some (n + 3)
  · rw [attempt_bind_failed h3]
    exact .undone (k := 3) (by omega) h3 (by simp) fun p hp => by simp [hp]
  rw [attempt_bind_spared h3 Op.effect_fill]
  by_cases h4 : fault = some (n + 4)
  · rw [attempt_bind_failed h4]
    exact .undone (k := 4) (by omega) h4 (by simp) fun p hp => by simp [hp]
  rw [attempt_bind_spared h4 Op.effect_touch, run_bind]
  have hsrc : ((fs.write temp []).write temp bytes).read temp = some bytes := by simp
  have hdst : ((fs.write temp []).write temp bytes).read path = none := by simp [hne, hpath]
  generalize hwritten : (fs.write temp []).write temp bytes = written at hsrc hdst ⊢
  have hsame : ∀ p, p ≠ temp → written.read p = fs.read p := by
    intro p hp
    simp [← hwritten, hp]
  by_cases h5 : fault = some (n + 5)
  · -- the link fails, so the temporary name is removed
    have h6 : fault ≠ some (n + 6) := by simp [h5]
    have hunlinked : (written.remove temp).holds path = false := by
      simp [FileSystem.holds, hne, hdst]
    rw [recover_error _ (attempt_failed h5), run_bind,
      recover_ok _ (attempt_spared h6 (Op.effect_remove hsrc)), andThen_ok, run_bind, run_holds,
      andThen_ok, hunlinked, if_neg Bool.false_ne_true, run_fail, andThen_error]
    exact .undone (k := 5) (by omega) h5 (by simp) fun p hp => by simp [hp, hsame]
  rw [recover_ok _ (attempt_spared h5 (Op.effect_link hsrc hdst)), andThen_ok]
  by_cases h6 : fault = some (n + 6)
  · rw [attempt_failed h6]
    exact .stranded h6 (by simp) (by simp)
  have hboth : (written.write path bytes).read temp = some bytes := by simp [hne.symm, hsrc]
  rw [attempt_spared h6 (Op.effect_remove hboth)]
  have hfinal : (written.write path bytes).remove temp = fs.write path bytes := by
    refine FileSystem.ext fun q => ?_
    by_cases hq : q = temp
    · rw [hq, FileSystem.read_remove_self, FileSystem.read_write_of_ne hne.symm, htemp]
    · rw [FileSystem.read_remove_of_ne hq]
      by_cases hqp : q = path
      · rw [hqp, FileSystem.read_write_self, FileSystem.read_write_self]
      · rw [FileSystem.read_write_of_ne hqp, FileSystem.read_write_of_ne hqp, hsame q hq]
  rw [hfinal]
  refine .done fun k hk => ?_
  rcases k with _ | _ | _ | _ | _ | _ | _ | k
  all_goals first | assumption | omega

/-! ## The restore loop -/

/-- The text of a label. -/
def labelText (label : Bytes) : String := String.ofList (label.map fun b => Char.ofNat b.toNat)

/-- Where keys are kept. -/
def secretsDir (dataDir : String) : String := dataDir ++ "/secrets"

/-- The location of a key file. -/
def keyLocation (dataDir : String) (role : KeyRole) (label : Bytes) : Location where
  dir := secretsDir dataDir
  file := role.name ++ ("-" ++ (labelText label ++ ".msk"))

/-- A label is short and plain. -/
def validateKeyLabel (label : Bytes) : Except String Unit := do
  reject (label = [] ∨ 64 < label.length) "key label must contain 1..64 characters"
  reject (¬ label.all labelByte) "key label may contain only ASCII letters, digits, '-' and '_'"

/-- The file of a key. -/
def walletKeyPath (dataDir : String) (role : KeyRole) (label : Bytes) : Except String Location := do
  validateKeyLabel label
  .ok (keyLocation dataDir role label)

/-- Each entry of a backup with the location its file is restored to; none of these may be
taken. -/
def restoreTargets (dataDir : String) :
    List WalletBackupEntry → Proc String (List (WalletBackupEntry × Location))
  | [] => pure []
  | e :: es => do
    let t ← Disk.lift (walletKeyPath dataDir e.role e.label)
    if ← holds t.path then
      fail ("restore would overwrite existing encrypted " ++ e.role.name ++ " key label '" ++
        labelText e.label ++ "'")
    else
      let rest ← restoreTargets dataDir es
      pure ((e, t) :: rest)

/-- The restore loop: {lit}`i` files have been published, at the paths in {lit}`created`. -/
def restoreFiles (fault : Option Nat) (suffix : Nat → String) : Nat → List String →
    List (WalletBackupEntry × Location) → Proc String Unit
  | _, _, [] => pure ()
  | i, created, (e, t) :: rest => do
    recover (writeNewFile fault t (suffix i) e.secretFile) fun err => do
      removeAll fault ioFailure created.reverse
      fail ("restore write " ++ t.path ++ " failed: " ++ err.message ++
        "; restored files from this attempt were rolled back")
    restoreFiles fault suffix (i + 1) (created ++ [t.path]) rest

/-- The files when the given ones have been added. -/
def addFiles (fs : FileSystem) (items : List (WalletBackupEntry × Location)) : FileSystem :=
  items.foldl (fun fs item => fs.write item.2.path item.1.secretFile) fs

/-- Locations that nothing stands in the way of: they are distinct and not taken, and neither
are the temporary names. -/
structure Vacant (fs : FileSystem) (suffix : Nat → String)
    (items : List (WalletBackupEntry × Location)) : Prop where
  distinct : (items.map fun item => item.2.path).Nodup
  path_free : ∀ item ∈ items, fs.read item.2.path = none
  temp_free : ∀ item ∈ items, ∀ i, fs.read (item.2.temp (suffix i)) = none
  temp_ne : ∀ item ∈ items, ∀ i, ∀ other ∈ items, item.2.temp (suffix i) ≠ other.2.path

theorem addFiles_append (fs : FileSystem) (xs ys : List (WalletBackupEntry × Location)) :
    addFiles fs (xs ++ ys) = addFiles (addFiles fs xs) ys :=
  List.foldl_append ..

theorem read_addFiles_of_not_mem {fs : FileSystem} {items : List (WalletBackupEntry × Location)}
    {p : String} (h : ∀ item ∈ items, p ≠ item.2.path) :
    (addFiles fs items).read p = fs.read p := by
  induction items generalizing fs with
  | nil => rfl
  | cons item items ih =>
    rw [List.forall_mem_cons] at h
    rw [addFiles, List.foldl_cons]
    exact (ih h.2).trans (FileSystem.read_write_of_ne h.1)

theorem read_addFiles_of_mem {fs : FileSystem} {items : List (WalletBackupEntry × Location)}
    (hdistinct : (items.map fun item => item.2.path).Nodup) {item : WalletBackupEntry × Location}
    (h : item ∈ items) : (addFiles fs items).read item.2.path = some item.1.secretFile := by
  induction items generalizing fs with
  | nil => cases h
  | cons first items ih =>
    rw [List.map_cons, List.nodup_cons] at hdistinct
    rw [addFiles, List.foldl_cons]
    rcases List.mem_cons.mp h with rfl | hmem
    · refine (read_addFiles_of_not_mem fun other hother heq => ?_).trans
        FileSystem.read_write_self
      exact hdistinct.1 (List.mem_map.mpr ⟨other, hother, heq.symm⟩)
    · exact ih hdistinct.2 hmem

/-- What a restore leaves behind when {lit}`done` has been published before and
{lit}`rest` is to be. -/
inductive Restored (fault : Option Nat) (fs : FileSystem)
    (done rest : List (WalletBackupEntry × Location)) : Except String Unit × Disk → Prop
  | finished {d' : Disk} (hfault : ∀ j < rest.length, fault ≠ some (7 * (done.length + j) + 6))
      (hfs : d'.fs = addFiles fs (done ++ rest)) : Restored fault fs done rest (.ok (), d')
  | stranded {e : String} {d' : Disk} {j : Nat} {item : WalletBackupEntry × Location}
      (hj : j < rest.length) (hfault : fault = some (7 * (done.length + j) + 6))
      (hitem : item ∈ rest) (hleft : d'.fs.read item.2.path ≠ none) :
      Restored fault fs done rest (.error e, d')
  | undone {e : String} {d' : Disk} {temp : String}
      (hfault : ∀ j < rest.length, fault ≠ some (7 * (done.length + j) + 6))
      (hfree : fs.read temp = none) (htemp : ∀ item ∈ done ++ rest, temp ≠ item.2.path)
      (hsame : ∀ p, p ≠ temp → d'.fs.read p = fs.read p) :
      Restored fault fs done rest (.error e, d')

/-- A file that was published counts as done. -/
theorem Restored.cons {fault : Option Nat} {fs : FileSystem}
    {done rest : List (WalletBackupEntry × Location)} {item : WalletBackupEntry × Location}
    {outcome : Except String Unit × Disk} (hfirst : fault ≠ some (7 * done.length + 6))
    (h : Restored fault fs (done ++ [item]) rest outcome) :
    Restored fault fs done (item :: rest) outcome := by
  have hspared : (∀ j < rest.length, fault ≠ some (7 * ((done ++ [item]).length + j) + 6)) →
      ∀ j < (item :: rest).length, fault ≠ some (7 * (done.length + j) + 6) := by
    intro hlater j hj
    cases j with
    | zero => exact hfirst
    | succ j =>
      have := hlater j (by simpa using hj)
      rwa [List.length_append, List.length_singleton, Nat.add_assoc, Nat.add_comm 1 j] at this
  have hmove : done ++ [item] ++ rest = done ++ item :: rest := by simp
  cases h with
  | finished hfault hfs => exact .finished (hspared hfault) (hmove ▸ hfs)
  | @stranded _ _ j _ hj hfault hitem hleft =>
    refine .stranded (j := j + 1) (by simpa using hj) ?_ (List.mem_cons_of_mem _ hitem) hleft
    rw [hfault, List.length_append, List.length_singleton, Nat.add_assoc, Nat.add_comm 1 j]
  | undone hfault hfree htemp hsame => exact .undone (hspared hfault) hfree (hmove ▸ htemp) hsame

/-- Once the failing operation is over, the rollback removes what was created and nothing
else. -/
theorem run_rollback {fault : Option Nat} {created : List String} {d : Disk} {k : Nat}
    (message : String) (hfault : fault = some k) (htried : k < d.tried) :
    ∃ d', (removeAll fault ioFailure created.reverse >>= fun _ =>
        (fail message : Proc String Unit)).run d = (.error message, d') ∧
      ∀ q, d'.fs.read q = if q ∈ created then none else d.fs.read q := by
  have hlater : ∀ k', d.tried ≤ k' → fault ≠ some k' := by
    intro k' hk' heq
    rw [hfault, Option.some.injEq] at heq
    omega
  rcases run_removeAll (E := String) ioFailure d.fs created.reverse hlater with
    ⟨d', hclean, hleft⟩
  refine ⟨d', ?_, ?_⟩
  · rw [run_bind, hclean, andThen_ok, run_fail]
  · simpa only [List.mem_reverse] using hleft

/-- The restore loop, by induction on the files that are left.  What was published before is
on the disk, and a failure removes it again. -/
theorem run_restoreFiles {fault : Option Nat} {suffix : Nat → String} {fs : FileSystem}
    {done rest : List (WalletBackupEntry × Location)} (hvacant : Vacant fs suffix (done ++ rest)) :
    Restored fault fs done rest
      ((restoreFiles fault suffix done.length (done.map fun item => item.2.path) rest).run
        ⟨addFiles fs done, 7 * done.length⟩) := by
  induction rest generalizing done with
  | nil => exact .finished (by simp) (by simp)
  | cons item rest ih =>
    rcases item with ⟨e, t⟩
    have hmem : (e, t) ∈ done ++ (e, t) :: rest := by simp
    have hdone : ∀ other ∈ done, other ∈ done ++ (e, t) :: rest :=
      fun _ h => List.mem_append_left _ h
    -- neither the file nor its temporary name is among those published before
    have hnew : t.path ∉ done.map fun item => item.2.path := by
      have hdistinct := hvacant.distinct
      rw [List.map_append, List.map_cons, List.nodup_append] at hdistinct
      exact fun h => hdistinct.2.2 _ h _ (List.mem_cons_self ..) rfl
    have hread : ∀ p, p ∉ (done.map fun item => item.2.path) →
        (addFiles fs done).read p = fs.read p := by
      intro p hp
      exact read_addFiles_of_not_mem fun other hother heq =>
        hp (List.mem_map.mpr ⟨other, hother, heq.symm⟩)
    have htemp : t.temp (suffix done.length) ∉ done.map fun item => item.2.path := by
      intro h
      rcases List.mem_map.mp h with ⟨other, hother, heq⟩
      exact hvacant.temp_ne _ hmem _ _ (hdone _ hother) heq.symm
    have hpublished : Published fault ⟨addFiles fs done, 7 * done.length⟩ t.path
        (t.temp (suffix done.length)) e.secretFile _ :=
      run_writeNewFile ((hread _ hnew).trans (hvacant.path_free _ hmem))
        ((hread _ htemp).trans (hvacant.temp_free _ hmem _))
        (hvacant.temp_ne _ hmem _ _ hmem).symm
    rw [restoreFiles, run_bind]
    generalize hrun : (writeNewFile fault t (suffix done.length) e.secretFile).run
      ⟨addFiles fs done, 7 * done.length⟩ = outcome at hpublished
    cases hpublished with
    | done hfault =>
      rw [recover_ok _ hrun, andThen_ok]
      refine .cons (hfault 6 (by omega)) ?_
      have hrest := @ih (done ++ [(e, t)]) (by simpa using hvacant)
      rwa [addFiles_append, List.map_append, List.length_append] at hrest
    | @stranded _ d' hfault htried hpath =>
      rcases run_rollback _ hfault htried with ⟨d'', hclean, hleft⟩
      rw [recover_error _ hrun, hclean, andThen_error]
      refine .stranded (j := 0) (by simp) hfault (List.mem_cons_self ..) ?_
      rw [hleft, if_neg hnew, hpath]
      exact Option.some_ne_none _
    | @undone _ d' k hk hfault htried hsame =>
      rcases run_rollback _ hfault htried with ⟨d'', hclean, hleft⟩
      rw [recover_error _ hrun, hclean, andThen_error]
      refine .undone ?_ (hvacant.temp_free _ hmem done.length)
        (hvacant.temp_ne _ hmem done.length) ?_
      · intro j hj heq
        rw [hfault, Option.some.injEq] at heq
        simp only at heq
        omega
      · intro p hp
        rw [hleft]
        split
        · next hcreated =>
            rcases List.mem_map.mp hcreated with ⟨other, hother, rfl⟩
            exact (hvacant.path_free _ (hdone _ hother)).symm
        · next hcreated =>
            rw [hsame p hp]
            exact hread p hcreated

/-! ## Paths -/

theorem labelText_injective {x y : Bytes} (h : labelText x = labelText y) : x = y := by
  have hchar : Function.Injective fun b : UInt8 => Char.ofNat b.toNat := by
    intro a b hab
    have hvalid : ∀ c : UInt8, (Char.ofNat c.toNat).toNat = c.toNat := by
      intro c
      have hc : c.toNat < 256 := c.toNat_lt
      have hchar : c.toNat.isValidChar := .inl (by omega)
      rw [Char.ofNat, dif_pos hchar]
      rfl
    have := congrArg Char.toNat hab
    simp only [hvalid] at this
    exact UInt8.toNat_inj.mp this
  exact List.map_injective_iff.mpr hchar (String.ofList_injective h)

/-- Different keys of a wallet have different files. -/
theorem keyLocation_injective {dataDir : String} {r s : KeyRole} {x y : Bytes}
    (hr : walletRoleAllowed r = true) (hs : walletRoleAllowed s = true)
    (h : (keyLocation dataDir r x).path = (keyLocation dataDir s y).path) : r = s ∧ x = y := by
  simp only [Location.path, keyLocation, String.append_right_inj] at h
  have hname : r = s := by
    have hhead := congrArg (fun t : String => t.toList.head?) h
    clear h
    cases r <;> cases s <;> simp_all [walletRoleAllowed, KeyRole.name, String.toList_append]
  refine ⟨hname, labelText_injective ?_⟩
  rw [hname, String.append_right_inj, String.append_right_inj] at h
  exact (String.append_left_inj _).mp h

/-- No temporary name is the name of a key file, which does not start with a dot. -/
theorem temp_ne_path (dataDir file suffix : String) (role : KeyRole) (label : Bytes) :
    Location.temp ⟨secretsDir dataDir, file⟩ suffix ≠ (keyLocation dataDir role label).path := by
  intro h
  simp only [Location.temp, Location.path, keyLocation, String.append_right_inj] at h
  have hhead := congrArg (fun t : String => t.toList.head?) h
  cases role <;> simp [KeyRole.name, String.toList_append] at hhead

/-! ## The command -/

def faultMessage : Fault KeystoreError → String
  | .refused e => e.message
  | .outOfBounds => "index out of bounds"

/-- Where the file of a backed-up key belongs. -/
def keyPath (dataDir : String) (e : WalletBackupEntry) : String :=
  (keyLocation dataDir e.role e.label).path

/-- The entries of a backup with the locations of their files. -/
def located (dataDir : String) (entries : List WalletBackupEntry) :
    List (WalletBackupEntry × Location) :=
  entries.map fun e => (e, keyLocation dataDir e.role e.label)

theorem walletKeyPath_of_valid {dataDir : String} {role : KeyRole} {label : Bytes}
    (h : walletLabelValid label = true) :
    walletKeyPath dataDir role label = .ok (keyLocation dataDir role label) := by
  have hlength := length_of_walletLabelValid h
  have hne : label ≠ [] := List.length_pos_iff.mp hlength.1
  simp only [walletLabelValid, Bool.and_eq_true] at h
  simp [walletKeyPath, validateKeyLabel, reject, hne, Nat.not_lt.mpr hlength.2, h.2]

/-- Looking for the targets changes nothing, and succeeds exactly when all are free. -/
theorem run_restoreTargets (dataDir : String) (d : Disk) {entries : List WalletBackupEntry}
    (hlabels : ∀ e ∈ entries, walletLabelValid e.label = true) :
    ((restoreTargets dataDir entries).run d = (.ok (located dataDir entries), d) ∧
        ∀ e ∈ entries, d.fs.read (keyPath dataDir e) = none) ∨
      ∃ message, (restoreTargets dataDir entries).run d = (.error message, d) ∧
        ¬ ∀ e ∈ entries, d.fs.read (keyPath dataDir e) = none := by
  induction entries with
  | nil => exact .inl ⟨rfl, by simp⟩
  | cons e entries ih =>
    rw [List.forall_mem_cons] at hlabels
    simp only [restoreTargets, run_bind, run_lift, walletKeyPath_of_valid hlabels.1, andThen_ok,
      run_holds, List.forall_mem_cons]
    cases hfile : d.fs.read (keyPath dataDir e) with
    | some content =>
      have htaken : d.fs.holds (keyLocation dataDir e.role e.label).path = true :=
        congrArg Option.isSome hfile
      exact .inr ⟨_, by rw [htaken, if_pos rfl, run_fail], by simp⟩
    | none =>
      have hfree : d.fs.holds (keyLocation dataDir e.role e.label).path = false :=
        congrArg Option.isSome hfile
      rw [hfree, if_neg Bool.false_ne_true, run_bind]
      rcases ih hlabels.2 with ⟨hrun, hall⟩ | ⟨message, hrun, hsome⟩
      · exact .inl ⟨by rw [hrun]; rfl, rfl, hall⟩
      · exact .inr ⟨message, by rw [hrun]; rfl, fun h => hsome h.2⟩

section Command

variable [Crypto] [PasswordHash]

/-- The passphrase must open the entry's secret file, and the key in it be the one listed. -/
def verifyBackupEntry (passphrase : Bytes) (e : WalletBackupEntry) : Except String Unit := do
  let seed ← (openSecret e.secretFile e.role devnetNetworkId passphrase).mapError fun err =>
    "verify backup " ++ e.role.name ++ " key '" ++ labelText e.label ++ "': " ++ faultMessage err
  reject (Crypto.publicKey seed ≠ e.publicKey)
    ("backup " ++ e.role.name ++ " key '" ++ labelText e.label ++ "' public-key mismatch")

/-- A backup is read and each key in it opened. -/
def verifyWalletBackupBytes (bytes passphrase : Bytes) :
    Except String (List WalletBackupEntry) := do
  let (networkId, entries) ← (decodeWalletBackup bytes).mapError faultMessage
  reject (networkId ≠ devnetNetworkId) "wallet backup NetworkID mismatch"
  reject (entries = []) "wallet backup contains no owner/mining keys"
  entries.forM (verifyBackupEntry passphrase)
  .ok entries

/-- Restore a backup while the operation numbered {lit}`fault` fails; {lit}`suffix` are the
random parts of the temporary names. -/
def restoreWalletBackupBytes (fault : Option Nat) (suffix : Nat → String) (dataDir : String)
    (bytes passphrase : Bytes) : Proc String (List WalletBackupEntry) := do
  let entries ← Disk.lift (verifyWalletBackupBytes bytes passphrase)
  let targets ← restoreTargets dataDir entries
  restoreFiles fault suffix 0 [] targets
  pure entries

/-- The keys in a backup. -/
def backupEntries (bytes : Bytes) : List WalletBackupEntry :=
  match decodeWalletBackup bytes with
  | .ok (_, entries) => entries
  | .error _ => []

/-- A restore is all-or-nothing: after a success every key file is there with the bytes of the
backup; after a failure no key file has appeared and no file has changed. -/
structure AllOrNothing (dataDir : String) (bytes : Bytes) (before : FileSystem)
    (outcome : Except String (List WalletBackupEntry) × Disk) : Prop where
  restored : ∀ entries, outcome.1 = .ok entries → ∀ e ∈ backupEntries bytes,
    outcome.2.fs.read (keyPath dataDir e) = some e.secretFile
  absent : ∀ message, outcome.1 = .error message → ∀ e ∈ backupEntries bytes,
    before.read (keyPath dataDir e) = none → outcome.2.fs.read (keyPath dataDir e) = none
  unchanged : ∀ message, outcome.1 = .error message → ∀ p content,
    before.read p = some content → outcome.2.fs.read p = some content

/-- The backup passes its checks and none of its key files exists. -/
structure Restorable (dataDir : String) (bytes passphrase : Bytes) (fs : FileSystem)
    (entries : List WalletBackupEntry) : Prop where
  verified : verifyWalletBackupBytes bytes passphrase = .ok entries
  free : ∀ e ∈ entries, fs.read (keyPath dataDir e) = none

variable {bytes : Bytes} {entries : List WalletBackupEntry}

omit [PasswordHash] in
theorem fileEntries_of_decode {networkId : UInt32}
    (h : decodeWalletBackup bytes = .ok (networkId, entries)) :
    walletBackupFormat.FileEntries networkId entries :=
  (WalletFormat.decode_eq_ok.mp h).1

variable {passphrase : Bytes}

theorem decode_of_verify (h : verifyWalletBackupBytes bytes passphrase = .ok entries) :
    ∃ networkId, decodeWalletBackup bytes = .ok (networkId, entries) := by
  simp only [verifyWalletBackupBytes, ok_rules, Prod.exists] at h
  rcases h with ⟨networkId, entries', hdecode, -, -, -, -, -, -, rfl⟩
  exact ⟨networkId, hdecode⟩

theorem backupEntries_of_verify (h : verifyWalletBackupBytes bytes passphrase = .ok entries) :
    backupEntries bytes = entries := by
  rcases decode_of_verify h with ⟨networkId, hdecode⟩
  rw [backupEntries, hdecode]

variable {dataDir : String} {suffix : Nat → String} {fs : FileSystem}

omit [PasswordHash] in
/-- The files of a backup are in nobody's way, nor in each other's. -/
theorem vacant_located {networkId : UInt32}
    (hdecode : decodeWalletBackup bytes = .ok (networkId, entries))
    (hfree : ∀ e ∈ entries, fs.read (keyPath dataDir e) = none)
    (hfresh : ∀ file i, fs.read (Location.temp ⟨secretsDir dataDir, file⟩ (suffix i)) = none) :
    Vacant fs suffix (located dataDir entries) := by
  have hentries := fileEntries_of_decode hdecode
  have hkeys : (entries.map walletBackupFormat.key).Nodup :=
    (List.isChain_iff_pairwise.mp hentries.keys).imp ne_of_lt
  refine ⟨?_, ?_, ?_, ?_⟩
  · -- equal paths would mean equal keys
    rw [located, List.map_map]
    refine List.Nodup.map_on ?_ (List.Nodup.of_map _ hkeys)
    intro x hx y hy heq
    have hx' := (hentries.listable x hx).role
    rcases keyLocation_injective hx' (hentries.listable y hy).role heq with ⟨hrole, hlabel⟩
    exact List.inj_on_of_nodup_map hkeys hx hy
      (congrArg₂ walletSortKey hrole hlabel)
  · intro item hitem
    rcases List.mem_map.mp hitem with ⟨e, he, rfl⟩
    exact hfree e he
  · intro item hitem i
    rcases List.mem_map.mp hitem with ⟨e, he, rfl⟩
    exact hfresh _ i
  · intro item hitem i other hother
    rcases List.mem_map.mp hitem with ⟨e, he, rfl⟩
    rcases List.mem_map.mp hother with ⟨e', he', rfl⟩
    exact temp_ne_path dataDir _ (suffix i) e'.role e'.label

/-- What a restore of a backup that can be restored leaves behind. -/
theorem run_restore (fault : Option Nat) (h : Restorable dataDir bytes passphrase fs entries)
    (hfresh : ∀ file i, fs.read (Location.temp ⟨secretsDir dataDir, file⟩ (suffix i)) = none) :
    ∃ r d', Restored fault fs [] (located dataDir entries) (r, d') ∧
      (restoreWalletBackupBytes fault suffix dataDir bytes passphrase).run ⟨fs, 0⟩ =
        (r.map fun _ => entries, d') := by
  rcases decode_of_verify h.verified with ⟨networkId, hdecode⟩
  have hlabels : ∀ e ∈ entries, walletLabelValid e.label = true := fun e he =>
    ((fileEntries_of_decode hdecode).listable e he).label
  have hvacant := vacant_located hdecode h.free hfresh
  have hloop : Restored fault fs [] (located dataDir entries)
      ((restoreFiles fault suffix 0 [] (located dataDir entries)).run ⟨fs, 0⟩) :=
    @run_restoreFiles fault suffix fs [] _ hvacant
  generalize hrest : (restoreFiles fault suffix 0 [] (located dataDir entries)).run ⟨fs, 0⟩ =
    outcome at hloop
  rcases outcome with ⟨r, d'⟩
  rcases run_restoreTargets dataDir ⟨fs, 0⟩ hlabels with ⟨hrun, -⟩ | ⟨message, -, htaken⟩
  · refine ⟨r, d', hloop, ?_⟩
    rw [restoreWalletBackupBytes, run_bind, run_lift, h.verified, andThen_ok, run_bind, hrun,
      andThen_ok, run_bind, hrest]
    cases r <;> rfl
  · exact absurd h.free htaken

/-- A restore that does not start changes nothing. -/
theorem run_restore_refused {fault : Option Nat}
    (h : ∀ entries, ¬ Restorable dataDir bytes passphrase fs entries) :
    ∃ message, (restoreWalletBackupBytes fault suffix dataDir bytes passphrase).run ⟨fs, 0⟩ =
      (.error message, ⟨fs, 0⟩) := by
  rw [restoreWalletBackupBytes, run_bind, run_lift]
  cases hverify : verifyWalletBackupBytes bytes passphrase with
  | error message => exact ⟨message, rfl⟩
  | ok entries =>
    rcases decode_of_verify hverify with ⟨networkId, hdecode⟩
    have hlabels : ∀ e ∈ entries, walletLabelValid e.label = true := fun e he =>
      ((fileEntries_of_decode hdecode).listable e he).label
    rcases run_restoreTargets dataDir ⟨fs, 0⟩ hlabels with ⟨-, hfree⟩ | ⟨message, hrun, -⟩
    · exact absurd ⟨hverify, hfree⟩ (h entries)
    · exact ⟨message, by rw [andThen_ok, run_bind, hrun, andThen_error]⟩

/-- The failing operation is the removal of the temporary name of one of the backup's files,
which the restore gets to. -/
def StrandsKey (fault : Option Nat) (dataDir : String) (bytes passphrase : Bytes)
    (fs : FileSystem) : Prop :=
  ∃ entries, Restorable dataDir bytes passphrase fs entries ∧
    ∃ i < entries.length, fault = some (7 * i + 6)

theorem strandsKey_iff {fault : Option Nat} (h : Restorable dataDir bytes passphrase fs entries) :
    StrandsKey fault dataDir bytes passphrase fs ↔
      ∃ i < entries.length, fault = some (7 * i + 6) := by
  constructor
  · rintro ⟨entries', h', hi⟩
    have hsame : entries' = entries := Except.ok.inj (h'.verified.symm.trans h.verified)
    rwa [hsame] at hi
  · exact fun hi => ⟨entries, h, hi⟩

/-- How a restore that starts ends decides whether it is all-or-nothing. -/
theorem allOrNothing_iff_of_restored {fault : Option Nat} {r : Except String Unit} {d' : Disk}
    (h : Restorable dataDir bytes passphrase fs entries)
    (hvacant : Vacant fs suffix (located dataDir entries))
    (hrest : Restored fault fs [] (located dataDir entries) (r, d')) :
    AllOrNothing dataDir bytes fs (r.map fun _ => entries, d') ↔
      ¬ StrandsKey fault dataDir bytes passphrase fs := by
  have hbackup := backupEntries_of_verify h.verified
  have hmem : ∀ e ∈ entries, (e, keyLocation dataDir e.role e.label) ∈ located dataDir entries :=
    fun e he => List.mem_map.mpr ⟨e, he, rfl⟩
  have hspared : (∀ j < (located dataDir entries).length, fault ≠ some (7 * (0 + j) + 6)) →
      ¬ StrandsKey fault dataDir bytes passphrase fs := by
    rw [strandsKey_iff h, located, List.length_map]
    rintro hfault ⟨i, hi, heq⟩
    exact hfault i hi (by rw [heq, Nat.zero_add])
  cases hrest with
  | finished hfault hfs =>
    refine iff_of_true ⟨?_, nofun, nofun⟩ (hspared hfault)
    intro _ _ e he
    rw [hbackup] at he
    have hfile : (addFiles fs (located dataDir entries)).read (keyPath dataDir e) =
        some e.secretFile := read_addFiles_of_mem hvacant.distinct (hmem e he)
    rw [List.nil_append] at hfs
    rwa [← hfs] at hfile
  | @stranded _ _ j item hj hfault hitem hleft =>
    refine iff_of_false ?_ ?_
    · intro hall
      rcases List.mem_map.mp hitem with ⟨e, he, rfl⟩
      have he' : e ∈ backupEntries bytes := by rwa [hbackup]
      exact hleft (hall.absent _ rfl e he' (h.free e he))
    · rw [not_not, strandsKey_iff h]
      refine ⟨j, by simpa [located] using hj, ?_⟩
      rw [hfault, List.length_nil, Nat.zero_add]
  | @undone _ _ temp hfault hfree htemp hsame =>
    refine iff_of_true ⟨nofun, ?_, ?_⟩ (hspared hfault)
    · intro _ _ e he hbefore
      rw [hbackup] at he
      have hne : keyPath dataDir e ≠ temp := fun heq => htemp _ (hmem e he) heq.symm
      exact (hsame _ hne).trans hbefore
    · intro _ _ p content hp
      refine (hsame p ?_).trans hp
      rintro rfl
      simp [hfree] at hp

/-- A restore in which one operation may fail is all-or-nothing, exactly unless that operation
is the removal of a temporary name: then the file it names is there, and the rollback, which
only knows the files before it, leaves it.  The random names are ones not in use. -/
theorem restore_all_or_nothing (fault : Option Nat) (suffix : Nat → String) (dataDir : String)
    (bytes passphrase : Bytes) (fs : FileSystem)
    (hfresh : ∀ file i, fs.read (Location.temp ⟨secretsDir dataDir, file⟩ (suffix i)) = none) :
    AllOrNothing dataDir bytes fs
        ((restoreWalletBackupBytes fault suffix dataDir bytes passphrase).run ⟨fs, 0⟩) ↔
      ¬ StrandsKey fault dataDir bytes passphrase fs := by
  by_cases hsome : ∃ entries, Restorable dataDir bytes passphrase fs entries
  · rcases hsome with ⟨entries, h⟩
    rcases decode_of_verify h.verified with ⟨networkId, hdecode⟩
    rcases run_restore _ h hfresh with ⟨r, d', hrest, hrun⟩
    rw [hrun]
    exact allOrNothing_iff_of_restored h (vacant_located hdecode h.free hfresh) hrest
  · have hnone := not_exists.mp hsome
    rcases run_restore_refused hnone with ⟨message, hrun⟩
    rw [hrun]
    refine iff_of_true ⟨nofun, ?_, ?_⟩ fun ⟨entries, h, _⟩ => hnone entries h
    · exact fun _ _ _ _ hbefore => hbefore
    · exact fun _ _ _ _ hbefore => hbefore

end Command

section Sample

attribute [local instance] sampleCrypto

/-- Argon2id with a constant in place of its output. -/
@[reducible]
def samplePasswordHash : PasswordHash where
  accepts _ _ _ := true
  derive _ _ _ _ _ := some 7

attribute [local instance] samplePasswordHash

def samplePassphrase : Bytes := Bytes.ascii "correct horse"

/-- An owner key in a sealed file. -/
def sampleBackupEntry (seed : Bytes32) (label : UInt8) : WalletBackupEntry where
  role := .licenseOwner
  label := [label]
  publicKey := seed
  secretFile := ((sealSeedWithMaterial seed .licenseOwner devnetNetworkId samplePassphrase
    ⟨8, 1, 1⟩ (List.replicate 16 0) (List.replicate 12 0)).toOption).getD []

/-- Two owner keys, labelled {lit}`a` and {lit}`b`. -/
def sampleEntries : List WalletBackupEntry := [sampleBackupEntry 5 97, sampleBackupEntry 6 98]

def sampleBackup : Bytes := ((encodeWalletBackup devnetNetworkId sampleEntries).toOption).getD []

theorem verify_sampleBackup :
    verifyWalletBackupBytes sampleBackup samplePassphrase = .ok sampleEntries := by
  decide +kernel

/-- A disk with one file, outside the wallet. -/
def sampleDisk : FileSystem := fun p => if p = "note" then some [1] else none

theorem sampleDisk_fresh (file : String) (i : Nat) : sampleDisk.read
    (Location.temp ⟨secretsDir "node", file⟩ ((fun _ => "00" : Nat → String) i)) = none := by
  rw [FileSystem.read, sampleDisk, if_neg]
  intro heq
  have hlength := congrArg String.length heq
  simp only [Location.temp, secretsDir, String.length_append] at hlength
  have hdir : "/secrets".length = 8 ∧ "note".length = 4 := by decide
  omega

theorem restorable_sampleBackup :
    Restorable "node" sampleBackup samplePassphrase sampleDisk sampleEntries :=
  ⟨verify_sampleBackup, by decide +kernel⟩

/-- The sample is restored and one operation fails. -/
def sampleRestore (fault : Nat) : Except String (List WalletBackupEntry) × Disk :=
  (restoreWalletBackupBytes (some fault) (fun _ => "00") "node" sampleBackup samplePassphrase).run
    ⟨sampleDisk, 0⟩

/-- The link of the second key file fails: the first file is taken back and the disk is
as before. -/
theorem restore_sample_failed_link :
    AllOrNothing "node" sampleBackup sampleDisk (sampleRestore 12) ∧
      (sampleRestore 12).1.toOption = none ∧
      (∀ e ∈ sampleEntries, (sampleRestore 12).2.fs.read (keyPath "node" e) = none) ∧
      (sampleRestore 12).2.fs.read "note" = some [1] := by
  have hall : AllOrNothing "node" sampleBackup sampleDisk (sampleRestore 12) :=
    (restore_all_or_nothing (some 12) (fun _ => "00") "node" sampleBackup samplePassphrase
      sampleDisk sampleDisk_fresh).mpr (by
        rintro ⟨entries, -, i, -, hi⟩
        rw [Option.some.injEq] at hi
        omega)
  have hfailed : (sampleRestore 12).1.toOption = none := by decide +kernel
  cases hresult : (sampleRestore 12).1 with
  | ok entries =>
    rw [hresult] at hfailed
    cases hfailed
  | error message =>
    refine ⟨hall, rfl, fun e he => ?_, hall.unchanged message hresult "note" [1] rfl⟩
    have hbackup := backupEntries_of_verify restorable_sampleBackup.verified
    exact hall.absent message hresult e (hbackup ▸ he) (restorable_sampleBackup.free e he)

/-- The removal of the second temporary name fails: the restore reports a failure and leaves
that key file behind. -/
theorem restore_strands_sample :
    ¬ AllOrNothing "node" sampleBackup sampleDisk (sampleRestore 13) := by
  have h := restorable_sampleBackup
  rcases decode_of_verify h.verified with ⟨networkId, hdecode⟩
  rcases run_restore (some 13) h sampleDisk_fresh with ⟨r, d', hrest, hrun⟩
  rw [sampleRestore, hrun,
    allOrNothing_iff_of_restored h (vacant_located hdecode h.free sampleDisk_fresh) hrest, not_not]
  exact ⟨_, h, 1, by decide, rfl⟩

end Sample

end Keystore
end Mutiny
