import Mathlib.Data.List.Lex
import Mathlib.Data.List.Sort
import Mathlib.Data.Prod.Lex
import Mutiny.Keystore.SecretFile

/-!
# Wallet backup and watch-wallet files

A wallet file lists keys in the order of their role and label: a magic, a version, the
network id and the number of entries, the entries, and the hash of everything before
it.  A backup carries each key's encrypted secret file, a watch wallet only its public
key.  The two formats differ in a handful of values, so the codec is written once over
them.

Main result:

- Theorem {lit}`wallet_files_canonical`: both codecs are inverse and stay inside their
  input.
-/

namespace Mutiny
namespace Keystore

open Result Slice

/-! ## Labels and their order -/

/-- ASCII letters, digits, {lit}`-` and {lit}`_`. -/
def labelByte (b : UInt8) : Bool :=
  (48 ≤ b && b ≤ 57) || (65 ≤ b && b ≤ 90) || (97 ≤ b && b ≤ 122) || b = 45 || b = 95

/-- A label is kept as the bytes of its text. -/
def walletLabelValid (label : Bytes) : Bool :=
  label ≠ [] && label.length ≤ 64 && label.all labelByte

def walletRoleAllowed (role : KeyRole) : Bool :=
  role = .licenseOwner || role = .licenseMining

/-- Keys are listed by role and then, byte by byte, by label. -/
def walletSortKey (role : KeyRole) (label : Bytes) : ℕ ×ₗ List ℕ :=
  toLex (role.toByte.toNat, label.map UInt8.toNat)

def maxWalletEntries : Nat := 4096

theorem length_of_walletLabelValid {label : Bytes} (h : walletLabelValid label = true) :
    0 < label.length ∧ label.length ≤ 64 := by
  simp only [walletLabelValid, Bool.and_eq_true, decide_eq_true_eq] at h
  exact ⟨List.length_pos_iff.mpr h.1.1, h.1.2⟩

/-! ## The two formats -/

/-- What tells one wallet file format from the other.  An entry is its role, its label and
the bytes that follow the label, and an entry that passes the format's own check has as
many of those as the format says. -/
structure WalletFormat (E : Type) where
  magic : Bytes
  version : UInt16
  /-- The error for a file that is not laid out as the format is. -/
  bad : KeystoreError
  role : E → KeyRole
  label : E → Bytes
  tail : E → Bytes
  tailLen : Nat
  build : KeyRole → Bytes → Bytes → E
  /-- What is checked of an entry besides its role, its label and its place. -/
  check : UInt32 → E → Except (Fault KeystoreError) Unit
  magic_length : magic.length = 8
  tail_length : ∀ networkId e, check networkId e = .ok () → (tail e).length = tailLen
  build_parts : ∀ e, build (role e) (label e) (tail e) = e
  role_build : ∀ role' label' tail', role (build role' label' tail') = role'
  label_build : ∀ role' label' tail', label (build role' label' tail') = label'
  tail_build : ∀ role' label' tail', tail'.length = tailLen →
    tail (build role' label' tail') = tail'
  check_inBounds : ∀ networkId e, InBounds (check networkId e)

namespace WalletFormat

variable {E : Type} (F : WalletFormat E)

def key (e : E) : ℕ ×ₗ List ℕ := walletSortKey (F.role e) (F.label e)

/-- The entries in the order of their keys. -/
def ordered (es : List E) : List E := es.insertionSort fun a b => F.key a ≤ F.key b

def entryBytes (e : E) : Bytes :=
  (F.role e).toByte :: UInt8.ofNat (F.label e).length :: (F.label e ++ F.tail e)

def header (networkId : UInt32) (count : Nat) : Bytes :=
  F.magic ++ Bytes.u16 F.version ++ Bytes.u32 networkId ++ Bytes.u16 (UInt16.ofNat count)

/-- The encoder's loop: {lit}`previous` is the key of the entry before. -/
def encodeEntries (networkId : UInt32) : Option (ℕ ×ₗ List ℕ) → List E →
    Except (Fault KeystoreError) Bytes
  | _, [] => .ok []
  | previous, e :: es => do
    refuse (¬ walletRoleAllowed (F.role e) ∨ ¬ walletLabelValid (F.label e)) .badWalletLabel
    F.check networkId e
    refuse (previous = some (F.key e)) F.bad
    let rest ← encodeEntries networkId (some (F.key e)) es
    .ok (F.entryBytes e ++ rest)

/-- One round of the decoder's loop: the entry at {lit}`pos` and where the next one starts. -/
def decodeEntry (bytes : Bytes) (checksumAt : Nat) (networkId : UInt32) (pos : Nat)
    (previous : Option (ℕ ×ₗ List ℕ)) : Except (Fault KeystoreError) (E × Nat) := do
  refuse (checksumAt < pos + 2) F.bad
  let roleByte ← byteAt bytes pos
  let role ← lift (KeyRole.fromByte roleByte)
  refuse (¬ walletRoleAllowed role) F.bad
  let lengthByte ← byteAt bytes (pos + 1)
  let labelLen := lengthByte.toNat
  refuse (labelLen = 0 ∨ 64 < labelLen ∨ checksumAt < pos + 2 + labelLen + F.tailLen) F.bad
  let label ← range bytes (pos + 2) (pos + 2 + labelLen)
  -- text that is not UTF-8 and a label with other characters are refused alike
  refuse (¬ walletLabelValid label) .badWalletLabel
  let tail ← range bytes (pos + 2 + labelLen) (pos + 2 + labelLen + F.tailLen)
  refuse (∃ prev ∈ previous, walletSortKey role label ≤ prev) F.bad
  F.check networkId (F.build role label tail)
  .ok (F.build role label tail, pos + 2 + labelLen + F.tailLen)

def decodeEntries (bytes : Bytes) (checksumAt : Nat) (networkId : UInt32) :
    Nat → Nat → Option (ℕ ×ₗ List ℕ) → Except (Fault KeystoreError) (List E × Nat)
  | 0, pos, _ => .ok ([], pos)
  | count + 1, pos, previous => do
    let (e, next) ← F.decodeEntry bytes checksumAt networkId pos previous
    let (es, last) ← decodeEntries bytes checksumAt networkId count next (some (F.key e))
    .ok (e :: es, last)

section Files

variable [Crypto]

def encode (networkId : UInt32) (entries : List E) : Except (Fault KeystoreError) Bytes := do
  refuse (maxWalletEntries < entries.length ∨ 65535 < entries.length) .tooManyWalletEntries
  let listed ← F.encodeEntries networkId none (F.ordered entries)
  let body := F.header networkId (F.ordered entries).length ++ listed
  .ok (body ++ Bytes.b32 (Crypto.sha256 body))

def decode (bytes : Bytes) : Except (Fault KeystoreError) (UInt32 × List E) := do
  refuse (bytes.length < 8 + 2 + 4 + 2 + 32) F.bad
  let checksumAt := bytes.length - 32
  let body ← range bytes 0 checksumAt
  let checksum ← range bytes checksumAt bytes.length
  refuse (Bytes.b32 (Crypto.sha256 body) ≠ checksum) .backupChecksumMismatch
  let magic ← range bytes 0 8
  refuse (magic ≠ F.magic) F.bad
  let version ← range bytes 8 10
  refuse (Bytes.toU16 version ≠ F.version) F.bad
  let network ← range bytes 10 14
  let count ← range bytes 14 16
  refuse (maxWalletEntries < (Bytes.toU16 count).toNat) .tooManyWalletEntries
  let (entries, pos) ←
    F.decodeEntries bytes checksumAt (Bytes.toU32 network) (Bytes.toU16 count).toNat 16 none
  refuse (pos ≠ checksumAt) F.bad
  .ok (Bytes.toU32 network, entries)

end Files

/-! ## The loops -/

/-- An entry that may stand in a file for {lit}`networkId`. -/
structure Listable (networkId : UInt32) (e : E) : Prop where
  role : walletRoleAllowed (F.role e) = true
  label : walletLabelValid (F.label e) = true
  check : F.check networkId e = .ok ()

variable {F} {bytes : Bytes} {networkId : UInt32} {checksumAt pos next last count : Nat}
  {previous : Option (ℕ ×ₗ List ℕ)} {e : E} {es : List E}

/-- The bytes of an entry, field by field. -/
theorem spells_entryBytes : Spells bytes pos next (F.entryBytes e) ↔
    bytes[pos]? = some (F.role e).toByte ∧
      bytes[pos + 1]? = some (UInt8.ofNat (F.label e).length) ∧
      Spells bytes (pos + 2) (pos + 2 + (F.label e).length) (F.label e) ∧
      Spells bytes (pos + 2 + (F.label e).length) next (F.tail e) := by
  have hfields : F.entryBytes e =
      [(F.role e).toByte] ++ ([UInt8.ofNat (F.label e).length] ++ (F.label e ++ F.tail e)) := rfl
  rw [hfields, spells_append, spells_append, spells_append]
  simp only [List.length_singleton, spells_singleton]

theorem toNat_lengthByte {label : Bytes} (h : label.length ≤ 64) :
    (UInt8.ofNat label.length).toNat = label.length := by
  rw [UInt8.toNat_ofNat']
  omega

/-- A round of the decoder's loop reads the entry whose bytes stand at the position. -/
theorem decodeEntry_eq_ok :
    F.decodeEntry bytes checksumAt networkId pos previous = .ok (e, next) ↔
      F.Listable networkId e ∧ (∀ prev ∈ previous, prev < F.key e) ∧
        Spells bytes pos next (F.entryBytes e) ∧ next ≤ checksumAt := by
  simp only [decodeEntry, ok_rules, refuse_eq_ok, lift_eq_ok, KeyRole.fromByte_eq_ok, Prod.mk.injEq,
    not_or, not_not, not_exists, not_and, not_lt, not_le, range_eq_ok, byteAt_eq_ok,
    spells_entryBytes]
  constructor
  · rintro ⟨-, -, _, hrole, role, rfl, -, hallowed, lengthByte, hlength, -, ⟨-, -, hend⟩, label,
      hlabel, -, hvalid, tail, htail, -, hlast, ⟨⟩, hcheck, rfl, rfl⟩
    have hlabelLen := hlabel.length
    have htailLen := htail.length
    have hbyte : lengthByte = UInt8.ofNat label.length := by
      rw [show label.length = lengthByte.toNat by omega, UInt8.ofNat_toNat]
    have hlen : lengthByte.toNat = label.length := by omega
    have htail' : tail.length = F.tailLen := by omega
    refine ⟨⟨by rwa [F.role_build], by rwa [F.label_build], hcheck⟩, ?_, ?_, hend⟩
    · intro prev hprev
      rw [key, F.role_build, F.label_build]
      exact hlast prev hprev
    · rw [F.role_build, F.label_build, F.tail_build _ _ _ htail', ← hbyte, ← hlen]
      exact ⟨hrole, hlength, hlabel, htail⟩
  · rintro ⟨hlist, hlast, ⟨hrole, hlength, hlabel, htail⟩, hend⟩
    have hbounds := length_of_walletLabelValid hlist.label
    have htailLen := F.tail_length _ _ hlist.check
    have hnext := htail.length
    have hbyte := toNat_lengthByte hbounds.2
    refine ⟨(), by omega, _, hrole, _, rfl, (), hlist.role, _, hlength, (), ?_, F.label e, ?_, (),
      hlist.label, F.tail e, ?_, (), hlast, (), ?_, F.build_parts e, ?_⟩
    · rw [hbyte]
      omega
    · rwa [hbyte]
    · rwa [hbyte, ← htailLen, ← hnext]
    · rw [F.build_parts]
      exact hlist.check
    · omega

theorem isChain_cons_previous {κ : Type} {R : κ → κ → Prop} {previous : Option κ} {k : κ}
    {ks : List κ} : (previous.toList ++ k :: ks).IsChain R ↔
      (∀ prev ∈ previous, R prev k) ∧ (k :: ks).IsChain R := by
  cases previous with
  | none => simp
  | some prev => simp [List.isChain_cons_cons]

/-- The decoder's loop reads the entries whose bytes stand there, in strictly ascending
order. -/
theorem decodeEntries_eq_ok (hpos : pos ≤ checksumAt) (hsum : checksumAt ≤ bytes.length) :
    F.decodeEntries bytes checksumAt networkId count pos previous = .ok (es, last) ↔
      es.length = count ∧ (∀ e ∈ es, F.Listable networkId e) ∧
        (previous.toList ++ es.map F.key).IsChain (· < ·) ∧
        Spells bytes pos last (es.flatMap F.entryBytes) ∧ last ≤ checksumAt := by
  induction count generalizing pos previous es with
  | zero =>
    simp only [decodeEntries, Except.ok.injEq, Prod.mk.injEq, List.length_eq_zero_iff]
    constructor
    · rintro ⟨rfl, rfl⟩
      refine ⟨rfl, by simp, ?_, spells_nil (hpos.trans hsum), hpos⟩
      cases previous <;> simp
    · rintro ⟨rfl, -, -, hrange, -⟩
      exact ⟨rfl, hrange.length.symm⟩
  | succ count ih =>
    simp only [decodeEntries, ok_rules, Prod.exists, decodeEntry_eq_ok, Prod.mk.injEq]
    constructor
    · rintro ⟨e, next, ⟨hlist, hprev, hentry, hnext⟩, rest, last', hrest, rfl, rfl⟩
      rcases (ih hnext).mp hrest with ⟨hlength, hlisted, hkeys, hbytes, hlast⟩
      refine ⟨by simp [hlength], List.forall_mem_cons.mpr ⟨hlist, hlisted⟩, ?_, ?_, hlast⟩
      · rw [List.map_cons, isChain_cons_previous]
        exact ⟨hprev, hkeys⟩
      · have hpos' := hentry.length
        rw [List.flatMap_cons, spells_append, ← hpos']
        exact ⟨hentry, hbytes⟩
    · rintro ⟨hlength, hlisted, hkeys, hbytes, hlast⟩
      cases es with
      | nil => simp at hlength
      | cons e rest =>
        rw [List.flatMap_cons, spells_append] at hbytes
        rw [List.map_cons, isChain_cons_previous] at hkeys
        rw [List.forall_mem_cons] at hlisted
        have hnext : pos + (F.entryBytes e).length ≤ checksumAt := by
          have := hbytes.2.length
          omega
        refine ⟨e, _, ⟨hlisted.1, hkeys.1, hbytes.1, hnext⟩, rest, last, ?_, rfl, rfl⟩
        exact (ih hnext).mpr ⟨by simpa using hlength, hlisted.2, hkeys.2, hbytes.2, hlast⟩

/-- The encoder's loop writes the entries one after the other unless two neighbours have one
key. -/
theorem encodeEntries_eq_ok {b : Bytes} :
    F.encodeEntries networkId previous es = .ok b ↔
      (∀ e ∈ es, F.Listable networkId e) ∧
        (previous.toList ++ es.map F.key).IsChain (· ≠ ·) ∧ b = es.flatMap F.entryBytes := by
  induction es generalizing previous b with
  | nil =>
    cases previous <;> simp [encodeEntries, eq_comm]
  | cons e es ih =>
    simp only [encodeEntries, ok_rules, refuse_eq_ok, not_or, not_not, ih, List.forall_mem_cons,
      List.map_cons, isChain_cons_previous, List.flatMap_cons]
    constructor
    · rintro ⟨-, ⟨hrole, hlabel⟩, ⟨⟩, hcheck, -, hprev, _, ⟨hes, hkeys, rfl⟩, rfl⟩
      refine ⟨⟨⟨hrole, hlabel, hcheck⟩, hes⟩, ⟨?_, hkeys⟩, rfl⟩
      rintro prev hmem rfl
      exact hprev hmem
    · rintro ⟨⟨he, hes⟩, ⟨hprev, hkeys⟩, rfl⟩
      exact ⟨(), ⟨he.role, he.label⟩, (), he.check, (), fun heq => hprev _ heq rfl, _,
        ⟨hes, hkeys, rfl⟩, rfl⟩

/-! ## Whole files -/

theorem isChain_lt_of_ne {κ : Type} [PartialOrder κ] {ks : List κ} (hle : ks.IsChain (· ≤ ·))
    (hne : ks.IsChain (· ≠ ·)) : ks.IsChain (· < ·) := by
  induction ks with
  | nil => exact .nil
  | cons k ks ih =>
    cases ks with
    | nil => exact .singleton k
    | cons k' ks =>
      rw [List.isChain_cons_cons] at hle hne ⊢
      exact ⟨lt_of_le_of_ne hle.1 hne.1, ih hle.2 hne.2⟩

theorem perm_ordered (es : List E) : (F.ordered es).Perm es := List.perm_insertionSort _ es

/-- Sorting puts the keys in ascending order. -/
theorem isChain_ordered (es : List E) : ((F.ordered es).map F.key).IsChain (· ≤ ·) := by
  have htotal : Std.Total fun a b : E => F.key a ≤ F.key b := ⟨fun a b => le_total _ _⟩
  have htrans : IsTrans E fun a b => F.key a ≤ F.key b := ⟨fun _ _ _ => le_trans⟩
  exact (List.pairwise_map.mpr (List.pairwise_insertionSort _ es)).isChain

theorem ordered_of_isChain (h : (es.map F.key).IsChain (· < ·)) : F.ordered es = es := by
  have hkeys := List.isChain_iff_pairwise.mp h
  exact ((List.pairwise_map.mp hkeys).imp le_of_lt).insertionSort_eq

/-- Entries with keys of their own have one order. -/
theorem ordered_congr {es' : List E} (hperm : es.Perm es')
    (h : ((F.ordered es).map F.key).IsChain (· < ·)) : F.ordered es' = F.ordered es := by
  have hkeys := List.isChain_iff_pairwise.mp h
  have hsame : (F.ordered es').Perm (F.ordered es) :=
    (perm_ordered es').trans (hperm.symm.trans (perm_ordered es).symm)
  have hsorted := fun es => List.isChain_iff_pairwise.mp (isChain_ordered (F := F) es)
  have hnodup : ((F.ordered es).map F.key).Nodup := hkeys.imp ne_of_lt
  refine hsame.eq_of_pairwise ?_ (List.pairwise_map.mp (hsorted es'))
    (List.pairwise_map.mp (hsorted es))
  intro a b ha hb hab hba
  exact List.inj_on_of_nodup_map hnodup (hsame.mem_iff.mp ha) hb (le_antisymm hab hba)

theorem length_header (networkId : UInt32) (count : Nat) :
    (F.header networkId count).length = 16 := by
  simp [header, F.magic_length]

theorem spells_header : Spells bytes 0 16 (F.header networkId count) ↔
    Spells bytes 0 8 F.magic ∧ Spells bytes 8 10 (Bytes.u16 F.version) ∧
      Spells bytes 10 14 (Bytes.u32 networkId) ∧
      Spells bytes 14 16 (Bytes.u16 (UInt16.ofNat count)) := by
  rw [header, spells_append, spells_append, spells_append]
  simp only [List.length_append, Bytes.length_be, F.magic_length, Nat.zero_add, Nat.reduceAdd,
    and_assoc]

section Files

variable [Crypto]

/-- The file that lists the given entries as they come. -/
def file (F : WalletFormat E) (networkId : UInt32) (es : List E) : Bytes :=
  let body := F.header networkId es.length ++ es.flatMap F.entryBytes
  body ++ Bytes.b32 (Crypto.sha256 body)

/-- Entries that make up a file: not too many, each fit to be listed, in strictly ascending
order. -/
structure FileEntries (F : WalletFormat E) (networkId : UInt32) (es : List E) : Prop where
  count : es.length ≤ maxWalletEntries
  listable : ∀ e ∈ es, F.Listable networkId e
  keys : (es.map F.key).IsChain (· < ·)

theorem encode_eq_ok {b : Bytes} : F.encode networkId es = .ok b ↔
    F.FileEntries networkId (F.ordered es) ∧ b = F.file networkId (F.ordered es) := by
  have hlength := (perm_ordered (F := F) es).length_eq
  simp only [encode, ok_rules, refuse_eq_ok, encodeEntries_eq_ok, Option.toList_none,
    List.nil_append, not_or, not_lt]
  constructor
  · rintro ⟨-, ⟨hcount, -⟩, _, ⟨hlist, hkeys, rfl⟩, rfl⟩
    exact ⟨⟨hlength ▸ hcount, hlist, isChain_lt_of_ne (isChain_ordered es) hkeys⟩, rfl⟩
  · rintro ⟨hentries, rfl⟩
    have hcount : es.length ≤ 4096 := hlength ▸ hentries.count
    exact ⟨(), ⟨hcount, by omega⟩, _,
      ⟨hentries.listable, hentries.keys.imp fun _ _ => ne_of_lt, rfl⟩, rfl⟩

/-- A file is its header, its entries and the hash of both. -/
theorem eq_file_iff {checksumAt : Nat} (hsum : checksumAt + 32 = bytes.length) :
    bytes = F.file networkId es ↔
      Spells bytes 0 16 (F.header networkId es.length) ∧
        Spells bytes 16 checksumAt (es.flatMap F.entryBytes) ∧
        ∃ body, Spells bytes 0 checksumAt body ∧
          Spells bytes checksumAt bytes.length (Bytes.b32 (Crypto.sha256 body)) := by
  have hbody : Spells bytes 0 checksumAt (F.header networkId es.length ++ es.flatMap F.entryBytes) ↔
      Spells bytes 0 16 (F.header networkId es.length) ∧
        Spells bytes 16 checksumAt (es.flatMap F.entryBytes) := by
    rw [spells_append, length_header]
  constructor
  · intro h
    have hwhole : Spells bytes 0 bytes.length _ := spells_whole.mpr h.symm
    rw [file, spells_append] at hwhole
    have hat := hwhole.2.length
    rw [Bytes.length_be] at hat
    have hend :
        0 + (F.header networkId es.length ++ es.flatMap F.entryBytes).length = checksumAt := by
      omega
    rw [hend] at hwhole
    have hparts := hbody.mp hwhole.1
    exact ⟨hparts.1, hparts.2, _, hwhole⟩
  · rintro ⟨hheader, hentries, body, hspells, hhash⟩
    have hlisted := hbody.mpr ⟨hheader, hentries⟩
    rw [hspells.unique hlisted] at hhash
    refine (spells_whole.mp (spells_append.mpr ⟨?_, ?_⟩)).symm
    · rwa [← hlisted.length]
    · rwa [← hlisted.length]

theorem decode_eq_ok : F.decode bytes = .ok (networkId, es) ↔
    F.FileEntries networkId es ∧ bytes = F.file networkId es := by
  simp only [decode, ok_rules, refuse_eq_ok, range_eq_ok, Prod.mk.injEq, Prod.exists, not_not,
    not_lt]
  constructor
  · rintro ⟨-, hlen, body, hbody, _, hchecksum, -, rfl, _, hmagic, -, rfl, version, hversion, -, hv,
      network, hnetwork, count, hcount, -, hmax, es, pos, hloop, -, rfl, rfl, rfl⟩
    rcases (decodeEntries_eq_ok (by omega) (by omega)).mp hloop with
      ⟨hlength, hlist, hkeys, hentries, -⟩
    have hversion' : Bytes.u16 F.version = version := by
      rw [← hv, Bytes.u16_toU16 (by have := hversion.length; omega)]
    have hnetwork' : Bytes.u32 (Bytes.toU32 network) = network :=
      Bytes.u32_toU32 (by have := hnetwork.length; omega)
    have hcount' : Bytes.u16 (UInt16.ofNat es.length) = count := by
      rw [hlength, UInt16.ofNat_toNat, Bytes.u16_toU16 (by have := hcount.length; omega)]
    refine ⟨⟨hlength ▸ hmax, hlist, hkeys⟩, (eq_file_iff (by omega)).mpr ⟨?_, hentries, body, hbody,
      hchecksum⟩⟩
    rw [spells_header, hversion', hnetwork', hcount']
    exact ⟨hmagic, hversion, hnetwork, hcount⟩
  · rintro ⟨hentries, hfile⟩
    have hlen : 48 ≤ bytes.length := by
      rw [hfile, file, List.length_append, List.length_append, length_header, Bytes.length_be]
      omega
    rcases (eq_file_iff (Nat.sub_add_cancel (by omega))).mp hfile with
      ⟨hheader, hlisted, body, hbody, hchecksum⟩
    rcases spells_header.mp hheader with ⟨hmagic, hversion, hnetwork, hcount⟩
    have hsmall : (UInt16.ofNat es.length).toNat = es.length := by
      have hmax : es.length ≤ 4096 := hentries.count
      rw [UInt16.toNat_ofNat']
      omega
    refine ⟨(), hlen, body, hbody, _, hchecksum, (), rfl, _, hmagic, (), rfl, _, hversion, (),
      Bytes.toU16_u16 _, _, hnetwork, _, hcount, (), ?_, es, bytes.length - 32, ?_, (), rfl,
      Bytes.toU32_u32 _, rfl⟩
    · rw [Bytes.toU16_u16, hsmall]
      exact hentries.count
    · rw [Bytes.toU16_u16, hsmall, Bytes.toU32_u32, decodeEntries_eq_ok (by omega) (by omega)]
      exact ⟨rfl, hentries.listable, hentries.keys, hlisted, le_rfl⟩

end Files

/-! ## Canonical codecs -/

/-- A round of the loop that starts inside the body reads inside the file. -/
theorem inBounds_decodeEntry (hsum : checksumAt ≤ bytes.length) :
    InBounds (F.decodeEntry bytes checksumAt networkId pos previous) := by
  refine .refuse_bind fun hpos => ?_
  refine .bind (.byteAt (by omega)) fun _ _ => .bind (.lift _) fun _ _ => .refuse_bind fun _ => ?_
  refine .bind (.byteAt (by omega)) fun _ _ => .refuse_bind fun hend => ?_
  simp only [not_or, not_lt] at hend
  refine .bind (.range (by omega) (by omega)) fun _ _ => .refuse_bind fun _ => ?_
  refine .bind (.range (by omega) (by omega)) fun _ _ => .refuse_bind fun _ => ?_
  exact .bind (F.check_inBounds _ _) fun _ _ => .ok _

theorem inBounds_decodeEntries (hsum : checksumAt ≤ bytes.length) :
    InBounds (F.decodeEntries bytes checksumAt networkId count pos previous) := by
  induction count generalizing pos previous with
  | zero => exact .ok _
  | succ count ih => exact .bind (inBounds_decodeEntry hsum) fun _ _ => .bind ih fun _ _ => .ok _

theorem inBounds_decode [Crypto] (F : WalletFormat E) (bytes : Bytes) :
    InBounds (F.decode bytes) := by
  refine .refuse_bind fun hlen => ?_
  refine .bind (.range (by omega) (by omega)) fun _ _ => ?_
  refine .bind (.range (by omega) (by omega)) fun _ _ => .refuse_bind fun _ => ?_
  refine .bind (.range (by omega) (by omega)) fun _ _ => .refuse_bind fun _ => ?_
  refine .bind (.range (by omega) (by omega)) fun _ _ => .refuse_bind fun _ => ?_
  refine .bind (.range (by omega) (by omega)) fun _ _ => ?_
  refine .bind (.range (by omega) (by omega)) fun _ _ => .refuse_bind fun _ => ?_
  refine .bind (inBounds_decodeEntries (by omega)) fun _ _ => ?_
  exact .refuse_bind fun _ => .ok _

end WalletFormat

/-- What it is for a wallet file codec to be canonical: encoding loses only the order the
entries were given in, and nothing is decoded but what is encoded. -/
structure CanonicalCodec {E : Type} (key : E → ℕ ×ₗ List ℕ)
    (encode : UInt32 → List E → Except (Fault KeystoreError) Bytes)
    (decode : Bytes → Except (Fault KeystoreError) (UInt32 × List E)) : Prop where
  decode_encode : ∀ networkId entries b, encode networkId entries = .ok b →
    decode b = .ok (networkId, entries.insertionSort fun x y => key x ≤ key y)
  encode_perm : ∀ networkId entries entries' b, entries.Perm entries' →
    encode networkId entries = .ok b → encode networkId entries' = .ok b
  encode_decode : ∀ b networkId entries, decode b = .ok (networkId, entries) →
    encode networkId entries = .ok b
  decode_inBounds : ∀ b, InBounds (decode b)

namespace WalletFormat

/-- The codec of either format is canonical. -/
theorem canonical [Crypto] {E : Type} (F : WalletFormat E) :
    CanonicalCodec F.key F.encode F.decode where
  decode_encode := by
    intro networkId entries b h
    exact decode_eq_ok.mpr (encode_eq_ok.mp h)
  encode_perm := by
    intro networkId entries entries' b hperm h
    rw [encode_eq_ok] at h ⊢
    rwa [ordered_congr hperm h.1.keys]
  encode_decode := by
    intro b networkId entries h
    rw [decode_eq_ok] at h
    rwa [encode_eq_ok, ordered_of_isChain h.1.keys]
  decode_inBounds := F.inBounds_decode

end WalletFormat

/-! ## Wallet backups -/

/-- A key in a backup. -/
structure WalletBackupEntry where
  role : KeyRole
  label : Bytes
  publicKey : Bytes32
  secretFile : Bytes
deriving DecidableEq, Repr

/-- The secret file of a backed-up key must be for the key it is listed as. -/
def checkBackupEntry (networkId : UInt32) (entry : WalletBackupEntry) :
    Except (Fault KeystoreError) Unit := do
  let metadata ← inspect entry.secretFile
  refuse (metadata.role ≠ entry.role ∨ metadata.networkId ≠ networkId ∨
    metadata.publicKey ≠ entry.publicKey) .backupEntryMismatch

def walletBackupFormat : WalletFormat WalletBackupEntry where
  magic := Bytes.ascii "MUTBKUP1"
  version := 1
  bad := .badWalletBackup
  role := WalletBackupEntry.role
  label := WalletBackupEntry.label
  tail entry := Bytes.b32 entry.publicKey ++ entry.secretFile
  tailLen := 32 + fileLen
  build role label tail := ⟨role, label, Bytes.toB32 (tail.take 32), tail.drop 32⟩
  check := checkBackupEntry
  magic_length := rfl
  tail_length := by
    intro networkId entry h
    rcases bind_eq_ok.mp h with ⟨metadata, hinspect, -⟩
    rw [List.length_append, Bytes.length_be, length_of_inspect hinspect]
  build_parts entry := by
    rw [Bytes.take_be_append, Bytes.drop_be_append, Bytes.toB32_b32]
  role_build _ _ _ := rfl
  label_build _ _ _ := rfl
  tail_build := by
    intro role label tail h
    have hkey : (tail.take 32).length = 32 := by
      rw [List.length_take, h]
      rfl
    rw [Bytes.b32_toB32 hkey, List.take_append_drop]
  check_inBounds networkId entry :=
    .bind (inBounds_inspect _) fun _ _ => .refuse _ _

/-! ## Watch wallets -/

/-- A key that is only watched. -/
structure WatchWalletEntry where
  role : KeyRole
  label : Bytes
  publicKey : Bytes32
deriving DecidableEq, Repr

def watchWalletFormat : WalletFormat WatchWalletEntry where
  magic := Bytes.ascii "MUTWATCH"
  version := 1
  bad := .badWatchWallet
  role := WatchWalletEntry.role
  label := WatchWalletEntry.label
  tail entry := Bytes.b32 entry.publicKey
  tailLen := 32
  build role label tail := ⟨role, label, Bytes.toB32 tail⟩
  check _ _ := .ok ()
  magic_length := rfl
  tail_length _ _ _ := Bytes.length_be ..
  build_parts entry := by rw [Bytes.toB32_b32]
  role_build _ _ _ := rfl
  label_build _ _ _ := rfl
  tail_build _ _ _ h := Bytes.b32_toB32 h
  check_inBounds _ _ := .ok _

section Codecs

variable [Crypto]

def encodeWalletBackup : UInt32 → List WalletBackupEntry → Except (Fault KeystoreError) Bytes :=
  walletBackupFormat.encode

def decodeWalletBackup : Bytes → Except (Fault KeystoreError) (UInt32 × List WalletBackupEntry) :=
  walletBackupFormat.decode

def encodeWatchWallet : UInt32 → List WatchWalletEntry → Except (Fault KeystoreError) Bytes :=
  watchWalletFormat.encode

def decodeWatchWallet : Bytes → Except (Fault KeystoreError) (UInt32 × List WatchWalletEntry) :=
  watchWalletFormat.decode

/-- Both wallet file codecs are canonical: what is encoded decodes to the entries sorted by
role and label, whatever order they were given in, what is decoded encodes to the same
bytes, and no input is read out of bounds. -/
theorem wallet_files_canonical :
    CanonicalCodec (fun e : WalletBackupEntry => walletSortKey e.role e.label)
        encodeWalletBackup decodeWalletBackup ∧
      CanonicalCodec (fun e : WatchWalletEntry => walletSortKey e.role e.label)
        encodeWatchWallet decodeWatchWallet :=
  ⟨walletBackupFormat.canonical, watchWalletFormat.canonical⟩

end Codecs

section Sample

attribute [local instance] sampleCrypto

/-- A secret file for the owner key numbered {lit}`k`, with everything encrypted left zero. -/
def sampleSecretFile (k : Nat) : Bytes :=
  secretMagic ++ Bytes.u16 1 ++ [2, 0] ++ Bytes.u32 9 ++ Bytes.u32 8 ++ Bytes.u32 1 ++
    Bytes.u32 1 ++ List.replicate 28 0 ++ Bytes.be 32 k ++ List.replicate 64 0

-- two keys given in the wrong order come back sorted by label
example :
    (encodeWalletBackup 9 [⟨.licenseOwner, [98], 5, sampleSecretFile 5⟩,
        ⟨.licenseOwner, [97], 4, sampleSecretFile 4⟩] >>= decodeWalletBackup) =
      .ok (9, [⟨.licenseOwner, [97], 4, sampleSecretFile 4⟩,
        ⟨.licenseOwner, [98], 5, sampleSecretFile 5⟩]) := by
  decide +kernel

end Sample

end Keystore
end Mutiny
