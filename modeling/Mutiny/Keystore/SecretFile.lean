import Mutiny.Crypto
import Mutiny.Lib.Slice

/-!
# Secret files

A secret file holds one encrypted signing key: a header that names the key's role,
network, key-derivation parameters and public key, the seed encrypted with ChaCha20, and
an HMAC over both.  The two keys that encrypt and authenticate come from the passphrase
by Argon2id, which is a parameter here.
-/

namespace Mutiny
namespace Keystore

open Result Slice

/-- Argon2id with 64 bytes of output, as the library offers it. -/
class PasswordHash where
  /-- Whether the memory, iterations and parallelism make a parameter set. -/
  accepts : UInt32 → UInt32 → UInt32 → Bool
  /-- The output for a parameter set, a passphrase and a salt. -/
  derive : UInt32 → UInt32 → UInt32 → Bytes → Bytes → Option Bytes64

/-! ## Keys and their metadata -/

/-- The errors of the key store. -/
inductive KeystoreError where
  | io (message : String)
  | badLength
  | badMagic
  | badVersion
  | badFlags
  | badRole
  | badKdfParams
  | weakPassphrase
  | authenticationFailed
  | roleMismatch
  | networkMismatch
  | publicKeyMismatch
  | alreadyExists
  | argon2Params
  | argon2
  | badWalletBackup
  | badWatchWallet
  | backupChecksumMismatch
  | badWalletLabel
  | tooManyWalletEntries
  | backupEntryMismatch
deriving DecidableEq, Repr

def KeystoreError.message : KeystoreError → String
  | .io message => message
  | .badLength => "invalid Mutiny secret-file length"
  | .badMagic => "invalid Mutiny secret-file magic"
  | .badVersion => "unsupported Mutiny secret-file version"
  | .badFlags => "invalid Mutiny secret-file flags"
  | .badRole => "invalid key role"
  | .badKdfParams => "invalid or unsafe KDF parameters"
  | .weakPassphrase => "passphrase must contain at least 12 bytes"
  | .authenticationFailed => "secret-file authentication failed"
  | .roleMismatch => "secret-file key role mismatch"
  | .networkMismatch => "secret-file NetworkID mismatch"
  | .publicKeyMismatch => "decrypted seed does not match authenticated public key"
  | .alreadyExists => "secret file already exists"
  | .argon2Params => "unable to construct Argon2id parameters"
  | .argon2 => "Argon2id key derivation failed"
  | .badWalletBackup => "invalid wallet backup format"
  | .badWatchWallet => "invalid watch-wallet format"
  | .backupChecksumMismatch => "wallet backup/watch checksum mismatch"
  | .badWalletLabel => "wallet backup/watch key label is invalid"
  | .tooManyWalletEntries => "wallet backup/watch contains too many entries"
  | .backupEntryMismatch => "wallet backup embedded key metadata mismatch"

/-- What a key is for. -/
inductive KeyRole where
  | nodeIdentity
  | licenseOwner
  | licenseMining
deriving DecidableEq, Repr

namespace KeyRole

/-- The byte of a role. -/
def toByte : KeyRole → UInt8
  | nodeIdentity => 1
  | licenseOwner => 2
  | licenseMining => 3

/-- The role of a byte. -/
def fromByte (v : UInt8) : Except KeystoreError KeyRole :=
  if v = 1 then .ok nodeIdentity
  else if v = 2 then .ok licenseOwner
  else if v = 3 then .ok licenseMining
  else .error .badRole

/-- The name of a role. -/
def name : KeyRole → String
  | nodeIdentity => "node"
  | licenseOwner => "owner"
  | licenseMining => "mining"

theorem fromByte_eq_ok {v : UInt8} {role : KeyRole} : fromByte v = .ok role ↔ v = role.toByte := by
  constructor
  · intro h
    unfold fromByte at h
    split_ifs at h <;> cases h <;> assumption
  · rintro rfl
    cases role <;> rfl

end KeyRole

/-- The cost of a password hash. -/
structure KdfParams where
  memoryKib : UInt32
  iterations : UInt32
  parallelism : UInt32
deriving DecidableEq, Repr

def maxMemoryKib : UInt32 := 1048576

def maxIterations : UInt32 := 10

def maxParallelism : UInt32 := 16

/-- The cost is within its limits. -/
def KdfParams.validate (params : KdfParams) : Except KeystoreError Unit := do
  reject (params.memoryKib < 8 ∨ maxMemoryKib < params.memoryKib) .badKdfParams
  reject (params.iterations = 0 ∨ maxIterations < params.iterations) .badKdfParams
  reject (params.parallelism = 0 ∨ maxParallelism < params.parallelism) .badKdfParams

/-- What a file says in the open. -/
structure PublicMetadata where
  role : KeyRole
  networkId : UInt32
  params : KdfParams
  publicKey : Bytes32
deriving DecidableEq, Repr

/-- The length of a secret file. -/
def fileLen : Nat := 152

def secretMagic : Bytes := Bytes.ascii "MUTKEYV1"

def secretVersion : UInt16 := 1

def readU32 (input : Bytes) (pos : Nat) : Except (Fault KeystoreError) UInt32 := do
  let field ← range input pos (pos + 4)
  .ok (Bytes.toU32 field)

/-- The open part of a file. -/
def parseMetadata (bytes : Bytes) : Except (Fault KeystoreError) PublicMetadata := do
  refuse (bytes.length ≠ fileLen) .badLength
  let magic ← range bytes 0 8
  refuse (magic ≠ secretMagic) .badMagic
  let version ← range bytes 8 10
  refuse (Bytes.toU16 version ≠ secretVersion) .badVersion
  let roleByte ← byteAt bytes 10
  let role ← lift (KeyRole.fromByte roleByte)
  let flags ← byteAt bytes 11
  refuse (flags ≠ 0) .badFlags
  let networkId ← readU32 bytes 12
  let memoryKib ← readU32 bytes 16
  let iterations ← readU32 bytes 20
  let parallelism ← readU32 bytes 24
  let params : KdfParams := ⟨memoryKib, iterations, parallelism⟩
  lift params.validate
  let publicKey ← range bytes 56 88
  .ok ⟨role, networkId, params, Bytes.toB32 publicKey⟩

def inspect (bytes : Bytes) : Except (Fault KeystoreError) PublicMetadata := parseMetadata bytes

theorem length_of_inspect {bytes : Bytes} {metadata : PublicMetadata}
    (h : inspect bytes = .ok metadata) : bytes.length = fileLen := by
  simp only [inspect, parseMetadata, bind_eq_ok, refuse_eq_ok, not_not] at h
  rcases h with ⟨-, hlen, -⟩
  exact hlen

theorem inBounds_readU32 {input : Bytes} {pos : Nat} (h : pos + 4 ≤ input.length) :
    InBounds (readU32 input pos) :=
  .bind (.range (by omega) h) fun _ _ => .ok _

/-- The metadata of no file is read out of bounds. -/
theorem inBounds_inspect (bytes : Bytes) : InBounds (inspect bytes) := by
  refine .refuse_bind fun hlen => ?_
  -- every position below is inside the fixed length
  have hlen : bytes.length = 152 := not_not.mp hlen
  refine .bind (.range (by omega) (by omega)) fun _ _ => .refuse_bind fun _ => ?_
  refine .bind (.range (by omega) (by omega)) fun _ _ => .refuse_bind fun _ => ?_
  refine .bind (.byteAt (by omega)) fun _ _ => .bind (.lift _) fun _ _ => ?_
  refine .bind (.byteAt (by omega)) fun _ _ => .refuse_bind fun _ => ?_
  refine .bind (inBounds_readU32 (by omega)) fun _ _ => ?_
  refine .bind (inBounds_readU32 (by omega)) fun _ _ => ?_
  refine .bind (inBounds_readU32 (by omega)) fun _ _ => ?_
  refine .bind (inBounds_readU32 (by omega)) fun _ _ => ?_
  refine .bind (.lift _) fun _ _ => .bind (.range (by omega) (by omega)) fun _ _ => .ok _

/-! ## The header -/

/-- The part of a secret file in front of the encrypted seed. -/
def secretHeader (role : KeyRole) (networkId : UInt32) (params : KdfParams) (salt nonce : Bytes)
    (publicKey : Bytes32) : Bytes :=
  secretMagic ++ (Bytes.u16 secretVersion ++ ([role.toByte] ++ ([0] ++ (Bytes.u32 networkId ++
    (Bytes.u32 params.memoryKib ++ (Bytes.u32 params.iterations ++ (Bytes.u32 params.parallelism ++
    (salt ++ (nonce ++ Bytes.b32 publicKey)))))))))

/-! ## ChaCha20 -/

/-- A rotation of a word. -/
def rotateLeft (x : UInt32) (n : UInt32) : UInt32 := (x <<< n) ||| (x >>> (32 - n))

/-- {lit}`x += y; z ^= x; z <<<= n`, on three words of the state. -/
def addXorRotate (x y z : Nat) (n : UInt32) (state : List UInt32) : List UInt32 :=
  let sum := state.getD x 0 + state.getD y 0
  (state.set x sum).set z (rotateLeft (state.getD z 0 ^^^ sum) n)

/-- A quarter round of ChaCha20. -/
def quarterRound (state : List UInt32) (a b c d : Nat) : List UInt32 :=
  addXorRotate c d b 7 (addXorRotate a b d 8 (addXorRotate c d b 12 (addXorRotate a b d 16 state)))

/-- Columns, then diagonals. -/
def doubleRound (state : List UInt32) : List UInt32 :=
  let state := quarterRound state 0 4 8 12
  let state := quarterRound state 1 5 9 13
  let state := quarterRound state 2 6 10 14
  let state := quarterRound state 3 7 11 15
  let state := quarterRound state 0 5 10 15
  let state := quarterRound state 1 6 11 12
  let state := quarterRound state 2 7 8 13
  quarterRound state 3 4 9 14

/-- A word, low byte first. -/
def leU32 (input : Bytes) : UInt32 := UInt32.ofNat (Bytes.leNat input)

def chacha20Initial (key : Bytes) (counter : UInt32) (nonce : Bytes) : List UInt32 :=
  [0x61707865, 0x3320646e, 0x79622d32, 0x6b206574] ++
    (List.range 8).map (fun i => leU32 ((key.drop (i * 4)).take 4)) ++
    [counter, leU32 (nonce.take 4), leU32 ((nonce.drop 4).take 4), leU32 ((nonce.drop 8).take 4)]

def chacha20Block (key : Bytes) (counter : UInt32) (nonce : Bytes) : Bytes :=
  let initial := chacha20Initial key counter nonce
  let working := doubleRound^[10] initial
  (List.zipWith (fun w i => Bytes.le32 (w + i)) working initial).flatten

/-- The key stream is added chunk by chunk, under a counter of its own for each chunk. -/
def xorChunks (stream : UInt32 → Bytes) : Nat → UInt32 → Bytes → Bytes
  | 0, _, _ => []
  | fuel + 1, counter, input =>
    List.zipWith (fun x y => x ^^^ y) (input.take 64) (stream counter) ++
      xorChunks stream fuel (counter + 1) (input.drop 64)

def chacha20Xor (key nonce input : Bytes) : Bytes :=
  xorChunks (fun counter => chacha20Block key counter nonce) input.length 1 input

/-! ## Sealing and opening -/

section Seal

variable [Crypto] [PasswordHash]

def hmacSha256 (key message : Bytes) : Bytes32 :=
  let block :=
    if 64 < key.length then Bytes.b32 (Crypto.sha256 key) ++ List.replicate 32 0
    else key ++ List.replicate (64 - key.length) 0
  let inner := Crypto.sha256 (block.map (0x36 ^^^ ·) ++ message)
  Crypto.sha256 (block.map (0x5c ^^^ ·) ++ Bytes.b32 inner)

def deriveKeys (passphrase salt : Bytes) (params : KdfParams) : Except KeystoreError Bytes64 := do
  params.validate
  reject (¬ PasswordHash.accepts params.memoryKib params.iterations params.parallelism)
    .argon2Params
  okOr (PasswordHash.derive params.memoryKib params.iterations params.parallelism passphrase salt)
    .argon2

def sealSeedWithMaterial (seed : Bytes32) (role : KeyRole) (networkId : UInt32)
    (passphrase : Bytes) (params : KdfParams) (salt nonce : Bytes) :
    Except KeystoreError Bytes := do
  reject (passphrase.length < 12) .weakPassphrase
  params.validate
  let header := secretHeader role networkId params salt nonce (Crypto.publicKey seed)
  let keys ← deriveKeys passphrase salt params
  let ciphertext := chacha20Xor ((Bytes.b64 keys).take 32) nonce (Bytes.b32 seed)
  let tag := hmacSha256 ((Bytes.b64 keys).drop 32) (header ++ ciphertext)
  .ok (header ++ ciphertext ++ Bytes.b32 tag)

/-- The seed of the signing key in a secret file. -/
def openSecret (bytes : Bytes) (expectedRole : KeyRole) (expectedNetworkId : UInt32)
    (passphrase : Bytes) : Except (Fault KeystoreError) Bytes32 := do
  let metadata ← parseMetadata bytes
  let salt ← range bytes 28 44
  let nonce ← range bytes 44 56
  let keys ← lift (deriveKeys passphrase salt metadata.params)
  let authenticated ← range bytes 0 120
  let tag ← range bytes 120 bytes.length
  refuse (Bytes.b32 (hmacSha256 ((Bytes.b64 keys).drop 32) authenticated) ≠ tag)
    .authenticationFailed
  refuse (metadata.role ≠ expectedRole) .roleMismatch
  refuse (metadata.networkId ≠ expectedNetworkId) .networkMismatch
  let ciphertext ← range bytes 88 120
  let plain := chacha20Xor ((Bytes.b64 keys).take 32) nonce ciphertext
  refuse (plain.length ≠ 32) .badLength
  let seed := Bytes.toB32 plain
  refuse (Crypto.publicKey seed ≠ metadata.publicKey) .publicKeyMismatch
  .ok seed

end Seal

end Keystore
end Mutiny
