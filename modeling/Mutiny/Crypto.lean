import Mutiny.Lib.Bytes

/-!
# Cryptographic primitives

SHA-256, Argon2id and Ed25519 come from libraries outside the repository.  The
model takes them as a parameter: a deterministic function each, about which
nothing is assumed except where a theorem says so.
-/

namespace Mutiny

/-- The primitives the node calls.  Argon2id runs with the fixed consensus
parameters (64 KiB, two passes, one lane, 32 bytes of output), so it is a
function of the seed and the salt. -/
class Crypto where
  sha256 : Bytes → Bytes32
  argon2id : Bytes32 → Bytes32 → Bytes32
  /-- Whether 32 bytes decode to an Ed25519 verifying key. -/
  validPublicKey : Bytes32 → Bool
  /-- Cofactored verification of a signature over a message. -/
  verify : Bytes32 → Bytes → Bytes64 → Bool
  /-- Strict verification, which also refuses weak keys. -/
  verifyStrict : Bytes32 → Bytes → Bytes64 → Bool
  /-- The verifying key of a secret key. -/
  publicKey : Bytes32 → Bytes32
  /-- The signature a secret key makes of a message. -/
  sign : Bytes32 → Bytes → Bytes64

variable [Crypto]

/-- SHA-256 of a domain tag followed by the parts. -/
def sha256Domain (domain : Bytes) (parts : List Bytes) : Bytes32 :=
  Crypto.sha256 (domain ++ parts.flatten)

/-- Two inputs on which SHA-256 collides. -/
def Collision (x y : Bytes) : Prop := x ≠ y ∧ Crypto.sha256 x = Crypto.sha256 y

theorem eq_or_collision {x y : Bytes} (h : Crypto.sha256 x = Crypto.sha256 y) :
    x = y ∨ Collision x y := by
  by_cases hxy : x = y
  · exact .inl hxy
  · exact .inr ⟨hxy, h⟩

/-- Primitives for evaluating the model on concrete inputs: the hash is the input
read as a number modulo a prime-sized one, every key is valid and the signature of a
message is the number zero. -/
@[reducible]
def sampleCrypto : Crypto where
  sha256 bytes := BitVec.ofNat 256 (Bytes.beNat bytes % (2 ^ 256 - 189))
  argon2id seed _ := seed
  validPublicKey _ := true
  verify _ _ signature := signature == 0
  verifyStrict _ _ signature := signature == 0
  publicKey secret := secret
  sign _ _ := 0

end Mutiny
