import Mutiny.Lib.Bytes
import Mutiny.Lib.Result

/-!
# Frames

What peers send each other: a header with the type of the message and the identifier of
the request, and a bounded payload.
-/

namespace Mutiny

open Result

/-- Why a frame or a handshake is refused. -/
inductive P2pError
  | io (reason : String)
  | badMagic
  | badVersion
  | badFlags
  | payloadTooLarge
  | badChecksum
  | unexpectedMessage
  | networkMismatch
  | nonceMismatch
  | badPublicKey
  | badSignature
  | badHandshakeLength
  | badNodeKey
deriving DecidableEq, Repr

def p2pVersion : UInt16 := 1

def maxP2pPayload : Nat := 1048576

/-- A message between nodes. -/
structure Frame where
  magic : UInt32
  version : UInt16
  messageType : UInt16
  flags : UInt16
  requestId : UInt64
  payload : Bytes
deriving DecidableEq, Repr

/-- A frame, if its payload fits. -/
def Frame.new (magic : UInt32) (messageType : UInt16) (requestId : UInt64) (payload : Bytes) :
    Except P2pError Frame := do
  reject (maxP2pPayload < payload.length) .payloadTooLarge
  .ok { magic, version := p2pVersion, messageType, flags := 0, requestId, payload }

/-- What reading accepts from the connection. -/
def Frame.Received (magic : UInt32) (f : Frame) : Prop :=
  f.magic = magic ∧ f.version = p2pVersion ∧ f.flags = 0 ∧ f.payload.length ≤ maxP2pPayload

instance (magic : UInt32) (f : Frame) : Decidable (f.Received magic) :=
  inferInstanceAs (Decidable (_ ∧ _))

/-- What the connection gives a run that waits for a frame: the frame, and whether what the run
sends next is written. -/
structure Exchange where
  received : Except P2pError Frame
  written : Except P2pError Unit

/-- Send a frame. -/
def sendFrame (magic : UInt32) (messageType : UInt16) (requestId : UInt64) (payload : Bytes)
    (written : Except P2pError Unit) : Except P2pError Unit := do
  let _ ← Frame.new magic messageType requestId payload
  written

end Mutiny
