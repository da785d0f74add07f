import Courier.Device.Peer
import Courier.Field
import Courier.Instruction
import Courier.Path
import Courier.Strategy

/-!
# Signing applications

A stand-in for the application on a device.  Its keys and signatures are digests
of a seed, the packed path and the transaction, so that every answer is known in
advance.  It takes its payloads either from single plain frames or through block
transfers.

* `Signer.perform` answers for the payloads of an instruction.
* `Signer.answer` answers one command; in a block transfer the instruction has to
  stay the same until the device is idle again.
-/

namespace Courier

/-- A signing application on a device. -/
structure Signer where
  mode : SendMode
  peer : Peer := {}
  approves : Bool := true
  exchanges : Nat := 0
  running : Option UInt8 := none
  deriving DecidableEq

namespace Signer

/-- The secret from which the keys are made. -/
def seed : Bytes :=
  List.replicate 32 0x5a

def publicKey (path : Bytes) : Bytes :=
  Digest.sha256 (seed ++ path)

def chainCode (path : Bytes) : Bytes :=
  Digest.sha256 (publicKey path ++ Utf8.encode "chain code")

/-- The signature of a transaction with the key of a packed path. -/
def signature (path tx : Bytes) : Bytes :=
  Digest.sha256 (publicKey path ++ tx) ++ Digest.sha256 (tx ++ publicKey path)

def appName : String := "alamgu example"

/-- The answer to a request for the version. -/
def versionBytes : Bytes :=
  [0, 1, 0] ++ Utf8.encode appName

/-- The answer to a request for a public key. -/
def keyBytes (path : Bytes) : Bytes :=
  Field.encodeCounted (publicKey path) ++ Field.encodeCounted (chainCode path)

/-- Says whether bytes are a packed path. -/
def isPath : Bytes → Bool
  | [] => false
  | count :: rest =>
      count.toNat ≤ Path.maxDepth && rest.length == 4 * count.toNat

/-- Answers for a public key, after an approval if one is asked for. -/
def performKey (needsApproval approves : Bool) :
    List Bytes → Except Status Bytes
  | [] => .error Status.wrongApduLength
  | path :: _ =>
      if !isPath path then .error Status.displayBip32PathFail
      else if needsApproval && !approves then .error Status.deny
      else .ok (keyBytes path)

/-- Answers for a signature: the transaction stands behind its length. -/
def performSign (approves : Bool) : List Bytes → Except Status Bytes
  | [framed, path] =>
      match Field.sized framed 4 with
      | .error _ => .error Status.wrongTxLength
      | .ok (length, tx) =>
          if Bytes.toNatLE length ≠ tx.length then .error Status.wrongTxLength
          else if !isPath path then .error Status.displayBip32PathFail
          else if !approves then .error Status.deny
          else .ok (signature path tx)
  | _ => .error Status.wrongApduLength

/-- Answers for the payloads of an instruction. -/
def perform (approves : Bool) : Instruction → Application
  | .getVersion => fun _ => .ok versionBytes
  | .getPublicKey => performKey false approves
  | .verifyAddress => performKey true approves
  | .signTx => performSign approves

/-- Answers a plain frame, which is the whole payload.  A transaction does not
come in a plain frame. -/
def answerPlain (s : Signer) (ins : Instruction) (body : Bytes) : Response :=
  if ins = .signTx then .error (Failure.refusal Status.insNotSupported)
  else
    match perform s.approves ins [body] with
    | .ok output => .ok output
    | .error status => .error (Failure.refusal status)

/-- Answers a message of a block transfer. -/
def answerBlocks (s : Signer) (ins : Instruction) (code : UInt8) (body : Bytes) :
    Response × Signer :=
  if !s.peer.isIdle && s.running ≠ some code then
    (.error (Failure.refusal Status.badState),
      { s with peer := s.peer.reset, running := none })
  else
    let turn := s.peer.handle (perform s.approves ins) body
    (turn.response,
      { s with
        peer := turn.peer
        running := if turn.peer.isIdle then none else some code })

def answer (s : Signer) (request : Request) : Response × Signer :=
  let s := { s with exchanges := s.exchanges + 1 }
  let h := request.header
  if h.cla ≠ 0 then (.error (Failure.refusal Status.claNotSupported), s)
  else if h.p1 ≠ 0 ∨ h.p2 ≠ 0 then (.error (Failure.refusal Status.wrongP1P2), s)
  else
    match Instruction.ofCode h.ins with
    | .error _ => (.error (Failure.refusal Status.insNotSupported), s)
    | .ok ins =>
        match s.mode with
        | .simple => (s.answerPlain ins request.body, s)
        | .blocks => s.answerBlocks ins h.ins request.body

/-- The application as a channel, with a clock that stands still. -/
def channel : Channel Signer where
  answer := answer
  time s := (0, s)

end Signer
end Courier
