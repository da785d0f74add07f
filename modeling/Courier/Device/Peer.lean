import Courier.Chain
import Courier.Dialogue
import Courier.Message

/-!
# Block transfers, the device's side

The device pulls each payload by following links from its root to the sentinel,
and checks every chunk against the hash that it asked for.  It may push a chunk
to the host and read it back.  Then its application answers for the payloads, and
the answer goes out in fragments.

* `Peer.handle` answers one message of the host.
* `Phase` says what the device waits for.
* `Turn.delivered` shows the payloads handed to the application in a turn.
-/

namespace Courier

/-- What an application makes of the payloads. -/
abbrev Application := List Bytes → Except Status Bytes

/-- What the device waits for.  While it pulls, `finished` holds the payloads it
has, `index` the position of the root it follows and `slices` what it has of that
payload; while it emits, `offset` bytes of the output are on their way. -/
inductive Phase
  | idle
  | pulling (roots : List Hash) (index : Nat) (expecting : Hash)
      (slices : List Bytes) (finished : List Bytes)
  | pushing (payloads : List Bytes)
  | verifying (payloads : List Bytes) (hash : Hash)
  | emitting (output : Bytes) (offset : Nat)
  deriving DecidableEq

/-- The device's side of block transfers. -/
structure Peer where
  phase : Phase := .idle
  fragmentSize : Nat := 48
  push : Option Bytes := none
  deriving DecidableEq

/-- The outcome of one message: the response, the device after it, and the
payloads that the application got, if it was asked. -/
structure Turn where
  response : Response
  peer : Peer
  delivered : Option (List Bytes) := none

namespace Peer

/-- The device with fragments of `size` bytes, or of one byte if that is none. -/
def withFragmentSize (p : Peer) (size : Nat) : Peer :=
  { p with fragmentSize := max size 1 }

def isIdle (p : Peer) : Bool :=
  p.phase == .idle

/-- Drops an operation that is under way. -/
def reset (p : Peer) : Peer :=
  { p with phase := .idle }

/-- Gives the operation up. -/
def abort (p : Peer) (status : Status) : Turn :=
  { response := .error (Failure.refusal status), peer := p.reset }

/-- Says something to the host, and waits in a phase. -/
def say (p : Peer) (message : PeerMessage) (phase : Phase) : Turn :=
  { response := .ok message.encode, peer := { p with phase := phase } }

/-- Sends the output from `offset` on, one fragment or what is left. -/
def emit (p : Peer) (output : Bytes) (offset : Nat) : Turn :=
  let left := output.drop offset
  if p.fragmentSize < left.length then
    p.say (.accumulate (left.take p.fragmentSize))
      (.emitting output (offset + p.fragmentSize))
  else
    p.say (.final left) .idle

/-- Hands the payloads to the application. -/
def finish (p : Peer) (app : Application) (payloads : List Bytes) : Turn :=
  match app payloads with
  | .ok output => { p.emit output 0 with delivered := some payloads }
  | .error status => { p.abort status with delivered := some payloads }

/-- Goes on after the last payload: pushes a chunk if there is one to push. -/
def afterPull (p : Peer) (app : Application) (payloads : List Bytes) : Turn :=
  match p.push with
  | some chunk => p.say (.putChunk chunk) (.pushing payloads)
  | none => p.finish app payloads

/-- Goes on to the first root from `index` on that is not the sentinel.  The
sentinel stands for an empty payload, and nothing is asked for it. -/
def pullFrom (p : Peer) (app : Application) (roots : List Hash) (index : Nat)
    (finished : List Bytes) : List Hash → Turn
  | [] => p.afterPull app finished
  | root :: rest =>
      if root.isZero then
        p.pullFrom app roots (index + 1) (finished ++ [[]]) rest
      else
        p.say (.getChunk root) (.pulling roots index root [] finished)

/-- Goes on with the payloads from `index` on. -/
def pullNext (p : Peer) (app : Application) (roots : List Hash) (index : Nat)
    (finished : List Bytes) : Turn :=
  p.pullFrom app roots index finished (roots.drop index)

/-- Takes in a chunk that was asked for. -/
def receive (p : Peer) (app : Application) (roots : List Hash) (index : Nat)
    (expecting : Hash) (slices finished : List Bytes) (chunk : Bytes) : Turn :=
  if Hash.ofChunk chunk = expecting then
    match Linked.ofBytes chunk with
    | .error _ => p.abort Status.txParsingFail
    | .ok c =>
        if c.next.isZero then
          p.pullNext app roots (index + 1)
            (finished ++ [(slices ++ [c.slice]).flatten])
        else
          p.say (.getChunk c.next)
            (.pulling roots index c.next (slices ++ [c.slice]) finished)
  else p.abort Status.txHashFail

/-- Asks for the pushed chunk back. -/
def readBack (p : Peer) (payloads : List Bytes) : Turn :=
  match p.push with
  | some chunk =>
      p.say (.getChunk (Hash.ofChunk chunk))
        (.verifying payloads (Hash.ofChunk chunk))
  | none => p.abort Status.badState

/-- Compares the chunk that came back with the one that was pushed. -/
def verify (p : Peer) (app : Application) (payloads : List Bytes) (hash : Hash)
    (chunk : Bytes) : Turn :=
  if Hash.ofChunk chunk = hash then
    if p.push = some chunk then p.finish app payloads
    else p.abort Status.badState
  else p.abort Status.txHashFail

/-- Answers a message in the phase that fits it. -/
def dispatch (p : Peer) (app : Application) : Phase → HostMessage → Turn
  | .idle, .start roots => p.pullNext app roots 0 []
  | .pulling roots index expecting slices finished, .chunkFound chunk =>
      p.receive app roots index expecting slices finished chunk
  | .pulling .., .chunkNotFound => p.abort Status.txParsingFail
  | .pushing payloads, .putChunkAck => p.readBack payloads
  | .verifying payloads hash, .chunkFound chunk =>
      p.verify app payloads hash chunk
  | .emitting output offset, .accumulateAck => p.emit output offset
  | _, _ => p.abort Status.badState

/-- Answers one body from the host. -/
def handle (p : Peer) (app : Application) (body : Bytes) : Turn :=
  match HostMessage.decode body with
  | .error _ => p.abort Status.wrongApduLength
  | .ok message => p.dispatch app p.phase message

end Peer

/-- A device that runs one application, whatever the header of a command; it
keeps the payloads that its application got last. -/
structure PeerDevice where
  peer : Peer
  app : Application
  delivered : Option (List Bytes) := none

namespace PeerDevice

def answer (d : PeerDevice) (request : Request) : Response × PeerDevice :=
  let turn := d.peer.handle d.app request.body
  (turn.response,
    { d with
      peer := turn.peer
      delivered := turn.delivered.or d.delivered })

/-- The device as a channel, with a clock that stands still. -/
def channel : Channel PeerDevice where
  answer := answer
  time d := (0, d)

/-- The application that answers with the payloads run together. -/
def echo : Application :=
  fun payloads => .ok payloads.flatten

end PeerDevice
end Courier
