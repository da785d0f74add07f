import Courier.Chain
import Courier.Dialogue
import Courier.Message

/-!
# Block transfers, the host's side

The host opens a transfer with the roots of its payloads and then answers what
the peer asks for: chunks by their hash, room for chunks that the peer pushes,
and receipts for fragments of the result, until the peer sends the last one.

* `Transfer.start` gives the opening body, `Transfer.step` the answer to one
  message of the peer.
* `Transfer.run` plays a whole transfer under a budget of rounds and of time.
* `Transfer.fail` shapes an error: a refusal that answers "chunk not found" names
  the chunk.
-/

namespace Courier

/-- The budgets of one transfer: exchanges, and milliseconds. -/
structure Limits where
  maxRounds : Nat
  timeout : Nat
  deriving DecidableEq, Repr

def Limits.standard : Limits :=
  ⟨10000, 120000⟩

/-- The slice size unless another is given. -/
def Chain.standardSize : Nat := 180

/-- The host's side of a transfer.  `fragments` holds what came of the result, the
latest first, and `unansweredMiss` the hash that the last message of the peer asked
for in vain. -/
structure Transfer where
  header : Header
  store : Store
  roots : List Hash
  limits : Limits
  stage : Stage := .sending
  fragments : List Bytes := []
  rounds : Nat := 0
  missing : List Hash := []
  unansweredMiss : Option Hash := none

/-- What follows a message of the peer. -/
inductive Move
  | reply (message : HostMessage)
  | finished (result : Bytes)
  deriving DecidableEq

namespace Transfer

/-- A transfer of payloads, cut into slices of `size` bytes. -/
def ofPayloads (header : Header) (payloads : List Bytes) (size : Nat)
    (limits : Limits) : Except Failure Transfer :=
  match Store.empty.linkAll size payloads with
  | .error e => .error e
  | .ok (roots, store) =>
      .ok { header := header, store := store, roots := roots, limits := limits }

/-- Names the missed chunk in a refusal that answers for it. -/
def blame : Failure → Option Hash → Failure
  | .peer status data, some hash => .chunkNotFound hash.toHex status data
  | e, _ => e

/-- Ends the transfer with an error; the partial result is dropped. -/
def fail (t : Transfer) (e : Failure) : Failure × Transfer :=
  (blame e t.unansweredMiss,
    { t with stage := .failed, fragments := [], unansweredMiss := none })

/-- The body that opens the transfer. -/
def start (t : Transfer) : Except Failure Bytes × Transfer :=
  if t.stage = .sending then
    let body := (HostMessage.start t.roots).encode
    if Frame.maxBody < body.length then
      let failed := t.fail (.encoding (.tooManyRoots t.roots.length))
      (.error failed.1, failed.2)
    else
      (.ok body, { t with stage := .awaitingPeer })
  else
    (.error (.protocol (.startedIn t.stage)), t)

/-- The answer to a message of the peer. -/
def dispatch (t : Transfer) : PeerMessage → Move × Transfer
  | .accumulate fragment =>
      (.reply .accumulateAck, { t with fragments := fragment :: t.fragments })
  | .final fragment =>
      (.finished (fragment :: t.fragments).reverse.flatten,
        { t with stage := .done, fragments := [] })
  | .getChunk hash =>
      match t.store.get? hash with
      | some chunk => (.reply (.chunkFound chunk), t)
      | none =>
          (.reply .chunkNotFound,
            { t with
              missing := t.missing ++ [hash]
              unansweredMiss := some hash })
  | .putChunk chunk =>
      (.reply .putChunkAck, { t with store := t.store.put chunk })

/-- The answer to one response of the peer. -/
def step (t : Transfer) (response : Bytes) : Except Failure Move × Transfer :=
  if t.stage = .awaitingPeer then
    let t := { t with unansweredMiss := none }
    match PeerMessage.decode response with
    | .error e =>
        let failed := t.fail e
        (.error failed.1, failed.2)
    | .ok message =>
        let moved := t.dispatch message
        (.ok moved.1, moved.2)
  else
    (.error (.protocol (.responseIn t.stage)), t)

/-- Sends `body` and goes on, for at most `left` more rounds and until the clock
reaches `deadline`. -/
def play (deadline : Nat) :
    Nat → Transfer → Bytes → Dialogue (Except Failure Bytes)
  | 0, t, _ => .done (.error (t.fail (.roundLimit t.limits.maxRounds)).1)
  | left + 1, t, body =>
      .clock fun time =>
        if deadline ≤ time then
          .done (.error
            (t.fail (.timeout (.transfer t.limits.timeout t.rounds))).1)
        else if Frame.maxBody < body.length then
          .done (.error (t.fail (.encoding (.replyTooLong body.length))).1)
        else
          .ask ⟨t.header, body⟩ fun
            | .error e => .done (.error (t.fail e).1)
            | .ok response =>
                match { t with rounds := t.rounds + 1 }.step response with
                | (.error e, _) => .done (.error e)
                | (.ok (.finished result), _) => .done (.ok result)
                | (.ok (.reply message), t) => play deadline left t message.encode

def run (t : Transfer) : Dialogue (Except Failure Bytes) :=
  .clock fun time =>
    match t.start with
    | (.error e, _) => .done (.error e)
    | (.ok body, t) =>
        play (time + t.limits.timeout) (t.limits.maxRounds - t.rounds) t body

end Transfer
end Courier
