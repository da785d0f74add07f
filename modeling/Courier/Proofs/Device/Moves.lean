import Courier.Proofs.Device.Integrity
import Courier.Proofs.Transfer.Step

/-!
# What a device can make of a message

One list of the turns of a device: it gives up, it asks for more or pushes its chunk,
it hands the payloads to the application, which answers or refuses, or it goes on with
an answer.  Later modules go through this list and leave the phases of the device
closed.

* `PeerMessage.portion?`: the part of an answer that a message brings.
* `Phase.expects?`, `Peer.Mismatches`: the hash that the device waits for, and a chunk
  of another one.
* `Peer.Moves` is the list, and `Peer.moves_handle` says that it is complete.
* `Peer.emit_cases`: a fragment and more to come, or the last one.
* `Peer.Moves.settles`: a device is idle after it has given up and after the last
  fragment, and at no other time.
-/

namespace Courier

namespace PeerMessage

/-- The part of an answer that a message brings. -/
def portion? : PeerMessage → Option Bytes
  | .accumulate fragment => some fragment
  | .final fragment => some fragment
  | .getChunk _ => none
  | .putChunk _ => none

theorem isFinal_eq_false {m : PeerMessage} (h : m.portion? = none) :
    m.isFinal = false := by
  cases m with
  | final fragment => cases h
  | accumulate fragment => rfl
  | getChunk hash => rfl
  | putChunk chunk => rfl

end PeerMessage

/-- The hash against which the device checks the next chunk. -/
def Phase.expects? : Phase → Option Hash
  | .pulling _ _ expecting _ _ => some expecting
  | .verifying _ hash => some hash
  | _ => none

namespace Peer

variable {p : Peer} {app : Application} {body : Bytes} {phase : Phase}

theorem isIdle_iff : p.isIdle = true ↔ p.phase = .idle := by
  simp [isIdle]

theorem isIdle_eq_false (h : p.phase.gathering = true) : p.isIdle = false := by
  cases hphase : p.phase with
  | idle =>
      rw [hphase] at h
      cases h
  | _ => simp [isIdle, hphase]

/-- The device sends one fragment of full size with more to come, or all that is
left. -/
theorem emit_cases (p : Peer) (output : Bytes) (offset : Nat) :
    (p.fragmentSize < (output.drop offset).length ∧
      p.emit output offset =
        p.say (.accumulate ((output.drop offset).take p.fragmentSize))
          (.emitting output (offset + p.fragmentSize))) ∨
    p.emit output offset = p.say (.final (output.drop offset)) .idle := by
  unfold emit
  dsimp only
  split_ifs with hmore
  · exact Or.inl ⟨hmore, rfl⟩
  · exact Or.inr rfl

/-- The device gathers payloads, or it is idle and the body opens an operation. -/
def Gathers (body : Bytes) (phase : Phase) : Prop :=
  phase.gathering = true ∨
    phase = .idle ∧ ∃ roots, HostMessage.decode body = .ok (.start roots)

/-- The body brings a chunk, and it is not the one that the device expects. -/
def Mismatches (body : Bytes) (phase : Phase) : Prop :=
  ∃ chunk hash, HostMessage.decode body = .ok (.chunkFound chunk) ∧
    phase.expects? = some hash ∧ Hash.ofChunk chunk ≠ hash

/-- The turns in which a device can answer a body. -/
inductive Moves (p : Peer) (app : Application) (body : Bytes) : Phase → Turn → Prop
  | refuses {phase : Phase} {status : Status}
      (hstatus : status = Status.txHashFail → Mismatches body phase) :
      Moves p app body phase (p.abort status)
  | asks {phase later : Phase} {m : PeerMessage} (hgathers : Gathers body phase)
      (hm : m.portion? = none) (hlater : later.gathering = true)
      (hasks : ∀ hash, later.expects? = some hash → m = .getChunk hash) :
      Moves p app body phase (p.say m later)
  | answers {phase : Phase} {payloads : List Bytes} {output : Bytes}
      (hgathers : Gathers body phase) (happ : app payloads = .ok output) :
      Moves p app body phase
        { p.emit output 0 with delivered := some payloads }
  | denies {phase : Phase} {payloads : List Bytes} {status : Status}
      (hgathers : Gathers body phase) (happ : app payloads = .error status) :
      Moves p app body phase { p.abort status with delivered := some payloads }
  | continues (output : Bytes) (offset : Nat) :
      Moves p app body (.emitting output offset) (p.emit output offset)

theorem moves_finish (hgathers : Gathers body phase) (payloads : List Bytes) :
    Moves p app body phase (p.finish app payloads) := by
  unfold finish
  cases happ : app payloads with
  | ok output => exact .answers hgathers happ
  | error status => exact .denies hgathers happ

/-- A refusal for any other cause than a wrong chunk. -/
theorem moves_abort {status : Status} (hstatus : status ≠ Status.txHashFail) :
    Moves p app body phase (p.abort status) :=
  .refuses fun heq => absurd heq hstatus

theorem moves_afterPull (hgathers : Gathers body phase) (payloads : List Bytes) :
    Moves p app body phase (p.afterPull app payloads) := by
  unfold afterPull
  cases p.push with
  | some chunk => exact .asks hgathers rfl rfl nofun
  | none => exact moves_finish hgathers payloads

theorem moves_pullFrom (hgathers : Gathers body phase) (roots : List Hash)
    (index : Nat) (finished : List Bytes) (rest : List Hash) :
    Moves p app body phase (p.pullFrom app roots index finished rest) := by
  induction rest generalizing index finished with
  | nil => exact moves_afterPull hgathers finished
  | cons root later ih =>
      unfold pullFrom
      split_ifs
      · exact ih (index + 1) (finished ++ [[]])
      · exact .asks hgathers rfl rfl fun hash h => (by cases h; rfl)

theorem moves_receive {chunk : Bytes}
    (hchunk : HostMessage.decode body = .ok (.chunkFound chunk)) (roots : List Hash)
    (index : Nat) (expecting : Hash) (slices finished : List Bytes) :
    Moves p app body (.pulling roots index expecting slices finished)
      (p.receive app roots index expecting slices finished chunk) := by
  unfold receive
  split_ifs with hhash
  · cases Linked.ofBytes chunk with
    | error e => exact moves_abort (by decide)
    | ok c =>
        dsimp only
        split_ifs
        · exact moves_pullFrom (Or.inl rfl) _ _ _ _
        · exact .asks (Or.inl rfl) rfl rfl fun hash h => (by cases h; rfl)
  · exact .refuses fun _ => ⟨chunk, expecting, hchunk, rfl, hhash⟩

theorem moves_readBack (payloads : List Bytes) :
    Moves p app body (.pushing payloads) (p.readBack payloads) := by
  unfold readBack
  cases p.push with
  | some chunk => exact .asks (Or.inl rfl) rfl rfl fun hash h => (by cases h; rfl)
  | none => exact moves_abort (by decide)

theorem moves_verify {chunk : Bytes}
    (hchunk : HostMessage.decode body = .ok (.chunkFound chunk)) (payloads : List Bytes)
    (hash : Hash) :
    Moves p app body (.verifying payloads hash) (p.verify app payloads hash chunk) := by
  unfold verify
  split_ifs with hhash
  · exact moves_finish (Or.inl rfl) payloads
  · exact moves_abort (by decide)
  · exact .refuses fun _ => ⟨chunk, hash, hchunk, rfl, hhash⟩

/-- Every answer of a device is one of its moves. -/
theorem moves_handle (p : Peer) (app : Application) (body : Bytes) :
    p.Moves app body p.phase (p.handle app body) := by
  unfold handle
  cases hdecode : HostMessage.decode body with
  | error e => exact moves_abort (by decide)
  | ok m =>
      dsimp only
      cases p.phase with
      | idle =>
          cases m with
          | start roots => exact moves_pullFrom (Or.inr ⟨rfl, roots, hdecode⟩) _ _ _ _
          | _ => exact moves_abort (by decide)
      | pulling roots index expecting slices finished =>
          cases m with
          | chunkFound chunk => exact moves_receive hdecode _ _ _ _ _
          | _ => exact moves_abort (by decide)
      | pushing payloads =>
          cases m with
          | putChunkAck => exact moves_readBack payloads
          | _ => exact moves_abort (by decide)
      | verifying payloads hash =>
          cases m with
          | chunkFound chunk => exact moves_verify hdecode payloads hash
          | _ => exact moves_abort (by decide)
      | emitting output offset =>
          cases m with
          | accumulateAck => exact .continues output offset
          | _ => exact moves_abort (by decide)

/-- How a turn ends: the device gives up and is idle, or it says something and is idle
exactly if that was the last fragment. -/
inductive Settles : Turn → Prop
  | refused {turn : Turn} (status : Status)
      (hresponse : turn.response = .error (Failure.refusal status))
      (hidle : turn.peer.isIdle = true) : Settles turn
  | said {turn : Turn} (m : PeerMessage) (hresponse : turn.response = .ok m.encode)
      (hidle : turn.peer.isIdle = m.isFinal) : Settles turn

theorem settles_emit (p : Peer) (output : Bytes) (offset : Nat) :
    Settles (p.emit output offset) := by
  rcases p.emit_cases output offset with ⟨_, hemit⟩ | hemit
  · rw [hemit]
    exact .said _ rfl rfl
  · rw [hemit]
    exact .said _ rfl rfl

theorem Moves.settles {turn : Turn} (h : p.Moves app body phase turn) :
    Settles turn := by
  cases h with
  | refuses hstatus => exact .refused _ rfl rfl
  | asks hgathers hm hlater hasks =>
      refine .said _ rfl ?_
      rw [PeerMessage.isFinal_eq_false hm]
      exact isIdle_eq_false hlater
  | @answers _ payloads output hgathers happ =>
      cases p.settles_emit output 0 with
      | refused status hresponse hidle => exact .refused status hresponse hidle
      | said m hresponse hidle => exact .said m hresponse hidle
  | denies hgathers happ => exact .refused _ rfl rfl
  | continues output offset => exact p.settles_emit output offset

/-- A turn leaves the size of the fragments and the pushed chunk as they are. -/
theorem Moves.config {turn : Turn} (h : p.Moves app body phase turn) :
    turn.peer = { p with phase := turn.peer.phase } := by
  have hemit : ∀ output offset, (p.emit output offset).peer =
      { p with phase := (p.emit output offset).peer.phase } := by
    intro output offset
    rcases p.emit_cases output offset with ⟨_, h⟩ | h <;> rw [h] <;> rfl
  cases h with
  | refuses hstatus => rfl
  | asks hgathers hm hlater hasks => rfl
  | answers hgathers happ => exact hemit _ 0
  | denies hgathers happ => rfl
  | continues output offset => exact hemit output offset

end Peer
end Courier
