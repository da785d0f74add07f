import Courier.Proofs.Device.Moves
import Mathlib.Data.Nat.PSub

/-!
# The phases that a device can be in

Every message takes the phase out of the device and puts a new one back.  Whatever the
host sends, what the phases carry fits together: the position of the root that is
followed agrees with the payloads that are done, a hash that is asked for while payloads
are pulled is never the sentinel, and an output is cut at multiples of the fragment size
that lie inside it.  So no number runs out of its range when the output is sent.

* `Phase.InOrder`: what holds of the data in each phase.
* `Turn.InOrder`: a turn that leaves a phase in order and asks for no hash but the one
  that it will check; one lemma for each function of the device, and
  `Peer.inOrder_handle` for a message.
* `Peer.after`, `Peer.inOrder_after`: whole runs.
* `Peer.emit?`: sending with every difference, sum and slice checked, and
  `Peer.emit?_eq_some`: no check fails inside the output.
* `Peer.phases_in_order`: all of it for a new device.
-/

namespace Courier

/-- What holds in each phase of a device with fragments of `size` bytes and the chunk
`push` to push, if there is one. -/
def Phase.InOrder (size : Nat) (push : Option Bytes) : Phase → Prop
  | .idle => True
  | .pulling roots index expecting _ finished =>
      finished.length = index ∧ index < roots.length ∧ expecting ≠ Hash.zero
  | .pushing _ => push.isSome = true
  | .verifying _ hash => push.map Hash.ofChunk = some hash
  | .emitting output offset => 0 < offset ∧ offset < output.length ∧ size ∣ offset

/-- The number of bytes of the output that are not on their way. -/
def Phase.unsent : Phase → Nat
  | .emitting output offset => output.length - offset
  | _ => 0

/-- A turn that leaves a phase in order, and asks for a hash exactly if the next chunk
is checked against it. -/
structure Turn.InOrder (turn : Turn) (size : Nat) (push : Option Bytes) : Prop where
  phase : turn.peer.phase.InOrder size push
  asks : ∀ hash, turn.response = .ok (PeerMessage.getChunk hash).encode ↔
    turn.peer.phase.expects? = some hash

/-- A chunk that is asked for continues a payload, and then its hash is not the sentinel,
or it is the one that the device has pushed. -/
theorem Turn.InOrder.asked {turn : Turn} {size : Nat} {push : Option Bytes}
    (h : turn.InOrder size push) {hash : Hash}
    (hresponse : turn.response = .ok (PeerMessage.getChunk hash).encode) :
    (hash ≠ Hash.zero ∧ ∃ roots index slices finished,
      turn.peer.phase = .pulling roots index hash slices finished) ∨
    (push.map Hash.ofChunk = some hash ∧ ∃ payloads,
      turn.peer.phase = .verifying payloads hash) := by
  have hexpects := (h.asks hash).mp hresponse
  have hphase := h.phase
  cases hlater : turn.peer.phase with
  | pulling roots index expecting slices finished =>
      rw [hlater] at hexpects hphase
      obtain rfl := Option.some.inj hexpects
      exact Or.inl ⟨hphase.2.2, roots, index, slices, finished, rfl⟩
  | verifying payloads expecting =>
      rw [hlater] at hexpects hphase
      obtain rfl := Option.some.inj hexpects
      exact Or.inr ⟨hphase, payloads, rfl⟩
  | _ =>
      rw [hlater] at hexpects
      cases hexpects

/-- The bytes from one place up to another, if the byte string has such places. -/
def Bytes.range? (b : Bytes) (start stop : Nat) : Option Bytes :=
  if start ≤ stop ∧ stop ≤ b.length then some ((b.take stop).drop start) else none

theorem Bytes.range?_of_le {b : Bytes} {start stop : Nat} (hstart : start ≤ stop)
    (hstop : stop ≤ b.length) : b.range? start stop = some ((b.take stop).drop start) :=
  if_pos ⟨hstart, hstop⟩

namespace Peer

variable {p : Peer} {app : Application}

theorem inOrder_abort (p : Peer) (status : Status) :
    (p.abort status).InOrder p.fragmentSize p.push :=
  ⟨trivial, fun _ => ⟨nofun, nofun⟩⟩

theorem inOrder_say {m : PeerMessage} {later : Phase}
    (hlater : later.InOrder p.fragmentSize p.push)
    (hasks : ∀ hash, m = .getChunk hash ↔ later.expects? = some hash) :
    (p.say m later).InOrder p.fragmentSize p.push := by
  refine ⟨hlater, fun hash => ?_⟩
  have hsays : (p.say m later).response = .ok (PeerMessage.getChunk hash).encode ↔
      m = .getChunk hash := by
    constructor
    · exact fun h => PeerMessage.encode_injective (Except.ok.inj h)
    · rintro rfl
      rfl
  exact hsays.trans (hasks hash)

/-- Nothing but the chunk that the device asks for is said in a phase that expects one. -/
theorem inOrder_ask {hash : Hash} {later : Phase}
    (hlater : later.InOrder p.fragmentSize p.push) (hexpects : later.expects? = some hash) :
    (p.say (.getChunk hash) later).InOrder p.fragmentSize p.push := by
  refine inOrder_say hlater fun other => ?_
  rw [hexpects, PeerMessage.getChunk.injEq, Option.some.injEq]

/-- From a multiple of the fragment size inside the output, the next one is reached if
it lies inside, too. -/
theorem inOrder_emit (hsize : 0 < p.fragmentSize) (output : Bytes) {offset : Nat}
    (hmultiple : p.fragmentSize ∣ offset) :
    (p.emit output offset).InOrder p.fragmentSize p.push := by
  rcases p.emit_cases output offset with ⟨hmore, hemit⟩ | hemit
  · rw [hemit]
    rw [List.length_drop] at hmore
    refine inOrder_say ⟨by omega, by omega, ?_⟩ fun _ => ⟨nofun, nofun⟩
    exact Nat.dvd_add hmultiple (Nat.dvd_refl _)
  · rw [hemit]
    exact inOrder_say trivial fun _ => ⟨nofun, nofun⟩

section Gathering

variable (hsize : 0 < p.fragmentSize)
include hsize

theorem inOrder_finish (app : Application) (payloads : List Bytes) :
    (p.finish app payloads).InOrder p.fragmentSize p.push := by
  unfold finish
  cases app payloads with
  | ok output =>
      have hemit := inOrder_emit hsize output (Nat.dvd_zero p.fragmentSize)
      exact ⟨hemit.phase, hemit.asks⟩
  | error status => exact ⟨trivial, fun _ => ⟨nofun, nofun⟩⟩

theorem inOrder_afterPull (app : Application) (payloads : List Bytes) :
    (p.afterPull app payloads).InOrder p.fragmentSize p.push := by
  unfold afterPull
  split
  · next chunk hpush =>
      refine inOrder_say ?_ fun _ => ⟨nofun, nofun⟩
      rw [Phase.InOrder, hpush]
      rfl
  · exact inOrder_finish hsize app payloads

/-- The device skips sentinels, with an empty payload for each, and stops at a root that
is none. -/
theorem inOrder_pullFrom (app : Application) {roots : List Hash} {index : Nat}
    {finished : List Bytes} (rest : List Hash) (hfinished : finished.length = index)
    (hrest : index + rest.length = roots.length) :
    (p.pullFrom app roots index finished rest).InOrder p.fragmentSize p.push := by
  induction rest generalizing index finished with
  | nil => exact inOrder_afterPull hsize app finished
  | cons root later ih =>
      rw [List.length_cons] at hrest
      unfold pullFrom
      split_ifs with hzero
      · refine ih ?_ (by omega)
        rw [List.length_append, hfinished]
        rfl
      · refine inOrder_ask ⟨hfinished, by omega, ?_⟩ rfl
        exact fun h => hzero ((Hash.isZero_iff root).mpr h)

theorem inOrder_pullNext (app : Application) {roots : List Hash} {index : Nat}
    {finished : List Bytes} (hfinished : finished.length = index)
    (hindex : index ≤ roots.length) :
    (p.pullNext app roots index finished).InOrder p.fragmentSize p.push := by
  refine inOrder_pullFrom hsize app _ hfinished ?_
  rw [List.length_drop]
  omega

/-- A chunk at the end of its chain makes one more payload, any other one leads to the
next chunk of the same root. -/
theorem inOrder_receive (app : Application) {roots : List Hash} {index : Nat}
    {expecting : Hash} {slices finished : List Bytes}
    (hphase : (Phase.pulling roots index expecting slices finished).InOrder
      p.fragmentSize p.push) (chunk : Bytes) :
    (p.receive app roots index expecting slices finished chunk).InOrder
      p.fragmentSize p.push := by
  obtain ⟨hfinished, hindex, _⟩ := hphase
  unfold receive
  split_ifs with hhash
  · cases Linked.ofBytes chunk with
    | error e => exact inOrder_abort p _
    | ok c =>
        dsimp only
        split_ifs with hzero
        · refine inOrder_pullNext hsize app ?_ hindex
          rw [List.length_append, hfinished]
          rfl
        · refine inOrder_ask ⟨hfinished, hindex, ?_⟩ rfl
          exact fun h => hzero ((Hash.isZero_iff c.next).mpr h)
  · exact inOrder_abort p _

theorem inOrder_verify (app : Application) (payloads : List Bytes) (hash : Hash)
    (chunk : Bytes) :
    (p.verify app payloads hash chunk).InOrder p.fragmentSize p.push := by
  unfold verify
  split_ifs
  · exact inOrder_finish hsize app payloads
  · exact inOrder_abort p _
  · exact inOrder_abort p _

end Gathering

/-- With a chunk to push, the device always asks for it back. -/
theorem readBack_eq {chunk : Bytes} (hpush : p.push = some chunk) (payloads : List Bytes) :
    p.readBack payloads =
      p.say (.getChunk (Hash.ofChunk chunk)) (.verifying payloads (Hash.ofChunk chunk)) := by
  simp only [readBack, hpush]

theorem inOrder_readBack {payloads : List Bytes}
    (hphase : (Phase.pushing payloads).InOrder p.fragmentSize p.push) :
    (p.readBack payloads).InOrder p.fragmentSize p.push := by
  obtain ⟨chunk, hpush⟩ := Option.isSome_iff_exists.mp hphase
  rw [readBack_eq hpush]
  refine inOrder_ask ?_ rfl
  rw [Phase.InOrder, hpush]
  rfl

/-- A message leaves the phase in order. -/
theorem inOrder_handle (hsize : 0 < p.fragmentSize)
    (hphase : p.phase.InOrder p.fragmentSize p.push) (app : Application) (body : Bytes) :
    (p.handle app body).InOrder p.fragmentSize p.push := by
  unfold handle
  cases HostMessage.decode body with
  | error e => exact inOrder_abort p _
  | ok m =>
      dsimp only
      generalize p.phase = phase at hphase
      cases phase with
      | idle =>
          cases m with
          | start roots => exact inOrder_pullNext hsize app rfl (Nat.zero_le _)
          | _ => exact inOrder_abort p _
      | pulling roots index expecting slices finished =>
          cases m with
          | chunkFound chunk => exact inOrder_receive hsize app hphase chunk
          | _ => exact inOrder_abort p _
      | pushing payloads =>
          cases m with
          | putChunkAck => exact inOrder_readBack hphase
          | _ => exact inOrder_abort p _
      | verifying payloads hash =>
          cases m with
          | chunkFound chunk => exact inOrder_verify hsize app payloads hash chunk
          | _ => exact inOrder_abort p _
      | emitting output offset =>
          cases m with
          | accumulateAck => exact inOrder_emit hsize _ hphase.2.2
          | _ => exact inOrder_abort p _

/-- So does every move of the host. -/
theorem inOrder_next (hsize : 0 < p.fragmentSize)
    (hphase : p.phase.InOrder p.fragmentSize p.push) (e : Event) :
    (p.next e).phase.InOrder p.fragmentSize p.push := by
  cases e with
  | message app body => exact (inOrder_handle hsize hphase app body).phase
  | reset => trivial

/-- A move of the host changes nothing but the phase. -/
theorem next_eq (p : Peer) (e : Event) : p.next e = { p with phase := (p.next e).phase } := by
  cases e with
  | message app body => exact (p.moves_handle app body).config
  | reset => rfl

/-- The device after several moves of the host. -/
def after (p : Peer) (events : List Event) : Peer :=
  events.foldl next p

theorem after_snoc (p : Peer) (events : List Event) (e : Event) :
    p.after (events ++ [e]) = (p.after events).next e := by
  simp [after, List.foldl_append]

theorem after_eq (p : Peer) (events : List Event) :
    p.after events = { p with phase := (p.after events).phase } := by
  induction events using List.reverseRecOn with
  | nil => rfl
  | append_singleton events e ih =>
      rw [after_snoc, next_eq, ih]

/-- Every run leaves the phase in order. -/
theorem inOrder_after (hsize : 0 < p.fragmentSize)
    (hphase : p.phase.InOrder p.fragmentSize p.push) (events : List Event) :
    (p.after events).phase.InOrder p.fragmentSize p.push := by
  induction events using List.reverseRecOn with
  | nil => exact hphase
  | append_singleton events e ih =>
      have hsetup := p.after_eq events
      rw [after_snoc]
      generalize p.after events = later at hsetup ih
      have hsame : later.fragmentSize = p.fragmentSize ∧ later.push = p.push := by
        rw [hsetup]
        exact ⟨rfl, rfl⟩
      rw [← hsame.1, ← hsame.2] at ih ⊢
      exact inOrder_next (hsame.1 ▸ hsize) ih e

/-- Sends the output from `offset` on as `emit` does, with every step checked: no
difference falls below zero, no sum reaches `bound`, and no slice leaves the output. -/
def emit? (bound : Nat) (p : Peer) (output : Bytes) (offset : Nat) : Option Turn := do
  let left ← Nat.psub output.length offset
  if p.fragmentSize < left then
    let stop := offset + p.fragmentSize
    if bound ≤ stop then none
    else
      let fragment ← output.range? offset stop
      return p.say (.accumulate fragment) (.emitting output stop)
  else
    let rest ← output.range? offset output.length
    return p.say (.final rest) .idle

/-- Inside the output no check fails, whatever the bound, if the length of the output is
below it. -/
theorem emit?_eq_some {bound offset : Nat} {output : Bytes} (hbound : output.length < bound)
    (hoffset : offset ≤ output.length) :
    p.emit? bound output offset = some (p.emit output offset) := by
  have hleft : Nat.psub output.length offset = some (output.length - offset) :=
    Nat.psub_eq_sub hoffset
  simp only [emit?, emit, hleft, Option.bind_eq_bind, Option.bind_some, List.length_drop]
  split_ifs with hmore hover
  · omega
  · rw [Bytes.range?_of_le (by omega) (by omega), Option.bind_some, List.drop_take,
      Nat.add_sub_cancel_left]
    rfl
  · rw [Bytes.range?_of_le hoffset (Nat.le_refl _), Option.bind_some, List.take_length]
    rfl

/-- What is left to send gets less: the rest of the same output, or nothing. -/
theorem unsent_emit_lt (hsize : 0 < p.fragmentSize) {output : Bytes} {offset : Nat}
    (hoffset : offset < output.length) :
    let later := (p.emit output offset).peer.phase
    (later = .idle ∨ ∃ next, later = .emitting output next) ∧
      later.unsent < output.length - offset := by
  rcases p.emit_cases output offset with ⟨hmore, hemit⟩ | hemit
  · rw [hemit]
    refine ⟨Or.inr ⟨offset + p.fragmentSize, rfl⟩, ?_⟩
    change output.length - (offset + p.fragmentSize) < output.length - offset
    omega
  · rw [hemit]
    refine ⟨Or.inl rfl, ?_⟩
    change 0 < output.length - offset
    omega

/-- A device is idle after an error and after the last fragment, and at no other time. -/
theorem Settles.isIdle_iff {turn : Turn} (h : Settles turn) :
    turn.peer.isIdle = true ↔
      (∃ e, turn.response = .error e) ∨
        ∃ fragment, turn.response = .ok (PeerMessage.final fragment).encode := by
  cases h with
  | refused status hresponse hidle =>
      exact ⟨fun _ => Or.inl ⟨_, hresponse⟩, fun _ => hidle⟩
  | said m hresponse hidle =>
      rw [hidle, hresponse]
      constructor
      · intro hfinal
        cases m with
        | final fragment => exact Or.inr ⟨fragment, rfl⟩
        | _ => cases hfinal
      · rintro (⟨e, herror⟩ | ⟨fragment, hlast⟩)
        · cases herror
        · obtain rfl := PeerMessage.encode_injective (Except.ok.inj hlast)
          rfl

/-- **The phases of a device are in order.**  In every run of a new device, whatever the
host sends and the applications answer, the data of the phase are in order.  A message
leaves the device idle exactly if it is answered by an error or by the last fragment.  A
hash that is asked for while payloads are pulled is not the sentinel.  A device that has
pushed has a chunk to ask for.  An output that is sent, from its start or from where the
device is, is sent without a number out of its range, and each acknowledgement leaves
less of it. -/
theorem phases_in_order (push : Option Bytes) (size : Nat) (events : List Event) :
    let start := ({ push := push } : Peer).withFragmentSize size
    let p := start.after events
    p = { start with phase := p.phase } ∧
    p.phase.InOrder (max size 1) push ∧
    (∀ app body,
      let turn := p.handle app body
      (turn.peer.isIdle = true ↔
        (∃ e, turn.response = .error e) ∨
          ∃ fragment, turn.response = .ok (PeerMessage.final fragment).encode) ∧
      ∀ hash, turn.response = .ok (PeerMessage.getChunk hash).encode →
        (hash ≠ Hash.zero ∧ ∃ roots index slices finished,
          turn.peer.phase = .pulling roots index hash slices finished) ∨
        (push.map Hash.ofChunk = some hash ∧ ∃ payloads,
          turn.peer.phase = .verifying payloads hash)) ∧
    (∀ payloads, p.phase = .pushing payloads → ∃ chunk, push = some chunk ∧
      ∀ app body, HostMessage.decode body = .ok .putChunkAck →
        p.handle app body = p.say (.getChunk (Hash.ofChunk chunk))
          (.verifying payloads (Hash.ofChunk chunk))) ∧
    (∀ output offset bound, offset = 0 ∨ p.phase = .emitting output offset →
      output.length < bound → p.emit? bound output offset = some (p.emit output offset)) ∧
    ∀ output offset, p.phase = .emitting output offset →
      ∀ app body, HostMessage.decode body = .ok .accumulateAck →
        let later := (p.handle app body).peer.phase
        (later = .idle ∨ ∃ next, later = .emitting output next) ∧
        later.unsent < output.length - offset := by
  intro start p
  have hstart : 0 < start.fragmentSize := Nat.lt_of_lt_of_le Nat.one_pos (Nat.le_max_right _ _)
  have hsetup : p = { start with phase := p.phase } := start.after_eq events
  have hphase : p.phase.InOrder start.fragmentSize start.push :=
    inOrder_after hstart trivial events
  have hsize : p.fragmentSize = start.fragmentSize := by rw [hsetup]
  have hpush : p.push = push := by
    rw [hsetup]
    rfl
  have hturn : ∀ app body, (p.handle app body).InOrder p.fragmentSize p.push := by
    intro app body
    refine inOrder_handle (hsize ▸ hstart) ?_ app body
    rw [hsize, hpush]
    exact hphase
  refine ⟨hsetup, hphase, ?_, ?_, ?_, ?_⟩
  · intro app body
    refine ⟨(p.moves_handle app body).settles.isIdle_iff, fun hash hresponse => ?_⟩
    rw [← hpush]
    exact (hturn app body).asked hresponse
  · intro payloads hpushing
    rw [hpushing] at hphase
    obtain ⟨chunk, hchunk⟩ := Option.isSome_iff_exists.mp hphase
    refine ⟨chunk, hchunk, fun app body hdecode => ?_⟩
    simp only [handle, hdecode, hpushing, dispatch]
    exact readBack_eq (hpush.trans hchunk) payloads
  · rintro output offset bound (rfl | hemitting) hbound
    · exact emit?_eq_some hbound (Nat.zero_le _)
    · rw [hemitting] at hphase
      exact emit?_eq_some hbound (Nat.le_of_lt hphase.2.1)
  · intro output offset hemitting app body hdecode
    rw [hemitting] at hphase
    simp only [handle, hdecode, hemitting, dispatch]
    exact unsent_emit_lt (hsize ▸ hstart) hphase.2.1

/-- Three bytes in fragments of two: after the first fragment the device can send the
rest, and the acknowledgement leaves nothing of it. -/
theorem phases_in_order_between_fragments :
    let app : Application := fun _ => .ok [1, 2, 3]
    let p := (({} : Peer).withFragmentSize 2).after [.message app [0]]
    p.phase = .emitting [1, 2, 3] 2 ∧
    p.emit? 256 [1, 2, 3] 2 = some (p.emit [1, 2, 3] 2) ∧
    (p.handle app [4]).peer.phase.unsent < 1 := by
  intro app p
  have hemitting : p.phase = .emitting [1, 2, 3] 2 := by decide +kernel
  obtain ⟨_, _, _, _, hemit, hless⟩ :=
    phases_in_order none 2 [.message app [0]]
  exact ⟨hemitting, hemit [1, 2, 3] 2 256 (Or.inr hemitting) (by decide),
    (hless [1, 2, 3] 2 hemitting app [4] rfl).2⟩

end Peer
end Courier
