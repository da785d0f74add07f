import Courier.Client
import Courier.Proofs.Signer.Turns
import Courier.Proofs.Strategy.FrameBound

/-!
# An operation with a signing application

While an operation of one instruction lasts, a signing application is to the host what
a device is that runs the application for that instruction only.  So what is known of
sessions with a device holds of operations with a signing application.

* `Signer.TakesBlocks`: an application that is ready for a block transfer.
* `Signer.OnBench`, `Signer.alike_bench`: the application seen as a device on the bench.
* `Session.finish`: the session from the call of the application on, for an output and
  for a refusal.
* `Signer.serve`: a dialogue with an application beside a clock.
* `Signer.serve_on_bench`: an operation through a block transfer, on that bench.
* `Signer.serve_blocks`: what an operation through a block transfer comes to, and
  `Signer.serve_long`: with a chunk that does not fit.
* `Signer.serve_simple`: what an operation with one plain frame comes to.
-/

namespace Courier

/-- What the host gets for the answer of an application. -/
def Response.ofAnswer : Except Status Bytes → Response
  | .ok output => .ok output
  | .error status => .error (Failure.refusal status)

/-- The exchanges that an answer takes after the one in which it is given. -/
def Peer.laterRounds (p : Peer) : Except Status Bytes → Nat
  | .ok output => max 1 (output.length ⌈/⌉ p.fragmentSize) - 1
  | .error _ => 0

/-- An output takes one exchange for each of its fragments. -/
theorem Peer.laterRounds_ok {p : Peer} {output : Bytes} {n : Nat}
    (hfragment : 1 ≤ p.fragmentSize) (hlength : output.length = n) (hn : 0 < n) :
    p.laterRounds (.ok output) + 1 = n ⌈/⌉ p.fragmentSize := by
  have hstep := Bytes.ceilDiv_step hfragment hn
  rw [laterRounds, hlength]
  omega

/-- The application answers with an output or with a status word. -/
theorem Session.finish {app : Application} {t : Transfer} {p : Peer} (ht : t.Ready)
    (hfragments : t.fragments = []) (hfragment : 0 < p.fragmentSize)
    (payloads : List Bytes) :
    Session app t (p.finish app payloads)
      (some payloads :: List.replicate (p.laterRounds (app payloads)) none)
      (Response.ofAnswer (app payloads)) p.reset := by
  cases happ : app payloads with
  | ok output => exact finish_ok ht hfragments hfragment happ
  | error status => exact finish_error ht happ

namespace Signer

/-- An application for block transfers with no operation under way, that sends something
in each fragment and pushes at most a chunk that fits a frame. -/
structure TakesBlocks (s : Signer) : Prop where
  mode : s.mode = .blocks
  idle : s.peer.isIdle = true
  fragment : 1 ≤ s.peer.fragmentSize
  push : ∀ chunk, s.peer.push = some chunk → chunk.length ≤ 254

/-- The application, beside a clock, is on the bench as a device for one instruction;
`count` is the number of exchanges that it has had before. -/
structure OnBench (ins : Instruction) (count : Nat) (s : Signer × Nat) (b : Bench) :
    Prop where
  mode : s.1.mode = .blocks
  app : b.device.app = perform s.1.approves ins
  peer : b.device.peer = s.1.peer
  free : s.1.peer.isIdle = true ∨ s.1.running = some ins.code
  exchanges : s.1.exchanges = count + b.exchanges
  read : s.2 = b.read

variable {s : Signer} {ins : Instruction} {readings : Nat → Nat}

theorem onBench_start (hs : s.TakesBlocks) (ins : Instruction) :
    OnBench ins s.exchanges (s, 0)
      { device := { peer := s.peer, app := perform s.approves ins } } :=
  ⟨hs.mode, rfl, rfl, Or.inl hs.idle, rfl, rfl⟩

/-- A turn on the bench and an exchange with the application keep them related. -/
theorem OnBench.answer {count : Nat} {s : Signer × Nat} {b : Bench} {request : Request}
    (h : OnBench ins count s b) (hheader : request.header = ins.header) :
    ((channel.beside readings).answer s request).1 =
        ((Bench.channel readings).answer b request).1 ∧
      OnBench ins count ((channel.beside readings).answer s request).2
        ((Bench.channel readings).answer b request).2 := by
  have hanswer : s.1.answer request = _ := answer_of_free h.mode hheader h.free
  have hturn : b.device.peer.handle b.device.app request.body =
      s.1.peer.handle (perform s.1.approves ins) request.body := by
    rw [h.app, h.peer]
  simp only [Channel.beside, channel, Bench.channel, PeerDevice.answer, hanswer, hturn]
  refine ⟨trivial, h.mode, h.app, rfl, ?_, ?_, h.read⟩
  · simp only [after]
    split_ifs with hidle
    · exact Or.inl hidle
    · exact Or.inr rfl
  · have hcount : s.1.exchanges + 1 = count + (b.exchanges + 1) := by
      rw [h.exchanges, Nat.add_assoc]
    simpa only [after, counted, Bench.exchanges, List.length_append,
      List.length_singleton] using hcount

/-- As long as every command is of the instruction, nothing tells an application and the
device on the bench apart. -/
theorem alike_bench (ins : Instruction) (count : Nat) (readings : Nat → Nat) :
    Channel.Alike (fun request => request.header = ins.header) (OnBench ins count)
      (channel.beside readings) (Bench.channel readings) := by
  constructor
  · intro s b request h hheader
    exact h.answer hheader
  · intro s b h
    refine ⟨congrArg readings h.read, h.mode, h.app, h.peer, h.free, h.exchanges, ?_⟩
    exact congrArg (· + 1) h.read

/-- A dialogue with an application, beside a clock with given readings: its outcome, and
the application after it. -/
def serve {α : Type} (s : Signer) (readings : Nat → Nat) (d : Dialogue α) : α × Signer :=
  let played := d.run (channel.beside readings) (s, 0)
  (played.1, played.2.1)

theorem serve_bind {α β : Type} (d : Dialogue α) (f : α → β) :
    s.serve readings (d.bind fun x => .done (f x)) =
      (f (s.serve readings d).1, (s.serve readings d).2) := by
  simp [serve]

section Blocks

variable {settings : Settings} {payloads : List Bytes}

/-- The exchanges of an operation up to the one in which the application answers: the
opening, the chunks of the payloads, and the pushed chunk and back. -/
def asked (s : Signer) (size : Nat) (payloads : List Bytes) : Nat :=
  1 + (payloads.map fun payload => payload.length ⌈/⌉ size).sum +
    (if s.peer.push.isSome then 2 else 0)

/-- An empty payload is not asked for. -/
theorem asked_nil (s : Signer) (size : Nat) :
    s.asked size [[]] = 1 + if s.peer.push.isSome then 2 else 0 := by
  simp [asked]

/-- An operation through a block transfer is to the host that transfer on the bench. -/
theorem serve_on_bench {t : Transfer} (hsize : 0 < settings.chunkSize)
    (hbuilt : Transfer.ofPayloads ins.header payloads settings.chunkSize settings.limits =
      .ok t) (hs : s.TakesBlocks) :
    let served := s.serve readings (Client.send ⟨settings, .blocks⟩ ins payloads)
    let played := t.run.run (Bench.channel readings)
      { device := { peer := s.peer, app := perform s.approves ins } }
    served.1 = played.1 ∧ served.2.exchanges = s.exchanges + played.2.exchanges := by
  intro served played
  have hheader : t.header = ins.header := by
    rw [Transfer.ofPayloads_eq hsize] at hbuilt
    rw [← Except.ok.inj hbuilt]
  have hserved : served = s.serve readings t.run := by
    simp only [served, Client.send, SendMode.send_blocks hbuilt]
  obtain ⟨hresult, hafter⟩ := (alike_bench ins s.exchanges readings).run
    (t.asks_run.imp fun request h => h.1.trans hheader) (onBench_start hs ins)
  rw [hserved]
  exact ⟨hresult, hafter.exchanges⟩

/-- **An operation through a block transfer** whose linked chunks fit.  The host gets the
answer of the application for its payloads, or as many exchanges as the budget allows
are made and the budget is blamed. -/
theorem serve_blocks (ins : Instruction) (hsize : 0 < settings.chunkSize)
    (hfits : ∀ c ∈ Chain.ofPayloads settings.chunkSize payloads, c.bytes.length ≤ 254)
    (hpayloads : payloads.length ≤ 7) (hs : s.TakesBlocks)
    (hchunks : Chain.Separable (Chain.ofPayloads settings.chunkSize payloads))
    (htime : ∀ i, readings (i + 1) < readings 0 + settings.operationTimeout) :
    let answer := perform s.approves ins payloads
    let rounds := s.asked settings.chunkSize payloads + s.peer.laterRounds answer
    let served := s.serve readings (Client.send ⟨settings, .blocks⟩ ins payloads)
    (rounds ≤ settings.maxRounds →
      served.1 = Response.ofAnswer answer ∧
      served.2.exchanges = s.exchanges + rounds) ∧
    (settings.maxRounds < rounds →
      served.1 = .error (.roundLimit settings.maxRounds) ∧
      served.2.exchanges = s.exchanges + settings.maxRounds) := by
  intro answer rounds served
  obtain ⟨t, hbuilt, hlimits, ht⟩ := Transfer.opens_of_fits ins.header
    settings.limits hsize hfits hchunks
  let device : PeerDevice := { peer := s.peer, app := perform s.approves ins }
  have hrounds : t.limits.maxRounds = settings.maxRounds := by
    rw [hlimits]
    rfl
  have hreadings : ∀ i, readings (i + 1) < readings 0 + t.limits.timeout := by
    rw [hlimits]
    exact htime
  obtain ⟨_, henough, hshort⟩ := Session.run_opened device ht hsize hpayloads
    (Peer.isIdle_iff.mp hs.idle) hchunks.nonzero hs.push
    (fun t' ht' hfragments => Session.finish ht' hfragments hs.fragment payloads)
    hreadings
  obtain ⟨hresult, hexchanges⟩ := serve_on_bench hsize hbuilt hs
  rw [hrounds] at henough hshort
  constructor
  · intro hfits
    obtain ⟨houtcome, hcount, _⟩ := henough hfits
    exact ⟨hresult.trans houtcome, hexchanges.trans (congrArg (s.exchanges + ·) hcount)⟩
  · intro hover
    obtain ⟨houtcome, hcount⟩ := hshort hover
    exact ⟨hresult.trans houtcome, hexchanges.trans (congrArg (s.exchanges + ·) hcount)⟩

/-- **An operation with a chunk that is too long.**  In slices of more than 222 bytes a
longer payload gets no answer from an application that pushes nothing: the transfer
fails on a message of its own. -/
theorem serve_long (fragmentSize : Nat) (ins : Instruction)
    (hsize : 222 < settings.chunkSize) (hlong : ∃ payload ∈ payloads, 222 < payload.length)
    (hpayloads : payloads.length ≤ 7) (hs : s.TakesBlocks)
    (hpeer : s.peer = ({} : Peer).withFragmentSize fragmentSize)
    (hchunks : Chain.Separable (Chain.ofPayloads settings.chunkSize payloads))
    (hrounds : s.asked settings.chunkSize payloads ≤ settings.maxRounds)
    (htime : ∀ i, readings (i + 1) < readings 0 + settings.operationTimeout) :
    ∃ why, (s.serve readings (Client.send ⟨settings, .blocks⟩ ins payloads)).1 =
      .error (.encoding why) := by
  have hasked : 1 + (payloads.map fun payload =>
      payload.length ⌈/⌉ settings.chunkSize).sum ≤ settings.maxRounds :=
    (Nat.le_add_right _ _).trans hrounds
  obtain ⟨t, hbuilt, hiff⟩ := Transfer.encoding_iff_long_payload ins.header settings.limits
    hsize hpayloads hchunks fragmentSize (perform s.approves ins) hasked htime
  obtain ⟨why, hfailed⟩ := hiff.mpr hlong
  obtain ⟨hresult, _⟩ := serve_on_bench (Nat.zero_lt_of_lt hsize) hbuilt hs
  rw [hpeer] at hresult
  exact ⟨why, hresult.trans hfailed⟩

end Blocks

section Plain

variable {settings : Settings} {payload : Bytes}

/-- The first frame of a payload, and no other one if the payload fits it. -/
theorem exists_cut_eq {size : Nat} (hsize : 0 < size) (payload : Bytes) :
    ∃ rest, Frames.cut size [payload] = payload.take size :: rest ∧
      (payload.length ≤ size → rest = []) := by
  by_cases hnil : payload = []
  · subst hnil
    exact ⟨[], by simp [Frames.cut], fun _ => rfl⟩
  · refine ⟨Bytes.slices size (payload.drop size), ?_, fun hfits => ?_⟩
    · simp [Frames.cut, Bytes.slices_of_ne_nil hsize hnil]
    · rw [List.drop_eq_nil_of_le hfits, Bytes.slices_nil]

theorem answerPlain_eq (hins : ins ≠ .signTx) (body : Bytes) :
    s.answerPlain ins body = Response.ofAnswer (perform s.approves ins [body]) := by
  rw [answerPlain, if_neg hins]
  cases perform s.approves ins [body] <;> rfl

/-- **An operation with plain frames** that ends with the first of them, because the
payload fits it or because it is refused. -/
theorem serve_simple (hframe : 0 < settings.maxFrame) (hmode : s.mode = .simple)
    (hends : payload.length ≤ settings.maxFrame ∨
      ∃ e, s.answerPlain ins (payload.take settings.maxFrame) = .error e) :
    s.serve readings (Client.send ⟨settings, .simple⟩ ins [payload]) =
      (s.answerPlain ins (payload.take settings.maxFrame), s.counted) := by
  obtain ⟨rest, hcut, hrest⟩ := exists_cut_eq hframe payload
  have hanswer : s.answer ⟨ins.header, payload.take settings.maxFrame⟩ =
      (s.answerPlain ins (payload.take settings.maxFrame), s.counted) :=
    answer_simple hmode rfl
  have hsend : Client.send ⟨settings, .simple⟩ ins [payload] =
      Frames.sendAll ins.header [] (payload.take settings.maxFrame :: rest) := by
    rw [← hcut]
    exact if_neg (Nat.ne_of_gt hframe)
  rw [hsend]
  simp only [serve, Frames.sendAll, Dialogue.run_ask, Channel.beside, channel, hanswer]
  cases hresponse : s.answerPlain ins (payload.take settings.maxFrame) with
  | error e => rfl
  | ok response =>
      rcases hends with hfits | ⟨e, he⟩
      · rw [hrest hfits]
        rfl
      · rw [he] at hresponse
        cases hresponse

end Plain

end Signer
end Courier
