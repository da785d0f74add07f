import Courier.Proofs.Device.Session
import Courier.Proofs.Store.Linking

/-!
# Payloads to the device and its answer back

Every phase of the device is a stretch of the session in which nothing is handed
to the application, and it leads to the next phase: the chunks of a chain, the
chains of all roots, the pushed chunk, the fragments of the output.  The stretches
are put together from the end of the session backwards.

* `Session.say`: one message of the device and the reply to it.
* `Session.chain`, `Session.pull`: the device gets every payload.
* `Session.push`: the device gets back what it pushes.
* `Session.emit`, `Session.finish_ok`: the host gets the output.
* `Transfer.round_trip`: the whole session under its budgets.
-/

namespace Courier

namespace Peer

variable (p : Peer) (phase : Phase) (app : Application)

/-- What a device says next does not depend on the phase it is still in. -/
theorem pullFrom_inPhase (roots : List Hash) (index : Nat)
    (finished : List Bytes) (rest : List Hash) :
    { p with phase := phase }.pullFrom app roots index finished rest =
      p.pullFrom app roots index finished rest := by
  induction rest generalizing index finished with
  | nil => rfl
  | cons root later ih =>
      unfold pullFrom
      rw [ih]
      rfl

theorem dispatch_inPhase (current : Phase) (m : HostMessage) :
    { p with phase := phase }.dispatch app current m =
      p.dispatch app current m := by
  cases current with
  | idle =>
      cases m with
      | start roots => exact p.pullFrom_inPhase phase app roots 0 [] _
      | _ => rfl
  | pulling roots index expecting slices finished =>
      cases m with
      | chunkFound chunk =>
          simp only [dispatch, receive, pullNext, pullFrom_inPhase]
          rfl
      | _ => rfl
  | pushing payloads => cases m <;> rfl
  | verifying payloads hash => cases m <;> rfl
  | emitting output offset => cases m <;> rfl

/-- The device reads the host's message in the phase in which it waits for it. -/
theorem handle_encode (m : HostMessage) :
    { p with phase := phase }.handle app m.encode = p.dispatch app phase m := by
  rw [← p.dispatch_inPhase phase app phase m, handle, HostMessage.decode_encode]

/-- A device that waits for a transfer begins with its first payload. -/
theorem handle_start (hidle : p.phase = .idle) (roots : List Hash) :
    p.handle app (HostMessage.start roots).encode = p.pullNext app roots 0 [] := by
  rw [handle, HostMessage.decode_encode]
  dsimp only
  rw [hidle, dispatch]

/-- The turn in which the device stands at a hash of its walk: it asks for the chunk
there, or at the sentinel it goes on with the next payload. -/
def turnAt (roots : List Hash) (index : Nat) (slices finished : List Bytes)
    (cursor : Hash) : Turn :=
  if cursor = Hash.zero then
    p.pullNext app roots (index + 1) (finished ++ [slices.flatten])
  else
    p.say (.getChunk cursor) (.pulling roots index cursor slices finished)

/-- The walk of a payload begins at its root. -/
theorem pullNext_of_drop {roots later : List Hash} {root : Hash} {index : Nat}
    (hdrop : roots.drop index = root :: later) (finished : List Bytes) :
    p.pullNext app roots index finished =
      p.turnAt app roots index [] finished root := by
  have hlater : roots.drop (index + 1) = later := by
    rw [← List.tail_drop, hdrop, List.tail_cons]
  simp only [turnAt, pullNext, hdrop, hlater, pullFrom, Hash.isZero_iff,
    List.flatten_nil]

/-- Behind the chunks of a payload the device goes on with the next one. -/
theorem turnAt_payload (roots : List Hash) (index : Nat) (finished : List Bytes)
    (size : Nat) (payload : Bytes) :
    p.turnAt app roots index ([] ++ (Chain.ofPayload size payload).map Linked.slice)
        finished Hash.zero =
      p.pullNext app roots (index + 1) (finished ++ [payload]) := by
  rw [turnAt, if_pos rfl, List.nil_append, ← Chain.payload, Chain.payload_ofPayload]

/-- The linked chunk that was asked for leads on along its link. -/
theorem receive_linked (roots : List Hash) (index : Nat)
    (slices finished : List Bytes) (c : Linked) :
    p.receive app roots index c.hash slices finished c.bytes =
      p.turnAt app roots index (slices ++ [c.slice]) finished c.next := by
  have hhash : Hash.ofChunk c.bytes = c.hash := rfl
  simp only [turnAt, receive, hhash, if_true, Linked.ofBytes_bytes, Hash.isZero_iff]

variable {p app}

/-- A property of turns that a served chunk hands back to the turn in which it was
asked for is handed back along a whole walk. -/
theorem turnAt_of_served {motive : Nat → Turn → Prop} {roots : List Hash}
    {index n : Nat} {slices finished : List Bytes} {chunks : List Linked}
    {root stop : Hash}
    (hserved : ∀ n phase, ∀ c ∈ chunks,
      motive n (p.dispatch app phase (.chunkFound c.bytes)) →
        motive (n + 1) (p.say (.getChunk c.hash) phase))
    (hleads : Chain.Leads root chunks stop)
    (hstop : motive n (p.turnAt app roots index
      (slices ++ chunks.map Linked.slice) finished stop)) :
    motive (n + chunks.length) (p.turnAt app roots index slices finished root) := by
  induction chunks generalizing root slices with
  | nil =>
      have hstart : root = stop := hleads
      rw [List.map_nil, List.append_nil] at hstop
      rw [hstart]
      exact hstop
  | cons c rest ih =>
      obtain ⟨hne, rfl, hlater⟩ := hleads
      have hnext : motive (n + rest.length)
          (p.turnAt app roots index (slices ++ [c.slice]) finished c.next) :=
        ih (fun n phase d hd => hserved n phase d (List.mem_cons_of_mem _ hd)) hlater
          (by rw [List.append_assoc, List.singleton_append]; exact hstop)
      rw [turnAt, if_neg hne]
      refine hserved _ _ c List.mem_cons_self ?_
      rw [dispatch, receive_linked]
      exact hnext

end Peer

namespace Transfer

/-- The transfer waits for the peer, and its last answer was no miss. -/
structure Ready (t : Transfer) : Prop where
  waiting : t.stage = .awaitingPeer
  answered : t.unansweredMiss = none

/-- The transfer has the chunks at hand, and each of them fits a reply. -/
def Serves (t : Transfer) (chunks : List Linked) : Prop :=
  ∀ c ∈ chunks, t.store.get? c.hash = some c.bytes ∧
    (HostMessage.chunkFound c.bytes).encode.length ≤ Frame.maxBody

/-- A new transfer of payloads, with all their chunks at hand. -/
structure Opens (t : Transfer) (size : Nat) (payloads : List Bytes) : Prop where
  stage : t.stage = .sending
  rounds : t.rounds = 0
  fragments : t.fragments = []
  answered : t.unansweredMiss = none
  roots : t.roots =
    payloads.map fun payload => Chain.root (Chain.ofPayload size payload)
  serves : t.Serves (Chain.ofPayloads size payloads)

variable {t : Transfer}

theorem Ready.step_encode (ht : t.Ready) (m : PeerMessage) :
    t.step m.encode = (.ok (t.dispatch m).1, (t.dispatch m).2) := by
  have hforget : { t with unansweredMiss := none } = t := by
    rw [← ht.answered]
  rw [step_of_message ht.waiting (PeerMessage.decode_encode m), hforget]

theorem Ready.step_getChunk (ht : t.Ready) {hash : Hash} {chunk : Bytes}
    (hstored : t.store.get? hash = some chunk) :
    t.step (PeerMessage.getChunk hash).encode =
      (.ok (.reply (.chunkFound chunk)), t) := by
  rw [ht.step_encode]
  simp only [dispatch, hstored]

/-- A refusal of the device is passed on as it is. -/
theorem Ready.conclusion_refusal (ht : t.Ready) (status : Status) :
    t.conclusion (.error (Failure.refusal status)) =
      some (.error (.peer status [])) := by
  simp only [conclusion, ht.answered]
  rfl

end Transfer

namespace Session

variable {app : Application} {t : Transfer} {p : Peer}
variable {given : List (Option (List Bytes))} {outcome : Except Failure Bytes}
variable {peer : Peer}

/-- One message of the device, the reply to it, and what follows. -/
theorem say {t' : Transfer} {m : PeerMessage} {phase : Phase}
    {reply : HostMessage}
    (hstep : t.step m.encode = (.ok (.reply reply), t'))
    (hlength : reply.encode.length ≤ Frame.maxBody)
    (hrest : Session app t' (p.dispatch app phase reply) given outcome peer) :
    Session app t (p.say m phase) (none :: given) outcome peer := by
  rw [← p.handle_encode phase app reply] at hrest
  exact .next rfl hstep hlength hrest

/-- The device follows links that are served, with one exchange for each chunk. -/
theorem chain (ht : t.Ready) {roots : List Hash} {index : Nat}
    {finished : List Bytes} {chunks : List Linked} {slices : List Bytes}
    {root stop : Hash} (hleads : Chain.Leads root chunks stop)
    (hserves : t.Serves chunks)
    (hrest : Session app t
      (p.turnAt app roots index (slices ++ chunks.map Linked.slice) finished stop)
      given outcome peer) :
    Session app t (p.turnAt app roots index slices finished root)
      (List.replicate chunks.length none ++ given) outcome peer := by
  have hback := Peer.turnAt_of_served (n := 0)
    (motive := fun n turn =>
      Session app t turn (List.replicate n none ++ given) outcome peer)
    (fun n phase c hc hrest =>
      say (ht.step_getChunk (hserves c hc).1) (hserves c hc).2 hrest)
    hleads hrest
  rwa [Nat.zero_add] at hback

/-- The device gets the payloads that are left, with one exchange for each of their
chunks, so none for empty payloads. -/
theorem pull (ht : t.Ready) {size : Nat} {roots : List Hash} {index : Nat}
    {finished payloads : List Bytes}
    (hnonzero : ∀ c ∈ Chain.ofPayloads size payloads, c.hash ≠ Hash.zero)
    (hserves : t.Serves (Chain.ofPayloads size payloads))
    (hdrop : roots.drop index =
      payloads.map fun payload => Chain.root (Chain.ofPayload size payload))
    (hrest : Session app t (p.afterPull app (finished ++ payloads))
      given outcome peer) :
    Session app t (p.pullNext app roots index finished)
      (List.replicate (Chain.ofPayloads size payloads).length none ++ given)
      outcome peer := by
  induction payloads generalizing index finished with
  | nil =>
      rw [Peer.pullNext, hdrop]
      rw [List.append_nil] at hrest
      exact hrest
  | cons payload rest ih =>
      have hlater : roots.drop (index + 1) =
          rest.map fun payload => Chain.root (Chain.ofPayload size payload) := by
        rw [← List.tail_drop, hdrop, List.map_cons, List.tail_cons]
      have hleads := Chain.leads_ofPayload fun c hc =>
        hnonzero c (List.mem_append_left _ hc)
      have hnext : Session app t
          (p.pullNext app roots (index + 1) (finished ++ [payload]))
          (List.replicate (Chain.ofPayloads size rest).length none ++ given)
          outcome peer :=
        ih (fun c hc => hnonzero c (List.mem_append_right _ hc))
          (fun c hc => hserves c (List.mem_append_right _ hc)) hlater
          (by rw [List.append_assoc]; exact hrest)
      have hchunks : Chain.ofPayloads size (payload :: rest) =
          Chain.ofPayload size payload ++ Chain.ofPayloads size rest := rfl
      rw [p.pullNext_of_drop app hdrop, hchunks, List.length_append,
        List.replicate_add, List.append_assoc]
      refine chain ht hleads
        (fun c hc => hserves c (List.mem_append_left _ hc)) ?_
      rw [p.turnAt_payload]
      exact hnext

/-- The device pushes its chunk, if it has one, and gets it back. -/
theorem push (ht : t.Ready) {payloads : List Bytes}
    (hfits : ∀ chunk, p.push = some chunk →
      (HostMessage.chunkFound chunk).encode.length ≤ Frame.maxBody)
    (hrest : ∀ t' : Transfer, t'.Ready → t'.fragments = t.fragments →
      Session app t' (p.finish app payloads) given outcome peer) :
    Session app t (p.afterPull app payloads)
      (List.replicate (if p.push.isSome then 2 else 0) none ++ given)
      outcome peer := by
  unfold Peer.afterPull
  cases hpush : p.push with
  | none => exact hrest t ht rfl
  | some chunk =>
      have ht' : Transfer.Ready { t with store := t.store.put chunk } :=
        ⟨ht.waiting, ht.answered⟩
      refine say (ht.step_encode (.putChunk chunk)) (by decide) ?_
      rw [Peer.dispatch, Peer.readBack, hpush]
      refine say (ht'.step_getChunk (t.store.get?_put_self chunk))
        (hfits chunk hpush) ?_
      rw [Peer.dispatch, Peer.verify, if_pos rfl, if_pos hpush]
      exact hrest _ ht' rfl

/-- The device sends what is left of its output, in as many fragments as it takes
and at least one. -/
theorem emit (ht : t.Ready) (hfragment : 0 < p.fragmentSize) (output : Bytes)
    (offset : Nat) :
    Session app t (p.emit output offset)
      (List.replicate
        (max 1 ((output.length - offset) ⌈/⌉ p.fragmentSize)) none)
      (.ok (t.fragments.reverse.flatten ++ output.drop offset)) p.reset := by
  -- the induction is on the bytes that are left
  induction hleft : output.length - offset using Nat.strong_induction_on
    generalizing t offset with
  | _ left ih =>
      have hlength : (output.drop offset).length = left := by
        rw [List.length_drop, hleft]
      unfold Peer.emit
      dsimp only
      rw [hlength]
      by_cases hmore : p.fragmentSize < left
      · let fragment := (output.drop offset).take p.fragmentSize
        have ht' : Transfer.Ready { t with fragments := fragment :: t.fragments } :=
          ⟨ht.waiting, ht.answered⟩
        have hrest := ih (left - p.fragmentSize) (by omega) ht'
          (offset + p.fragmentSize) (by omega)
        have hoffset : output.drop (offset + p.fragmentSize) =
            (output.drop offset).drop p.fragmentSize := by
          rw [List.drop_drop]
        have houtput : (fragment :: t.fragments).reverse.flatten ++
            output.drop (offset + p.fragmentSize) =
              t.fragments.reverse.flatten ++ output.drop offset := by
          rw [List.reverse_cons, List.flatten_append, List.flatten_singleton,
            List.append_assoc, hoffset, List.take_append_drop]
        rw [houtput] at hrest
        rw [if_pos hmore, Bytes.max_ceilDiv_step hfragment hmore,
          List.replicate_succ]
        exact say (ht.step_encode (.accumulate fragment)) (by decide) hrest
      · rw [if_neg hmore, Bytes.max_ceilDiv_of_le hfragment (by omega)]
        refine .last ?_
        have hstep := ht.step_encode (.final (output.drop offset))
        simp only [Peer.say, Transfer.conclusion, hstep, Transfer.dispatch,
          List.reverse_cons, List.flatten_append, List.flatten_singleton]

/-- Handing payloads over in a turn changes nothing in the turns after it. -/
theorem delivering {turn : Turn} (h : Session app t turn given outcome peer)
    (payloads : List Bytes) :
    Session app t { turn with delivered := some payloads }
      (some payloads :: given.tail) outcome peer := by
  cases h with
  | last hend => exact .last hend
  | next hresponse hstep hlength hrest =>
      exact .next hresponse hstep hlength hrest

/-- The application answers with an output. -/
theorem finish_ok (ht : t.Ready) (hfragments : t.fragments = [])
    (hfragment : 0 < p.fragmentSize) {payloads : List Bytes} {output : Bytes}
    (happ : app payloads = .ok output) :
    Session app t (p.finish app payloads)
      (some payloads ::
        List.replicate (max 1 (output.length ⌈/⌉ p.fragmentSize) - 1) none)
      (.ok output) p.reset := by
  have hemit : Session app t _ _ _ _ :=
    (emit ht hfragment output 0).delivering payloads
  rw [hfragments, List.tail_replicate] at hemit
  simp only [Peer.finish, happ]
  exact hemit

/-- The application answers with a status word. -/
theorem finish_error (ht : t.Ready) {payloads : List Bytes} {status : Status}
    (happ : app payloads = .error status) :
    Session app t (p.finish app payloads) [some payloads]
      (.error (.peer status [])) p.reset := by
  simp only [Peer.finish, happ]
  exact .last (ht.conclusion_refusal status)

/-- The whole way from the opening to the application. -/
theorem opened (ht : t.Ready) {size : Nat} {payloads : List Bytes}
    (hidle : p.phase = .idle)
    (hnonzero : ∀ c ∈ Chain.ofPayloads size payloads, c.hash ≠ Hash.zero)
    (hserves : t.Serves (Chain.ofPayloads size payloads))
    (hfits : ∀ chunk, p.push = some chunk →
      (HostMessage.chunkFound chunk).encode.length ≤ Frame.maxBody)
    (hrest : ∀ t' : Transfer, t'.Ready → t'.fragments = t.fragments →
      Session app t' (p.finish app payloads) given outcome peer) :
    Session app t
      (p.handle app (HostMessage.start
        (payloads.map fun payload =>
          Chain.root (Chain.ofPayload size payload))).encode)
      (List.replicate ((Chain.ofPayloads size payloads).length +
        if p.push.isSome then 2 else 0) none ++ given) outcome peer := by
  rw [p.handle_start app hidle, List.replicate_add, List.append_assoc]
  refine pull ht hnonzero hserves rfl ?_
  rw [List.nil_append]
  exact push ht hfits hrest

/-- A new transfer played on a device that waits for one, given how the session
ends from the call of the application on. -/
theorem run_opened (device : PeerDevice) {size k : Nat} {payloads : List Bytes}
    (ht : t.Opens size payloads) (hsize : 0 < size)
    (hpayloads : payloads.length ≤ 7) (hidle : device.peer.phase = .idle)
    (hnonzero : ∀ c ∈ Chain.ofPayloads size payloads, c.hash ≠ Hash.zero)
    (hpush : ∀ chunk, device.peer.push = some chunk → chunk.length ≤ 254)
    (hrest : ∀ t' : Transfer, t'.Ready → t'.fragments = [] →
      Session device.app t' (device.peer.finish device.app payloads)
        (some payloads :: List.replicate k none) outcome device.peer.reset)
    {readings : Nat → Nat}
    (htime : ∀ i, readings (i + 1) < readings 0 + t.limits.timeout) :
    let played := t.run.run (Bench.channel readings) { device := device }
    let asked := 1 +
      (payloads.map fun payload => payload.length ⌈/⌉ size).sum +
      (if device.peer.push.isSome then 2 else 0)
    played.2.calls =
      (if asked ≤ t.limits.maxRounds then [(asked, payloads)] else []) ∧
    (asked + k ≤ t.limits.maxRounds →
      played.1 = outcome ∧ played.2.exchanges = asked + k ∧
      played.2.device.peer.isIdle = true) ∧
    (t.limits.maxRounds < asked + k →
      played.1 = .error (.roundLimit t.limits.maxRounds) ∧
      played.2.exchanges = t.limits.maxRounds) := by
  intro played asked
  have hready : Transfer.Ready { t with stage := .awaitingPeer } :=
    ⟨rfl, ht.answered⟩
  have hroots : t.roots.length ≤ 7 := by
    rw [ht.roots, List.length_map]
    exact hpayloads
  have hcount : (Chain.ofPayloads size payloads).length +
      (if device.peer.push.isSome then 2 else 0) + 1 = asked := by
    rw [Chain.length_ofPayloads hsize]
    omega
  have hsession := opened hready hidle hnonzero ht.serves
    (fun chunk hchunk => Nat.succ_le_succ (hpush chunk hchunk))
    (fun t' ht' hfragments => hrest t' ht' (hfragments.trans ht.fragments))
  rw [← ht.roots] at hsession
  obtain ⟨hcalls, henough, hshort⟩ :=
    run_of_one_call ht.stage ht.rounds hroots hsession htime
  rw [hcount] at hcalls henough hshort
  refine ⟨hcalls, fun h => ?_, hshort⟩
  obtain ⟨houtcome, hlength, hpeer⟩ := henough h
  exact ⟨houtcome, hlength, by rw [hpeer]; rfl⟩

end Session

namespace Transfer

/-- Payloads whose chunks fit a reply make a new transfer. -/
theorem opens_of_fits {payloads : List Bytes} {size : Nat} (header : Header)
    (limits : Limits) (hsize : 1 ≤ size)
    (hfits : ∀ c ∈ Chain.ofPayloads size payloads, c.bytes.length ≤ 254)
    (hchunks : Chain.Separable (Chain.ofPayloads size payloads)) :
    ∃ t, ofPayloads header payloads size limits = .ok t ∧
      t.limits = limits ∧ t.Opens size payloads := by
  refine ⟨_, ofPayloads_eq hsize header payloads limits, rfl,
    rfl, rfl, rfl, rfl, rfl, ?_⟩
  intro c hc
  exact ⟨Store.get?_linked hchunks hc _, Nat.succ_le_succ (hfits c hc)⟩

/-- Payloads in slices of at most 222 bytes make a new transfer. -/
theorem opens_of_ofPayloads {payloads : List Bytes} {size : Nat}
    (header : Header) (limits : Limits) (hsize : 1 ≤ size) (hsize' : size ≤ 222)
    (hchunks : Chain.Separable (Chain.ofPayloads size payloads)) :
    ∃ t, ofPayloads header payloads size limits = .ok t ∧
      t.limits = limits ∧ t.Opens size payloads := by
  exact opens_of_fits header limits hsize
    (fun c hc => Chain.length_le_of_small_slices hsize hsize' hc) hchunks

/-- **Payloads reach the application, and its answer comes back.**  The device asks
for every chunk once, gets its own chunk back if it pushes one, and then hands the
payloads to the application, once and in order; the output takes as many exchanges
as it has fragments.  A budget of rounds cuts this short, and nothing else does. -/
theorem round_trip {payloads : List Bytes} {size fragmentSize : Nat}
    {push : Option Bytes} {app : Application} {header : Header}
    {limits : Limits} {readings : Nat → Nat}
    (hpayloads : payloads.length ≤ 7) (hsize : 1 ≤ size) (hsize' : size ≤ 222)
    (hfragment : 1 ≤ fragmentSize)
    (hpush : ∀ chunk, push = some chunk → chunk.length ≤ 254)
    (hchunks : Chain.Separable (Chain.ofPayloads size payloads))
    (htime : ∀ i, readings (i + 1) < readings 0 + limits.timeout) :
    ∃ t, ofPayloads header payloads size limits = .ok t ∧
      let peer := ({ push := push } : Peer).withFragmentSize fragmentSize
      let played := t.run.run (Bench.channel readings)
        { device := { peer := peer, app := app } }
      let asked := 1 +
        (payloads.map fun payload => payload.length ⌈/⌉ size).sum +
        (if push.isSome then 2 else 0)
      played.2.calls =
        (if asked ≤ limits.maxRounds then [(asked, payloads)] else []) ∧
      (∀ output, app payloads = .ok output →
        let total := asked + max 1 (output.length ⌈/⌉ fragmentSize) - 1
        (total ≤ limits.maxRounds →
          played.1 = .ok output ∧ played.2.exchanges = total ∧
          played.2.device.peer.isIdle = true) ∧
        (limits.maxRounds < total →
          played.1 = .error (.roundLimit limits.maxRounds) ∧
          played.2.exchanges = limits.maxRounds)) ∧
      (∀ status, app payloads = .error status →
        (asked ≤ limits.maxRounds →
          played.1 = .error (.peer status []) ∧
          played.2.exchanges = asked ∧
          played.2.device.peer.isIdle = true) ∧
        (limits.maxRounds < asked →
          played.1 = .error (.roundLimit limits.maxRounds) ∧
          played.2.exchanges = limits.maxRounds)) := by
  obtain ⟨t, hbuilt, rfl, ht⟩ :=
    opens_of_ofPayloads header limits hsize hsize' hchunks
  refine ⟨t, hbuilt, ?_⟩
  intro peer played asked
  have hwidth : peer.fragmentSize = fragmentSize := Nat.max_eq_left hfragment
  have hpositive : 0 < peer.fragmentSize := by
    rw [hwidth]
    exact hfragment
  cases happ : app payloads with
  | ok output =>
      obtain ⟨hcalls, henough, hshort⟩ := Session.run_opened
        ⟨peer, app, none⟩ ht hsize hpayloads rfl hchunks.nonzero hpush
        (fun t' ht' hfragments =>
          Session.finish_ok ht' hfragments hpositive happ) htime
      refine ⟨hcalls, ?_, fun status hstatus => (by cases hstatus)⟩
      intro output' houtput
      obtain rfl := Except.ok.inj houtput
      intro total
      have htotal : total =
          asked + (max 1 (output.length ⌈/⌉ peer.fragmentSize) - 1) := by
        rw [hwidth]
        omega
      rw [htotal]
      exact ⟨henough, hshort⟩
  | error status =>
      obtain ⟨hcalls, henough, hshort⟩ := Session.run_opened (k := 0)
        ⟨peer, app, none⟩ ht hsize hpayloads rfl hchunks.nonzero hpush
        (fun t' ht' _ => Session.finish_error ht' happ) htime
      refine ⟨hcalls, fun output houtput => (by cases houtput), ?_⟩
      intro status' hstatus
      obtain rfl := Except.error.inj hstatus
      exact ⟨henough, hshort⟩

/-- Two chunks, an empty payload and a chunk that the device pushes. -/
theorem round_trip_of_three_bytes :
    let payloads : List Bytes := [[1, 2, 3], []]
    let header : Header := ⟨0, 3, 0, 0⟩
    ∃ t, ofPayloads header payloads 2 ⟨9, 1⟩ = .ok t ∧
      let peer := ({ push := some [7] } : Peer).withFragmentSize 1
      let played := t.run.run (Bench.channel fun _ => 0)
        { device := { peer := peer, app := PeerDevice.echo } }
      played.2.calls = [(5, payloads)] ∧ played.1 = .ok [1, 2, 3] ∧
      played.2.exchanges = 7 := by
  intro payloads header
  have hchunks : Chain.Separable (Chain.ofPayloads 2 payloads) :=
    ⟨by decide +kernel, by decide +kernel⟩
  obtain ⟨t, hbuilt, hcalls, houtput, _⟩ :=
    @round_trip payloads 2 1 (some [7]) PeerDevice.echo header ⟨9, 1⟩ (fun _ => 0)
      (by decide) (by decide) (by decide) (by decide) (by simp) hchunks
      (fun _ => by decide)
  obtain ⟨hresult, hlength, _⟩ := (houtput [1, 2, 3] rfl).1 (by decide)
  exact ⟨t, hbuilt, hcalls, hresult, hlength⟩

end Transfer

end Courier
