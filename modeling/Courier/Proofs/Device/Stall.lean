import Courier.Proofs.Device.RoundTrip

/-!
# Chunks that no reply holds

Slices of more than 222 bytes make chunks that do not fit a frame behind their tag
and their link.  A device that comes to such a chunk asks for it like for any
other, and the transfer fails on its own reply.  So with a slice size above 222 it
is the payloads that decide: one that is longer than 222 bytes cannot be sent.

* `Stalls`: a session up to a reply that is too long.
* `Stalls.played`, `Stalls.run`: how such a session plays out.
* `Stalls.pull`: a long payload brings a session to this, within as many exchanges
  as there are chunks.
* `Transfer.encoding_iff_long_payload`: with slices of any such size.
-/

namespace Courier

/-- A session from a turn of the device to a reply that no frame holds, with the
number of exchanges up to it. -/
inductive Stalls (app : Application) : Transfer → Turn → Nat → Prop
  | here {t t' : Transfer} {turn : Turn} {response : Bytes} {m : HostMessage}
      (hresponse : turn.response = .ok response)
      (hstep : t.step response = (.ok (.reply m), t'))
      (hlength : Frame.maxBody < m.encode.length) :
      Stalls app t turn 1
  | next {t t' : Transfer} {turn : Turn} {response : Bytes} {m : HostMessage}
      {k : Nat} (hresponse : turn.response = .ok response)
      (hstep : t.step response = (.ok (.reply m), t'))
      (hlength : m.encode.length ≤ Frame.maxBody)
      (hrest : Stalls app t' (turn.peer.handle app m.encode) k) :
      Stalls app t turn (k + 1)

/-- The reply that carries a linked chunk: the tag, the link and the slice. -/
theorem Linked.length_reply (c : Linked) :
    (HostMessage.chunkFound c.bytes).encode.length = 33 + c.slice.length := by
  rw [HostMessage.encode, HostMessage.content, List.length_cons, c.length_bytes,
    Hash.size]
  omega

namespace Stalls

variable {app : Application} {t : Transfer} {turn : Turn} {k : Nat}

/-- With a round left for the long reply, the transfer fails on it. -/
theorem played (h : Stalls app t turn k) {deadline n : Nat}
    {readings : Nat → Nat} {b : Bench} {body : Bytes}
    (happ : b.device.app = app) (hturn : b.device.peer.handle app body = turn)
    (hbody : body.length ≤ Frame.maxBody) (hrounds : n + k < t.limits.maxRounds)
    (htime : ∀ i, b.read ≤ i → readings i < deadline) :
    ∃ why, ((Transfer.play deadline (t.limits.maxRounds - n)
      { t with rounds := n } body).run (Bench.channel readings) b).1 =
        .error (.encoding why) := by
  induction h generalizing n b body with
  | @here t t' turn response m hresponse hstep hlength =>
      have hlimits := Transfer.limits_of_step hstep
      have hrefusal : t'.limits.refusal deadline (readings (b.after turn).read)
          (n + 1) m.encode = some (.encoding (.replyTooLong m.encode.length)) := by
        have hintime : readings (b.after turn).read < deadline :=
          htime (b.read + 1) (Nat.le_succ _)
        rw [Limits.refusal, hlimits, if_neg (by omega), if_neg (by omega),
          if_pos hlength]
      rw [play_of_turn happ hturn hbody (by omega) (htime b.read (Nat.le_refl _))
        hresponse hstep, ← hlimits]
      have hplayed := Transfer.play_of_refusal (Bench.channel readings)
        (b.after turn) (t := { t' with rounds := n + 1 }) hrefusal
      rw [hplayed]
      exact ⟨_, rfl⟩
  | @next t t' turn response m k hresponse hstep hlength _ ih =>
      have hlimits := Transfer.limits_of_step hstep
      rw [play_of_turn happ hturn hbody (by omega) (htime b.read (Nat.le_refl _))
        hresponse hstep, ← hlimits]
      exact ih (b := b.after turn) happ rfl hlength (by rw [hlimits]; omega)
        fun i hi => htime i (Nat.le_of_succ_le hi)

theorem run {device : PeerDevice} {n : Nat} (hstage : t.stage = .sending)
    (hrounds : t.rounds = 0) (hroots : t.roots.length ≤ 7)
    (h : ∃ k ≤ n, Stalls device.app { t with stage := .awaitingPeer }
      (device.peer.handle device.app (HostMessage.start t.roots).encode) k)
    (hn : n < t.limits.maxRounds) {readings : Nat → Nat}
    (htime : ∀ i, readings (i + 1) < readings 0 + t.limits.timeout) :
    ∃ why, (t.run.run (Bench.channel readings) { device := device }).1 =
      .error (.encoding why) := by
  obtain ⟨hfits, hreadings, hrun⟩ :=
    Transfer.run_opening device hstage hrounds hroots htime
  obtain ⟨k, hk, hstalls⟩ := h
  rw [hrun]
  exact hstalls.played (n := 0) (b := { device := device, read := 1 }) rfl rfl
    hfits (by dsimp only; omega) hreadings

theorem of_long_chunk {p : Peer} (ht : t.Ready) {c : Linked}
    (hlong : 222 < c.slice.length) (hstored : t.store.get? c.hash = some c.bytes)
    (phase : Phase) : Stalls app t (p.say (.getChunk c.hash) phase) 1 := by
  refine .here rfl (ht.step_getChunk hstored) ?_
  rw [Linked.length_reply, Frame.maxBody]
  omega

/-- The device follows links that are served to a chunk that is too long. -/
theorem chain {p : Peer} (ht : t.Ready) {roots : List Hash} {index : Nat}
    {slices finished : List Bytes} {chunks : List Linked} {root stop : Hash}
    (hleads : Chain.Leads root chunks stop) (hserves : t.Serves chunks)
    (hrest : Stalls app t
      (p.turnAt app roots index (slices ++ chunks.map Linked.slice) finished stop)
      k) :
    Stalls app t (p.turnAt app roots index slices finished root)
      (k + chunks.length) := by
  refine Peer.turnAt_of_served (motive := fun n turn => Stalls app t turn n)
    (fun n phase c hc hrest => ?_) hleads hrest
  refine .next rfl (ht.step_getChunk (hserves c hc).1) (hserves c hc).2 ?_
  rw [← p.handle_encode phase app] at hrest
  exact hrest

/-- A long payload among those that are left.  The chunks of the payloads before it
fit, and its first chunk is too long. -/
theorem pull {p : Peer} (ht : t.Ready) {size : Nat} (hsize : 222 < size)
    {roots : List Hash} {index : Nat} {finished payloads : List Bytes}
    (hnonzero : ∀ c ∈ Chain.ofPayloads size payloads, c.hash ≠ Hash.zero)
    (hstored : ∀ c ∈ Chain.ofPayloads size payloads,
      t.store.get? c.hash = some c.bytes)
    (hdrop : roots.drop index =
      payloads.map fun payload => Chain.root (Chain.ofPayload size payload))
    (hlong : ∃ payload ∈ payloads, 222 < payload.length) :
    ∃ k ≤ (Chain.ofPayloads size payloads).length,
      Stalls app t (p.pullNext app roots index finished) k := by
  induction payloads generalizing index finished with
  | nil => simp at hlong
  | cons payload rest ih =>
      have hlater : roots.drop (index + 1) =
          rest.map fun payload => Chain.root (Chain.ofPayload size payload) := by
        rw [← List.tail_drop, hdrop, List.map_cons, List.tail_cons]
      have hchunks : Chain.ofPayloads size (payload :: rest) =
          Chain.ofPayload size payload ++ Chain.ofPayloads size rest := rfl
      rw [hchunks] at hnonzero hstored ⊢
      rw [List.map_cons] at hdrop
      by_cases hpayload : 222 < payload.length
      · have hne : payload ≠ [] := List.ne_nil_of_length_pos (by omega)
        rw [Chain.ofPayload_of_ne_nil (by omega) hne] at hdrop hnonzero hstored ⊢
        have hhead := hnonzero _ (List.mem_append_left _ List.mem_cons_self)
        have hslice : 222 < (payload.take size).length := by
          rw [List.length_take]
          omega
        refine ⟨1, by simp, ?_⟩
        rw [p.pullNext_of_drop app hdrop, Chain.root, Peer.turnAt, if_neg hhead]
        exact of_long_chunk ht hslice
          (hstored _ (List.mem_append_left _ List.mem_cons_self)) _
      · have hrest : ∃ k ≤ (Chain.ofPayloads size rest).length, Stalls app t
            (p.pullNext app roots (index + 1) (finished ++ [payload])) k :=
          ih (fun c hc => hnonzero c (List.mem_append_right _ hc))
            (fun c hc => hstored c (List.mem_append_right _ hc)) hlater
            (by simpa [hpayload] using hlong)
        obtain ⟨k, hk, hstalls⟩ := hrest
        have hserves : t.Serves (Chain.ofPayload size payload) := by
          intro c hc
          have hslice := Chain.length_slice_le_of_mem_ofPayload hc
          refine ⟨hstored c (List.mem_append_left _ hc), ?_⟩
          rw [Linked.length_reply, Frame.maxBody]
          omega
        have hleads := Chain.leads_ofPayload fun c hc =>
          hnonzero c (List.mem_append_left _ hc)
        refine ⟨k + (Chain.ofPayload size payload).length, ?_, ?_⟩
        · rw [List.length_append]
          omega
        · rw [p.pullNext_of_drop app hdrop]
          refine chain ht hleads hserves ?_
          rw [p.turnAt_payload]
          exact hstalls

/-- A device that waits for a transfer with a long payload. -/
theorem opened {p : Peer} (ht : t.Ready) (hidle : p.phase = .idle) {size : Nat}
    (hsize : 222 < size) {payloads : List Bytes}
    (hnonzero : ∀ c ∈ Chain.ofPayloads size payloads, c.hash ≠ Hash.zero)
    (hstored : ∀ c ∈ Chain.ofPayloads size payloads,
      t.store.get? c.hash = some c.bytes)
    (hlong : ∃ payload ∈ payloads, 222 < payload.length) :
    ∃ k ≤ (Chain.ofPayloads size payloads).length,
      Stalls app t
        (p.handle app (HostMessage.start
          (payloads.map fun payload =>
            Chain.root (Chain.ofPayload size payload))).encode) k := by
  rw [p.handle_start app hidle]
  exact pull ht hsize hnonzero hstored rfl hlong

end Stalls

/-- However the application answers, the session does not end in an overlong
message. -/
theorem Session.finish_other {p : Peer} (hfragment : 0 < p.fragmentSize)
    (app : Application) (payloads : List Bytes) :
    ∃ k outcome, (∀ why, outcome ≠ .error (.encoding why)) ∧
      ∀ t : Transfer, t.Ready → t.fragments = [] →
        Session app t (p.finish app payloads)
          (some payloads :: List.replicate k none) outcome p.reset := by
  cases happ : app payloads with
  | ok output =>
      exact ⟨_, _, by simp, fun t ht hfragments =>
        Session.finish_ok ht hfragments hfragment happ⟩
  | error status =>
      exact ⟨0, _, by simp, fun t ht _ => Session.finish_error ht happ⟩

namespace Transfer

/-- **Above a slice size of 222 bytes the payloads decide.**  A transfer of at most
seven payloads to a device that pushes nothing fails on its own message exactly
when a payload is longer than 222 bytes. -/
theorem encoding_iff_long_payload {payloads : List Bytes} {size : Nat}
    (header : Header) (limits : Limits) (hsize : 222 < size)
    (hpayloads : payloads.length ≤ 7)
    (hchunks : Chain.Separable (Chain.ofPayloads size payloads))
    (fragmentSize : Nat) (app : Application) {readings : Nat → Nat}
    (hrounds : 1 + (payloads.map fun payload => payload.length ⌈/⌉ size).sum ≤
      limits.maxRounds)
    (htime : ∀ i, readings (i + 1) < readings 0 + limits.timeout) :
    ∃ t, ofPayloads header payloads size limits = .ok t ∧
      ((∃ why, (t.run.run (Bench.channel readings)
          { device := ⟨({} : Peer).withFragmentSize fragmentSize, app, none⟩ }).1 =
            .error (.encoding why)) ↔
        ∃ payload ∈ payloads, 222 < payload.length) := by
  by_cases hlong : ∃ payload ∈ payloads, 222 < payload.length
  · have hpositive : 0 < size := by omega
    refine ⟨_, ofPayloads_eq hpositive header payloads limits,
      iff_of_true ?_ hlong⟩
    refine Stalls.run rfl rfl (by rwa [List.length_map])
      (Stalls.opened ⟨rfl, rfl⟩ rfl hsize hchunks.nonzero
        (fun c hc => Store.get?_linked hchunks hc _) hlong) ?_ htime
    rw [Chain.length_ofPayloads hpositive]
    exact Nat.lt_of_lt_of_le (Nat.lt_add_of_pos_left Nat.one_pos) hrounds
  · -- every chunk fits
    obtain ⟨t, hbuilt, rfl, ht⟩ := opens_of_fits header limits (by omega)
      (fun c hc => Chain.length_le_of_short_payloads hlong hc) hchunks
    obtain ⟨k, outcome, hother, hrest⟩ :=
      Session.finish_other (p := ({} : Peer).withFragmentSize fragmentSize)
        (Nat.le_max_right _ _) app payloads
    obtain ⟨_, henough, hshort⟩ := Session.run_opened
      ⟨({} : Peer).withFragmentSize fragmentSize, app, none⟩ ht (by omega)
      hpayloads rfl hchunks.nonzero (fun chunk h => (by cases h)) hrest htime
    refine ⟨t, hbuilt, iff_of_false ?_ hlong⟩
    rintro ⟨why, hfailed⟩
    rcases Nat.lt_or_ge t.limits.maxRounds _ with hlt | hge
    · rw [(hshort hlt).1] at hfailed
      cases hfailed
    · rw [(henough hge).1] at hfailed
      exact hother why hfailed

end Transfer
end Courier
