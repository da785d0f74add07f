import Courier.Proofs.Device.Stall
import Courier.Proofs.Dialogue.Alike
import Courier.Proofs.Message.Acceptance
import Courier.Proofs.Transfer.Loop
import Courier.Proofs.Transfer.Provenance
import Courier.Strategy

/-!
# Nothing leaves the host that no frame holds

Both ways to send look at the length before they send, so the bound on a body holds
for every device whatever.  What can go wrong instead is that a block transfer fails
on a reply of its own.  As long as the linked chunks fit a frame there are two causes
for this: more than seven payloads, or a peer that asks for a chunk that it has pushed
and that is too long.  Settings that have been validated see to it that they fit, but
for the slice sizes at the end of the word that are taken for small ones.  With such
a size, as with any other one above 222, the payloads themselves are a cause.

* `Transfer.asks_run`: the commands of a transfer carry its header and fit a frame.
* `SendMode.asks_send`: the bodies of both ways to send.
* `Transfer.Traced`: where a long reply comes from, kept by each exchange.
* `Transfer.encoding_cause`: the failures of a transfer on its own messages.
* `SendMode.frame_bound`: all of it under validated settings;
  `SendMode.long_chunk_under_validated_settings`: the size that they should not have.
-/

namespace Courier

namespace Settings

variable {settings : Settings}

/-- What validated settings say about lengths. -/
theorem bounds_of_validate (h : settings.validate = .ok ()) :
    0 < settings.chunkSize ∧ settings.chunkBody ≤ Frame.maxBody ∧
      0 < settings.maxFrame ∧ settings.maxFrame ≤ Frame.maxBody := by
  unfold validate at h
  cases hfault : settings.fault? with
  | some why => simp [hfault] at h
  | none =>
      unfold fault? at hfault
      split_ifs at hfault
      omega

/-- Slices of validated settings are short, unless their size is at the end of the
word. -/
theorem chunkSize_le_of_validate (h : settings.validate = .ok ())
    (hword : settings.chunkSize < 2 ^ 64 - 33) : settings.chunkSize ≤ 222 := by
  obtain ⟨_, hbody, _, _⟩ := bounds_of_validate h
  have hfits : Hash.size + settings.chunkSize + 1 < Decimal.longBound := by
    rw [Hash.size, Decimal.longBound]
    omega
  rw [chunkBody_of_lt hfits, Frame.maxBody, Hash.size] at hbody
  omega

end Settings

section Requests

variable {header : Header}

theorem Frames.asks_sendAll {last : Bytes} {frames : List Bytes}
    (hframes : ∀ frame ∈ frames, frame.length ≤ Frame.maxBody) :
    (sendAll header last frames).Asks Request.Fits := by
  induction frames generalizing last with
  | nil => trivial
  | cons frame rest ih =>
      refine ⟨hframes frame List.mem_cons_self, fun response => ?_⟩
      cases response with
      | error e => trivial
      | ok response => exact ih fun f hf => hframes f (List.mem_cons_of_mem _ hf)

theorem Frames.length_le_of_mem_cut {payloads : List Bytes} {size : Nat}
    (hsize : 0 < size) {frame : Bytes} (hframe : frame ∈ cut size payloads) :
    frame.length ≤ size := by
  unfold cut at hframe
  cases hslices : Bytes.slices size payloads.flatten with
  | nil =>
      rw [hslices] at hframe
      rw [List.mem_singleton.mp hframe]
      exact Nat.zero_le _
  | cons first rest =>
      have hslice : frame ∈ Bytes.slices size payloads.flatten := by
        rw [hslices] at hframe ⊢
        exact hframe
      exact Bytes.length_le_of_mem_slices hsize payloads.flatten frame hslice

theorem Frames.asks_send {payloads : List Bytes} {size : Nat}
    (hsize : size ≤ Frame.maxBody) :
    (send header payloads size).Asks Request.Fits := by
  unfold send
  split_ifs with hzero
  · trivial
  · refine asks_sendAll fun frame hframe => ?_
    exact (length_le_of_mem_cut (Nat.pos_of_ne_zero hzero) hframe).trans hsize

theorem Transfer.asks_play (deadline left : Nat) (t : Transfer) (body : Bytes) :
    (play deadline left t body).Asks
      fun request => request.header = t.header ∧ request.Fits := by
  induction left generalizing t body with
  | zero => trivial
  | succ left ih =>
      unfold play
      intro time
      dsimp only
      split_ifs with htime hlength
      · trivial
      · trivial
      · refine ⟨⟨rfl, Nat.le_of_not_lt hlength⟩, fun response => ?_⟩
        cases response with
        | error e => trivial
        | ok response =>
            have hframe := ({ t with rounds := t.rounds + 1 }.step_frame response).1
            dsimp only
            split
            · trivial
            · trivial
            · next hstep =>
                rw [hstep] at hframe
                rw [← show _ = t.header from hframe]
                exact ih _ _

/-- The commands of a transfer carry its header and fit a frame. -/
theorem Transfer.asks_run (t : Transfer) :
    t.run.Asks fun request => request.header = t.header ∧ request.Fits := by
  unfold run
  intro time
  have hframe := t.start_frame.1
  split
  · trivial
  · next hstart =>
      rw [hstart] at hframe
      rw [← show _ = t.header from hframe]
      exact asks_play _ _ _ _

/-- The bodies of both ways to send. -/
theorem SendMode.asks_send {settings : Settings}
    (hframe : settings.maxFrame ≤ Frame.maxBody) (mode : SendMode)
    (payloads : List Bytes) :
    (mode.send settings header payloads).Asks Request.Fits := by
  cases mode with
  | simple => exact Frames.asks_send hframe
  | blocks =>
      unfold send
      dsimp only
      split
      · trivial
      · exact (Transfer.asks_run _).imp fun request h => h.2

end Requests

theorem Exchange.brings_iff {request : Request} {response : Bytes}
    {m m' : PeerMessage} (hdecode : PeerMessage.decode response = .ok m) :
    Exchange.Brings ⟨request, .ok response⟩ m' ↔ m = m' := by
  constructor
  · exact fun h => Brings.unique ⟨response, rfl, hdecode⟩ h
  · rintro rfl
    exact ⟨response, rfl, hdecode⟩

/-- The chunks that the peer has pushed, by the record. -/
def pushedOn (log : List Exchange) : Set Bytes :=
  {chunk | ∃ x ∈ log, x.Brings (.putChunk chunk)}

theorem pushedOn_cons {request : Request} {response : Bytes} {m : PeerMessage}
    (hdecode : PeerMessage.decode response = .ok m) (log : List Exchange) :
    pushedOn (⟨request, .ok response⟩ :: log) =
      pushedOn log ∪ {chunk | m = .putChunk chunk} := by
  ext chunk
  simp only [pushedOn, Set.mem_ofPred_eq, Set.mem_union, List.mem_cons,
    exists_eq_or_imp, Exchange.brings_iff hdecode]
  exact or_comm

namespace Transfer

/-- The store is made of the linked chunks and of those on record, and a body that
is too long carries one of them to a peer that has just asked for it. -/
structure Traced (linked : Set Bytes) (t : Transfer) (body : Bytes)
    (log : List Exchange) : Prop where
  store : t.store.MadeOf (linked ∪ pushedOn log)
  long : Frame.maxBody < body.length → ∃ x earlier hash chunk,
    log = x :: earlier ∧ x.Brings (.getChunk hash) ∧ Hash.ofChunk chunk = hash ∧
    chunk ∈ linked ∪ pushedOn earlier ∧
    body = (HostMessage.chunkFound chunk).encode

theorem Traced.reply {linked : Set Bytes} {t t' : Transfer}
    {body response : Bytes} {log : List Exchange} {m : PeerMessage}
    {reply : HostMessage} (h : t.Traced linked body log)
    (hdecode : PeerMessage.decode response = .ok m)
    (hanswers : t.Answers m reply t') :
    { t' with rounds := t.rounds + 1 }.Traced linked reply.encode
      (⟨⟨t.header, body⟩, .ok response⟩ :: log) := by
  refine ⟨?_, fun hlong => ?_⟩
  · rw [pushedOn_cons hdecode, ← Set.union_assoc]
    exact hanswers.madeOf h.store
  · cases hanswers with
    | accumulated fragment => exact absurd hlong (by decide)
    | missed habsent => exact absurd hlong (by decide)
    | stored chunk => exact absurd hlong (by decide)
    | served hstored =>
        obtain ⟨hhash, hmem⟩ := h.store.ofChunk_of_get? hstored
        exact ⟨_, log, _, _, rfl, ⟨response, rfl, hdecode⟩, hhash, hmem, rfl⟩

theorem Carries.traced_opening {t : Transfer} {size : Nat} {payloads : List Bytes}
    (ht : t.Carries size payloads) (hroots : t.roots.length ≤ 7) :
    Traced {b | ∃ c ∈ Chain.ofPayloads size payloads, c.bytes = b}
      { t with stage := .awaitingPeer } (HostMessage.start t.roots).encode [] := by
  refine ⟨?_, fun hlong => ?_⟩
  · have hnone : pushedOn [] = ∅ := by
      simp [pushedOn]
    rw [hnone, Set.union_empty]
    exact ht.store
  · exact absurd ((maxBody_lt_start_iff t.roots).mp hlong) (by omega)

/-- If the linked chunks fit, only a pushed chunk makes a reply too long. -/
theorem Traced.pushed_of_long {t : Transfer} {size : Nat} {payloads : List Bytes}
    {body : Bytes} {log : List Exchange}
    (hfits : ∀ c ∈ Chain.ofPayloads size payloads, c.bytes.length ≤ 254)
    (h : t.Traced {b | ∃ c ∈ Chain.ofPayloads size payloads, c.bytes = b} body log)
    (hlong : Frame.maxBody < body.length) :
    ∃ x earlier hash chunk, log = x :: earlier ∧ x.Brings (.getChunk hash) ∧
      Hash.ofChunk chunk = hash ∧ 254 < chunk.length ∧
      (∃ y ∈ earlier, y.Brings (.putChunk chunk)) ∧
      body.length = chunk.length + 1 := by
  obtain ⟨x, earlier, hash, chunk, hlog, hasked, hhash, hmem, rfl⟩ := h.long hlong
  have hlength : (HostMessage.chunkFound chunk).encode.length =
      chunk.length + 1 := rfl
  rw [hlength, Frame.maxBody] at hlong
  refine ⟨x, earlier, hash, chunk, hlog, hasked, hhash, by omega, ?_, hlength⟩
  rcases hmem with ⟨c, hc, rfl⟩ | hpushed
  · have hlinked := hfits c hc
    omega
  · exact hpushed

/-- The two causes for which a transfer fails on a message of its own, with linked chunks
that fit and nothing wrong on the channel. -/
theorem encoding_cause {t : Transfer} {payloads : List Bytes} {size : Nat}
    (hfits : ∀ c ∈ Chain.ofPayloads size payloads, c.bytes.length ≤ 254)
    (ht : t.Carries size payloads)
    {σ : Type} (channel : Channel σ) (s : σ) :
    let played := t.run.run channel.logged (s, [])
    (∀ x ∈ played.2.2, ∃ response, x.response = .ok response) →
    ∀ why, played.1 = .error (.encoding why) →
      (7 < payloads.length ∧ why = .tooManyRoots payloads.length) ∨
      ∃ x earlier hash chunk, played.2.2 = x :: earlier ∧
        x.Brings (.getChunk hash) ∧ Hash.ofChunk chunk = hash ∧
        254 < chunk.length ∧ (∃ y ∈ earlier, y.Brings (.putChunk chunk)) ∧
        why = .replyTooLong (chunk.length + 1) := by
  intro played hanswered why hfailed
  by_cases hroots : t.roots.length ≤ 7
  · right
    obtain ⟨t', body, log, htraced, _, hending⟩ :=
      run_logged Traced.reply channel s ht.stage hroots (ht.traced_opening hroots)
    rcases hending with ⟨deadline, now, e, hrefusal, houtcome, hlog⟩ |
      ⟨response, hend, hlog⟩
    · obtain rfl := Except.error.inj (houtcome.symm.trans hfailed)
      rcases Limits.refusal_cases hrefusal with h | h | ⟨hlong, h⟩
      · cases h
      · cases h
      · obtain ⟨x, earlier, hash, chunk, rfl, hasked, hhash, hover, hpushed,
          hlength⟩ := htraced.pushed_of_long hfits hlong
        refine ⟨x, earlier, hash, chunk, hlog, hasked, hhash, hover, hpushed, ?_⟩
        rw [Failure.encoding.inj h, hlength]
    · -- a response cannot end the transfer in this way
      have hmem : (⟨⟨t'.header, body⟩, response⟩ : Exchange) ∈ played.2.2 := by
        rw [show played.2.2 = _ from hlog]
        exact List.mem_cons_self
      obtain ⟨response', rfl⟩ := hanswered _ hmem
      rw [show (t.run.run channel.logged (s, [])).1 = _ from hfailed] at hend
      obtain ⟨_, hprotocol⟩ := protocol_of_conclusion hend
      cases hprotocol
  · left
    have hplayed : played = _ :=
      run_of_tooMany channel.logged (s, []) ht.stage hroots
    rw [hplayed] at hfailed
    rw [← ht.roots]
    refine ⟨by omega, ?_⟩
    exact (Failure.encoding.inj (Except.error.inj hfailed)).symm

end Transfer

namespace SendMode

theorem send_blocks {settings : Settings} {header : Header}
    {payloads : List Bytes} {t : Transfer}
    (ht : Transfer.ofPayloads header payloads settings.chunkSize settings.limits =
      .ok t) : blocks.send settings header payloads = t.run := by
  simp only [send, ht]

/-- Under validated settings the linked chunks fit, unless the size of the slices is at
the end of the word and there is a payload to fill one. -/
theorem fits_or_long {settings : Settings} (hvalid : settings.validate = .ok ())
    (payloads : List Bytes) :
    (∀ c ∈ Chain.ofPayloads settings.chunkSize payloads, c.bytes.length ≤ 254) ∨
      2 ^ 64 - 33 ≤ settings.chunkSize ∧ ∃ payload ∈ payloads, 222 < payload.length := by
  obtain ⟨hsize, _, _, _⟩ := Settings.bounds_of_validate hvalid
  by_cases hword : settings.chunkSize < 2 ^ 64 - 33
  · have hsize' := Settings.chunkSize_le_of_validate hvalid hword
    exact Or.inl fun c hc => Chain.length_le_of_small_slices hsize hsize' hc
  · by_cases hlong : ∃ payload ∈ payloads, 222 < payload.length
    · exact Or.inr ⟨Nat.le_of_not_lt hword, hlong⟩
    · exact Or.inl fun c hc => Chain.length_le_of_short_payloads hlong hc

/-- **Every body fits a frame, and validated settings nearly see to it.**  Whatever the
device does, both ways to send stay within the length of a frame.  A block transfer
under validated settings fails on a message of its own only for more than seven
payloads, when the peer asks for a chunk of more than 254 bytes that it has pushed, or
for a payload of more than 222 bytes in slices of one of the last sizes of the word.
The bound on the slices is tight: with any larger size, and a device that pushes
nothing, a transfer fails in this way exactly if it has a payload of more than 222
bytes. -/
theorem frame_bound {settings : Settings} (hvalid : settings.validate = .ok ())
    (header : Header) (payloads : List Bytes) :
    (∀ (mode : SendMode) {σ : Type} (channel : Channel σ) (s : σ),
      ∀ x ∈ ((mode.send settings header payloads).run channel.logged (s, [])).2.2,
        x.request.body.length ≤ 255 ∧
        ∃ frame, Frame.encode x.request.header x.request.body = .ok frame) ∧
    (∀ {σ : Type} (channel : Channel σ) (s : σ),
      let played :=
        (blocks.send settings header payloads).run channel.logged (s, [])
      (∀ x ∈ played.2.2, ∃ response, x.response = .ok response) →
      ∀ why, played.1 = .error (.encoding why) →
        (7 < payloads.length ∧ why = .tooManyRoots payloads.length) ∨
        (∃ x earlier hash chunk, played.2.2 = x :: earlier ∧
          x.Brings (.getChunk hash) ∧ Hash.ofChunk chunk = hash ∧
          254 < chunk.length ∧ (∃ y ∈ earlier, y.Brings (.putChunk chunk)) ∧
          why = .replyTooLong (chunk.length + 1)) ∨
        2 ^ 64 - 33 ≤ settings.chunkSize ∧ ∃ payload ∈ payloads, 222 < payload.length) ∧
    ∀ (wide : Settings) (fragmentSize : Nat) (app : Application)
      (readings : Nat → Nat),
      222 < wide.chunkSize → payloads.length ≤ 7 →
      Chain.Separable (Chain.ofPayloads wide.chunkSize payloads) →
      1 + (payloads.map fun payload => payload.length ⌈/⌉ wide.chunkSize).sum ≤
        wide.maxRounds →
      (∀ i, readings (i + 1) < readings 0 + wide.operationTimeout) →
      let peer := ({} : Peer).withFragmentSize fragmentSize
      let played := (blocks.send wide header payloads).run
        (Bench.channel readings) { device := { peer := peer, app := app } }
      (∃ why, played.1 = .error (.encoding why)) ↔
        ∃ payload ∈ payloads, 222 < payload.length := by
  obtain ⟨hsize, _, _, hframe⟩ := Settings.bounds_of_validate hvalid
  refine ⟨?_, ?_, ?_⟩
  · intro mode σ channel s x hx
    have hfits : x.request.Fits := (asks_send hframe mode payloads).logged channel
      (fun x hx => (by cases hx)) x hx
    exact ⟨hfits, _, if_neg (Nat.not_lt_of_le hfits)⟩
  · intro σ channel s played hanswered why hfailed
    rcases fits_or_long hvalid payloads with hfits | hlong
    · have ht := Transfer.ofPayloads_eq hsize header payloads settings.limits
      simp only [played, send_blocks ht] at hanswered hfailed ⊢
      rcases Transfer.encoding_cause hfits (Transfer.carries_of_ofPayloads hsize ht)
        channel s hanswered why hfailed with hmany | hpushed
      · exact Or.inl hmany
      · exact Or.inr (Or.inl hpushed)
    · exact Or.inr (Or.inr hlong)
  · intro wide fragmentSize app readings hwide hpayloads hchunks hrounds htime
    obtain ⟨t, ht, hiff⟩ := Transfer.encoding_iff_long_payload header wide.limits
      hwide hpayloads hchunks fragmentSize app hrounds htime
    rw [send_blocks ht]
    exact hiff

/-- Under the standard settings with slices of 223 bytes, a payload of 223 bytes is
too long. -/
theorem frame_bound_of_a_long_payload :
    let wide : Settings := { chunkSize := 223 }
    let payload : Bytes := List.replicate 223 7
    Settings.standard.validate = .ok () ∧
    ∃ why, ((blocks.send wide ⟨0, 3, 0, 0⟩ [payload]).run
      (Bench.channel fun _ => 0)
      { device := { peer := ({} : Peer).withFragmentSize 48,
                    app := PeerDevice.echo } }).1 = .error (.encoding why) := by
  -- stated before the names are introduced, so that the hash is computed once
  have hhash : Hash.ofChunk (Linked.bytes ⟨Hash.zero, List.replicate 223 7⟩) ≠ Hash.zero := by
    decide +kernel
  intro wide payload
  have hvalid : Settings.standard.validate = .ok () := rfl
  refine ⟨hvalid, ?_⟩
  have hlength : payload.length = 223 := List.length_replicate
  have hchunk : Chain.ofPayloads 223 [payload] = [⟨Hash.zero, payload⟩] := by
    rw [Chain.ofPayloads, List.flatMap_singleton]
    exact Chain.ofPayload_of_length_le (List.ne_nil_of_length_pos (by omega))
      (by omega)
  have hchunks : Chain.Separable (Chain.ofPayloads 223 [payload]) := by
    rw [hchunk]
    constructor
    · rintro c hc d hd _
      rw [List.mem_singleton.mp hc, List.mem_singleton.mp hd]
    · rintro c hc
      rw [List.mem_singleton.mp hc]
      exact hhash
  obtain ⟨_, _, htight⟩ := frame_bound hvalid ⟨0, 3, 0, 0⟩ [payload]
  exact (htight wide 48 PeerDevice.echo (fun _ => 0) (by decide) (by decide)
    hchunks (by decide +kernel) (fun _ => by decide)).mpr
    ⟨payload, by simp, by omega⟩

/-- A device that answers with requests for chunks has pushed nothing. -/
theorem no_push_of_tags {log : List Exchange}
    (h : ∀ response ∈ log.map (·.response), response.map (·.take 1) = .ok [2]) :
    ∀ x ∈ log, (∃ response, x.response = .ok response) ∧
      ∀ chunk, ¬ x.Brings (.putChunk chunk) := by
  intro x hx
  have htag := h _ (List.mem_map_of_mem hx)
  cases hresponse : x.response with
  | error e =>
      rw [hresponse] at htag
      cases htag
  | ok response =>
      rw [hresponse] at htag
      refine ⟨⟨response, rfl⟩, ?_⟩
      rintro chunk ⟨_, hbrought, hdecode⟩
      cases hresponse.symm.trans hbrought
      rw [← PeerMessage.encode_of_decode hdecode] at htag
      cases htag

/-- Validated settings with slices of 2 ^ 64 - 33 bytes: the one chunk of a payload of
223 bytes is too long, although the device pushes nothing. -/
theorem long_chunk_under_validated_settings :
    let settings : Settings := { chunkSize := 2 ^ 64 - 33 }
    let played := (blocks.send settings ⟨0, 3, 0, 0⟩ [List.replicate 223 7]).run
      (Bench.channel fun _ => 0).logged
      ({ device := { peer := {}, app := PeerDevice.echo } }, [])
    settings.validate = .ok () ∧ settings.chunkSize < 2 ^ 64 - 32 ∧
    played.1 = .error (.encoding (.replyTooLong 256)) ∧
    ∀ x ∈ played.2.2, (∃ response, x.response = .ok response) ∧
      ∀ chunk, ¬ x.Brings (.putChunk chunk) := by
  refine And.imp_right (And.imp_right (And.imp_right no_push_of_tags)) ?_
  decide +kernel

end SendMode
end Courier
