import Courier.Proofs.Device.Moves
import Courier.Proofs.Device.Session
import Courier.Proofs.Transfer.Loop
import Courier.Proofs.Transfer.Provenance

/-!
# Chunks that pass the check of the device

The device checks every chunk against a hash, and it has asked for that hash in
its message right before.  A transfer of payloads answers with a chunk that has the
hash, so the check never fails in a run of the two: a failure of the hash can only
be the answer of the application.

* `Turn.Fair`: a turn that asks for what it will check, and whose failures of the
  hash come from the application.
* `Peer.Moves.fair`, `Peer.fair_handle`: every turn on a chunk that fits is fair.
* `Transfer.Matched`: the transfer and the device, between two turns.
* `Transfer.serves_named_chunks`: what a transfer of payloads stores, serves and
  misses, and what that means for the device.
-/

namespace Courier

/-- The turn asks for the hash that it will check, and it fails with the status for
a wrong hash only if the application did. -/
structure Turn.Fair (turn : Turn) (app : Application) : Prop where
  asks : ∀ h, turn.peer.phase.expects? = some h →
    turn.response = .ok (PeerMessage.getChunk h).encode
  refuses : ∀ data, turn.response = .error (.peer Status.txHashFail data) →
    ∃ payloads, turn.delivered = some payloads ∧
      app payloads = .error Status.txHashFail

namespace Peer

variable {p : Peer} {app : Application} {body : Bytes} {phase : Phase} {turn : Turn}

/-- A turn that sends a part of an answer. -/
theorem fair_emit (output : Bytes) (offset : Nat) (delivered : Option (List Bytes)) :
    Turn.Fair { p.emit output offset with delivered := delivered } app := by
  rcases p.emit_cases output offset with ⟨_, hemit⟩ | hemit
  · rw [hemit]
    exact ⟨nofun, nofun⟩
  · rw [hemit]
    exact ⟨nofun, nofun⟩

/-- Every turn is fair but the refusal of a wrong chunk. -/
theorem Moves.fair (h : p.Moves app body phase turn) (hfits : ¬ Mismatches body phase) :
    turn.Fair app := by
  cases h with
  | refuses hstatus =>
      refine ⟨nofun, fun data hresponse => ?_⟩
      have hfailed := (Failure.peer.inj (Except.error.inj hresponse)).1
      exact absurd (hstatus hfailed) hfits
  | asks hgathers hm hlater hasks =>
      refine ⟨fun hash hexpects => ?_, nofun⟩
      rw [← hasks hash hexpects]
      rfl
  | @answers _ payloads output hgathers happ => exact fair_emit output 0 (some payloads)
  | @denies _ payloads status hgathers happ =>
      refine ⟨nofun, fun data hresponse => ⟨payloads, rfl, ?_⟩⟩
      rw [happ, (Failure.peer.inj (Except.error.inj hresponse)).1]
  | continues output offset => exact fair_emit output offset _

theorem fair_handle {m : HostMessage}
    (hfits : ∀ chunk hash, m = .chunkFound chunk →
      p.phase.expects? = some hash → Hash.ofChunk chunk = hash) :
    (p.handle app m.encode).Fair app := by
  refine (p.moves_handle app m.encode).fair ?_
  rintro ⟨chunk, hash, hdecode, hexpects, hhash⟩
  rw [HostMessage.decode_encode] at hdecode
  exact hhash (hfits chunk hash (Except.ok.inj hdecode) hexpects)

end Peer

namespace Transfer

open PeerMessage (continues heard)

/-- Between two turns: the store is made of chunks under their own hashes, and the
body on its way brings no chunk but one that the device expects. -/
structure Matched (app : Application) (t : Transfer) (body : Bytes)
    (b : Bench × List Exchange) : Prop where
  app : b.1.device.app = app
  store : ∃ chunks, t.store.MadeOf chunks
  fits : ∃ m : HostMessage, body = m.encode ∧
    ∀ chunk hash, m = .chunkFound chunk →
      b.1.device.peer.phase.expects? = some hash → Hash.ofChunk chunk = hash
  answered : ∀ x ∈ b.2, ∃ response, x.response = .ok response

theorem Matched.fair {app : Application} {t : Transfer} {body : Bytes}
    {b : Bench × List Exchange} (h : Matched app t body b) :
    (b.1.device.peer.handle b.1.device.app body).Fair app := by
  obtain ⟨m, rfl, hfits⟩ := h.fits
  rw [h.app]
  exact Peer.fair_handle hfits

theorem Matched.ne_error {app : Application} {t : Transfer} {body : Bytes}
    {b : Bench × List Exchange} (h : Matched app t body b) {x : Exchange}
    (hx : x ∈ b.2) {e : Failure} : x.response ≠ .error e := by
  obtain ⟨response, hresponse⟩ := h.answered x hx
  rw [hresponse]
  exact nofun

theorem matched_invariant (app : Application) (readings : Nat → Nat) :
    Invariant (Bench.channel readings).logged (Matched app) :=
  { clock := fun h => ⟨h.app, h.store, h.fits, h.answered⟩
    reply := by
      intro t t' body response b m reply h _ hanswer hdecode hanswers
      obtain ⟨chunks, hstore⟩ := h.store
      refine ⟨h.app, ⟨_, hanswers.madeOf hstore⟩, ⟨reply, rfl, ?_⟩, ?_⟩
      · intro chunk hash hreply hexpects
        -- the device has asked for the hash that it expects
        have hasked : Except.ok response =
            Except.ok (PeerMessage.getChunk hash).encode :=
          hanswer.symm.trans (h.fair.asks hash hexpects)
        obtain rfl := Except.ok.inj hasked
        rw [PeerMessage.decode_encode] at hdecode
        obtain rfl := Except.ok.inj hdecode
        subst hreply
        cases hanswers with
        | served hstored => exact (hstore.ofChunk_of_get? hstored).1
      · exact List.forall_mem_cons.mpr ⟨⟨response, hanswer⟩, h.answered⟩ }

/-- A failure of the hash on record is the answer of the application in the last
exchange. -/
theorem Carries.txHashFail_of_app {t : Transfer} {size : Nat}
    {payloads : List Bytes} (ht : t.Carries size payloads) (device : PeerDevice)
    (readings : Nat → Nat) :
    let played := t.run.run (Bench.channel readings).logged ({ device := device }, [])
    ∀ x ∈ played.2.2, ∀ data, x.response = .error (.peer Status.txHashFail data) →
      ∃ given, played.2.1.device.delivered = some given ∧
        device.app given = .error Status.txHashFail := by
  intro played x hx data hfailed
  by_cases hroots : t.roots.length ≤ 7
  · have hopening : Matched device.app { t with stage := .awaitingPeer }
        (HostMessage.start t.roots).encode
        ((Bench.channel readings).logged.time ({ device := device }, [])).2 :=
      ⟨rfl, ⟨_, ht.store⟩, ⟨_, rfl, fun chunk hash h => (by cases h)⟩,
        fun x hx => (by cases hx)⟩
    obtain ⟨t', body, b, hmatched, _, hending⟩ :=
      (matched_invariant device.app readings).run ht.stage hroots hopening
    rcases hending.cases with ⟨_, _, _, _, hplayed⟩ | ⟨_, _, hlast⟩
    · have hrecord : played.2.2 = b.2 := congrArg (·.2.2) hplayed
      rw [hrecord] at hx
      exact absurd hfailed (hmatched.ne_error hx)
    · have hafter : played.2 = _ := hlast
      rw [hafter] at hx ⊢
      rcases List.mem_cons.mp hx with rfl | hx
      · -- the last exchange is a turn on a body that fits
        obtain ⟨given, hdelivered, happ⟩ := hmatched.fair.refuses data hfailed
        refine ⟨given, ?_, happ⟩
        show Option.or (b.1.device.peer.handle b.1.device.app body).delivered
          b.1.device.delivered = some given
        rw [hdelivered]
        rfl
      · exact absurd hfailed (hmatched.ne_error hx)
  · have hplayed : played = _ :=
      run_of_tooMany (Bench.channel readings).logged ({ device := device }, [])
        ht.stage hroots
    rw [hplayed] at hx
    cases hx

/-- **Only named chunks are served, each under its own hash.**  After any bodies
whatever the store of a transfer of payloads holds chunks under their own hashes,
and each of them is a linked chunk or was pushed.  So a chunk that is served has the
hash that was asked for, and a chunk is missed exactly when nothing with its hash has
been named.  A device never finds a wrong chunk in a run: a failure of the hash
can only be what its application answered. -/
theorem serves_named_chunks {header : Header} {payloads : List Bytes} {size : Nat}
    {limits : Limits} {t : Transfer} (hsize : 1 ≤ size)
    (ht : ofPayloads header payloads size limits = .ok t) :
    (∀ bodies,
      let now := t.start.2.after bodies
      let named := fun chunk =>
        (∃ c ∈ Chain.ofPayloads size payloads, c.bytes = chunk) ∨
          PeerMessage.putChunk chunk ∈ heard (bodies.takeWhile continues)
      (∀ key chunk, now.store.table[key]? = some chunk →
        key = (Hash.ofChunk chunk).toHex ∧ named chunk) ∧
      (∀ body chunk, (now.step body).1 = .ok (.reply (.chunkFound chunk)) →
        ∃ h, PeerMessage.decode body = .ok (.getChunk h) ∧
          Hash.ofChunk chunk = h) ∧
      ∀ body, (now.step body).1 = .ok (.reply .chunkNotFound) ↔
        now.stage = .awaitingPeer ∧
        ∃ h, PeerMessage.decode body = .ok (.getChunk h) ∧
          ∀ chunk, named chunk → Hash.ofChunk chunk ≠ h) ∧
    ∀ (app : Application) (peer : Peer) (readings : Nat → Nat),
      let played := t.run.run (Bench.channel readings).logged
        ({ device := { peer := peer, app := app } }, [])
      ∀ x ∈ played.2.2, ∀ data,
        x.response = .error (.peer Status.txHashFail data) →
        ∃ given, played.2.1.device.delivered = some given ∧
          app given = .error Status.txHashFail := by
  have hcarries := carries_of_ofPayloads hsize ht
  refine ⟨?_, fun app peer readings => hcarries.txHashFail_of_app _ readings⟩
  intro bodies now named
  obtain ⟨chunks, hnamed, hmade, hall⟩ := hcarries.madeOf_after bodies
  refine ⟨fun key chunk hentry => ?_, fun body chunk hreply => ?_, fun body => ?_⟩
  · obtain ⟨hkey, hmem⟩ := hmade.own key chunk hentry
    exact ⟨hkey, hnamed hmem⟩
  · obtain ⟨_, m, hdecode, hanswers⟩ := answers_of_step hreply
    generalize (now.step body).2 = next at hanswers
    cases hanswers with
    | served hstored =>
        exact ⟨_, hdecode, (hmade.ofChunk_of_get? hstored).1⟩
  · constructor
    · intro hreply
      obtain ⟨hstage, m, hdecode, hanswers⟩ := answers_of_step hreply
      generalize (now.step body).2 = next at hanswers
      cases hanswers with
      | missed habsent =>
          refine ⟨hstage, _, hdecode, fun chunk hchunk => ?_⟩
          have hmem : chunk ∈ chunks := by
            rw [hall hstage]
            exact hchunk
          exact (hmade.get?_eq_none_iff _).mp habsent chunk hmem
    · rintro ⟨hstage, h, hdecode, hother⟩
      have habsent : now.store.get? h = none :=
        (hmade.get?_eq_none_iff h).mpr fun chunk hmem => hother chunk (hnamed hmem)
      rw [step_of_message hstage hdecode]
      simp only [dispatch, habsent]

/-- A payload of three bytes, a pushed chunk, and a hash that is neither's. -/
theorem serves_three_bytes_and_a_push :
    ∃ t, 1 ≤ 2 ∧ ofPayloads ⟨0, 3, 0, 0⟩ [[1, 2, 3]] 2 .standard = .ok t ∧
      ((t.start.2.after [[3, 9]]).step (PeerMessage.getChunk Hash.zero).encode).1 =
        .ok (.reply .chunkNotFound) := by
  refine ⟨_, by decide, rfl, ?_⟩
  obtain ⟨hserves, _⟩ := serves_named_chunks (t := _) (by decide : 1 ≤ 2)
    (rfl : ofPayloads ⟨0, 3, 0, 0⟩ [[1, 2, 3]] 2 .standard = .ok _)
  obtain ⟨_, _, hmissed⟩ := hserves [[3, 9]]
  refine (hmissed _).mpr ⟨by decide +kernel, Hash.zero, PeerMessage.decode_encode _, ?_⟩
  rintro chunk (⟨c, hc, rfl⟩ | hpushed)
  · have hnonzero : ∀ c ∈ Chain.ofPayloads 2 [[1, 2, 3]], c.hash ≠ Hash.zero := by
      decide +kernel
    exact hnonzero c hc
  · have hheard : heard ([[3, 9]].takeWhile continues) = [.putChunk [9]] := by
      decide
    rw [hheard, List.mem_singleton] at hpushed
    obtain rfl := PeerMessage.putChunk.inj hpushed
    decide +kernel

end Transfer
end Courier
