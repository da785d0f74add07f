import Courier.Proofs.Device.StoreWalk
import Courier.Proofs.Manifest.Layout
import Courier.Proofs.Transfer.Loop

/-!
# The manifest is the plan of the device

The manifest of a payload is read off the store of the host.  The device knows no
store: it reads each link off the chunk that it was served, and by the record of the
exchanges that is all one can say of its way.  Both follow the same chain, so what
the device has asked for when a run succeeds is what the manifest lists.

* `requestedIn`: the hashes that the device asked for, by the record.
* `Peer.Pulls`: how far the device is on a chain, and what it has asked for.
* `Peer.Pulls.next`: it goes on along the chain with every reply.
* `Transfer.requestedIn_of_run`: after a run it has been along the whole chain.
* `Manifest.lists_requests`: the manifest of a payload and the device's requests.
-/

namespace Courier

/-- The hash that a message asks for. -/
def PeerMessage.requested? : PeerMessage → Option Hash
  | .getChunk hash => some hash
  | _ => none

/-- The hash that the peer asks for in an exchange. -/
def Exchange.requested? (x : Exchange) : Option Hash :=
  (x.response.bind PeerMessage.decode).toOption.bind PeerMessage.requested?

/-- The hashes that the peer asked for on a record, in the order in which it did. -/
def requestedIn (log : List Exchange) : List Hash :=
  log.reverse.filterMap Exchange.requested?

theorem requestedIn_cons (request : Request) {response : Bytes} {m : PeerMessage}
    (hdecode : PeerMessage.decode response = .ok m) (log : List Exchange) :
    requestedIn (⟨request, .ok response⟩ :: log) =
      requestedIn log ++ m.requested?.toList := by
  have hrequested : Exchange.requested? ⟨request, .ok response⟩ = m.requested? := by
    simp only [Exchange.requested?, Except.bind, hdecode, Except.toOption,
      Option.bind_some]
  rw [requestedIn, List.reverse_cons, List.filterMap_append, ← requestedIn]
  cases hm : m.requested? <;> simp [hrequested, hm]

namespace Peer

variable {p : Peer} {app : Application} {root : Hash} {chunks : List Linked}

/-- A turn of the device on its way along the chunks of one root, and what it has
asked for before that turn: it asks for one of the chunks, or it has asked for all
of them and sends its output or refuses. -/
inductive Pulls (p : Peer) (root : Hash) (chunks : List Linked) :
    Turn → List Hash → Prop
  | asking {done rest : List Linked} {c : Linked} {slices : List Bytes}
      (hchunks : chunks = done ++ c :: rest)
      (hleads : Chain.Leads c.next rest Hash.zero) :
      Pulls p root chunks
        (p.say (.getChunk c.hash) (.pulling [root] 0 c.hash slices []))
        (done.map Linked.hash)
  | sending {turn : Turn} {output : Bytes} {offset : Nat}
      (hresponse : turn.response = (p.emit output offset).response)
      (hpeer : turn.peer = (p.emit output offset).peer) :
      Pulls p root chunks turn (chunks.map Linked.hash)
  | refusing {turn : Turn} {e : Failure} (hresponse : turn.response = .error e) :
      Pulls p root chunks turn (chunks.map Linked.hash)

/-- The device at a hash of the chain, with the chunks before it asked for. -/
theorem pulls_turnAt (app : Application) (hpush : p.push = none)
    {done rest : List Linked} {cursor : Hash} (hchunks : chunks = done ++ rest)
    (hleads : Chain.Leads cursor rest Hash.zero) (slices : List Bytes) :
    p.Pulls root chunks (p.turnAt app [root] 0 slices [] cursor)
      (done.map Linked.hash) := by
  cases rest with
  | nil =>
      have hcursor : cursor = Hash.zero := hleads
      rw [List.append_nil] at hchunks
      rw [hcursor, turnAt_zero app hpush, ← hchunks, finish]
      cases app [slices.flatten] with
      | ok output => exact .sending rfl rfl
      | error status => exact .refusing rfl
  | cons c rest =>
      obtain ⟨hne, rfl, hrest⟩ := hleads
      rw [turnAt, if_neg hne]
      exact .asking hchunks hrest

/-- With every reply the device goes on along the chain, or with its output. -/
theorem Pulls.next {turn : Turn} {asked : List Hash}
    (h : p.Pulls root chunks turn asked) (app : Application)
    (hpush : p.push = none) {t t' : Transfer} {response : Bytes} {m : PeerMessage}
    {reply : HostMessage}
    (hstored : ∀ c ∈ chunks, t.store.get? c.hash = some c.bytes)
    (hresponse : turn.response = .ok response)
    (hdecode : PeerMessage.decode response = .ok m) (hanswers : t.Answers m reply t') :
    t'.store = t.store ∧
      p.Pulls root chunks (turn.peer.handle app reply.encode)
        (asked ++ m.requested?.toList) := by
  cases h with
  | @asking done rest c slices hchunks hleads =>
      have hc : t.store.get? c.hash = some c.bytes :=
        hstored c (by rw [hchunks]; exact List.mem_append_right _ List.mem_cons_self)
      obtain rfl := Except.ok.inj hresponse
      rw [PeerMessage.decode_encode] at hdecode
      obtain rfl := Except.ok.inj hdecode
      cases hanswers with
      | missed habsent =>
          rw [hc] at habsent
          cases habsent
      | served hserved =>
          rw [hc] at hserved
          obtain rfl := Option.some.inj hserved
          have hnext : p.Pulls root chunks
              (p.turnAt app [root] 0 (slices ++ [c.slice]) [] c.next)
              ((done ++ [c]).map Linked.hash) :=
            pulls_turnAt app hpush
              (by rw [hchunks, List.append_assoc, List.singleton_append]) hleads _
          rw [List.map_append, List.map_singleton, ← p.receive_linked] at hnext
          refine ⟨rfl, ?_⟩
          rw [say, p.handle_encode]
          exact hnext
  | sending hemit hpeer =>
      rw [hemit] at hresponse
      rw [hpeer]
      unfold emit at hresponse ⊢
      dsimp only at hresponse ⊢
      split_ifs at hresponse ⊢
      all_goals
        obtain rfl := Except.ok.inj hresponse
        rw [PeerMessage.decode_encode] at hdecode
        obtain rfl := Except.ok.inj hdecode
        cases hanswers
      -- only a fragment that is not the last has a reply
      rw [say, p.handle_encode]
      exact ⟨rfl, by simpa [PeerMessage.requested?] using .sending rfl rfl⟩
  | refusing hrefused =>
      rw [hrefused] at hresponse
      cases hresponse

/-- With its last fragment the device has asked for every chunk. -/
theorem Pulls.asked_eq {turn : Turn} {asked : List Hash}
    (h : p.Pulls root chunks turn asked) {response fragment : Bytes}
    (hresponse : turn.response = .ok response)
    (hdecode : PeerMessage.decode response = .ok (.final fragment)) :
    asked = chunks.map Linked.hash := by
  cases h with
  | asking =>
      obtain rfl := Except.ok.inj hresponse
      rw [PeerMessage.decode_encode] at hdecode
      cases hdecode
  | sending => rfl
  | refusing => rfl

end Peer

namespace Transfer

/-- Between two turns: the transfer has the chunks, and the device is on its way
along them. -/
structure Pulled (p : Peer) (root : Hash) (chunks : List Linked) (t : Transfer)
    (body : Bytes) (b : Bench × List Exchange) : Prop where
  stored : ∀ c ∈ chunks, t.store.get? c.hash = some c.bytes
  pulls : p.Pulls root chunks (b.1.device.peer.handle b.1.device.app body)
    (requestedIn b.2)

theorem pulled_invariant {p : Peer} (root : Hash) (chunks : List Linked)
    (hpush : p.push = none) (readings : Nat → Nat) :
    Invariant (Bench.channel readings).logged (Pulled p root chunks) :=
  { clock := fun h => ⟨h.stored, h.pulls⟩
    reply := by
      intro t t' body response b m reply h _ hanswer hdecode hanswers
      obtain ⟨hstore, hpulls⟩ :=
        h.pulls.next b.1.device.app hpush h.stored hanswer hdecode hanswers
      refine ⟨fun c hc => ?_, ?_⟩
      · rw [hstore]
        exact h.stored c hc
      · rw [← requestedIn_cons ⟨t.header, body⟩ hdecode, ← hanswer] at hpulls
        exact hpulls }

/-- A transfer of one root with the chunks of its chain, on a device that pushes
nothing: when the run succeeds, the device has asked for each chunk of the chain, in
order and once. -/
theorem requestedIn_of_run {t : Transfer} {root : Hash} {chunks : List Linked}
    (hstage : t.stage = .sending) (hroots : t.roots = [root])
    (hstored : ∀ c ∈ chunks, t.store.get? c.hash = some c.bytes)
    (hleads : Chain.Leads root chunks Hash.zero) (device : PeerDevice)
    (hidle : device.peer.phase = .idle) (hpush : device.peer.push = none)
    (readings : Nat → Nat) :
    let played := t.run.run (Bench.channel readings).logged ({ device := device }, [])
    ∀ output, played.1 = .ok output →
      requestedIn played.2.2 = chunks.map Linked.hash := by
  intro played output houtput
  have hopening : Pulled device.peer root chunks { t with stage := .awaitingPeer }
      (HostMessage.start t.roots).encode
      ((Bench.channel readings).logged.time ({ device := device }, [])).2 := by
    refine ⟨hstored, ?_⟩
    have hbegins : device.peer.Pulls root chunks
        (device.peer.turnAt device.app [root] 0 [] [] root)
        (List.map Linked.hash []) :=
      Peer.pulls_turnAt device.app hpush (List.nil_append chunks).symm hleads []
    rw [← Peer.handle_start_root device.app hidle, ← hroots] at hbegins
    exact hbegins
  obtain ⟨t', body, b, hpulled, _, hending⟩ :=
    (pulled_invariant root chunks hpush readings).run hstage
      (by rw [hroots]; exact Nat.le_add_left _ _) hopening
  rcases hending.cases with ⟨_, _, e, _, hrefused⟩ | ⟨_, hend, hlast⟩
  · have hfailed : played.1 = .error e := congrArg Prod.fst hrefused
    rw [hfailed] at houtput
    cases houtput
  · have hended := hend.trans (congrArg some houtput)
    obtain ⟨response, fragment, hresponse, hdecode, _⟩ :=
      final_of_conclusion_eq_ok hended
    have hlog := requestedIn_cons ⟨t'.header, body⟩ hdecode b.2
    rw [hpulled.pulls.asked_eq hresponse hdecode, ← hresponse] at hlog
    have hrecord : played.2.2 = _ := congrArg Prod.snd hlast
    rw [hrecord]
    exact hlog.trans (List.append_nil _)

end Transfer

/-- **A manifest lists what a device will ask for.**  Building it comes to its end,
and it lays the payload out slice by slice.  Whatever the application answers, and
however the clock goes, a device that pushes nothing has asked for exactly the
listed hashes, in their order, when a run of the payload succeeds. -/
theorem Manifest.lists_requests {payload : Bytes} {size : Nat} (hsize : 1 ≤ size)
    (hchunks : Chain.Separable (Chain.ofPayload size payload)) :
    ∃ m, Manifest.build payload size = .ok m ∧ m.Layout payload size ∧
      ∀ header limits,
        ∃ t, Transfer.ofPayloads header [payload] size limits = .ok t ∧
          ∀ app fragmentSize readings output,
            let peer := ({} : Peer).withFragmentSize fragmentSize
            let played := t.run.run (Bench.channel readings).logged
              ({ device := { peer := peer, app := app } }, [])
            played.1 = .ok output →
              requestedIn played.2.2 = m.chunks.map ManifestEntry.hash := by
  refine ⟨_, build_eq hsize hchunks, layout_build hsize hchunks, ?_⟩
  intro header limits
  refine ⟨_, Transfer.ofPayloads_eq hsize header [payload] limits, ?_⟩
  intro app fragmentSize readings output peer played houtput
  have hone : [payload].reverse.flatMap (Chain.ofPayload size) =
      Chain.ofPayload size payload := List.flatMap_singleton ..
  have hrequested := Transfer.requestedIn_of_run rfl rfl
    (by rw [hone]; exact stored_linked hchunks)
    (Chain.leads_ofPayload hchunks.nonzero) ⟨peer, app, none⟩ rfl rfl readings output
    houtput
  rw [hrequested, List.map_map]
  rfl

/-- A payload of two chunks, in a run that has just enough rounds. -/
theorem Manifest.lists_requests_for_three_bytes :
    ∃ m t, Manifest.build [1, 2, 3] 2 = .ok m ∧ m.chunks.length = 2 ∧
      Transfer.ofPayloads ⟨0, 3, 0, 0⟩ [[1, 2, 3]] 2 ⟨3, 1⟩ = .ok t ∧
      let played := t.run.run (Bench.channel fun _ => 0).logged
        ({ device := { peer := ({} : Peer).withFragmentSize 48
                       app := PeerDevice.echo } }, [])
      played.1 = .ok [1, 2, 3] ∧
      requestedIn played.2.2 = m.chunks.map ManifestEntry.hash := by
  have hchunks : Chain.Separable (Chain.ofPayload 2 [1, 2, 3]) :=
    ⟨by decide +kernel, by decide +kernel⟩
  have hruns : (Transfer.ofPayloads ⟨0, 3, 0, 0⟩ [[1, 2, 3]] 2 ⟨3, 1⟩).map
      (fun t => (t.run.run (Bench.channel fun _ => 0).logged
        ({ device := { peer := ({} : Peer).withFragmentSize 48
                       app := PeerDevice.echo } }, [])).1) =
      .ok (.ok [1, 2, 3]) := by
    decide +kernel
  obtain ⟨m, hbuilt, hlayout, hplan⟩ := lists_requests (by decide : 1 ≤ 2) hchunks
  obtain ⟨t, ht, hrequests⟩ := hplan ⟨0, 3, 0, 0⟩ ⟨3, 1⟩
  rw [ht] at hruns
  have houtput := Except.ok.inj hruns
  refine ⟨m, t, hbuilt, ?_, ht, houtput,
    hrequests PeerDevice.echo 48 (fun _ => 0) [1, 2, 3] houtput⟩
  rw [hlayout.count, Nat.ceilDiv_eq_add_pred_div]
  rfl

end Courier
