import Courier.Proofs.Device.Stall
import Courier.Proofs.Store.Walk

/-!
# The device on the walk of a store

A transfer may be built over any store, and the device then follows the links that
the store holds.  It checks more than the walk through the store does, so it may
stop earlier: at the first hash whose chunk is missing, too long for a reply, not
under its own hash, or too short.  The first of these that applies says how the run
fails; without any the run gives what the store gives.

* `Store.obstacle?`: the first obstacle at a hash.
* `Store.Halts`: how far the device comes in a store.
* `Store.Ends.exists_halts`: it comes to a halt wherever the walk does.
* `Session.at_obstacle`, `Stalls.at_oversize`: the end of a session at an obstacle.
* `Transfer.run_agrees_with_walk`: runs against walks, on any store.
-/

namespace Courier

/-- What keeps the device from passing a hash. -/
inductive Obstacle
  | absent
  | oversize
  | foreign
  | short
  deriving DecidableEq

/-- How a run fails at an obstacle. -/
def Obstacle.Explains : Obstacle → Hash → Except Failure Bytes → Prop
  | .absent, h, outcome =>
      outcome = .error (.chunkNotFound h.toHex Status.txParsingFail [])
  | .oversize, _, outcome => ∃ why, outcome = .error (.encoding why)
  | .foreign, _, outcome => outcome = .error (.peer Status.txHashFail [])
  | .short, _, outcome => outcome = .error (.peer Status.txParsingFail [])

theorem Obstacle.Explains.ne_ok {o : Obstacle} {h : Hash}
    {outcome : Except Failure Bytes} (he : o.Explains h outcome) (payload : Bytes) :
    outcome ≠ .ok payload := by
  cases o with
  | oversize =>
      obtain ⟨why, rfl⟩ := he
      exact nofun
  | _ =>
      rw [he]
      exact nofun

namespace Store

/-- The first obstacle at a hash: it has no chunk, or its chunk is too long for a
reply, has another hash, or holds no link. -/
def obstacle? (s : Store) (h : Hash) : Option Obstacle :=
  match s.get? h with
  | none => some .absent
  | some chunk =>
      if 254 < chunk.length then some .oversize
      else if Hash.ofChunk chunk ≠ h then some .foreign
      else if chunk.length < Hash.size then some .short
      else none

/-- The device passes these chunks from the root and halts behind them, at the
sentinel or at the first obstacle. -/
structure Halts (s : Store) (root : Hash) (chunks : List Linked) (stop : Hash) :
    Prop where
  passes : s.Passes root chunks stop
  clear : ∀ h ∈ Chain.cursors root chunks, s.obstacle? h = none
  halts : stop = Hash.zero ∨ s.obstacle? stop ≠ none

variable {s : Store} {root stop h : Hash} {chunks : List Linked}

/-- The four obstacles, each behind the ones that come before it. -/
inductive Blocks (s : Store) (h : Hash) : Obstacle → Prop
  | absent (habsent : s.get? h = none) : Blocks s h .absent
  | oversize {chunk : Bytes} (hstored : s.get? h = some chunk)
      (hlong : 254 < chunk.length) : Blocks s h .oversize
  | foreign {chunk : Bytes} (hstored : s.get? h = some chunk)
      (hfits : chunk.length ≤ 254) (hother : Hash.ofChunk chunk ≠ h) :
      Blocks s h .foreign
  | short {chunk : Bytes} (hstored : s.get? h = some chunk)
      (hfits : chunk.length ≤ 254) (hown : Hash.ofChunk chunk = h)
      (hshort : chunk.length < Hash.size) : Blocks s h .short

theorem blocks_of_obstacle? {o : Obstacle} (hobstacle : s.obstacle? h = some o) :
    s.Blocks h o := by
  unfold obstacle? at hobstacle
  cases hget : s.get? h with
  | none =>
      simp only [hget, Option.some.injEq] at hobstacle
      exact hobstacle ▸ .absent hget
  | some chunk =>
      simp only [hget] at hobstacle
      split_ifs at hobstacle with hlong hother hshort
      · cases hobstacle
        exact .oversize hget hlong
      · cases hobstacle
        exact .foreign hget (Nat.le_of_not_lt hlong) hother
      · cases hobstacle
        exact .short hget (Nat.le_of_not_lt hlong) (not_not.mp hother) hshort

/-- Without an obstacle there is a linked chunk under its own hash that fits a
reply. -/
theorem obstacle?_eq_none_iff :
    s.obstacle? h = none ↔
      ∃ c : Linked, c.hash = h ∧ s.get? h = some c.bytes ∧ c.bytes.length ≤ 254 := by
  constructor
  · intro hclear
    unfold obstacle? at hclear
    cases hget : s.get? h with
    | none => simp [hget] at hclear
    | some chunk =>
        simp only [hget] at hclear
        split_ifs at hclear with hlong hother hshort
        obtain ⟨c, rfl⟩ := Linked.exists_bytes_eq (Nat.le_of_not_lt hshort)
        exact ⟨c, not_not.mp hother, rfl, Nat.le_of_not_lt hlong⟩
  · rintro ⟨c, hown, hget, hfits⟩
    have hlink : ¬ c.bytes.length < Hash.size := by
      rw [c.length_bytes]
      omega
    have hhash : Hash.ofChunk c.bytes = h := hown
    simp only [obstacle?, hget, hhash]
    rw [if_neg (Nat.not_lt.mpr hfits), if_neg (not_not.mpr rfl), if_neg hlink]

/-- The chunks that the device passes are linked under their own hashes, and each
of them fits a reply. -/
theorem Passes.leads_of_clear (hpasses : s.Passes root chunks stop)
    (hclear : ∀ h ∈ Chain.cursors root chunks, s.obstacle? h = none) :
    Chain.Leads root chunks stop ∧ ∀ c ∈ chunks,
      s.get? c.hash = some c.bytes ∧ c.bytes.length ≤ 254 := by
  induction chunks generalizing root with
  | nil => exact ⟨hpasses, fun c hc => by cases hc⟩
  | cons c rest ih =>
      obtain ⟨hne, hget, hrest⟩ := hpasses
      obtain ⟨d, hhash, hd, hfits⟩ :=
        obstacle?_eq_none_iff.mp (hclear root List.mem_cons_self)
      rw [hget] at hd
      obtain rfl := Linked.bytes_injective (Option.some.inj hd)
      obtain ⟨hleads, hstored⟩ :=
        ih hrest fun h hh => hclear h (List.mem_cons_of_mem _ hh)
      subst hhash
      exact ⟨⟨hne, rfl, hleads⟩,
        List.forall_mem_cons.mpr ⟨⟨hget, hfits⟩, hstored⟩⟩

/-- Where the walk stops other than at the sentinel there is an obstacle. -/
theorem Stops.obstacle (hstops : s.Stops h) :
    h = Hash.zero ∨ s.obstacle? h ≠ none := by
  cases hstops with
  | sentinel => exact Or.inl rfl
  | missing habsent => exact Or.inr (by simp [obstacle?, habsent])
  | short hstored hshort =>
      refine Or.inr fun hclear => ?_
      obtain ⟨c, _, hget, _⟩ := obstacle?_eq_none_iff.mp hclear
      rw [hstored] at hget
      rw [Option.some.inj hget, c.length_bytes] at hshort
      omega

/-- The device comes to a halt wherever the walk comes to a stop. -/
theorem Ends.exists_halts (hends : s.Ends root) :
    ∃ chunks stop, s.Halts root chunks stop := by
  obtain ⟨chunks, stop, hpasses, hstops⟩ := hends
  induction chunks generalizing root with
  | nil =>
      have hstart : root = stop := hpasses
      subst hstart
      exact ⟨[], root, rfl, fun h hh => (by cases hh), hstops.obstacle⟩
  | cons c rest ih =>
      obtain ⟨hne, hget, hrest⟩ := hpasses
      by_cases hclear : s.obstacle? root = none
      · obtain ⟨chunks, stop, hhalts⟩ := ih hrest
        exact ⟨c :: chunks, stop, ⟨hne, hget, hhalts.passes⟩,
          List.forall_mem_cons.mpr ⟨hclear, hhalts.clear⟩, hhalts.halts⟩
      · exact ⟨[], root, rfl, fun h hh => (by cases hh), Or.inr hclear⟩

end Store

/-- A device that waits for a transfer of one root begins the walk there. -/
theorem Peer.handle_start_root {p : Peer} (app : Application) (hidle : p.phase = .idle)
    (root : Hash) :
    p.handle app (HostMessage.start [root]).encode =
      p.turnAt app [root] 0 [] [] root := by
  rw [p.handle_start app hidle, p.pullNext_of_drop app rfl]

/-- Behind the last chunk of one root a device that pushes nothing is done. -/
theorem Peer.turnAt_zero {p : Peer} (app : Application) (hpush : p.push = none)
    (root : Hash) (slices : List Bytes) :
    p.turnAt app [root] 0 slices [] Hash.zero = p.finish app [slices.flatten] := by
  have hrest : [root].drop (0 + 1) = [] := rfl
  rw [turnAt, if_pos rfl, pullNext, hrest, pullFrom, afterPull, hpush,
    List.nil_append]

section Ends

variable {t : Transfer} {h : Hash}

/-- At an obstacle that is no long chunk the device refuses in its next turn. -/
theorem Session.at_obstacle (p : Peer) (app : Application) (ht : t.Ready)
    {o : Obstacle} (hobstacle : t.store.obstacle? h = some o) (ho : o ≠ .oversize)
    (roots : List Hash) (index : Nat) (slices finished : List Bytes) :
    ∃ outcome, o.Explains h outcome ∧
      Session app t
        (p.say (.getChunk h) (.pulling roots index h slices finished))
        [none, none] outcome p.reset := by
  cases Store.blocks_of_obstacle? hobstacle with
  | absent habsent =>
      have hmiss : t.step (PeerMessage.getChunk h).encode =
          (.ok (.reply .chunkNotFound),
            { t with missing := t.missing ++ [h], unansweredMiss := some h }) := by
        rw [ht.step_encode]
        simp only [Transfer.dispatch, habsent]
      exact ⟨_, rfl, say hmiss (by decide) (.last rfl)⟩
  | oversize hstored hlong => exact absurd rfl ho
  | foreign hstored hfits hother =>
      refine ⟨_, rfl, say (ht.step_getChunk hstored) (Nat.succ_le_succ hfits) ?_⟩
      rw [Peer.dispatch, Peer.receive, if_neg hother]
      exact .last (ht.conclusion_refusal _)
  | short hstored hfits hown hshort =>
      refine ⟨_, rfl, say (ht.step_getChunk hstored) (Nat.succ_le_succ hfits) ?_⟩
      rw [Peer.dispatch, Peer.receive, if_pos hown, Linked.ofBytes_of_short hshort]
      exact .last (ht.conclusion_refusal _)

variable {p : Peer} {app : Application}

/-- At a long chunk the transfer stalls on its reply. -/
theorem Stalls.at_oversize (ht : t.Ready)
    (hobstacle : t.store.obstacle? h = some .oversize) (phase : Phase) :
    Stalls app t (p.say (.getChunk h) phase) 1 := by
  cases Store.blocks_of_obstacle? hobstacle with
  | oversize hstored hlong =>
      exact .here rfl (ht.step_getChunk hstored) (Nat.succ_lt_succ hlong)

end Ends

namespace Transfer

variable {store : Store} {root stop : Hash} {chunks : List Linked}
variable {header : Header} {limits : Limits} {readings : Nat → Nat}
variable {device : PeerDevice}

/-- What the device passes, a transfer over the store serves. -/
theorem serves_of_halts (hhalts : store.Halts root chunks stop) (header : Header)
    (limits : Limits) :
    Chain.Leads root chunks stop ∧
      ({ header, store, roots := [root], limits, stage := .awaitingPeer } :
        Transfer).Serves chunks := by
  obtain ⟨hleads, hstored⟩ := hhalts.passes.leads_of_clear hhalts.clear
  exact ⟨hleads, fun c hc => ⟨(hstored c hc).1, Nat.succ_le_succ (hstored c hc).2⟩⟩

/-- A session from the root of a transfer on, played within its budgets. -/
theorem run_of_turnAt (hidle : device.peer.phase = .idle)
    {given : List (Option (List Bytes))} {outcome : Except Failure Bytes} {peer : Peer}
    (hsession : Session device.app
      { header, store, roots := [root], limits, stage := .awaitingPeer }
      (device.peer.turnAt device.app [root] 0 [] [] root) given outcome peer)
    (hrounds : given.length ≤ limits.maxRounds)
    (htime : ∀ i, readings (i + 1) < readings 0 + limits.timeout) :
    (({ header, store, roots := [root], limits } : Transfer).run.run
      (Bench.channel readings) { device := device }).1 = outcome := by
  rw [← Peer.handle_start_root device.app hidle root] at hsession
  exact ((Session.run (t := { header, store, roots := [root], limits }) rfl rfl
    (by simp) hsession htime).2.1 hrounds).1

/-- A walk to the sentinel gives the payload to the application, which answers. -/
theorem run_of_halts_zero (hhalts : store.Halts root chunks Hash.zero)
    (hidle : device.peer.phase = .idle) (hpush : device.peer.push = none)
    (hfragment : 0 < device.peer.fragmentSize) {output : Bytes}
    (happ : device.app [Chain.payload chunks] = .ok output)
    (hrounds : chunks.length + max 1 (output.length ⌈/⌉ device.peer.fragmentSize) ≤
      limits.maxRounds)
    (htime : ∀ i, readings (i + 1) < readings 0 + limits.timeout) :
    (({ header, store, roots := [root], limits } : Transfer).run.run
      (Bench.channel readings) { device := device }).1 = .ok output := by
  obtain ⟨hleads, hserves⟩ := serves_of_halts hhalts header limits
  have hready : Ready
      { header, store, roots := [root], limits, stage := .awaitingPeer } := ⟨rfl, rfl⟩
  have hfinish := Session.finish_ok hready rfl hfragment happ
  have hturn : device.peer.turnAt device.app [root] 0 (chunks.map Linked.slice) []
      Hash.zero = device.peer.finish device.app [Chain.payload chunks] :=
    Peer.turnAt_zero device.app hpush root _
  rw [← hturn] at hfinish
  refine run_of_turnAt hidle (Session.chain hready hleads hserves hfinish) ?_ htime
  simp only [List.length_append, List.length_replicate, List.length_cons]
  omega

/-- A walk to an obstacle fails as the obstacle says. -/
theorem run_of_halts_obstacle (hhalts : store.Halts root chunks stop)
    (hne : stop ≠ Hash.zero) {o : Obstacle} (hobstacle : store.obstacle? stop = some o)
    (hidle : device.peer.phase = .idle)
    (hrounds : chunks.length + 2 ≤ limits.maxRounds)
    (htime : ∀ i, readings (i + 1) < readings 0 + limits.timeout) :
    o.Explains stop
      (({ header, store, roots := [root], limits } : Transfer).run.run
        (Bench.channel readings) { device := device }).1 := by
  obtain ⟨hleads, hserves⟩ := serves_of_halts hhalts header limits
  have hready : Ready
      { header, store, roots := [root], limits, stage := .awaitingPeer } := ⟨rfl, rfl⟩
  have hturn : device.peer.turnAt device.app [root] 0 (chunks.map Linked.slice) []
      stop = device.peer.say (.getChunk stop)
        (.pulling [root] 0 stop (chunks.map Linked.slice) []) := if_neg hne
  by_cases ho : o = .oversize
  · subst ho
    have hstalls : Stalls device.app _
        (device.peer.turnAt device.app [root] 0 [] [] root) (1 + chunks.length) :=
      Stalls.chain hready hleads hserves
        (hturn ▸ Stalls.at_oversize hready hobstacle _)
    rw [← Peer.handle_start_root device.app hidle root] at hstalls
    exact Stalls.run (t := { header, store, roots := [root], limits }) rfl rfl (by simp)
      ⟨_, Nat.le_refl _, hstalls⟩ (by dsimp only; omega) htime
  · obtain ⟨outcome, hexplains, hrefused⟩ := Session.at_obstacle device.peer device.app
      hready hobstacle ho [root] 0 (chunks.map Linked.slice) []
    rw [← hturn] at hrefused
    rw [run_of_turnAt hidle (Session.chain hready hleads hserves hrefused)
      (by simpa using hrounds) htime]
    exact hexplains

/-- **Runs agree with walks, on any store.**  Where the walk from a root comes to an
end, a device without a chunk of its own comes to a halt.  At the sentinel the run
gives the payload that the store gives; at an obstacle it fails as the first one
there says.  So a run gives nothing that the store does not, and the store fails to
give a payload only at a missing or a short chunk. -/
theorem run_agrees_with_walk {store : Store} {root : Hash}
    (hends : store.Ends root) (header : Header) (fragmentSize : Nat) :
    (∃ chunks stop, store.Halts root chunks stop) ∧
    (∀ chunks stop limits readings, store.Halts root chunks stop →
      let t : Transfer := { header, store, roots := [root], limits }
      let peer := ({} : Peer).withFragmentSize fragmentSize
      let outcome := (t.run.run (Bench.channel readings)
        { device := { peer := peer, app := PeerDevice.echo } }).1
      chunks.length +
          max 2 ((Chain.payload chunks).length ⌈/⌉ peer.fragmentSize) ≤
        limits.maxRounds →
      (∀ i, readings (i + 1) < readings 0 + limits.timeout) →
      (∀ o, stop ≠ Hash.zero → store.obstacle? stop = some o →
        o.Explains stop outcome) ∧
      (stop = Hash.zero → outcome = .ok (Chain.payload chunks) ∧
        store.reassemble root = .ok (Chain.payload chunks)) ∧
      ∀ payload, outcome = .ok payload → store.reassemble root = .ok payload) ∧
    ((∃ e, store.reassemble root = .error e) ↔
      ∃ chunks stop, store.Passes root chunks stop ∧ stop ≠ Hash.zero ∧
        (store.get? stop = none ∨
          ∃ chunk, store.get? stop = some chunk ∧ chunk.length < Hash.size)) ∧
    ∀ e, store.reassemble root = .error e → ∃ why, e = .protocol why := by
  refine ⟨hends.exists_halts, ?_, Store.exists_error_reassemble_iff hends,
    fun e => Store.protocol_of_reassemble_error⟩
  intro chunks stop limits readings hhalts t peer outcome hrounds htime
  have hobstacle : ∀ o, stop ≠ Hash.zero → store.obstacle? stop = some o →
      o.Explains stop outcome := fun o hne ho =>
    run_of_halts_obstacle hhalts hne ho rfl (by omega) htime
  have hsentinel : stop = Hash.zero → outcome = .ok (Chain.payload chunks) ∧
      store.reassemble root = .ok (Chain.payload chunks) := by
    rintro rfl
    have hecho : PeerDevice.echo [Chain.payload chunks] = .ok (Chain.payload chunks) := by
      rw [PeerDevice.echo, List.flatten_singleton]
    have henough : chunks.length +
        max 1 ((Chain.payload chunks).length ⌈/⌉ peer.fragmentSize) ≤
          limits.maxRounds := by
      omega
    exact ⟨run_of_halts_zero hhalts rfl rfl (Nat.le_max_right _ _) hecho henough htime,
      Store.reassemble_of_passes hhalts.passes⟩
  refine ⟨hobstacle, hsentinel, fun payload hgiven => ?_⟩
  by_cases hzero : stop = Hash.zero
  · obtain ⟨houtcome, hstore⟩ := hsentinel hzero
    rw [hstore, ← houtcome, hgiven]
  · obtain ⟨o, ho⟩ := Option.ne_none_iff_exists'.mp
      (hhalts.halts.resolve_left hzero)
    exact absurd hgiven ((hobstacle o hzero ho).ne_ok payload)

/-- A chunk linked to one that is short and under a hash that is not its own. -/
theorem run_agrees_with_walk_to_a_foreign_chunk :
    let stop := Hash.ofChunk [5]
    let c : Linked := ⟨stop, [1]⟩
    let store := (Store.empty.put c.bytes).insert stop [6]
    store.Ends c.hash ∧ store.Halts c.hash [c] stop ∧
    (({ header := ⟨0, 3, 0, 0⟩, store, roots := [c.hash], limits := ⟨3, 1⟩ } :
      Transfer).run.run (Bench.channel fun _ => 0)
        { device := { peer := ({} : Peer).withFragmentSize 48
                      app := PeerDevice.echo } }).1 =
      .error (.peer Status.txHashFail []) ∧
    ∃ e, store.reassemble c.hash = .error e := by
  intro stop c store
  have hhashes : c.hash ≠ Hash.zero ∧ stop ≠ Hash.zero ∧ stop ≠ c.hash ∧
      Hash.ofChunk [6] ≠ stop := by
    decide +kernel
  obtain ⟨hroot, hne, hother, hsix⟩ := hhashes
  have hshort : store.get? stop = some [6] := Store.get?_insert_self _ stop [6]
  have hstored : store.get? c.hash = some c.bytes := by
    rw [Store.get?_insert, if_neg hother]
    exact Store.get?_put_self _ c.bytes
  have hpasses : store.Passes c.hash [c] stop := ⟨hroot, hstored, rfl⟩
  have hends : store.Ends c.hash :=
    ⟨[c], stop, hpasses, .short hshort (by decide)⟩
  have hforeign : store.obstacle? stop = some .foreign := by
    simp only [Store.obstacle?, hshort]
    rw [if_neg (by decide), if_pos hsix]
  have hclear : store.obstacle? c.hash = none :=
    Store.obstacle?_eq_none_iff.mpr ⟨c, rfl, hstored, by decide⟩
  have hhalts : store.Halts c.hash [c] stop :=
    ⟨hpasses, List.forall_mem_singleton.mpr hclear,
      Or.inr (by rw [hforeign]; exact nofun)⟩
  obtain ⟨_, hruns, hcut, _⟩ := run_agrees_with_walk hends ⟨0, 3, 0, 0⟩ 48
  have hrounds : [c].length + max 2 ((Chain.payload [c]).length ⌈/⌉
      (({} : Peer).withFragmentSize 48).fragmentSize) ≤ 3 := by
    rw [Nat.ceilDiv_eq_add_pred_div]
    decide
  obtain ⟨hfails, _⟩ := hruns [c] stop ⟨3, 1⟩ (fun _ => 0) hhalts hrounds
    (fun _ => by decide)
  exact ⟨hends, hhalts, hfails .foreign hne hforeign,
    hcut.mpr ⟨[c], stop, hpasses, hne, Or.inr ⟨[6], hshort, by decide⟩⟩⟩

end Transfer
end Courier
