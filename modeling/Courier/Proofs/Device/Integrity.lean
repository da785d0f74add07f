import Courier.Device.Peer
import Courier.Proofs.Chain.Walk

/-!
# What a device accepts from any host

The host may send any bodies in any order and reset the device at any time, and
the application may be another one for every message.  Beside the device a record
is kept of the operation under way: the roots that opened it, the chunks that the
host has delivered since, and the payload lists that the application has got.

* `Event` is a move of the host, and `Watch` a device with its record.
* `Authentic`: payloads that are spelled by chains from the roots, where the
  delivered chunks are exactly those of the chains, and then the pushed one.
* `Watch.Inv`: the invariant of the record; one move of the host keeps it
  (`inv_observe`), and so does every run (`inv_watch`).
* `collision_of_authentic`: two authentic payload lists under the same roots are
  equal, or two of the delivered chunks collide.
* `delivered_is_authentic`: what the application gets is authentic.
-/

namespace Courier

namespace HostMessage

/-- The roots of an opening. -/
def opens? : HostMessage → Option (List Hash)
  | .start roots => some roots
  | _ => none

/-- The chunk that a message delivers. -/
def chunk? : HostMessage → Option Bytes
  | .chunkFound chunk => some chunk
  | _ => none

end HostMessage

/-- What a host does to a device: it sends a body, which is answered with an
application at hand, or it drops the operation under way. -/
inductive Event
  | message (app : Application) (body : Bytes)
  | reset

namespace Event

/-- The message of the host that the device can read in a move. -/
def read? : Event → Option HostMessage
  | .message _ body => (HostMessage.decode body).toOption
  | .reset => none

/-- The roots with which a move opens an operation, if the device is idle. -/
def opens? (e : Event) : Option (List Hash) :=
  e.read?.bind HostMessage.opens?

/-- The chunk that a move delivers. -/
def chunk? (e : Event) : Option Bytes :=
  e.read?.bind HostMessage.chunk?

variable {app : Application} {body : Bytes} {m : HostMessage}

theorem opens?_message (hdecode : HostMessage.decode body = .ok m) :
    (message app body).opens? = m.opens? := by
  simp only [opens?, read?, hdecode, Except.toOption, Option.bind_some]

theorem chunk?_message (hdecode : HostMessage.decode body = .ok m) :
    (message app body).chunk? = m.chunk? := by
  simp only [chunk?, read?, hdecode, Except.toOption, Option.bind_some]

end Event

namespace Peer

/-- The device after a move of the host. -/
def next (p : Peer) : Event → Peer
  | .message app body => (p.handle app body).peer
  | .reset => p.reset

/-- The payloads that the application gets at a move of the host. -/
def delivers (p : Peer) : Event → Option (List Bytes)
  | .message app body => (p.handle app body).delivered
  | .reset => none

end Peer

/-- A device with the record of its operation: the roots of the opening if there
has been one, and since then the chunks delivered by the host and the payload lists
that the application got. -/
structure Watch where
  peer : Peer
  roots : Option (List Hash) := none
  found : List Bytes := []
  calls : List (List Bytes) := []

namespace Watch

/-- The record after a move of the host.  An opening that finds the device idle
starts it anew. -/
def observe (w : Watch) (e : Event) : Watch :=
  match w.peer.phase, e.opens? with
  | .idle, some roots =>
      { peer := w.peer.next e
        roots := some roots
        found := []
        calls := (w.peer.delivers e).toList }
  | _, _ =>
      { peer := w.peer.next e
        roots := w.roots
        found := w.found ++ e.chunk?.toList
        calls := w.calls ++ (w.peer.delivers e).toList }

/-- The record after several moves. -/
def watch (w : Watch) (events : List Event) : Watch :=
  events.foldl observe w

theorem watch_snoc (w : Watch) (events : List Event) (e : Event) :
    w.watch (events ++ [e]) = (w.watch events).observe e := by
  simp [watch, List.foldl_append]

end Watch

/-- There is a chain from every root to the sentinel, the payloads are what the
chains spell, and the chunks found are those of the chains, in order, and then the
pushed one if there is one to push. -/
def Authentic (push : Option Bytes) (roots : List Hash)
    (found payloads : List Bytes) : Prop :=
  ∃ chains : List (List Linked),
    List.Forall₂ (fun root chain => Chain.Leads root chain Hash.zero) roots chains ∧
    payloads = chains.map Chain.payload ∧
    found = chains.flatten.map Linked.bytes ++ push.toList

namespace Phase

/-- Says whether the device still gathers what the application is to get. -/
def gathering : Phase → Bool
  | .idle => false
  | .pulling .. => true
  | .pushing _ => true
  | .verifying _ _ => true
  | .emitting _ _ => false

/-- What is known of the payloads while they are gathered. -/
def Holds (roots : List Hash) (found : List Bytes) : Phase → Prop
  | .idle => True
  | .emitting _ _ => True
  | .pushing payloads => Authentic none roots found payloads
  | .verifying payloads _ => Authentic none roots found payloads
  | .pulling asked index expecting slices finished =>
      ∃ before root later chains chain,
        asked = roots ∧ roots = before ++ root :: later ∧
        before.length = index ∧ expecting ≠ Hash.zero ∧
        List.Forall₂ (fun root chain => Chain.Leads root chain Hash.zero)
          before chains ∧
        finished = chains.map Chain.payload ∧
        Chain.Leads root chain expecting ∧
        slices = chain.map Linked.slice ∧
        found = (chains.flatten ++ chain).map Linked.bytes

end Phase

namespace Turn

/-- A turn that keeps what is known, and hands over authentic payloads only. -/
structure Sound (turn : Turn) (push : Option Bytes) (roots : List Hash)
    (found : List Bytes) : Prop where
  kept : turn.peer.push = push
  phase : turn.peer.phase.Holds roots found
  delivered : ∀ payloads, turn.delivered = some payloads →
    turn.peer.phase.gathering = false ∧ Authentic push roots found payloads

/-- A turn that gathers nothing and hands nothing over. -/
structure Quiet (turn : Turn) (push : Option Bytes) : Prop where
  kept : turn.peer.push = push
  phase : turn.peer.phase.gathering = false
  delivered : turn.delivered = none

theorem holds_of_not_gathering {phase : Phase} (h : phase.gathering = false)
    (roots : List Hash) (found : List Bytes) : phase.Holds roots found := by
  cases phase with
  | idle => trivial
  | emitting output offset => trivial
  | pulling roots index expecting slices finished => cases h
  | pushing payloads => cases h
  | verifying payloads hash => cases h

theorem Quiet.sound {turn : Turn} {push : Option Bytes} (h : turn.Quiet push)
    (roots : List Hash) (found : List Bytes) :
    turn.Sound push roots found := by
  refine ⟨h.kept, holds_of_not_gathering h.phase roots found, ?_⟩
  intro payloads hdelivered
  rw [h.delivered] at hdelivered
  cases hdelivered

end Turn

namespace Peer

variable {p : Peer} {push : Option Bytes} {roots : List Hash}
variable {found payloads : List Bytes}

theorem quiet_abort (hpush : p.push = push) (status : Status) :
    (p.abort status).Quiet push :=
  ⟨hpush, rfl, rfl⟩

theorem quiet_emit (hpush : p.push = push) (output : Bytes) (offset : Nat) :
    (p.emit output offset).Quiet push := by
  simp only [emit]
  split_ifs
  · exact ⟨hpush, rfl, rfl⟩
  · exact ⟨hpush, rfl, rfl⟩

theorem sound_abort (hpush : p.push = push) (status : Status)
    (roots : List Hash) (found : List Bytes) :
    (p.abort status).Sound push roots found :=
  (quiet_abort hpush status).sound roots found

theorem sound_finish (hpush : p.push = push) (app : Application)
    (hpayloads : Authentic push roots found payloads) :
    (p.finish app payloads).Sound push roots found := by
  unfold finish
  cases app payloads with
  | ok output =>
      have hquiet := quiet_emit hpush output 0
      refine ⟨hquiet.kept,
        Turn.holds_of_not_gathering hquiet.phase roots found, ?_⟩
      intro given hgiven
      obtain rfl := Option.some.inj hgiven
      exact ⟨hquiet.phase, hpayloads⟩
  | error status =>
      have hquiet := quiet_abort hpush status
      refine ⟨hquiet.kept,
        Turn.holds_of_not_gathering hquiet.phase roots found, ?_⟩
      intro given hgiven
      obtain rfl := Option.some.inj hgiven
      exact ⟨hquiet.phase, hpayloads⟩

theorem sound_afterPull (hpush : p.push = push) (app : Application)
    (hpayloads : Authentic none roots found payloads) :
    (p.afterPull app payloads).Sound push roots found := by
  unfold afterPull
  cases hconfigured : p.push with
  | none =>
      have hnone : push = none := hpush.symm.trans hconfigured
      subst hnone
      exact sound_finish hpush app hpayloads
  | some chunk => exact ⟨hpush, hpayloads, fun _ h => by cases h⟩

/-- The device skips sentinels, and asks for the next root or hands over. -/
theorem sound_pullFrom (hpush : p.push = push) (app : Application)
    (rest before : List Hash) (chains : List (List Linked))
    (hroots : roots = before ++ rest)
    (hchains : List.Forall₂
      (fun root chain => Chain.Leads root chain Hash.zero) before chains)
    (hfound : found = chains.flatten.map Linked.bytes) :
    (p.pullFrom app roots before.length (chains.map Chain.payload)
      rest).Sound push roots found := by
  induction rest generalizing before chains with
  | nil =>
      refine sound_afterPull hpush app ⟨chains, ?_, rfl, ?_⟩
      · rw [hroots, List.append_nil]
        exact hchains
      · rw [hfound, Option.toList_none, List.append_nil]
  | cons root later ih =>
      unfold pullFrom
      by_cases hzero : root = Hash.zero
      · have hnext := ih (before ++ [root]) (chains ++ [[]])
          (by rw [hroots, List.append_assoc]; rfl)
          (List.rel_append hchains (.cons hzero .nil))
          (by simp [hfound])
        rw [if_pos (by simpa using hzero)]
        simpa using hnext
      · rw [if_neg (by simpa using hzero)]
        refine ⟨hpush, ?_, fun _ h => by cases h⟩
        exact ⟨before, root, later, chains, [], rfl, hroots, rfl, hzero,
          hchains, rfl, rfl, rfl, by rw [hfound, List.append_nil]⟩

/-- A chunk that fits goes to the end of the chain that is being followed. -/
theorem sound_receive (hpush : p.push = push) (app : Application)
    {index : Nat} {expecting : Hash} {slices finished : List Bytes}
    (hholds : (Phase.pulling roots index expecting slices finished).Holds
      roots found) (chunk : Bytes) :
    (p.receive app roots index expecting slices finished chunk).Sound push roots
      (found ++ [chunk]) := by
  obtain ⟨before, root, later, chains, chain, -, hroots, hindex, hne, hchains,
    hfinished, hchain, hslices, hfound⟩ := hholds
  unfold receive
  by_cases hhash : Hash.ofChunk chunk = expecting
  · rw [if_pos hhash]
    cases hlinked : Linked.ofBytes chunk with
    | error e => exact sound_abort hpush _ _ _
    | ok c =>
        obtain rfl := Linked.eq_bytes_of_ofBytes hlinked
        have hc : c.hash = expecting := hhash
        have hsnoc : Chain.Leads root (chain ++ [c]) c.next :=
          (hc ▸ hchain).snoc (hc ▸ hne)
        have hmap : slices ++ [c.slice] = (chain ++ [c]).map Linked.slice := by
          rw [hslices, List.map_append, List.map_singleton]
        have hbytes : found ++ [c.bytes] =
            (chains.flatten ++ (chain ++ [c])).map Linked.bytes := by
          simp [hfound]
        dsimp only
        by_cases hzero : c.next = Hash.zero
        · rw [if_pos (by simpa using hzero), pullNext]
          have hdrop : roots.drop (index + 1) = later := by
            rw [hroots, ← hindex]
            simp
          have hpulled : Turn.Sound (p.pullFrom app roots
              (before ++ [root]).length
              ((chains ++ [chain ++ [c]]).map Chain.payload) later)
              push roots (found ++ [c.bytes]) :=
            sound_pullFrom hpush app later (before ++ [root])
              (chains ++ [chain ++ [c]])
              (by rw [hroots, List.append_assoc]; rfl)
              (List.rel_append hchains (.cons (hzero ▸ hsnoc) .nil))
              (by rw [hbytes, List.flatten_append, List.flatten_singleton])
          rw [List.length_append, List.length_singleton, hindex, List.map_append,
            List.map_singleton, Chain.payload, ← hmap, ← hfinished] at hpulled
          rw [hdrop]
          exact hpulled
        · rw [if_neg (by simpa using hzero)]
          refine ⟨hpush, ?_, fun _ h => by cases h⟩
          exact ⟨before, root, later, chains, chain ++ [c], rfl, hroots, hindex,
            hzero, hchains, hfinished, hsnoc, hmap, hbytes⟩
  · rw [if_neg hhash]
    exact sound_abort hpush _ _ _

/-- The pushed chunk that came back is the last one to be delivered. -/
theorem sound_verify (hpush : p.push = push) (app : Application)
    (hpayloads : Authentic none roots found payloads) (hash : Hash)
    (chunk : Bytes) :
    (p.verify app payloads hash chunk).Sound push roots (found ++ [chunk]) := by
  unfold verify
  by_cases hhash : Hash.ofChunk chunk = hash
  · rw [if_pos hhash]
    by_cases hchunk : p.push = some chunk
    · rw [if_pos hchunk]
      apply sound_finish hpush
      obtain ⟨chains, hchains, hspelled, hfound⟩ := hpayloads
      refine ⟨chains, hchains, hspelled, ?_⟩
      rw [hfound, ← hpush, hchunk]
      simp
    · rw [if_neg hchunk]
      exact sound_abort hpush _ _ _
  · rw [if_neg hhash]
    exact sound_abort hpush _ _ _

/-- An opening that finds the device idle. -/
theorem sound_opening (hpush : p.push = push) (hphase : p.phase = .idle)
    (app : Application) {body : Bytes}
    (hopens : (Event.message app body).opens? = some roots) :
    (p.handle app body).Sound push roots [] := by
  unfold handle
  cases hdecode : HostMessage.decode body with
  | error e =>
      simp [Event.opens?, Event.read?, hdecode, Except.toOption] at hopens
  | ok m =>
      rw [Event.opens?_message hdecode] at hopens
      dsimp only
      cases m with
      | start asked =>
          obtain rfl : asked = roots := Option.some.inj hopens
          rw [hphase]
          exact sound_pullFrom hpush app asked [] [] rfl .nil rfl
      | chunkFound chunk => cases hopens
      | chunkNotFound => cases hopens
      | putChunkAck => cases hopens
      | accumulateAck => cases hopens

/-- A message while a chain is followed. -/
theorem sound_pulling (hpush : p.push = push) (app : Application)
    {asked : List Hash} {index : Nat} {expecting : Hash}
    {slices finished : List Bytes}
    (hholds : (Phase.pulling asked index expecting slices finished).Holds
      roots found) (m : HostMessage) :
    (p.dispatch app (.pulling asked index expecting slices finished) m).Sound
      push roots (found ++ m.chunk?.toList) := by
  cases m with
  | chunkFound chunk =>
      obtain ⟨before, root, later, chains, chain, rfl, hrest⟩ := hholds
      exact sound_receive hpush app
        ⟨before, root, later, chains, chain, rfl, hrest⟩ chunk
  | start roots => exact sound_abort hpush _ _ _
  | chunkNotFound => exact sound_abort hpush _ _ _
  | putChunkAck => exact sound_abort hpush _ _ _
  | accumulateAck => exact sound_abort hpush _ _ _

/-- A message while the pushed chunk is on its way. -/
theorem sound_pushing (hpush : p.push = push) (app : Application)
    (hpayloads : Authentic none roots found payloads) (m : HostMessage) :
    (p.dispatch app (.pushing payloads) m).Sound push roots
      (found ++ m.chunk?.toList) := by
  cases m with
  | putChunkAck =>
      simp only [HostMessage.chunk?, Option.toList_none, List.append_nil,
        dispatch, readBack]
      cases p.push with
      | none => exact sound_abort hpush _ _ _
      | some chunk => exact ⟨hpush, hpayloads, fun _ h => by cases h⟩
  | start roots => exact sound_abort hpush _ _ _
  | chunkFound chunk => exact sound_abort hpush _ _ _
  | chunkNotFound => exact sound_abort hpush _ _ _
  | accumulateAck => exact sound_abort hpush _ _ _

/-- A message while the pushed chunk is asked for. -/
theorem sound_verifying (hpush : p.push = push) (app : Application)
    (hpayloads : Authentic none roots found payloads) (hash : Hash)
    (m : HostMessage) :
    (p.dispatch app (.verifying payloads hash) m).Sound push roots
      (found ++ m.chunk?.toList) := by
  cases m with
  | chunkFound chunk => exact sound_verify hpush app hpayloads hash chunk
  | start roots => exact sound_abort hpush _ _ _
  | chunkNotFound => exact sound_abort hpush _ _ _
  | putChunkAck => exact sound_abort hpush _ _ _
  | accumulateAck => exact sound_abort hpush _ _ _

/-- A message while the payloads are gathered. -/
theorem sound_handle (hpush : p.push = push)
    (hholds : p.phase.Holds roots found) (hgathering : p.phase.gathering = true)
    (app : Application) (body : Bytes) :
    (p.handle app body).Sound push roots
      (found ++ (Event.message app body).chunk?.toList) := by
  unfold handle
  cases hdecode : HostMessage.decode body with
  | error e => exact sound_abort hpush _ _ _
  | ok m =>
      rw [Event.chunk?_message hdecode]
      dsimp only
      cases hphase : p.phase with
      | idle =>
          rw [hphase] at hgathering
          cases hgathering
      | emitting output offset =>
          rw [hphase] at hgathering
          cases hgathering
      | pulling asked index expecting slices finished =>
          rw [hphase] at hholds
          exact sound_pulling hpush app hholds m
      | pushing payloads =>
          rw [hphase] at hholds
          exact sound_pushing hpush app hholds m
      | verifying payloads hash =>
          rw [hphase] at hholds
          exact sound_verifying hpush app hholds hash m

/-- A message to a device that gathers nothing, unless it opens an operation. -/
theorem quiet_handle (hpush : p.push = push)
    (hgathering : p.phase.gathering = false) (app : Application) {body : Bytes}
    (hopens : p.phase = .idle → (Event.message app body).opens? = none) :
    (p.handle app body).Quiet push := by
  unfold handle
  cases hdecode : HostMessage.decode body with
  | error e => exact quiet_abort hpush _
  | ok m =>
      rw [Event.opens?_message hdecode] at hopens
      dsimp only
      cases hphase : p.phase with
      | idle =>
          cases m with
          | start roots => cases hopens hphase
          | chunkFound chunk => exact quiet_abort hpush _
          | chunkNotFound => exact quiet_abort hpush _
          | putChunkAck => exact quiet_abort hpush _
          | accumulateAck => exact quiet_abort hpush _
      | emitting output offset =>
          cases m with
          | accumulateAck => exact quiet_emit hpush output offset
          | start roots => exact quiet_abort hpush _
          | chunkFound chunk => exact quiet_abort hpush _
          | chunkNotFound => exact quiet_abort hpush _
          | putChunkAck => exact quiet_abort hpush _
      | pulling roots index expecting slices finished =>
          rw [hphase] at hgathering
          cases hgathering
      | pushing payloads =>
          rw [hphase] at hgathering
          cases hgathering
      | verifying payloads hash =>
          rw [hphase] at hgathering
          cases hgathering

end Peer

namespace Watch

variable {w : Watch} {push : Option Bytes} {e : Event}

/-- The invariant of a watched device: while it gathers payloads, what is known of
them holds for the roots on record, and the application has not been asked; it is
asked at most once. -/
structure Inv (w : Watch) (push : Option Bytes) : Prop where
  kept : w.peer.push = push
  waiting : w.peer.phase.gathering = true → w.calls = [] ∧
    ∃ roots, w.roots = some roots ∧ w.peer.phase.Holds roots w.found
  once : w.calls.length ≤ 1

theorem observe_opening {roots : List Hash} (hphase : w.peer.phase = .idle)
    (hopens : e.opens? = some roots) :
    w.observe e =
      { peer := w.peer.next e
        roots := some roots
        found := []
        calls := (w.peer.delivers e).toList } := by
  simp only [observe, hphase, hopens]

theorem observe_other (hopens : w.peer.phase = .idle → e.opens? = none) :
    w.observe e =
      { peer := w.peer.next e
        roots := w.roots
        found := w.found ++ e.chunk?.toList
        calls := w.calls ++ (w.peer.delivers e).toList } := by
  by_cases hphase : w.peer.phase = .idle
  · simp only [observe, hphase, hopens hphase]
  · unfold observe
    split
    · contradiction
    · rfl

theorem Inv.turn_of_opening (h : w.Inv push) {roots : List Hash}
    (hphase : w.peer.phase = .idle) (hopens : e.opens? = some roots) :
    ∃ turn : Turn, w.peer.next e = turn.peer ∧
      w.peer.delivers e = turn.delivered ∧ turn.Sound push roots [] := by
  cases e with
  | reset => cases hopens
  | message app body =>
      exact ⟨w.peer.handle app body, rfl, rfl,
        Peer.sound_opening h.kept hphase app hopens⟩

theorem Inv.turn_of_other (h : w.Inv push)
    (hopens : w.peer.phase = .idle → e.opens? = none) :
    ∃ turn : Turn, w.peer.next e = turn.peer ∧
      w.peer.delivers e = turn.delivered ∧
      ((w.calls = [] ∧ ∃ roots, w.roots = some roots ∧
          turn.Sound push roots (w.found ++ e.chunk?.toList)) ∨
        turn.Quiet push) := by
  cases e with
  | reset =>
      exact ⟨w.peer.abort Status.badState, rfl, rfl,
        Or.inr (Peer.quiet_abort h.kept _)⟩
  | message app body =>
      refine ⟨w.peer.handle app body, rfl, rfl, ?_⟩
      cases hgathering : w.peer.phase.gathering with
      | true =>
          obtain ⟨hcalls, roots, hroots, hholds⟩ := h.waiting hgathering
          exact Or.inl ⟨hcalls, roots, hroots,
            Peer.sound_handle h.kept hholds hgathering app body⟩
      | false => exact Or.inr (Peer.quiet_handle h.kept hgathering app hopens)

/-- A move of the host leads to a turn that is sound for the new record, or to one
that gathers nothing and hands nothing over. -/
theorem Inv.turn_cases (h : w.Inv push) (e : Event) :
    ∃ turn : Turn, (w.observe e).peer = turn.peer ∧
      w.peer.delivers e = turn.delivered ∧
      ((∃ roots, (w.observe e).roots = some roots ∧
          (w.observe e).calls = turn.delivered.toList ∧
          turn.Sound push roots (w.observe e).found) ∨
        ((w.observe e).calls = w.calls ∧ turn.Quiet push)) := by
  by_cases hopening : w.peer.phase = .idle ∧ ∃ roots, e.opens? = some roots
  · obtain ⟨hphase, roots, hopens⟩ := hopening
    obtain ⟨turn, hnext, hdelivers, hsound⟩ := h.turn_of_opening hphase hopens
    rw [observe_opening hphase hopens, hdelivers]
    exact ⟨turn, hnext, rfl, Or.inl ⟨roots, rfl, rfl, hsound⟩⟩
  · have hopens : w.peer.phase = .idle → e.opens? = none := by
      intro hphase
      rw [Option.eq_none_iff_forall_ne_some]
      exact fun roots hroots => hopening ⟨hphase, roots, hroots⟩
    obtain ⟨turn, hnext, hdelivers, hcases⟩ := h.turn_of_other hopens
    rw [observe_other hopens, hdelivers]
    refine ⟨turn, hnext, rfl, ?_⟩
    rcases hcases with ⟨hcalls, roots, hroots, hsound⟩ | hquiet
    · refine Or.inl ⟨roots, hroots, ?_, hsound⟩
      rw [hcalls, List.nil_append]
    · refine Or.inr ⟨?_, hquiet⟩
      rw [hquiet.delivered, Option.toList_none, List.append_nil]

/-- Every move of the host keeps the invariant. -/
theorem inv_observe (h : w.Inv push) (e : Event) : (w.observe e).Inv push := by
  obtain ⟨turn, hpeer, _, hcases⟩ := h.turn_cases e
  rcases hcases with ⟨roots, hroots, hcalls, hsound⟩ | ⟨hcalls, hquiet⟩
  · refine ⟨hpeer ▸ hsound.kept, ?_, ?_⟩
    · intro hgathering
      rw [hpeer] at hgathering ⊢
      refine ⟨?_, roots, hroots, hsound.phase⟩
      cases hgiven : turn.delivered with
      | none => rw [hcalls, hgiven]; rfl
      | some payloads =>
          have hdone := (hsound.delivered payloads hgiven).1
          rw [hgathering] at hdone
          cases hdone
    · rw [hcalls]
      cases turn.delivered <;> simp
  · refine ⟨hpeer ▸ hquiet.kept, ?_, ?_⟩
    · intro hgathering
      rw [hpeer, hquiet.phase] at hgathering
      cases hgathering
    · rw [hcalls]
      exact h.once

/-- What the application gets is authentic for the record, and it is all that the
application has got since the opening. -/
theorem Inv.authentic_of_delivers (h : w.Inv push) {payloads : List Bytes}
    (hgiven : w.peer.delivers e = some payloads) :
    (w.observe e).calls = [payloads] ∧
    ∃ roots, (w.observe e).roots = some roots ∧
      Authentic push roots (w.observe e).found payloads := by
  obtain ⟨turn, _, hdelivers, hcases⟩ := h.turn_cases e
  have hturn : turn.delivered = some payloads := hdelivers.symm.trans hgiven
  rcases hcases with ⟨roots, hroots, hcalls, hsound⟩ | ⟨_, hquiet⟩
  · refine ⟨?_, roots, hroots, (hsound.delivered payloads hturn).2⟩
    rw [hcalls, hturn]
    rfl
  · rw [hquiet.delivered] at hturn
    cases hturn

/-- Every run keeps the invariant. -/
theorem inv_watch (h : w.Inv push) (events : List Event) :
    (w.watch events).Inv push := by
  induction events using List.reverseRecOn with
  | nil => exact h
  | append_singleton events e ih =>
      rw [watch_snoc]
      exact inv_observe ih e

/-- The record of a new device. -/
def fresh (push : Option Bytes) (fragmentSize : Nat) : Watch :=
  { peer := ({ push := push } : Peer).withFragmentSize fragmentSize }

theorem inv_fresh (push : Option Bytes) (fragmentSize : Nat) :
    (fresh push fragmentSize).Inv push :=
  ⟨rfl, fun h => (by cases h), Nat.zero_le _⟩

end Watch

section Collision

variable {push push' : Option Bytes} {roots : List Hash}
variable {found found' payloads payloads' : List Bytes}

/-- Chains from the same roots spell the same payloads, or two of their chunks
collide. -/
theorem Chain.map_payload_eq_or_collision {chains others : List (List Linked)}
    (hchains : List.Forall₂
      (fun root chain => Chain.Leads root chain Hash.zero) roots chains)
    (hothers : List.Forall₂
      (fun root chain => Chain.Leads root chain Hash.zero) roots others) :
    chains.map Chain.payload = others.map Chain.payload ∨
    ∃ c ∈ chains.flatten, ∃ d ∈ others.flatten,
      c.bytes ≠ d.bytes ∧ c.hash = d.hash := by
  induction hchains generalizing others with
  | nil =>
      cases hothers
      exact Or.inl rfl
  | cons hchain _ ih =>
      cases hothers with
      | cons hother hothers =>
          rcases Chain.eq_or_collision hchain hother with heq | ⟨c, hc, d, hd, hcd⟩
          · rcases ih hothers with hspelled | ⟨c, hc, d, hd, hcd⟩
            · exact Or.inl (by rw [List.map_cons, List.map_cons, heq, hspelled])
            · refine Or.inr ⟨c, ?_, d, ?_, hcd⟩
              · exact List.mem_append_right _ hc
              · exact List.mem_append_right _ hd
          · refine Or.inr ⟨c, ?_, d, ?_, hcd⟩
            · exact List.mem_append_left _ hc
            · exact List.mem_append_left _ hd

/-- Two payload lists that are authentic under the same roots are equal, or two of
the chunks that were delivered collide. -/
theorem collision_of_authentic (h : Authentic push roots found payloads)
    (h' : Authentic push' roots found' payloads') (hne : payloads ≠ payloads') :
    ∃ a ∈ found, ∃ b ∈ found', a ≠ b ∧ Digest.sha256 a = Digest.sha256 b := by
  obtain ⟨chains, hchains, rfl, rfl⟩ := h
  obtain ⟨others, hothers, rfl, rfl⟩ := h'
  rcases Chain.map_payload_eq_or_collision hchains hothers with
    heq | ⟨c, hc, d, hd, hbytes, hhash⟩
  · exact absurd heq hne
  · refine ⟨c.bytes, ?_, d.bytes, ?_, hbytes, congrArg Hash.bytes hhash⟩
    · exact List.mem_append_left _ (List.mem_map_of_mem hc)
    · exact List.mem_append_left _ (List.mem_map_of_mem hd)

theorem Authentic.length_eq (h : Authentic push roots found payloads) :
    payloads.length = roots.length := by
  obtain ⟨chains, hchains, rfl, _⟩ := h
  rw [List.length_map, hchains.length_eq]

/-- The sentinel stands for an empty payload, and a chain of at least one chunk is
behind every other root. -/
theorem Authentic.spelled (h : Authentic push roots found payloads) :
    List.Forall₂
      (fun root payload =>
        (root = Hash.zero ∧ payload = []) ∨
        ∃ c rest, Chain.Leads root (c :: rest) Hash.zero ∧
          payload = Chain.payload (c :: rest))
      roots payloads := by
  obtain ⟨chains, hchains, rfl, _⟩ := h
  rw [List.forall₂_map_right_iff]
  refine hchains.imp ?_
  intro root chain hchain
  cases chain with
  | nil => exact Or.inl ⟨hchain, rfl⟩
  | cons c rest => exact Or.inr ⟨c, rest, hchain, rfl⟩

end Collision

/-- **What the application gets is authentic.**  In every run against a new device
the application is asked at most once for an opening, and then it gets what the
roots of that opening stand for: the host has delivered the chunks of the chains,
in order, and has returned the pushed chunk.  Whenever two runs lead from the same
roots to different payload lists, two of the delivered chunks collide. -/
theorem delivered_is_authentic (push : Option Bytes) (size : Nat)
    (events : List Event) :
    let w := (Watch.fresh push size).watch events
    w.calls.length ≤ 1 ∧
    ∀ e payloads, w.peer.delivers e = some payloads →
      (w.observe e).calls = [payloads] ∧
      ∃ roots, (w.observe e).roots = some roots ∧
        payloads.length = roots.length ∧
        List.Forall₂
          (fun root payload =>
            (root = Hash.zero ∧ payload = []) ∨
            ∃ c rest, Chain.Leads root (c :: rest) Hash.zero ∧
              payload = Chain.payload (c :: rest))
          roots payloads ∧
        Authentic push roots (w.observe e).found payloads ∧
        ∀ (push' : Option Bytes) (size' : Nat) (events' : List Event)
            (e' : Event) (payloads' : List Bytes),
          let w' := (Watch.fresh push' size').watch events'
          w'.peer.delivers e' = some payloads' →
          (w'.observe e').roots = some roots → payloads ≠ payloads' →
          ∃ a ∈ (w.observe e).found, ∃ b ∈ (w'.observe e').found,
            a ≠ b ∧ Digest.sha256 a = Digest.sha256 b := by
  intro w
  have hw : w.Inv push := Watch.inv_watch (Watch.inv_fresh push size) events
  refine ⟨hw.once, ?_⟩
  intro e payloads hgiven
  obtain ⟨hcalls, roots, hroots, hpayloads⟩ := hw.authentic_of_delivers hgiven
  refine ⟨hcalls, roots, hroots, hpayloads.length_eq, hpayloads.spelled,
    hpayloads, ?_⟩
  intro push' size' events' e' payloads' w' hgiven' hroots' hne
  have hw' : w'.Inv push' :=
    Watch.inv_watch (Watch.inv_fresh push' size') events'
  obtain ⟨_, roots', hsame, hpayloads'⟩ := hw'.authentic_of_delivers hgiven'
  obtain rfl : roots' = roots :=
    Option.some.inj (hsame.symm.trans hroots')
  exact collision_of_authentic hpayloads hpayloads' hne

/-- A run in which the application gets the one byte of a payload. -/
theorem delivered_after_one_chunk :
    let c : Linked := ⟨Hash.zero, [7]⟩
    let events : List Event :=
      [.message PeerDevice.echo (HostMessage.start [c.hash, Hash.zero]).encode]
    let e := Event.message PeerDevice.echo (HostMessage.chunkFound c.bytes).encode
    let w := (Watch.fresh none 48).watch events
    w.peer.delivers e = some [[7], []] ∧ (w.observe e).calls = [[[7], []]] := by
  intro c events e w
  have hgiven : w.peer.delivers e = some [[7], []] := by decide +kernel
  exact ⟨hgiven, ((delivered_is_authentic none 48 events).2 e _ hgiven).1⟩

end Courier
