import Courier.Proofs.Store.Contents
import Courier.Proofs.Transfer.History
import Mathlib.Data.List.TakeWhile

/-!
# Where the chunks of a transfer come from

The store of a transfer is made of the chunks of its payloads and of the chunks
that the peer has pushed, as long as the transfer takes messages.  What it serves
and what it misses follows from that, with no assumption on the hash function.

* `Transfer.Answers.madeOf`: a message adds the chunk that it pushes, and nothing
  else.
* `Transfer.madeOf_after`: the store after any messages that go on.
* `Transfer.Carries.madeOf_after`: the store after any bodies whatever, for a
  transfer of payloads.
-/

namespace Courier
namespace Transfer

open PeerMessage (continues heard)

variable {t t' : Transfer} {chunks : Set Bytes}

theorem Answers.stage_eq {m : PeerMessage} {reply : HostMessage}
    (h : t.Answers m reply t') : t'.stage = t.stage := by
  cases h <;> rfl

/-- A message adds the chunk that it pushes. -/
theorem Answers.madeOf {m : PeerMessage} {reply : HostMessage}
    (h : t.Answers m reply t') (ht : t.store.MadeOf chunks) :
    t'.store.MadeOf (chunks ∪ {c | m = .putChunk c}) := by
  cases h with
  | accumulated fragment => simpa using ht
  | served hstored => simpa using ht
  | missed habsent => simpa using ht
  | stored chunk =>
      have hset : {c | PeerMessage.putChunk chunk = .putChunk c} = {chunk} := by
        ext c
        simp [eq_comm]
      rw [hset]
      exact ht.put chunk

/-- A message that does not end the transfer is answered. -/
theorem reply_of_continues {body : Bytes} (hstage : t.stage = .awaitingPeer)
    (hbody : continues body = true) :
    ∃ m reply, PeerMessage.decode body = .ok m ∧
      (t.step body).1 = .ok (.reply reply) := by
  obtain ⟨m, hdecode, hm⟩ := decode_of_continues hbody
  rw [step_of_message hstage hdecode]
  cases m with
  | accumulate fragment => exact ⟨_, _, hdecode, rfl⟩
  | final fragment => cases hm
  | putChunk chunk => exact ⟨_, _, hdecode, rfl⟩
  | getChunk hash =>
      simp only [dispatch]
      cases t.store.get? hash <;> exact ⟨_, _, hdecode, rfl⟩

/-- Anything else ends it, and leaves the store alone. -/
theorem step_of_not_continues {body : Bytes} (hstage : t.stage = .awaitingPeer)
    (hbody : continues body = false) :
    (t.step body).2.stage ≠ .awaitingPeer ∧ (t.step body).2.store = t.store := by
  cases hdecode : PeerMessage.decode body with
  | error e =>
      rw [step_of_error hstage hdecode]
      exact ⟨by simp, rfl⟩
  | ok m =>
      rw [step_of_message hstage hdecode]
      cases m with
      | final fragment => exact ⟨by simp [dispatch], rfl⟩
      | _ => simp [continues, hdecode, PeerMessage.isFinal] at hbody

/-- The chunks that a transfer has taken in with some messages. -/
def pushedIn (bodies : List Bytes) : Set Bytes :=
  {chunk | .putChunk chunk ∈ heard bodies}

theorem madeOf_after (hstage : t.stage = .awaitingPeer)
    (ht : t.store.MadeOf chunks) {bodies : List Bytes}
    (hbodies : ∀ body ∈ bodies, continues body = true) :
    (t.after bodies).stage = .awaitingPeer ∧
      (t.after bodies).store.MadeOf (chunks ∪ pushedIn bodies) := by
  induction bodies using List.reverseRecOn with
  | nil =>
      have hnone : pushedIn [] = ∅ := by
        simp [pushedIn, heard]
      rw [hnone, Set.union_empty]
      exact ⟨hstage, ht⟩
  | append_singleton bodies body ih =>
      obtain ⟨hwaiting, hmade⟩ :=
        ih fun b hb => hbodies b (List.mem_append_left _ hb)
      have hbody := hbodies body (by simp)
      obtain ⟨m, reply, hdecode, hreply⟩ := reply_of_continues hwaiting hbody
      obtain ⟨_, m', hdecode', hanswers⟩ := answers_of_step hreply
      obtain rfl := Except.ok.inj (hdecode.symm.trans hdecode')
      have hset : chunks ∪ pushedIn (bodies ++ [body]) =
          chunks ∪ pushedIn bodies ∪ {c | m = .putChunk c} := by
        ext c
        simp [pushedIn, heard, List.filterMap_append, hdecode, Except.toOption,
          or_assoc, eq_comm]
      rw [after_snoc, hset]
      exact ⟨hanswers.stage_eq.trans hwaiting, hanswers.madeOf hmade⟩

/-- What comes after the end of a transfer does not reach its store. -/
theorem store_after_takeWhile (hstage : t.stage = .awaitingPeer)
    (bodies : List Bytes) :
    (t.after bodies).store = (t.after (bodies.takeWhile continues)).store := by
  induction bodies generalizing t with
  | nil => rfl
  | cons body rest ih =>
      cases hbody : continues body with
      | true =>
          obtain ⟨m, reply, _, hreply⟩ := reply_of_continues hstage hbody
          obtain ⟨_, _, _, hanswers⟩ := answers_of_step hreply
          rw [List.takeWhile_cons_of_pos hbody, after_cons, after_cons]
          exact ih (hanswers.stage_eq.trans hstage)
      | false =>
          obtain ⟨hidle, hstore⟩ := step_of_not_continues hstage hbody
          rw [List.takeWhile_cons_of_neg (by simp [hbody]), after_cons,
            after_of_idle hidle, hstore]
          rfl

/-- A new transfer of payloads, with a store that is made of their chunks. -/
structure Carries (t : Transfer) (size : Nat) (payloads : List Bytes) : Prop where
  stage : t.stage = .sending
  roots : t.roots.length = payloads.length
  store : t.store.MadeOf {b | ∃ c ∈ Chain.ofPayloads size payloads, c.bytes = b}

theorem carries_of_ofPayloads {payloads : List Bytes} {size : Nat}
    {header : Header} {limits : Limits} (hsize : 1 ≤ size)
    (ht : ofPayloads header payloads size limits = .ok t) :
    t.Carries size payloads := by
  rw [ofPayloads_eq hsize] at ht
  obtain rfl := Except.ok.inj ht
  exact ⟨rfl, List.length_map _, Store.madeOf_linkAll payloads⟩

/-- The store of a transfer of payloads after any bodies: only what has been named
up to the body that ended the transfer, and all of it while the transfer waits. -/
theorem Carries.madeOf_after {payloads : List Bytes} {size : Nat}
    (ht : t.Carries size payloads) (bodies : List Bytes) :
    let now := t.start.2.after bodies
    let named := {b | ∃ c ∈ Chain.ofPayloads size payloads, c.bytes = b} ∪
      pushedIn (bodies.takeWhile continues)
    ∃ chunks ⊆ named, now.store.MadeOf chunks ∧
      (now.stage = .awaitingPeer → chunks = named) := by
  intro now named
  by_cases hroots : t.roots.length ≤ 7
  · have hopened : t.start.2 = { t with stage := .awaitingPeer } :=
      congrArg Prod.snd (start_of_sending ht.stage hroots)
    refine ⟨named, subset_rfl, ?_, fun _ => rfl⟩
    show (t.start.2.after bodies).store.MadeOf named
    rw [hopened, store_after_takeWhile rfl]
    exact (Transfer.madeOf_after (t := { t with stage := .awaitingPeer }) rfl
      ht.store fun body hbody => List.mem_takeWhile_imp hbody).2
  · -- without an opening nothing is taken in
    have hstore : t.start.2.store = t.store := by
      simp only [start]
      split_ifs <;> rfl
    have hidle : t.start.2.stage ≠ .awaitingPeer := by
      have hfits := (maxBody_lt_start_iff t.roots).mpr (by omega)
      simp [start, ht.stage, hfits, fail]
    have hnow : now = t.start.2 := after_of_idle hidle bodies
    refine ⟨_, Set.subset_union_left, ?_, fun hwaiting => ?_⟩
    · rw [hnow, hstore]
      exact ht.store
    · rw [hnow] at hwaiting
      exact absurd hwaiting hidle

end Transfer
end Courier
