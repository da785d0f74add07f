import Courier.Proofs.Store.View
import Courier.Proofs.Transfer.Step

/-!
# Transfers answer by the history of the peer's messages

What a started transfer answers is stated here without its state, as a function of
the store it began with and of all that the peer has said so far.

* `Transfer.served`: the chunk under a hash, the chunks pushed so far laid over
  the first store.
* `Transfer.missed`: the hashes asked for in vain, in order and with repetitions.
* `Transfer.moveAfter`: the move that the history prescribes for a message.
* `Transfer.AgreesWith`: the state holds exactly what the history says; one
  message preserves it (`agreesWith_dispatch`), and so does every run of messages
  (`agreesWith_after`).
* `Transfer.answers_by_history`: the steps of a transfer after any history.
-/

namespace Courier
namespace PeerMessage

/-- The chunk that a message pushes. -/
def pushed? : PeerMessage → Option Bytes
  | .putChunk chunk => some chunk
  | _ => none

/-- The fragment that a message adds to the result, unless it is the last. -/
def fragment? : PeerMessage → Option Bytes
  | .accumulate fragment => some fragment
  | _ => none

/-- Says whether a body is a message that does not end the transfer. -/
def continues (body : Bytes) : Bool :=
  match decode body with
  | .ok m => !m.isFinal
  | .error _ => false

/-- The messages among some bodies. -/
def heard (bodies : List Bytes) : List PeerMessage :=
  bodies.filterMap fun body => (decode body).toOption

end PeerMessage

namespace Transfer

open PeerMessage (pushed? fragment? continues heard)

/-- The chunk under a hash after the messages `past`: the last one pushed under
it, or else the one that was stored at first. -/
def served (store : Store) (past : List PeerMessage) (h : Hash) : Option Bytes :=
  ((past.filterMap pushed?).reverse.find? fun chunk =>
    Hash.ofChunk chunk == h).or (store.get? h)

/-- The hashes that were asked for when there was no chunk under them. -/
def missed (store : Store) (past : List PeerMessage) : List Hash :=
  past.zipIdx.filterMap fun
    | (.getChunk h, i) => if served store (past.take i) h = none then some h else none
    | _ => none

/-- The move that the history prescribes for a message. -/
def moveAfter (store : Store) (past : List PeerMessage) : PeerMessage → Move
  | .accumulate _ => .reply .accumulateAck
  | .final fragment => .finished ((past.filterMap fragment?).flatten ++ fragment)
  | .getChunk h =>
      match served store past h with
      | some chunk => .reply (.chunkFound chunk)
      | none => .reply .chunkNotFound
  | .putChunk _ => .reply .putChunkAck

theorem served_snoc (store : Store) (past : List PeerMessage)
    (m : PeerMessage) (h : Hash) :
    served store (past ++ [m]) h =
      match m with
      | .putChunk chunk =>
          if Hash.ofChunk chunk = h then some chunk else served store past h
      | _ => served store past h := by
  cases m with
  | putChunk chunk =>
      by_cases hchunk : Hash.ofChunk chunk = h
      · simp [served, pushed?, hchunk]
      · have hbeq : (Hash.ofChunk chunk == h) = false := by
          simpa using hchunk
        simp [served, pushed?, hbeq, hchunk]
  | accumulate fragment => simp [served, pushed?, List.filterMap_cons]
  | final fragment => simp [served, pushed?, List.filterMap_cons]
  | getChunk hash => simp [served, pushed?, List.filterMap_cons]

theorem missed_snoc (store : Store) (past : List PeerMessage)
    (m : PeerMessage) :
    missed store (past ++ [m]) =
      missed store past ++
        match m with
        | .getChunk h => if served store past h = none then [h] else []
        | _ => [] := by
  have hearlier :
      past.zipIdx.filterMap (fun
        | (.getChunk h, i) =>
            if served store ((past ++ [m]).take i) h = none then some h else none
        | _ => none) = missed store past := by
    apply List.filterMap_congr
    rintro ⟨m', i⟩ hmem
    have hi : i < past.length := by
      have := List.mem_zipIdx hmem
      omega
    cases m' with
    | getChunk h => simp only [List.take_append_of_le_length hi.le]
    | accumulate fragment => rfl
    | final fragment => rfl
    | putChunk chunk => rfl
  rw [missed, List.zipIdx_append, List.filterMap_append, hearlier]
  congr 1
  cases m with
  | getChunk h =>
      by_cases hserved : served store past h = none <;> simp [hserved]
  | accumulate fragment => rfl
  | final fragment => rfl
  | putChunk chunk => rfl

/-- The state of a waiting transfer holds what the history says: the chunks, the
fragments and the misses. -/
structure AgreesWith (t : Transfer) (store : Store)
    (past : List PeerMessage) : Prop where
  stage : t.stage = .awaitingPeer
  get? : ∀ h, t.store.get? h = served store past h
  fragments : t.fragments.reverse = past.filterMap fragment?
  missing : t.missing = missed store past

variable {t : Transfer} {store : Store} {past : List PeerMessage}

theorem AgreesWith.forget (h : t.AgreesWith store past) :
    { t with unansweredMiss := none }.AgreesWith store past :=
  ⟨h.stage, h.get?, h.fragments, h.missing⟩

/-- The answer to a message is the one that the history prescribes. -/
theorem AgreesWith.move (h : t.AgreesWith store past) (m : PeerMessage) :
    (t.dispatch m).1 = moveAfter store past m := by
  cases m with
  | accumulate fragment => rfl
  | putChunk chunk => rfl
  | final fragment =>
      simp only [dispatch, moveAfter, List.reverse_cons, h.fragments,
        List.flatten_append, List.flatten_singleton]
  | getChunk hash =>
      simp only [dispatch, moveAfter, h.get? hash]
      cases served store past hash <;> rfl

/-- The misses after a message, whichever it is. -/
theorem AgreesWith.missing_dispatch (h : t.AgreesWith store past)
    (m : PeerMessage) :
    (t.dispatch m).2.missing = missed store (past ++ [m]) := by
  rw [missed_snoc]
  cases m with
  | accumulate fragment => simpa [dispatch] using h.missing
  | putChunk chunk => simpa [dispatch] using h.missing
  | final fragment => simpa [dispatch] using h.missing
  | getChunk hash =>
      simp only [dispatch, h.get? hash]
      cases hserved : served store past hash with
      | none => simp [h.missing]
      | some chunk => simp [h.missing]

/-- One message that does not end the transfer keeps the state and the history in
agreement. -/
theorem agreesWith_dispatch (h : t.AgreesWith store past) {m : PeerMessage}
    (hm : m.isFinal = false) :
    (t.dispatch m).2.AgreesWith store (past ++ [m]) := by
  refine ⟨?_, ?_, ?_, h.missing_dispatch m⟩
  · rw [stage_dispatch, hm]
    exact h.stage
  · intro hash
    rw [served_snoc]
    cases m with
    | putChunk chunk => simp only [dispatch, Store.get?_put, h.get?]
    | accumulate fragment => exact h.get? hash
    | final fragment => exact h.get? hash
    | getChunk asked =>
        simp only [dispatch]
        split <;> exact h.get? hash
  · rw [List.filterMap_append]
    cases m with
    | accumulate fragment => simp [dispatch, fragment?, h.fragments]
    | final fragment => cases hm
    | putChunk chunk => simp [dispatch, fragment?, h.fragments]
    | getChunk asked =>
        simp only [dispatch]
        split <;> simp [fragment?, h.fragments]

theorem decode_of_continues {body : Bytes} (h : continues body = true) :
    ∃ m, PeerMessage.decode body = .ok m ∧ m.isFinal = false := by
  unfold continues at h
  cases hdecode : PeerMessage.decode body with
  | error e => simp [hdecode] at h
  | ok m => exact ⟨m, rfl, by simpa [hdecode] using h⟩

/-- Every run of messages that does not end the transfer keeps the state and the
history in agreement. -/
theorem agreesWith_after (h : t.AgreesWith store []) {bodies : List Bytes}
    (hbodies : ∀ body ∈ bodies, continues body = true) :
    (t.after bodies).AgreesWith store (heard bodies) := by
  induction bodies using List.reverseRecOn with
  | nil => exact h
  | append_singleton bodies body ih =>
      have hbefore := ih (fun b hb => hbodies b (List.mem_append_left _ hb))
      obtain ⟨m, hdecode, hm⟩ := decode_of_continues (hbodies body (by simp))
      have hheard : heard (bodies ++ [body]) = heard bodies ++ [m] := by
        simp [heard, List.filterMap_append, hdecode, Except.toOption]
      rw [after_snoc, step_of_message hbefore.stage hdecode, hheard]
      exact agreesWith_dispatch hbefore.forget hm

/-- A transfer that has just been opened agrees with the empty history. -/
theorem agreesWith_started (header : Header) (store : Store)
    (roots : List Hash) (limits : Limits) :
    AgreesWith { header, store, roots, limits, stage := .awaitingPeer } store [] :=
  ⟨rfl, fun _ => rfl, rfl, rfl⟩

/-- **A transfer answers by the history alone.**  It opens with its roots.  After
any messages that do not end it, it waits, it has recorded exactly the misses, and
its move is the one prescribed; the last fragment and a body that is no message
end it, and afterwards it refuses everything and stays as it is. -/
theorem answers_by_history (header : Header) (store : Store)
    (roots : List Hash) (limits : Limits) (hroots : roots.length ≤ 7)
    (bodies : List Bytes) (hbodies : ∀ body ∈ bodies, continues body = true)
    (response : Bytes) :
    let opened := Transfer.start { header, store, roots, limits }
    let t := opened.2.after bodies
    let past := heard bodies
    let next := (t.step response).2
    opened.1 = .ok (HostMessage.start roots).encode ∧
    t.stage = .awaitingPeer ∧
    t.missing = missed store past ∧
    (match PeerMessage.decode response with
      | .ok m =>
          (t.step response).1 = .ok (moveAfter store past m) ∧
          next.stage = (if m.isFinal then .done else .awaitingPeer) ∧
          next.missing = missed store (past ++ [m])
      | .error e =>
          (t.step response).1 = .error e ∧
          (∃ why, e = .protocol why) ∧
          next.stage = .failed ∧
          next.missing = missed store past) ∧
    (continues response = false → ∀ later body,
      next.after later = next ∧
      (next.step body).1 = .error (.protocol (.responseIn next.stage))) := by
  intro opened t past next
  have hopened : opened = (.ok (HostMessage.start roots).encode,
      { header, store, roots, limits, stage := .awaitingPeer }) :=
    start_of_sending rfl hroots
  have hstart : opened.2.AgreesWith store [] := by
    rw [hopened]
    exact agreesWith_started header store roots limits
  have hagrees : t.AgreesWith store past := agreesWith_after hstart hbodies
  refine ⟨by rw [hopened], hagrees.stage, hagrees.missing, ?_, ?_⟩
  · cases hdecode : PeerMessage.decode response with
    | ok m =>
        have hstep := step_of_message hagrees.stage hdecode
        have hforget := hagrees.forget
        refine ⟨?_, ?_, ?_⟩
        · rw [hstep, hforget.move m]
        · show (t.step response).2.stage = _
          rw [hstep, stage_dispatch, hforget.stage]
        · show (t.step response).2.missing = _
          rw [hstep, hforget.missing_dispatch m]
    | error e =>
        have hstep := step_of_error hagrees.stage hdecode
        refine ⟨by rw [hstep], PeerMessage.protocol_of_decode_error hdecode,
          ?_, ?_⟩
        · show (t.step response).2.stage = _
          rw [hstep]
        · show (t.step response).2.missing = _
          rw [hstep]
          exact hagrees.missing
  · intro hends later body
    have hnext : next.stage ≠ .awaitingPeer := by
      show (t.step response).2.stage ≠ _
      cases hdecode : PeerMessage.decode response with
      | error e =>
          rw [step_of_error hagrees.stage hdecode]
          simp
      | ok m =>
          have hm : m.isFinal = true := by
            simpa [continues, hdecode] using hends
          rw [step_of_message hagrees.stage hdecode, stage_dispatch, hm]
          simp
    exact ⟨after_of_idle hnext later, by rw [step_of_idle hnext]⟩

/-- A fragment, a miss and a pushed chunk, and then the last fragment. -/
theorem answers_after_fragment_miss_push :
    let bodies : List Bytes := [[0, 1, 2], 2 :: Hash.zero.bytes, [3, 9]]
    let opened := Transfer.start
      { header := ⟨0, 3, 0, 0⟩, store := .empty, roots := [Hash.zero],
        limits := .standard }
    let t := opened.2.after bodies
    [Hash.zero].length ≤ 7 ∧
    (∀ body ∈ bodies, continues body = true) ∧
    t.missing = [Hash.zero] ∧
    (t.step [1, 3]).1 = .ok (.finished [1, 2, 3]) ∧
    (t.step [1, 3]).2.stage = .done := by
  intro bodies opened t
  have hbodies : ∀ body ∈ bodies, continues body = true := by decide
  obtain ⟨_, _, hmissing, hmove, _⟩ :=
    answers_by_history ⟨0, 3, 0, 0⟩ .empty [Hash.zero] .standard (by decide)
      bodies hbodies [1, 3]
  have hpast : heard bodies =
      [.accumulate [1, 2], .getChunk Hash.zero, .putChunk [9]] := by decide
  have hmissed : missed .empty (heard bodies) = [Hash.zero] := by
    rw [hpast]
    simp [missed, served, pushed?, List.zipIdx_cons]
  refine ⟨by decide, hbodies, hmissing.trans hmissed, ?_, hmove.2.1⟩
  rw [hmove.1, hpast]
  rfl

end Transfer
end Courier
