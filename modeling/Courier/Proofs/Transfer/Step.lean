import Courier.Transfer
import Courier.Proofs.Message.Codec

/-!
# What one message does to a transfer

One lemma for each thing that can happen when a response comes in: the transfer
does not wait for one, the response is no message, or it is one of the four
messages of the peer.  Later modules use these and leave `step` closed.

* `Transfer.step_of_idle`, `Transfer.step_of_error`, `Transfer.step_of_message`.
* `Transfer.Answers` lists the ways in which a message is answered with a reply,
  and `Transfer.answers_of_step` reads a step backwards.
* `Transfer.after` is the transfer after several responses.
* `Transfer.start_of_sending`: what opening a transfer does.
* `Transfer.step_counting`: the count of rounds has no part in the answers.
-/

namespace Courier

/-- Says whether a message ends the transfer. -/
def PeerMessage.isFinal : PeerMessage → Bool
  | .final _ => true
  | _ => false

namespace Transfer

/-- The transfer after several responses. -/
def after (t : Transfer) (responses : List Bytes) : Transfer :=
  responses.foldl (fun t response => (t.step response).2) t

@[simp] theorem after_nil (t : Transfer) : t.after [] = t := by
  rfl

@[simp] theorem after_cons (t : Transfer) (response : Bytes)
    (rest : List Bytes) :
    t.after (response :: rest) = (t.step response).2.after rest := by
  rfl

theorem after_snoc (t : Transfer) (responses : List Bytes)
    (response : Bytes) :
    t.after (responses ++ [response]) =
      ((t.after responses).step response).2 := by
  simp [after, List.foldl_append]

variable {t : Transfer} {response : Bytes}

/-- A response that is not waited for is refused, and changes nothing. -/
theorem step_of_idle (hstage : t.stage ≠ .awaitingPeer) :
    t.step response = (.error (.protocol (.responseIn t.stage)), t) := by
  rw [step, if_neg hstage]

/-- A response that is no message ends the transfer. -/
theorem step_of_error {e : Failure} (hstage : t.stage = .awaitingPeer)
    (hdecode : PeerMessage.decode response = .error e) :
    t.step response =
      (.error e,
        { t with stage := .failed, fragments := [], unansweredMiss := none }) := by
  simp only [step, hstage, if_true, hdecode, fail]
  cases e <;> rfl

/-- A message is answered, with no miss outstanding. -/
theorem step_of_message {m : PeerMessage} (hstage : t.stage = .awaitingPeer)
    (hdecode : PeerMessage.decode response = .ok m) :
    t.step response =
      (.ok ({ t with unansweredMiss := none }.dispatch m).1,
        ({ t with unansweredMiss := none }.dispatch m).2) := by
  simp only [step, hstage, if_true, hdecode]

/-- The ways in which a message is answered with a reply, and the transfer after
it. -/
inductive Answers (t : Transfer) : PeerMessage → HostMessage → Transfer → Prop
  | accumulated (fragment : Bytes) :
      Answers t (.accumulate fragment) .accumulateAck
        { t with fragments := fragment :: t.fragments, unansweredMiss := none }
  | served {hash : Hash} {chunk : Bytes} (hstored : t.store.get? hash = some chunk) :
      Answers t (.getChunk hash) (.chunkFound chunk)
        { t with unansweredMiss := none }
  | missed {hash : Hash} (habsent : t.store.get? hash = none) :
      Answers t (.getChunk hash) .chunkNotFound
        { t with missing := t.missing ++ [hash], unansweredMiss := some hash }
  | stored (chunk : Bytes) :
      Answers t (.putChunk chunk) .putChunkAck
        { t with store := t.store.put chunk, unansweredMiss := none }

/-- A reply answers a message that was waited for. -/
theorem answers_of_step {reply : HostMessage}
    (h : (t.step response).1 = .ok (.reply reply)) :
    t.stage = .awaitingPeer ∧ ∃ m, PeerMessage.decode response = .ok m ∧
      t.Answers m reply (t.step response).2 := by
  have hstage : t.stage = .awaitingPeer := by
    by_contra hidle
    rw [step_of_idle hidle] at h
    cases h
  refine ⟨hstage, ?_⟩
  cases hdecode : PeerMessage.decode response with
  | error e =>
      rw [step_of_error hstage hdecode] at h
      cases h
  | ok m =>
      refine ⟨m, rfl, ?_⟩
      rw [step_of_message hstage hdecode] at h ⊢
      cases m with
      | accumulate fragment =>
          cases h
          exact .accumulated fragment
      | final fragment => cases h
      | putChunk chunk =>
          cases h
          exact .stored chunk
      | getChunk hash =>
          cases hstored : t.store.get? hash with
          | some chunk =>
              simp only [dispatch, hstored] at h ⊢
              cases h
              exact .served hstored
          | none =>
              simp only [dispatch, hstored] at h ⊢
              cases h
              exact .missed hstored

/-- Every message but the last fragment leaves the transfer waiting. -/
theorem stage_dispatch (t : Transfer) (m : PeerMessage) :
    (t.dispatch m).2.stage = if m.isFinal then .done else t.stage := by
  cases m with
  | accumulate fragment => rfl
  | final fragment => rfl
  | putChunk chunk => rfl
  | getChunk hash =>
      simp only [dispatch]
      split <;> rfl

/-- A transfer that has ended stays as it is. -/
theorem after_of_idle (hstage : t.stage ≠ .awaitingPeer)
    (responses : List Bytes) : t.after responses = t := by
  induction responses with
  | nil => rfl
  | cons response rest ih => rw [after_cons, step_of_idle hstage, ih]

/-- The opening body fits a frame exactly when there are at most seven roots. -/
theorem maxBody_lt_start_iff (roots : List Hash) :
    Frame.maxBody < (HostMessage.start roots).encode.length ↔
      7 < roots.length := by
  rw [HostMessage.length_encode_start, Hash.size, Frame.maxBody]
  omega

theorem start_of_sending (hstage : t.stage = .sending)
    (hroots : t.roots.length ≤ 7) :
    t.start =
      (.ok (HostMessage.start t.roots).encode,
        { t with stage := .awaitingPeer }) := by
  have hfits : ¬ Frame.maxBody < (HostMessage.start t.roots).encode.length := by
    rw [maxBody_lt_start_iff]
    omega
  simp only [start, hstage, if_true, if_neg hfits]

theorem start_of_tooMany (hstage : t.stage = .sending)
    (hroots : 7 < t.roots.length) :
    t.start.1 = .error (.encoding (.tooManyRoots t.roots.length)) := by
  have hfits := (maxBody_lt_start_iff t.roots).mpr hroots
  simp only [start, hstage, if_true, if_pos hfits, fail, blame]

theorem start_of_ne_sending (hstage : t.stage ≠ .sending) :
    t.start = (.error (.protocol (.startedIn t.stage)), t) := by
  rw [start, if_neg hstage]

/-- The count of rounds has no part in the answers. -/
theorem step_counting (t : Transfer) (n : Nat) (response : Bytes) :
    { t with rounds := n }.step response =
      ((t.step response).1, { (t.step response).2 with rounds := n }) := by
  by_cases hstage : t.stage = .awaitingPeer
  · cases hdecode : PeerMessage.decode response with
    | error e =>
        rw [step_of_error hstage hdecode, step_of_error (by exact hstage) hdecode]
    | ok m =>
        rw [step_of_message hstage hdecode,
          step_of_message (by exact hstage) hdecode]
        cases m with
        | accumulate fragment => rfl
        | final fragment => rfl
        | putChunk chunk => rfl
        | getChunk hash =>
            simp only [dispatch]
            cases t.store.get? hash <;> rfl
  · rw [step_of_idle hstage, step_of_idle (by exact hstage)]

end Transfer
end Courier
