import Courier.Proofs.Signer.Turns
import Courier.Proofs.Store.Linking
import Courier.Proofs.Transfer.Loop

/-!
# How an operation leaves a signing application

A transfer that the host does not give up on its own ends with an application that
rests: its device is idle and no instruction is set.  A transfer that finds a device in
the middle of an operation is refused with its opening, and then the application rests
as well.  What a resting application does depends on nothing that went before.

* `Failure.isGivenUp`: the failures with which the host gives up on its own.
* `Signer.Resting`, `Signer.rests_or_says`: what one exchange leaves.
* `Signer.rests_after_run`: what a transfer leaves.
* `Signer.run_on_busy`: a transfer with a device that is busy.
* `Signer.Resembles`, `Signer.alike_resembling`: the number of exchanges so far has no
  part in the answers.
-/

namespace Courier

/-- The host gives an operation up on its own: a budget is used up, or there is
something that it cannot send. -/
def Failure.isGivenUp : Failure → Bool
  | .roundLimit _ => true
  | .timeout _ => true
  | .encoding _ => true
  | _ => false

theorem Limits.isGivenUp_of_refusal {limits : Limits} {deadline now round : Nat}
    {body : Bytes} {e : Failure}
    (h : limits.refusal deadline now round body = some e) : e.isGivenUp = true := by
  rcases refusal_cases h with rfl | rfl | ⟨_, rfl⟩
  · rfl
  · rfl
  · rfl

/-- A transfer for an instruction that is yet to be opened. -/
structure Transfer.IsNew (t : Transfer) (ins : Instruction) : Prop where
  stage : t.stage = .sending
  roots : t.roots.length ≤ 7
  answered : t.unansweredMiss = none
  header : t.header = ins.header

/-- Up to seven payloads make a new transfer. -/
theorem Transfer.exists_isNew {size : Nat} (hsize : 0 < size) {payloads : List Bytes}
    (hpayloads : payloads.length ≤ 7) (ins : Instruction) (limits : Limits) :
    ∃ t, ofPayloads ins.header payloads size limits = .ok t ∧ t.IsNew ins := by
  refine ⟨_, ofPayloads_eq hsize ins.header payloads limits, rfl, ?_, rfl, rfl⟩
  rw [List.length_map]
  exact hpayloads

/-- Every message but the last fragment gets a reply. -/
theorem Transfer.conclusion_of_message {t : Transfer} {m : PeerMessage}
    (hstage : t.stage = .awaitingPeer) (hm : m.isFinal = false) :
    t.conclusion (.ok m.encode) = none := by
  have hstep := step_of_message hstage (PeerMessage.decode_encode m)
  cases m with
  | final fragment => cases hm
  | accumulate fragment => simp only [conclusion, hstep, dispatch]
  | putChunk chunk => simp only [conclusion, hstep, dispatch]
  | getChunk hash =>
      cases hstored : t.store.get? hash with
      | none => simp only [conclusion, hstep, dispatch, hstored]
      | some chunk => simp only [conclusion, hstep, dispatch, hstored]

/-- A device in the middle of an operation refuses an opening. -/
theorem Peer.handle_start_of_busy {p : Peer} (app : Application)
    (hbusy : p.isIdle = false) (roots : List Hash) :
    p.handle app (HostMessage.start roots).encode = p.abort Status.badState := by
  rw [handle, HostMessage.decode_encode]
  cases hphase : p.phase with
  | idle =>
      rw [isIdle_iff.mpr hphase] at hbusy
      cases hbusy
  | pulling roots' index expecting slices finished => rfl
  | pushing payloads => rfl
  | verifying payloads hash => rfl
  | emitting output offset => rfl

namespace Signer

/-- The device is idle, and no instruction is set. -/
def Resting (s : Signer) : Prop :=
  s.peer.isIdle = true ∧ s.running = none

variable {s : Signer} {request : Request} {ins : Instruction}

theorem resting_after {turn : Turn} (hidle : turn.peer.isIdle = true) :
    (s.after ins turn).Resting :=
  ⟨hidle, if_pos hidle⟩

/-- An exchange for an instruction leaves an application that rests, or the device has
said something and waits. -/
theorem rests_or_says (hmode : s.mode = .blocks) (hheader : request.header = ins.header) :
    (s.answer request).2.Resting ∨
      ∃ m : PeerMessage, (s.answer request).1 = .ok m.encode ∧ m.isFinal = false := by
  have hexchanges := s.exchanges_answer hmode request
  generalize s.answer request = answered at hexchanges
  cases hexchanges with
  | foreign hstatus hforeign hturn => exact absurd hheader (hforeign ins)
  | interrupts hheader' hbusy hother hturn => exact Or.inl ⟨rfl, rfl⟩
  | turns hheader' hfree hmoves hturn =>
      cases hmoves.settles with
      | refused status hresponse hidle => exact Or.inl (resting_after hidle)
      | said m hresponse hidle =>
          cases hfinal : m.isFinal with
          | true =>
              rw [hfinal] at hidle
              exact Or.inl (resting_after hidle)
          | false => exact Or.inr ⟨m, hresponse, hfinal⟩

/-- An opening that finds the device busy is refused, and the application rests. -/
theorem answer_of_busy (hmode : s.mode = .blocks) (hbusy : s.peer.isIdle = false)
    (ins : Instruction) (roots : List Hash) :
    let answered := s.answer ⟨ins.header, (HostMessage.start roots).encode⟩
    answered.1 = .error (Failure.refusal Status.badState) ∧ answered.2.Resting := by
  intro answered
  by_cases hrunning : s.running = some ins.code
  · have hanswer : answered = _ := answer_of_free hmode rfl (Or.inr hrunning)
    rw [hanswer, Peer.handle_start_of_busy _ hbusy]
    exact ⟨rfl, resting_after rfl⟩
  · have hanswer : answered = _ := answer_of_other hmode rfl hbusy hrunning
    rw [hanswer]
    exact ⟨rfl, rfl, rfl⟩

section Run

variable {readings : Nat → Nat} {t : Transfer}

/-- What an exchange with a reply keeps while a transfer for an instruction lasts. -/
theorem waiting_invariant (ins : Instruction) (readings : Nat → Nat) :
    Transfer.Invariant (channel.beside readings).logged fun t _ s =>
      t.stage = .awaitingPeer ∧ t.header = ins.header ∧ s.1.1.mode = .blocks := by
  constructor
  · rintro t body s h
    exact h
  · rintro t t' body response s m reply ⟨hstage, hheader, hmode⟩ _ _ _ hanswers
    have hconfig := sameConfig_answer s.1.1 ⟨t.header, body⟩
    refine ⟨?_, ?_, hconfig.mode.trans hmode⟩
    · cases hanswers <;> exact hstage
    · cases hanswers <;> exact hheader

/-- **What a transfer leaves.**  The host has given up on its own, or the application
rests. -/
theorem rests_after_run (ht : t.IsNew ins) {s : Signer × Nat}
    (hmode : s.1.mode = .blocks) :
    let played := t.run.run (channel.beside readings).logged (s, [])
    (∃ e, played.1 = .error e ∧ e.isGivenUp = true) ∨ played.2.1.1.Resting := by
  intro played
  obtain ⟨t', body, s', ⟨hstage', hheader', hmode'⟩, _, hending⟩ :=
    (waiting_invariant ins readings).run (s := (s, [])) ht.stage ht.roots
      ⟨rfl, ht.header, hmode⟩
  rcases hending.cases with ⟨_, _, e, hrefusal, hplayed⟩ | ⟨_, hend, hplayed⟩
  · exact Or.inl ⟨e, congrArg Prod.fst hplayed, Limits.isGivenUp_of_refusal hrefusal⟩
  · right
    have hsigner : played.2.1.1 = (s'.1.1.answer ⟨t'.header, body⟩).2 :=
      congrArg (·.1.1) hplayed
    rw [hsigner]
    have hleaves : (s'.1.1.answer ⟨t'.header, body⟩).2.Resting ∨ _ :=
      rests_or_says hmode' hheader'
    rcases hleaves with hrests | ⟨m, hsaid, hm⟩
    · exact hrests
    · -- a message that is not the last one does not end the transfer
      have hnone := Transfer.conclusion_of_message hstage' hm
      rw [← hsaid] at hnone
      cases hnone.symm.trans hend

/-- **A transfer with a device that is busy** makes no exchange, or one, in which it is
refused; then the application rests. -/
theorem run_on_busy (ht : t.IsNew ins) {s : Signer × Nat} (hmode : s.1.mode = .blocks)
    (hbusy : s.1.peer.isIdle = false) :
    let played := t.run.run (channel.beside readings).logged (s, [])
    played.2.2 ≠ [] →
      played.2.2.length = 1 ∧ played.1 = .error (.peer Status.badState []) ∧
      played.2.1.1.Resting := by
  intro played hexchange
  let waiting : Transfer := { t with stage := .awaitingPeer }
  let opening := (HostMessage.start t.roots).encode
  let later := ((channel.beside readings).logged.time (s, [])).2
  have hplayed : played = (Transfer.play (readings s.2 + t.limits.timeout)
      (waiting.limits.maxRounds - waiting.rounds) waiting opening).run
        (channel.beside readings).logged later := by
    change t.run.run _ _ = _
    rw [Transfer.run, Dialogue.run_clock, Transfer.start_of_sending ht.stage ht.roots]
    rfl
  obtain ⟨hrefused, hrests⟩ := answer_of_busy hmode hbusy ins t.roots
  rw [← ht.header] at hrefused hrests
  cases hrefusal : waiting.limits.refusal (readings s.2 + t.limits.timeout)
      ((channel.beside readings).logged.time later).1 waiting.rounds opening with
  | some e =>
      -- then nothing has been sent
      rw [hplayed, Transfer.play_of_refusal _ _ hrefusal] at hexchange
      refine absurd ?_ hexchange
      dsimp only
      split_ifs <;> rfl
  | none =>
      have hend : waiting.conclusion ((channel.beside readings).logged.answer
          ((channel.beside readings).logged.time later).2
          ⟨waiting.header, opening⟩).1 = some (.error (.peer Status.badState [])) := by
        change waiting.conclusion (s.1.answer ⟨t.header, opening⟩).1 = _
        rw [hrefused]
        simp only [Transfer.conclusion, waiting, ht.answered]
        rfl
      rw [hplayed, Transfer.play_of_conclusion _ _ hrefusal hend]
      exact ⟨rfl, rfl, hrests⟩

end Run

/-- The number of exchanges so far has no part in an answer. -/
theorem answer_counting (s : Signer) (n : Nat) (request : Request) :
    { s with exchanges := n }.answer request =
      ((s.answer request).1, { (s.answer request).2 with exchanges := n + 1 }) := by
  unfold answer
  dsimp only
  split_ifs
  · rfl
  · rfl
  · cases Instruction.ofCode request.header.ins with
    | error e => rfl
    | ok ins =>
        cases s.mode with
        | simple => rfl
        | blocks =>
            dsimp only [answerBlocks]
            split_ifs <;> rfl

/-- Two applications beside their clocks differ in nothing but the number of exchanges
so far. -/
def Resembles (s t : Signer × Nat) : Prop :=
  s = ({ t.1 with exchanges := s.1.exchanges }, t.2)

/-- What they do is the same. -/
theorem alike_resembling (readings : Nat → Nat) :
    Channel.Alike (fun _ => True) Resembles (channel.beside readings)
      (channel.beside readings) := by
  constructor
  · rintro s t request h _
    rw [h]
    simp only [Channel.beside, channel, answer_counting]
    exact ⟨trivial, rfl⟩
  · rintro s t h
    rw [h]
    exact ⟨rfl, rfl⟩

end Signer
end Courier
