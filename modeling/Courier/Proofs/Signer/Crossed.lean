import Courier.Proofs.Device.PlainFrames
import Courier.Proofs.Signer.Payloads
import Courier.Proofs.Signer.Resting
import Courier.Proofs.Signer.Sessions

/-!
# An application in another mode than its host

An application for plain frames answers the bodies of a block transfer as if each were a
whole payload; no such answer is read as the last message of a transfer.  An application
for block transfers hands plain frames to its device, one after another.

* `Signer.answer_plain_cases`, `Signer.isFinal_of_plain`: plain answers, and how they are
  read.
* `Signer.run_on_plain`: a transfer with an application for plain frames.
* `Signer.run_sendAll`, `Signer.serve_plain`: plain frames on a device.
-/

namespace Courier

namespace Signer

variable {s : Signer} {ins : Instruction} {readings : Nat → Nat}

theorem exists_keyBytes_of_performKey {needsApproval approves : Bool} {payloads : List Bytes}
    {output : Bytes} (h : performKey needsApproval approves payloads = .ok output) :
    ∃ path, output = keyBytes path := by
  cases payloads with
  | nil => cases h
  | cons path rest =>
      simp only [performKey] at h
      split_ifs at h
      exact ⟨path, (Except.ok.inj h).symm⟩

/-- A plain answer is a version or a key. -/
theorem answer_plain_cases (hmode : s.mode = .simple) {request : Request} {response : Bytes}
    (h : (s.answer request).1 = .ok response) :
    response = versionBytes ∨ ∃ path, response = keyBytes path := by
  by_cases hforeign : ∀ ins : Instruction, request.header ≠ ins.header
  · obtain ⟨status, _, hanswer⟩ := answer_of_foreign (s := s) hforeign
    rw [hanswer] at h
    cases h
  · push Not at hforeign
    obtain ⟨ins, hheader⟩ := hforeign
    rw [answer_simple hmode hheader] at h
    by_cases hsign : ins = .signTx
    · rw [hsign] at h
      cases h
    · rw [answerPlain_eq hsign] at h
      cases hperform : perform s.counted.approves ins [request.body] with
      | error status =>
          simp only [hperform] at h
          cases h
      | ok output =>
          simp only [hperform] at h
          obtain rfl := Except.ok.inj h
          cases ins with
          | getVersion => exact Or.inl (Except.ok.inj hperform).symm
          | verifyAddress =>
              rw [perform] at hperform
              exact Or.inr (exists_keyBytes_of_performKey hperform)
          | getPublicKey =>
              rw [perform] at hperform
              exact Or.inr (exists_keyBytes_of_performKey hperform)
          | signTx => exact absurd rfl hsign

/-- Read as a message, a plain answer is never the last one. -/
theorem isFinal_of_plain (hmode : s.mode = .simple) {request : Request} {response : Bytes}
    (h : (s.answer request).1 = .ok response) {m : PeerMessage}
    (hdecode : PeerMessage.decode response = .ok m) : m.isFinal = false := by
  rcases answer_plain_cases hmode h with rfl | ⟨path, rfl⟩
  · obtain rfl := Except.ok.inj hdecode
    rfl
  · -- a key starts with its length, which is no tag
    rw [keyBytes, Field.encodeCounted, length_publicKey] at hdecode
    cases hdecode

/-- What a round with a reply keeps while the application answers in the plain way. -/
theorem plain_invariant (readings : Nat → Nat) :
    Transfer.Invariant (channel.beside readings) fun t _ s =>
      t.stage = .awaitingPeer ∧ s.1.mode = .simple := by
  constructor
  · rintro t body s h
    exact h
  · rintro t t' body response s m reply ⟨hstage, hmode⟩ _ _ _ hanswers
    have hconfig := sameConfig_answer s.1 ⟨t.header, body⟩
    refine ⟨?_, hconfig.mode.trans hmode⟩
    cases hanswers <;> exact hstage

/-- A block transfer comes to no end with an application for plain frames. -/
theorem run_on_plain {t : Transfer} (ht : t.IsNew ins) {s : Signer × Nat}
    (hmode : s.1.mode = .simple) :
    ∃ e, (t.run.run (channel.beside readings) s).1 = .error e := by
  obtain ⟨t', body, s', ⟨hstage, hmode'⟩, _, hending⟩ :=
    (plain_invariant readings).run ht.stage ht.roots ⟨rfl, hmode⟩
  rcases hending.cases with ⟨_, _, e, _, hplayed⟩ | ⟨_, hend, _⟩
  · exact ⟨e, congrArg Prod.fst hplayed⟩
  · cases hplayed : (t.run.run (channel.beside readings) s).1 with
    | error e => exact ⟨e, rfl⟩
    | ok result =>
        rw [hplayed] at hend
        obtain ⟨response, fragment, hanswer, hdecode, _⟩ :=
          Transfer.final_of_conclusion_eq_ok hend
        cases isFinal_of_plain hmode' hanswer hdecode

/-- The frames of a host reach the device as bodies, one after another. -/
theorem run_sendAll (ins : Instruction) (readings : Nat → Nat) {last : Bytes}
    {frames : List Bytes} {s : Signer × Nat} (hmode : s.1.mode = .blocks)
    (hfree : s.1.peer.isIdle = true ∨ s.1.running = some ins.code) :
    ((Frames.sendAll ins.header last frames).run (channel.beside readings) s).1 =
      s.1.peer.handleAll (perform s.1.approves ins) last frames := by
  induction frames generalizing s last with
  | nil => rfl
  | cons frame rest ih =>
      have hanswer : s.1.answer ⟨ins.header, frame⟩ = _ := answer_of_free hmode rfl hfree
      simp only [Frames.sendAll, Dialogue.run_ask, Channel.beside, channel, hanswer]
      cases hresponse :
          (s.1.peer.handle (perform s.1.approves ins) frame).response with
      | error e =>
          rw [Peer.handleAll_of_refusal hresponse]
          rfl
      | ok response =>
          rw [Peer.handleAll_of_response hresponse]
          -- the device is idle again, or the instruction stays set
          refine ih (s := (s.1.after ins _, s.2)) hmode ?_
          simp only [after]
          split_ifs with hidle
          · exact Or.inl hidle
          · exact Or.inr rfl

/-- Payloads that a client sends in plain frames to an application for block transfers. -/
theorem serve_plain (ins : Instruction) {settings : Settings}
    (hframe : 0 < settings.maxFrame) (hmode : s.mode = .blocks)
    (hidle : s.peer.isIdle = true) (payloads : List Bytes) :
    (s.serve readings (Client.send ⟨settings, .simple⟩ ins payloads)).1 =
      s.peer.handleAll (perform s.approves ins) []
        (Frames.cut settings.maxFrame payloads) := by
  have hsend : Client.send ⟨settings, .simple⟩ ins payloads =
      Frames.sendAll ins.header [] (Frames.cut settings.maxFrame payloads) :=
    if_neg (Nat.ne_of_gt hframe)
  rw [serve, hsend]
  exact run_sendAll ins readings hmode (Or.inl hidle)

end Signer
end Courier
