import Courier.Device.Signer
import Courier.Proofs.Device.Moves
import Courier.Proofs.Dialogue.Alike

/-!
# The exchanges of a signing application

An exchange with a signing application that works through block transfers comes to
one of three things.  The header is not that of an instruction, and nothing changes
but the count.  The command belongs to another instruction than the operation under
way, which is given up.  Or the device has a turn.

* `Signer.turn?`: the turn of the device in an exchange, if the command gets so far.
* `Signer.Exchanges` lists the three, and `Signer.exchanges_answer` says that the list
  is complete.
* `Signer.answer_of_turn` and `Signer.peer_of_no_turn`: what the turn, or its absence,
  makes of the application.
* `Signer.answer_simple`: the answer to a plain frame.
* `Signer.SameConfig`: what no exchange changes.
-/

namespace Courier

namespace Instruction

theorem ofCode_eq_ok_iff {code : UInt8} {ins : Instruction} :
    ofCode code = .ok ins ↔ code = ins.code := by
  constructor
  · intro h
    unfold ofCode at h
    split_ifs at h with h0 h1 h2 h3
    · obtain rfl := Except.ok.inj h
      exact h0
    · obtain rfl := Except.ok.inj h
      exact h1
    · obtain rfl := Except.ok.inj h
      exact h2
    · obtain rfl := Except.ok.inj h
      exact h3
  · rintro rfl
    exact ofCode_code ins

theorem code_injective {i j : Instruction} (h : i.code = j.code) : i = j := by
  have hcode := ofCode_eq_ok_iff.mpr h
  rw [ofCode_code] at hcode
  exact Except.ok.inj hcode

end Instruction

namespace Signer

/-- The application after one more exchange, in which nothing else changes. -/
def counted (s : Signer) : Signer :=
  { s with exchanges := s.exchanges + 1 }

/-- The turn of the device in an exchange, with the instruction for which it answers,
if the command gets so far: its header is that of an instruction, and no operation of
another instruction is under way. -/
def turn? (s : Signer) (request : Request) : Option (Instruction × Turn) :=
  match Instruction.ofCode request.header.ins with
  | .error _ => none
  | .ok ins =>
      if request.header = ins.header ∧
          (s.peer.isIdle = true ∨ s.running = some ins.code) then
        some (ins, s.peer.handle (perform s.approves ins) request.body)
      else none

/-- The application after a turn of the device for an instruction. -/
def after (s : Signer) (ins : Instruction) (turn : Turn) : Signer :=
  { s.counted with
    peer := turn.peer
    running := if turn.peer.isIdle then none else some ins.code }

/-- The statuses with which a header is refused. -/
def headerStatuses : List Status :=
  [Status.claNotSupported, Status.wrongP1P2, Status.insNotSupported]

variable {s : Signer} {request : Request} {ins : Instruction}

theorem turn?_of_foreign (hheader : ∀ ins : Instruction, request.header ≠ ins.header) :
    s.turn? request = none := by
  unfold turn?
  cases Instruction.ofCode request.header.ins with
  | error e => rfl
  | ok ins => exact if_neg fun h => hheader ins h.1

theorem turn?_of_header (hheader : request.header = ins.header) :
    s.turn? request =
      if s.peer.isIdle = true ∨ s.running = some ins.code then
        some (ins, s.peer.handle (perform s.approves ins) request.body)
      else none := by
  have hcode : Instruction.ofCode ins.header.ins = .ok ins :=
    Instruction.ofCode_code ins
  simp only [turn?, hheader, hcode, true_and]

/-- A header that is not that of an instruction is refused, and nothing changes. -/
theorem answer_of_foreign
    (hheader : ∀ ins : Instruction, request.header ≠ ins.header) :
    ∃ status ∈ headerStatuses,
      s.answer request = (.error (Failure.refusal status), s.counted) := by
  rcases request with ⟨⟨cla, code, p1, p2⟩, body⟩
  unfold answer
  dsimp only
  split_ifs with hcla hparameters
  · exact ⟨_, by simp [headerStatuses], rfl⟩
  · exact ⟨_, by simp [headerStatuses], rfl⟩
  · cases hcode : Instruction.ofCode code with
    | error e => exact ⟨Status.insNotSupported, by simp [headerStatuses], rfl⟩
    | ok ins =>
        obtain rfl := Instruction.ofCode_eq_ok_iff.mp hcode
        push Not at hcla hparameters
        obtain ⟨rfl, rfl⟩ := hparameters
        subst hcla
        exact absurd rfl (hheader ins)

/-- A command of an instruction goes to the payloads in the way of the mode. -/
theorem answer_of_header (hheader : request.header = ins.header) :
    s.answer request =
      match s.mode with
      | .simple => (s.counted.answerPlain ins request.body, s.counted)
      | .blocks => s.counted.answerBlocks ins ins.code request.body := by
  have hcode : Instruction.ofCode ins.header.ins = .ok ins :=
    Instruction.ofCode_code ins
  unfold answer
  dsimp only
  rw [hheader, hcode]
  rfl

theorem answer_simple (hmode : s.mode = .simple) (hheader : request.header = ins.header) :
    s.answer request = (s.counted.answerPlain ins request.body, s.counted) := by
  rw [answer_of_header hheader, hmode]

/-- What an exchange comes to in block transfers: the response and the application
after it. -/
inductive Exchanges (s : Signer) (request : Request) : Response × Signer → Prop
  | foreign {status : Status} (hstatus : status ∈ headerStatuses)
      (hheader : ∀ ins : Instruction, request.header ≠ ins.header)
      (hturn : s.turn? request = none) :
      Exchanges s request (.error (Failure.refusal status), s.counted)
  | interrupts {ins : Instruction} (hheader : request.header = ins.header)
      (hbusy : s.peer.isIdle = false) (hother : s.running ≠ some ins.code)
      (hturn : s.turn? request = none) :
      Exchanges s request
        (.error (Failure.refusal Status.badState),
          { s.counted with peer := s.peer.reset, running := none })
  | turns {ins : Instruction} {turn : Turn} (hheader : request.header = ins.header)
      (hfree : s.peer.isIdle = true ∨ s.running = some ins.code)
      (hmoves : s.peer.Moves (perform s.approves ins) request.body s.peer.phase turn)
      (hturn : s.turn? request = some (ins, turn)) :
      Exchanges s request (turn.response, s.after ins turn)

/-- The command of an instruction, with the device free for it. -/
theorem answer_of_free (hmode : s.mode = .blocks) (hheader : request.header = ins.header)
    (hfree : s.peer.isIdle = true ∨ s.running = some ins.code) :
    let turn := s.peer.handle (perform s.approves ins) request.body
    s.answer request = (turn.response, s.after ins turn) := by
  have hpass : ¬ ((!s.counted.peer.isIdle &&
      decide (s.counted.running ≠ some ins.code)) = true) := by
    rcases hfree with hidle | hrunning
    · simp [counted, hidle]
    · simp [counted, hrunning]
  simp only [answer_of_header hheader, hmode, answerBlocks, if_neg hpass]
  rfl

/-- The command of another instruction than the one under way. -/
theorem answer_of_other (hmode : s.mode = .blocks) (hheader : request.header = ins.header)
    (hbusy : s.peer.isIdle = false) (hother : s.running ≠ some ins.code) :
    s.answer request =
      (.error (Failure.refusal Status.badState),
        { s.counted with peer := s.peer.reset, running := none }) := by
  have hstop : (!s.counted.peer.isIdle &&
      decide (s.counted.running ≠ some ins.code)) = true := by
    simp [counted, hbusy, hother]
  simp only [answer_of_header hheader, hmode, answerBlocks, if_pos hstop]
  rfl

/-- Every exchange in block transfers is one of the three. -/
theorem exchanges_answer (hmode : s.mode = .blocks) (request : Request) :
    s.Exchanges request (s.answer request) := by
  by_cases hforeign : ∀ ins : Instruction, request.header ≠ ins.header
  · obtain ⟨status, hstatus, hanswer⟩ := answer_of_foreign (s := s) hforeign
    rw [hanswer]
    exact .foreign hstatus hforeign (turn?_of_foreign hforeign)
  · push Not at hforeign
    obtain ⟨ins, hheader⟩ := hforeign
    by_cases hfree : s.peer.isIdle = true ∨ s.running = some ins.code
    · rw [answer_of_free hmode hheader hfree]
      refine .turns hheader hfree (Peer.moves_handle _ _ _) ?_
      rw [turn?_of_header hheader, if_pos hfree]
    · have hturn : s.turn? request = none := by
        rw [turn?_of_header hheader, if_neg hfree]
      push Not at hfree
      obtain ⟨hbusy, hother⟩ := hfree
      rw [answer_of_other hmode hheader (by simpa using hbusy) hother]
      exact .interrupts hheader (by simpa using hbusy) hother hturn

/-- The turn of the device decides the exchange. -/
theorem answer_of_turn (hmode : s.mode = .blocks) {turn : Turn}
    (hturn : s.turn? request = some (ins, turn)) :
    s.answer request = (turn.response, s.after ins turn) := by
  have hexchanges := s.exchanges_answer hmode request
  generalize s.answer request = answered at hexchanges
  cases hexchanges with
  | foreign hstatus hheader hnone => cases hnone.symm.trans hturn
  | interrupts hheader hbusy hother hnone => cases hnone.symm.trans hturn
  | turns hheader hfree hmoves hsome =>
      obtain ⟨rfl, rfl⟩ := Prod.mk.inj (Option.some.inj (hsome.symm.trans hturn))
      rfl

/-- Without a turn the device stays as it is, or it drops its operation. -/
theorem peer_of_no_turn (hmode : s.mode = .blocks) (hturn : s.turn? request = none) :
    (s.answer request).2.peer = s.peer ∨ (s.answer request).2.peer = s.peer.reset := by
  have hexchanges := s.exchanges_answer hmode request
  generalize s.answer request = answered at hexchanges
  cases hexchanges with
  | foreign hstatus hheader hnone => exact Or.inl rfl
  | interrupts hheader hbusy hother hnone => exact Or.inr rfl
  | turns hheader hfree hmoves hsome => cases hsome.symm.trans hturn

/-- Two applications are set up alike: the same mode, fragments, pushed chunk and
approval. -/
structure SameConfig (s t : Signer) : Prop where
  mode : s.mode = t.mode
  fragmentSize : s.peer.fragmentSize = t.peer.fragmentSize
  push : s.peer.push = t.peer.push
  approves : s.approves = t.approves

theorem SameConfig.trans {s t u : Signer} (h : s.SameConfig t) (h' : t.SameConfig u) :
    s.SameConfig u :=
  ⟨h.mode.trans h'.mode, h.fragmentSize.trans h'.fragmentSize, h.push.trans h'.push,
    h.approves.trans h'.approves⟩

/-- No exchange changes how the application is set up. -/
theorem sameConfig_answer (s : Signer) (request : Request) :
    (s.answer request).2.SameConfig s := by
  cases hmode : s.mode with
  | blocks =>
      have hexchanges := s.exchanges_answer hmode request
      generalize s.answer request = answered at hexchanges
      cases hexchanges with
      | foreign hstatus hheader hturn => exact ⟨rfl, rfl, rfl, rfl⟩
      | interrupts hheader hbusy hother hturn => exact ⟨rfl, rfl, rfl, rfl⟩
      | @turns ins turn hheader hfree hmoves hturn =>
          have hfragmentSize := congrArg Peer.fragmentSize hmoves.config
          have hpush := congrArg Peer.push hmoves.config
          exact ⟨rfl, hfragmentSize, hpush, rfl⟩
  | simple =>
      by_cases hforeign : ∀ ins : Instruction, request.header ≠ ins.header
      · obtain ⟨status, _, hanswer⟩ := answer_of_foreign (s := s) hforeign
        rw [hanswer]
        exact ⟨rfl, rfl, rfl, rfl⟩
      · push Not at hforeign
        obtain ⟨ins, hheader⟩ := hforeign
        rw [answer_simple hmode hheader]
        exact ⟨rfl, rfl, rfl, rfl⟩

end Signer
end Courier
