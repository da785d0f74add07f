import Courier.Proofs.Signer.Turns

/-!
# One operation, one instruction

A signing application gets commands with any headers and any bodies.  Beside it a
record is kept of the operation under way: the commands that have reached the device
since the opening, the calls of the application, and how much of an answer has been
sent.  The instruction is fixed by the opening: no command of another instruction gets
into the record, so whatever is computed and sent is for that instruction.

* `Signer.Record` and `Signer.Watched`: an application with its record.
* `Signer.Record.BoundTo`: the record is that of one operation of an instruction.
* `Signer.Record.Accounts`: what the record says of a turn that goes on;
  `Signer.Record.accounts_emit` for the turns that send a part of an answer.
* `Signer.Watched.Inv`: the invariant of the record, kept by every exchange
  (`inv_observe`) and every run (`inv_watch`).
* `Signer.instruction_is_bound`: what commands can and cannot do.
-/

namespace Courier

/-- The part of an answer that a turn sends. -/
def Turn.fragment (turn : Turn) : Bytes :=
  match turn.response with
  | .error _ => []
  | .ok body => ((PeerMessage.decode body).toOption.bind PeerMessage.portion?).getD []

theorem Turn.fragment_of_said {turn : Turn} {m : PeerMessage}
    (h : turn.response = .ok m.encode) : turn.fragment = m.portion?.getD [] := by
  simp [fragment, h, Except.toOption]

namespace Signer

/-- What the exchanges show of an operation: the commands that have reached the device
from the opening on, the calls of the application, and the answer as far as it has been
sent. -/
structure Record where
  commands : List Request := []
  calls : List (Instruction × List Bytes) := []
  sent : Bytes := []

namespace Record

/-- The record after a turn of the device. -/
def add (r : Record) (request : Request) (ins : Instruction) (turn : Turn) :
    Record where
  commands := r.commands ++ [request]
  calls := r.calls ++ (turn.delivered.map (ins, ·)).toList
  sent := r.sent ++ turn.fragment

/-- The record is that of one operation: it begins with the command that opened it, and
every command is of the instruction. -/
def BoundTo (r : Record) (ins : Instruction) : Prop :=
  ∃ opening rest roots, r.commands = opening :: rest ∧
    HostMessage.decode opening.body = .ok (.start roots) ∧
    ∀ command ∈ r.commands, command.header = ins.header

/-- What is known of the record while the device is in a phase: nothing has been
computed before the payloads are gathered, and then there was one call, and what has
been sent is the front of its output. -/
structure Shows (r : Record) (approves : Bool) (ins : Instruction) (phase : Phase) :
    Prop where
  gathering : phase.gathering = true → r.calls = [] ∧ r.sent = []
  emitting : ∀ output offset, phase = .emitting output offset →
    ∃ payloads, r.calls = [(ins, payloads)] ∧
      perform approves ins payloads = .ok output ∧ r.sent = output.take offset

/-- A message brings the next part of the output of the one call on record, and the
last message the last part. -/
def Sends (r : Record) (approves : Bool) (ins : Instruction) (m : PeerMessage) :
    Prop :=
  ∀ fragment, m.portion? = some fragment → ∃ payloads output,
    r.calls = [(ins, payloads)] ∧ perform approves ins payloads = .ok output ∧
    fragment <:+ r.sent ∧ r.sent <+: output ∧ (m.isFinal = true → r.sent = output)

/-- What the record says of a turn that goes on with the operation. -/
structure Accounts (r : Record) (approves : Bool) (ins : Instruction) (turn : Turn) :
    Prop where
  bound : r.BoundTo ins
  calls : ∀ payloads, turn.delivered = some payloads → r.calls = [(ins, payloads)]
  sends : ∀ m : PeerMessage, turn.response = .ok m.encode → r.Sends approves ins m
  shows : r.Shows approves ins turn.peer.phase

variable {r : Record} {request : Request} {ins : Instruction} {turn : Turn}
variable {approves : Bool}

theorem shows_idle : r.Shows approves ins .idle :=
  ⟨fun h => (by cases h), fun output offset h => (by cases h)⟩

theorem boundTo_opening {roots : List Hash} (hheader : request.header = ins.header)
    (hopens : HostMessage.decode request.body = .ok (.start roots)) :
    (({} : Record).add request ins turn).BoundTo ins := by
  refine ⟨request, [], roots, rfl, hopens, ?_⟩
  intro command hcommand
  rw [List.mem_singleton.mp hcommand]
  exact hheader

theorem BoundTo.add (h : r.BoundTo ins) (hheader : request.header = ins.header) :
    (r.add request ins turn).BoundTo ins := by
  obtain ⟨opening, rest, roots, hcommands, hopens, hall⟩ := h
  refine ⟨opening, rest ++ [request], roots, ?_, hopens, ?_⟩
  · simp [Record.add, hcommands]
  · intro command hcommand
    rcases List.mem_append.mp hcommand with hcommand | hcommand
    · exact hall command hcommand
    · rw [List.mem_singleton.mp hcommand]
      exact hheader

/-- A message that brings a part of the output of the one call. -/
theorem sends_of_fragment {m : PeerMessage} {payloads : List Bytes}
    {output fragment before : Bytes} (hcalls : r.calls = [(ins, payloads)])
    (happ : perform approves ins payloads = .ok output)
    (hm : m.portion? = some fragment) (hsent : r.sent = before ++ fragment)
    (hfront : r.sent <+: output) (hlast : m.isFinal = true → r.sent = output) :
    r.Sends approves ins m := by
  intro fragment' hfragment
  obtain rfl : fragment = fragment' := Option.some.inj (hm.symm.trans hfragment)
  exact ⟨payloads, output, hcalls, happ, ⟨before, hsent.symm⟩, hfront, hlast⟩

/-- A turn that sends the output of the one call from `offset` on. -/
theorem accounts_emit {p : Peer} {output : Bytes} {offset : Nat}
    {payloads : List Bytes} {delivered : Option (List Bytes)}
    (hbound : r.BoundTo ins) (hcalls : r.calls = [(ins, payloads)])
    (happ : perform approves ins payloads = .ok output)
    (hdelivered : ∀ given, delivered = some given → given = payloads)
    (hsent : r.sent = output.take offset ++
      Turn.fragment { p.emit output offset with delivered := delivered }) :
    r.Accounts approves ins { p.emit output offset with delivered := delivered } := by
  have hgiven : ∀ given, delivered = some given → r.calls = [(ins, given)] := by
    intro given hsome
    rw [hdelivered given hsome]
    exact hcalls
  rcases p.emit_cases output offset with ⟨_, hemit⟩ | hemit
  · rw [hemit] at hsent ⊢
    rw [Turn.fragment_of_said rfl] at hsent
    have htaken : r.sent = output.take (offset + p.fragmentSize) := by
      rw [hsent, List.take_add]
      rfl
    refine ⟨hbound, hgiven, fun m hm => ?_, fun h => (by cases h), ?_⟩
    · obtain rfl := PeerMessage.encode_injective (Except.ok.inj hm)
      refine sends_of_fragment hcalls happ rfl hsent ?_ (fun h => (by cases h))
      rw [htaken]
      exact List.take_prefix _ _
    · intro output' offset' hphase
      cases hphase
      exact ⟨payloads, hcalls, happ, htaken⟩
  · rw [hemit] at hsent ⊢
    rw [Turn.fragment_of_said rfl] at hsent
    have hall : r.sent = output := by
      rw [hsent]
      exact List.take_append_drop offset output
    refine ⟨hbound, hgiven, fun m hm => ?_, shows_idle⟩
    obtain rfl := PeerMessage.encode_injective (Except.ok.inj hm)
    refine sends_of_fragment hcalls happ rfl hsent ?_ (fun _ => hall)
    rw [hall]

/-- A turn for an instruction either ends the operation with nothing computed and
nothing sent, or the record accounts for it. -/
theorem accounts_of_moves {p : Peer} (hheader : request.header = ins.header)
    (hmoves : p.Moves (perform approves ins) request.body p.phase turn)
    (hbusy : p.phase ≠ .idle → r.BoundTo ins)
    (hshows : r.Shows approves ins p.phase)
    (hidle : p.phase = .idle → r = {}) :
    ((∃ status, turn.response = .error (Failure.refusal status)) ∧
        turn.peer.phase = .idle ∧ turn.delivered = none) ∨
      (r.add request ins turn).Accounts approves ins turn := by
  -- while the device gathers there is nothing on record but commands
  have hgathers : Peer.Gathers request.body p.phase →
      (r.add request ins turn).BoundTo ins ∧ r.calls = [] ∧ r.sent = [] := by
    rintro (hgathering | ⟨hphase, roots, hopens⟩)
    · have hne : p.phase ≠ .idle := by
        intro hphase
        rw [hphase] at hgathering
        cases hgathering
      obtain ⟨hcalls, hsent⟩ := hshows.gathering hgathering
      exact ⟨(hbusy hne).add hheader, hcalls, hsent⟩
    · rw [hidle hphase]
      exact ⟨boundTo_opening hheader hopens, rfl, rfl⟩
  generalize hphase : p.phase = phase at hmoves hgathers hshows hbusy
  cases hmoves with
  | refuses hstatus => exact Or.inl ⟨⟨_, rfl⟩, rfl, rfl⟩
  | @asks _ later m hgather hm hlater hasks =>
      obtain ⟨hbound, hcalls, hsent⟩ := hgathers hgather
      right
      refine ⟨hbound, fun payloads h => (by cases h), fun m' hm' => ?_, ?_⟩
      · obtain rfl := PeerMessage.encode_injective (Except.ok.inj hm')
        intro fragment hfragment
        rw [hm] at hfragment
        cases hfragment
      · refine ⟨fun _ => ?_, fun output offset h => ?_⟩
        · have hnone : (p.say m later).fragment = [] := by
            rw [Turn.fragment_of_said (m := m) rfl, hm]
            rfl
          simp [add, hcalls, hsent, hnone]
          rfl
        · rw [show later = _ from h] at hlater
          cases hlater
  | @answers _ payloads output hgather happ =>
      obtain ⟨hbound, hcalls, hsent⟩ := hgathers hgather
      right
      refine accounts_emit hbound ?_ happ (fun given h => (Option.some.inj h).symm) ?_
      · simp [add, hcalls]
      · simp [add, hsent]
  | @denies _ payloads status hgather happ =>
      obtain ⟨hbound, hcalls, hsent⟩ := hgathers hgather
      right
      refine ⟨hbound, fun given h => ?_, fun m h => (by cases h), shows_idle⟩
      obtain rfl := Option.some.inj h
      simp [add, hcalls]
  | continues output offset =>
      obtain ⟨payloads, hcalls, happ, hsent⟩ := hshows.emitting output offset rfl
      have hnone : p.emit output offset =
          { p.emit output offset with delivered := none } := by
        rcases p.emit_cases output offset with ⟨_, hemit⟩ | hemit <;> rw [hemit] <;> rfl
      right
      rw [hnone]
      refine accounts_emit ((hbusy nofun).add hheader) ?_ happ nofun ?_
      · simp [add, hcalls]
      · simp [add, hsent]

end Record

/-- An application with the record of its operation. -/
structure Watched where
  signer : Signer
  record : Record := {}

namespace Watched

/-- The record before a turn: a turn of an idle device begins a new one. -/
def earlier (w : Watched) : Record :=
  if w.signer.peer.isIdle then {} else w.record

/-- The application and its record after an exchange.  A command that does not reach
the device is not put on record. -/
def observe (w : Watched) (request : Request) : Watched where
  signer := (w.signer.answer request).2
  record :=
    match w.signer.turn? request with
    | none => w.record
    | some (ins, turn) => w.earlier.add request ins turn

/-- The application and its record after several exchanges. -/
def watch (w : Watched) (requests : List Request) : Watched :=
  requests.foldl observe w

theorem watch_snoc (w : Watched) (requests : List Request) (request : Request) :
    w.watch (requests ++ [request]) = (w.watch requests).observe request := by
  simp [watch, List.foldl_append]

variable {w : Watched} {approves : Bool} {request : Request}

/-- The invariant of a watched application: an instruction is set exactly while the
device is busy, the operation on record is of that instruction, and the record shows
what the device has computed and sent. -/
structure Inv (w : Watched) (approves : Bool) : Prop where
  mode : w.signer.mode = .blocks
  approval : w.signer.approves = approves
  idle : w.signer.peer.phase = .idle → w.signer.running = none
  busy : w.signer.peer.phase ≠ .idle → ∃ ins : Instruction,
    w.signer.running = some ins.code ∧ w.record.BoundTo ins ∧
    w.record.Shows approves ins w.signer.peer.phase

/-- The record before a turn for an instruction that the application is free for. -/
theorem Inv.earlier (h : w.Inv approves) {ins : Instruction}
    (hfree : w.signer.peer.isIdle = true ∨ w.signer.running = some ins.code) :
    (w.signer.peer.phase ≠ .idle → w.earlier.BoundTo ins) ∧
    w.earlier.Shows approves ins w.signer.peer.phase ∧
    (w.signer.peer.phase = .idle → w.earlier = {}) := by
  by_cases hphase : w.signer.peer.phase = .idle
  · have hearlier : w.earlier = {} := if_pos (Peer.isIdle_iff.mpr hphase)
    rw [hphase]
    exact ⟨fun hne => absurd rfl hne, Record.shows_idle, fun _ => hearlier⟩
  · have hbusy : ¬ w.signer.peer.isIdle = true := by
      rwa [Peer.isIdle_iff]
    have hearlier : w.earlier = w.record := if_neg hbusy
    obtain ⟨ins', hrunning, hbound, hshows⟩ := h.busy hphase
    rcases hfree with hidle | hfree
    · exact absurd hidle hbusy
    · -- the command is of the instruction under way
      obtain rfl : ins' = ins :=
        Instruction.code_injective (Option.some.inj (hrunning.symm.trans hfree))
      rw [hearlier]
      exact ⟨fun _ => hbound, hshows, fun hidle => absurd hidle hphase⟩

/-- A turn of the device in an exchange, as the record shows it. -/
theorem Inv.turn (h : w.Inv approves) {ins : Instruction} {turn : Turn}
    (hheader : request.header = ins.header)
    (hfree : w.signer.peer.isIdle = true ∨ w.signer.running = some ins.code)
    (hmoves : w.signer.peer.Moves (perform w.signer.approves ins) request.body
      w.signer.peer.phase turn)
    (hturn : w.signer.turn? request = some (ins, turn)) :
    ((∃ status, turn.response = .error (Failure.refusal status)) ∧
        turn.peer.phase = .idle ∧ turn.delivered = none) ∨
      (w.observe request).record.Accounts approves ins turn := by
  obtain ⟨hbound, hshows, hnew⟩ := h.earlier hfree
  rw [h.approval] at hmoves
  have hrecord : (w.observe request).record = w.earlier.add request ins turn := by
    simp only [observe, hturn]
  rw [hrecord]
  exact Record.accounts_of_moves hheader hmoves hbound hshows hnew

/-- Every exchange keeps the invariant. -/
theorem inv_observe (h : w.Inv approves) (request : Request) :
    (w.observe request).Inv approves := by
  have hexchanges := w.signer.exchanges_answer h.mode request
  have hsigner : (w.observe request).signer = (w.signer.answer request).2 := rfl
  generalize w.signer.answer request = answered at hexchanges hsigner
  cases hexchanges with
  | foreign hstatus hheader hturn =>
      have hrecord : (w.observe request).record = w.record := by
        simp only [observe, hturn]
      refine ⟨?_, ?_, ?_, ?_⟩ <;> rw [hsigner]
      · exact h.mode
      · exact h.approval
      · exact h.idle
      · rw [hrecord]
        exact h.busy
  | interrupts hheader hbusy hother hturn =>
      refine ⟨?_, ?_, ?_, ?_⟩ <;> rw [hsigner]
      · exact h.mode
      · exact h.approval
      · exact fun _ => rfl
      · exact fun hne => absurd rfl hne
  | @turns ins turn hheader hfree hmoves hturn =>
      refine ⟨?_, ?_, ?_, ?_⟩ <;> rw [hsigner]
      · exact h.mode
      · exact h.approval
      · intro hidle
        exact if_pos (Peer.isIdle_iff.mpr hidle)
      · intro hne
        have hphase : turn.peer.phase ≠ .idle := hne
        have hrunning : ¬ turn.peer.isIdle = true := by
          rwa [Peer.isIdle_iff]
        rcases h.turn hheader hfree hmoves hturn with ⟨_, hidle, _⟩ | haccounts
        · exact absurd hidle hphase
        · exact ⟨ins, if_neg hrunning, haccounts.bound, haccounts.shows⟩

/-- Every run keeps the invariant. -/
theorem inv_watch (h : w.Inv approves) (requests : List Request) :
    (w.watch requests).Inv approves := by
  induction requests using List.reverseRecOn with
  | nil => exact h
  | append_singleton requests request ih =>
      rw [watch_snoc]
      exact inv_observe ih request

/-- The record of an application that starts with an idle device. -/
theorem inv_start {peer : Peer} (hidle : peer.isIdle = true) (approves : Bool) :
    Inv { signer := { mode := .blocks, peer := peer, approves := approves } }
      approves :=
  ⟨rfl, rfl, fun _ => rfl, fun hne => absurd (Peer.isIdle_iff.mp hidle) hne⟩

theorem Inv.running (h : w.Inv approves) :
    w.signer.running.isSome = !w.signer.peer.isIdle ∧
    ∀ code, w.signer.running = some code →
      ∃ ins : Instruction, ins.code = code ∧ w.record.BoundTo ins := by
  by_cases hphase : w.signer.peer.phase = .idle
  · rw [h.idle hphase, Peer.isIdle_iff.mpr hphase]
    exact ⟨rfl, fun code hcode => by cases hcode⟩
  · obtain ⟨ins, hrunning, hbound, _⟩ := h.busy hphase
    have hbusy : w.signer.peer.isIdle = false := by
      rwa [← Bool.not_eq_true, Peer.isIdle_iff]
    rw [hrunning, hbusy]
    refine ⟨rfl, fun code hcode => ⟨ins, Option.some.inj hcode, hbound⟩⟩

end Watched

/-- The call of the application in an exchange: the instruction and the payloads. -/
def call? (s : Signer) (request : Request) : Option (Instruction × List Bytes) :=
  (s.turn? request).bind fun turn => turn.2.delivered.map (turn.1, ·)

namespace Watched

variable {w : Watched} {approves : Bool} {request : Request}

theorem mem_commands {ins : Instruction} {turn : Turn}
    (hturn : w.signer.turn? request = some (ins, turn)) :
    request ∈ (w.observe request).record.commands := by
  simp [observe, hturn, Record.add]

/-- The application is called for the instruction of the operation. -/
theorem Inv.boundTo_of_call (h : w.Inv approves) {ins : Instruction}
    {payloads : List Bytes} (hcall : w.signer.call? request = some (ins, payloads)) :
    request ∈ (w.observe request).record.commands ∧
      (w.observe request).record.BoundTo ins := by
  have hexchanges := w.signer.exchanges_answer h.mode request
  generalize w.signer.answer request = answered at hexchanges
  unfold call? at hcall
  cases hexchanges with
  | foreign hstatus hheader hturn =>
      rw [hturn] at hcall
      cases hcall
  | interrupts hheader hbusy hother hturn =>
      rw [hturn] at hcall
      cases hcall
  | @turns ins' turn hheader hfree hmoves hturn =>
      rw [hturn, Option.bind_some, Option.map_eq_some_iff] at hcall
      obtain ⟨given, hdelivered, hpair⟩ := hcall
      obtain ⟨rfl, rfl⟩ := Prod.mk.inj hpair
      refine ⟨mem_commands hturn, ?_⟩
      rcases h.turn hheader hfree hmoves hturn with ⟨_, _, hnone⟩ | haccounts
      · rw [hnone] at hdelivered
        cases hdelivered
      · exact haccounts.bound

/-- Every response but a refusal belongs to the operation on record. -/
theorem Inv.sends_of_ok (h : w.Inv approves) {body : Bytes}
    (hok : (w.signer.answer request).1 = .ok body) :
    ∃ (m : PeerMessage) (ins : Instruction), body = m.encode ∧
      request ∈ (w.observe request).record.commands ∧
      (w.observe request).record.BoundTo ins ∧
      (w.observe request).record.Sends approves ins m := by
  have hexchanges := w.signer.exchanges_answer h.mode request
  generalize w.signer.answer request = answered at hexchanges hok
  cases hexchanges with
  | foreign hstatus hheader hturn => cases hok
  | interrupts hheader hbusy hother hturn => cases hok
  | @turns ins turn hheader hfree hmoves hturn =>
      have hresponse : turn.response = .ok body := hok
      cases hmoves.settles with
      | refused status hrefused _ =>
          rw [hrefused] at hresponse
          cases hresponse
      | said m hsaid _ =>
          obtain rfl := Except.ok.inj (hresponse.symm.trans hsaid)
          rcases h.turn hheader hfree hmoves hturn with ⟨⟨_, herror⟩, _, _⟩ | haccounts
          · rw [herror] at hsaid
            cases hsaid
          · exact ⟨m, ins, rfl, mem_commands hturn, haccounts.bound,
              haccounts.sends m hsaid⟩

end Watched

/-- Without approval there is no signature. -/
theorem exists_error_performSign (payloads : List Bytes) :
    ∃ status, performSign false payloads = .error status := by
  simp only [performSign, Bool.not_false, if_true]
  split
  · split
    · exact ⟨_, rfl⟩
    · split_ifs
      · exact ⟨_, rfl⟩
      · exact ⟨_, rfl⟩
      · exact ⟨_, rfl⟩
  · exact ⟨_, rfl⟩

/-- Without approval there is no confirmed key. -/
theorem exists_error_performKey (payloads : List Bytes) :
    ∃ status, performKey true false payloads = .error status := by
  cases payloads with
  | nil => exact ⟨_, rfl⟩
  | cons path rest =>
      simp only [performKey, Bool.not_false, Bool.and_self, if_true]
      split_ifs
      · exact ⟨_, rfl⟩
      · exact ⟨_, rfl⟩

/-- What an application computes without approval is for no instruction that asks for
one. -/
theorem ne_of_perform_rejecting {ins : Instruction} {payloads : List Bytes}
    {output : Bytes} (h : perform false ins payloads = .ok output) :
    ins ≠ .signTx ∧ ins ≠ .verifyAddress := by
  constructor
  · rintro rfl
    obtain ⟨status, hstatus⟩ := exists_error_performSign payloads
    cases h.symm.trans hstatus
  · rintro rfl
    obtain ⟨status, hstatus⟩ := exists_error_performKey payloads
    cases h.symm.trans hstatus

/-- What a plain frame gets, if it is not refused, is the output for it. -/
theorem perform_of_answerPlain {s : Signer} {ins : Instruction} {body response : Bytes}
    (h : s.answerPlain ins body = .ok response) :
    perform s.approves ins [body] = .ok response := by
  unfold answerPlain at h
  split_ifs at h
  cases hperform : perform s.approves ins [body] with
  | ok output =>
      simp only [hperform] at h
      rw [Except.ok.inj h]
  | error status =>
      simp only [hperform] at h
      cases h

/-- A successful answer to a plain frame. -/
theorem perform_of_simple {s : Signer} {request : Request} {body : Bytes}
    (hmode : s.mode = .simple) (hok : (s.answer request).1 = .ok body) :
    ∃ ins : Instruction, request.header = ins.header ∧
      perform s.approves ins [request.body] = .ok body := by
  by_cases hforeign : ∀ ins : Instruction, request.header ≠ ins.header
  · obtain ⟨status, _, hanswer⟩ := answer_of_foreign (s := s) hforeign
    rw [hanswer] at hok
    cases hok
  · push Not at hforeign
    obtain ⟨ins, hheader⟩ := hforeign
    rw [answer_simple hmode hheader] at hok
    exact ⟨ins, hheader, perform_of_answerPlain hok⟩

/-- How an application is set up after any commands. -/
theorem Watched.sameConfig_watch (w : Watched) (requests : List Request) :
    (w.watch requests).signer.SameConfig w.signer := by
  induction requests using List.reverseRecOn with
  | nil => exact ⟨rfl, rfl, rfl, rfl⟩
  | append_singleton requests request ih =>
      rw [watch_snoc]
      exact (sameConfig_answer _ request).trans ih

/-- **An operation is bound to the instruction that opened it.**  An instruction is
set exactly while the device is busy, and it is that of the opening.  Every command
that reaches the device is put on record, and any other leaves the device as it is or
ends its operation.  Whenever the application is called, and whenever a part of its
output is sent, every command since the opening has carried the instruction.  The
command of another instruction ends the operation, and a command with a foreign header
leaves it alone.  Without approval no exchange brings anything that was computed for a
signature or a confirmed key, in either mode. -/
theorem instruction_is_bound (peer : Peer) (hidle : peer.isIdle = true)
    (approves : Bool) :
    (∀ requests : List Request,
      let w := ({ signer := { mode := .blocks, peer := peer, approves := approves } } :
        Watched).watch requests
      let s := w.signer
      s.running.isSome = !s.peer.isIdle ∧
      (∀ code, s.running = some code →
        ∃ ins : Instruction, ins.code = code ∧ w.record.BoundTo ins) ∧
      ∀ request : Request,
        let answered := s.answer request
        let record := (w.observe request).record
        (∀ ins turn, s.turn? request = some (ins, turn) →
          answered = (turn.response, s.after ins turn) ∧
          request ∈ record.commands) ∧
        (s.turn? request = none →
          answered.2.peer = s.peer ∨ answered.2.peer = s.peer.reset) ∧
        (∀ ins payloads, s.call? request = some (ins, payloads) →
          request ∈ record.commands ∧ record.BoundTo ins) ∧
        (∀ body, answered.1 = .ok body →
          ∃ (m : PeerMessage) (ins : Instruction), body = m.encode ∧
            request ∈ record.commands ∧ record.BoundTo ins ∧
            record.Sends approves ins m ∧
            (approves = false → m.portion?.isSome = true →
              ins ≠ .signTx ∧ ins ≠ .verifyAddress)) ∧
        (∀ ins : Instruction, request.header = ins.header →
          s.peer.isIdle = false → s.running ≠ some ins.code →
          answered.1 = .error (.peer Status.badState []) ∧
          answered.2.peer.isIdle = true) ∧
        ((∀ ins : Instruction, request.header ≠ ins.header) →
          (∃ status ∈ headerStatuses, answered.1 = .error (.peer status [])) ∧
          answered.2 = { s with exchanges := s.exchanges + 1 } ∧
          record = w.record)) ∧
    ∀ (requests : List Request) (request : Request) (body : Bytes),
      let w := ({ signer := { mode := .simple, peer := peer, approves := false } } :
        Watched).watch requests
      (w.signer.answer request).1 = .ok body →
      ∃ ins : Instruction, request.header = ins.header ∧
        ins ≠ .signTx ∧ ins ≠ .verifyAddress ∧
        perform false ins [request.body] = .ok body := by
  constructor
  · intro requests w s
    have hw : w.Inv approves :=
      Watched.inv_watch (Watched.inv_start hidle approves) requests
    obtain ⟨hrunning, hopened⟩ := hw.running
    refine ⟨hrunning, hopened, fun request => ⟨?_, ?_, ?_, ?_, ?_, ?_⟩⟩
    · intro ins turn hturn
      exact ⟨answer_of_turn hw.mode hturn, Watched.mem_commands hturn⟩
    · exact peer_of_no_turn hw.mode
    · intro ins payloads hcall
      exact hw.boundTo_of_call hcall
    · intro body hok
      obtain ⟨m, ins, hbody, hmem, hbound, hsends⟩ := hw.sends_of_ok hok
      refine ⟨m, ins, hbody, hmem, hbound, hsends, fun happroves hpart => ?_⟩
      obtain ⟨fragment, hfragment⟩ := Option.isSome_iff_exists.mp hpart
      obtain ⟨payloads, output, _, hperform, _⟩ := hsends fragment hfragment
      rw [happroves] at hperform
      exact ne_of_perform_rejecting hperform
    · intro ins hheader hbusy hother
      rw [answer_of_other hw.mode hheader hbusy hother]
      exact ⟨rfl, rfl⟩
    · intro hheader
      obtain ⟨status, hstatus, hanswer⟩ := answer_of_foreign (s := s) hheader
      rw [hanswer]
      refine ⟨⟨status, hstatus, rfl⟩, rfl, ?_⟩
      simp only [Watched.observe, turn?_of_foreign hheader]
  · intro requests request body w hok
    have hconfig := Watched.sameConfig_watch
      { signer := { mode := .simple, peer := peer, approves := false } } requests
    obtain ⟨ins, hheader, hperform⟩ := perform_of_simple hconfig.mode hok
    rw [hconfig.approves] at hperform
    obtain ⟨hsign, hverify⟩ := ne_of_perform_rejecting hperform
    exact ⟨ins, hheader, hsign, hverify, hperform⟩

/-- In the middle of an answer to a request for the version, a command to sign. -/
theorem instruction_is_bound_in_mid_answer :
    let peer : Peer := { fragmentSize := 4 }
    let opening : Request :=
      ⟨Instruction.getVersion.header, (HostMessage.start [Hash.zero]).encode⟩
    let s := (({ signer := { mode := .blocks, peer := peer } } : Watched).watch
      [opening]).signer
    s.running = some 0 ∧
    (s.answer ⟨Instruction.signTx.header, HostMessage.accumulateAck.encode⟩).1 =
      .error (.peer Status.badState []) := by
  intro peer opening s
  have hrunning : s.running = some 0 := by decide +kernel
  have hbusy : s.peer.isIdle = false := by decide +kernel
  obtain ⟨_, _, hexchange⟩ := (instruction_is_bound peer rfl true).1 [opening]
  obtain ⟨_, _, _, _, hother, _⟩ :=
    hexchange ⟨Instruction.signTx.header, HostMessage.accumulateAck.encode⟩
  have hdiffers : s.running ≠ some Instruction.signTx.code := by
    rw [hrunning]
    decide
  exact ⟨hrunning, (hother .signTx rfl hbusy hdiffers).1⟩

end Signer
end Courier
