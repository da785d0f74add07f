import Courier.Device.Peer
import Courier.Proofs.Transfer.Rounds

/-!
# Sessions of a transfer with a device

A transfer and a device speak in turns.  What they say does not depend on the
budgets, which only cut a session short; so the session is described first without
them, from its end backwards, and then it is played.

* `Session`: a session from a turn of the device to its end.
* `Bench`: a device on the bench, with a record of what its application gets.
* `Session.played`: how a session plays out under a budget of rounds.
* `Bench.calls_of_given`: a record with one call, cut after some exchanges.
-/

namespace Courier

/-- A session from a turn of the device on: what the application gets in each
exchange, how the transfer ends, and the device that is left. -/
inductive Session (app : Application) :
    Transfer → Turn → List (Option (List Bytes)) → Except Failure Bytes → Peer →
      Prop
  | last {t : Transfer} {turn : Turn} {outcome : Except Failure Bytes}
      (hend : t.conclusion turn.response = some outcome) :
      Session app t turn [turn.delivered] outcome turn.peer
  | next {t t' : Transfer} {turn : Turn} {response : Bytes} {m : HostMessage}
      {given : List (Option (List Bytes))} {outcome : Except Failure Bytes}
      {peer : Peer}
      (hresponse : turn.response = .ok response)
      (hstep : t.step response = (.ok (.reply m), t'))
      (hlength : m.encode.length ≤ Frame.maxBody)
      (hrest : Session app t' (turn.peer.handle app m.encode) given outcome peer) :
      Session app t turn (turn.delivered :: given) outcome peer

/-- A device beside a clock, and what its application got in each exchange. -/
structure Bench where
  device : PeerDevice
  given : List (Option (List Bytes)) := []
  read : Nat := 0

namespace Bench

/-- The device on the bench as a channel, beside a clock with given readings. -/
def channel (readings : Nat → Nat) : Channel Bench where
  answer b request :=
    let answered := b.device.answer request
    let turn := b.device.peer.handle b.device.app request.body
    (answered.1,
      { b with device := answered.2, given := b.given ++ [turn.delivered] })
  time b := (readings b.read, { b with read := b.read + 1 })

/-- The number of exchanges so far. -/
def exchanges (b : Bench) : Nat :=
  b.given.length

/-- The calls of the application, each with the number of its exchange. -/
def calls (b : Bench) : List (Nat × List Bytes) :=
  (b.given.zipIdx 1).filterMap fun given => given.1.map (given.2, ·)

/-- Exchanges in which the application gets nothing are no calls. -/
theorem filterMap_zipIdx_replicate_none (n i : Nat) :
    ((List.replicate n (none : Option (List Bytes))).zipIdx i).filterMap
      (fun given => given.1.map (given.2, ·)) = [] := by
  induction n generalizing i with
  | zero => rfl
  | succ n ih =>
      rw [List.replicate_succ, List.zipIdx_cons, List.filterMap_cons]
      exact ih (i + 1)

/-- One call in exchange number `n + 1`, if the record does not end before it. -/
theorem calls_of_given {b : Bench} {n k rounds : Nat} {payloads : List Bytes}
    (h : b.given =
      (List.replicate n none ++ some payloads :: List.replicate k none).take
        rounds) :
    b.calls = if n + 1 ≤ rounds then [(n + 1, payloads)] else [] := by
  rw [calls, h]
  by_cases hcall : n + 1 ≤ rounds
  · obtain ⟨m, rfl⟩ : ∃ m, rounds = n + (m + 1) := ⟨rounds - (n + 1), by omega⟩
    have htake : (List.replicate n none ++
        some payloads :: List.replicate k none).take (n + (m + 1)) =
          List.replicate n none ++
            some payloads :: List.replicate (min m k) none := by
      rw [List.take_append, List.length_replicate, List.take_replicate,
        Nat.min_eq_right (by omega), Nat.add_sub_cancel_left,
        List.take_succ_cons, List.take_replicate]
    rw [if_pos hcall, htake, List.zipIdx_append, List.filterMap_append,
      filterMap_zipIdx_replicate_none, List.nil_append, List.zipIdx_cons,
      List.filterMap_cons, filterMap_zipIdx_replicate_none,
      List.length_replicate, Nat.add_comm 1 n]
    rfl
  · have htake : (List.replicate n none ++
        some payloads :: List.replicate k none).take rounds =
          List.replicate rounds none := by
      rw [List.take_append_of_le_length (by rw [List.length_replicate]; omega),
        List.take_replicate, Nat.min_eq_left (by omega)]
    rw [if_neg hcall, htake, filterMap_zipIdx_replicate_none]

end Bench

section Round

variable {readings : Nat → Nat} {b : Bench} {t : Transfer} {deadline n : Nat}
variable {app : Application} {turn : Turn} {body : Bytes}

/-- The bench after a turn of the device. -/
def Bench.after (b : Bench) (turn : Turn) : Bench where
  device :=
    { b.device with
      peer := turn.peer
      delivered := turn.delivered.or b.device.delivered }
  given := b.given ++ [turn.delivered]
  read := b.read + 1

theorem Bench.answer_eq (readings : Nat → Nat) (happ : b.device.app = app)
    (hturn : b.device.peer.handle app body = turn) (header : Header) :
    (channel readings).answer ((channel readings).time b).2 ⟨header, body⟩ =
      (turn.response, b.after turn) := by
  subst happ hturn
  rfl

/-- Without rounds left nothing happens on the bench. -/
theorem play_of_no_round (hround : t.limits.maxRounds ≤ n) :
    (Transfer.play deadline (t.limits.maxRounds - n)
      { t with rounds := n } body).run (Bench.channel readings) b =
      (.error (.roundLimit t.limits.maxRounds), b) := by
  have hrefusal : t.limits.refusal deadline (readings b.read) n body =
      some (.roundLimit t.limits.maxRounds) := if_pos hround
  have hplayed := Transfer.play_of_refusal (Bench.channel readings) b
    (t := { t with rounds := n }) hrefusal
  rw [if_pos hround] at hplayed
  exact hplayed

/-- The round of a turn that ends the session. -/
theorem play_of_last_turn (happ : b.device.app = app)
    (hturn : b.device.peer.handle app body = turn)
    (hbody : body.length ≤ Frame.maxBody) (hround : n < t.limits.maxRounds)
    (htime : readings b.read < deadline) {outcome : Except Failure Bytes}
    (hend : t.conclusion turn.response = some outcome) :
    (Transfer.play deadline (t.limits.maxRounds - n)
      { t with rounds := n } body).run (Bench.channel readings) b =
      (outcome, b.after turn) := by
  have hanswer := Bench.answer_eq readings happ hturn t.header
  have hallowed : t.limits.refusal deadline (readings b.read) n body = none :=
    Limits.refusal_eq_none hround htime hbody
  have hended : { t with rounds := n }.conclusion
      ((Bench.channel readings).answer ((Bench.channel readings).time b).2
        ⟨t.header, body⟩).1 = some outcome := by
    rw [Transfer.conclusion_counting, hanswer, hend]
  have hplayed := Transfer.play_of_conclusion (Bench.channel readings) b
    (t := { t with rounds := n }) hallowed hended
  rw [hplayed, hanswer]

/-- The round of a turn that gets a reply. -/
theorem play_of_turn (happ : b.device.app = app)
    (hturn : b.device.peer.handle app body = turn)
    (hbody : body.length ≤ Frame.maxBody) (hround : n < t.limits.maxRounds)
    (htime : readings b.read < deadline) {response : Bytes} {m : HostMessage}
    {t' : Transfer} (hresponse : turn.response = .ok response)
    (hstep : t.step response = (.ok (.reply m), t')) :
    (Transfer.play deadline (t.limits.maxRounds - n)
      { t with rounds := n } body).run (Bench.channel readings) b =
      (Transfer.play deadline (t.limits.maxRounds - (n + 1))
        { t' with rounds := n + 1 } m.encode).run (Bench.channel readings)
        (b.after turn) := by
  have hanswer := Bench.answer_eq readings happ hturn t.header
  have hcounted : { t with rounds := n }.step response =
      (.ok (.reply m), { t' with rounds := n }) := by
    rw [Transfer.step_counting, hstep]
  have hallowed : t.limits.refusal deadline (readings b.read) n body = none :=
    Limits.refusal_eq_none hround htime hbody
  have hplayed := Transfer.play_of_reply (Bench.channel readings) b
    (t := { t with rounds := n }) hallowed
    ((congrArg Prod.fst hanswer).trans hresponse) (congrArg Prod.fst hcounted)
  rw [hplayed, hanswer, hcounted]

/-- The opening of a new transfer, on a clock that stays before the deadline. -/
theorem Transfer.run_opening (device : PeerDevice) (hstage : t.stage = .sending)
    (hrounds : t.rounds = 0) (hroots : t.roots.length ≤ 7)
    (htime : ∀ i, readings (i + 1) < readings 0 + t.limits.timeout) :
    (HostMessage.start t.roots).encode.length ≤ Frame.maxBody ∧
    (∀ i, 1 ≤ i → readings i < readings 0 + t.limits.timeout) ∧
    t.run.run (Bench.channel readings) { device := device } =
      (Transfer.play (readings 0 + t.limits.timeout) (t.limits.maxRounds - 0)
        { t with stage := .awaitingPeer, rounds := 0 }
        (HostMessage.start t.roots).encode).run (Bench.channel readings)
        { device := device, read := 1 } := by
  refine ⟨?_, ?_, ?_⟩
  · have hfits := (Transfer.maxBody_lt_start_iff t.roots).not.mpr (by omega)
    exact Nat.le_of_not_lt hfits
  · intro i hi
    obtain ⟨j, rfl⟩ : ∃ j, i = j + 1 := ⟨i - 1, by omega⟩
    exact htime j
  · rw [Transfer.run, Dialogue.run_clock, Transfer.start_of_sending hstage hroots]
    dsimp only
    rw [hrounds]
    rfl

end Round

namespace Session

variable {app : Application} {t : Transfer} {turn : Turn}
variable {given : List (Option (List Bytes))} {outcome : Except Failure Bytes}
variable {peer : Peer}

/-- A session played before a deadline that the clock does not reach: it comes to
its end, or as far as the rounds allow. -/
theorem played (h : Session app t turn given outcome peer) {deadline n : Nat}
    {readings : Nat → Nat} {b : Bench} {body : Bytes}
    (happ : b.device.app = app) (hturn : b.device.peer.handle app body = turn)
    (hbody : body.length ≤ Frame.maxBody)
    (htime : ∀ i, b.read ≤ i → readings i < deadline) :
    let played := (Transfer.play deadline (t.limits.maxRounds - n)
      { t with rounds := n } body).run (Bench.channel readings) b
    played.2.given = b.given ++ given.take (t.limits.maxRounds - n) ∧
    (n + given.length ≤ t.limits.maxRounds →
      played.1 = outcome ∧ played.2.device.peer = peer) ∧
    (t.limits.maxRounds < n + given.length →
      played.1 = .error (.roundLimit t.limits.maxRounds)) := by
  -- the induction goes along the session, with one round played in each step
  induction h generalizing n b body with
  | @last t turn outcome hend =>
      by_cases hround : t.limits.maxRounds ≤ n
      · have hleft : t.limits.maxRounds - n = 0 := by omega
        rw [play_of_no_round hround, hleft, List.take_zero, List.append_nil,
          List.length_singleton]
        exact ⟨rfl, fun hfits => by omega, fun _ => rfl⟩
      · obtain ⟨left, hleft⟩ : ∃ left, t.limits.maxRounds - n = left + 1 :=
          ⟨t.limits.maxRounds - n - 1, by omega⟩
        rw [play_of_last_turn happ hturn hbody (by omega)
          (htime b.read (Nat.le_refl _)) hend, hleft, List.take_succ_cons,
          List.take_nil, List.length_singleton]
        exact ⟨rfl, fun _ => ⟨rfl, rfl⟩, fun hover => by omega⟩
  | @next t t' turn response m given outcome peer hresponse hstep hlength _ ih =>
      have hlimits := Transfer.limits_of_step hstep
      by_cases hround : t.limits.maxRounds ≤ n
      · have hleft : t.limits.maxRounds - n = 0 := by omega
        rw [play_of_no_round hround, hleft, List.take_zero, List.append_nil,
          List.length_cons]
        exact ⟨rfl, fun hfits => by omega, fun _ => rfl⟩
      · obtain ⟨hgiven, hfits, hover⟩ := ih (n := n + 1) (b := b.after turn)
          happ rfl hlength (fun i hi => htime i (Nat.le_of_succ_le hi))
        have hleft : t'.limits.maxRounds - n =
            t'.limits.maxRounds - (n + 1) + 1 := by
          rw [hlimits]
          omega
        rw [play_of_turn happ hturn hbody (by omega)
          (htime b.read (Nat.le_refl _)) hresponse hstep, ← hlimits,
          List.length_cons]
        refine ⟨?_, fun h => hfits (by omega), fun h => hover (by omega)⟩
        rw [hgiven, hleft, List.take_succ_cons, Bench.after, List.append_assoc,
          List.singleton_append]

/-- A session that a new transfer opens. -/
theorem run {device : PeerDevice} (hstage : t.stage = .sending)
    (hrounds : t.rounds = 0) (hroots : t.roots.length ≤ 7)
    (h : Session device.app { t with stage := .awaitingPeer }
      (device.peer.handle device.app (HostMessage.start t.roots).encode)
      given outcome peer)
    {readings : Nat → Nat}
    (htime : ∀ i, readings (i + 1) < readings 0 + t.limits.timeout) :
    let played := t.run.run (Bench.channel readings) { device := device }
    played.2.given = given.take t.limits.maxRounds ∧
    (given.length ≤ t.limits.maxRounds →
      played.1 = outcome ∧ played.2.device.peer = peer) ∧
    (t.limits.maxRounds < given.length →
      played.1 = .error (.roundLimit t.limits.maxRounds)) := by
  obtain ⟨hfits, hreadings, hrun⟩ :=
    Transfer.run_opening device hstage hrounds hroots htime
  have hplayed := h.played (n := 0) (b := { device := device, read := 1 })
    rfl rfl hfits hreadings
  rw [Nat.zero_add, List.nil_append] at hplayed
  rw [hrun]
  exact hplayed

/-- A session in which the application gets payloads once, after `n` exchanges and
with `k` more to come. -/
theorem run_of_one_call {device : PeerDevice} {n k : Nat} {payloads : List Bytes}
    (hstage : t.stage = .sending) (hrounds : t.rounds = 0)
    (hroots : t.roots.length ≤ 7)
    (h : Session device.app { t with stage := .awaitingPeer }
      (device.peer.handle device.app (HostMessage.start t.roots).encode)
      (List.replicate n none ++ some payloads :: List.replicate k none)
      outcome peer)
    {readings : Nat → Nat}
    (htime : ∀ i, readings (i + 1) < readings 0 + t.limits.timeout) :
    let played := t.run.run (Bench.channel readings) { device := device }
    played.2.calls =
      (if n + 1 ≤ t.limits.maxRounds then [(n + 1, payloads)] else []) ∧
    (n + 1 + k ≤ t.limits.maxRounds →
      played.1 = outcome ∧ played.2.exchanges = n + 1 + k ∧
      played.2.device.peer = peer) ∧
    (t.limits.maxRounds < n + 1 + k →
      played.1 = .error (.roundLimit t.limits.maxRounds) ∧
      played.2.exchanges = t.limits.maxRounds) := by
  intro played
  obtain ⟨hgiven, hfits, hover⟩ := h.run hstage hrounds hroots htime
  have hlength : (List.replicate n none ++
      some payloads :: List.replicate k none).length = n + 1 + k := by
    simp only [List.length_append, List.length_cons, List.length_replicate]
    omega
  rw [hlength] at hfits hover
  refine ⟨Bench.calls_of_given hgiven, ?_, ?_⟩
  · intro henough
    obtain ⟨houtcome, hpeer⟩ := hfits henough
    refine ⟨houtcome, ?_, hpeer⟩
    rw [Bench.exchanges, hgiven, List.length_take, hlength,
      Nat.min_eq_right henough]
  · intro hshort
    refine ⟨hover hshort, ?_⟩
    rw [Bench.exchanges, hgiven, List.length_take, hlength,
      Nat.min_eq_left (Nat.le_of_lt hshort)]

end Session
end Courier
