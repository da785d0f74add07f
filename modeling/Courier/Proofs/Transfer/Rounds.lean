import Courier.Proofs.Transfer.Step

/-!
# The rounds of a transfer

Before each exchange a transfer looks at its budgets, and after each exchange it
ends or goes on with a reply.  This is stated for one round on any channel, and
from it for whole runs against a device given by its history.

* `Limits.refusal`: what the budgets say before an exchange, the first objection
  first.
* `Transfer.conclusion`: how a transfer ends with a response, if it does.
* `Transfer.play_of_refusal`, `Transfer.play_of_conclusion`,
  `Transfer.play_of_reply`: the three outcomes of a round, on any channel.
* `Transfer.Reaches`: the exchange that is reached after some responses.
* `Transfer.run_of_reaches`: a run that has reached an exchange goes on from the
  state that `step` has come to.
* `Transfer.run_refines_steps`: runs are the steps under the budgets.
-/

namespace Courier

/-- What the budgets say before exchange number `round`, counted from zero: the
rounds come before the time, and the time before the length of the body. -/
def Limits.refusal (limits : Limits) (deadline now round : Nat) (body : Bytes) :
    Option Failure :=
  if limits.maxRounds ≤ round then some (.roundLimit limits.maxRounds)
  else if deadline ≤ now then
    some (.timeout (.transfer limits.timeout round))
  else if Frame.maxBody < body.length then
    some (.encoding (.replyTooLong body.length))
  else none

theorem Limits.refusal_eq_none {limits : Limits} {deadline now round : Nat}
    {body : Bytes} (hround : round < limits.maxRounds) (htime : now < deadline)
    (hbody : body.length ≤ Frame.maxBody) :
    limits.refusal deadline now round body = none := by
  rw [Limits.refusal, if_neg (by omega), if_neg (by omega), if_neg (by omega)]

theorem Limits.lt_of_refusal_eq_none {limits : Limits}
    {deadline now round : Nat} {body : Bytes}
    (hallowed : limits.refusal deadline now round body = none) :
    round < limits.maxRounds := by
  unfold Limits.refusal at hallowed
  split_ifs at hallowed
  omega

namespace Transfer

/-- How a transfer ends with a response; nothing, if it goes on with a reply. -/
def conclusion (t : Transfer) : Response → Option (Except Failure Bytes)
  | .error e => some (.error (blame e t.unansweredMiss))
  | .ok response =>
      match (t.step response).1 with
      | .error e => some (.error e)
      | .ok (.finished result) => some (.ok result)
      | .ok (.reply _) => none

theorem conclusion_counting (t : Transfer) (n : Nat) (response : Response) :
    { t with rounds := n }.conclusion response = t.conclusion response := by
  cases response with
  | error e => rfl
  | ok response => simp only [conclusion, step_counting]

/-- A step leaves alone what the transfer was built with. -/
theorem step_frame (t : Transfer) (response : Bytes) :
    (t.step response).2.header = t.header ∧
    (t.step response).2.limits = t.limits ∧
    (t.step response).2.rounds = t.rounds := by
  by_cases hstage : t.stage = .awaitingPeer
  · cases hdecode : PeerMessage.decode response with
    | error e =>
        rw [step_of_error hstage hdecode]
        exact ⟨rfl, rfl, rfl⟩
    | ok m =>
        rw [step_of_message hstage hdecode]
        cases m with
        | accumulate fragment => exact ⟨rfl, rfl, rfl⟩
        | final fragment => exact ⟨rfl, rfl, rfl⟩
        | putChunk chunk => exact ⟨rfl, rfl, rfl⟩
        | getChunk hash =>
            simp only [dispatch]
            split <;> exact ⟨rfl, rfl, rfl⟩
  · rw [step_of_idle hstage]
    exact ⟨rfl, rfl, rfl⟩

theorem limits_of_step {t t' : Transfer} {response : Bytes}
    {result : Except Failure Move} (h : t.step response = (result, t')) :
    t'.limits = t.limits := by
  have hframe := (t.step_frame response).2.1
  rwa [h] at hframe

theorem start_frame (t : Transfer) :
    t.start.2.header = t.header ∧ t.start.2.limits = t.limits ∧
    t.start.2.rounds = t.rounds := by
  simp only [start]
  split_ifs <;> exact ⟨rfl, rfl, rfl⟩

theorem after_frame (t : Transfer) (responses : List Bytes) :
    (t.after responses).header = t.header ∧
    (t.after responses).limits = t.limits ∧
    (t.after responses).rounds = t.rounds := by
  induction responses generalizing t with
  | nil => exact ⟨rfl, rfl, rfl⟩
  | cons response rest ih =>
      obtain ⟨hheader, hlimits, hrounds⟩ := ih (t.step response).2
      obtain ⟨hheader', hlimits', hrounds'⟩ := t.step_frame response
      exact ⟨hheader.trans hheader', hlimits.trans hlimits',
        hrounds.trans hrounds'⟩

section OneRound

variable {σ : Type} (channel : Channel σ) (s : σ)
variable {t : Transfer} {deadline : Nat} {body : Bytes}

/-- A round that the budgets refuse makes no exchange. -/
theorem play_of_refusal {e : Failure}
    (hrefusal : t.limits.refusal deadline (channel.time s).1 t.rounds body =
      some e) :
    (play deadline (t.limits.maxRounds - t.rounds) t body).run channel s =
      (.error e,
        if t.limits.maxRounds ≤ t.rounds then s else (channel.time s).2) := by
  unfold Limits.refusal at hrefusal
  by_cases hrounds : t.limits.maxRounds ≤ t.rounds
  · rw [if_pos hrounds] at hrefusal
    have hleft : t.limits.maxRounds - t.rounds = 0 := by omega
    rw [hleft, if_pos hrounds, ← Option.some.inj hrefusal]
    rfl
  · rw [if_neg hrounds] at hrefusal
    obtain ⟨left, hleft⟩ :
        ∃ left, t.limits.maxRounds - t.rounds = left + 1 :=
      ⟨t.limits.maxRounds - t.rounds - 1, by omega⟩
    rw [hleft, if_neg hrounds, play, Dialogue.run_clock]
    split_ifs at hrefusal with htime hlength
    · rw [if_pos htime, ← Option.some.inj hrefusal]
      rfl
    · rw [if_neg htime, if_pos hlength, ← Option.some.inj hrefusal]
      rfl

/-- What is left of a round that the budgets allow. -/
theorem play_of_allowed
    (hrefusal : t.limits.refusal deadline (channel.time s).1 t.rounds body = none) :
    (play deadline (t.limits.maxRounds - t.rounds) t body).run channel s =
      let answered := channel.answer (channel.time s).2 ⟨t.header, body⟩
      match answered.1 with
      | .error e => (.error (blame e t.unansweredMiss), answered.2)
      | .ok response =>
          match (t.step response).1 with
          | .error e => (.error e, answered.2)
          | .ok (.finished result) => (.ok result, answered.2)
          | .ok (.reply m) =>
              (play deadline (t.limits.maxRounds - (t.rounds + 1))
                { (t.step response).2 with rounds := t.rounds + 1 }
                m.encode).run channel answered.2 := by
  unfold Limits.refusal at hrefusal
  split_ifs at hrefusal with hrounds htime hlength
  obtain ⟨left, hleft⟩ :
      ∃ left, t.limits.maxRounds - t.rounds = left + 1 :=
    ⟨t.limits.maxRounds - t.rounds - 1, by omega⟩
  have hleft' : t.limits.maxRounds - (t.rounds + 1) = left := by omega
  rw [hleft, hleft', play, Dialogue.run_clock, if_neg htime, if_neg hlength,
    Dialogue.run_ask]
  dsimp only
  cases (channel.answer (channel.time s).2 ⟨t.header, body⟩).1 with
  | error e => rfl
  | ok response =>
      dsimp only
      rw [step_counting]
      cases (t.step response).1 with
      | error e => rfl
      | ok move => cases move <;> rfl

/-- A round whose response ends the transfer. -/
theorem play_of_conclusion {outcome : Except Failure Bytes}
    (hrefusal : t.limits.refusal deadline (channel.time s).1 t.rounds body = none)
    (hend : t.conclusion
      (channel.answer (channel.time s).2 ⟨t.header, body⟩).1 = some outcome) :
    (play deadline (t.limits.maxRounds - t.rounds) t body).run channel s =
      (outcome, (channel.answer (channel.time s).2 ⟨t.header, body⟩).2) := by
  rw [play_of_allowed channel s hrefusal]
  dsimp only
  unfold conclusion at hend
  cases hanswer : (channel.answer (channel.time s).2 ⟨t.header, body⟩).1 with
  | error e =>
      simp only [hanswer, Option.some.injEq] at hend
      rw [← hend]
  | ok response =>
      simp only [hanswer] at hend
      cases hmove : (t.step response).1 with
      | error e =>
          simp only [hmove, Option.some.injEq] at hend
          simp only [hmove, hend]
      | ok move =>
          cases move with
          | reply m => simp [hmove] at hend
          | finished result =>
              simp only [hmove, Option.some.injEq] at hend
              simp only [hmove, hend]

/-- A round whose response is answered with a reply. -/
theorem play_of_reply {response : Bytes} {m : HostMessage}
    (hrefusal : t.limits.refusal deadline (channel.time s).1 t.rounds body = none)
    (hanswer : (channel.answer (channel.time s).2 ⟨t.header, body⟩).1 =
      .ok response)
    (hreply : (t.step response).1 = .ok (.reply m)) :
    (play deadline (t.limits.maxRounds - t.rounds) t body).run channel s =
      (play deadline (t.limits.maxRounds - (t.rounds + 1))
        { (t.step response).2 with rounds := t.rounds + 1 } m.encode).run channel
        (channel.answer (channel.time s).2 ⟨t.header, body⟩).2 := by
  rw [play_of_allowed channel s hrefusal]
  dsimp only
  rw [hanswer]
  dsimp only
  rw [hreply]

end OneRound

/-- A transfer as its callers can build it: new, opened, or after some steps. -/
inductive Built : Transfer → Prop
  | fresh (header : Header) (store : Store) (roots : List Hash)
      (limits : Limits) :
      Built { header, store, roots, limits }
  | start {t : Transfer} : Built t → Built t.start.2
  | step {t : Transfer} (response : Bytes) :
      Built t → Built (t.step response).2

/-- Only a run counts rounds, and it uses the transfer up. -/
theorem Built.rounds_eq_zero {t : Transfer} (ht : t.Built) : t.rounds = 0 := by
  induction ht with
  | fresh header store roots limits => rfl
  | @start t _ ih => exact t.start_frame.2.2.trans ih
  | @step t response _ ih => exact (t.step_frame response).2.2.trans ih

theorem stage_start_ne_sending (t : Transfer) : t.start.2.stage ≠ .sending := by
  simp only [start]
  split_ifs with hstage
  · simp [fail]
  · simp
  · exact hstage

/-- A transfer that has not been opened has missed nothing. -/
theorem Built.unansweredMiss_eq_none {t : Transfer} (ht : t.Built)
    (hstage : t.stage = .sending) : t.unansweredMiss = none := by
  induction ht with
  | fresh header store roots limits => rfl
  | @start t _ ih => exact absurd hstage t.stage_start_ne_sending
  | @step t response _ ih =>
      by_cases hwaiting : t.stage = .awaitingPeer
      · cases hdecode : PeerMessage.decode response with
        | error e =>
            rw [step_of_error hwaiting hdecode] at hstage
            cases hstage
        | ok m =>
            rw [step_of_message hwaiting hdecode, stage_dispatch, hwaiting] at hstage
            split_ifs at hstage
      · rw [step_of_idle hwaiting] at hstage ⊢
        exact ih hstage

/-- The bodies with which a transfer answers some responses. -/
def replies : Transfer → List Bytes → List Bytes
  | _, [] => []
  | t, response :: rest =>
      match t.step response with
      | (.ok (.reply m), t) => m.encode :: t.replies rest
      | _ => []

/-- The bodies that a transfer sends when it gets some responses: the opening and
then the answers. -/
def bodies (t : Transfer) (responses : List Bytes) : List Bytes :=
  (HostMessage.start t.roots).encode :: t.start.2.replies responses

/-- The commands with these bodies. -/
def requests (t : Transfer) (responses : List Bytes) : List Request :=
  (t.bodies responses).map (Request.mk t.header)

/-- The body that is sent when the responses have come in. -/
def pending (t : Transfer) (responses : List Bytes) : Bytes :=
  (t.bodies responses).getLast (List.cons_ne_nil _ _)

/-- A run on a device that answers by its history: how it ends, and the commands
in order. -/
def playedOn (t : Transfer) (answer : List Request → Response)
    (readings : Nat → Nat) : Except Failure Bytes × List Request :=
  let played := t.run.run (Channel.ofHistory answer readings) ([], 0)
  (played.1, played.2.1.reverse)

/-- The exchange that a run of `t` makes after `responses` is reached, on a device
that answers by its history and with given readings of the clock: each exchange
before it was allowed, brought the response and was followed by a reply. -/
inductive Reaches (t : Transfer) (answer : List Request → Response)
    (readings : Nat → Nat) : List Bytes → Prop
  | opening (hstage : t.stage = .sending) (hroots : t.roots.length ≤ 7) :
      Reaches t answer readings []
  | reply {responses : List Bytes} {response : Bytes} {m : HostMessage}
      (hreaches : Reaches t answer readings responses)
      (hallowed : t.limits.refusal (readings 0 + t.limits.timeout)
        (readings (responses.length + 1)) responses.length
        (t.pending responses) = none)
      (hanswer : answer (t.requests responses).reverse = .ok response)
      (hreply : ((t.start.2.after responses).step response).1 =
        .ok (.reply m)) :
      Reaches t answer readings (responses ++ [response])

/-- One more response that is answered adds its answer to the bodies. -/
theorem replies_snoc {t : Transfer} {responses : List Bytes} {response : Bytes}
    {m : HostMessage}
    (hanswered : (t.replies responses).length = responses.length)
    (hreply : ((t.after responses).step response).1 = .ok (.reply m)) :
    t.replies (responses ++ [response]) = t.replies responses ++ [m.encode] := by
  induction responses generalizing t with
  | nil =>
      have hpair : t.step response = (.ok (.reply m), (t.step response).2) :=
        Prod.ext hreply rfl
      simp only [List.nil_append, replies]
      rw [hpair]
  | cons first rest ih =>
      rcases hfirst : t.step first with ⟨move, t'⟩
      simp only [after_cons, hfirst] at hreply
      rcases move with e | (m' | result)
      · simp [replies, hfirst] at hanswered
      · simp only [replies, hfirst, List.length_cons, Nat.add_right_cancel_iff]
          at hanswered
        simp only [List.cons_append, replies, hfirst, ih hanswered hreply]
      · simp [replies, hfirst] at hanswered

section Reaching

variable {t : Transfer} {answer : List Request → Response}
variable {readings : Nat → Nat} {responses : List Bytes}

/-- Every response on the way to an exchange has been answered. -/
theorem Reaches.length_replies (h : t.Reaches answer readings responses) :
    (t.start.2.replies responses).length = responses.length := by
  induction h with
  | opening hstage hroots => rfl
  | reply hreaches hallowed hanswer hreply ih =>
      rw [replies_snoc ih hreply, List.length_append, ih, List.length_append]
      rfl

theorem Reaches.sending (h : t.Reaches answer readings responses) :
    t.stage = .sending ∧ t.roots.length ≤ 7 := by
  induction h with
  | opening hstage hroots => exact ⟨hstage, hroots⟩
  | reply hreaches hallowed hanswer hreply ih => exact ih

/-- No exchange behind the budget of rounds is reached. -/
theorem Reaches.length_le (h : t.Reaches answer readings responses) :
    responses.length ≤ t.limits.maxRounds := by
  induction h with
  | opening hstage hroots => exact Nat.zero_le _
  | reply hreaches hallowed hanswer hreply ih =>
      have hround := Limits.lt_of_refusal_eq_none hallowed
      rw [List.length_append, List.length_singleton]
      omega

theorem Reaches.bodies_snoc (h : t.Reaches answer readings responses)
    {response : Bytes} {m : HostMessage}
    (hreply : ((t.start.2.after responses).step response).1 = .ok (.reply m)) :
    t.bodies (responses ++ [response]) = t.bodies responses ++ [m.encode] := by
  rw [bodies, replies_snoc h.length_replies hreply]
  rfl

/-- There is one command for each response so far, and one that is pending. -/
theorem Reaches.length_requests (h : t.Reaches answer readings responses) :
    (t.requests responses).length = responses.length + 1 := by
  rw [requests, List.length_map, bodies, List.length_cons, h.length_replies]

/-- The pending command is the last one. -/
theorem requests_eq (t : Transfer) (responses : List Bytes) :
    t.requests responses =
      (t.requests responses).dropLast ++ [⟨t.header, t.pending responses⟩] := by
  have hlast : t.bodies responses =
      (t.bodies responses).dropLast ++ [t.pending responses] :=
    (List.dropLast_append_getLast (List.cons_ne_nil _ _)).symm
  have hmap := congrArg (List.map (Request.mk t.header)) hlast
  rw [List.map_append, List.map_dropLast] at hmap
  exact hmap

/-- The record of the commands, the pending one included, the latest first. -/
theorem reverse_requests (t : Transfer) (responses : List Bytes) :
    (t.requests responses).reverse =
      ⟨t.header, t.pending responses⟩ ::
        (t.requests responses).dropLast.reverse := by
  conv_lhs => rw [requests_eq, List.reverse_append]
  rfl

/-- The state of a run before the exchange after `responses`. -/
def standing (t : Transfer) (responses : List Bytes) : Transfer :=
  { t.start.2.after responses with rounds := responses.length }

@[simp] theorem standing_rounds (t : Transfer) (responses : List Bytes) :
    (t.standing responses).rounds = responses.length := by
  rfl

@[simp] theorem standing_header (t : Transfer) (responses : List Bytes) :
    (t.standing responses).header = t.header :=
  (t.start.2.after_frame responses).1.trans t.start_frame.1

@[simp] theorem standing_limits (t : Transfer) (responses : List Bytes) :
    (t.standing responses).limits = t.limits :=
  (t.start.2.after_frame responses).2.1.trans t.start_frame.2.1

theorem step_standing (t : Transfer) (responses : List Bytes)
    (response : Bytes) :
    ((t.standing responses).step response).1 =
      ((t.start.2.after responses).step response).1 := by
  rw [standing, step_counting]

theorem standing_snoc (t : Transfer) (responses : List Bytes)
    (response : Bytes) :
    { ((t.standing responses).step response).2 with
        rounds := responses.length + 1 } =
      t.standing (responses ++ [response]) := by
  rw [standing, step_counting, standing, after_snoc, List.length_append]
  rfl

/-- A run that has reached an exchange goes on from the state that the steps have
come to, with the body that they gave. -/
theorem run_of_reaches (ht : t.rounds = 0)
    (h : t.Reaches answer readings responses) :
    t.run.run (Channel.ofHistory answer readings) ([], 0) =
      (play (readings 0 + t.limits.timeout)
        (t.limits.maxRounds - responses.length) (t.standing responses)
        (t.pending responses)).run (Channel.ofHistory answer readings)
        ((t.requests responses).dropLast.reverse, responses.length + 1) := by
  induction h with
  | opening hstage hroots =>
      have hstart := start_of_sending hstage hroots
      simp only [run, Dialogue.run_clock, hstart, ht, List.length_nil, standing,
        after_nil]
      rfl
  | @reply responses response m hreaches hallowed hanswer hreply ih =>
      rw [reverse_requests] at hanswer
      have hround := play_of_reply (Channel.ofHistory answer readings)
        ((t.requests responses).dropLast.reverse, responses.length + 1)
        (t := t.standing responses)
        (by rw [standing_limits]; exact hallowed)
        (by rw [standing_header]; exact hanswer)
        ((t.step_standing responses response).trans hreply)
      rw [standing_limits, standing_header, standing_rounds, standing_snoc]
        at hround
      have hbodies := hreaches.bodies_snoc hreply
      have hpending : t.pending (responses ++ [response]) = m.encode := by
        simp only [pending, hbodies, List.getLast_append_singleton]
      have hsent : (t.requests (responses ++ [response])).dropLast =
          t.requests responses := by
        simp only [requests, hbodies, List.map_append, List.map_singleton,
          List.dropLast_concat]
      rw [ih, hround, hpending, hsent, reverse_requests, List.length_append]
      rfl

/-- A run ends where the budgets refuse the exchange that it has reached. -/
theorem playedOn_of_refusal (ht : t.rounds = 0)
    (h : t.Reaches answer readings responses) {e : Failure}
    (hrefusal : t.limits.refusal (readings 0 + t.limits.timeout)
      (readings (responses.length + 1)) responses.length
      (t.pending responses) = some e) :
    t.playedOn answer readings =
      (.error e, (t.requests responses).dropLast) := by
  have hround := play_of_refusal (Channel.ofHistory answer readings)
    ((t.requests responses).dropLast.reverse, responses.length + 1)
    (t := t.standing responses)
    (by rw [standing_limits]; exact hrefusal)
  rw [standing_limits, standing_rounds] at hround
  simp only [playedOn, run_of_reaches ht h, hround]
  split_ifs <;> simp [Channel.ofHistory]

/-- A run ends with the response that ends the steps. -/
theorem playedOn_of_conclusion (ht : t.rounds = 0)
    (h : t.Reaches answer readings responses) {outcome : Except Failure Bytes}
    (hallowed : t.limits.refusal (readings 0 + t.limits.timeout)
      (readings (responses.length + 1)) responses.length
      (t.pending responses) = none)
    (hend : (t.start.2.after responses).conclusion
      (answer (t.requests responses).reverse) = some outcome) :
    t.playedOn answer readings = (outcome, t.requests responses) := by
  rw [reverse_requests] at hend
  have hstanding : (t.standing responses).conclusion
      (answer (⟨t.header, t.pending responses⟩ ::
        (t.requests responses).dropLast.reverse)) = some outcome := by
    rw [standing, conclusion_counting, hend]
  have hround := play_of_conclusion (Channel.ofHistory answer readings)
    ((t.requests responses).dropLast.reverse, responses.length + 1)
    (t := t.standing responses)
    (by rw [standing_limits]; exact hallowed)
    (by rw [standing_header]; exact hstanding)
  rw [standing_limits, standing_rounds, standing_header] at hround
  simp only [playedOn, run_of_reaches ht h, hround]
  simp only [Channel.ofHistory, ← reverse_requests, List.reverse_reverse]

/-- What goes on after an exchange is a reply. -/
theorem reply_of_conclusion_eq_none {t : Transfer} {response : Response}
    (h : t.conclusion response = none) :
    ∃ body m, response = .ok body ∧ (t.step body).1 = .ok (.reply m) := by
  cases response with
  | error e => cases h
  | ok body =>
      unfold conclusion at h
      cases hmove : (t.step body).1 with
      | error e => simp [hmove] at h
      | ok move =>
          cases move with
          | finished result => simp [hmove] at h
          | reply m => exact ⟨body, m, rfl, hmove⟩

/-- A result comes from a last fragment. -/
theorem final_of_conclusion_eq_ok {t : Transfer} {response : Response}
    {result : Bytes} (h : t.conclusion response = some (.ok result)) :
    ∃ body fragment, response = .ok body ∧
      PeerMessage.decode body = .ok (.final fragment) ∧
      (t.step body).1 = .ok (.finished result) := by
  cases response with
  | error e => simp [conclusion] at h
  | ok body =>
      unfold conclusion at h
      cases hmove : (t.step body).1 with
      | error e => simp [hmove] at h
      | ok move =>
          cases move with
          | reply m => simp [hmove] at h
          | finished result' =>
              obtain rfl : result' = result := by simpa [hmove] using h
              refine ⟨body, ?_⟩
              have hstage : t.stage = .awaitingPeer := by
                by_contra hstage
                rw [step_of_idle hstage] at hmove
                cases hmove
              cases hdecode : PeerMessage.decode body with
              | error e =>
                  rw [step_of_error hstage hdecode] at hmove
                  cases hmove
              | ok message =>
                  rw [step_of_message hstage hdecode] at hmove
                  cases message with
                  | final fragment =>
                      refine ⟨fragment, rfl, rfl, ?_⟩
                      rw [step_of_message hstage hdecode]
                      exact hmove
                  | accumulate fragment => cases hmove
                  | putChunk chunk => cases hmove
                  | getChunk hash =>
                      simp only [dispatch] at hmove
                      split at hmove <;> cases hmove

/-- Every run comes to an exchange that the budgets refuse or that ends it. -/
theorem exists_last_round (h : t.Reaches answer readings responses) :
    ∃ reached, t.Reaches answer readings reached ∧
      let refusal := t.limits.refusal (readings 0 + t.limits.timeout)
        (readings (reached.length + 1)) reached.length (t.pending reached)
      (∃ e, refusal = some e) ∨
      (refusal = none ∧ ∃ outcome,
        (t.start.2.after reached).conclusion
          (answer (t.requests reached).reverse) = some outcome) := by
  -- the rounds that are left go down with every reply
  induction hleft : t.limits.maxRounds - responses.length generalizing responses with
  | zero =>
      refine ⟨responses, h, Or.inl ⟨.roundLimit t.limits.maxRounds, ?_⟩⟩
      rw [Limits.refusal, if_pos (by omega)]
  | succ left ih =>
      cases hrefusal : t.limits.refusal (readings 0 + t.limits.timeout)
          (readings (responses.length + 1)) responses.length
          (t.pending responses) with
      | some e => exact ⟨responses, h, Or.inl ⟨e, hrefusal⟩⟩
      | none =>
          cases hend : (t.start.2.after responses).conclusion
              (answer (t.requests responses).reverse) with
          | some outcome =>
              exact ⟨responses, h, Or.inr ⟨hrefusal, outcome, hend⟩⟩
          | none =>
              obtain ⟨body, m, hanswer, hreply⟩ := reply_of_conclusion_eq_none hend
              refine ih (h.reply hrefusal hanswer hreply) ?_
              rw [List.length_append, List.length_singleton]
              omega

/-- A transfer that cannot be opened makes no exchange. -/
theorem run_of_start_error {σ : Type} (channel : Channel σ) (s : σ) {e : Failure}
    (h : t.start.1 = .error e) :
    t.run.run channel s = (.error e, (channel.time s).2) := by
  have hstart : t.start = (.error e, t.start.2) := Prod.ext h rfl
  rw [run, Dialogue.run_clock, hstart]
  rfl

theorem run_of_tooMany {σ : Type} (channel : Channel σ) (s : σ)
    (hstage : t.stage = .sending) (hroots : ¬ t.roots.length ≤ 7) :
    t.run.run channel s =
      (.error (.encoding (.tooManyRoots t.roots.length)), (channel.time s).2) :=
  run_of_start_error channel s (start_of_tooMany hstage (by omega))

theorem playedOn_of_start_error {e : Failure} (h : t.start.1 = .error e) :
    t.playedOn answer readings = (.error e, []) := by
  rw [playedOn, run_of_start_error _ _ h]
  rfl

theorem playedOn_of_ne_sending (hstage : t.stage ≠ .sending) :
    t.playedOn answer readings =
      (.error (.protocol (.startedIn t.stage)), []) :=
  playedOn_of_start_error (congrArg Prod.fst (start_of_ne_sending hstage))

theorem playedOn_of_tooMany (hstage : t.stage = .sending)
    (hroots : 7 < t.roots.length) :
    t.playedOn answer readings =
      (.error (.encoding (.tooManyRoots t.roots.length)), []) :=
  playedOn_of_start_error (start_of_tooMany hstage hroots)

/-- A run from the opening ends at the last exchange that it reaches. -/
theorem playedOn_of_sending (answer : List Request → Response)
    (readings : Nat → Nat) (ht : t.rounds = 0) (hstage : t.stage = .sending)
    (hroots : t.roots.length ≤ 7) :
    ∃ responses, t.Reaches answer readings responses ∧
      let outcome := (t.playedOn answer readings).1
      let sent := (t.playedOn answer readings).2
      let refusal := t.limits.refusal (readings 0 + t.limits.timeout)
        (readings (responses.length + 1)) responses.length
        (t.pending responses)
      ((∃ e, refusal = some e ∧ outcome = .error e ∧
          sent = (t.requests responses).dropLast ∧
          sent.length = responses.length) ∨
        (refusal = none ∧
          (t.start.2.after responses).conclusion
            (answer (t.requests responses).reverse) = some outcome ∧
          sent = t.requests responses ∧
          sent.length = responses.length + 1)) := by
  obtain ⟨responses, hreaches, hlast⟩ :=
    exists_last_round
      (.opening hstage hroots : t.Reaches answer readings [])
  have hlength := hreaches.length_requests
  refine ⟨responses, hreaches, ?_⟩
  rcases hlast with ⟨e, he⟩ | ⟨hallowed, outcome, hend⟩
  · rw [playedOn_of_refusal ht hreaches he]
    refine Or.inl ⟨e, he, rfl, rfl, ?_⟩
    rw [List.length_dropLast, hlength, Nat.add_sub_cancel]
  · rw [playedOn_of_conclusion ht hreaches hallowed hend]
    exact Or.inr ⟨hallowed, hend, rfl, hlength⟩

/-- A run gives a result exactly when the last fragment comes in at an exchange
that it reaches and that the budgets allow. -/
theorem playedOn_eq_ok_iff (ht : t.rounds = 0) (result : Bytes) :
    (t.playedOn answer readings).1 = .ok result ↔
      ∃ responses body fragment, t.Reaches answer readings responses ∧
        t.limits.refusal (readings 0 + t.limits.timeout)
          (readings (responses.length + 1)) responses.length
          (t.pending responses) = none ∧
        answer (t.requests responses).reverse = .ok body ∧
        PeerMessage.decode body = .ok (.final fragment) ∧
        ((t.start.2.after responses).step body).1 = .ok (.finished result) := by
  constructor
  · intro hresult
    by_cases hstage : t.stage = .sending
    · by_cases hroots : t.roots.length ≤ 7
      · obtain ⟨responses, hreaches, hlast⟩ :=
          playedOn_of_sending answer readings ht hstage hroots
        rcases hlast with ⟨e, _, houtcome, _⟩ | ⟨hallowed, hend, _⟩
        · rw [houtcome] at hresult
          cases hresult
        · rw [hresult] at hend
          obtain ⟨body, fragment, hbody, hdecode, hstep⟩ :=
            final_of_conclusion_eq_ok hend
          exact ⟨responses, body, fragment, hreaches, hallowed, hbody,
            hdecode, hstep⟩
      · rw [playedOn_of_tooMany hstage (by omega)] at hresult
        cases hresult
    · rw [playedOn_of_ne_sending hstage] at hresult
      cases hresult
  · rintro ⟨responses, body, fragment, hreaches, hallowed, hbody, _, hstep⟩
    refine congrArg Prod.fst
      (playedOn_of_conclusion ht hreaches hallowed ?_)
    rw [hbody]
    simp only [conclusion, hstep]

/-- No run makes more exchanges than it has rounds. -/
theorem length_playedOn_le (ht : t.rounds = 0) :
    (t.playedOn answer readings).2.length ≤ t.limits.maxRounds := by
  by_cases hstage : t.stage = .sending
  · by_cases hroots : t.roots.length ≤ 7
    · obtain ⟨responses, hreaches, hlast⟩ :=
        playedOn_of_sending answer readings ht hstage hroots
      rcases hlast with ⟨_, _, _, _, hlength⟩ | ⟨hallowed, _, _, hlength⟩
      · rw [hlength]
        exact hreaches.length_le
      · rw [hlength]
        exact Limits.lt_of_refusal_eq_none hallowed
    · rw [playedOn_of_tooMany hstage (by omega)]
      exact Nat.zero_le _
  · rw [playedOn_of_ne_sending hstage]
    exact Nat.zero_le _

end Reaching

/-- **Runs are the steps under the budgets.**  A transfer that cannot be opened
makes no exchange.  Any other run sends the opening and then, for each response,
the reply that `step` gives, under the transfer's header, up to an exchange that
the budgets refuse or that ends the steps.  It gives a result exactly when a last
fragment comes in within the budgets, and it never makes more exchanges than it
has rounds. -/
theorem run_refines_steps {t : Transfer} (ht : t.Built)
    (answer : List Request → Response) (readings : Nat → Nat) :
    let outcome := (t.playedOn answer readings).1
    let sent := (t.playedOn answer readings).2
    let refusal (responses : List Bytes) :=
      t.limits.refusal (readings 0 + t.limits.timeout)
        (readings (responses.length + 1)) responses.length (t.pending responses)
    (t.stage ≠ .sending →
      outcome = .error (.protocol (.startedIn t.stage)) ∧ sent = []) ∧
    (t.stage = .sending → 7 < t.roots.length →
      outcome = .error (.encoding (.tooManyRoots t.roots.length)) ∧ sent = []) ∧
    (t.stage = .sending → t.roots.length ≤ 7 →
      ∃ responses, t.Reaches answer readings responses ∧
        ((∃ e, refusal responses = some e ∧ outcome = .error e ∧
            sent = (t.requests responses).dropLast ∧
            sent.length = responses.length) ∨
          (refusal responses = none ∧
            (t.start.2.after responses).conclusion
              (answer (t.requests responses).reverse) = some outcome ∧
            sent = t.requests responses ∧
            sent.length = responses.length + 1))) ∧
    (∀ result, outcome = .ok result ↔
      ∃ responses body fragment, t.Reaches answer readings responses ∧
        refusal responses = none ∧
        answer (t.requests responses).reverse = .ok body ∧
        PeerMessage.decode body = .ok (.final fragment) ∧
        ((t.start.2.after responses).step body).1 = .ok (.finished result)) ∧
    sent.length ≤ t.limits.maxRounds := by
  intro outcome sent refusal
  have hrounds := ht.rounds_eq_zero
  refine ⟨?_, ?_, playedOn_of_sending answer readings hrounds,
    playedOn_eq_ok_iff hrounds, length_playedOn_le hrounds⟩
  · intro hstage
    have hplayed : t.playedOn answer readings = _ := playedOn_of_ne_sending hstage
    exact ⟨congrArg Prod.fst hplayed, congrArg Prod.snd hplayed⟩
  · intro hstage hroots
    have hplayed : t.playedOn answer readings = _ :=
      playedOn_of_tooMany hstage hroots
    exact ⟨congrArg Prod.fst hplayed, congrArg Prod.snd hplayed⟩

/-- The last fragment still counts when it answers the last command allowed. -/
theorem run_finished_on_last_round :
    let t : Transfer :=
      { header := ⟨0, 3, 0, 0⟩, store := .empty, roots := [], limits := ⟨2, 10⟩ }
    let answer (sent : List Request) : Response :=
      if sent.length = 1 then .ok [0, 5] else .ok [1, 7]
    let played := t.playedOn answer fun _ => 0
    t.Built ∧ played.1 = .ok [5, 7] ∧ played.2.length ≤ t.limits.maxRounds := by
  intro t answer played
  have ht : t.Built := .fresh _ _ _ _
  obtain ⟨_, _, _, hresult, hlength⟩ := run_refines_steps ht answer fun _ => 0
  refine ⟨ht, ?_, hlength⟩
  have hopening : t.Reaches answer (fun _ => 0) [] := .opening rfl (by decide)
  have hreached : t.Reaches answer (fun _ => 0) [[0, 5]] :=
    hopening.reply (m := .accumulateAck) rfl rfl rfl
  exact (hresult _).mpr
    ⟨[[0, 5]], [1, 7], [7], hreached, rfl, rfl, rfl, rfl⟩

end Transfer
end Courier
