import Courier.Proofs.Transfer.Rounds

/-!
# Loop invariants of a transfer

A rule for statements about whole runs on any channel.  An invariant speaks of the
transfer, of the body that it is about to send, and of the device.  If every
exchange that is followed by a reply keeps it, it holds at the exchange at which
the run ends, and that exchange is either refused by the budgets or brings the
response that ends the transfer.

* `Transfer.Invariant`: what one round has to keep.
* `Transfer.Ending`, `Transfer.Ending.cases`: how a run ends at an exchange.
* `Transfer.Invariant.run`: the invariant at the end of a run.
* `Transfer.run_logged`: the same for what only the record of the exchanges says.
-/

namespace Courier

/-- The message that an exchange brings. -/
def Exchange.Brings (x : Exchange) (m : PeerMessage) : Prop :=
  ∃ response, x.response = .ok response ∧ PeerMessage.decode response = .ok m

theorem Exchange.Brings.unique {x : Exchange} {m m' : PeerMessage}
    (h : x.Brings m) (h' : x.Brings m') : m = m' := by
  obtain ⟨response, hresponse, hdecode⟩ := h
  obtain ⟨response', hresponse', hdecode'⟩ := h'
  rw [hresponse] at hresponse'
  obtain rfl := Except.ok.inj hresponse'
  rw [hdecode] at hdecode'
  exact Except.ok.inj hdecode'

/-- The three refusals of the budgets. -/
theorem Limits.refusal_cases {limits : Limits} {deadline now round : Nat}
    {body : Bytes} {e : Failure}
    (h : limits.refusal deadline now round body = some e) :
    e = .roundLimit limits.maxRounds ∨
    e = .timeout (.transfer limits.timeout round) ∨
    (Frame.maxBody < body.length ∧ e = .encoding (.replyTooLong body.length)) := by
  unfold Limits.refusal at h
  split_ifs at h with hrounds htime hlength
  · exact Or.inl (Option.some.inj h).symm
  · exact Or.inr (Or.inl (Option.some.inj h).symm)
  · exact Or.inr (Or.inr ⟨hlength, (Option.some.inj h).symm⟩)

theorem Limits.length_of_refusal_eq_none {limits : Limits}
    {deadline now round : Nat} {body : Bytes}
    (hallowed : limits.refusal deadline now round body = none) :
    body.length ≤ Frame.maxBody := by
  unfold Limits.refusal at hallowed
  split_ifs at hallowed
  omega

namespace Transfer

/-- A response that ends a transfer in an error breaks the protocol. -/
theorem protocol_of_conclusion {t : Transfer} {response : Bytes} {e : Failure}
    (h : t.conclusion (.ok response) = some (.error e)) :
    ∃ why, e = .protocol why := by
  unfold conclusion at h
  by_cases hstage : t.stage = .awaitingPeer
  · cases hdecode : PeerMessage.decode response with
    | error e' =>
        simp only [step_of_error hstage hdecode, Option.some.injEq,
          Except.error.injEq] at h
        exact h ▸ PeerMessage.protocol_of_decode_error hdecode
    | ok m =>
        simp only [step_of_message hstage hdecode] at h
        cases hmove : ({ t with unansweredMiss := none }.dispatch m).1 with
        | reply reply => simp [hmove] at h
        | finished result => simp [hmove] at h
  · simp only [step_of_idle hstage, Option.some.injEq, Except.error.injEq] at h
    exact ⟨_, h.symm⟩

section Loop

variable {σ : Type}

/-- What one round of the loop has to keep: a look at the clock, and an exchange
whose message is answered with a reply. -/
structure Invariant (channel : Channel σ) (I : Transfer → Bytes → σ → Prop) :
    Prop where
  clock : ∀ {t body s}, I t body s → I t body (channel.time s).2
  reply : ∀ {t t' : Transfer} {body response : Bytes} {s : σ} {m : PeerMessage}
      {reply : HostMessage}, I t body s → body.length ≤ Frame.maxBody →
    (channel.answer s ⟨t.header, body⟩).1 = .ok response →
    PeerMessage.decode response = .ok m → t.Answers m reply t' →
    I { t' with rounds := t.rounds + 1 } reply.encode
      (channel.answer s ⟨t.header, body⟩).2

/-- How a run ends at the exchange that `t` is about to make: the budgets refuse
it, or its response ends the transfer. -/
inductive Ending (channel : Channel σ) (t : Transfer) (body : Bytes) (s : σ) :
    Except Failure Bytes × σ → Prop
  | refused {deadline now : Nat} {e : Failure}
      (hrefusal : t.limits.refusal deadline now t.rounds body = some e) :
      Ending channel t body s (.error e, s)
  | concluded {outcome : Except Failure Bytes}
      (hlength : body.length ≤ Frame.maxBody)
      (hend : t.conclusion (channel.answer s ⟨t.header, body⟩).1 = some outcome) :
      Ending channel t body s
        (outcome, (channel.answer s ⟨t.header, body⟩).2)

variable {channel : Channel σ} {I : Transfer → Bytes → σ → Prop}

/-- The two ways in which a run ends, by its outcome and the state that is left. -/
theorem Ending.cases {t : Transfer} {body : Bytes} {s : σ}
    {played : Except Failure Bytes × σ} (h : Ending channel t body s played) :
    (∃ deadline now e,
      t.limits.refusal deadline now t.rounds body = some e ∧
      played = (.error e, s)) ∨
    (body.length ≤ Frame.maxBody ∧
      t.conclusion (channel.answer s ⟨t.header, body⟩).1 = some played.1 ∧
      played.2 = (channel.answer s ⟨t.header, body⟩).2) := by
  cases h with
  | refused hrefusal => exact Or.inl ⟨_, _, _, hrefusal, rfl⟩
  | concluded hlength hend => exact Or.inr ⟨hlength, hend, rfl⟩

theorem Invariant.play (hI : Invariant channel I) {deadline : Nat} {t : Transfer}
    {body : Bytes} {s : σ} (h : I t body s) :
    ∃ t' body' s', I t' body' s' ∧ t'.limits = t.limits ∧
      Ending channel t' body' s'
        ((play deadline (t.limits.maxRounds - t.rounds) t body).run channel s) := by
  -- the rounds that are left go down with every reply
  induction hleft : t.limits.maxRounds - t.rounds generalizing t body s with
  | zero =>
      have hrefusal : t.limits.refusal deadline (channel.time s).1 t.rounds body =
          some (.roundLimit t.limits.maxRounds) := if_pos (by omega)
      exact ⟨t, body, s, h, rfl, .refused hrefusal⟩
  | succ left ih =>
      have hround : ¬ t.limits.maxRounds ≤ t.rounds := by omega
      rw [← hleft]
      cases hrefusal :
          t.limits.refusal deadline (channel.time s).1 t.rounds body with
      | some e =>
          rw [play_of_refusal channel s hrefusal, if_neg hround]
          exact ⟨t, body, _, hI.clock h, rfl, .refused hrefusal⟩
      | none =>
          have hlength := Limits.length_of_refusal_eq_none hrefusal
          cases hend : t.conclusion
              (channel.answer (channel.time s).2 ⟨t.header, body⟩).1 with
          | some outcome =>
              rw [play_of_conclusion channel s hrefusal hend]
              exact ⟨t, body, _, hI.clock h, rfl, .concluded hlength hend⟩
          | none =>
              obtain ⟨response, reply, hanswer, hreply⟩ :=
                reply_of_conclusion_eq_none hend
              obtain ⟨_, m, hdecode, hanswers⟩ := answers_of_step hreply
              have hnext := hI.reply (hI.clock h) hlength hanswer hdecode hanswers
              have hlimits := (t.step_frame response).2.1
              obtain ⟨t', body', s', hI', hlimits', hending⟩ :=
                ih hnext (by dsimp only; rw [hlimits]; omega)
              rw [play_of_reply channel s hrefusal hanswer hreply]
              refine ⟨t', body', s', hI', hlimits'.trans hlimits, ?_⟩
              have hleft' : t.limits.maxRounds - (t.rounds + 1) = left := by omega
              rw [hleft']
              exact hending

/-- **An invariant that holds at the opening holds at the end of the run.** -/
theorem Invariant.run (hI : Invariant channel I) {t : Transfer} {s : σ}
    (hstage : t.stage = .sending) (hroots : t.roots.length ≤ 7)
    (h : I { t with stage := .awaitingPeer } (HostMessage.start t.roots).encode
      (channel.time s).2) :
    ∃ t' body' s', I t' body' s' ∧ t'.limits = t.limits ∧
      Ending channel t' body' s' (t.run.run channel s) := by
  rw [Transfer.run, Dialogue.run_clock, start_of_sending hstage hroots]
  exact hI.play h

/-- What the record says of a run at its end, for a property that every exchange
with a reply hands on. -/
theorem run_logged {J : Transfer → Bytes → List Exchange → Prop}
    (hreply : ∀ {t t' : Transfer} {body response : Bytes} {log : List Exchange}
        {m : PeerMessage} {reply : HostMessage}, J t body log →
      PeerMessage.decode response = .ok m → t.Answers m reply t' →
      J { t' with rounds := t.rounds + 1 } reply.encode
        (⟨⟨t.header, body⟩, .ok response⟩ :: log))
    (channel : Channel σ) (s : σ) {t : Transfer} (hstage : t.stage = .sending)
    (hroots : t.roots.length ≤ 7)
    (h : J { t with stage := .awaitingPeer } (HostMessage.start t.roots).encode []) :
    let played := t.run.run channel.logged (s, [])
    ∃ t' body' log, J t' body' log ∧ t'.limits = t.limits ∧
      ((∃ deadline now e,
          t'.limits.refusal deadline now t'.rounds body' = some e ∧
          played.1 = .error e ∧ played.2.2 = log) ∨
        ∃ response, t'.conclusion response = some played.1 ∧
          played.2.2 = ⟨⟨t'.header, body'⟩, response⟩ :: log) := by
  intro played
  have hI : Invariant channel.logged fun t body s => J t body s.2 :=
    { clock := fun h => h
      reply := by
        intro t t' body response s m reply h _ hanswer hdecode hanswers
        have hnext := hreply h hdecode hanswers
        rw [← hanswer] at hnext
        exact hnext }
  obtain ⟨t', body', s', hJ, hlimits, hending⟩ :=
    hI.run (s := (s, [])) hstage hroots h
  refine ⟨t', body', s'.2, hJ, hlimits, ?_⟩
  rcases hending.cases with ⟨deadline, now, e, hrefusal, hplayed⟩ | ⟨_, hend, hlast⟩
  · exact Or.inl ⟨deadline, now, e, hrefusal, congrArg Prod.fst hplayed,
      congrArg (·.2.2) hplayed⟩
  · exact Or.inr ⟨_, hend, congrArg Prod.snd hlast⟩

end Loop

end Transfer
end Courier
