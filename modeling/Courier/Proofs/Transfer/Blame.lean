import Courier.Device.Script
import Courier.Proofs.Transfer.Loop

/-!
# Who is blamed for a missing chunk

A transfer remembers a miss only while its answer "chunk not found" is out.  Seen
from the record of the exchanges, the miss that it remembers is the one that the
pending body reports, and there is none under any other body.  So a refusal is
laid on a missing chunk exactly when it answers for one.

* `ReportsMiss`: a body that reports the chunk asked for right before it.
* `Transfer.MissOnRecord`: what is remembered is what the record says; each
  exchange with a reply keeps this (`MissOnRecord.reply`).
* `Transfer.blame_is_exact`: the error of a run, for every channel.
-/

namespace Courier

/-- The body says that a chunk was not found, and the exchange before it, the
latest of those on record, asked for that chunk. -/
def ReportsMiss (body : Bytes) (earlier : List Exchange) (asked : Hash) : Prop :=
  body = HostMessage.chunkNotFound.encode ∧
  ∃ previous before, earlier = previous :: before ∧
    previous.Brings (.getChunk asked)

theorem ReportsMiss.unique {body : Bytes} {earlier : List Exchange}
    {asked asked' : Hash} (h : ReportsMiss body earlier asked)
    (h' : ReportsMiss body earlier asked') : asked = asked' := by
  obtain ⟨_, previous, before, rfl, hbrings⟩ := h
  obtain ⟨_, previous', before', hearlier, hbrings'⟩ := h'
  obtain ⟨rfl, _⟩ := List.cons.inj hearlier
  exact PeerMessage.getChunk.inj (hbrings.unique hbrings')

/-- If every exchange before the last one brought a response, the last one is the
only one that can have brought an error. -/
theorem Exchange.eq_last_of_error {last x : Exchange}
    {before later earlier : List Exchange} {e : Failure}
    (hbefore : ∀ y ∈ before, ∃ response, y.response = .ok response)
    (hsplit : last :: before = later ++ x :: earlier)
    (herror : x.response = .error e) :
    later = [] ∧ x = last ∧ earlier = before := by
  cases later with
  | nil =>
      obtain ⟨hlast, hearlier⟩ := List.cons.inj hsplit
      exact ⟨rfl, hlast.symm, hearlier.symm⟩
  | cons y rest =>
      have hmem : x ∈ before := by
        rw [(List.cons.inj hsplit).2]
        simp
      obtain ⟨response, hresponse⟩ := hbefore x hmem
      rw [herror] at hresponse
      cases hresponse

namespace Transfer

/-- What becomes a missing chunk: a refusal while a miss is remembered, and what
was one before. -/
theorem blame_eq_chunkNotFound_iff {e : Failure} {miss : Option Hash}
    {hash : String} {status : Status} {data : Bytes} :
    blame e miss = .chunkNotFound hash status data ↔
      (e = .peer status data ∧ ∃ asked, miss = some asked ∧ hash = asked.toHex) ∨
      e = .chunkNotFound hash status data := by
  cases miss with
  | none => cases e <;> simp [blame]
  | some asked =>
      cases e with
      | peer status' data' =>
          simp only [blame, Failure.chunkNotFound.injEq, Failure.peer.injEq,
            Option.some.injEq, exists_eq_left', reduceCtorEq, or_false]
          constructor
          · rintro ⟨rfl, rfl, rfl⟩
            exact ⟨⟨rfl, rfl⟩, rfl⟩
          · rintro ⟨⟨rfl, rfl⟩, rfl⟩
            exact ⟨rfl, rfl, rfl⟩
      | _ => simp [blame]

/-- Everything else passes. -/
theorem blame_eq_self {e : Failure} {miss : Option Hash}
    (h : ∀ status data, e = .peer status data → miss = none) :
    blame e miss = e := by
  cases e with
  | peer status data =>
      rw [h status data rfl]
      rfl
  | _ => rfl

/-- The record holds responses only, and the miss that is remembered is the one
that the pending body reports. -/
structure MissOnRecord (t : Transfer) (body : Bytes) (log : List Exchange) :
    Prop where
  answered : ∀ x ∈ log, ∃ response, x.response = .ok response
  reported : ∀ asked, t.unansweredMiss = some asked → ReportsMiss body log asked
  clear : t.unansweredMiss = none → body ≠ HostMessage.chunkNotFound.encode

/-- A reply changes what is remembered together with the body. -/
theorem MissOnRecord.reply {t t' : Transfer} {body response : Bytes}
    {log : List Exchange} {m : PeerMessage} {reply : HostMessage}
    (h : t.MissOnRecord body log) (hdecode : PeerMessage.decode response = .ok m)
    (hanswers : t.Answers m reply t') :
    { t' with rounds := t.rounds + 1 }.MissOnRecord reply.encode
      (⟨⟨t.header, body⟩, .ok response⟩ :: log) := by
  have hanswered : ∀ x ∈ (⟨⟨t.header, body⟩, .ok response⟩ : Exchange) :: log,
      ∃ response, x.response = .ok response :=
    List.forall_mem_cons.mpr ⟨⟨response, rfl⟩, h.answered⟩
  cases hanswers with
  | accumulated fragment =>
      exact ⟨hanswered, fun asked hasked => (by cases hasked), fun _ => by decide⟩
  | served hstored =>
      refine ⟨hanswered, fun asked hasked => (by cases hasked), fun _ heq => ?_⟩
      have htag := (List.cons.inj heq).1
      simp [HostMessage.tag] at htag
  | missed habsent =>
      refine ⟨hanswered, ?_, fun hnone => (by cases hnone)⟩
      intro asked hasked
      cases hasked
      exact ⟨rfl, _, _, rfl, response, rfl, hdecode⟩
  | stored chunk =>
      -- what was remembered went with the message before
      exact ⟨hanswered, fun asked hasked => (by cases hasked), fun _ => by decide⟩

theorem MissOnRecord.unansweredMiss_eq_some_iff {t : Transfer} {body : Bytes}
    {log : List Exchange} (h : t.MissOnRecord body log) (asked : Hash) :
    t.unansweredMiss = some asked ↔ ReportsMiss body log asked := by
  constructor
  · exact h.reported asked
  · intro hreports
    cases hmiss : t.unansweredMiss with
    | none => exact absurd hreports.1 (h.clear hmiss)
    | some asked' => rw [(h.reported asked' hmiss).unique hreports]

/-- The failures that a transfer raises itself, with nothing wrong on the
channel. -/
def RaisesItself (t : Transfer) (e : Failure) : Prop :=
  e = .roundLimit t.limits.maxRounds ∨ (∃ why, e = .timeout why) ∨
  (∃ why, e = .encoding why) ∨ ∃ why, e = .protocol why

/-- Nothing is on record yet, and nothing has been missed. -/
theorem missOnRecord_opening {t : Transfer} (ht : t.Built)
    (hstage : t.stage = .sending) :
    MissOnRecord { t with stage := .awaitingPeer }
      (HostMessage.start t.roots).encode [] := by
  have hnone : t.unansweredMiss = none := ht.unansweredMiss_eq_none hstage
  refine ⟨fun x hx => (by cases hx), fun asked hasked => ?_, fun _ heq => ?_⟩
  · cases hnone.symm.trans hasked
  · have htag := (List.cons.inj heq).1
    simp [HostMessage.tag] at htag

/-- The end of a run by its record: either every exchange brought a response, or
the last one brought an error, and the run lays it on the miss that it
remembers. -/
theorem run_ends_on_record {t : Transfer} (ht : t.Built) {σ : Type}
    (channel : Channel σ) (s : σ) :
    let played := t.run.run channel.logged (s, [])
    ((∀ x ∈ played.2.2, ∃ response, x.response = .ok response) ∧
      ∀ e, played.1 = .error e → t.RaisesItself e) ∨
    ∃ t' x log e, played.2.2 = x :: log ∧ x.response = .error e ∧
      MissOnRecord t' x.request.body log ∧
      played.1 = .error (blame e t'.unansweredMiss) := by
  intro played
  by_cases hstage : t.stage = .sending
  · by_cases hroots : t.roots.length ≤ 7
    · obtain ⟨t', body, log, hrecord, hlimits, hending⟩ :=
        run_logged MissOnRecord.reply channel s hstage hroots
          (missOnRecord_opening ht hstage)
      rcases hending with ⟨deadline, now, e, hrefusal, houtcome, hlog⟩ |
        ⟨response, hend, hlog⟩
      · left
        refine ⟨by rw [hlog]; exact hrecord.answered, fun e' he' => ?_⟩
        obtain rfl := Except.error.inj (houtcome.symm.trans he')
        rw [RaisesItself, ← hlimits]
        rcases Limits.refusal_cases hrefusal with rfl | rfl | ⟨_, rfl⟩
        · exact Or.inl rfl
        · exact Or.inr (Or.inl ⟨_, rfl⟩)
        · exact Or.inr (Or.inr (Or.inl ⟨_, rfl⟩))
      · cases response with
        | ok response =>
            left
            refine ⟨?_, fun e he => ?_⟩
            · rw [hlog]
              exact List.forall_mem_cons.mpr ⟨⟨response, rfl⟩, hrecord.answered⟩
            · rw [he] at hend
              exact Or.inr (Or.inr (Or.inr (protocol_of_conclusion hend)))
        | error e =>
            right
            exact ⟨t', _, log, e, hlog, rfl, hrecord, (Option.some.inj hend).symm⟩
    · left
      have hplayed : played = _ :=
        run_of_tooMany channel.logged (s, []) hstage hroots
      rw [hplayed]
      refine ⟨fun x hx => (by cases hx), fun e he => ?_⟩
      exact Or.inr (Or.inr (Or.inl ⟨_, (Except.error.inj he).symm⟩))
  · left
    have hplayed : played = _ := run_of_start_error channel.logged (s, [])
      (congrArg Prod.fst (start_of_ne_sending hstage))
    rw [hplayed]
    refine ⟨fun x hx => (by cases hx), fun e he => ?_⟩
    exact Or.inr (Or.inr (Or.inr ⟨_, (Except.error.inj he).symm⟩))

/-- **A refusal is laid on a missing chunk exactly when it answers for one.**  Of
an exchange that brings an error the run makes "chunk not found" when the error is
a refusal and the exchange reported a miss, and it names the chunk that was missed;
any other error comes out as it went in, also one that says "chunk not found"
already.  What the run raises itself is never laid on a chunk. -/
theorem blame_is_exact {t : Transfer} (ht : t.Built) {σ : Type}
    (channel : Channel σ) (s : σ) :
    let outcome := (t.run.run channel.logged (s, [])).1
    let log := (t.run.run channel.logged (s, [])).2.2
    (∀ later x earlier e, log = later ++ x :: earlier → x.response = .error e →
      later = [] ∧
      (∀ hash status data,
        outcome = .error (.chunkNotFound hash status data) ↔
          (e = .peer status data ∧
            ∃ asked, ReportsMiss x.request.body earlier asked ∧
              hash = asked.toHex) ∨
          e = .chunkNotFound hash status data) ∧
      (x.request.body = HostMessage.chunkNotFound.encode →
        ∃ asked, ReportsMiss x.request.body earlier asked) ∧
      ((∀ status data, e = .peer status data →
          x.request.body ≠ HostMessage.chunkNotFound.encode) →
        outcome = .error e)) ∧
    ((∀ x ∈ log, ∃ response, x.response = .ok response) →
      ∀ e, outcome = .error e → t.RaisesItself e) := by
  intro outcome log
  rcases run_ends_on_record ht channel s with ⟨hanswered, hraised⟩ |
    ⟨t', last, before, e, hlog, herror, hrecord, houtcome⟩
  · refine ⟨?_, fun _ => hraised⟩
    intro later x earlier e hsplit herror
    have hmem : x ∈ log := by
      rw [hsplit]
      simp
    obtain ⟨response, hresponse⟩ := hanswered x hmem
    rw [herror] at hresponse
    cases hresponse
  · refine ⟨?_, fun hanswered => ?_⟩
    · intro later x earlier e' hsplit herror'
      obtain ⟨rfl, rfl, rfl⟩ := Exchange.eq_last_of_error hrecord.answered
        (hlog.symm.trans hsplit) herror'
      obtain rfl := Except.error.inj (herror'.symm.trans herror)
      have hblamed : outcome = .error (blame e' t'.unansweredMiss) := houtcome
      refine ⟨rfl, fun hash status data => ?_, fun hbody => ?_, fun hother => ?_⟩
      · rw [hblamed, Except.error.injEq, blame_eq_chunkNotFound_iff]
        simp only [hrecord.unansweredMiss_eq_some_iff]
      · obtain ⟨asked, hmiss⟩ := Option.ne_none_iff_exists'.mp
          fun hnone => hrecord.clear hnone hbody
        exact ⟨asked, hrecord.reported asked hmiss⟩
      · rw [hblamed, blame_eq_self]
        intro status data he
        by_contra hsome
        obtain ⟨asked, hmiss⟩ := Option.ne_none_iff_exists'.mp hsome
        exact hother status data he (hrecord.reported asked hmiss).1
    · have hmem : last ∈ log := by
        rw [show log = last :: before from hlog]
        exact List.mem_cons_self
      obtain ⟨response, hresponse⟩ := hanswered last hmem
      rw [herror] at hresponse
      cases hresponse

/-- A chunk is missed, and the device refuses. -/
theorem blame_for_a_missed_chunk :
    let t : Transfer :=
      { header := ⟨0, 3, 0, 0⟩, store := .empty, roots := [], limits := ⟨5, 10⟩ }
    let script : Script :=
      { replies := [.ok (2 :: Hash.zero.bytes), .error (.peer Status.deny [7])] }
    t.Built ∧ (t.run.run Script.channel.logged (script, [])).1 =
      .error (.chunkNotFound Hash.zero.toHex Status.deny [7]) := by
  intro t script
  have ht : t.Built := .fresh _ _ _ _
  refine ⟨ht, ?_⟩
  let log := (t.run.run Script.channel.logged (script, [])).2.2
  have hlog : log =
      [⟨⟨⟨0, 3, 0, 0⟩, [2]⟩, .error (.peer Status.deny [7])⟩,
        ⟨⟨⟨0, 3, 0, 0⟩, [0]⟩, .ok (2 :: Hash.zero.bytes)⟩] := by
    rfl
  obtain ⟨_, hiff, _⟩ :=
    (blame_is_exact ht Script.channel script).1 [] _ _ _ hlog rfl
  exact (hiff Hash.zero.toHex Status.deny [7]).mpr
    (Or.inl ⟨rfl, Hash.zero, ⟨rfl, _, _, rfl, _, rfl, rfl⟩, rfl⟩)

end Transfer
end Courier
