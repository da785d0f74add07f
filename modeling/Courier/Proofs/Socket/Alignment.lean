import Courier.Proofs.Slices
import Courier.Socket.Emulator

/-!
# Exchanges on one connection

A server answers each command that reaches it with one reply.  Then every exchange reads
exactly the reply to its own command, whatever came of the exchanges before: commands
that no frame holds are refused without a trace, and a status word other than success
leaves nothing unread.

* `Request.wireBytes`, `Reply.wireBytes`: commands and replies on the wire, and
  `Reply.result`: what a reply means to the caller.
* `Server.Answers`: a server that has a whole reply for each command, and
  `Wire.Assigned`: results that belong to their commands.
* `Wire.exchange_of_reply`, `Wire.exchange_of_long_body`, `Wire.exchange_of_early_end`,
  `Wire.exchange_of_long_reply`: one exchange.
* `Request.eq_of_flatten_wireBytes`: the bytes of several commands tell them apart.
* `Wire.session_stays_aligned`: any number of exchanges.
-/

namespace Courier

/-- A reply of a server: a body whose length can be announced, and a status word. -/
structure Reply where
  body : Bytes
  status : Status
  length_le : body.length ≤ Wire.maxResponse

namespace Reply

/-- The length of the body, the body, and the status word. -/
def wireBytes (r : Reply) : Bytes :=
  Bytes.ofNatBE 4 r.body.length ++ (r.body ++ Bytes.ofNatBE 2 r.status.code.toNat)

/-- The body, or a refusal that carries it. -/
def result (r : Reply) : Response :=
  if r.status.code = 0x9000 then .ok r.body else .error (.peer r.status r.body)

end Reply

/-- The length of the frame; header, length of the body, and body. -/
def Request.wireBytes (c : Request) : Bytes :=
  Bytes.ofNatBE 4 (5 + c.body.length) ++
    (c.header.bytes ++ UInt8.ofNat c.body.length :: c.body)

/-- The server answers commands one after another, each with a whole reply. -/
inductive Server.Answers {σ : Type} (server : Server σ) :
    σ → List Request → List Reply → σ → Prop
  | nil (s : σ) : Answers server s [] [] s
  | cons {s s' : σ} {c : Request} {r : Reply} {commands : List Request}
      {replies : List Reply} (hreply : (server.react s c.wireBytes).1 = r.wireBytes)
      (hrest : Answers server (server.react s c.wireBytes).2 commands replies s') :
      Answers server s (c :: commands) (r :: replies) s'

namespace Wire

variable {σ : Type} {server : Server σ}

/-- Exchanges one after another: what each of them comes to, and the connection after
the last. -/
def exchangeAll (server : Server σ) :
    Wire σ → List Request → List Response × Wire σ
  | w, [] => ([], w)
  | w, c :: commands =>
      let first := w.exchange server c
      let later := exchangeAll server first.2 commands
      (first.1 :: later.1, later.2)

/-- The results belong to the commands: one that fits a frame gets the next reply, and
one that does not fit is refused and uses none. -/
inductive Assigned : List Request → List Reply → List Response → Prop
  | nil : Assigned [] [] []
  | answered {c : Request} {r : Reply} {commands : List Request} {replies : List Reply}
      {results : List Response} (hfits : c.Fits)
      (hrest : Assigned commands replies results) :
      Assigned (c :: commands) (r :: replies) (r.result :: results)
  | refused {c : Request} {commands : List Request} {replies : List Reply}
      {results : List Response} (hlong : ¬ c.Fits)
      (hrest : Assigned commands replies results) :
      Assigned (c :: commands) replies
        (.error (.encoding (.bodyTooLong c.body.length)) :: results)

/-- The commands that reach the server. -/
def sendable (commands : List Request) : List Request :=
  commands.filter fun c => c.Fits

end Wire

namespace Request

variable {c d : Request}

/-- What goes out for a command that fits a frame. -/
theorem requestBytes_eq (hfits : c.Fits) : Wire.requestBytes c = .ok c.wireBytes := by
  have hshort : ¬ Frame.maxBody < c.body.length := Nat.not_lt.mpr hfits
  have hlength : (c.header.bytes ++ UInt8.ofNat c.body.length :: c.body).length =
      5 + c.body.length := by
    simp only [Header.bytes, List.length_append, List.length_cons, List.length_nil]
    omega
  simp only [Wire.requestBytes, Frame.encode, if_neg hshort, hlength]
  rfl

/-- Nothing goes out for any other command. -/
theorem requestBytes_of_long (hlong : ¬ c.Fits) :
    Wire.requestBytes c = .error (.encoding (.bodyTooLong c.body.length)) := by
  have hlength : Frame.maxBody < c.body.length := Nat.lt_of_not_le hlong
  simp only [Wire.requestBytes, Frame.encode, if_pos hlength]

/-- A command is known by the front of what follows from it on. -/
theorem wireBytes_append_inj (hc : c.Fits) (hd : d.Fits) {x y : Bytes}
    (h : c.wireBytes ++ x = d.wireBytes ++ y) : c = d ∧ x = y := by
  rcases c with ⟨⟨cla, ins, p1, p2⟩, body⟩
  rcases d with ⟨⟨cla', ins', p1', p2'⟩, body'⟩
  simp only [wireBytes, Header.bytes, List.append_assoc] at h
  -- the width of the first field is fixed, and so is that of the header
  obtain ⟨_, h⟩ := List.append_inj h (by simp)
  simp only [List.cons_append, List.nil_append, List.cons.injEq] at h
  obtain ⟨rfl, rfl, rfl, rfl, hcount, h⟩ := h
  have hlength : body.length = body'.length := by
    have hcounts := congrArg UInt8.toNat hcount
    simp only [Fits, Frame.maxBody] at hc hd
    rw [UInt8.toNat_ofNat', UInt8.toNat_ofNat'] at hcounts
    omega
  obtain ⟨rfl, rfl⟩ := List.append_inj h hlength
  exact ⟨rfl, rfl⟩

theorem wireBytes_ne_nil (c : Request) : c.wireBytes ≠ [] := by
  intro hnil
  have hlength := congrArg List.length hnil
  simp [wireBytes, Header.bytes] at hlength

/-- The bytes of several commands tell them apart. -/
theorem eq_of_flatten_wireBytes {commands others : List Request}
    (hcommands : ∀ c ∈ commands, c.Fits) (hothers : ∀ c ∈ others, c.Fits)
    (h : (commands.map wireBytes).flatten = (others.map wireBytes).flatten) :
    commands = others := by
  induction commands generalizing others with
  | nil =>
      cases others with
      | nil => rfl
      | cons d rest =>
          have hnil := (List.append_eq_nil_iff.mp h.symm).1
          exact absurd hnil d.wireBytes_ne_nil
  | cons c rest ih =>
      cases others with
      | nil =>
          have hnil := (List.append_eq_nil_iff.mp h).1
          exact absurd hnil c.wireBytes_ne_nil
      | cons d later =>
          obtain ⟨rfl, hrest⟩ := wireBytes_append_inj (hcommands c List.mem_cons_self)
            (hothers d List.mem_cons_self) h
          rw [ih (fun e he => hcommands e (List.mem_cons_of_mem _ he))
            (fun e he => hothers e (List.mem_cons_of_mem _ he)) hrest]

end Request

namespace Wire

variable {σ : Type} {server : Server σ} {w : Wire σ} {c : Request}

/-- A read takes the front of what has arrived. -/
theorem receive_of_append {front rest : Bytes} (harrived : w.arrived = front ++ rest)
    {n : Nat} (hn : front.length = n) :
    w.receive server n = (.ok front, { w with arrived := rest }) := by
  have hle : n ≤ w.arrived.length := by
    rw [harrived, List.length_append]
    omega
  rw [receive, if_pos hle, harrived, ← hn, List.take_left, List.drop_left]

/-- A read of more than there is fails at the end of the stream. -/
theorem receive_of_short {n : Nat} (hshort : w.arrived.length < n)
    (hclosed : server.ending w.server = .closed) :
    w.receive server n =
      (.error (.transport (.closed w.address)), { w with arrived := [] }) := by
  rw [receive, if_neg (Nat.not_le.mpr hshort)]
  simp only [hclosed]

/-- The connection after the reaction to a command, with some of it yet to be read. -/
def reacted (server : Server σ) (w : Wire σ) (c : Request) (unread : Bytes) : Wire σ :=
  { w with
    server := (server.react w.server c.wireBytes).2
    arrived := unread
    sent := w.sent ++ c.wireBytes }

/-- A command that no frame holds is refused without a trace. -/
theorem exchange_of_long_body (hlong : ¬ c.Fits) :
    w.exchange server c = (.error (.encoding (.bodyTooLong c.body.length)), w) := by
  simp only [exchange, Request.requestBytes_of_long hlong]

section Reaction

variable {reaction : Bytes} (hfresh : w.arrived = [])
variable (hreaction : (server.react w.server c.wireBytes).1 = reaction)
include hfresh hreaction

theorem send_eq_reacted : w.send server c.wireBytes = w.reacted server c reaction := by
  rw [send, hfresh, reacted, hreaction]
  rfl

variable (hfits : c.Fits)
include hfits

/-- Without four bytes there is no length. -/
theorem exchange_of_no_length (hshort : reaction.length < 4)
    (hclosed : server.ending (server.react w.server c.wireBytes).2 = .closed) :
    (w.exchange server c).1 = .error (.transport (.closed w.address)) := by
  have hread : (w.reacted server c reaction).receive server 4 = _ :=
    receive_of_short hshort hclosed
  simp only [exchange, Request.requestBytes_eq hfits,
    send_eq_reacted hfresh hreaction, hread]
  rfl

section Length

variable {announced rest : Bytes} (hsplit : reaction = announced ++ rest)
variable (hfour : announced.length = 4)
include hsplit hfour

/-- A length that no reply can have is a fault. -/
theorem exchange_of_bad_length {e : Failure} (hbad : bodyLength announced = .error e) :
    w.exchange server c = (.error e, w.reacted server c rest) := by
  have hread : (w.reacted server c reaction).receive server 4 =
      (.ok announced, w.reacted server c rest) :=
    receive_of_append hsplit hfour
  simp only [exchange, Request.requestBytes_eq hfits,
    send_eq_reacted hfresh hreaction, hread, hbad]

/-- Any other length decides what is read. -/
theorem exchange_of_length {length : Nat} (hlength : bodyLength announced = .ok length) :
    let read := (w.reacted server c rest).receive server (length + 2)
    w.exchange server c = (read.1.bind (outcome length), read.2) := by
  have hread : (w.reacted server c reaction).receive server 4 =
      (.ok announced, w.reacted server c rest) :=
    receive_of_append hsplit hfour
  simp only [exchange, Request.requestBytes_eq hfits,
    send_eq_reacted hfresh hreaction, hread, hlength]
  generalize (w.reacted server c rest).receive server (length + 2) = read
  rcases read with ⟨e | raw, left⟩
  · rfl
  · rfl

end Length

end Reaction

/-- The length that a reply announces is accepted. -/
theorem bodyLength_of_reply (r : Reply) :
    bodyLength (Bytes.ofNatBE 4 r.body.length) = .ok r.body.length := by
  have hle := r.length_le
  rw [maxResponse] at hle
  have hread : Bytes.toNatBE (Bytes.ofNatBE 4 r.body.length) = r.body.length :=
    Bytes.toNatBE_ofNatBE (by omega)
  rw [bodyLength, hread, if_neg (Nat.not_lt.mpr r.length_le)]

/-- The body and the status word are told apart. -/
theorem outcome_of_reply (r : Reply) :
    outcome r.body.length (r.body ++ Bytes.ofNatBE 2 r.status.code.toNat) = r.result := by
  rcases r with ⟨body, ⟨code⟩, hle⟩
  have hread : Bytes.toNatBE (Bytes.ofNatBE 2 code.toNat) = code.toNat :=
    Bytes.toNatBE_ofNatBE code.toNat_lt
  simp only [outcome, List.take_left, List.drop_left, hread, Status.ofNat,
    UInt16.ofNat_toNat, Frame.outcome, Reply.result, Status.ok, Status.mk.injEq]

section Fits

variable (hfresh : w.arrived = []) (hfits : c.Fits)
include hfresh hfits

/-- A whole reply is read to its end. -/
theorem exchange_of_reply {r : Reply}
    (hreply : (server.react w.server c.wireBytes).1 = r.wireBytes) :
    w.exchange server c = (r.result, w.reacted server c []) := by
  have hlength : (r.body ++ Bytes.ofNatBE 2 r.status.code.toNat).length =
      r.body.length + 2 := by
    rw [List.length_append, Bytes.length_ofNatBE]
  have hread : (w.reacted server c
      (r.body ++ Bytes.ofNatBE 2 r.status.code.toNat)).receive server (r.body.length + 2) =
        (.ok (r.body ++ Bytes.ofNatBE 2 r.status.code.toNat), w.reacted server c []) :=
    receive_of_append (List.append_nil _).symm hlength
  have hfour : (Bytes.ofNatBE 4 r.body.length).length = 4 := Bytes.length_ofNatBE 4 _
  have hsplit : r.wireBytes = Bytes.ofNatBE 4 r.body.length ++
      (r.body ++ Bytes.ofNatBE 2 r.status.code.toNat) := rfl
  rw [exchange_of_length hfresh hreply hfits hsplit hfour (bodyLength_of_reply r), hread]
  exact congrArg (·, w.reacted server c []) (outcome_of_reply r)

/-- A stream that ends inside a reply is a fault of the connection. -/
theorem exchange_of_early_end {r : Reply} {part missing : Bytes}
    (hpart : (server.react w.server c.wireBytes).1 = part)
    (hreply : r.wireBytes = part ++ missing) (hmissing : missing ≠ [])
    (hclosed : server.ending (server.react w.server c.wireBytes).2 = .closed) :
    (w.exchange server c).1 = .error (.transport (.closed w.address)) := by
  by_cases hshort : part.length < 4
  · exact exchange_of_no_length hfresh hpart hfits hshort hclosed
  · -- the length is there, and the end is missing behind it
    have hfour : (part.take 4).length = 4 := by
      rw [List.length_take]
      omega
    rw [← List.take_append_drop 4 part, List.append_assoc, Reply.wireBytes] at hreply
    obtain ⟨hlength, hrest⟩ := List.append_inj hreply (by rw [hfour]; simp)
    have hless : (part.drop 4).length < r.body.length + 2 := by
      have htotal := congrArg List.length hrest
      have hpos := List.length_pos_of_ne_nil hmissing
      simp only [List.length_append, Bytes.length_ofNatBE] at htotal
      omega
    have hread : (w.reacted server c (part.drop 4)).receive server (r.body.length + 2) = _ :=
      receive_of_short hless hclosed
    have hbody : bodyLength (part.take 4) = .ok r.body.length := by
      rw [← hlength, bodyLength_of_reply]
    rw [exchange_of_length hfresh hpart hfits (List.take_append_drop 4 part).symm hfour hbody,
      hread]
    rfl

/-- So is a length that no reply can have. -/
theorem exchange_of_long_reply {announced rest : Bytes} (hfour : announced.length = 4)
    (hlong : maxResponse < Bytes.toNatBE announced)
    (hreaction : (server.react w.server c.wireBytes).1 = announced ++ rest) :
    (w.exchange server c).1 =
      .error (.transport (.frameLength (Bytes.toNatBE announced))) := by
  have hbad : bodyLength announced = .error _ := if_pos hlong
  rw [exchange_of_bad_length hfresh hreaction hfits rfl hfour hbad]

end Fits

/-- What a whole session keeps: results and commands belong together, and nothing is
left unread. -/
theorem exchangeAll_of_answers (hfresh : w.arrived = []) {commands : List Request}
    {replies : List Reply} {s' : σ}
    (hanswers : server.Answers w.server (sendable commands) replies s') :
    Assigned commands replies (w.exchangeAll server commands).1 ∧
      (w.exchangeAll server commands).2 =
        { w with
          server := s'
          sent := w.sent ++ ((sendable commands).map Request.wireBytes).flatten } := by
  induction commands generalizing w replies with
  | nil =>
      cases hanswers
      refine ⟨.nil, ?_⟩
      simp [exchangeAll, sendable]
  | cons c rest ih =>
      by_cases hfits : c.Fits
      · have hsend : sendable (c :: rest) = c :: sendable rest :=
          List.filter_cons_of_pos (decide_eq_true hfits)
        rw [hsend] at hanswers ⊢
        cases hanswers with
        | @cons _ _ _ r _ replies hreply hlater =>
            obtain ⟨hresults, hafter⟩ := ih (w := w.reacted server c []) rfl hlater
            simp only [exchangeAll, exchange_of_reply hfresh hfits hreply]
            refine ⟨.answered hfits hresults, ?_⟩
            rw [hafter, ← hfresh]
            simp [reacted]
      · have hsend : sendable (c :: rest) = sendable rest :=
          List.filter_cons_of_neg (by simp [hfits])
        rw [hsend] at hanswers ⊢
        obtain ⟨hresults, hafter⟩ := ih hfresh hanswers
        simp only [exchangeAll, exchange_of_long_body hfits]
        exact ⟨.refused hfits hresults, hafter⟩

/-- **A session stays aligned.**  With a server that has a whole reply for each command
that reaches it, the exchanges of a session bring to each command the result that
belongs to it; exactly the commands that fit a frame go out, and their bytes tell them
apart from every other list of such commands.  If the stream ends inside the reply to a
further command, be it before the length is complete, or that reply announces a body
that is too long, the exchange fails as a fault of the connection. -/
theorem session_stays_aligned (hfresh : w.arrived = []) {commands : List Request}
    {replies : List Reply} {s' : σ}
    (hanswers : server.Answers w.server (sendable commands) replies s') :
    let played := w.exchangeAll server commands
    let stream := ((sendable commands).map Request.wireBytes).flatten
    Assigned commands replies played.1 ∧
    played.2 = { w with server := s', sent := w.sent ++ stream } ∧
    (∀ others : List Request, (∀ c ∈ others, c.Fits) →
      (others.map Request.wireBytes).flatten = stream → others = sendable commands) ∧
    ∀ c : Request, c.Fits →
      let reaction := server.react s' c.wireBytes
      (∀ (r : Reply) (missing : Bytes), r.wireBytes = reaction.1 ++ missing →
        missing ≠ [] → server.ending reaction.2 = .closed →
        (played.2.exchange server c).1 = .error (.transport (.closed w.address))) ∧
      (∀ announced rest : Bytes, announced.length = 4 →
        65535 < Bytes.toNatBE announced → reaction.1 = announced ++ rest →
        (played.2.exchange server c).1 =
          .error (.transport (.frameLength (Bytes.toNatBE announced)))) ∧
      (reaction.1.length < 4 → server.ending reaction.2 = .closed →
        (played.2.exchange server c).1 = .error (.transport (.closed w.address))) := by
  intro played stream
  obtain ⟨hresults, hafter⟩ := exchangeAll_of_answers hfresh hanswers
  refine ⟨hresults, hafter, ?_, ?_⟩
  · intro others hothers hsame
    refine Request.eq_of_flatten_wireBytes hothers (fun c hc => ?_) hsame
    exact of_decide_eq_true (List.mem_filter.mp hc).2
  · intro c hfits
    have hserver : played.2.server = s' := congrArg Wire.server hafter
    have haddress : played.2.address = w.address := by
      rw [show played.2 = _ from hafter]
    have harrived : played.2.arrived = [] := by
      rw [show played.2 = _ from hafter]
      exact hfresh
    rw [← hserver, ← haddress]
    intro reaction
    refine ⟨?_, ?_, ?_⟩
    · intro r missing hreply hmissing hclosed
      exact exchange_of_early_end harrived hfits rfl hreply hmissing hclosed
    · intro announced rest hfour hlong hreaction
      exact exchange_of_long_reply harrived hfits hfour hlong hreaction
    · intro hshort hclosed
      exact exchange_of_no_length harrived rfl hfits hshort hclosed

/-- A long body between two commands, and a third reply of which one byte is missing. -/
theorem session_stays_aligned_past_a_long_body :
    let key : Reply := ⟨[1, 2, 3], Status.ok, by decide⟩
    let denied : Reply := ⟨[], Status.deny, by decide⟩
    let script := [key.wireBytes, denied.wireBytes, key.wireBytes.take 8]
    let w : Wire Replay := { address := "localhost:9999", server := ⟨script, .closed⟩ }
    let short : Request := ⟨⟨0, 2, 0, 0⟩, [7]⟩
    let long : Request := ⟨⟨0, 3, 0, 0⟩, List.replicate 256 7⟩
    let played := w.exchangeAll Replay.server [short, long, short]
    played.1 =
      [.ok [1, 2, 3], .error (.encoding (.bodyTooLong 256)), .error (.peer Status.deny [])] ∧
    (played.2.exchange Replay.server short).1 =
      .error (.transport (.closed "localhost:9999")) := by
  intro key denied script w short long played
  have hlength : long.body.length = 256 := List.length_replicate
  have hshort : short.Fits := by decide
  have hlong : ¬ long.Fits := by
    rw [Request.Fits, hlength]
    decide
  have hsendable : sendable [short, long, short] = [short, short] := by
    simp [sendable, hshort, hlong]
  have hanswers : Replay.server.Answers w.server (sendable [short, long, short])
      [key, denied] ⟨[key.wireBytes.take 8], .closed⟩ := by
    rw [hsendable]
    exact .cons rfl (.cons rfl (.nil _))
  obtain ⟨hassigned, _, _, hfurther⟩ := session_stays_aligned (w := w) rfl hanswers
  refine ⟨?_, (hfurther short hshort).1 key [0] (by decide) (by decide) rfl⟩
  change Assigned [short, long, short] [key, denied] played.1 at hassigned
  generalize played.1 = results at hassigned ⊢
  cases hassigned with
  | refused hnot hrest => exact absurd hshort hnot
  | answered hfits hrest =>
      cases hrest with
      | answered hfits hrest => exact absurd hfits hlong
      | refused hnot hrest =>
          cases hrest with
          | refused hnot hrest => exact absurd hshort hnot
          | answered hfits hrest =>
              cases hrest
              rw [hlength]
              rfl

end Wire
end Courier
