import Courier.Client
import Courier.Proofs.Signer.Resting
import Courier.Proofs.Strategy.FrameBound

/-!
# Operations one after another

A client of a signing application makes its requests in any order, and some of them
come to nothing halfway.  With block transfers a request leaves nothing behind for the
next one, unless the host has given up on its own; and then the next request that
reaches the application is refused, in one exchange, and clears the way.

* `Client.perform`: the operations of a client as one family;
  `Client.perform_cases`: each of them is a transfer, or it is not begun.
* `Signer.Undisturbed`: what holds of an application whatever is asked of it.
* `Client.operations_are_independent`: any operation after any others.
-/

namespace Courier

/-- The operations of a client. -/
inductive Operation
  | version
  | publicKey (path : Path)
  | confirmedKey (path : Path)
  | sign (path : Path) (tx : Bytes)

/-- What an operation brings. -/
inductive Operation.Answer
  | version (version : AppVersion)
  | key (key : KeyAnswer)
  | signature (bytes : Bytes)

namespace Client

/-- Carries an operation out. -/
def perform (c : Client) : Operation → Dialogue (Except Failure Operation.Answer)
  | .version => c.version.bind fun result => .done (result.map .version)
  | .publicKey path => (c.publicKey path).bind fun result => .done (result.map .key)
  | .confirmedKey path =>
      (c.confirmedKey path).bind fun result => .done (result.map .key)
  | .sign path tx => (c.sign path tx).bind fun result => .done (result.map .signature)

theorem map_read {α β : Type} (parse : Bytes → Except Failure α) (f : α → β)
    (response : Response) :
    (read parse response).map f = read (fun b => (parse b).map f) response := by
  cases response with
  | error e => rfl
  | ok b => rfl

/-- An operation sends at most two payloads and reads the response, if it does not fail
before that on something that it cannot send. -/
theorem perform_cases (c : Client) (operation : Operation) :
    (∃ why, c.perform operation = .done (.error (.encoding why))) ∨
    ∃ (ins : Instruction) (payloads : List Bytes)
      (parse : Bytes → Except Failure Operation.Answer),
      payloads.length ≤ 2 ∧ c.perform operation =
        (c.send ins payloads).bind fun response => .done (read parse response) := by
  have hread : ∀ {α : Type} (ins : Instruction) (payloads : List Bytes)
      (parse : Bytes → Except Failure α) (f : α → Operation.Answer),
      (((c.send ins payloads).bind fun response => .done (read parse response)).bind
        fun result => .done (result.map f)) =
      (c.send ins payloads).bind fun response =>
        .done (read (fun b => (parse b).map f) response) := by
    intro α ins payloads parse f
    rw [Dialogue.bind_bind]
    refine congrArg _ (funext fun response => ?_)
    exact congrArg Dialogue.done (map_read parse f response)
  cases operation with
  | version => exact Or.inr ⟨_, _, _, by simp, hread .getVersion [[]] _ _⟩
  | publicKey path =>
      exact Or.inr ⟨_, _, _, by simp, hread .getPublicKey [path.pack] _ _⟩
  | confirmedKey path =>
      exact Or.inr ⟨_, _, _, by simp, hread .verifyAddress [path.pack] _ _⟩
  | sign path tx =>
      simp only [perform, sign]
      split_ifs with hlong
      · exact Or.inl ⟨_, rfl⟩
      · refine Or.inr ⟨.signTx, [framed tx, path.pack], fun b => .ok (.signature b),
          by simp, ?_⟩
        refine congrArg _ (funext fun response => ?_)
        cases response with
        | error e => rfl
        | ok b => rfl

/-- Under validated settings an operation through block transfers is not begun, or it is
a new transfer. -/
theorem perform_blocks_cases {settings : Settings} (hvalid : settings.validate = .ok ())
    (operation : Operation) :
    (∃ why, perform ⟨settings, .blocks⟩ operation = .done (.error (.encoding why))) ∨
    ∃ (ins : Instruction) (t : Transfer)
      (parse : Bytes → Except Failure Operation.Answer), t.IsNew ins ∧
      perform ⟨settings, .blocks⟩ operation =
        t.run.bind fun response => .done (read parse response) := by
  obtain ⟨hsize, _, _, _⟩ := Settings.bounds_of_validate hvalid
  rcases perform_cases ⟨settings, .blocks⟩ operation with
    hnone | ⟨ins, payloads, parse, hpayloads, hperform⟩
  · exact Or.inl hnone
  · obtain ⟨t, hbuilt, ht⟩ :=
      Transfer.exists_isNew hsize (show payloads.length ≤ 7 by omega) ins
        settings.limits
    refine Or.inr ⟨ins, t, parse, ht, ?_⟩
    rw [hperform, send, SendMode.send_blocks hbuilt]

end Client

namespace Signer

/-- The application and its clock after several operations. -/
def afterOperations (readings : Nat → Nat) (s : Signer × Nat)
    (operations : List (Client × Operation)) : Signer × Nat :=
  operations.foldl
    (fun s op => ((op.1.perform op.2).run (channel.beside readings) s).2) s

/-- The application is set up as at first, and no instruction is set while its device is
idle. -/
structure Undisturbed (s fresh : Signer) : Prop where
  config : s.SameConfig fresh
  mode : s.mode = .blocks
  idle : s.peer.isIdle = true → s.running = none

variable {s fresh : Signer} {readings : Nat → Nat}

theorem Undisturbed.answer (h : s.Undisturbed fresh) (request : Request) :
    (s.answer request).2.Undisturbed fresh := by
  have hconfig := sameConfig_answer s request
  refine ⟨hconfig.trans h.config, hconfig.mode.trans h.mode, ?_⟩
  have hexchanges := s.exchanges_answer h.mode request
  generalize s.answer request = answered at hexchanges
  cases hexchanges with
  | foreign hstatus hheader hturn => exact h.idle
  | interrupts hheader hbusy hother hturn => exact fun _ => rfl
  | turns hheader hfree hmoves hturn => exact fun hidle => if_pos hidle

/-- Whatever is asked of the application. -/
theorem Undisturbed.afterOperations (h : s.Undisturbed fresh) (k : Nat)
    (operations : List (Client × Operation)) :
    (afterOperations readings (s, k) operations).1.Undisturbed fresh := by
  induction operations using List.reverseRecOn with
  | nil => exact h
  | append_singleton operations op ih =>
      rw [Signer.afterOperations, List.foldl_append]
      exact Dialogue.keeps (I := fun s : Signer × Nat => s.1.Undisturbed fresh)
        (fun s request hs => hs.answer request) (fun s hs => hs) _ ih

/-- An application that rests differs from one that nothing has been asked of in the
number of exchanges only. -/
theorem Undisturbed.resembles (h : s.Undisturbed fresh) (hfresh : fresh.Resting)
    (hidle : s.peer.isIdle = true) (k : Nat) : Resembles (s, k) (fresh, k) := by
  rcases s with ⟨mode, ⟨phase, size, push⟩, approves, exchanges, running⟩
  rcases fresh with ⟨mode', ⟨phase', size', push'⟩, approves', exchanges', running'⟩
  obtain ⟨⟨rfl, rfl, rfl, rfl⟩, _, hrunning⟩ := h
  obtain ⟨hphase', rfl⟩ := hfresh
  obtain rfl : phase = .idle := Peer.isIdle_iff.mp hidle
  obtain rfl : phase' = .idle := Peer.isIdle_iff.mp hphase'
  obtain rfl : running = none := hrunning hidle
  rfl

/-- Every operation has the same result and the same exchanges as it has on another
application from the same moment on. -/
def ServesLike (readings : Nat → Nat) (s : Signer × Nat) (other : Signer) : Prop :=
  ∀ (c : Client) (operation : Operation),
    let played :=
      (c.perform operation).run (channel.beside readings).logged (s, [])
    let there :=
      (c.perform operation).run (channel.beside readings).logged ((other, s.2), [])
    played.1 = there.1 ∧ played.2.2 = there.2.2

theorem servesLike_of_resembles {s t : Signer × Nat} (h : Resembles s t) :
    ServesLike readings s t.1 := by
  intro c operation played there
  have hclock : s.2 = t.2 := by
    rw [Resembles] at h
    rw [h]
  obtain ⟨hresult, _, hlog⟩ := (alike_resembling readings).logged.run
    (Dialogue.asks_any (c.perform operation)) ⟨h, rfl⟩ (s := (s, [])) (t := (t, []))
  have hthere : there =
      (c.perform operation).run (channel.beside readings).logged (t, []) := by
    simp only [there, hclock]
  rw [hthere]
  exact ⟨hresult, hlog⟩

end Signer

namespace Client

open Signer (afterOperations ServesLike Resting)

/-- **Operations are independent, and a half-finished one costs at most one refusal.**
Whatever has been asked of an application for block transfers before, an operation under
validated settings leaves it at rest, unless the host gives up on its own.  On an idle
application every operation has the result and the exchanges that it has on one of
which nothing has been asked.  On any other the operation makes no exchange, or it makes
one and is refused, and after that the application is as good as new. -/
theorem operations_are_independent (peer : Peer) (hidle : peer.isIdle = true)
    (approves : Bool) (readings : Nat → Nat) (earlier : List (Client × Operation))
    {settings : Settings} (hvalid : settings.validate = .ok ())
    (operation : Operation) :
    let fresh : Signer := { mode := .blocks, peer := peer, approves := approves }
    let s := afterOperations readings (fresh, 0) earlier
    let played := (perform ⟨settings, .blocks⟩ operation).run
      (Signer.channel.beside readings).logged (s, [])
    afterOperations readings (fresh, 0) (earlier ++ [(⟨settings, .blocks⟩, operation)]) =
      played.2.1 ∧
    ((∀ e, played.1 = .error e → e.isGivenUp = false) → played.2.1.1.Resting) ∧
    (s.1.peer.isIdle = true → ServesLike readings s fresh) ∧
    (s.1.peer.isIdle = false → played.2.2 ≠ [] →
      played.2.2.length = 1 ∧ played.1 = .error (.peer Status.badState []) ∧
      played.2.1.1.Resting ∧ ServesLike readings played.2.1 fresh) := by
  intro fresh s played
  have hfresh : fresh.Resting := ⟨hidle, rfl⟩
  have hstart : fresh.Undisturbed fresh := ⟨⟨rfl, rfl, rfl, rfl⟩, rfl, fun _ => rfl⟩
  have hs : s.1.Undisturbed fresh := hstart.afterOperations 0 earlier
  have hafter : played.2.1.1.Undisturbed fresh :=
    Dialogue.keeps (I := fun s : (Signer × Nat) × List Exchange =>
        s.1.1.Undisturbed fresh)
      (fun s request hs => hs.answer request) (fun s hs => hs) _ hs
  have hlike : ∀ s : Signer × Nat, s.1.Undisturbed fresh → s.1.peer.isIdle = true →
      ServesLike readings s fresh := fun s hs hidle =>
    Signer.servesLike_of_resembles (hs.resembles hfresh hidle s.2)
  have hnext : afterOperations readings (fresh, 0)
      (earlier ++ [(⟨settings, .blocks⟩, operation)]) = played.2.1 := by
    rw [afterOperations, List.foldl_append]
    exact (Dialogue.run_logged _ _ _ _).2.symm
  refine ⟨hnext, ?_⟩
  rcases perform_blocks_cases hvalid operation with
    ⟨why, hnone⟩ | ⟨ins, t, parse, ht, hperform⟩
  · have hplayed : played = (.error (.encoding why), s, []) := by
      simp only [played, hnone, Dialogue.run_done]
    rw [hplayed]
    refine ⟨?_, hlike s hs, ?_⟩
    · intro hends
      cases hends (.encoding why) rfl
    · intro hbusy hexchange
      exact absurd rfl hexchange
  · let sent := t.run.run (Signer.channel.beside readings).logged (s, [])
    have hplayed : played = (read parse sent.1, sent.2) := by
      simp only [played, hperform, Dialogue.run_bind, Dialogue.run_done, sent]
    rw [hplayed] at hafter ⊢
    refine ⟨?_, hlike s hs, ?_⟩
    · intro hends
      rcases Signer.rests_after_run ht hs.mode with ⟨e, hfailed, hgivenUp⟩ | hrests
      · have hread : read parse sent.1 = .error e := by
          rw [show sent.1 = .error e from hfailed]
          rfl
        cases (hends e hread).symm.trans hgivenUp
      · exact hrests
    · intro hbusy hexchange
      obtain ⟨hone, hrefused, hrests⟩ := Signer.run_on_busy ht hs.mode hbusy hexchange
      refine ⟨hone, ?_, hrests, hlike _ hafter hrests.1⟩
      rw [show sent.1 = _ from hrefused]
      rfl

/-- A request for a key after a request for the version that was given up in the middle
of the answer. -/
theorem operations_are_independent_after_a_cut :
    let cut : Client := ⟨{ maxRounds := 1 }, .blocks⟩
    let peer : Peer := { fragmentSize := 4 }
    let earlier := [(cut, .version)]
    let s := afterOperations (fun _ => 0) ({ mode := .blocks, peer := peer }, 0) earlier
    let played := (perform ⟨Settings.standard, .blocks⟩ (.publicKey ⟨[]⟩)).run
      (Signer.channel.beside fun _ => 0).logged (s, [])
    s.1.peer.isIdle = false ∧
    played.1 = .error (.peer Status.badState []) ∧ played.2.1.1.Resting := by
  intro cut peer earlier s played
  have hbusy : s.1.peer.isIdle = false := by decide +kernel
  have hlength : played.2.2.length = 1 := by decide +kernel
  have hexchange : played.2.2 ≠ [] := by
    intro hnil
    rw [hnil] at hlength
    cases hlength
  obtain ⟨_, _, _, hrefused⟩ := @operations_are_independent peer rfl true (fun _ => 0)
    earlier Settings.standard rfl (.publicKey ⟨[]⟩)
  obtain ⟨_, hresult, hrests, _⟩ := hrefused hbusy hexchange
  exact ⟨hbusy, hresult, hrests⟩

end Client
end Courier
