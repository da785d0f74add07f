import Courier.Frame

/-!
# Dialogues with a device

An operation on the host's side seen from the channel: it asks the device, goes
on with what comes back, and may look at the clock.  A dialogue is a finite tree
of such moves, so that one definition serves a device computed in place, a device
given by a history, and a socket.

* `Dialogue.bind` puts one operation after another.
* `Dialogue.run` plays a dialogue on a channel with a state, and
  `Dialogue.perform` with effects.
* `Channel.logged` keeps a record of the exchanges.
-/

namespace Courier

/-- A command for the device. -/
structure Request where
  header : Header
  body : Bytes
  deriving DecidableEq

/-- The body fits one frame. -/
def Request.Fits (request : Request) : Prop :=
  request.body.length ≤ Frame.maxBody

instance : DecidablePred Request.Fits :=
  fun request => Nat.decLe request.body.length Frame.maxBody

/-- What comes back for a command. -/
abbrev Response := Except Failure Bytes

/-- An operation that talks to a device; the clock shows milliseconds. -/
inductive Dialogue (α : Type) where
  | done (value : α)
  | ask (request : Request) (next : Response → Dialogue α)
  | clock (next : Nat → Dialogue α)

/-- A device with states `σ`, and the clock that runs beside it. -/
structure Channel (σ : Type) where
  answer : σ → Request → Response × σ
  time : σ → Nat × σ

/-- A command together with what came back for it. -/
structure Exchange where
  request : Request
  response : Response

namespace Dialogue

/-- Goes on with the value of a dialogue. -/
def bind {α β : Type} : Dialogue α → (α → Dialogue β) → Dialogue β
  | .done value, f => f value
  | .ask request next, f => .ask request fun response => (next response).bind f
  | .clock next, f => .clock fun time => (next time).bind f

instance : Monad Dialogue where
  pure := .done
  bind := bind

/-- Plays a dialogue on a channel. -/
def run {σ α : Type} (channel : Channel σ) : Dialogue α → σ → α × σ
  | .done value, s => (value, s)
  | .ask request next, s =>
      let answered := channel.answer s request
      (next answered.1).run channel answered.2
  | .clock next, s =>
      let read := channel.time s
      (next read.1).run channel read.2

/-- Plays a dialogue with effects, given how a command is answered and how the clock
is read. -/
def perform {m : Type → Type} [Monad m] {α : Type} (answer : Request → m Response)
    (time : m Nat) : Dialogue α → m α
  | .done value => pure value
  | .ask request next => do (next (← answer request)).perform answer time
  | .clock next => do (next (← time)).perform answer time

variable {σ α β : Type}

@[simp] theorem run_done (channel : Channel σ) (value : α) (s : σ) :
    (Dialogue.done value).run channel s = (value, s) := by
  rfl

@[simp] theorem run_ask (channel : Channel σ) (request : Request)
    (next : Response → Dialogue α) (s : σ) :
    (Dialogue.ask request next).run channel s =
      (next (channel.answer s request).1).run channel
        (channel.answer s request).2 := by
  rfl

@[simp] theorem run_clock (channel : Channel σ) (next : Nat → Dialogue α)
    (s : σ) :
    (Dialogue.clock next).run channel s =
      (next (channel.time s).1).run channel (channel.time s).2 := by
  rfl

@[simp] theorem run_bind (channel : Channel σ) (d : Dialogue α)
    (f : α → Dialogue β) (s : σ) :
    (d.bind f).run channel s =
      (f (d.run channel s).1).run channel (d.run channel s).2 := by
  induction d generalizing s with
  | done value =>
      rfl
  | ask request next ih =>
      simp [bind, ih]
  | clock next ih =>
      simp [bind, ih]

end Dialogue

namespace Channel

/-- The channel with its exchanges on record, the latest first. -/
def logged {σ : Type} (channel : Channel σ) : Channel (σ × List Exchange) where
  answer s request :=
    let answered := channel.answer s.1 request
    (answered.1, answered.2, ⟨request, answered.1⟩ :: s.2)
  time s :=
    let read := channel.time s.1
    (read.1, read.2, s.2)

/-- The device that answers by the commands it has had so far, the latest first,
beside a clock with the given readings. -/
def ofHistory (answer : List Request → Response) (readings : Nat → Nat) :
    Channel (List Request × Nat) where
  answer s request := (answer (request :: s.1), request :: s.1, s.2)
  time s := (readings s.2, s.1, s.2 + 1)

end Channel
end Courier
