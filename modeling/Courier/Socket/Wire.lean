import Courier.Dialogue

/-!
# Commands over a byte stream

The framing of an emulator socket.  A command frame goes out behind its length in
four bytes; a response comes back as the length of its body in four bytes, the
body, and a status word that the length does not count.

* `Wire.requestBytes`, `Wire.bodyLength` and `Wire.outcome` are the three parts of
  an exchange.
* `Wire.exchange` plays an exchange against a server given as a function, and
  `Wire.channel` makes a channel of it.
-/

namespace Courier

/-- What a read finds once everything that was sent has been read. -/
inductive Ending
  | closed
  | silent
  deriving DecidableEq, Repr

/-- A server at the other end: what it sends when a framed command reaches it, and
what follows when it has nothing more to send. -/
structure Server (σ : Type) where
  react : σ → Bytes → Bytes × σ
  ending : σ → Ending

/-- A connection, seen from the host: what arrived and is not yet read, and
everything that was sent. -/
structure Wire (σ : Type) where
  address : String
  server : σ
  arrived : Bytes := []
  sent : Bytes := []

namespace Wire

/-- The bytes that go out for a command. -/
def requestBytes (request : Request) : Except Failure Bytes :=
  match Frame.encode request.header request.body with
  | .error e => .error e
  | .ok frame => .ok (Bytes.ofNatBE 4 frame.length ++ frame)

def maxResponse : Nat := 65535

/-- The length of a body, from the four bytes that announce it. -/
def bodyLength (announced : Bytes) : Except Failure Nat :=
  let length := Bytes.toNatBE announced
  if maxResponse < length then .error (.transport (.frameLength length))
  else .ok length

/-- The response in a body of known length with its status word. -/
def outcome (length : Nat) (raw : Bytes) : Response :=
  Frame.outcome (raw.take length) (Status.ofNat (Bytes.toNatBE (raw.drop length)))

variable {σ : Type}

/-- Reads exactly `n` bytes.  If there are fewer, they are lost. -/
def receive (server : Server σ) (w : Wire σ) (n : Nat) :
    Except Failure Bytes × Wire σ :=
  if n ≤ w.arrived.length then
    (.ok (w.arrived.take n), { w with arrived := w.arrived.drop n })
  else
    let w' := { w with arrived := [] }
    match server.ending w.server with
    | .closed => (.error (.transport (.closed w.address)), w')
    | .silent => (.error (.timeout (.silence w.address)), w')

/-- Sends bytes; what the server has to say to them arrives. -/
def send (server : Server σ) (w : Wire σ) (b : Bytes) : Wire σ :=
  let reaction := server.react w.server b
  { w with
    server := reaction.2
    arrived := w.arrived ++ reaction.1
    sent := w.sent ++ b }

def exchange (server : Server σ) (w : Wire σ) (request : Request) :
    Response × Wire σ :=
  match requestBytes request with
  | .error e => (.error e, w)
  | .ok b =>
      match (w.send server b).receive server 4 with
      | (.error e, w) => (.error e, w)
      | (.ok announced, w) =>
          match bodyLength announced with
          | .error e => (.error e, w)
          | .ok length =>
              match w.receive server (length + 2) with
              | (.error e, w) => (.error e, w)
              | (.ok raw, w) => (outcome length raw, w)

/-- The connection as a channel, with a clock that stands still. -/
def channel (server : Server σ) : Channel (Wire σ) where
  answer := exchange server
  time w := (0, w)

end Wire
end Courier
