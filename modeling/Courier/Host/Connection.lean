import Courier.Host.SystemError
import Courier.Socket.Address
import Courier.Socket.Wire
import Std.Async.TCP
import Std.Async.Timer

/-!
# Connections to an emulator

The emulator socket in the running system: a stream to an address, on which one
time span limits connecting and every single wait for bytes.  What the bytes mean
is laid down in `Courier.Socket.Wire`.

* `Connection.establish` connects.
* `Connection.exchange` sends one command and waits for its response.
-/

namespace Courier

open Std.Async

/-- An open stream; `arrived` holds bytes that came before they were asked for. -/
structure Connection where
  socket : TCP.Socket.Client
  address : String
  timeout : Nat
  arrived : IO.Ref Bytes

namespace SocketAddress

/-- The address as the runtime takes it. -/
def endpoint : SocketAddress → Std.Net.SocketAddress
  | .v4 octets port =>
      .v4 ⟨⟨Vector.ofFn fun i => UInt8.ofNat (octets.getD i 0)⟩, UInt16.ofNat port⟩
  | .v6 groups _ port =>
      .v6 ⟨⟨Vector.ofFn fun i => UInt16.ofNat (groups.getD i 0)⟩, UInt16.ofNat port⟩

end SocketAddress

namespace Connection

/-- Waits for a number of milliseconds. -/
def pause (ms : Nat) : Async Unit := do
  (← Sleep.mk (Std.Time.Millisecond.Offset.ofNat ms)).wait

def establish (address : SocketAddress) (timeout : Nat) :
    IO (Except SystemFault Connection) := do
  try
    let socket ← TCP.Socket.Client.mk
    let connected ←
      (Async.race
        (do socket.connect address.endpoint; return true)
        (do pause timeout; return false)).block
    if connected then
      socket.noDelay
      return .ok ⟨socket, address.text, timeout, ← IO.mkRef []⟩
    else return .error (SystemFault.ofCode 110 "")
  catch e => return .error (SystemFault.ofError e)

/-- Waits for the next piece of the stream: nothing at all when time runs out, and
no bytes at its end. -/
def nextPiece (c : Connection) : Async (Option Bytes) := do
  let sleep ← Sleep.mk (Std.Time.Millisecond.Offset.ofNat c.timeout)
  Selectable.one #[
    .case (c.socket.recvSelector 65536) fun piece =>
      return some ((piece.map fun b => b.toList).getD []),
    .case sleep.selector fun _ => return none]

/-- Waits until `n` bytes are there; each of at most `pieces` pieces brings one. -/
def receive (c : Connection) (n : Nat) : Nat → IO (Except Failure Bytes)
  | 0 => do
      let b ← c.arrived.get
      c.arrived.set (b.drop n)
      return .ok (b.take n)
  | pieces + 1 => do
      let b ← c.arrived.get
      if n ≤ b.length then
        c.arrived.set (b.drop n)
        return .ok (b.take n)
      else
        match ← c.nextPiece.block with
        | none =>
            c.arrived.set []
            return .error (.timeout (.silence c.address))
        | some [] =>
            c.arrived.set []
            return .error (.transport (.closed c.address))
        | some piece =>
            c.arrived.set (b ++ piece)
            c.receive n pieces

def receiveExactly (c : Connection) (n : Nat) : IO (Except Failure Bytes) := do
  try c.receive n (n + 1)
  catch e => return .error (.transport (.receive c.address (SystemFault.ofError e)))

def send (c : Connection) (b : Bytes) : IO (Except Failure Unit) := do
  try
    (c.socket.send ⟨b.toArray⟩).block
    return .ok ()
  catch e => return .error (.transport (.send c.address (SystemFault.ofError e)))

/-- Sends one command and waits for its response. -/
def exchange (c : Connection) (request : Request) : IO Response :=
  ExceptT.run do
    let b ← ExceptT.mk (return Wire.requestBytes request)
    ExceptT.mk (c.send b)
    let announced ← ExceptT.mk (c.receiveExactly 4)
    let length ← ExceptT.mk (return Wire.bodyLength announced)
    let raw ← ExceptT.mk (c.receiveExactly (length + 2))
    ExceptT.mk (return Wire.outcome length raw)

end Connection
end Courier
