import Courier.Failure

/-!
# Command frames and responses

A command frame is a header of four bytes, the length of the body in one byte,
and the body.  A response is a body and a status word; it stands for the body
when the status is success and for a failure of the peer otherwise.
-/

namespace Courier

/-- The header of a command: class, instruction and two parameters. -/
structure Header where
  cla : UInt8
  ins : UInt8
  p1 : UInt8
  p2 : UInt8
  deriving DecidableEq, Repr

namespace Header

def bytes (h : Header) : Bytes :=
  [h.cla, h.ins, h.p1, h.p2]

def ofBytes? : Bytes → Option Header
  | [cla, ins, p1, p2] => some ⟨cla, ins, p1, p2⟩
  | _ => none

end Header

namespace Frame

/-- The largest body of one frame. -/
def maxBody : Nat := 255

def encode (header : Header) (body : Bytes) : Except Failure Bytes :=
  if maxBody < body.length then
    .error (.encoding (.bodyTooLong body.length))
  else
    .ok (header.bytes ++ UInt8.ofNat body.length :: body)

/-- Splits a raw response into its body and its status word. -/
def splitStatus (raw : Bytes) : Except Failure (Bytes × Status) :=
  if raw.length < 2 then
    .error (.transport (.noStatus raw.length))
  else
    .ok (raw.take (raw.length - 2),
      Status.ofNat (Bytes.toNatBE (raw.drop (raw.length - 2))))

/-- What a body and a status word mean to the caller. -/
def outcome (body : Bytes) (status : Status) : Except Failure Bytes :=
  if status = Status.ok then .ok body else .error (.peer status body)

/-- What a raw response means to the caller. -/
def response (raw : Bytes) : Except Failure Bytes :=
  match splitStatus raw with
  | .error e => .error e
  | .ok (body, status) => outcome body status

end Frame
end Courier
