import Courier.Failure

/-!
# Fields at the front of a byte string

A field of known size, and a field with its size in one byte before it.  Both
are given together with what follows them.
-/

namespace Courier
namespace Field

/-- Splits off a field of `size` bytes. -/
def sized (b : Bytes) (size : Nat) : Except Failure (Bytes × Bytes) :=
  if b.length < size then
    .error (.protocol (.shortField size b.length))
  else
    .ok (b.take size, b.drop size)

/-- Splits off a field that follows its own length. -/
def counted : Bytes → Except Failure (Bytes × Bytes)
  | [] => .error (.protocol .missingLength)
  | n :: rest => sized rest n.toNat

/-- A field of at most 255 bytes with its length before it. -/
def encodeCounted (b : Bytes) : Bytes :=
  UInt8.ofNat b.length :: b

theorem sized_append (b rest : Bytes) :
    sized (b ++ rest) b.length = .ok (b, rest) := by
  simp [sized]

end Field
end Courier
