import Courier.Digest
import Courier.Text.Hex

/-!
# Chunk hashes

The 32-byte names of chunks.  `Hash.zero` names no chunk: as a link it says that
no chunk follows, as a root that the payload is empty.
-/

namespace Courier

/-- The 32-byte name of a chunk. -/
@[ext] structure Hash where
  bytes : Bytes
  length_bytes : bytes.length = 32
  deriving DecidableEq

namespace Hash

/-- The number of bytes of a hash, and so of a link. -/
def size : Nat := 32

/-- The hash with the given bytes, if they are 32. -/
def ofBytes? (b : Bytes) : Option Hash :=
  if h : b.length = 32 then some ⟨b, h⟩ else none

/-- The sentinel of 32 zero bytes. -/
def zero : Hash :=
  ⟨List.replicate 32 0, rfl⟩

/-- The name of a chunk: the digest of all its bytes. -/
def ofChunk (chunk : Bytes) : Hash :=
  ⟨Digest.sha256 chunk, Digest.length_sha256 chunk⟩

/-- The hash in lower-case hexadecimal. -/
def toHex (h : Hash) : String :=
  Hex.encode h.bytes

/-- Reads back what `toHex` writes. -/
def ofHex? (s : String) : Option Hash :=
  (Hex.decodeLower? s.toUTF8.toList).bind ofBytes?

def isZero (h : Hash) : Bool :=
  h == zero

@[simp] theorem ofBytes?_bytes (h : Hash) :
    ofBytes? h.bytes = some h := by
  simp [ofBytes?, h.length_bytes]

@[simp] theorem isZero_iff (h : Hash) :
    h.isZero = true ↔ h = zero := by
  simp [isZero]

end Hash
end Courier
