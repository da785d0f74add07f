import Courier.Message
import Courier.Proofs.Slices

/-!
# Reading back what was written

Every message of either side is read back from its own body.

* `HostMessage.decode_encode`, `PeerMessage.decode_encode`.
* `PeerMessage.protocol_of_decode_error`: a body that is no message is refused
  as a breach of the protocol.
-/

namespace Courier

theorem Hash.listOfBytes?_map_bytes (hashes : List Hash) :
    Hash.listOfBytes? (hashes.map Hash.bytes) = some hashes := by
  induction hashes with
  | nil => rfl
  | cons h rest ih => simp [Hash.listOfBytes?, ih]

/-- Hashes written one after another are cut apart again. -/
theorem Hash.slices_flatten_bytes (hashes : List Hash) :
    Bytes.slices Hash.size (hashes.map Hash.bytes).flatten =
      hashes.map Hash.bytes := by
  apply Bytes.slices_flatten (by decide)
  intro p hp
  obtain ⟨h, _, rfl⟩ := List.mem_map.mp hp
  exact h.length_bytes

theorem Hash.length_flatten_bytes (hashes : List Hash) :
    (hashes.map Hash.bytes).flatten.length = Hash.size * hashes.length := by
  induction hashes with
  | nil => rfl
  | cons h rest ih =>
      simp only [List.map_cons, List.flatten_cons, List.length_append, ih,
        h.length_bytes, List.length_cons, Hash.size]
      omega

namespace HostMessage

@[simp] theorem decode_encode (m : HostMessage) :
    decode m.encode = .ok m := by
  cases m with
  | start roots =>
      simp [decode, encode, tag, content, Hash.slices_flatten_bytes,
        Hash.listOfBytes?_map_bytes]
  | chunkFound chunk => simp [decode, encode, tag, content]
  | chunkNotFound => simp [decode, encode, tag, content]
  | putChunkAck => simp [decode, encode, tag, content]
  | accumulateAck => simp [decode, encode, tag, content]

/-- The opening body has one byte for its tag and the width of a hash for every
root. -/
theorem length_encode_start (roots : List Hash) :
    (start roots).encode.length = 1 + Hash.size * roots.length := by
  simp only [encode, content, List.length_cons, Hash.length_flatten_bytes]
  omega

end HostMessage

namespace PeerMessage

@[simp] theorem decode_encode (m : PeerMessage) :
    decode m.encode = .ok m := by
  cases m with
  | accumulate fragment => simp [decode, encode, tag, content]
  | final fragment => simp [decode, encode, tag, content]
  | getChunk hash => simp [decode, encode, tag, content]
  | putChunk chunk => simp [decode, encode, tag, content]

/-- Different messages have different bodies. -/
theorem encode_injective {m m' : PeerMessage} (h : m.encode = m'.encode) : m = m' := by
  have hdecode := congrArg decode h
  rw [decode_encode, decode_encode] at hdecode
  exact Except.ok.inj hdecode

/-- A body that is no message is refused as a breach of the protocol. -/
theorem protocol_of_decode_error {body : Bytes} {e : Failure}
    (h : decode body = .error e) : ∃ why, e = .protocol why := by
  cases body with
  | nil =>
      injection h with h
      exact ⟨_, h.symm⟩
  | cons tag rest =>
      simp only [decode] at h
      split_ifs at h
      · cases hhash : Hash.ofBytes? rest with
        | some hash => simp [hhash] at h
        | none =>
            simp only [hhash] at h
            injection h with h
            exact ⟨_, h.symm⟩
      · injection h with h
        exact ⟨_, h.symm⟩

end PeerMessage
end Courier
