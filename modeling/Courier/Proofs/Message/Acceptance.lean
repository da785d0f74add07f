import Courier.Proofs.Message.Codec

/-!
# Which bodies are messages

A body is a message of a side unless it is empty, has a tag that the side does not use,
or carries hashes that are cut off.  A message that is read says again what was read; of
the messages that carry nothing only the tag counts.

* `PeerMessage.Malformed`, `HostMessage.Malformed`: the bodies that are no messages, and
  `HostMessage.isBare`: the messages that carry nothing.
* `PeerMessage.exists_error_decode_iff`, `PeerMessage.encode_of_decode`, and the same for
  the host.
* `codecs_are_exact`: both sides, in both directions.
-/

namespace Courier

namespace Hash

variable {b : Bytes}

theorem ofBytes?_eq_some_iff {h : Hash} : ofBytes? b = some h ↔ b = h.bytes := by
  constructor
  · intro hread
    unfold ofBytes? at hread
    split_ifs at hread
    obtain rfl := Option.some.inj hread
    rfl
  · rintro rfl
    exact ofBytes?_bytes h

theorem ofBytes?_eq_none_iff : ofBytes? b = none ↔ b.length ≠ size := by
  unfold ofBytes?
  split_ifs with hlength
  · simp [size, hlength]
  · simp [size, hlength]

/-- Hashes that are read from pieces have these as their bytes. -/
theorem map_bytes_of_listOfBytes? {pieces : List Bytes} {hashes : List Hash}
    (h : listOfBytes? pieces = some hashes) : hashes.map bytes = pieces := by
  induction pieces generalizing hashes with
  | nil =>
      obtain rfl := Option.some.inj h
      rfl
  | cons b rest ih =>
      unfold listOfBytes? at h
      split at h
      · next first later hfirst hlater =>
          obtain rfl := Option.some.inj h
          rw [List.map_cons, ih hlater, ofBytes?_eq_some_iff.mp hfirst]
      · cases h

/-- Pieces of the width of a hash are read. -/
theorem exists_listOfBytes? {pieces : List Bytes}
    (hfull : ∀ b ∈ pieces, b.length = size) :
    ∃ hashes, listOfBytes? pieces = some hashes := by
  induction pieces with
  | nil => exact ⟨[], rfl⟩
  | cons b rest ih =>
      obtain ⟨hashes, hrest⟩ := ih fun c hc => hfull c (List.mem_cons_of_mem _ hc)
      have hfirst : ofBytes? b = some ⟨b, hfull b List.mem_cons_self⟩ :=
        dif_pos (hfull b List.mem_cons_self)
      exact ⟨_ :: hashes, by rw [listOfBytes?, hfirst, hrest]⟩

/-- Bytes are read as hashes exactly if they are a whole number of them. -/
theorem listOfBytes?_slices_eq_none_iff :
    listOfBytes? (Bytes.slices size b) = none ↔ ¬ size ∣ b.length := by
  constructor
  · intro hnone hwhole
    obtain ⟨hashes, hread⟩ :=
      exists_listOfBytes? (Bytes.length_of_mem_slices (by decide) hwhole)
    rw [hnone] at hread
    cases hread
  · intro hragged
    cases hread : listOfBytes? (Bytes.slices size b) with
    | none => rfl
    | some hashes =>
        have hspelled := congrArg List.flatten (map_bytes_of_listOfBytes? hread)
        rw [Bytes.flatten_slices] at hspelled
        rw [← hspelled, length_flatten_bytes] at hragged
        exact absurd (Nat.dvd_mul_right size hashes.length) hragged

end Hash

namespace PeerMessage

/-- The bodies that are no messages of the peer. -/
def Malformed : Bytes → Prop
  | [] => True
  | tag :: rest => 3 < tag ∨ tag = 2 ∧ rest.length ≠ 32

variable {body : Bytes}

/-- A body is refused exactly if it is malformed. -/
theorem exists_error_decode_iff : (∃ e, decode body = .error e) ↔ Malformed body := by
  cases body with
  | nil => simp [decode, Malformed]
  | cons tag rest =>
      simp only [decode, Malformed]
      split_ifs with h0 h1 h2 h3
      · simp [h0]
      · simp [h1]
      · cases hhash : Hash.ofBytes? rest with
        | some hash =>
            have hlength := hash.length_bytes
            rw [← Hash.ofBytes?_eq_some_iff.mp hhash] at hlength
            simp [h2, hlength]
        | none =>
            have hlength : rest.length ≠ 32 := Hash.ofBytes?_eq_none_iff.mp hhash
            simp [h2, hlength]
      · simp [h3]
      · have hlarge : 3 < tag := by grind
        simp [hlarge]

/-- A message says what was read. -/
theorem encode_of_decode {m : PeerMessage} (h : decode body = .ok m) : m.encode = body := by
  cases body with
  | nil => cases h
  | cons tag rest =>
      simp only [decode] at h
      split_ifs at h with h0 h1 h2 h3
      · obtain rfl := Except.ok.inj h
        rw [h0]
        rfl
      · obtain rfl := Except.ok.inj h
        rw [h1]
        rfl
      · cases hhash : Hash.ofBytes? rest with
        | some hash =>
            rw [hhash] at h
            obtain rfl := Except.ok.inj h
            rw [h2, Hash.ofBytes?_eq_some_iff.mp hhash]
            rfl
        | none =>
            rw [hhash] at h
            cases h
      · obtain rfl := Except.ok.inj h
        rw [h3]
        rfl

end PeerMessage

namespace HostMessage

/-- The bodies that are no messages of the host. -/
def Malformed : Bytes → Prop
  | [] => True
  | tag :: rest => 4 < tag ∨ tag = 0 ∧ ¬ 32 ∣ rest.length

/-- The messages that carry nothing. -/
def isBare : HostMessage → Bool
  | .start _ => false
  | .chunkFound _ => false
  | .chunkNotFound => true
  | .putChunkAck => true
  | .accumulateAck => true

variable {body : Bytes}

/-- A body is refused exactly if it is malformed. -/
theorem exists_error_decode_iff : (∃ e, decode body = .error e) ↔ Malformed body := by
  cases body with
  | nil => simp [decode, Malformed]
  | cons tag rest =>
      simp only [decode, Malformed]
      split_ifs with h0 h1 h2 h3 h4
      · cases hroots : Hash.listOfBytes? (Bytes.slices Hash.size rest) with
        | some roots =>
            have hwhole : 32 ∣ rest.length := by
              by_contra hragged
              rw [Hash.listOfBytes?_slices_eq_none_iff.mpr hragged] at hroots
              cases hroots
            simp [h0, hwhole]
        | none =>
            have hragged : ¬ 32 ∣ rest.length :=
              Hash.listOfBytes?_slices_eq_none_iff.mp hroots
            simp [h0, hragged]
      · simp [h1]
      · simp [h2]
      · simp [h3]
      · simp [h4]
      · have hlarge : 4 < tag := by grind
        simp [hlarge]

/-- A body that is no message is refused as a breach of the protocol. -/
theorem protocol_of_decode_error {e : Failure} (h : decode body = .error e) :
    ∃ why, e = .protocol why := by
  cases body with
  | nil =>
      injection h with h
      exact ⟨_, h.symm⟩
  | cons tag rest =>
      simp only [decode] at h
      split_ifs at h
      · cases hroots : Hash.listOfBytes? (Bytes.slices Hash.size rest) with
        | some roots => simp [hroots] at h
        | none =>
            simp only [hroots] at h
            injection h with h
            exact ⟨_, h.symm⟩
      · injection h with h
        exact ⟨_, h.symm⟩

/-- A message says what was read; of a message that carries nothing only the tag is
left. -/
theorem encode_of_decode {m : HostMessage} (h : decode body = .ok m) :
    m.encode = if m.isBare then body.take 1 else body := by
  cases body with
  | nil => cases h
  | cons tag rest =>
      simp only [decode] at h
      split_ifs at h with h0 h1 h2 h3 h4
      · cases hroots : Hash.listOfBytes? (Bytes.slices Hash.size rest) with
        | some roots =>
            rw [hroots] at h
            obtain rfl := Except.ok.inj h
            have hspelled := congrArg List.flatten (Hash.map_bytes_of_listOfBytes? hroots)
            rw [Bytes.flatten_slices] at hspelled
            rw [h0, ← hspelled]
            rfl
        | none =>
            rw [hroots] at h
            cases h
      · obtain rfl := Except.ok.inj h
        rw [h1]
        rfl
      · obtain rfl := Except.ok.inj h
        rw [h2]
        rfl
      · obtain rfl := Except.ok.inj h
        rw [h3]
        rfl
      · obtain rfl := Except.ok.inj h
        rw [h4]
        rfl

/-- Different messages have different bodies. -/
theorem encode_injective : Function.Injective encode := by
  intro m m' h
  have hdecode := congrArg decode h
  rw [decode_encode, decode_encode] at hdecode
  exact Except.ok.inj hdecode

end HostMessage

/-- **The codecs are exact in both directions.**  Every message is read back from its
body, so that different messages have different bodies.  A body is refused exactly if it
is malformed, and then as a breach of the protocol; what is read from any other body
encodes to this body, or to its tag alone if it is a message of the host that carries
nothing. -/
theorem codecs_are_exact :
    (∀ m : HostMessage, HostMessage.decode m.encode = .ok m) ∧
    (∀ m : PeerMessage, PeerMessage.decode m.encode = .ok m) ∧
    Function.Injective HostMessage.encode ∧ Function.Injective PeerMessage.encode ∧
    ∀ body : Bytes,
      ((∃ e, PeerMessage.decode body = .error e) ↔ PeerMessage.Malformed body) ∧
      (∀ e, PeerMessage.decode body = .error e → e.isProtocol = true) ∧
      (∀ m, PeerMessage.decode body = .ok m → m.encode = body) ∧
      ((∃ e, HostMessage.decode body = .error e) ↔ HostMessage.Malformed body) ∧
      (∀ e, HostMessage.decode body = .error e → e.isProtocol = true) ∧
      (∀ m, HostMessage.decode body = .ok m →
        m.encode = if m.isBare then body.take 1 else body) := by
  refine ⟨HostMessage.decode_encode, PeerMessage.decode_encode,
    HostMessage.encode_injective, fun m m' => PeerMessage.encode_injective, fun body => ?_⟩
  refine ⟨PeerMessage.exists_error_decode_iff, ?_, fun m => PeerMessage.encode_of_decode,
    HostMessage.exists_error_decode_iff, ?_, fun m => HostMessage.encode_of_decode⟩
  · intro e h
    obtain ⟨why, rfl⟩ := PeerMessage.protocol_of_decode_error h
    rfl
  · intro e h
    obtain ⟨why, rfl⟩ := HostMessage.protocol_of_decode_error h
    rfl

end Courier
