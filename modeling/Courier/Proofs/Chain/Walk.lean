import Courier.Chain
import Courier.Proofs.Slices

/-!
# Walks along links

A walk starts at a hash and passes chunks that each have the hash at which the
walk stands; the link of the last one is where it ends.  The sentinel stops every
walk, so a hash with a walk to the sentinel stands for one payload, unless two
chunks collide.

* `Chain.Leads h chain k`: the walk from `h` through `chain` ends at `k`.
* `Chain.leads_append`: walks can be put together and taken apart.
* `Chain.eq_or_collision`: two walks from one hash to the sentinel are equal, or
  two of their chunks differ under the same hash.
* `Chain.leads_ofPayload`: the linked chunks of a payload are such a walk.
-/

namespace Courier
namespace Linked

theorem length_bytes (c : Linked) :
    c.bytes.length = Hash.size + c.slice.length := by
  rw [bytes, List.length_append, c.next.length_bytes]
  rfl

theorem bytes_injective : Function.Injective bytes := by
  intro c d h
  have hread : ofBytes c.bytes = ofBytes d.bytes := by rw [h]
  rw [ofBytes_bytes, ofBytes_bytes] at hread
  exact Except.ok.inj hread

/-- Only its stored form is taken apart into a linked chunk. -/
theorem eq_bytes_of_ofBytes {chunk : Bytes} {c : Linked}
    (h : ofBytes chunk = .ok c) : chunk = c.bytes := by
  unfold ofBytes Hash.ofBytes? at h
  by_cases hlen : (chunk.take Hash.size).length = 32
  · rw [dif_pos hlen] at h
    have hc : c = ⟨⟨chunk.take Hash.size, hlen⟩, chunk.drop Hash.size⟩ :=
      (Except.ok.inj h).symm
    rw [hc]
    exact (List.take_append_drop Hash.size chunk).symm
  · rw [dif_neg hlen] at h
    cases h

/-- A chunk that is long enough holds a link. -/
theorem exists_bytes_eq {chunk : Bytes} (hlong : Hash.size ≤ chunk.length) :
    ∃ c : Linked, c.bytes = chunk := by
  have hlink : (chunk.take Hash.size).length = 32 := by
    rw [List.length_take]
    exact Nat.min_eq_left hlong
  exact ⟨⟨⟨chunk.take Hash.size, hlink⟩, chunk.drop Hash.size⟩,
    List.take_append_drop Hash.size chunk⟩

theorem ofBytes_of_short {chunk : Bytes} (hshort : chunk.length < Hash.size) :
    ofBytes chunk = .error (.protocol (.shortChunk chunk.length)) := by
  rw [Hash.size] at hshort
  have hlink : (chunk.take Hash.size).length ≠ 32 := by
    rw [List.length_take, Hash.size]
    omega
  rw [ofBytes, Hash.ofBytes?, dif_neg hlink]

end Linked

namespace Chain

/-- The walk from one hash through the chunks to another hash. -/
def Leads : Hash → List Linked → Hash → Prop
  | h, [], k => h = k
  | h, c :: rest, k => h ≠ Hash.zero ∧ c.hash = h ∧ Leads c.next rest k

/-- What the slices of a chain spell. -/
def payload (chain : List Linked) : Bytes :=
  (chain.map Linked.slice).flatten

@[simp] theorem payload_nil : payload [] = [] := by
  rfl

/-- Walks can be put together and taken apart. -/
theorem leads_append {h k : Hash} (xs ys : List Linked) :
    Leads h (xs ++ ys) k ↔ ∃ m, Leads h xs m ∧ Leads m ys k := by
  induction xs generalizing h with
  | nil =>
      constructor
      · intro hys
        exact ⟨h, rfl, hys⟩
      · rintro ⟨m, rfl, hys⟩
        exact hys
  | cons c rest ih =>
      constructor
      · rintro ⟨hne, hc, hrest⟩
        obtain ⟨m, hm, hys⟩ := ih.mp hrest
        exact ⟨m, ⟨hne, hc, hm⟩, hys⟩
      · rintro ⟨m, ⟨hne, hc, hm⟩, hys⟩
        exact ⟨hne, hc, ih.mpr ⟨m, hm, hys⟩⟩

/-- One more chunk at the end of a walk. -/
theorem Leads.snoc {h : Hash} {xs : List Linked} {c : Linked}
    (hxs : Leads h xs c.hash) (hc : c.hash ≠ Hash.zero) :
    Leads h (xs ++ [c]) c.next :=
  (leads_append xs [c]).mpr ⟨c.hash, hxs, hc, rfl, rfl⟩

/-- From the sentinel there is no way on. -/
theorem leads_zero {chain : List Linked} {k : Hash} :
    Leads Hash.zero chain k ↔ chain = [] ∧ k = Hash.zero := by
  cases chain with
  | nil => simp [Leads, eq_comm]
  | cons c rest => simp [Leads]

/-- Two walks from one hash to the sentinel are equal, or they exhibit two chunks
that differ under the same hash. -/
theorem eq_or_collision {h : Hash} {xs ys : List Linked}
    (hxs : Leads h xs Hash.zero) (hys : Leads h ys Hash.zero) :
    xs = ys ∨ ∃ c ∈ xs, ∃ d ∈ ys, c.bytes ≠ d.bytes ∧ c.hash = d.hash := by
  induction xs generalizing h ys with
  | nil =>
      have hzero : h = Hash.zero := hxs
      subst hzero
      exact Or.inl (leads_zero.mp hys).1.symm
  | cons c rest ih =>
      obtain ⟨hne, hc, hrest⟩ := hxs
      cases ys with
      | nil => exact absurd hys hne
      | cons d others =>
          obtain ⟨_, hd, hothers⟩ := hys
          by_cases hcd : c = d
          · subst hcd
            rcases ih hrest hothers with heq | ⟨x, hx, y, hy, hxy⟩
            · exact Or.inl (by rw [heq])
            · exact Or.inr ⟨x, List.mem_cons_of_mem _ hx, y,
                List.mem_cons_of_mem _ hy, hxy⟩
          · refine Or.inr ⟨c, by simp, d, by simp, ?_, by rw [hc, hd]⟩
            exact fun hbytes => hcd (Linked.bytes_injective hbytes)

/-- The chunks are told apart by their hashes, and none of them has the hash that
stands for no chunk. -/
structure Separable (chunks : List Linked) : Prop where
  distinct : ∀ c ∈ chunks, ∀ d ∈ chunks, c.hash = d.hash → c.bytes = d.bytes
  nonzero : ∀ c ∈ chunks, c.hash ≠ Hash.zero

/-- Chunks with different hashes, none of them the sentinel, are told apart. -/
theorem separable_of_nodup {chunks : List Linked}
    (h : (Hash.zero :: chunks.map Linked.hash).Nodup) : Separable chunks := by
  obtain ⟨hzero, hnodup⟩ := List.nodup_cons.mp h
  constructor
  · intro c hc d hd heq
    rw [List.inj_on_of_nodup_map hnodup hc hd heq]
  · intro c hc heq
    exact hzero (heq ▸ List.mem_map_of_mem hc)

/-- The linked chunks of several payloads, in order. -/
def ofPayloads (size : Nat) (payloads : List Bytes) : List Linked :=
  payloads.flatMap (ofPayload size)

/-- The linked chunks of slices are a walk from their root to the sentinel. -/
theorem leads_ofSlices {slices : List Bytes}
    (hnonzero : ∀ c ∈ ofSlices slices, c.hash ≠ Hash.zero) :
    Leads (root (ofSlices slices)) (ofSlices slices) Hash.zero := by
  induction slices with
  | nil => rfl
  | cons s rest ih =>
      refine ⟨hnonzero _ List.mem_cons_self, rfl, ?_⟩
      exact ih (fun c hc => hnonzero c (List.mem_cons_of_mem _ hc))

/-- So are the linked chunks of a payload. -/
theorem leads_ofPayload {size : Nat} {bytes : Bytes}
    (hnonzero : ∀ c ∈ ofPayload size bytes, c.hash ≠ Hash.zero) :
    Leads (root (ofPayload size bytes)) (ofPayload size bytes) Hash.zero :=
  leads_ofSlices hnonzero

theorem payload_ofPayload (size : Nat) (bytes : Bytes) :
    payload (ofPayload size bytes) = bytes := by
  simp [payload, ofPayload]

/-- As many chunks as slices. -/
theorem length_ofPayload {size : Nat} (hsize : 0 < size) (bytes : Bytes) :
    (ofPayload size bytes).length = bytes.length ⌈/⌉ size := by
  have hslices := congrArg List.length
    (map_slice_ofSlices (Bytes.slices size bytes))
  rw [List.length_map] at hslices
  rw [ofPayload, hslices, Bytes.length_slices hsize]

theorem length_ofPayloads {size : Nat} (hsize : 0 < size)
    (payloads : List Bytes) :
    (ofPayloads size payloads).length =
      (payloads.map fun payload => payload.length ⌈/⌉ size).sum := by
  simp only [ofPayloads, List.length_flatMap, length_ofPayload hsize]

/-- The first chunk of a payload, and the chunks of what is left. -/
theorem ofPayload_of_ne_nil {size : Nat} (hsize : 0 < size) {bytes : Bytes}
    (hne : bytes ≠ []) :
    ofPayload size bytes =
      ⟨root (ofPayload size (bytes.drop size)), bytes.take size⟩ ::
        ofPayload size (bytes.drop size) := by
  rw [ofPayload, Bytes.slices_of_ne_nil hsize hne]
  rfl

@[simp] theorem ofPayload_nil (size : Nat) : ofPayload size [] = [] := by
  simp [ofPayload, ofSlices]

/-- A payload that fits one slice is one chunk, linked to the sentinel. -/
theorem ofPayload_of_length_le {size : Nat} {bytes : Bytes} (hne : bytes ≠ [])
    (hle : bytes.length ≤ size) :
    ofPayload size bytes = [⟨Hash.zero, bytes⟩] := by
  have hsize : 0 < size := by
    have hlength := List.length_pos_of_ne_nil hne
    omega
  rw [ofPayload_of_ne_nil hsize hne, List.take_of_length_le hle,
    List.drop_eq_nil_of_le hle, ofPayload_nil]
  rfl

/-- A linked chunk is at most a link and a full slice long. -/
theorem length_le_of_mem_ofPayload {size : Nat} (hsize : 0 < size)
    {bytes : Bytes} {c : Linked} (hc : c ∈ ofPayload size bytes) :
    c.bytes.length ≤ Hash.size + size := by
  have hslice : c.slice ∈ Bytes.slices size bytes := by
    rw [← map_slice_ofSlices (Bytes.slices size bytes)]
    exact List.mem_map_of_mem hc
  have hlen := Bytes.length_le_of_mem_slices hsize bytes c.slice hslice
  rw [c.length_bytes]
  omega

/-- A slice is no longer than the payload. -/
theorem length_slice_le_of_mem_ofPayload {size : Nat} {bytes : Bytes} {c : Linked}
    (hc : c ∈ ofPayload size bytes) : c.slice.length ≤ bytes.length := by
  have hslice : c.slice ∈ (ofPayload size bytes).map Linked.slice :=
    List.mem_map_of_mem hc
  have hspelled : ((ofPayload size bytes).map Linked.slice).flatten = bytes :=
    payload_ofPayload size bytes
  rw [← hspelled]
  exact (List.sublist_flatten_of_mem hslice).length_le

theorem length_le_of_mem_ofPayloads {size : Nat} (hsize : 0 < size)
    {payloads : List Bytes} {c : Linked} (hc : c ∈ ofPayloads size payloads) :
    c.bytes.length ≤ Hash.size + size := by
  obtain ⟨payload, _, hpayload⟩ := List.mem_flatMap.mp hc
  exact length_le_of_mem_ofPayload hsize hpayload

/-- Chunks of slices of at most 222 bytes leave room for a tag in a frame. -/
theorem length_le_of_small_slices {size : Nat} (hsize : 0 < size) (hsize' : size ≤ 222)
    {payloads : List Bytes} {c : Linked} (hc : c ∈ ofPayloads size payloads) :
    c.bytes.length ≤ 254 := by
  have hlength := length_le_of_mem_ofPayloads hsize hc
  rw [Hash.size] at hlength
  omega

/-- So do the chunks of payloads of at most 222 bytes, in slices of any size. -/
theorem length_le_of_short_payloads {size : Nat} {payloads : List Bytes}
    (hshort : ¬ ∃ payload ∈ payloads, 222 < payload.length) {c : Linked}
    (hc : c ∈ ofPayloads size payloads) : c.bytes.length ≤ 254 := by
  obtain ⟨payload, hmem, hpayload⟩ := List.mem_flatMap.mp hc
  have hslice := length_slice_le_of_mem_ofPayload hpayload
  have hlength : payload.length ≤ 222 :=
    Nat.le_of_not_lt fun h => hshort ⟨payload, hmem, h⟩
  rw [Linked.length_bytes, Hash.size]
  omega

end Chain
end Courier
