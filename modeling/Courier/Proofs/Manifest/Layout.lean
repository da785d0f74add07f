import Courier.Manifest
import Courier.Proofs.Chain.Suffixes
import Courier.Proofs.Store.Walk

/-!
# The layout of a payload

A manifest is read off a store by a walk, and what it says can be told from the
payload alone: where each slice begins and ends, and what each chunk is linked to.

* `Manifest.Layout`: a manifest lists the slices of a payload.
* `Manifest.build_eq`: building a manifest comes to its end, with an entry for each
  linked chunk.
* `Manifest.layout_build`: and these entries are the layout of the payload.
-/

namespace Courier

/-- The entry of a linked chunk. -/
def Linked.entry (c : Linked) : ManifestEntry :=
  ⟨c.hash, c.next, c.slice.length⟩

namespace Chain

/-- A walk along chunks under their own hashes stands at these hashes. -/
theorem cursors_of_leads {h k : Hash} {chunks : List Linked}
    (hleads : Leads h chunks k) : cursors h chunks = chunks.map Linked.hash := by
  induction chunks generalizing h with
  | nil => rfl
  | cons c rest ih =>
      obtain ⟨_, rfl, hrest⟩ := hleads
      rw [cursors, ih hrest, List.map_cons]

/-- The root of what is left of a chain. -/
theorem root_drop (chunks : List Linked) (i : Nat) :
    root (chunks.drop i) = (chunks[i]?.map Linked.hash).getD Hash.zero := by
  rw [← List.head?_drop]
  cases chunks.drop i <;> rfl

end Chain

namespace Manifest

variable {size : Nat} {payload : Bytes}

/-- The manifest lists the slices of a payload in order: each entry names the chunk
of its slice and is linked to the next one, every slice but the last is full, and
nothing is listed twice. -/
structure Layout (m : Manifest) (payload : Bytes) (size : Nat) : Prop where
  chunkSize : m.chunkSize = size
  payloadLength : m.payloadLength = payload.length
  count : m.chunks.length = payload.length ⌈/⌉ size
  root : m.root = (m.chunks[0]?.map ManifestEntry.hash).getD Hash.zero
  named : ∀ (i : Nat) e, m.chunks[i]? = some e →
    e.hash = Hash.ofChunk (e.link.bytes ++
      payload.extract (i * size) (min ((i + 1) * size) payload.length))
  linked : ∀ (i : Nat) e, m.chunks[i]? = some e →
    e.link = (m.chunks[i + 1]?.map ManifestEntry.hash).getD Hash.zero
  full : ∀ (i : Nat) e, m.chunks[i]? = some e → i + 1 < m.chunks.length →
    e.length = size
  last : ∀ (i : Nat) e, m.chunks[i]? = some e → i + 1 = m.chunks.length →
    1 ≤ e.length ∧ e.length ≤ size
  total : (m.chunks.map ManifestEntry.length).sum = m.payloadLength
  distinct : (m.chunks.map ManifestEntry.hash).Nodup

/-- The entries of a walk along chunks under their own hashes. -/
theorem entries_of_leads {h k : Hash} {chunks : List Linked}
    (hleads : Chain.Leads h chunks k) : entries h chunks = chunks.map Linked.entry := by
  induction chunks generalizing h with
  | nil => rfl
  | cons c rest ih =>
      obtain ⟨_, rfl, hrest⟩ := hleads
      rw [entries, ih hrest]
      rfl

/-- The store into which a payload was linked has its chunks. -/
theorem stored_linked (hchunks : Chain.Separable (Chain.ofPayload size payload)) :
    ∀ c ∈ Chain.ofPayload size payload,
      (Store.empty.insertChain (Chain.ofPayload size payload)).get? c.hash =
        some c.bytes := by
  intro c hc
  have hone : Chain.ofPayloads size [payload] = Chain.ofPayload size payload :=
    List.flatMap_singleton ..
  rw [← hone] at hchunks hc
  have hstored := Store.get?_linked hchunks hc .empty
  rwa [List.reverse_singleton, List.flatMap_singleton] at hstored

/-- And it leads along them. -/
theorem passes_linked (hchunks : Chain.Separable (Chain.ofPayload size payload)) :
    (Store.empty.insertChain (Chain.ofPayload size payload)).Passes
      (Chain.root (Chain.ofPayload size payload)) (Chain.ofPayload size payload)
      Hash.zero :=
  Store.passes_ofPayload hchunks.nonzero (stored_linked hchunks)

/-- Building a manifest comes to its end, with an entry for each linked chunk. -/
theorem build_eq (hsize : 0 < size)
    (hchunks : Chain.Separable (Chain.ofPayload size payload)) :
    build payload size =
      .ok ⟨size, payload.length, Chain.root (Chain.ofPayload size payload),
        (Chain.ofPayload size payload).map Linked.entry⟩ := by
  have hentries := entries_of_leads (Chain.leads_ofPayload hchunks.nonzero)
  rw [build, Store.link_eq hsize]
  simp only [Store.trail_of_passes_zero (passes_linked hchunks), hentries]

/-- The slice at a position reaches to the next one or to the end. -/
theorem take_drop_eq_extract (payload : Bytes) (i size : Nat) :
    (payload.drop (i * size)).take size =
      payload.extract (i * size) (min ((i + 1) * size) payload.length) := by
  have hend : (i + 1) * size = i * size + size := by ring
  rw [List.extract_eq_take_drop, List.take_eq_take_iff, List.length_drop, hend]
  omega

/-- The entry at a position. -/
theorem entry_of_getElem? (hsize : 0 < size) {i : Nat} {e : ManifestEntry}
    (he : ((Chain.ofPayload size payload).map Linked.entry)[i]? = some e) :
    payload.drop (i * size) ≠ [] ∧
    e = Linked.entry
      ⟨Chain.root (Chain.ofPayload size (payload.drop ((i + 1) * size))),
        (payload.drop (i * size)).take size⟩ := by
  rw [List.getElem?_map, Chain.getElem?_ofPayload hsize] at he
  by_cases hnil : payload.drop (i * size) = []
  · rw [if_pos hnil] at he
    cases he
  · rw [if_neg hnil] at he
    exact ⟨hnil, (Option.some.inj he).symm⟩

/-- The hash of the entry at a position is the root of what is left there. -/
theorem hash_getElem?_entries (hsize : 0 < size) (payload : Bytes) (i : Nat) :
    ((((Chain.ofPayload size payload).map Linked.entry)[i]?).map
      ManifestEntry.hash).getD Hash.zero =
        Chain.root (Chain.ofPayload size (payload.drop (i * size))) := by
  rw [← Chain.drop_ofPayload hsize, Chain.root_drop, List.getElem?_map,
    Option.map_map]
  rfl

/-- The entries of the linked chunks are the layout of the payload. -/
theorem layout_build (hsize : 0 < size)
    (hchunks : Chain.Separable (Chain.ofPayload size payload)) :
    Layout ⟨size, payload.length, Chain.root (Chain.ofPayload size payload),
      (Chain.ofPayload size payload).map Linked.entry⟩ payload size := by
  have hcount : ((Chain.ofPayload size payload).map Linked.entry).length =
      payload.length ⌈/⌉ size := by
    rw [List.length_map, Chain.length_ofPayload hsize]
  refine ⟨rfl, rfl, hcount, ?_, ?_, ?_, ?_, ?_, ?_, ?_⟩
  · rw [hash_getElem?_entries hsize, Nat.zero_mul, List.drop_zero]
  · intro i e he
    obtain ⟨_, rfl⟩ := entry_of_getElem? hsize he
    rw [← take_drop_eq_extract]
    rfl
  · intro i e he
    obtain ⟨_, rfl⟩ := entry_of_getElem? hsize he
    rw [hash_getElem?_entries hsize]
    rfl
  · intro i e he hi
    obtain ⟨_, rfl⟩ := entry_of_getElem? hsize he
    have hnext := (Chain.drop_ne_nil_iff hsize (i + 1) payload).mpr (hcount ▸ hi)
    rw [Ne, List.drop_eq_nil_iff, Nat.succ_mul] at hnext
    simp only [Linked.entry, List.length_take, List.length_drop]
    omega
  · intro i e he _
    obtain ⟨hnil, rfl⟩ := entry_of_getElem? hsize he
    rw [Ne, List.drop_eq_nil_iff] at hnil
    simp only [Linked.entry, List.length_take, List.length_drop]
    omega
  · have hlengths : ((Chain.ofPayload size payload).map Linked.entry).map
        ManifestEntry.length =
          ((Chain.ofPayload size payload).map Linked.slice).map List.length := by
      rw [List.map_map, List.map_map]
      rfl
    rw [hlengths, ← List.length_flatten, ← Chain.payload, Chain.payload_ofPayload]
  · have hleads := Chain.leads_ofPayload hchunks.nonzero
    have hhashes : ((Chain.ofPayload size payload).map Linked.entry).map
        ManifestEntry.hash = Chain.cursors
          (Chain.root (Chain.ofPayload size payload)) (Chain.ofPayload size payload) := by
      rw [Chain.cursors_of_leads hleads, List.map_map]
      rfl
    rw [hhashes]
    exact (passes_linked hchunks).nodup_cursors .sentinel

end Manifest
end Courier
