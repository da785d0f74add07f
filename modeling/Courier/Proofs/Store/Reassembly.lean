import Courier.Proofs.Store.Linking
import Courier.Proofs.Store.Walk

/-!
# Payloads in a store

Payloads are linked into a store that may hold anything, and more chunks may be put
into it afterwards.  As long as no two of these chunks collide, every payload is
found under its root, and outside the hashes of its chunks linking changes nothing.

* `Store.linkInPlace_eq`, `Store.linkInPlace_zero`: linking with a slice size, and
  with none.
* `Store.get?_putAll_of_fits`: a chunk stays when no other with its hash is put.
* `Store.payloads_survive`: the payloads after all these writes.
-/

namespace Courier
namespace Store

variable {s : Store} {size : Nat} {payloads : List Bytes}

/-- With a slice size every payload is linked. -/
theorem linkInPlace_eq (hsize : 0 < size) (s : Store) (payloads : List Bytes) :
    s.linkInPlace size payloads =
      (.ok (payloads.map fun payload =>
          Chain.root (Chain.ofPayload size payload)),
        s.insertChain (payloads.reverse.flatMap (Chain.ofPayload size))) := by
  have hlinked := linkAll_eq_of_linkInPlace s size payloads
  rw [linkAll_eq hsize] at hlinked
  rcases hplace : s.linkInPlace size payloads with ⟨outcome, store⟩
  rw [hplace] at hlinked
  cases outcome with
  | error e => cases hlinked
  | ok roots =>
      cases hlinked
      rfl

/-- Without a slice size the first payload fails, before anything is stored. -/
theorem linkInPlace_zero (s : Store) (hne : payloads ≠ []) :
    s.linkInPlace 0 payloads = (.error (.config .noChunkSize), s) := by
  cases payloads with
  | nil => exact absurd rfl hne
  | cons payload rest => rfl

/-- A chunk stays where it is when no other chunk with its hash is put. -/
theorem get?_putAll_of_fits {h : Hash} {chunk : Bytes} {later : List Bytes}
    (hstored : s.get? h = some chunk)
    (hfits : ∀ x ∈ later, Hash.ofChunk x = h → x = chunk) :
    (later.foldl Store.put s).get? h = some chunk := by
  induction later generalizing s with
  | nil => exact hstored
  | cons x rest ih =>
      refine ih ?_ fun y hy => hfits y (List.mem_cons_of_mem _ hy)
      rw [get?_put]
      split_ifs with hhash
      · rw [hfits x List.mem_cons_self hhash]
      · exact hstored

/-- **Every payload is found under its root.**  After payloads are linked into any
store and any chunks are put behind them, the walk from each root comes to its end
and gives the payload, if no two of these chunks collide.  Linking changes nothing
but the entries of the linked chunks, and without a slice size nothing at all. -/
theorem payloads_survive (s : Store) (payloads : List Bytes) :
    (∀ size later, 1 ≤ size →
      (∀ x ∈ (Chain.ofPayloads size payloads).map Linked.bytes ++ later,
        ∀ y ∈ (Chain.ofPayloads size payloads).map Linked.bytes ++ later,
          Hash.ofChunk x = Hash.ofChunk y → x = y) →
      (∀ c ∈ Chain.ofPayloads size payloads, c.hash ≠ Hash.zero) →
      ∃ roots linked, s.linkInPlace size payloads = (.ok roots, linked) ∧
        roots.length = payloads.length ∧
        (∀ c ∈ Chain.ofPayloads size payloads,
          linked.get? (Hash.ofChunk c.bytes) = some c.bytes) ∧
        (∀ key, (∀ c ∈ Chain.ofPayloads size payloads,
            (Hash.ofChunk c.bytes).toHex ≠ key) →
          linked.table[key]? = s.table[key]?) ∧
        ∀ (i : Nat) root payload,
          roots[i]? = some root → payloads[i]? = some payload →
          (later.foldl Store.put linked).Ends root ∧
          (later.foldl Store.put linked).reassemble root = .ok payload) ∧
    (payloads ≠ [] →
      s.linkInPlace 0 payloads = (.error (.config .noChunkSize), s)) := by
  refine ⟨?_, s.linkInPlace_zero⟩
  intro size later hsize hdistinct hnonzero
  have hchunks : Chain.Separable (Chain.ofPayloads size payloads) := by
    refine ⟨fun c hc d hd hhash => ?_, hnonzero⟩
    exact hdistinct _ (List.mem_append_left _ (List.mem_map_of_mem hc)) _
      (List.mem_append_left _ (List.mem_map_of_mem hd)) hhash
  have hlinked : ∀ c ∈ Chain.ofPayloads size payloads,
      (s.insertChain (payloads.reverse.flatMap (Chain.ofPayload size))).get?
        c.hash = some c.bytes :=
    fun c hc => get?_linked hchunks hc s
  refine ⟨_, _, linkInPlace_eq hsize s payloads, List.length_map _, hlinked, ?_, ?_⟩
  · intro key hkey
    refine getElem?_insertChain_of_ne fun c hc => hkey c ?_
    simpa [Chain.ofPayloads] using hc
  · intro i root payload hroot hpayload
    rw [List.getElem?_map, hpayload] at hroot
    obtain rfl := Option.some.inj hroot
    have hmem : ∀ c ∈ Chain.ofPayload size payload,
        c ∈ Chain.ofPayloads size payloads :=
      fun c hc => List.mem_flatMap.mpr ⟨payload, List.mem_of_getElem? hpayload, hc⟩
    have hkept : ∀ c ∈ Chain.ofPayload size payload,
        (later.foldl Store.put (s.insertChain
          (payloads.reverse.flatMap (Chain.ofPayload size)))).get? c.hash =
            some c.bytes :=
      fun c hc => get?_putAll_of_fits (hlinked c (hmem c hc)) fun x hx hhash =>
        hdistinct x (List.mem_append_right _ hx) _
          (List.mem_append_left _ (List.mem_map_of_mem (hmem c hc))) hhash
    have hpasses := passes_ofPayload (fun c hc => hnonzero c (hmem c hc)) hkept
    have hgiven := reassemble_of_passes hpasses
    rw [Chain.payload_ofPayload] at hgiven
    exact ⟨⟨_, _, hpasses, .sentinel⟩, hgiven⟩

/-- Two payloads that share a chunk, over an older chunk and under a later one. -/
theorem payloads_survive_a_shared_chunk :
    let payloads : List Bytes := [[1, 2, 3], [3]]
    let chunks := (Chain.ofPayloads 2 payloads).map Linked.bytes ++ [[7]]
    1 ≤ 2 ∧ payloads ≠ [] ∧
    (∀ x ∈ chunks, ∀ y ∈ chunks, Hash.ofChunk x = Hash.ofChunk y → x = y) ∧
    (∀ c ∈ Chain.ofPayloads 2 payloads, c.hash ≠ Hash.zero) ∧
    (∃ root other linked,
      (Store.empty.put [9]).linkInPlace 2 payloads = (.ok [root, other], linked) ∧
      (linked.put [7]).reassemble root = .ok [1, 2, 3] ∧
      (linked.put [7]).reassemble other = .ok [3]) ∧
    ((Store.empty.put [9]).linkInPlace 0 payloads).1 =
      .error (.config .noChunkSize) := by
  intro payloads chunks
  have hdistinct :
      ∀ x ∈ chunks, ∀ y ∈ chunks, Hash.ofChunk x = Hash.ofChunk y → x = y := by
    decide +kernel
  have hnonzero : ∀ c ∈ Chain.ofPayloads 2 payloads, c.hash ≠ Hash.zero := by
    decide +kernel
  obtain ⟨hsurvive, hzero⟩ := payloads_survive (Store.empty.put [9]) payloads
  obtain ⟨roots, linked, hlinked, hlength, _, _, hgiven⟩ :=
    hsurvive 2 [[7]] (by decide) hdistinct hnonzero
  obtain ⟨root, other, rfl⟩ := List.length_eq_two.mp hlength
  refine ⟨by decide, by decide, hdistinct, hnonzero,
    ⟨root, other, linked, hlinked, ?_, ?_⟩, ?_⟩
  · exact (hgiven 0 root [1, 2, 3] rfl rfl).2
  · exact (hgiven 1 other [3] rfl rfl).2
  · rw [hzero (by decide)]

end Store
end Courier
