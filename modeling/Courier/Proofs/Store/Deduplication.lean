import Courier.Proofs.Chain.Suffixes
import Courier.Proofs.Store.Contents
import Courier.Proofs.Store.Size

/-!
# What is stored once

Payloads that end alike share chunks, and a chunk that is entered again is the same
entry.  Without collisions a store of linked payloads has one entry for each suffix
of a payload behind whole slices, and it does not matter in which order and how
often the payloads came.

* `Store.stored_linkAll_iff`: the keys of a store of payloads.
* `Store.size_linkAll`: their number.
* `Store.getElem?_linkAll_congr`: the same payloads make the same entries.
* `Store.link_deduplicates`: both for what linking gives.
-/

namespace Courier
namespace Store

variable {size : Nat} {payloads others : List Bytes}

/-- The keys of a store of payloads are the hashes of their chunks. -/
theorem stored_linkAll_iff (size : Nat) (payloads : List Bytes) (key : String) :
    (Store.empty.insertChain
      (payloads.reverse.flatMap (Chain.ofPayload size))).table[key]? ≠ none ↔
        ∃ c ∈ Chain.ofPayloads size payloads, c.hash.toHex = key := by
  have hmade := @madeOf_linkAll size payloads
  constructor
  · intro hstored
    obtain ⟨chunk, hchunk⟩ := Option.ne_none_iff_exists'.mp hstored
    obtain ⟨rfl, c, hc, rfl⟩ := hmade.own key chunk hchunk
    exact ⟨c, hc, rfl⟩
  · rintro ⟨c, hc, rfl⟩
    exact hmade.present c.bytes ⟨c, hc, rfl⟩

/-- A store of payloads has an entry for each of their suffixes. -/
theorem size_linkAll (hsize : 0 < size)
    (hchunks : Chain.Separable (Chain.ofPayloads size payloads)) :
    (Store.empty.insertChain
      (payloads.reverse.flatMap (Chain.ofPayload size))).size =
        (Chain.suffixes size payloads).ncard := by
  rw [← (Chain.injOn_root hsize hchunks).ncard_image]
  refine size_eq_ncard fun key => ?_
  rw [stored_linkAll_iff]
  constructor
  · rintro ⟨c, hc, rfl⟩
    exact ⟨c.hash, (Chain.exists_hash_iff hsize payloads c.hash).mp ⟨c, hc, rfl⟩, rfl⟩
  · rintro ⟨h, hroot, rfl⟩
    obtain ⟨c, hc, rfl⟩ := (Chain.exists_hash_iff hsize payloads h).mpr hroot
    exact ⟨c, hc, rfl⟩

theorem mem_ofPayloads_congr (h : ∀ payload, payload ∈ others ↔ payload ∈ payloads)
    (c : Linked) :
    c ∈ Chain.ofPayloads size others ↔ c ∈ Chain.ofPayloads size payloads := by
  simp only [Chain.ofPayloads, List.mem_flatMap, h]

/-- The same payloads make the same entries, in whatever order and however often
they come. -/
theorem getElem?_linkAll_congr
    (hchunks : Chain.Separable (Chain.ofPayloads size payloads))
    (h : ∀ payload, payload ∈ others ↔ payload ∈ payloads) (key : String) :
    (Store.empty.insertChain
      (others.reverse.flatMap (Chain.ofPayload size))).table[key]? =
    (Store.empty.insertChain
      (payloads.reverse.flatMap (Chain.ofPayload size))).table[key]? := by
  have hothers : Chain.Separable (Chain.ofPayloads size others) :=
    hchunks.mono fun c hc => (mem_ofPayloads_congr h c).mp hc
  by_cases hkey : ∃ c ∈ Chain.ofPayloads size payloads, c.hash.toHex = key
  · obtain ⟨c, hc, rfl⟩ := hkey
    exact (get?_linked hothers ((mem_ofPayloads_congr h c).mpr hc) .empty).trans
      (get?_linked hchunks hc .empty).symm
  · have hnone := (stored_linkAll_iff size payloads key).not.mpr hkey
    simp only [← mem_ofPayloads_congr h] at hkey
    have hnone' := (stored_linkAll_iff size others key).not.mpr hkey
    rw [not_not.mp hnone, not_not.mp hnone']

/-- **Every suffix is stored once.**  Without collisions linking payloads into an
empty store makes one entry for each suffix behind whole slices, and so one for each
slice of a single payload; each payload gets the root of its chain.  The same payloads
in another order, or repeated, make the same store, and their roots come in that order
and are repeated like them. -/
theorem link_deduplicates (hsize : 1 ≤ size)
    (hchunks : Chain.Separable (Chain.ofPayloads size payloads)) :
    let root := fun payload => Chain.root (Chain.ofPayload size payload)
    ∃ roots store, Store.empty.linkAll size payloads = .ok (roots, store) ∧
      roots = payloads.map root ∧
      store.size = (Chain.suffixes size payloads).ncard ∧
      (∀ payload, payloads = [payload] →
        store.size = payload.length ⌈/⌉ size) ∧
      ∀ others, (∀ payload, payload ∈ others ↔ payload ∈ payloads) →
        ∃ roots' store', Store.empty.linkAll size others = .ok (roots', store') ∧
          roots' = others.map root ∧
          (∀ key : String, store'.table[key]? = store.table[key]?) ∧
          store'.size = store.size ∧
          ∀ i j : Nat, others[i]? = payloads[j]? → roots'[i]? = roots[j]? := by
  intro root
  refine ⟨_, _, linkAll_eq hsize .empty payloads, rfl, size_linkAll hsize hchunks, ?_, ?_⟩
  · rintro payload rfl
    rw [size_linkAll hsize hchunks, Chain.ncard_suffixes hsize]
  · intro others hsame
    refine ⟨_, _, linkAll_eq hsize .empty others, rfl,
      getElem?_linkAll_congr hchunks hsame, ?_, ?_⟩
    · have hothers : Chain.Separable (Chain.ofPayloads size others) :=
        hchunks.mono fun c hc => (mem_ofPayloads_congr hsame c).mp hc
      rw [size_linkAll hsize hothers, size_linkAll hsize hchunks]
      simp only [Chain.suffixes, hsame]
    · intro i j hij
      rw [List.getElem?_map, List.getElem?_map, hij]

/-- A payload of two equal slices makes two entries, also when it comes twice, and then
its root is given twice. -/
theorem link_deduplicates_equal_slices :
    let payload : Bytes := [3, 3, 3, 3]
    1 ≤ 2 ∧ Chain.Separable (Chain.ofPayloads 2 [payload]) ∧
    ∃ root store, Store.empty.linkAll 2 [payload] = .ok ([root], store) ∧
      store.size = 2 ∧
      ∃ store', Store.empty.linkAll 2 [payload, payload] = .ok ([root, root], store') ∧
        store'.size = 2 := by
  intro payload
  have hchunks : Chain.Separable (Chain.ofPayloads 2 [payload]) :=
    ⟨by decide +kernel, by decide +kernel⟩
  obtain ⟨_, store, hlinked, rfl, _, hsingle, hothers⟩ :=
    link_deduplicates (by decide) hchunks
  obtain ⟨_, store', hlinked', rfl, _, hsize, _⟩ :=
    hothers [payload, payload] (by simp)
  have htwo : store.size = 2 := by
    rw [hsingle payload rfl, Nat.ceilDiv_eq_add_pred_div]
    decide
  exact ⟨by decide, hchunks, _, store, hlinked, htwo, store', hlinked', hsize.trans htwo⟩

end Store
end Courier
