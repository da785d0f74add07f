import Courier.Proofs.Store.View
import Mathlib.Data.Set.Card

/-!
# The size of a store

A store has one key for each hash with a chunk, so its size counts hashes.

* `Store.length_le_size`: different hashes with a chunk are at most as many as the
  size says.
* `Store.size_eq_ncard`: the size is the number of hashes, if every key is one.
-/

namespace Courier
namespace Store

variable {s : Store}

theorem toHex_mem_keys_iff (h : Hash) :
    h.toHex ∈ s.table.keys ↔ s.get? h ≠ none := by
  rw [Std.TreeMap.mem_keys, Std.TreeMap.mem_iff_isSome_getElem?,
    Option.isSome_iff_ne_none]
  rfl

/-- Different hashes with a chunk are at most as many as the size says. -/
theorem length_le_size {hashes : List Hash} (hnodup : hashes.Nodup)
    (hstored : ∀ h ∈ hashes, s.get? h ≠ none) : hashes.length ≤ s.size := by
  have hprinted : (hashes.map Hash.toHex).Nodup :=
    hnodup.map Hash.toHex_injective
  have hkeys : hashes.map Hash.toHex ⊆ s.table.keys := by
    intro key hkey
    obtain ⟨h, hmem, rfl⟩ := List.mem_map.mp hkey
    exact (toHex_mem_keys_iff h).mpr (hstored h hmem)
  calc hashes.length = (hashes.map Hash.toHex).length := by rw [List.length_map]
    _ ≤ s.table.keys.length := hprinted.length_le_of_subset hkeys
    _ = s.size := Std.TreeMap.length_keys

/-- If the keys are the printed forms of some hashes, the size is their number. -/
theorem size_eq_ncard {hashes : Set Hash}
    (hkeys : ∀ key, s.table[key]? ≠ none ↔ ∃ h ∈ hashes, h.toHex = key) :
    s.size = hashes.ncard := by
  have himage : (s.table.keys.toFinset : Set String) = Hash.toHex '' hashes := by
    ext key
    rw [Finset.mem_coe, List.mem_toFinset, Std.TreeMap.mem_keys,
      Std.TreeMap.mem_iff_isSome_getElem?, Option.isSome_iff_ne_none, hkeys]
    rfl
  calc s.size = s.table.keys.length := Std.TreeMap.length_keys.symm
    _ = s.table.keys.toFinset.card :=
        (List.toFinset_card_of_nodup Std.TreeMap.nodup_keys).symm
    _ = (Hash.toHex '' hashes).ncard := by rw [← himage, Set.ncard_coe_finset]
    _ = hashes.ncard := Set.ncard_image_of_injective _ Hash.toHex_injective

end Store
end Courier
