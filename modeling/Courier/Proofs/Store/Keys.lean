import Courier.Proofs.Store.Size

/-!
# The keys of a store

A key is a printed hash: 64 lower-case digits, from which the hash is read back.  Printed
hashes come in the order of the hashes, so the keys of a store that holds nothing else
give its hashes, each once and in order.

* `Hash.IsText`: the form of a printed hash; `Hash.isText_toHex`, `Hash.ofHex?_toHex`.
* `Store.Printed`: every key is a printed hash.
* `Printed.map_toHex_hashes`: no key is dropped when the hashes are listed, and
  `Printed.length_hashes`, `Printed.pairwise_hashes`, `Printed.mem_hashes_iff`.
-/

namespace Courier
namespace Hash

/-- Texts of 64 lower-case digits. -/
def IsText (s : String) : Prop :=
  s.length = 64 ∧ ∀ c ∈ s.toList, Hex.IsDigit c

theorem isText_toHex (h : Hash) : IsText h.toHex := by
  constructor
  · rw [toHex, Hex.encode, String.length_ofList, Hex.length_digits, h.length_bytes]
  · rw [toHex, Hex.encode, String.toList_ofList]
    exact Hex.isDigit_of_mem_digits h.bytes

/-- A printed hash is read back. -/
theorem ofHex?_toHex (h : Hash) : ofHex? h.toHex = some h := by
  have hdigits : Hex.decodeLower? h.toHex.toUTF8.toList = some h.bytes :=
    Hex.decodeLower?_encode h.bytes
  rw [ofHex?, hdigits, Option.bind_some, ofBytes?_bytes]

/-- Printed hashes are in order as their bytes are. -/
theorem compare_toHex_eq_lt_iff (h k : Hash) :
    compare h.toHex k.toHex = .lt ↔ h.bytes < k.bytes := by
  rw [compare_lt_iff_lt]
  exact Hex.encode_lt_encode_iff h.bytes k.bytes

end Hash

namespace Store

/-- Every key is a printed hash. -/
def Printed (s : Store) : Prop :=
  ∀ key ∈ s.table.keys, ∃ h : Hash, h.toHex = key

namespace Printed

variable {s : Store} (hs : s.Printed)
include hs

/-- No key is dropped when the hashes are listed. -/
theorem map_toHex_hashes : s.hashes.map Hash.toHex = s.table.keys := by
  have hall : ∀ keys : List String, (∀ key ∈ keys, ∃ h : Hash, h.toHex = key) →
      (keys.filterMap Hash.ofHex?).map Hash.toHex = keys := by
    intro keys hkeys
    induction keys with
    | nil => rfl
    | cons key rest ih =>
        obtain ⟨⟨h, rfl⟩, hrest⟩ := List.forall_mem_cons.mp hkeys
        rw [List.filterMap_cons_some (Hash.ofHex?_toHex h), List.map_cons, ih hrest]
  exact hall s.table.keys hs

theorem length_hashes : s.hashes.length = s.size := by
  rw [← List.length_map Hash.toHex, hs.map_toHex_hashes]
  exact Std.TreeMap.length_keys

/-- The hashes come in strictly increasing order. -/
theorem pairwise_hashes : s.hashes.Pairwise fun h k => h.bytes < k.bytes := by
  have hkeys := @Std.TreeMap.ordered_keys _ _ _ s.table _
  rw [← hs.map_toHex_hashes, List.pairwise_map] at hkeys
  exact hkeys.imp fun h => (Hash.compare_toHex_eq_lt_iff _ _).mp h

theorem nodup_hashes : s.hashes.Nodup := by
  refine hs.pairwise_hashes.imp fun hlt => ?_
  rintro rfl
  exact List.lt_irrefl _ hlt

/-- The hashes are those with a chunk. -/
theorem mem_hashes_iff (h : Hash) : h ∈ s.hashes ↔ s.get? h ≠ none := by
  rw [← List.mem_map_of_injective Hash.toHex_injective, hs.map_toHex_hashes,
    toHex_mem_keys_iff]

end Printed
end Store
end Courier
