import Courier.Proofs.Text.Hex
import Courier.Store

/-!
# The view of a store

A store is indexed by printed hashes.  Printing loses nothing, so the look-up by
hash behaves as a finite map from hashes to chunks in which the last insertion
under a hash wins.

* `Hash.toHex_injective`: the printed form determines the hash.
* `Store.get?_insert`, `Store.get?_put`: what each write does to every look-up.
-/

namespace Courier

theorem Hash.toHex_injective : Function.Injective Hash.toHex := by
  intro h k heq
  have hdigits : Hex.digits h.bytes = Hex.digits k.bytes :=
    String.ofList_injective heq
  exact Hash.ext (Hex.digits_injective hdigits)

namespace Store

/-- An insertion answers for its own hash, and leaves every other hash alone. -/
theorem get?_insert (s : Store) (h k : Hash) (chunk : Bytes) :
    (s.insert h chunk).get? k = if h = k then some chunk else s.get? k := by
  simp only [get?_insert_toHex, Hash.toHex_injective.eq_iff]

theorem get?_put (s : Store) (chunk : Bytes) (k : Hash) :
    (s.put chunk).get? k =
      if Hash.ofChunk chunk = k then some chunk else s.get? k :=
  s.get?_insert (Hash.ofChunk chunk) k chunk

end Store
end Courier
