import Courier.Proofs.Store.Linking

/-!
# What a store contains

Linking and pushing enter every chunk under its own hash, so a store that came
about in this way is a set of chunks: an entry is one of them, under the digest of
its own bytes, and a hash without an entry is the hash of none of them.  Chunks
that collide are allowed; the later one is then the entry.

* `Store.MadeOf`: the store is made of the given chunks.
* `MadeOf.put`, `MadeOf.insertChain`: what entering chunks does to the set.
* `Store.madeOf_linkAll`: the chunks of linked payloads.
-/

namespace Courier
namespace Store

/-- The store is made of these chunks, each under its own hash. -/
structure MadeOf (s : Store) (chunks : Set Bytes) : Prop where
  own : ∀ key chunk, s.table[key]? = some chunk →
    key = (Hash.ofChunk chunk).toHex ∧ chunk ∈ chunks
  present : ∀ chunk ∈ chunks, s.get? (Hash.ofChunk chunk) ≠ none

variable {s : Store} {chunks : Set Bytes}

theorem madeOf_empty : Store.empty.MadeOf ∅ :=
  ⟨fun key chunk h => by simp [empty] at h, fun chunk h => absurd h (by simp)⟩

/-- Under a hash there is a chunk with that hash, or there is none with it. -/
theorem MadeOf.ofChunk_of_get? (hs : s.MadeOf chunks) {h : Hash}
    {chunk : Bytes} (hget : s.get? h = some chunk) :
    Hash.ofChunk chunk = h ∧ chunk ∈ chunks := by
  obtain ⟨hkey, hmem⟩ := hs.own h.toHex chunk hget
  exact ⟨(Hash.toHex_injective hkey).symm, hmem⟩

theorem MadeOf.get?_eq_none_iff (hs : s.MadeOf chunks) (h : Hash) :
    s.get? h = none ↔ ∀ chunk ∈ chunks, Hash.ofChunk chunk ≠ h := by
  constructor
  · rintro hnone chunk hmem rfl
    exact hs.present chunk hmem hnone
  · intro hother
    cases hget : s.get? h with
    | none => rfl
    | some chunk =>
        obtain ⟨hhash, hmem⟩ := hs.ofChunk_of_get? hget
        exact absurd hhash (hother chunk hmem)

/-- A chunk that is put takes the place of one with its hash, and leaves every
other entry alone. -/
theorem MadeOf.put (hs : s.MadeOf chunks) (chunk : Bytes) :
    (s.put chunk).MadeOf (chunks ∪ {chunk}) := by
  constructor
  · intro key entry hentry
    simp only [Store.put, Store.insert, Std.TreeMap.getElem?_insert,
      Std.LawfulEqCmp.compare_eq_iff_eq] at hentry
    split_ifs at hentry with hkey
    · obtain rfl := Option.some.inj hentry
      exact ⟨hkey.symm, Or.inr rfl⟩
    · obtain ⟨hown, hmem⟩ := hs.own key entry hentry
      exact ⟨hown, Or.inl hmem⟩
  · intro entry hentry
    rw [get?_put]
    split_ifs with hhash
    · simp
    · rcases hentry with hmem | rfl
      · exact hs.present entry hmem
      · exact absurd rfl hhash

theorem MadeOf.insertChain (hs : s.MadeOf chunks) (chain : List Linked) :
    (s.insertChain chain).MadeOf (chunks ∪ {b | ∃ c ∈ chain, c.bytes = b}) := by
  induction chain with
  | nil => simpa [Store.insertChain] using hs
  | cons c rest ih =>
      have hset : chunks ∪ {b | ∃ d ∈ rest, d.bytes = b} ∪ {c.bytes} =
          chunks ∪ {b | ∃ d ∈ c :: rest, d.bytes = b} := by
        ext b
        simp only [Set.mem_union, Set.mem_ofPred_eq, Set.mem_singleton_iff,
          List.mem_cons, exists_eq_or_imp, eq_comm (a := b)]
        rw [or_assoc, or_comm (b := c.bytes = b)]
      rw [insertChain_cons, ← hset]
      exact ih.put c.bytes

/-- Linking payloads into an empty store gives a store of their chunks. -/
theorem madeOf_linkAll {size : Nat} (payloads : List Bytes) :
    (Store.empty.insertChain
      (payloads.reverse.flatMap (Chain.ofPayload size))).MadeOf
        {b | ∃ c ∈ Chain.ofPayloads size payloads, c.bytes = b} := by
  have hlinked := madeOf_empty.insertChain
    (payloads.reverse.flatMap (Chain.ofPayload size))
  rw [Set.empty_union] at hlinked
  simpa [Chain.ofPayloads] using hlinked

end Store
end Courier
