import Courier.Proofs.Store.Keys

/-!
# A store as a map

Whatever is written to a store, its answers are told by what was entered since it was
cleared last: under a hash there is what was entered under it most recently.

* `Store.Write`, `Store.after`: writes, and a fresh store after some of them;
  `Write.entered`: the entries that count.
* `Store.Represents`: a store stands for a list of entries; `Represents.write` for one
  write and `represents_after` for all.
* `Represents.size_eq`, `Represents.mem_hashes_iff`: the number of hashes, and the hashes.
* `Store.Alike`: two stores with the same answers; `Represents.alike`.
* `Store.answers_as_a_map`: everything that a store can be asked.
-/

namespace Courier
namespace Store

/-- What is done to a store. -/
inductive Write
  | insert (h : Hash) (chunk : Bytes)
  | put (chunk : Bytes)
  | clear
  deriving DecidableEq

namespace Write

/-- The entry that a write makes; a clearing makes none. -/
def entry? : Write → Option (Hash × Bytes)
  | insert h chunk => some (h, chunk)
  | put chunk => some (Hash.ofChunk chunk, chunk)
  | clear => none

/-- The entries made since the last clearing, the latest first. -/
def entered (writes : List Write) : List (Hash × Bytes) :=
  (writes.reverse.takeWhile fun w => w.entry?.isSome).filterMap entry?

variable {writes : List Write} {w : Write}

theorem entered_snoc_of_entry {entry : Hash × Bytes} (hw : w.entry? = some entry) :
    entered (writes ++ [w]) = entry :: entered writes := by
  rw [entered, List.reverse_append, List.reverse_singleton, List.singleton_append,
    List.takeWhile_cons, hw, Option.isSome_some, if_pos rfl, List.filterMap_cons_some hw,
    entered]

theorem entered_snoc_of_clearing (hw : w.entry? = none) : entered (writes ++ [w]) = [] := by
  rw [entered, List.reverse_append, List.reverse_singleton, List.singleton_append,
    List.takeWhile_cons, hw]
  rfl

end Write

def write (s : Store) : Write → Store
  | .insert h chunk => s.insert h chunk
  | .put chunk => s.put chunk
  | .clear => s.clear

/-- A fresh store after some writes. -/
def after (writes : List Write) : Store :=
  writes.foldl write empty

theorem after_snoc (writes : List Write) (w : Write) :
    after (writes ++ [w]) = (after writes).write w := by
  rw [after, List.foldl_concat, ← after]

/-- The store stands for these entries: its keys are printed hashes, and under a hash
there is what its first entry says. -/
structure Represents (s : Store) (entries : List (Hash × Bytes)) : Prop where
  printed : s.Printed
  get? : ∀ h, s.get? h = entries.lookup h

theorem represents_empty : empty.Represents [] :=
  ⟨by simp [Printed, empty], get?_empty⟩

namespace Represents

variable {s : Store} {entries : List (Hash × Bytes)}

theorem insert (hs : s.Represents entries) (h : Hash) (chunk : Bytes) :
    (s.insert h chunk).Represents ((h, chunk) :: entries) := by
  constructor
  · intro key hkey
    rw [Store.insert, Std.TreeMap.mem_keys, Std.TreeMap.mem_insert,
      Std.LawfulEqCmp.compare_eq_iff_eq] at hkey
    rcases hkey with hown | hother
    · exact ⟨h, hown⟩
    · exact hs.printed key (Std.TreeMap.mem_keys.mpr hother)
  · intro k
    rw [get?_insert, hs.get?, List.lookup_cons]
    by_cases heq : h = k
    · rw [if_pos heq, beq_iff_eq.mpr heq.symm]
    · rw [if_neg heq, beq_false_of_ne (Ne.symm heq)]

/-- A write makes its entry the first one, and a clearing leaves none. -/
theorem write {writes : List Write} (hs : s.Represents (Write.entered writes)) (w : Write) :
    (s.write w).Represents (Write.entered (writes ++ [w])) := by
  cases w with
  | insert h chunk =>
      rw [Write.entered_snoc_of_entry rfl]
      exact hs.insert h chunk
  | put chunk =>
      rw [Write.entered_snoc_of_entry rfl]
      exact hs.insert (Hash.ofChunk chunk) chunk
  | clear =>
      rw [Write.entered_snoc_of_clearing rfl]
      exact represents_empty

theorem contains_eq (hs : s.Represents entries) (h : Hash) :
    s.contains h = (entries.lookup h).isSome := by
  rw [← hs.get?, contains, Std.TreeMap.contains_eq_isSome_getElem?]
  rfl

/-- The hashes of a store are those of the entries. -/
theorem mem_hashes_iff (hs : s.Represents entries) (h : Hash) :
    h ∈ s.hashes ↔ h ∈ entries.map Prod.fst := by
  rw [hs.printed.mem_hashes_iff, hs.get?, ← Option.isSome_iff_ne_none, List.lookup_isSome_iff,
    List.mem_map]
  simp only [beq_iff_eq, eq_comm (a := h)]

/-- The size is the number of hashes among the entries. -/
theorem size_eq (hs : s.Represents entries) :
    s.size = (entries.map Prod.fst).toFinset.card := by
  rw [← hs.printed.length_hashes, ← List.toFinset_card_of_nodup hs.printed.nodup_hashes]
  congr 1
  ext h
  rw [List.mem_toFinset, List.mem_toFinset, hs.mem_hashes_iff]

end Represents

/-- No question tells these stores apart. -/
structure Alike (s t : Store) : Prop where
  get? : ∀ h, s.get? h = t.get? h
  contains : ∀ h, s.contains h = t.contains h
  size : s.size = t.size
  isEmpty : s.isEmpty = t.isEmpty
  hashes : s.hashes = t.hashes

theorem isEmpty_eq (s : Store) : s.isEmpty = (s.size == 0) :=
  Std.TreeMap.isEmpty_eq_size_eq_zero

/-- Stores whose entries look up alike are alike. -/
theorem Represents.alike {s t : Store} {entries others : List (Hash × Bytes)}
    (hs : s.Represents entries) (ht : t.Represents others)
    (hlookup : ∀ h, entries.lookup h = others.lookup h) : s.Alike t := by
  have hget : ∀ h, s.get? h = t.get? h := by
    intro h
    rw [hs.get?, ht.get?, hlookup]
  have hperm : s.hashes.Perm t.hashes := by
    rw [List.perm_ext_iff_of_nodup hs.printed.nodup_hashes ht.printed.nodup_hashes]
    intro h
    rw [hs.printed.mem_hashes_iff, ht.printed.mem_hashes_iff, hget]
  have hhashes : s.hashes = t.hashes :=
    hperm.eq_of_pairwise
      (fun h k _ _ hlt hgt => absurd (List.lt_trans hlt hgt) (List.lt_irrefl _))
      hs.printed.pairwise_hashes ht.printed.pairwise_hashes
  have hsize : s.size = t.size := by
    rw [← hs.printed.length_hashes, ← ht.printed.length_hashes, hhashes]
  constructor
  · exact hget
  · intro h
    rw [hs.contains_eq, ht.contains_eq, hlookup]
  · exact hsize
  · rw [isEmpty_eq, isEmpty_eq, hsize]
  · exact hhashes

/-- A store represents what was entered since the last clearing. -/
theorem represents_after (writes : List Write) :
    (after writes).Represents (Write.entered writes) := by
  induction writes using List.reverseRecOn with
  | nil => exact represents_empty
  | append_singleton writes w ih =>
      rw [after_snoc]
      exact ih.write w

/-- An entry leaves every other hash alone. -/
theorem get?_write_of_ne {s : Store} {w : Write} {entry : Hash × Bytes}
    (hw : w.entry? = some entry) {h : Hash} (hne : entry.1 ≠ h) :
    (s.write w).get? h = s.get? h := by
  cases w with
  | insert k chunk =>
      obtain rfl := Option.some.inj hw
      rw [write, get?_insert, if_neg hne]
  | put chunk =>
      obtain rfl := Option.some.inj hw
      rw [write, get?_put, if_neg hne]
  | clear => cases hw

/-- To put a chunk twice is to put it once. -/
theorem alike_put_put {s : Store} {entries : List (Hash × Bytes)}
    (hs : s.Represents entries) (chunk : Bytes) :
    ((s.put chunk).put chunk).Alike (s.put chunk) := by
  have honce : (s.put chunk).Represents ((Hash.ofChunk chunk, chunk) :: entries) :=
    hs.insert (Hash.ofChunk chunk) chunk
  have htwice : ((s.put chunk).put chunk).Represents
      ((Hash.ofChunk chunk, chunk) :: (Hash.ofChunk chunk, chunk) :: entries) :=
    honce.insert (Hash.ofChunk chunk) chunk
  refine htwice.alike honce fun h => ?_
  rw [List.lookup_cons]
  cases heq : h == Hash.ofChunk chunk with
  | true => rw [List.lookup_cons, heq]
  | false => rfl

/-- **A store is the map of what was entered.**  After any writes to a fresh store, under
a hash there is what was entered under it most recently since the last clearing.  The size
is the number of hashes entered, every key is the printed form of a hash, and the hashes
are listed each once, in strictly increasing order, and none is dropped as it is read back
from its key.  To put a chunk twice is to put it once, and an entry leaves every other hash
alone. -/
theorem answers_as_a_map (writes : List Write) :
    let s := after writes
    let entries := Write.entered writes
    (∀ h, s.get? h = entries.lookup h) ∧
    (∀ h, s.contains h = (entries.lookup h).isSome) ∧
    s.size = (entries.map Prod.fst).toFinset.card ∧
    (s.isEmpty = true ↔ s.size = 0) ∧
    (∀ key ∈ s.table.keys, Hash.IsText key ∧ ∃ h : Hash,
      Hex.decodeLower? (Utf8.encode key) = some h.bytes ∧
      Hash.ofBytes? h.bytes = some h) ∧
    s.hashes.map Hash.toHex = s.table.keys ∧
    s.hashes.length = s.size ∧
    s.hashes.Pairwise (fun h k => h.bytes < k.bytes) ∧
    (∀ h, h ∈ s.hashes ↔ s.contains h = true) ∧
    (∀ chunk, ((s.put chunk).put chunk).Alike (s.put chunk)) ∧
    ∀ w entry h, Write.entry? w = some entry → entry.1 ≠ h →
      (s.write w).get? h = s.get? h := by
  intro s entries
  have hs : s.Represents entries := represents_after writes
  refine ⟨hs.get?, hs.contains_eq, hs.size_eq, ?_, ?_, hs.printed.map_toHex_hashes,
    hs.printed.length_hashes, hs.printed.pairwise_hashes, ?_, alike_put_put hs, ?_⟩
  · rw [isEmpty_eq, beq_iff_eq]
  · intro key hkey
    obtain ⟨h, rfl⟩ := hs.printed key hkey
    exact ⟨h.isText_toHex, h, Hex.decodeLower?_encode h.bytes, Hash.ofBytes?_bytes h⟩
  · intro h
    rw [hs.printed.mem_hashes_iff, hs.contains_eq, hs.get?, Option.isSome_iff_ne_none]
  · intro w entry h hw hne
    exact get?_write_of_ne hw hne

/-- An entry that is made twice, after one that was cleared away. -/
theorem answers_as_a_map_after_an_overwrite :
    let s := after [.put [1], .clear, .insert Hash.zero [2], .put [3], .insert Hash.zero [4]]
    s.get? Hash.zero = some [4] ∧ s.get? (Hash.ofChunk [3]) = some [3] ∧
    s.get? (Hash.ofChunk [1]) = none ∧ s.size = 2 ∧
    (s.put [5]).get? Hash.zero = some [4] := by
  intro s
  obtain ⟨hget, _, hsize, _, _, _, _, _, _, _, hother⟩ := answers_as_a_map
    [.put [1], .clear, .insert Hash.zero [2], .put [3], .insert Hash.zero [4]]
  have hzero : s.get? Hash.zero = some [4] := (hget _).trans (by decide +kernel)
  have hkept : (s.put [5]).get? Hash.zero = s.get? Hash.zero :=
    hother (.put [5]) (Hash.ofChunk [5], [5]) Hash.zero rfl (by decide +kernel)
  exact ⟨hzero, (hget _).trans (by decide +kernel), (hget _).trans (by decide +kernel),
    hsize.trans (by decide +kernel), hkept.trans hzero⟩

end Store
end Courier
