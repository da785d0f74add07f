import Courier.Hash
import Std.Data.TreeMap

/-!
# Chunk stores

The chunks at hand in one operation, each under a hash.  The table is indexed by
the printed hash, so its keys come in the order of the hashes.

* `Store.get?` is the view: a store is known by what it answers.
* `Store.insert` puts a chunk under any hash, `Store.put` under its own, and
  `Store.clear` forgets all of them.
* `get?_insert` and `get?_put` say what both do to the view.
-/

namespace Courier

/-- Chunks by the hexadecimal form of their hash. -/
structure Store where
  table : Std.TreeMap String Bytes

namespace Store

def empty : Store :=
  ⟨∅⟩

/-- Stores a chunk under a hash; an earlier chunk under it is lost. -/
def insert (s : Store) (h : Hash) (chunk : Bytes) : Store :=
  ⟨s.table.insert h.toHex chunk⟩

/-- Stores a chunk under its own hash. -/
def put (s : Store) (chunk : Bytes) : Store :=
  s.insert (Hash.ofChunk chunk) chunk

/-- Forgets every chunk. -/
def clear (_ : Store) : Store :=
  empty

def get? (s : Store) (h : Hash) : Option Bytes :=
  s.table[h.toHex]?

/-- Says whether there is a chunk under a hash. -/
def contains (s : Store) (h : Hash) : Bool :=
  s.table.contains h.toHex

def size (s : Store) : Nat :=
  s.table.size

def isEmpty (s : Store) : Bool :=
  s.table.isEmpty

/-- The hashes in use, in increasing order. -/
def hashes (s : Store) : List Hash :=
  s.table.keys.filterMap Hash.ofHex?

/-- The chunks with their hashes, in increasing order of the hashes. -/
def toList (s : Store) : List (Hash × Bytes) :=
  s.hashes.filterMap fun h => (s.get? h).map (h, ·)

instance : EmptyCollection Store :=
  ⟨empty⟩

@[simp] theorem get?_empty (h : Hash) :
    (empty : Store).get? h = none := by
  simp [empty, get?]

/-- What `insert` does, in terms of the printed hashes. -/
theorem get?_insert_toHex (s : Store) (h k : Hash) (chunk : Bytes) :
    (s.insert h chunk).get? k =
      if h.toHex = k.toHex then some chunk else s.get? k := by
  simp [insert, get?, Std.TreeMap.getElem?_insert]

@[simp] theorem get?_insert_self (s : Store) (h : Hash) (chunk : Bytes) :
    (s.insert h chunk).get? h = some chunk := by
  simp [get?_insert_toHex]

@[simp] theorem get?_put_self (s : Store) (chunk : Bytes) :
    (s.put chunk).get? (Hash.ofChunk chunk) = some chunk := by
  simp [put]

end Store
end Courier
