import Courier.Failure
import Courier.Store

/-!
# Chains of linked chunks

A payload is cut into slices, and each slice is stored behind the hash of the
chunk that holds the next one.  The hash of the first chunk, the root, stands for
the whole payload; the last link is the sentinel, and so is the root of the empty
payload.

* `Chain.ofSlices` links slices from the last to the first.
* `Store.link` and `Store.linkAll` enter payloads into a store;
  `Store.linkInPlace` also says what a failure leaves behind, and
  `Store.linkAll_eq_of_linkInPlace` that they do the same otherwise.
* `Store.trail` follows links from a root, and `Store.reassemble` puts the
  slices it meets together.
-/

namespace Courier

/-- A slice of a payload behind the hash of the chunk after it. -/
structure Linked where
  next : Hash
  slice : Bytes
  deriving DecidableEq

namespace Linked

/-- The stored form: the link, then the slice. -/
def bytes (c : Linked) : Bytes :=
  c.next.bytes ++ c.slice

/-- The hash under which the chunk is stored. -/
def hash (c : Linked) : Hash :=
  Hash.ofChunk c.bytes

/-- Takes a stored chunk apart. -/
def ofBytes (chunk : Bytes) : Except Failure Linked :=
  match Hash.ofBytes? (chunk.take Hash.size) with
  | some next => .ok ⟨next, chunk.drop Hash.size⟩
  | none => .error (.protocol (.shortChunk chunk.length))

@[simp] theorem ofBytes_bytes (c : Linked) :
    ofBytes c.bytes = .ok c := by
  have hlen : c.next.bytes.length = Hash.size := c.next.length_bytes
  simp [ofBytes, bytes, ← hlen]

end Linked

namespace Chain

/-- The hash of the first chunk, or the sentinel. -/
def root : List Linked → Hash
  | [] => Hash.zero
  | c :: _ => c.hash

/-- The linked chunks of consecutive slices, in payload order. -/
def ofSlices : List Bytes → List Linked
  | [] => []
  | s :: rest =>
      let chain := ofSlices rest
      ⟨root chain, s⟩ :: chain

/-- The linked chunks of a payload in slices of `size` bytes. -/
def ofPayload (size : Nat) (payload : Bytes) : List Linked :=
  ofSlices (Bytes.slices size payload)

/-- The slices of a payload; their size has to be positive. -/
def split (payload : Bytes) (size : Nat) : Except Failure (List Bytes) :=
  if size = 0 then .error (.config .noChunkSize)
  else .ok (Bytes.slices size payload)

@[simp] theorem map_slice_ofSlices (slices : List Bytes) :
    (ofSlices slices).map Linked.slice = slices := by
  induction slices with
  | nil => rfl
  | cons s rest ih => simp [ofSlices, ih]

end Chain

namespace Store

/-- Enters linked chunks, the last of them first. -/
def insertChain (s : Store) (chain : List Linked) : Store :=
  chain.foldr (fun c s => s.insert c.hash c.bytes) s

/-- Links a payload into the store and gives its root. -/
def link (s : Store) (payload : Bytes) (size : Nat) :
    Except Failure (Hash × Store) :=
  match Chain.split payload size with
  | .error e => .error e
  | .ok slices =>
      .ok (Chain.root (Chain.ofSlices slices),
        s.insertChain (Chain.ofSlices slices))

/-- Links payloads into the store, and gives their roots in order. -/
def linkAll (s : Store) (size : Nat) :
    List Bytes → Except Failure (List Hash × Store)
  | [] => .ok ([], s)
  | payload :: rest =>
      match s.link payload size with
      | .error e => .error e
      | .ok (root, s) =>
          match s.linkAll size rest with
          | .error e => .error e
          | .ok (roots, s) => .ok (root :: roots, s)

/-- Links payloads into a store that the caller keeps: the roots or the first
failure, and the store that is left either way. -/
def linkInPlace (s : Store) (size : Nat) :
    List Bytes → Except Failure (List Hash) × Store
  | [] => (.ok [], s)
  | payload :: rest =>
      match Chain.split payload size with
      | .error e => (.error e, s)
      | .ok slices =>
          let chain := Chain.ofSlices slices
          let linked := (s.insertChain chain).linkInPlace size rest
          (linked.1.map (Chain.root chain :: ·), linked.2)

/-- `linkAll` gives what `linkInPlace` does, but for the store after a failure. -/
theorem linkAll_eq_of_linkInPlace (s : Store) (size : Nat)
    (payloads : List Bytes) :
    s.linkAll size payloads =
      (s.linkInPlace size payloads).1.map
        (·, (s.linkInPlace size payloads).2) := by
  induction payloads generalizing s with
  | nil => rfl
  | cons payload rest ih =>
      rw [linkAll, linkInPlace, link]
      cases Chain.split payload size with
      | error e => rfl
      | ok slices =>
          dsimp only
          rw [ih]
          cases ((s.insertChain (Chain.ofSlices slices)).linkInPlace size rest).1
          · rfl
          · rfl

/-- What a walk along the links comes to. -/
inductive Trail
  | complete (chunks : List Linked)
  | missing (hash : Hash)
  | short (length : Nat)
  | endless
  deriving DecidableEq

/-- Puts a chunk in front of a complete trail. -/
def Trail.push (c : Linked) : Trail → Trail
  | .complete chunks => .complete (c :: chunks)
  | other => other

/-- Follows at most `fuel` links from `cursor`. -/
def follow (s : Store) : Nat → Hash → Trail
  | fuel, cursor =>
      if cursor.isZero then .complete []
      else
        match fuel with
        | 0 => .endless
        | fuel + 1 =>
            match s.get? cursor with
            | none => .missing cursor
            | some chunk =>
                match Linked.ofBytes chunk with
                | .error _ => .short chunk.length
                | .ok c => (s.follow fuel c.next).push c

/-- Follows the links from a root.  A walk that ends meets each stored chunk at
most once, so the number of chunks is fuel enough. -/
def trail (s : Store) (root : Hash) : Trail :=
  s.follow (s.size + 1) root

/-- The payload under a root. -/
def reassemble (s : Store) (root : Hash) : Except Failure Bytes :=
  match s.trail root with
  | .complete chunks => .ok (chunks.map Linked.slice).flatten
  | .missing hash => .error (.protocol (.missingChunk hash))
  | .short length => .error (.protocol (.shortChunk length))
  | .endless => .error (.protocol (.endlessLinks root))

end Store
end Courier
