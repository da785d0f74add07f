import Courier.Chain

/-!
# Manifests

The layout of one payload: its chunks in the order in which a device pulls them,
each with its hash, its link and the length of its slice.  A manifest is read off
a store into which the payload was linked, and printed as an indented JSON
document.
-/

namespace Courier

/-- One chunk of a manifest. -/
structure ManifestEntry where
  hash : Hash
  link : Hash
  length : Nat
  deriving DecidableEq

/-- The chunk layout of one payload. -/
structure Manifest where
  chunkSize : Nat
  payloadLength : Nat
  root : Hash
  chunks : List ManifestEntry
  deriving DecidableEq

namespace Manifest

/-- The entries of linked chunks, of which the first has the given hash. -/
def entries (hash : Hash) : List Linked → List ManifestEntry
  | [] => []
  | c :: rest => ⟨hash, c.next, c.slice.length⟩ :: entries c.next rest

/-- The manifest of a payload in slices of `size` bytes. -/
def build (payload : Bytes) (size : Nat) : Except Failure Manifest :=
  match Store.empty.link payload size with
  | .error e => .error e
  | .ok (root, store) =>
      match store.trail root with
      | .complete chunks =>
          .ok ⟨size, payload.length, root, entries root chunks⟩
      | .missing hash => .error (.protocol (.lostChunk hash))
      | .short length => .error (.protocol (.shortChunk length))
      | .endless => .error (.protocol (.endlessLinks root))

/-- A named member of a JSON object, at the given depth. -/
def member (depth : Nat) (name value : String) : String :=
  String.ofList (List.replicate (2 * depth) ' ') ++ "\"" ++ name ++ "\": " ++ value

def quoted (h : Hash) : String :=
  "\"" ++ h.toHex ++ "\""

def entryText (e : ManifestEntry) : String :=
  "    \x7b\n" ++
    String.intercalate ",\n"
      [member 3 "hash" (quoted e.hash), member 3 "link" (quoted e.link),
        member 3 "len" (toString e.length)] ++
    "\n    \x7d"

/-- The list of entries as an indented JSON array. -/
def entriesText : List ManifestEntry → String
  | [] => "[]"
  | es => "[\n" ++ String.intercalate ",\n" (es.map entryText) ++ "\n  ]"

/-- The manifest as an indented JSON document. -/
def text (m : Manifest) : String :=
  "\x7b\n" ++
    String.intercalate ",\n"
      [member 1 "chunk_size" (toString m.chunkSize),
        member 1 "payload_len" (toString m.payloadLength),
        member 1 "root" (quoted m.root), member 1 "chunks" (entriesText m.chunks)] ++
    "\n\x7d"

end Manifest
end Courier
