import Courier.Failure

/-!
# Messages of a block transfer

Each body is a tag and what belongs to the tag.  The host and the peer have
vocabularies of their own.

* `HostMessage.encode`, `HostMessage.decode`: the host's messages.  Bytes after a
  tag that carries nothing are ignored.
* `PeerMessage.encode`, `PeerMessage.decode`: the peer's messages.
-/

namespace Courier

/-- What the host says. -/
inductive HostMessage
  | start (roots : List Hash)
  | chunkFound (chunk : Bytes)
  | chunkNotFound
  | putChunkAck
  | accumulateAck
  deriving DecidableEq

/-- What the peer says. -/
inductive PeerMessage
  | accumulate (fragment : Bytes)
  | final (fragment : Bytes)
  | getChunk (hash : Hash)
  | putChunk (chunk : Bytes)
  deriving DecidableEq

/-- The hashes that stand one after another in a byte string, if their number is
whole. -/
def Hash.listOfBytes? : List Bytes → Option (List Hash)
  | [] => some []
  | b :: rest =>
      match Hash.ofBytes? b, Hash.listOfBytes? rest with
      | some h, some hs => some (h :: hs)
      | _, _ => none

namespace HostMessage

def tag : HostMessage → UInt8
  | .start _ => 0
  | .chunkFound _ => 1
  | .chunkNotFound => 2
  | .putChunkAck => 3
  | .accumulateAck => 4

/-- The bytes after the tag. -/
def content : HostMessage → Bytes
  | .start roots => (roots.map Hash.bytes).flatten
  | .chunkFound chunk => chunk
  | _ => []

def encode (m : HostMessage) : Bytes :=
  m.tag :: m.content

def decode : Bytes → Except Failure HostMessage
  | [] => .error (.protocol .emptyHostMessage)
  | tag :: rest =>
      if tag = 0 then
        match Hash.listOfBytes? (Bytes.slices Hash.size rest) with
        | some roots => .ok (.start roots)
        | none => .error (.protocol (.raggedRoots rest.length))
      else if tag = 1 then .ok (.chunkFound rest)
      else if tag = 2 then .ok .chunkNotFound
      else if tag = 3 then .ok .putChunkAck
      else if tag = 4 then .ok .accumulateAck
      else .error (.protocol (.unknownHostTag tag))

end HostMessage

namespace PeerMessage

def tag : PeerMessage → UInt8
  | .accumulate _ => 0
  | .final _ => 1
  | .getChunk _ => 2
  | .putChunk _ => 3

/-- The bytes after the tag. -/
def content : PeerMessage → Bytes
  | .accumulate fragment => fragment
  | .final fragment => fragment
  | .getChunk hash => hash.bytes
  | .putChunk chunk => chunk

def encode (m : PeerMessage) : Bytes :=
  m.tag :: m.content

def decode : Bytes → Except Failure PeerMessage
  | [] => .error (.protocol .emptyPeerMessage)
  | tag :: rest =>
      if tag = 0 then .ok (.accumulate rest)
      else if tag = 1 then .ok (.final rest)
      else if tag = 2 then
        match Hash.ofBytes? rest with
        | some hash => .ok (.getChunk hash)
        | none => .error (.protocol (.hashLength rest.length))
      else if tag = 3 then .ok (.putChunk rest)
      else .error (.protocol (.unknownPeerTag tag))

end PeerMessage
end Courier
