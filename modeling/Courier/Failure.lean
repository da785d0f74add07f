import Courier.Hash
import Courier.Status
import Courier.Text.Decimal
import Courier.Text.Duration
import Courier.Text.Utf8
import Courier.Transfer.Stage

/-!
# Failures

What can go wrong on the host's side.  A failure tells a broken link from a
broken peer from a peer that refuses, and under each kind the causes are listed;
`Failure.message` holds all of the wording.  Each kind of cause has a case
`reported` for a text that comes from outside, such as a device of the caller's
own.
-/

namespace Courier

/-- An error of the operating system: its text and its number. -/
structure SystemFault where
  text : String
  code : Nat
  deriving DecidableEq, Repr

namespace SystemFault

def message (f : SystemFault) : String :=
  f.text ++ " (os error " ++ toString f.code ++ ")"

def noSuchFile : SystemFault := ⟨"No such file or directory", 2⟩
def notADirectory : SystemFault := ⟨"Not a directory", 20⟩
def isADirectory : SystemFault := ⟨"Is a directory", 21⟩
def invalidArgument : SystemFault := ⟨"Invalid argument", 22⟩
def nameTooLong : SystemFault := ⟨"File name too long", 36⟩
def addressNotAvailable : SystemFault := ⟨"Cannot assign requested address", 99⟩
def networkUnreachable : SystemFault := ⟨"Network is unreachable", 101⟩

end SystemFault

/-- Faults of the channel to the device. -/
inductive TransportFault
  | noStatus (length : Nat)
  | frameLength (announced : Nat)
  | connect (address : String) (why : SystemFault)
  | send (address : String) (why : SystemFault)
  | receive (address : String) (why : SystemFault)
  | closed (address : String)
  | scriptExhausted
  | reported (text : String)
  deriving DecidableEq, Repr

def TransportFault.message : TransportFault → String
  | .noStatus length => s!"response of {length} bytes has no status word"
  | .frameLength announced =>
      s!"response length {announced} is not a valid frame"
  | .connect address why => "Failed to connect to " ++ address ++ ": " ++ why.message
  | .send address why => "Failed to send to " ++ address ++ ": " ++ why.message
  | .receive address why => "Failed to read from " ++ address ++ ": " ++ why.message
  | .closed address => address ++ " closed the connection"
  | .scriptExhausted => "scripted peer has no queued responses"
  | .reported text => text

/-- Bytes or moves that the protocol does not allow. -/
inductive ProtocolFault
  | shortField (size left : Nat)
  | missingLength
  | hashLength (length : Nat)
  | shortChunk (length : Nat)
  | missingChunk (hash : Hash)
  | lostChunk (hash : Hash)
  | endlessLinks (hash : Hash)
  | emptyHostMessage
  | raggedRoots (length : Nat)
  | unknownHostTag (tag : UInt8)
  | emptyPeerMessage
  | unknownPeerTag (tag : UInt8)
  | startedIn (stage : Stage)
  | responseIn (stage : Stage)
  | unknownInstruction (code : UInt8)
  | shortVersion (length : Nat)
  | nameNotText (why : Utf8.Fault)
  | nameNotAscii
  | trailingKeyBytes (length : Nat)
  | reported (text : String)
  deriving DecidableEq

def ProtocolFault.message : ProtocolFault → String
  | .shortField size left => s!"expected {size} bytes, only {left} left"
  | .missingLength => "missing length prefix"
  | .hashLength length => s!"chunk hash must be 32 bytes, got {length}"
  | .shortChunk length =>
      s!"linked chunk of {length} bytes is shorter than its link"
  | .missingChunk hash => "chunk " ++ hash.toHex ++ " missing from store"
  | .lostChunk hash => "chunk " ++ hash.toHex ++ " missing after linking"
  | .endlessLinks hash => "links from chunk " ++ hash.toHex ++ " never end"
  | .emptyHostMessage => "empty host message"
  | .raggedRoots length =>
      s!"START carries {length} bytes, not a whole number of hashes"
  | .unknownHostTag tag => "unknown host tag " ++ toString tag.toNat
  | .emptyPeerMessage => "empty response from peer"
  | .unknownPeerTag tag =>
      "unknown instruction " ++ toString tag.toNat ++ " returned from peer"
  | .startedIn stage => "cannot start an operation in state " ++ stage.name
  | .responseIn stage => "response arrived in state " ++ stage.name
  | .unknownInstruction code => "unknown instruction " ++ Hex.number 2 code.toNat
  | .shortVersion length => s!"version response too short: {length} bytes"
  | .nameNotText why => "application name is not text: " ++ why.message
  | .nameNotAscii => "application name is not ASCII"
  | .trailingKeyBytes length =>
      s!"{length} trailing bytes after public key response"
  | .reported text => text

/-- Time spans that ran out. -/
inductive TimeFault
  | transfer (budget rounds : Nat)
  | silence (address : String)
  | reported (text : String)
  deriving DecidableEq, Repr

/-- The wording of a time fault; a budget is in milliseconds. -/
def TimeFault.message : TimeFault → String
  | .transfer budget rounds =>
      "block transfer exceeded " ++ Duration.text budget ++ " after " ++
        toString rounds ++ " rounds"
  | .silence address => "no response from " ++ address ++ " within the round timeout"
  | .reported text => text

/-- Values that have no encoding. -/
inductive EncodingFault
  | tooManyRoots (count : Nat)
  | replyTooLong (length : Nat)
  | bodyTooLong (length : Nat)
  | transactionTooLong (length : Nat)
  | hex (why : Hex.Fault)
  | reported (text : String)
  deriving DecidableEq, Repr

def EncodingFault.message : EncodingFault → String
  | .tooManyRoots count => s!"{count} root hashes do not fit in one frame"
  | .replyTooLong length => s!"reply of {length} bytes does not fit in one frame"
  | .bodyTooLong length => s!"frame body of {length} bytes exceeds 255"
  | .transactionTooLong length => s!"transaction of {length} bytes is too large"
  | .hex why => "invalid hex: " ++ why.message
  | .reported text => text

/-- Why a text is no derivation path. -/
inductive PathFault
  | noMaster (path : String)
  | emptyComponent (path : String)
  | badIndex (path component : String) (why : Decimal.Fault)
  | indexTooLarge (path : String) (index : Nat)
  | tooDeep (path : String) (depth : Nat)
  | reported (text : String)
  deriving DecidableEq, Repr

def PathFault.message : PathFault → String
  | .noMaster path => path ++ ": master key \x60m\x60 expected"
  | .emptyComponent path => path ++ ": empty component"
  | .badIndex path component why =>
      path ++ ": \x60" ++ component ++ "\x60 " ++ why.message
  | .indexTooLarge path index =>
      path ++ ": index " ++ toString index ++ " out of range"
  | .tooDeep path depth =>
      path ++ ": " ++ toString depth ++ " components, at most 10 allowed"
  | .reported text => text

/-- Why a file cannot be read as text. -/
inductive FileFault
  | system (why : SystemFault)
  | notText
  deriving DecidableEq, Repr

def FileFault.message : FileFault → String
  | .system why => why.message
  | .notText => "stream did not contain valid UTF-8"

/-- Settings and arguments out of their range. -/
inductive ConfigFault
  | noChunkSize
  | noFrameSize
  | chunkSize (given : Nat)
  | frameLength (given : Nat)
  | noRounds
  | noTime
  | unreadable (path : String) (why : FileFault)
  | malformedDocument
  | variable (name value : String) (why : Decimal.Fault)
  | badAddress (text : String)
  | noTransaction
  | noPayload
  | reported (text : String)
  deriving DecidableEq, Repr

def ConfigFault.message : ConfigFault → String
  | .noChunkSize => "chunk size must be positive"
  | .noFrameSize => "frame size must be positive"
  | .chunkSize given => s!"chunk_size must be between 1 and 222, got {given}"
  | .frameLength given => s!"max_frame_len must be between 1 and 255, got {given}"
  | .noRounds => "max_rounds must be positive"
  | .noTime => "timeouts must be positive"
  | .unreadable path why => "Failed to read " ++ path ++ ": " ++ why.message
  | .malformedDocument => "malformed settings document"
  | .variable name value why => name ++ "=" ++ value ++ ": " ++ why.message
  | .badAddress text =>
      "Invalid address " ++ text ++ ": invalid socket address syntax"
  | .noTransaction => "one of --tx-hex or --tx-file is required"
  | .noPayload => "one of --hex or --file is required"
  | .reported text => text

/-- Files that cannot be read. -/
inductive InputFault
  | system (why : SystemFault)
  | reported (text : String)
  deriving DecidableEq, Repr

def InputFault.message : InputFault → String
  | .system why => why.message
  | .reported text => text

/-- A failure of an operation on the host's side. -/
inductive Failure
  | transport (why : TransportFault)
  | protocol (why : ProtocolFault)
  | peer (status : Status) (data : Bytes)
  | chunkNotFound (hash : String) (status : Status) (data : Bytes)
  | timeout (why : TimeFault)
  | roundLimit (rounds : Nat)
  | encoding (why : EncodingFault)
  | invalidPath (why : PathFault)
  | config (why : ConfigFault)
  | input (why : InputFault)
  deriving DecidableEq

namespace Failure

/-- Response data at the end of a message, if there is any. -/
def dataNote (data : Bytes) : String :=
  if data.isEmpty then "" else " (" ++ Hex.encode data ++ ")"

def message : Failure → String
  | .transport why => "Transport error: " ++ why.message
  | .protocol why => "Protocol violation: " ++ why.message
  | .peer status data => "Peer reported " ++ status.text ++ dataNote data
  | .chunkNotFound hash status data =>
      "Peer failed with " ++ status.text ++ " after chunk " ++ hash ++
        " was not found" ++ dataNote data
  | .timeout why => "Timed out: " ++ why.message
  | .roundLimit rounds => s!"Peer did not finish within {rounds} rounds"
  | .encoding why => "Encoding error: " ++ why.message
  | .invalidPath why => "Invalid derivation path: " ++ why.message
  | .config why => "Configuration error: " ++ why.message
  | .input why => "I/O error: " ++ why.message

/-- True for failures of the channel. -/
def isTransport : Failure → Bool
  | .transport _ => true
  | _ => false

/-- True when the peer broke the protocol. -/
def isProtocol : Failure → Bool
  | .protocol _ => true
  | _ => false

/-- The status word that the peer reported, if the failure carries one. -/
def status? : Failure → Option Status
  | .peer status _ => some status
  | .chunkNotFound _ status _ => some status
  | _ => none

/-- A refusal by the device with nothing but a status word. -/
def refusal (status : Status) : Failure :=
  .peer status []

end Failure
end Courier
