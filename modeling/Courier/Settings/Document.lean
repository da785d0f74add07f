import Courier.Settings
import Courier.Toml.Document

/-!
# Settings files

Settings written as a TOML document.  A key that is missing keeps its standard
value and an unknown key is ignored; a known key has to hold a value of its type.

How the text of a document becomes a table is a parameter of `Settings.ofFileWith`, as
nothing else about settings depends on it; `Settings.ofFile` reads with
`Toml.Document.parse`.
-/

namespace Courier
namespace Settings

/-- The text under a key, or the value it has without one. -/
def textAt (es : Toml.Entries) (key standard : String) : Option String :=
  match es.lookup key with
  | none => some standard
  | some (.text s) => some s
  | some _ => none

/-- The number under a key, or the value it has without one. -/
def numberAt (es : Toml.Entries) (key : String) (standard : Nat) : Option Nat :=
  match es.lookup key with
  | none => some standard
  | some (.integer n) => if 0 ≤ n then some n.toNat else none
  | some _ => none

/-- The truth value under a key, or the value it has without one. -/
def flagAt (es : Toml.Entries) (key : String) (standard : Bool) : Option Bool :=
  match es.lookup key with
  | none => some standard
  | some (.boolean b) => some b
  | some _ => none

/-- The settings in the root table of a document. -/
def ofEntries (es : Toml.Entries) : Option Settings := do
  let address ← textAt es "emulator_addr" standard.address
  let chunkSize ← numberAt es "chunk_size" standard.chunkSize
  let maxFrame ← numberAt es "max_frame_len" standard.maxFrame
  let maxRounds ← numberAt es "max_rounds" standard.maxRounds
  let exchangeTimeout ←
    numberAt es "exchange_timeout_ms" standard.exchangeTimeout
  let operationTimeout ←
    numberAt es "operation_timeout_ms" standard.operationTimeout
  let useBlocks ← flagAt es "use_block_protocol" standard.useBlocks
  some ⟨address, chunkSize, maxFrame, maxRounds, exchangeTimeout,
    operationTimeout, useBlocks⟩

section Reading

variable (parse : String → Option Toml.Entries)

/-- The settings in the text of a document, before they are validated. -/
def ofDocument (text : String) : Option Settings :=
  (parse text).bind ofEntries

/-- The settings in a file with the given content, as `parse` reads it. -/
def ofFileWith (path : String) (content : Except SystemFault Bytes) :
    Except Failure Settings :=
  match content with
  | .error why => .error (.config (.unreadable path (.system why)))
  | .ok bytes =>
      match Utf8.decode bytes with
      | .error _ => .error (.config (.unreadable path .notText))
      | .ok text =>
          match ofDocument parse text with
          | none => .error (.config .malformedDocument)
          | some settings =>
              match settings.validate with
              | .error e => .error e
              | .ok _ => .ok settings

end Reading

/-- The settings in a file with the given content. -/
def ofFile (path : String) (content : Except SystemFault Bytes) :
    Except Failure Settings :=
  ofFileWith Toml.Document.parse path content

end Settings
end Courier
