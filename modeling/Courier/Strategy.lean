import Courier.Settings

/-!
# Ways to send payloads

Payloads go to a device either as plain frames, one after another, or through a
block transfer.

* `Frames.cut` lists the plain frames and `Frames.send` sends them.
* `SendMode.ofText` reads the name of a way to send.
* `SendMode.send` sends payloads in the given way under the settings.
-/

namespace Courier

namespace Frames

/-- The frames of payloads sent in the plain way: the payloads run together and
are cut into frames of `size` bytes.  No bytes at all still make one frame. -/
def cut (size : Nat) (payloads : List Bytes) : List Bytes :=
  match Bytes.slices size payloads.flatten with
  | [] => [[]]
  | frames => frames

/-- Sends frames up to the first error; the last response stands for all. -/
def sendAll (header : Header) (last : Bytes) : List Bytes → Dialogue Response
  | [] => .done (.ok last)
  | frame :: rest =>
      .ask ⟨header, frame⟩ fun
        | .error e => .done (.error e)
        | .ok response => sendAll header response rest

/-- Sends payloads in plain frames of `size` bytes. -/
def send (header : Header) (payloads : List Bytes) (size : Nat) :
    Dialogue Response :=
  if size = 0 then .done (.error (.config .noFrameSize))
  else sendAll header [] (cut size payloads)

end Frames

/-- The two ways to send payloads. -/
inductive SendMode
  | simple
  | blocks
  deriving DecidableEq, Repr

namespace SendMode

def name : SendMode → String
  | .simple => "simple"
  | .blocks => "blocks"

/-- The lower-case form of the letters in the names.  The Kelvin sign is a capital
`k`. -/
def lower (c : Char) : Char :=
  if c = '\u212a' then 'k' else c.toLower

/-- Reads the name of a way to send, in either case. -/
def ofText (text : String) : Except String SendMode :=
  let name := String.ofList (text.toList.map lower)
  if name = "simple" ∨ name = "chunks" then .ok .simple
  else if name = "blocks" ∨ name = "block" then .ok .blocks
  else
    .error ("Invalid send mode: " ++ text ++ ". Valid options: simple, blocks")

/-- The way to send that the settings ask for. -/
def ofFlag (useBlocks : Bool) : SendMode :=
  if useBlocks then .blocks else .simple

/-- Sends payloads; each block transfer has a store of its own. -/
def send (mode : SendMode) (settings : Settings) (header : Header)
    (payloads : List Bytes) : Dialogue Response :=
  match mode with
  | .simple => Frames.send header payloads settings.maxFrame
  | .blocks =>
      match Transfer.ofPayloads header payloads settings.chunkSize
          settings.limits with
      | .error e => .done (.error e)
      | .ok transfer => transfer.run

end SendMode
end Courier
