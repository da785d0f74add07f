import Courier.Transfer

/-!
# Settings

The adjustable values of the host.  `Settings.validate` says whether they can be
used: a linked chunk with its tag has to fit one frame, frames have to hold
something, and the budgets have to allow something.

The length of a body with a linked chunk is added up in a machine word, without a look
at the carry.  So a slice size just below the end of the word passes for a small one,
although no frame holds such a chunk: `Settings.chunkBody_of_lt` is about all other
sizes.
-/

namespace Courier

/-- The adjustable values of the host; times are in milliseconds. -/
structure Settings where
  address : String := "127.0.0.1:9999"
  chunkSize : Nat := Chain.standardSize
  maxFrame : Nat := Frame.maxBody
  maxRounds : Nat := Limits.standard.maxRounds
  exchangeTimeout : Nat := 30000
  operationTimeout : Nat := Limits.standard.timeout
  useBlocks : Bool := false
  deriving DecidableEq, Repr

namespace Settings

def standard : Settings := {}

/-- The budgets of a transfer under the settings. -/
def limits (s : Settings) : Limits :=
  ⟨s.maxRounds, s.operationTimeout⟩

/-- The length of a body with a linked chunk, that is the link, a slice of full size and
the tag, added up in a machine word. -/
def chunkBody (s : Settings) : Nat :=
  (Hash.size + s.chunkSize + 1) % Decimal.longBound

/-- The sum is the length as long as it fits the word. -/
theorem chunkBody_of_lt {s : Settings} (h : Hash.size + s.chunkSize + 1 < Decimal.longBound) :
    s.chunkBody = Hash.size + s.chunkSize + 1 :=
  Nat.mod_eq_of_lt h

/-- The first offence of the settings, if there is one. -/
def fault? (s : Settings) : Option ConfigFault :=
  if s.chunkSize = 0 ∨ Frame.maxBody < s.chunkBody then
    some (.chunkSize s.chunkSize)
  else if s.maxFrame = 0 ∨ Frame.maxBody < s.maxFrame then
    some (.frameLength s.maxFrame)
  else if s.maxRounds = 0 then some .noRounds
  else if s.exchangeTimeout = 0 ∨ s.operationTimeout = 0 then some .noTime
  else none

/-- Refuses settings that cannot be used. -/
def validate (s : Settings) : Except Failure Unit :=
  match s.fault? with
  | some why => .error (.config why)
  | none => .ok ()

end Settings
end Courier
