import Courier.Frame

/-!
# Instructions of the signing application

The four instructions, their codes and their command headers.
-/

namespace Courier

/-- What the host can ask of the signing application. -/
inductive Instruction
  | getVersion
  | verifyAddress
  | getPublicKey
  | signTx
  deriving DecidableEq, Repr

namespace Instruction

def code : Instruction → UInt8
  | .getVersion => 0
  | .verifyAddress => 1
  | .getPublicKey => 2
  | .signTx => 3

def name : Instruction → String
  | .getVersion => "GetVersion"
  | .verifyAddress => "VerifyAddress"
  | .getPublicKey => "GetPublicKey"
  | .signTx => "SignTx"

def ofCode (c : UInt8) : Except Failure Instruction :=
  if c = 0 then .ok .getVersion
  else if c = 1 then .ok .verifyAddress
  else if c = 2 then .ok .getPublicKey
  else if c = 3 then .ok .signTx
  else .error (.protocol (.unknownInstruction c))

def header (i : Instruction) : Header :=
  ⟨0, i.code, 0, 0⟩

@[simp] theorem ofCode_code (i : Instruction) :
    ofCode i.code = .ok i := by
  cases i <;> rfl

end Instruction
end Courier
