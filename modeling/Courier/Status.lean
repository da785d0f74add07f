import Courier.Text.Hex

/-!
# Status words

The two-byte status that closes every response of a device.  A word is known by
its code; the table gives the names of the codes in use.
-/

namespace Courier

/-- A status word. -/
structure Status where
  code : UInt16
  deriving DecidableEq, Repr

namespace Status

def ok : Status := ⟨0x9000⟩
def deny : Status := ⟨0x6985⟩
def wrongP1P2 : Status := ⟨0x6a86⟩
def insNotSupported : Status := ⟨0x6d00⟩
def claNotSupported : Status := ⟨0x6e00⟩
def wrongApduLength : Status := ⟨0x6e03⟩
def swapTxParamMismatch : Status := ⟨0x6e05⟩
def wrongResponseLength : Status := ⟨0xb000⟩
def displayBip32PathFail : Status := ⟨0xb001⟩
def displayAddressFail : Status := ⟨0xb002⟩
def displayAmountFail : Status := ⟨0xb003⟩
def wrongTxLength : Status := ⟨0xb004⟩
def txParsingFail : Status := ⟨0xb005⟩
def txHashFail : Status := ⟨0xb006⟩
def badState : Status := ⟨0xb007⟩
def signatureFail : Status := ⟨0xb008⟩

/-- The names of the known status words. -/
def names : List (Status × String) :=
  [(ok, "Ok"), (deny, "Deny"), (wrongP1P2, "WrongP1P2"),
    (insNotSupported, "InsNotSupported"), (claNotSupported, "ClaNotSupported"),
    (wrongApduLength, "WrongApduLength"),
    (swapTxParamMismatch, "SwapTxParamMismatch"),
    (wrongResponseLength, "WrongResponseLength"),
    (displayBip32PathFail, "DisplayBip32PathFail"),
    (displayAddressFail, "DisplayAddressFail"),
    (displayAmountFail, "DisplayAmountFail"), (wrongTxLength, "WrongTxLength"),
    (txParsingFail, "TxParsingFail"), (txHashFail, "TxHashFail"),
    (badState, "BadState"), (signatureFail, "SignatureFail")]

def name? (s : Status) : Option String :=
  names.lookup s

def text (s : Status) : String :=
  match s.name? with
  | some name => name ++ " (" ++ Hex.number 4 s.code.toNat ++ ")"
  | none => "unknown status " ++ Hex.number 4 s.code.toNat

def bytes (s : Status) : Bytes :=
  Bytes.ofNatBE 2 s.code.toNat

def ofNat (n : Nat) : Status :=
  ⟨UInt16.ofNat n⟩

end Status
end Courier
