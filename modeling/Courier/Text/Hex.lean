import Courier.Bytes
import Courier.Text.CharLiteral

/-!
# Hexadecimal text

Two digits per byte, written in lower case and read in either case.

* `Hex.encode` writes, `Hex.decode` reads and says what is wrong otherwise.
* `Hex.decodeLower?` reads lower case only: it takes exactly what `encode` writes.
-/

namespace Courier
namespace Hex

/-- Why a text is not hexadecimal. -/
inductive Fault
  | oddLength
  | badCharacter (byte : UInt8) (position : Nat)
  deriving DecidableEq, Repr

/-- The wording of a fault; an offending byte is shown as the Latin-1 character. -/
def Fault.message : Fault → String
  | .oddLength => "Odd number of digits"
  | .badCharacter byte position =>
      "Invalid character " ++ CharLiteral.quote (Char.ofNat byte.toNat) ++
        " at position " ++ toString position

/-- The digit of a value below sixteen. -/
def digit (n : UInt8) : Char :=
  if n < 10 then Char.ofNat (48 + n.toNat) else Char.ofNat (87 + n.toNat)

/-- The digits of a byte string, two for each byte. -/
def digits : Bytes → List Char
  | [] => []
  | b :: bs => digit (b / 16) :: digit (b % 16) :: digits bs

/-- A byte string in hexadecimal. -/
def encode (b : Bytes) : String :=
  String.ofList (digits b)

/-- A number as `0x` and at least `w` lower-case digits. -/
def number (w n : Nat) : String :=
  let ds := Nat.toDigits 16 n
  "0x" ++ String.ofList (List.replicate (w - ds.length) '0' ++ ds)

/-- The value of a lower-case digit, given by its code. -/
def lowerValue? (c : UInt8) : Option UInt8 :=
  if 48 ≤ c ∧ c ≤ 57 then some (c - 48)
  else if 97 ≤ c ∧ c ≤ 102 then some (c - 87)
  else none

/-- The value of a digit of either case, given by its code. -/
def value? (c : UInt8) : Option UInt8 :=
  if 65 ≤ c ∧ c ≤ 70 then some (c - 55) else lowerValue? c

/-- Reads pairs of digits, the first of them at `position`. -/
def decodeFrom (position : Nat) : Bytes → Except Fault Bytes
  | [] => .ok []
  | [_] => .error .oddLength
  | hi :: lo :: rest =>
      match value? hi with
      | none => .error (.badCharacter hi position)
      | some h =>
          match value? lo with
          | none => .error (.badCharacter lo (position + 1))
          | some l => (decodeFrom (position + 2) rest).map ((h * 16 + l) :: ·)

/-- Reads the codes of hexadecimal digits.  An odd number of codes is refused
before any digit is looked at. -/
def decodeCodes (codes : Bytes) : Except Fault Bytes :=
  if codes.length % 2 = 0 then decodeFrom 0 codes else .error .oddLength

/-- Reads hexadecimal text; positions count its bytes. -/
def decode (s : String) : Except Fault Bytes :=
  decodeCodes s.toUTF8.toList

/-- Reads pairs of lower-case digits. -/
def decodeLower? : Bytes → Option Bytes
  | [] => some []
  | [_] => none
  | hi :: lo :: rest =>
      match lowerValue? hi, lowerValue? lo with
      | some h, some l => (decodeLower? rest).map ((h * 16 + l) :: ·)
      | _, _ => none

@[simp] theorem length_digits (b : Bytes) :
    (digits b).length = 2 * b.length := by
  induction b with
  | nil => rfl
  | cons b bs ih =>
      simp only [digits, List.length_cons, ih]
      omega

end Hex
end Courier
