import Courier.Bytes

/-!
# UTF-8

Strict decoding of UTF-8: overlong forms, surrogates and values past the last
code point are refused.  A fault names the first byte of the offending sequence
and how many of its bytes could still belong to a character.
-/

namespace Courier
namespace Utf8

/-- Why bytes are not UTF-8. -/
inductive Fault
  | malformed (length index : Nat)
  | truncated (index : Nat)
  deriving DecidableEq, Repr

def Fault.message : Fault → String
  | .malformed length index =>
      s!"invalid utf-8 sequence of {length} bytes from index {index}"
  | .truncated index =>
      s!"incomplete utf-8 byte sequence from index {index}"

/-- A byte that continues a sequence. -/
def isTail (b : UInt8) : Bool :=
  0x80 ≤ b && b ≤ 0xbf

/-- The second byte of a three-byte sequence that starts with `b`. -/
def isSecondOfThree (b c : UInt8) : Bool :=
  isTail c && (b != 0xe0 || 0xa0 ≤ c) && (b != 0xed || c ≤ 0x9f)

/-- The second byte of a four-byte sequence that starts with `b`. -/
def isSecondOfFour (b c : UInt8) : Bool :=
  isTail c && (b != 0xf0 || 0x90 ≤ c) && (b != 0xf4 || c ≤ 0x8f)

/-- The six value bits of a continuing byte. -/
def tailBits (b : UInt8) : Nat :=
  b.toNat % 64

/-- Decodes bytes of which the first has the given index. -/
def decodeFrom (index : Nat) : Bytes → Except Fault (List Char)
  | [] => .ok []
  | a :: rest =>
      if a < 0x80 then
        (decodeFrom (index + 1) rest).map (Char.ofNat a.toNat :: ·)
      else if 0xc2 ≤ a && a ≤ 0xdf then
        match rest with
        | [] => .error (.truncated index)
        | b :: rest =>
            if isTail b then
              (decodeFrom (index + 2) rest).map
                (Char.ofNat (a.toNat % 32 * 64 + tailBits b) :: ·)
            else .error (.malformed 1 index)
      else if 0xe0 ≤ a && a ≤ 0xef then
        match rest with
        | [] => .error (.truncated index)
        | [b] =>
            if isSecondOfThree a b then .error (.truncated index)
            else .error (.malformed 1 index)
        | b :: c :: rest =>
            if !isSecondOfThree a b then .error (.malformed 1 index)
            else if !isTail c then .error (.malformed 2 index)
            else
              (decodeFrom (index + 3) rest).map
                (Char.ofNat
                  ((a.toNat % 16 * 64 + tailBits b) * 64 + tailBits c) :: ·)
      else if 0xf0 ≤ a && a ≤ 0xf4 then
        match rest with
        | [] => .error (.truncated index)
        | [b] =>
            if isSecondOfFour a b then .error (.truncated index)
            else .error (.malformed 1 index)
        | [b, c] =>
            if !isSecondOfFour a b then .error (.malformed 1 index)
            else if isTail c then .error (.truncated index)
            else .error (.malformed 2 index)
        | b :: c :: d :: rest =>
            if !isSecondOfFour a b then .error (.malformed 1 index)
            else if !isTail c then .error (.malformed 2 index)
            else if !isTail d then .error (.malformed 3 index)
            else
              (decodeFrom (index + 4) rest).map
                (Char.ofNat
                  (((a.toNat % 8 * 64 + tailBits b) * 64 + tailBits c) * 64 +
                    tailBits d) :: ·)
      else .error (.malformed 1 index)

def decode (b : Bytes) : Except Fault String :=
  (decodeFrom 0 b).map String.ofList

def encode (s : String) : Bytes :=
  s.toUTF8.toList

end Utf8
end Courier
