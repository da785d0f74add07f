/-!
# Numbers in TOML documents

Integers and floating-point numbers as they may be written.  An underscore may
stand between two digits; a decimal number has no leading zero; an integer fits 64
bits, and a positive floating-point number is finite.
-/

namespace Courier
namespace Toml
namespace Number

/-- Takes a sign off the front; true stands for minus. -/
def splitSign : List Char → Bool × List Char
  | '+' :: cs => (false, cs)
  | '-' :: cs => (true, cs)
  | cs => (false, cs)

/-- The digits without the underscores between them. -/
def joined (isDigit : Char → Bool) : List Char → Option (List Char)
  | [] => none
  | [c] => if isDigit c then some [c] else none
  | c :: '_' :: rest =>
      if isDigit c then (joined isDigit rest).map (c :: ·) else none
  | c :: rest =>
      if isDigit c then (joined isDigit rest).map (c :: ·) else none

/-- Decimal digits without a leading zero. -/
def wholeDigits (cs : List Char) : Option (List Char) :=
  match joined Char.isDigit cs with
  | some ['0'] => some ['0']
  | some ('0' :: _) => none
  | other => other

/-- The value of a digit in a base of at most sixteen. -/
def digitValue (c : Char) : Nat :=
  if c.isDigit then c.toNat - 48
  else if 'a' ≤ c then c.toNat - 87
  else c.toNat - 55

def value (base : Nat) (digits : List Char) : Nat :=
  digits.foldl (fun v c => base * v + digitValue c) 0

def isHexDigit (c : Char) : Bool :=
  c.isDigit || ('a' ≤ c && c ≤ 'f') || ('A' ≤ c && c ≤ 'F')

/-- The integer without regard to its size. -/
def wideInteger? : List Char → Option Int
  | '0' :: 'x' :: cs => (joined isHexDigit cs).map fun ds => (value 16 ds : Int)
  | '0' :: 'o' :: cs =>
      (joined (fun c => '0' ≤ c && c ≤ '7') cs).map fun ds => (value 8 ds : Int)
  | '0' :: 'b' :: cs =>
      (joined (fun c => c == '0' || c == '1') cs).map fun ds => (value 2 ds : Int)
  | cs =>
      let (negative, digits) := splitSign cs
      (wholeDigits digits).map fun ds =>
        if negative then -(value 10 ds : Int) else (value 10 ds : Int)

/-- The integer that a text stands for. -/
def integer? (cs : List Char) : Option Int :=
  match wideInteger? cs with
  | some n => if -0x8000000000000000 ≤ n ∧ n < 0x8000000000000000 then some n else none
  | none => none

/-- Says whether `digits` · 10^`exponent` lies below the bound from which on a
number of 64 bits is infinite, halfway between the largest number and 2^1024. -/
def isFinite (digits : List Char) (exponent : Int) : Bool :=
  let significant := digits.dropWhile (· == '0')
  let places := (significant.length : Int) + exponent
  let bound := (Nat.pow 2 54 - 1) * Nat.pow 2 970
  if significant.isEmpty || places < 300 then true
  else if 320 < places then false
  else if 0 ≤ exponent then
    value 10 significant * Nat.pow 10 exponent.toNat < bound
  else
    value 10 significant < bound * Nat.pow 10 (-exponent).toNat

/-- The exponent behind its letter; no exponent counts as zero. -/
def exponent? : List Char → Option Int
  | [] => some 0
  | _ :: cs =>
      let (negative, digits) := splitSign cs
      (joined Char.isDigit digits).map fun ds =>
        if negative then -(value 10 ds : Int) else (value 10 ds : Int)

/-- The digits behind the point; no point counts as no digits. -/
def fraction? : List Char → Option (List Char)
  | [] => some []
  | _ :: cs => joined Char.isDigit cs

/-- Says whether a text is a floating-point number. -/
def isFloat (cs : List Char) : Bool :=
  let (negative, unsigned) := splitSign cs
  if unsigned == ['i', 'n', 'f'] || unsigned == ['n', 'a', 'n'] then true
  else
    let (mantissa, exponent) := unsigned.span fun c => c != 'e' && c != 'E'
    let (whole, fraction) := mantissa.span (· != '.')
    if fraction.isEmpty && exponent.isEmpty then false
    else
      match wholeDigits whole, fraction? fraction, exponent? exponent with
      | some w, some f, some e =>
          negative || isFinite (w ++ f) (e - f.length)
      | _, _, _ => false

end Number
end Toml
end Courier
