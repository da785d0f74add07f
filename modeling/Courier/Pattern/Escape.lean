import Courier.Pattern.Mode
import Courier.Text.Hex

/-!
# Escapes

What can follow a backslash in a pattern.

* `Escape.parse?` reads an escape.
-/

namespace Courier

/-- What a backslash and the signs behind it stand for. -/
inductive Escape
  | char (c : Char) (isByte : Bool)
  | set (s : CharSet) (negated : Bool)
  | anchor (a : Anchor)
  deriving DecidableEq, Repr

namespace Escape

/-- The value of a digit in base 16. -/
def hexDigit? (c : Char) : Option Nat :=
  if c.toNat ≤ 0x7f then (Hex.value? (UInt8.ofNat c.toNat)).map UInt8.toNat else none

def hexValue (digits : List Char) : Nat :=
  digits.foldl (fun n c => 16 * n + (hexDigit? c).getD 0) 0

/-- The character with a number, if there is one. -/
def charOf? (n : Nat) : Option Char :=
  if n < 0xd800 ∨ 0xdfff < n ∧ n < 0x110000 then some (Char.ofNat n) else none

/-- Reads the number of a character: so many digits, or any number of them in
braces. -/
def readNumber (m : Mode) (count : Nat) (cs : List Char) :
    Option (Escape × List Char) :=
  let isDigit (c : Char) : Bool := (hexDigit? c).isSome
  match m.skip cs with
  | '{' :: rest =>
      match m.takeWhile isDigit (m.skip rest) with
      | (d :: digits, '}' :: rest) =>
          (charOf? (hexValue (d :: digits))).map fun c => (.char c false, m.skip rest)
      | _ => none
  | cs =>
      let (digits, rest) := m.takeUpTo isDigit count cs
      if digits.length = count then
        (charOf? (hexValue digits)).map fun c => (.char c (count == 2), rest)
      else none

/-- The signs that stand for themselves behind a backslash: all of ASCII but letters,
digits and angle brackets. -/
def isSign (c : Char) : Bool :=
  c.toNat ≤ 0x7f && !c.isAlphanum && c != '<' && c != '>'

/-- The letters that stand for control characters. -/
def controls : List (Char × Char) :=
  [('a', '\x07'), ('f', '\x0c'), ('t', '\t'), ('n', '\n'), ('r', '\r'), ('v', '\x0b')]

/-- The letters that stand for sets; in upper case they stand for what is not in
them. -/
def sets : List (Char × CharSet) :=
  [('d', CharSet.digits), ('s', CharSet.blanks), ('w', CharSet.wordChars)]

def edges : List (String × Edge) :=
  [("start", .start), ("end", .stop), ("start-half", .startHalf),
    ("end-half", .stopHalf)]

/-- Reads the edge of a word behind its letter.  It may have a name in braces; where
digits stand in them, they count a repetition. -/
def readEdge (m : Mode) (cs : List Char) : Option (Escape × List Char) :=
  let isNameChar (c : Char) : Bool := c.isAlpha || c == '-'
  match cs with
  | '{' :: rest =>
      match m.skip rest with
      | [] => none
      | c :: name =>
          if isNameChar c then
            match m.takeWhile isNameChar (c :: name) with
            | (name, '}' :: rest) =>
                (edges.lookup (String.ofList name)).map fun e =>
                  (.anchor (m.edge e), rest)
            | _ => none
          else some (.anchor (m.edge .boundary), cs)
  | _ => some (.anchor (m.edge .boundary), cs)

/-- Reads what follows a backslash. -/
def parse? (m : Mode) : List Char → Option (Escape × List Char)
  | [] => none
  | c :: rest =>
      if isSign c then some (.char c false, rest)
      else
        match controls.lookup c, sets.lookup c.toLower with
        | some control, _ => some (.char control false, rest)
        | none, some s => some (.set s c.isUpper, rest)
        | none, none =>
            match c with
            | 'x' => readNumber m 2 rest
            | 'u' => readNumber m 4 rest
            | 'U' => readNumber m 8 rest
            | 'A' => some (.anchor .textStart, rest)
            | 'z' => some (.anchor .textEnd, rest)
            | 'b' => readEdge m rest
            | 'B' => some (.anchor (m.edge .inside), rest)
            | '<' => some (.anchor (m.edge .start), rest)
            | '>' => some (.anchor (m.edge .stop), rest)
            | _ => none

end Escape
end Courier
