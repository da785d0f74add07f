import Courier.Text.Hex

/-!
# Socket addresses

Addresses of version 4 and 6 with a port, such as `127.0.0.1:9999` and
`[::1]:9999`.

* `SocketAddress.parse` reads an address: host names, blanks and missing ports are
  refused, and so are leading zeros in the parts of a version 4 address.
* `SocketAddress.text` writes it, with the longest run of zero groups left out.
-/

namespace Courier

/-- An address of version 4, or of version 6 in eight groups with a scope. -/
inductive SocketAddress
  | v4 (octets : List Nat) (port : Nat)
  | v6 (groups : List Nat) (scope port : Nat)
  deriving DecidableEq, Repr

namespace SocketAddress

/-- The value of a digit in a base of at most sixteen. -/
def digit? (base : Nat) (c : Char) : Option Nat :=
  let v :=
    if '0' ≤ c ∧ c ≤ '9' then c.toNat - 48
    else if 'a' ≤ c ∧ c ≤ 'f' then c.toNat - 87
    else if 'A' ≤ c ∧ c ≤ 'F' then c.toNat - 55
    else base
  if v < base then some v else none

/-- The form of a number: its base, its bound, how many digits it may have and
whether a zero may lead. -/
structure NumberForm where
  base : Nat
  bound : Nat
  maxDigits : Option Nat
  leadingZero : Bool

def octet : NumberForm := ⟨10, 256, some 3, false⟩
def group : NumberForm := ⟨16, 65536, some 4, true⟩
def portNumber : NumberForm := ⟨10, 65536, none, true⟩
def scopeNumber : NumberForm := ⟨10, 0x100000000, none, true⟩

/-- Reads a number with all digits that stand in a row. -/
def number (form : NumberForm) (cs : List Char) : Option (Nat × List Char) :=
  let (digits, rest) := cs.span fun c => (digit? form.base c).isSome
  let v := digits.foldl (fun v c => form.base * v + (digit? form.base c).getD 0) 0
  if digits.isEmpty || (form.maxDigits.any (· < digits.length)) then none
  else if !form.leadingZero && digits.head? == some '0' && digits.length != 1 then
    none
  else if v < form.bound then some (v, rest)
  else none

def mark (c : Char) : List Char → Option (List Char)
  | d :: rest => if d = c then some rest else none
  | [] => none

/-- Reads the four parts of a version 4 address. -/
def octets (cs : List Char) : Option (List Nat × List Char) := do
  let (a, cs) ← number octet cs
  let (b, cs) ← number octet (← mark '.' cs)
  let (c, cs) ← number octet (← mark '.' cs)
  let (d, cs) ← number octet (← mark '.' cs)
  some ([a, b, c, d], cs)

/-- The characters from which part `i` of a list with separators is read. -/
def separated (i : Nat) (cs : List Char) : Option (List Char) :=
  if i = 0 then some cs else mark ':' cs

/-- Reads at most `left` groups, of which `i` were read before; a version 4 address
may take the place of the last two.  The flag says whether one did. -/
def groups (i : Nat) : Nat → List Char → List Nat × Bool × List Char
  | 0, cs => ([], false, cs)
  | left + 1, cs =>
      match if left = 0 then none else (separated i cs).bind octets with
      | some ([a, b, c, d], rest) => ([256 * a + b, 256 * c + d], true, rest)
      | _ =>
          match (separated i cs).bind (number group) with
          | none => ([], false, cs)
          | some (g, rest) =>
              let (gs, embedded, rest) := groups (i + 1) left rest
              (g :: gs, embedded, rest)

/-- Reads the eight groups of a version 6 address; two colons stand for one or more
groups of zero. -/
def allGroups (cs : List Char) : Option (List Nat × List Char) :=
  let (head, embedded, rest) := groups 0 8 cs
  if head.length = 8 then some (head, rest)
  else if embedded then none
  else
    match (mark ':' rest).bind (mark ':') with
    | none => none
    | some rest =>
        let (tail, _, rest) := groups 0 (7 - head.length) rest
        some (head ++ List.replicate (8 - head.length - tail.length) 0 ++ tail, rest)

/-- Reads a port behind its colon. -/
def portOf (cs : List Char) : Option (Nat × List Char) :=
  (mark ':' cs).bind (number portNumber)

/-- Reads a scope behind its percent sign; without one it is zero. -/
def scopeOf (cs : List Char) : Nat × List Char :=
  ((mark '%' cs).bind (number scopeNumber)).getD (0, cs)

def parse4 (cs : List Char) : Option (SocketAddress × List Char) := do
  let (octets, cs) ← octets cs
  let (port, cs) ← portOf cs
  some (.v4 octets port, cs)

def parse6 (cs : List Char) : Option (SocketAddress × List Char) := do
  let cs ← mark '[' cs
  let (groups, cs) ← allGroups cs
  let (scope, cs) := scopeOf cs
  let cs ← mark ']' cs
  let (port, cs) ← portOf cs
  some (.v6 groups scope port, cs)

def parse (text : String) : Option SocketAddress :=
  match (parse4 text.toList).or (parse6 text.toList) with
  | some (address, []) => some address
  | _ => none

/-- The text of an address of version 4. -/
def text4 (octets : List Nat) : String :=
  String.intercalate "." (octets.map toString)

/-- The text of groups, with colons between them. -/
def textGroups (gs : List Nat) : String :=
  String.intercalate ":" (gs.map CharLiteral.hexDigits)

/-- The start and the length of the first longest run of zeros; `i` groups stand
before these, and the last `run` of them are zero. -/
def longestRun (i run : Nat) (best : Nat × Nat) : List Nat → Nat × Nat
  | [] => best
  | g :: gs =>
      if g = 0 then
        longestRun (i + 1) (run + 1)
          (if best.2 < run + 1 then (i - run, run + 1) else best) gs
      else longestRun (i + 1) 0 best gs

/-- The text of an address of version 6. -/
def text6 : List Nat → String
  | [0, 0, 0, 0, 0, 0xffff, a, b] =>
      "::ffff:" ++ text4 [a / 256, a % 256, b / 256, b % 256]
  | gs =>
      let (start, length) := longestRun 0 0 (0, 0) gs
      if 1 < length then
        textGroups (gs.take start) ++ "::" ++ textGroups (gs.drop (start + length))
      else textGroups gs

def text : SocketAddress → String
  | .v4 octets port => text4 octets ++ ":" ++ toString port
  | .v6 groups scope port =>
      "[" ++ text6 groups ++ (if scope = 0 then "" else "%" ++ toString scope) ++
        "]:" ++ toString port

end SocketAddress
end Courier
