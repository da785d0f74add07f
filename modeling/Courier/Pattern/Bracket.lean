import Courier.Pattern.Escape

/-!
# Sets in brackets

Sets of characters that are written in brackets: characters, ranges, sets with a name
and other brackets stand next to each other, and `&&`, `--` and `~~` between two such
rows mean what both have, what only the first has, and what only one of them has.

* `Bracket.read` reads a set behind its first bracket.

A set comes with its depth, the number of brackets, rows and operators that stand
inside one another in it.
-/

namespace Courier

/-- A set of characters and the depth of what describes it. -/
structure Bracket where
  set : CharSet
  depth : Nat
  deriving DecidableEq, Repr

/-- An operator between two sets. -/
inductive SetOperator
  | inter
  | diff
  | symmDiff
  deriving DecidableEq, Repr

/-- The set that an operator makes of two. -/
def SetOperator.apply : SetOperator → CharSet → CharSet → CharSet
  | .inter => CharSet.inter
  | .diff => CharSet.diff
  | .symmDiff => CharSet.symmDiff

/-- A set in brackets as far as it is read: whether it is turned round at the end, what
stands before the last operator, and the members behind it. -/
structure OpenBracket where
  negated : Bool
  left : Option (Bracket × SetOperator) := none
  members : List Bracket := []
  deriving DecidableEq, Repr

namespace OpenBracket

def push (o : OpenBracket) (member : Bracket) : OpenBracket :=
  { o with members := member :: o.members }

/-- The members as one set; two or more of them make a row. -/
def row (o : OpenBracket) : Bracket :=
  let set := (o.members.map (·.set)).foldr CharSet.union CharSet.empty
  let depth := (o.members.map (·.depth)).foldr max 0
  ⟨set, if o.members.length ≤ 1 then depth else depth + 1⟩

/-- All that has been read, as one set. -/
def combined (o : OpenBracket) : Bracket :=
  match o.left with
  | none => o.row
  | some (left, op) =>
      ⟨op.apply left.set o.row.set, max left.depth o.row.depth + 1⟩

def behind (o : OpenBracket) (op : SetOperator) : OpenBracket :=
  { o with left := some (o.combined, op), members := [] }

/-- The set when its last bracket is read. -/
def close (o : OpenBracket) (m : Mode) : Option Bracket :=
  (m.turned o.negated o.combined.set).map fun set => ⟨set, o.combined.depth + 1⟩

end OpenBracket

namespace Bracket

/-- The set of a dash at the beginning, and of a bracket there. -/
def sign (m : Mode) (c : Char) : Option Bracket :=
  (m.range c c).map fun set => ⟨set, 0⟩

/-- Takes in the dashes at the beginning of a set. -/
def openDashes (m : Mode) (o : OpenBracket) :
    Nat → List Char → Option (OpenBracket × List Char)
  | n + 1, '-' :: rest => do
      openDashes m (o.push (← sign m '-')) n (m.skip rest)
  | _, [] => none
  | _, cs => some (o, cs)

/-- Reads the beginning of a set behind its first bracket.  A dash there is a member,
and so is a last bracket, for no set is empty. -/
def opening (m : Mode) (cs : List Char) : Option (OpenBracket × List Char) := do
  let (negated, cs) :=
    match m.skip cs with
    | '^' :: rest => (true, m.skip rest)
    | cs => (false, cs)
  let (o, cs) ← openDashes m ⟨negated, none, []⟩ cs.length cs
  match o.members, cs with
  | [], ']' :: rest => some (o.push (← sign m ']'), m.skip rest)
  | _, _ => some (o, cs)

/-- Reads the name of a set between colons, behind a bracket: the set and whether it is
turned round. -/
def named? : List Char → Option ((CharSet × Bool) × List Char)
  | ':' :: cs =>
      let (negated, cs) :=
        match cs with
        | '^' :: rest => (true, rest)
        | _ => (false, cs)
      match cs.span (· != ':') with
      | (name, ':' :: ']' :: rest) =>
          (CharSet.named.lookup (String.ofList name)).map fun set =>
            ((set, negated), rest)
      | _ => none
  | _ => none

/-- Reads a character or an escape. -/
def item (m : Mode) : List Char → Option (Escape × List Char)
  | [] => none
  | '\\' :: rest => Escape.parse? m rest
  | c :: rest => some (.char c false, rest)

/-- Reads a member that is a character, an escape or a range.  A dash makes a range
unless a dash or the last bracket follows it. -/
def member (m : Mode) (cs : List Char) : Option (Bracket × List Char) := do
  let (first, cs) ← item m cs
  let alone (cs : List Char) : Option (Bracket × List Char) := do
    let set ←
      match first with
      | .char c _ => m.range c c
      | .set s negated => m.lettered negated s
      | .anchor _ => none
    some (⟨set, 0⟩, cs)
  match m.skip cs with
  | '-' :: rest =>
      if m.peek rest = some ']' ∨ m.peek rest = some '-' then alone ('-' :: rest)
      else do
        let (last, cs) ← item m (m.skip rest)
        match first, last with
        | .char a _, .char b _ => some (⟨← m.range a b, 0⟩, cs)
        | _, _ => none
  | cs => alone cs

/-- Reads a set to its end, in at most `fuel` steps. -/
def readFrom (m : Mode) :
    Nat → OpenBracket → List Char → Option (Bracket × List Char)
  | 0, _, _ => none
  | fuel + 1, o, cs =>
      match m.skip cs with
      | [] => none
      | ']' :: rest => (o.close m).map fun b => (b, rest)
      | '[' :: rest =>
          match named? rest with
          | some ((set, negated), rest) => do
              let set ← m.named negated set
              readFrom m fuel (o.push ⟨set, 0⟩) rest
          | none => do
              let (inner, rest) ← opening m rest
              let (b, rest) ← readFrom m fuel inner rest
              readFrom m fuel (o.push b) rest
      | '&' :: '&' :: rest => readFrom m fuel (o.behind .inter) rest
      | '-' :: '-' :: rest => readFrom m fuel (o.behind .diff) rest
      | '~' :: '~' :: rest => readFrom m fuel (o.behind .symmDiff) rest
      | cs => do
          let (b, rest) ← member m cs
          readFrom m fuel (o.push b) rest

/-- Reads a set behind its first bracket. -/
def read (m : Mode) (cs : List Char) : Option (Bracket × List Char) := do
  let (o, rest) ← opening m cs
  readFrom m (rest.length + 1) o rest

end Bracket
end Courier
