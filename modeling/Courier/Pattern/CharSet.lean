/-!
# Sets of characters

Sets of characters, given as ranges of code points.  The ranges may come in any
order and may overlap.

* `CharSet.normal` gives the ranges in rising order with gaps between them.
* `CharSet.union`, `CharSet.inter` and `CharSet.diff` are the operations on sets, done
  on the ranges.
-/

namespace Courier

/-- A set of characters: all whose code points lie in one of the ranges. -/
structure CharSet where
  ranges : List (Nat × Nat)
  deriving DecidableEq, Repr

namespace CharSet

/-- Says whether a number lies in a range. -/
def within (r : Nat × Nat) (n : Nat) : Bool :=
  r.1 ≤ n && n ≤ r.2

/-- Says whether a character is in a set. -/
def contains (s : CharSet) (c : Char) : Bool :=
  s.ranges.any fun r => within r c.toNat

def empty : CharSet := ⟨[]⟩

def full : CharSet := ⟨[(0, 0x10ffff)]⟩

def single (c : Char) : CharSet := ⟨[(c.toNat, c.toNat)]⟩

/-- The characters between two, which belong to the set too. -/
def span (first last : Char) : CharSet := ⟨[(first.toNat, last.toNat)]⟩

def union (a b : CharSet) : CharSet := ⟨a.ranges ++ b.ranges⟩

/-- Says whether two ranges can be joined to one. -/
def touch (r q : Nat × Nat) : Bool :=
  q.1 ≤ r.2 + 1 && r.1 ≤ q.2 + 1

/-- Joins a range with those behind it that it touches. -/
def joinFrom (r : Nat × Nat) : List (Nat × Nat) → List (Nat × Nat)
  | [] => [r]
  | q :: rest =>
      if touch r q then joinFrom (min r.1 q.1, max r.2 q.2) rest
      else r :: joinFrom q rest

/-- The ranges of a set in rising order, none of them empty and no two touching. -/
def normal (s : CharSet) : List (Nat × Nat) :=
  match (s.ranges.filter fun r => r.1 ≤ r.2).mergeSort fun r q => r.1 ≤ q.1 with
  | [] => []
  | r :: rest => joinFrom r rest

/-- The numbers that two ranges share, if there are any. -/
def overlap (r q : Nat × Nat) : List (Nat × Nat) :=
  if max r.1 q.1 ≤ min r.2 q.2 then [(max r.1 q.1, min r.2 q.2)] else []

def inter (a b : CharSet) : CharSet :=
  ⟨a.normal.flatMap fun r => b.normal.flatMap (overlap r)⟩

/-- What is left of the range `q` below and above the range `r`. -/
def remains (r q : Nat × Nat) : List (Nat × Nat) :=
  (if q.1 < r.1 then [(q.1, min q.2 (r.1 - 1))] else []) ++
    (if r.2 < q.2 then [(max q.1 (r.2 + 1), q.2)] else [])

def diff (a b : CharSet) : CharSet :=
  ⟨b.normal.foldl (fun left r => left.flatMap (remains r)) a.normal⟩

def complement (s : CharSet) : CharSet := full.diff s

/-- The characters that are in one of the two sets alone. -/
def symmDiff (a b : CharSet) : CharSet := (a.union b).diff (a.inter b)

/-- Lower-case letters without marks, and upper-case ones. -/
def small : CharSet := span 'a' 'z'
def large : CharSet := span 'A' 'Z'

/-- The set with the other case of every letter between A and Z in it. -/
def bothCases (s : CharSet) : CharSet :=
  let up := (s.inter small).ranges.map fun r => (r.1 - 32, r.2 - 32)
  let down := (s.inter large).ranges.map fun r => (r.1 + 32, r.2 + 32)
  ⟨s.ranges ++ up ++ down⟩

def digits : CharSet := span '0' '9'

/-- Letters, digits and the underline: what words are made of. -/
def wordChars : CharSet := ((small.union large).union digits).union (single '_')

def blanks : CharSet := (span '\t' '\r').union (single ' ')

/-- The classes of characters that have a name; all of them are within ASCII. -/
def named : List (String × CharSet) :=
  [("alnum", (small.union large).union digits), ("alpha", small.union large),
    ("ascii", span '\x00' '\x7f'), ("blank", (single '\t').union (single ' ')),
    ("cntrl", (span '\x00' '\x1f').union (single '\x7f')), ("digit", digits),
    ("graph", span '!' '~'), ("lower", small), ("print", span ' ' '~'),
    ("punct", (((span '!' '/').union (span ':' '@')).union (span '[' '\x60')).union
      (span '\x7b' '~')),
    ("space", blanks), ("upper", large), ("word", wordChars),
    ("xdigit", ((span 'a' 'f').union (span 'A' 'F')).union digits)]

end CharSet
end Courier
