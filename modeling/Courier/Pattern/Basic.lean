import Courier.Pattern.CharSet

/-!
# Patterns

Patterns say what a text may look like: sets of characters, conditions on places,
sequences, choices and repetitions.

* `Pattern.reach` goes through a text with a pattern.  It takes marks on the places
  of the text, one more than there are characters, to marks on the places where the
  pattern can end if it begins at a marked place.
* `Pattern.occursIn` says whether a part of a text fits a pattern.
-/

namespace Courier

/-- A place in a text: the characters on both sides of it. -/
structure Place where
  before : Option Char
  after : Option Char
  deriving DecidableEq, Repr

namespace Place

/-- The places of a text behind the character `before`. -/
def list (before : Option Char) : List Char → List Place
  | [] => [⟨before, none⟩]
  | c :: cs => ⟨before, some c⟩ :: list (some c) cs

end Place

/-- How a place lies to a word: at one of its ends or not, at its beginning, at its
end; the last two look at one side only. -/
inductive Edge
  | boundary
  | inside
  | start
  | stop
  | startHalf
  | stopHalf
  deriving DecidableEq, Repr

/-- A condition on a place.  A word is `plain` if its characters are letters and
digits within ASCII; other words are not told apart here. -/
inductive Anchor
  | textStart
  | textEnd
  | lineStart (carriage : Bool)
  | lineEnd (carriage : Bool)
  | word (edge : Edge) (plain : Bool)
  deriving DecidableEq, Repr

namespace Edge

/-- Says whether an edge is between two sides, each within a word or not. -/
def holds (before after : Bool) : Edge → Bool
  | .boundary => before != after
  | .inside => before == after
  | .start => !before && after
  | .stop => before && !after
  | .startHalf => !before
  | .stopHalf => !after

end Edge

namespace Anchor

/-- Says whether a place meets a condition.  Where a carriage return ends a line too,
the two characters of a pair of both are not taken apart. -/
def holds (p : Place) : Anchor → Bool
  | .textStart => p.before == none
  | .textEnd => p.after == none
  | .lineStart false => p.before == none || p.before == some '\n'
  | .lineEnd false => p.after == none || p.after == some '\n'
  | .lineStart true =>
      p.before == none || p.before == some '\n' ||
        (p.before == some '\r' && p.after != some '\n')
  | .lineEnd true =>
      p.after == none || p.after == some '\r' ||
        (p.after == some '\n' && p.before != some '\r')
  | .word edge _ =>
      edge.holds (p.before.any CharSet.wordChars.contains)
        (p.after.any CharSet.wordChars.contains)

end Anchor

/-- A pattern for a part of a text. -/
inductive Pattern
  | empty
  | char (set : CharSet)
  | anchor (a : Anchor)
  | seq (p q : Pattern)
  | alt (p q : Pattern)
  | group (p : Pattern)
  | repeated (p : Pattern) (least : Nat) (most : Option Nat)
  deriving DecidableEq, Repr

/-- Marks on the places of a text. -/
abbrev Marks := List Bool

namespace Marks

def union (a b : Marks) : Marks := a.zipWith (· || ·) b

/-- A step done a number of times; a step that changes nothing is the last one. -/
def after (step : Marks → Marks) : Nat → Marks → Marks
  | 0, ms => ms
  | n + 1, ms =>
      let next := step ms
      if next = ms then ms else after step n next

end Marks

namespace Pattern

/-- The marks one character further, where the character is in the set. -/
def shift (places : List Place) (set : CharSet) (ms : Marks) : Marks :=
  (false :: places.zipWith (fun p m => m && p.after.any set.contains) ms).dropLast

/-- The places where a pattern can end, if it begins at a marked place. -/
def reach (places : List Place) : Pattern → Marks → Marks
  | .empty, ms => ms
  | .char set, ms => shift places set ms
  | .anchor a, ms => places.zipWith (fun p m => m && a.holds p) ms
  | .seq p q, ms => reach places q (reach places p ms)
  | .alt p q, ms => (reach places p ms).union (reach places q ms)
  | .group p, ms => reach places p ms
  | .repeated p least most, ms =>
      let more (ms : Marks) : Marks := ms.union (reach places p ms)
      Marks.after more ((most.map (· - least)).getD places.length)
        (Marks.after (reach places p) least ms)

/-- Says whether some part of a text fits a pattern. -/
def occursIn (p : Pattern) (text : List Char) : Bool :=
  let places := Place.list none text
  (p.reach places (places.map fun _ => true)).any id

/-- Says whether a pattern takes no character from a text, whatever the text is. -/
def takesNothing : Pattern → Bool
  | .empty => true
  | .char _ => false
  | .anchor _ => true
  | .seq p q => p.takesNothing && q.takesNothing
  | .alt p q => p.takesNothing && q.takesNothing
  | .group p => p.takesNothing
  | .repeated p _ most => p.takesNothing || most == some 0

/-- A pattern several times in a row.  More than once is the same as once where
nothing is taken. -/
def times (p : Pattern) (least : Nat) (most : Option Nat) : Pattern :=
  let (least, most) :=
    if p.takesNothing then (min least 1, some ((most.map (min · 1)).getD 1))
    else (least, most)
  if most = some 0 then .empty
  else if least = 1 ∧ most = some 1 then p
  else .repeated p least most

def append : Pattern → Pattern → Pattern
  | .empty, q => q
  | p, .empty => p
  | p, q => .seq p q

def row (ps : List Pattern) : Pattern := ps.foldr append .empty

/-- The choice between two patterns; sets of characters become one set. -/
def orElse : Pattern → Pattern → Pattern
  | .char a, .char b => .char (a.union b)
  | p, q => .alt p q

/-- Says whether all words in a pattern are plain. -/
def isPlain : Pattern → Bool
  | .anchor (.word _ plain) => plain
  | .seq p q => p.isPlain && q.isPlain
  | .alt p q => p.isPlain && q.isPlain
  | .group p => p.isPlain
  | .repeated p _ _ => p.isPlain
  | _ => true

end Pattern
end Courier
