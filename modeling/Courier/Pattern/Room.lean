import Courier.Pattern.Basic

/-!
# The room that a pattern takes

Patterns that are too large are not used.  How large one is shows in the machine
that reads a text byte by byte and follows the pattern, forward or backward: a
repetition has its pattern as often as it is counted.  A step of the machine takes
32 bytes; each way out of a step that reads bytes takes 8 more, and each one of a
choice between steps takes 4.

* `ByteForm.ofSet` cuts a set of characters into rows of byte ranges.
* `Pattern.fits` says that a pattern takes at most ten mebibytes in both directions.
-/

namespace Courier

/-- A row of byte ranges: all characters whose bytes lie in them one by one. -/
abbrev ByteForm := List (Nat × Nat)

namespace ByteForm

/-- The last code points that take one, two, three and four bytes, with what is added
to their first bytes, and the gap that holds no characters. -/
def blocks : List ((Nat × Nat) × Nat × Nat) :=
  [((0, 0x7f), 0, 0), ((0x80, 0x7ff), 1, 0xc0), ((0x800, 0xd7ff), 2, 0xe0),
    ((0xe000, 0xffff), 2, 0xe0), ((0x10000, 0x10ffff), 3, 0xf0)]

/-- A number as `n` digits in base 64 behind a first one that may be any number. -/
def digits64 : Nat → Nat → List Nat
  | 0, v => [v]
  | n + 1, v => digits64 n (v / 64) ++ [v % 64]

/-- All rows of as many digits as there are in a list. -/
def anyDigits (digits : List Nat) : ByteForm := digits.map fun _ => (0, 63)

/-- The rows of digits from the given ones upward. -/
def above : List Nat → List ByteForm
  | [] => [[]]
  | a :: low =>
      if low.all (· == 0) then [(a, 63) :: anyDigits low]
      else
        (above low).map ((a, a) :: ·) ++
          (if a < 63 then [(a + 1, 63) :: anyDigits low] else [])

/-- The rows of digits up to the given ones. -/
def below : List Nat → List ByteForm
  | [] => [[]]
  | b :: high =>
      if high.all (· == 63) then [(0, b) :: anyDigits high]
      else
        (if 0 < b then [(0, b - 1) :: anyDigits high] else []) ++
          (below high).map ((b, b) :: ·)

/-- The rows of digits between two, with as many digits each. -/
def rows : List Nat → List Nat → List ByteForm
  | a :: low, b :: high =>
      if a = b then
        if low.isEmpty then [[(a, b)]] else (rows low high).map ((a, a) :: ·)
      else
        let ragged := low.any (· != 0)
        let short := high.any (· != 63)
        let first := if ragged then a + 1 else a
        let stop := if short then b else b + 1
        (if ragged then (above low).map ((a, a) :: ·) else []) ++
          (if first < stop then [(first, stop - 1) :: anyDigits low] else []) ++
          (if short then (below high).map ((b, b) :: ·) else [])
  | _, _ => []

/-- Digits as bytes: the first is raised by `lead` and the others by 128. -/
def raise (lead : Nat) : ByteForm → ByteForm
  | [] => []
  | r :: rest =>
      (r.1 + lead, r.2 + lead) :: rest.map fun q => (q.1 + 0x80, q.2 + 0x80)

/-- The rows of bytes of a set of characters, in rising order. -/
def ofSet (s : CharSet) : List ByteForm :=
  s.normal.flatMap fun r => blocks.flatMap fun (block, n, lead) =>
    (CharSet.overlap r block).flatMap fun (low, high) =>
      (rows (digits64 n low) (digits64 n high)).map (raise lead)

/-- The first ranges of some rows. -/
def heads (forms : List ByteForm) : List (Nat × Nat) :=
  (forms.filterMap List.head?).eraseDups

/-- What follows a range in the rows that begin with it. -/
def behind (r : Nat × Nat) (forms : List ByteForm) : List ByteForm :=
  forms.filterMap fun
    | q :: rest => if q = r then some rest else none
    | [] => none

/-- What can be left of a row, at most `n` bytes from its beginning. -/
def remainders : Nat → List ByteForm → List (List ByteForm)
  | 0, _ => []
  | n + 1, forms =>
      if forms.all (·.isEmpty) then []
      else forms :: (heads forms).flatMap fun r => remainders n (behind r forms)

/-- The beginnings of a row that hold at least one range. -/
def beginnings (form : ByteForm) : List ByteForm :=
  (List.range form.length).map fun n => form.take (n + 1)

end ByteForm

/-- The direction in which a text is read. -/
inductive Direction
  | forward
  | backward
  deriving DecidableEq, Repr

def stepRoom : Nat := 32

namespace CharSet

def total (numbers : List Nat) : Nat := numbers.foldr (· + ·) 0

/-- The room of rows of bytes.  Forward, rows share their ends, and backward they share
their beginnings. -/
def formsRoom (forms : List ByteForm) : Direction → Nat
  | .forward =>
      let steps := (ByteForm.remainders 4 forms).eraseDups
      stepRoom + total (steps.map fun rows => stepRoom + 8 * (ByteForm.heads rows).length)
  | .backward =>
      stepRoom * (2 + (forms.flatMap ByteForm.beginnings).eraseDups.length) +
        4 * forms.length

/-- The room of a set of characters: one character takes a step for each of its bytes,
and characters of one byte take one step together. -/
def room (d : Direction) (s : CharSet) : Nat :=
  let ranges := s.normal
  let forms := ByteForm.ofSet s
  if ranges.length = 1 && ranges.all (fun r => r.1 == r.2) then
    stepRoom * total (forms.map List.length)
  else if ranges.all (·.2 ≤ 0x7f) then 2 * stepRoom + 8 * ranges.length
  else formsRoom forms d

end CharSet

namespace Pattern

/-- Says whether a pattern takes at least one character, whatever the text is. -/
def takesSome : Pattern → Bool
  | .empty => false
  | .char set => !set.normal.isEmpty
  | .anchor _ => false
  | .seq p q => p.takesSome || q.takesSome
  | .alt p q => p.takesSome && q.takesSome
  | .group p => p.takesSome
  | .repeated p least _ => least != 0 && p.takesSome

/-- The room of a repetition of a pattern that takes `one`. -/
def repeatedRoom (one : Nat) (some? : Bool) (least : Nat) : Option Nat → Nat
  | none =>
      if least = 0 && !some? then one + 3 * stepRoom + 16
      else max least 1 * one + stepRoom + 8
  | some most =>
      if least = most then least * one
      else if most = 1 then one + 2 * stepRoom + 8
      else
        (if least = 0 then stepRoom else least * one) + stepRoom +
          (most - least) * (one + stepRoom + 8)

/-- The room of a pattern; a group is remembered when the text is read forward. -/
def room (d : Direction) : Pattern → Nat
  | .empty => stepRoom
  | .char set => set.room d
  | .anchor _ => stepRoom
  | .seq p q => p.room d + q.room d
  | .alt p q =>
      p.room d + q.room d +
        (match q with
          | .alt _ _ => 4
          | _ => 2 * stepRoom + 8)
  | .group p => p.room d + (if d = .forward then 2 * stepRoom else 0)
  | .repeated p least most => repeatedRoom (p.room d) p.takesSome least most

def roomLimit : Nat := 10 * 1024 * 1024

/-- Says whether a pattern is small enough in both directions.  Finding the beginning
and the end of what fits takes some steps more. -/
def fits (p : Pattern) : Bool :=
  p.room .forward + 6 * stepRoom + 16 ≤ roomLimit &&
    p.room .backward + 4 * stepRoom + 16 ≤ roomLimit

end Pattern
end Courier
