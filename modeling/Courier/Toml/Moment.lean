/-!
# Dates and times in TOML documents

A date, a time of day, or both with an optional offset from universal time.  The
day has to exist in its month.
-/

namespace Courier
namespace Toml
namespace Moment

def digit? (c : Char) : Option Nat :=
  if c.isDigit then some (c.toNat - 48) else none

/-- Reads two digits of a number between `low` and `high`. -/
def pair (low high : Nat) : List Char → Option (Nat × List Char)
  | a :: b :: rest =>
      match digit? a, digit? b with
      | some x, some y =>
          if low ≤ 10 * x + y ∧ 10 * x + y ≤ high then some (10 * x + y, rest)
          else none
      | _, _ => none
  | _ => none

def mark (c : Char) : List Char → Option (List Char)
  | d :: rest => if d = c then some rest else none
  | [] => none

def daysOf (year month : Nat) : Nat :=
  if month = 2 then
    if year % 4 = 0 ∧ (year % 100 ≠ 0 ∨ year % 400 = 0) then 29 else 28
  else if month = 4 ∨ month = 6 ∨ month = 9 ∨ month = 11 then 30
  else 31

/-- Reads a date and gives what follows it. -/
def date (cs : List Char) : Option (List Char) := do
  let (century, cs) ← pair 0 99 cs
  let (year, cs) ← pair 0 99 cs
  let cs ← mark '-' cs
  let (month, cs) ← pair 1 12 cs
  let cs ← mark '-' cs
  let (_, cs) ← pair 1 (daysOf (100 * century + year) month) cs
  some cs

/-- Reads the fraction of a second, if there is one. -/
def secondFraction : List Char → Option (List Char)
  | '.' :: c :: rest =>
      if c.isDigit then some (rest.dropWhile Char.isDigit) else none
  | '.' :: [] => none
  | cs => some cs

/-- Reads a time of day and gives what follows it. -/
def time (cs : List Char) : Option (List Char) := do
  let (_, cs) ← pair 0 23 cs
  let cs ← mark ':' cs
  let (_, cs) ← pair 0 59 cs
  let cs ← mark ':' cs
  let (_, cs) ← pair 0 60 cs
  secondFraction cs

/-- Says whether a text is an offset, or empty. -/
def isOffset : List Char → Bool
  | [] => true
  | ['Z'] => true
  | ['z'] => true
  | sign :: cs =>
      (sign == '+' || sign == '-') &&
        match pair 0 23 cs with
        | some (_, ':' :: cs) =>
            match pair 0 59 cs with
            | some (_, []) => true
            | _ => false
        | _ => false

/-- Says whether a text is a date and nothing more. -/
def isDate (cs : List Char) : Bool :=
  match date cs with
  | some [] => true
  | _ => false

/-- Says whether a text is a time of day with an optional offset. -/
def isTimeWithOffset (cs : List Char) : Bool :=
  match time cs with
  | some rest => isOffset rest
  | none => false

/-- Says whether a text without blanks is a date, a time of day, or both. -/
def isMoment (cs : List Char) : Bool :=
  match date cs with
  | some [] => true
  | some (c :: rest) => (c == 'T' || c == 't') && isTimeWithOffset rest
  | none =>
      match time cs with
      | some [] => true
      | _ => false

end Moment
end Toml
end Courier
