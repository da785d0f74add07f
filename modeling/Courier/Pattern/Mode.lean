import Courier.Pattern.Basic
import Courier.Text.Blank

/-!
# Modes of reading a pattern

The letters in `(?im-x)` set and clear switches that decide how what follows is read.

* `Mode.readSwitches` reads such letters.
* `Mode.skip` goes over blanks and comments in the mode in which they mean nothing.
* `Mode.literal`, `Mode.dot` and the like say what a sign means in a mode.

Two modes tell letters beyond ASCII apart: in the wide one, sets are sets of
characters, but it is not known which of them are letters, digits or blanks, nor
which have another case; in the other one there are no sets beyond ASCII.
-/

namespace Courier

/-- How a pattern is read. -/
structure Mode where
  ignoreCase : Bool := false
  eachLine : Bool := false
  dotAll : Bool := false
  carriage : Bool := false
  spaced : Bool := false
  wide : Bool := true
  deriving DecidableEq, Repr

namespace Mode

/-- The letters of the switches.  `U` turns round which of two ways is tried first, so
that it does not change what fits. -/
def letters : List Char := ['i', 'm', 's', 'U', 'u', 'R', 'x']

/-- The mode with one switch set or cleared. -/
def switch (m : Mode) (s : Char × Bool) : Mode :=
  match s.1 with
  | 'i' => { m with ignoreCase := s.2 }
  | 'm' => { m with eachLine := s.2 }
  | 's' => { m with dotAll := s.2 }
  | 'u' => { m with wide := s.2 }
  | 'R' => { m with carriage := s.2 }
  | 'x' => { m with spaced := s.2 }
  | _ => m

/-- The mode with some switches set or cleared. -/
def switchAll (m : Mode) (switches : List (Char × Bool)) : Mode :=
  switches.foldl switch m

/-- Reads switches up to the sign that ends them, which is the second part of the
result.  Those behind a dash are cleared; no letter and no dash stands there twice,
and a letter follows the dash. -/
def readSwitches (cleared : Bool) (seen : List (Char × Bool)) :
    List Char → Option (List (Char × Bool) × Char × List Char)
  | [] => none
  | c :: cs =>
      if c = ':' ∨ c = ')' then some (seen, c, cs)
      else if c = '-' then
        match cs with
        | d :: _ =>
            if cleared ∨ d = ':' ∨ d = ')' then none else readSwitches true seen cs
        | [] => none
      else if letters.contains c && (seen.lookup c).isNone then
        readSwitches cleared ((c, !cleared) :: seen) cs
      else none

/-- The text behind blanks and comments, possibly from within a comment.  A comment
goes from `#` to the end of the line. -/
def dropBlanks (comment : Bool) : List Char → List Char
  | [] => []
  | c :: cs =>
      if comment then dropBlanks (c != '\n') cs
      else if Blank.isBlank c then dropBlanks false cs
      else if c = '#' then dropBlanks true cs
      else c :: cs

/-- The text with what means nothing at its beginning left out. -/
def skip (m : Mode) (cs : List Char) : List Char :=
  if m.spaced then dropBlanks false cs else cs

/-- The next character that counts; of a comment the first character does. -/
def peek (m : Mode) (cs : List Char) : Option Char :=
  if m.spaced then
    let rest :=
      match cs.dropWhile Blank.isBlank with
      | '#' :: comment => comment.dropWhile Blank.isBlank
      | rest => rest
    rest.head?.or cs.head?
  else cs.head?

/-- The characters that pass a test, at most `n` of them, and the text behind them. -/
def takeUpTo (m : Mode) (test : Char → Bool) :
    Nat → List Char → List Char × List Char
  | 0, cs => ([], cs)
  | _, [] => ([], [])
  | n + 1, c :: cs =>
      if test c then
        let (taken, rest) := takeUpTo m test n (m.skip cs)
        (c :: taken, rest)
      else ([], c :: cs)

/-- All characters in a row that pass a test, and the text behind them. -/
def takeWhile (m : Mode) (test : Char → Bool) (cs : List Char) :
    List Char × List Char :=
  m.takeUpTo test cs.length cs

/-- The set of the characters between two, if the mode has it. -/
def range (m : Mode) (first last : Char) : Option CharSet :=
  let set := CharSet.span first last
  if last < first then none
  else if m.wide then if m.ignoreCase then none else some set
  else if last.toNat ≤ 0x7f then some (if m.ignoreCase then set.bothCases else set)
  else none

/-- The meaning of a character that stands for itself.  `isByte` says that it was
written as a byte. -/
def literal (m : Mode) (c : Char) (isByte : Bool) : Option CharSet :=
  if m.wide || c.toNat ≤ 0x7f then m.range c c
  else if isByte then none
  else some (CharSet.single c)

/-- What is not in a set, or the set itself. -/
def turned (m : Mode) (negated : Bool) (set : CharSet) : Option CharSet :=
  if negated then if m.wide then some set.complement else none else some set

/-- The meaning of a set that has a letter, such as the one of the digits. -/
def lettered (m : Mode) (negated : Bool) (set : CharSet) : Option CharSet :=
  if m.wide || negated then none else some set

/-- The meaning of a set that has a name. -/
def named (m : Mode) (negated : Bool) (set : CharSet) : Option CharSet :=
  if m.wide then if m.ignoreCase then none else m.turned negated set
  else m.turned negated (if m.ignoreCase then set.bothCases else set)

def dot (m : Mode) : Option CharSet :=
  if !m.wide then none
  else if m.dotAll then some CharSet.full
  else
    let ends := CharSet.single '\n'
    some (if m.carriage then ends.union (CharSet.single '\r') else ends).complement

def caret (m : Mode) : Anchor :=
  if m.eachLine then .lineStart m.carriage else .textStart

def dollar (m : Mode) : Anchor :=
  if m.eachLine then .lineEnd m.carriage else .textEnd

/-- The condition on a place in a word. -/
def edge (m : Mode) (e : Edge) : Anchor := .word e (!m.wide)

end Mode
end Courier
