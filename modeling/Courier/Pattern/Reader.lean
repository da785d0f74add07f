import Courier.Pattern.Bracket
import Courier.Pattern.Room
import Courier.Text.Letters

/-!
# Reading patterns

The written form of patterns: characters and escapes, `.`, `^` and `$`, sets in
brackets, groups with and without names, `|` between choices, and `?`, `*`, `+` and
counts in braces behind what is repeated.

* `Pattern.parse?` reads a pattern.  There is none if the text has no such form, if it
  needs to know about letters beyond ASCII, if it is nested too deeply, or if the
  pattern takes too much room.
-/

namespace Courier

/-- A part of a pattern: its depth, and whether it can be repeated. -/
structure Part where
  pattern : Pattern
  depth : Nat
  repeatable : Bool := true
  deriving DecidableEq, Repr

namespace Part

def row (parts : List Part) : Part :=
  let depth := (parts.map (·.depth)).foldr max 0
  ⟨Pattern.row (parts.map (·.pattern)),
    if parts.length ≤ 1 then depth else depth + 1, true⟩

/-- The choice between a part and others. -/
def choice (first : Part) (others : List Part) : Part :=
  let parts := first :: others
  let depth := (parts.map (·.depth)).foldr max 0
  let pattern :=
    match others.reverse with
    | [] => first.pattern
    | last :: before =>
        (first :: before.reverse).foldr (fun p q => p.pattern.orElse q) last.pattern
  ⟨pattern, if others.isEmpty then depth else depth + 1, true⟩

end Part

/-- What is read between two parentheses, as far as it is read: the parts of the last
choice, backward, and the choices before it, backward. -/
structure Choices where
  mode : Mode
  parts : List Part := []
  before : List Part := []
  deriving DecidableEq, Repr

namespace Choices

def push (r : Choices) (part : Part) : Choices :=
  { r with parts := part :: r.parts }

def next (r : Choices) : Choices :=
  { r with parts := [], before := Part.row r.parts.reverse :: r.before }

/-- All that has been read, as one part. -/
def close (r : Choices) : Part :=
  match (Part.row r.parts.reverse :: r.before).reverse with
  | [] => ⟨.empty, 0, true⟩
  | first :: others => Part.choice first others

def repeatLast (r : Choices) (least : Nat) (most : Option Nat) : Option Choices :=
  match r.parts with
  | part :: parts =>
      if part.repeatable then
        some { r with
          parts := ⟨part.pattern.times least most, part.depth + 1, true⟩ :: parts }
      else none
  | [] => none

end Choices

/-- What an opening parenthesis begins. -/
inductive Opening
  | switches (mode : Mode)
  | plain (mode : Mode)
  | group (name : Option String)

namespace Opening

/-- Reads a name of a group up to the bracket behind it.  It begins with a letter or an
underline. -/
def readName (cs : List Char) : Option (String × List Char) :=
  match cs.span (· != '>') with
  | (c :: name, '>' :: rest) =>
      if (c == '_' || Letters.isLetter c) &&
          name.all (fun d => Letters.isLetterOrNumber d || ['_', '.', '[', ']'].contains d)
      then some (String.ofList (c :: name), rest)
      else none
  | _ => none

/-- Reads what stands behind an opening parenthesis.  Looking ahead and behind is not
known, and neither is an empty list of switches. -/
def read (m : Mode) (cs : List Char) : Option (Opening × List Char) :=
  match m.skip cs with
  | '?' :: '=' :: _ => none
  | '?' :: '!' :: _ => none
  | '?' :: '<' :: '=' :: _ => none
  | '?' :: '<' :: '!' :: _ => none
  | '?' :: 'P' :: '<' :: rest =>
      (readName rest).map fun (name, rest) => (.group (some name), rest)
  | '?' :: '<' :: rest =>
      (readName rest).map fun (name, rest) => (.group (some name), rest)
  | '?' :: rest =>
      match Mode.readSwitches false [] rest with
      | some (seen, ':', rest) => some (.plain (m.switchAll seen.reverse), rest)
      | some ([], _, _) => none
      | some (seen, _, rest) => some (.switches (m.switchAll seen.reverse), rest)
      | none => none
  | cs => some (.group none, cs)

end Opening

namespace Count

/-- The bound of the numbers in counts. -/
def bound : Nat := 0x100000000

/-- Reads a number with blanks around it. -/
def number (m : Mode) (cs : List Char) : Option (Nat × List Char) :=
  match m.takeWhile Char.isDigit (cs.dropWhile Blank.isBlank) with
  | ([], _) => none
  | (digits, rest) =>
      let n := digits.foldl (fun n c => 10 * n + (c.toNat - 48)) 0
      if n < bound then some (n, rest.dropWhile Blank.isBlank) else none

/-- Reads a count behind its first brace: one number, a least one, or two. -/
def read (m : Mode) (cs : List Char) :
    Option ((Nat × Option Nat) × List Char) := do
  let (least, cs) ← number m (m.skip cs)
  match cs with
  | '}' :: rest => some ((least, some least), rest)
  | ',' :: rest =>
      match m.skip rest with
      | '}' :: rest => some ((least, none), rest)
      | rest => do
          match ← number m rest with
          | (most, '}' :: rest) =>
              if least ≤ most then some ((least, some most), rest) else none
          | _ => none
  | _ => none

end Count

namespace Pattern

/-- The text behind a question mark, which says that fewer are tried first. -/
def dropLazy : List Char → List Char
  | '?' :: rest => rest
  | cs => cs

/-- Reads a sign that stands for a character, a set or a place. -/
def readSign (m : Mode) : List Char → Option (Pattern × List Char)
  | [] => none
  | '.' :: rest => m.dot.map fun set => (.char set, rest)
  | '^' :: rest => some (.anchor m.caret, rest)
  | '$' :: rest => some (.anchor m.dollar, rest)
  | '\\' :: rest =>
      match Escape.parse? m rest with
      | none => none
      | some (.char c isByte, rest) => (m.literal c isByte).map fun set => (.char set, rest)
      | some (.set s negated, rest) =>
          (m.lettered negated s).map fun set => (.char set, rest)
      | some (.anchor a, rest) => some (.anchor a, rest)
  | c :: rest => (m.literal c false).map fun set => (.char set, rest)

/-- Reads up to a closing parenthesis or the end, in at most `fuel` steps; `names` are
the names of groups that were given. -/
def readFrom : Nat → Choices → List String → List Char →
    Option (Part × List String × List Char)
  | 0, _, _, _ => none
  | fuel + 1, r, names, cs =>
      match r.mode.skip cs with
      | [] => some (r.close, names, [])
      | ')' :: rest => some (r.close, names, ')' :: rest)
      | '|' :: rest => readFrom fuel r.next names rest
      | '(' :: rest =>
          match Opening.read r.mode rest with
          | none => none
          | some (.switches mode, rest) =>
              readFrom fuel { r.push ⟨.empty, 0, false⟩ with mode := mode } names rest
          | some (.plain mode, rest) =>
              match readFrom fuel { mode := mode } names rest with
              | some (inner, names, ')' :: rest) =>
                  readFrom fuel (r.push ⟨inner.pattern, inner.depth + 1, true⟩) names rest
              | _ => none
          | some (.group name, rest) =>
              if name.any names.contains then none
              else
                match readFrom fuel { mode := r.mode } (name.toList ++ names) rest with
                | some (inner, names, ')' :: rest) =>
                    readFrom fuel (r.push ⟨.group inner.pattern, inner.depth + 1, true⟩)
                      names rest
                | _ => none
      | '[' :: rest => do
          let (b, rest) ← Bracket.read r.mode rest
          readFrom fuel (r.push ⟨.char b.set, b.depth, true⟩) names rest
      | '?' :: rest => do
          readFrom fuel (← r.repeatLast 0 (some 1)) names (dropLazy rest)
      | '*' :: rest => do
          readFrom fuel (← r.repeatLast 0 none) names (dropLazy rest)
      | '+' :: rest => do
          readFrom fuel (← r.repeatLast 1 none) names (dropLazy rest)
      | '\x7b' :: rest => do
          let ((least, most), rest) ← Count.read r.mode rest
          readFrom fuel (← r.repeatLast least most) names (dropLazy (r.mode.skip rest))
      | cs => do
          let (p, rest) ← readSign r.mode cs
          readFrom fuel (r.push ⟨p, 0, true⟩) names rest

def depthLimit : Nat := 250

/-- Reads a pattern that can be used. -/
def parse? (text : List Char) : Option Pattern :=
  match readFrom (text.length + 1) { mode := {} } [] text with
  | some (part, _, []) =>
      if part.depth ≤ depthLimit && part.pattern.isPlain && part.pattern.fits then
        some part.pattern
      else none
  | _ => none

end Pattern
end Courier
