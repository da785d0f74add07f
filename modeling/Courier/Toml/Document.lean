import Courier.Toml.Moment
import Courier.Toml.Node
import Courier.Toml.Number
import Courier.Toml.Quoted

/-!
# TOML documents

The reader of TOML 1.0 documents.  It gives the entries of the root table, or
nothing when the text breaks the grammar or defines something twice.

Every reader takes the characters left and gives those behind what it read.  The
nesting of values and the length of key paths are limited to `maxNesting`.
-/

namespace Courier
namespace Toml

open Quoted (isSpace isPlain)

/-- The largest depth of arrays and tables in a value, and the largest number of
keys in a dotted key. -/
def maxNesting : Nat := 79

namespace Document

/-- The text behind spaces and tabs. -/
def skipSpace (cs : List Char) : List Char :=
  cs.dropWhile isSpace

/-- Reads the end of a line or of the text. -/
def lineBreak : List Char → Option (List Char)
  | [] => some []
  | '\n' :: rest => some rest
  | '\r' :: '\n' :: rest => some rest
  | _ => none

/-- Reads the rest of a line: blanks, and a comment. -/
def lineEnd (cs : List Char) : Option (List Char) :=
  match skipSpace cs with
  | '#' :: rest => lineBreak (rest.dropWhile isPlain)
  | rest => lineBreak rest

/-- Passes over blanks, line ends and comments inside an array; the flag says
whether a comment is open. -/
def skipLines : Bool → List Char → Option (List Char)
  | true, [] => none
  | true, '\n' :: rest => skipLines false rest
  | true, '\r' :: '\n' :: rest => skipLines false rest
  | true, c :: rest => if isPlain c then skipLines true rest else none
  | false, ' ' :: rest => skipLines false rest
  | false, '\t' :: rest => skipLines false rest
  | false, '\n' :: rest => skipLines false rest
  | false, '\r' :: '\n' :: rest => skipLines false rest
  | false, '#' :: rest => skipLines true rest
  | false, cs => some cs

/-- A character of a key without quotes. -/
def isBare (c : Char) : Bool :=
  c.isAlphanum || c == '_' || c == '-'

/-- Reads a key without dots. -/
def simpleKey : List Char → Option (String × List Char)
  | '"' :: rest => (basic rest).map fun r => (String.ofList r.1, r.2)
  | '\'' :: rest => (literal rest).map fun r => (String.ofList r.1, r.2)
  | cs =>
      let (name, rest) := cs.span isBare
      if name.isEmpty then none else some (String.ofList name, rest)
where
  basic := Quoted.basic
  literal := Quoted.literal

/-- Reads a dotted key of at most `left` parts: the parts before the last one, and
the last one. -/
def dottedKey : Nat → List Char → Option ((List String × String) × List Char)
  | 0, _ => none
  | left + 1, cs =>
      match simpleKey (skipSpace cs) with
      | none => none
      | some (name, rest) =>
          match skipSpace rest with
          | '.' :: rest =>
              (dottedKey left rest).map fun r => ((name :: r.1.1, r.1.2), r.2)
          | rest => some (([], name), rest)

/-- Reads a key and the equals sign behind it. -/
def keyOf (cs : List Char) : Option ((List String × String) × List Char) :=
  match dottedKey maxNesting cs with
  | some (key, '=' :: rest) => some (key, skipSpace rest)
  | _ => none

/-- A character of a number, a date or a word. -/
def isTokenChar (c : Char) : Bool :=
  c.isAlphanum || c == '_' || c == '-' || c == '+' || c == '.' || c == ':'

/-- Reads a time of day that stands behind a date and a space. -/
def timeAfter : List Char → Option (List Char × List Char)
  | ' ' :: rest =>
      let (token, rest) := rest.span isTokenChar
      if Moment.isTimeWithOffset token then some (token, rest) else none
  | _ => none

/-- The value of a token. -/
def tokenValue (token : List Char) : Option Node :=
  if token = ['t', 'r', 'u', 'e'] then some (.boolean true)
  else if token = ['f', 'a', 'l', 's', 'e'] then some (.boolean false)
  else if Moment.isMoment token then some (.moment (String.ofList token))
  else
    match Number.integer? token with
    | some n => some (.integer n)
    | none =>
        if Number.isFloat token then some (.float (String.ofList token)) else none

/-- Reads a number, a date, a time or a word. -/
def scalar (cs : List Char) : Option (Node × List Char) :=
  let (token, rest) := cs.span isTokenChar
  match Moment.isDate token, timeAfter rest with
  | true, some (time, rest) =>
      some (.moment (String.ofList (token ++ ' ' :: time)), rest)
  | _, _ => (tokenValue token).map fun node => (node, rest)

mutual

/-- Reads a value; `depth` more levels of arrays and tables may be opened. -/
def value : Nat → Nat → List Char → Option (Node × List Char)
  | 0, _, _ => none
  | fuel + 1, depth, cs =>
      match cs with
      | '[' :: rest =>
          match depth with
          | 0 => none
          | depth + 1 => items fuel depth [] rest
      | '\x7b' :: rest =>
          match depth with
          | 0 => none
          | depth + 1 =>
              match skipSpace rest with
              | '\x7d' :: rest => some (.table .inline [], rest)
              | rest => pairs fuel depth [] rest
      | '"' :: _ => (Quoted.read cs).map fun r => (.text (String.ofList r.1), r.2)
      | '\'' :: _ => (Quoted.read cs).map fun r => (.text (String.ofList r.1), r.2)
      | cs => scalar cs

/-- Reads the values of an array, behind those in `before`. -/
def items : Nat → Nat → List Node → List Char → Option (Node × List Char)
  | 0, _, _, _ => none
  | fuel + 1, depth, before, cs =>
      match skipLines false cs with
      | none => none
      | some (']' :: rest) => some (.array before, rest)
      | some cs =>
          match value fuel depth cs with
          | none => none
          | some (node, rest) =>
              match skipLines false rest with
              | some (',' :: rest) => items fuel depth (before ++ [node]) rest
              | some (']' :: rest) => some (.array (before ++ [node]), rest)
              | _ => none

/-- Reads the pairs of a table in braces, behind those in `before`. -/
def pairs : Nat → Nat → Entries → List Char → Option (Node × List Char)
  | 0, _, _, _ => none
  | fuel + 1, depth, before, cs =>
      match keyOf cs with
      | none => none
      | some ((path, key), rest) =>
          match value fuel depth rest with
          | none => none
          | some (node, rest) =>
              match before.define path key node with
              | none => none
              | some entries =>
                  match skipSpace rest with
                  | ',' :: rest => pairs fuel depth entries rest
                  | '\x7d' :: rest => some (.table .inline entries, rest)
                  | _ => none

end

/-- Reads a value of any size.  Each step of the readers takes a character or goes
one level into a value, so the fuel lasts. -/
def valueOf (cs : List Char) : Option (Node × List Char) :=
  value (2 * cs.length + 2) maxNesting cs

/-- A document half read: the root table, and the header in force. -/
structure State where
  root : Entries := []
  path : List String := []

/-- Reads a header up to its closing brackets. -/
def header (closing : List Char → Option (List Char)) (cs : List Char) :
    Option ((List String × String) × List Char) :=
  match dottedKey maxNesting cs with
  | none => none
  | some (key, rest) => ((closing rest).bind lineEnd).map (key, ·)

def closeOne : List Char → Option (List Char)
  | ']' :: rest => some rest
  | _ => none

def closeTwo : List Char → Option (List Char)
  | ']' :: ']' :: rest => some rest
  | _ => none

/-- Puts a header into force. -/
def State.enter (s : State) (change : String → Entries → Option Entries)
    (key : List String × String) : Option State :=
  (s.root.under (change key.2) key.1).map fun root =>
    ⟨root, key.1 ++ [key.2]⟩

/-- Reads one line that is not blank. -/
def line (s : State) (cs : List Char) : Option (State × List Char) :=
  match cs with
  | '[' :: '[' :: rest =>
      match header closeTwo rest with
      | none => none
      | some (key, rest) => (s.enter Entries.openElement key).map (·, rest)
  | '[' :: rest =>
      match header closeOne rest with
      | none => none
      | some (key, rest) => (s.enter Entries.openTable key).map (·, rest)
  | cs =>
      match keyOf cs with
      | none => none
      | some ((path, key), rest) =>
          match valueOf rest with
          | none => none
          | some (node, rest) =>
              match lineEnd rest, s.root.under (·.define path key node) s.path with
              | some rest, some root => some ({ s with root := root }, rest)
              | _, _ => none

/-- Reads lines to the end of the text. -/
def lines : Nat → State → List Char → Option Entries
  | 0, _, _ => none
  | fuel + 1, s, cs =>
      match skipSpace cs with
      | [] => some s.root
      | '\n' :: rest => lines fuel s rest
      | '\r' :: '\n' :: rest => lines fuel s rest
      | '#' :: rest =>
          match lineEnd ('#' :: rest) with
          | none => none
          | some rest => lines fuel s rest
      | cs =>
          match line s cs with
          | none => none
          | some (s, rest) => lines fuel s rest

/-- The text without a byte order mark in front. -/
def dropMark : List Char → List Char
  | '\ufeff' :: rest => rest
  | cs => cs

/-- Reads a document.  Every line takes at least one character. -/
def parse (text : String) : Option Entries :=
  let cs := dropMark text.toList
  lines (cs.length + 1) {} cs

end Document
end Toml
end Courier
