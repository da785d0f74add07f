/-!
# Strings in TOML documents

The four kinds of strings: basic ones, in which a backslash escapes, and literal
ones, each on one line or on several.  Each reader starts behind the opening
quotes and gives the text and what follows the closing quotes.
-/

namespace Courier
namespace Toml
namespace Quoted

def isSpace (c : Char) : Bool :=
  c == ' ' || c == '\t'

/-- A character that may stand for itself in a comment or a string. -/
def isPlain (c : Char) : Bool :=
  c == '\t' || (' ' ≤ c && c ≤ '~') || 0x80 ≤ c.toNat

/-- The character behind a backslash, for the short escapes. -/
def shortEscape? (c : Char) : Option Char :=
  if c = 'b' then some '\x08'
  else if c = 't' then some '\t'
  else if c = 'n' then some '\n'
  else if c = 'f' then some '\x0c'
  else if c = 'r' then some '\r'
  else if c = '"' then some '"'
  else if c = '\\' then some '\\'
  else none

/-- The value of a digit of base sixteen. -/
def hexValue? (c : Char) : Option Nat :=
  if '0' ≤ c ∧ c ≤ '9' then some (c.toNat - 48)
  else if 'a' ≤ c ∧ c ≤ 'f' then some (c.toNat - 87)
  else if 'A' ≤ c ∧ c ≤ 'F' then some (c.toNat - 55)
  else none

/-- The value of digits of base sixteen. -/
def hexNumber? (cs : List Char) : Option Nat :=
  cs.foldl (fun v c => v.bind fun n => (hexValue? c).map (16 * n + ·)) (some 0)

/-- The character with the code point that the digits give. -/
def scalar? (cs : List Char) : Option Char :=
  (hexNumber? cs).bind fun n =>
    if n < 0xd800 ∨ (0xdfff < n ∧ n < 0x110000) then some (Char.ofNat n) else none

/-- Puts a character in front of what was read. -/
def push (c : Char) (read : Option (List Char × List Char)) :
    Option (List Char × List Char) :=
  read.map fun r => (c :: r.1, r.2)

/-- A basic string on one line. -/
def basic : List Char → Option (List Char × List Char)
  | [] => none
  | '"' :: rest => some ([], rest)
  | '\\' :: 'u' :: a :: b :: c :: d :: rest =>
      (scalar? [a, b, c, d]).bind fun x => push x (basic rest)
  | '\\' :: 'U' :: a :: b :: c :: d :: e :: f :: g :: h :: rest =>
      (scalar? [a, b, c, d, e, f, g, h]).bind fun x => push x (basic rest)
  | '\\' :: c :: rest => (shortEscape? c).bind fun x => push x (basic rest)
  | c :: rest => if isPlain c && c != '\\' then push c (basic rest) else none

/-- A literal string on one line. -/
def literal : List Char → Option (List Char × List Char)
  | [] => none
  | '\'' :: rest => some ([], rest)
  | c :: rest => if isPlain c then push c (literal rest) else none

/-- What a string on several lines passes over: nothing, the blanks between a
backslash and the end of its line, or all blanks from there on. -/
inductive Skip
  | none
  | toLineEnd
  | blanks
  deriving DecidableEq

/-- A basic string on several lines. -/
def basicLines : Skip → List Char → Option (List Char × List Char)
  | _, [] => .none
  | .toLineEnd, '\r' :: '\n' :: rest => basicLines .blanks rest
  | .toLineEnd, c :: rest =>
      if c = '\n' then basicLines .blanks rest
      else if isSpace c then basicLines .toLineEnd rest
      else .none
  | .blanks, '\r' :: '\n' :: rest => basicLines .blanks rest
  | .blanks, ' ' :: rest => basicLines .blanks rest
  | .blanks, '\t' :: rest => basicLines .blanks rest
  | .blanks, '\n' :: rest => basicLines .blanks rest
  | _, '"' :: '"' :: '"' :: '"' :: '"' :: rest => some (['"', '"'], rest)
  | _, '"' :: '"' :: '"' :: '"' :: rest => some (['"'], rest)
  | _, '"' :: '"' :: '"' :: rest => some ([], rest)
  | _, '\r' :: '\n' :: rest => push '\n' (basicLines .none rest)
  | _, '\n' :: rest => push '\n' (basicLines .none rest)
  | _, '\\' :: 'u' :: a :: b :: c :: d :: rest =>
      (scalar? [a, b, c, d]).bind fun x => push x (basicLines .none rest)
  | _, '\\' :: 'U' :: a :: b :: c :: d :: e :: f :: g :: h :: rest =>
      (scalar? [a, b, c, d, e, f, g, h]).bind fun x => push x (basicLines .none rest)
  | _, '\\' :: c :: rest =>
      match shortEscape? c with
      | some x => push x (basicLines .none rest)
      | .none =>
          if c = '\n' then basicLines .blanks rest
          else if isSpace c then basicLines .toLineEnd rest
          else if c = '\r' then
            match rest with
            | '\n' :: rest => basicLines .blanks rest
            | _ => .none
          else .none
  | _, c :: rest =>
      if isPlain c && c != '\\' then push c (basicLines .none rest) else .none

/-- A literal string on several lines. -/
def literalLines : List Char → Option (List Char × List Char)
  | [] => none
  | '\'' :: '\'' :: '\'' :: '\'' :: '\'' :: rest => some (['\'', '\''], rest)
  | '\'' :: '\'' :: '\'' :: '\'' :: rest => some (['\''], rest)
  | '\'' :: '\'' :: '\'' :: rest => some ([], rest)
  | '\r' :: '\n' :: rest => push '\n' (literalLines rest)
  | '\n' :: rest => push '\n' (literalLines rest)
  | c :: rest => if isPlain c then push c (literalLines rest) else none

/-- The text without a line end in front. -/
def dropLineEnd : List Char → List Char
  | '\n' :: rest => rest
  | '\r' :: '\n' :: rest => rest
  | cs => cs

/-- Reads a string of any kind, with its quotes. -/
def read : List Char → Option (List Char × List Char)
  | '"' :: '"' :: '"' :: rest => basicLines .none (dropLineEnd rest)
  | '"' :: rest => basic rest
  | '\'' :: '\'' :: '\'' :: rest => literalLines (dropLineEnd rest)
  | '\'' :: rest => literal rest
  | _ => none

end Quoted
end Toml
end Courier
