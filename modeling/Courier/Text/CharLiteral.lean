/-!
# Characters in quotes

The quoted form in which a message shows one character of the Latin-1 range:
printable characters stand for themselves, the others are escaped.
-/

namespace Courier
namespace CharLiteral

/-- The lower-case hexadecimal digits of a number, without leading zeros. -/
def hexDigits (n : Nat) : String :=
  String.ofList (Nat.toDigits 16 n)

/-- Characters up to `ÿ` that a terminal would not show: the control characters,
the no-break space and the soft hyphen. -/
def isHidden (c : Char) : Bool :=
  c.toNat < 0x20 || (0x7f ≤ c.toNat && c.toNat ≤ 0xa0) || c.toNat == 0xad

/-- One character as it stands between single quotes. -/
def escape (c : Char) : String :=
  if c = '\x00' then "\\0"
  else if c = '\t' then "\\t"
  else if c = '\n' then "\\n"
  else if c = '\r' then "\\r"
  else if c = '\'' then "\\'"
  else if c = '\\' then "\\\\"
  else if isHidden c then "\\u\x7b" ++ hexDigits c.toNat ++ "\x7d"
  else c.toString

/-- One character in single quotes. -/
def quote (c : Char) : String :=
  "'" ++ escape c ++ "'"

end CharLiteral
end Courier
