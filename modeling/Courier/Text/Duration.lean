/-!
# Durations

The text of a time span given in milliseconds: whole and fractional seconds from
one second on, milliseconds below, and `0ns` for no time at all.
-/

namespace Courier
namespace Duration

/-- The digits of a fraction of a second, without trailing zeros. -/
def fraction (ms : Nat) : List Char :=
  let ds := Nat.toDigits 10 ms
  ((List.replicate (3 - ds.length) '0' ++ ds).reverse.dropWhile
    (· == '0')).reverse

def text (ms : Nat) : String :=
  if ms = 0 then "0ns"
  else if ms < 1000 then toString ms ++ "ms"
  else if ms % 1000 = 0 then toString (ms / 1000) ++ "s"
  else
    toString (ms / 1000) ++ "." ++ String.ofList (fraction (ms % 1000)) ++ "s"

end Duration
end Courier
