/-!
# Byte strings

Byte strings as lists of octets, with the fixed-width integer codings used by
frames and packed paths, and the cut of a byte string into slices.

* `Bytes.ofNatBE`, `Bytes.ofNatLE` write a number in a given width;
  `Bytes.toNatBE`, `Bytes.toNatLE` read one back.
* `Bytes.slices n b` lists the consecutive pieces of `b`, each of `n` bytes but
  the last; `flatten_slices` says that nothing is lost.
-/

namespace Courier

abbrev Bytes := List UInt8

namespace Bytes

/-- The `w` bytes of `n`, least significant first; higher digits are dropped. -/
def ofNatLE : Nat → Nat → Bytes
  | 0, _ => []
  | w + 1, n => UInt8.ofNat (n % 256) :: ofNatLE w (n / 256)

/-- The number with the given bytes, least significant first. -/
def toNatLE : Bytes → Nat
  | [] => 0
  | b :: bs => b.toNat + 256 * toNatLE bs

/-- The `w` bytes of `n`, most significant first; higher digits are dropped. -/
def ofNatBE (w n : Nat) : Bytes :=
  (ofNatLE w n).reverse

/-- The number with the given bytes, most significant first. -/
def toNatBE (b : Bytes) : Nat :=
  toNatLE b.reverse

@[simp] theorem length_ofNatLE (w n : Nat) :
    (ofNatLE w n).length = w := by
  induction w generalizing n with
  | zero => rfl
  | succ w ih => simp [ofNatLE, ih]

@[simp] theorem length_ofNatBE (w n : Nat) :
    (ofNatBE w n).length = w := by
  simp [ofNatBE]

/-- The consecutive pieces of `n` bytes, the last one possibly shorter.  A piece
holds at least one byte, so `n = 0` cuts like `n = 1`. -/
def slices (n : Nat) : Bytes → List Bytes
  | [] => []
  | b :: bs => (b :: bs.take (n - 1)) :: slices n (bs.drop (n - 1))
termination_by b => b.length
decreasing_by
  simp only [List.length_drop, List.length_cons]
  omega

@[simp] theorem slices_nil (n : Nat) :
    slices n [] = [] := by
  rw [slices]

theorem slices_cons (n : Nat) (b : UInt8) (bs : Bytes) :
    slices n (b :: bs) =
      (b :: bs.take (n - 1)) :: slices n (bs.drop (n - 1)) := by
  rw [slices]

/-- The slices put together again are the byte string. -/
@[simp] theorem flatten_slices (n : Nat) (b : Bytes) :
    (slices n b).flatten = b := by
  fun_induction slices n b with
  | case1 => rfl
  | case2 b bs ih =>
      simp [ih]

/-- The ramp `0, 1, …, 250, 0, 1, …` of a given length. -/
def ramp (n : Nat) : Bytes :=
  (List.range n).map fun i => UInt8.ofNat (i % 251)

end Bytes
end Courier
