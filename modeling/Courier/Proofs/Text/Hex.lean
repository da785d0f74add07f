import Courier.Text.Hex
import Courier.Proofs.Text.Ascii
import Mathlib.Data.String.Basic
import Mathlib.Tactic

/-!
# Lower-case hexadecimal

Two digits stand for a byte: its quotient by sixteen and the remainder.  The digits of a
byte string are read back, so they determine it, and they are in order as the bytes are.

* `Hex.decodeLower?_encode`: what is written is read back.
* `Hex.digits_injective`: the digits determine the bytes.
* `Hex.isDigit_of_mem_digits`: every character written is a lower-case digit.
* `Hex.encode_lt_encode_iff`: texts are in order as the bytes are.
-/

namespace Courier
namespace Hex

/-- A lower-case digit. -/
def IsDigit (c : Char) : Prop :=
  '0' ≤ c ∧ c ≤ '9' ∨ 'a' ≤ c ∧ c ≤ 'f'

section Digit

variable {m n : UInt8}

theorem toNat_digit (hn : n < 16) :
    (digit n).toNat = if n < 10 then 48 + n.toNat else 87 + n.toNat := by
  have hlt : n.toNat < 16 := UInt8.lt_iff_toNat_lt.mp hn
  unfold digit
  split_ifs
  · exact Utf8.toNat_ofNat (by omega)
  · exact Utf8.toNat_ofNat (by omega)

theorem toNat_digit_lt (hn : n < 16) : (digit n).toNat < 0x80 := by
  have hlt : n.toNat < 16 := UInt8.lt_iff_toNat_lt.mp hn
  rw [toNat_digit hn]
  split_ifs <;> omega

theorem isDigit_digit (hn : n < 16) : IsDigit (digit n) := by
  have hcode : ∀ c d : Char, c ≤ d ↔ c.toNat ≤ d.toNat := fun c d => Iff.rfl
  have hlt : n.toNat < 16 := UInt8.lt_iff_toNat_lt.mp hn
  simp only [IsDigit, hcode, toNat_digit hn, UInt8.lt_iff_toNat_lt, UInt8.reduceToNat,
    Char.reduceToNat]
  split_ifs <;> omega

/-- A digit stands for its value. -/
theorem lowerValue?_digit (hn : n < 16) :
    lowerValue? (UInt8.ofNat (digit n).toNat) = some n := by
  have hall : ∀ k : Fin 16,
      lowerValue? (UInt8.ofNat (digit (UInt8.ofNat k)).toNat) = some (UInt8.ofNat k) := by
    decide
  have hvalue := hall ⟨n.toNat, UInt8.lt_iff_toNat_lt.mp hn⟩
  rwa [UInt8.ofNat_toNat] at hvalue

/-- Digits are in order as their values are. -/
theorem digit_lt_digit_iff (hm : m < 16) (hn : n < 16) : digit m < digit n ↔ m < n := by
  have hcode : digit m < digit n ↔ (digit m).toNat < (digit n).toNat := Iff.rfl
  rw [hcode, toNat_digit hm, toNat_digit hn]
  simp only [UInt8.lt_iff_toNat_lt, UInt8.reduceToNat] at hm hn ⊢
  split_ifs <;> omega

theorem digit_eq_digit_iff (hm : m < 16) (hn : n < 16) : digit m = digit n ↔ m = n := by
  constructor
  · intro h
    have hvalue := lowerValue?_digit hm
    rw [h, lowerValue?_digit hn] at hvalue
    exact (Option.some.inj hvalue).symm
  · rintro rfl
    rfl

end Digit

section Byte

variable (x y : UInt8)

theorem div_lt_sixteen : x / 16 < 16 := by
  have hx := x.toNat_lt
  rw [UInt8.lt_iff_toNat_lt, UInt8.toNat_div]
  exact Nat.div_lt_of_lt_mul hx

theorem mod_lt_sixteen : x % 16 < 16 := by
  rw [UInt8.lt_iff_toNat_lt, UInt8.toNat_mod]
  exact Nat.mod_lt _ (by decide)

theorem div_mul_add_mod : x / 16 * 16 + x % 16 = x := by
  have hx := x.toNat_lt
  apply UInt8.toNat.inj
  simp only [UInt8.toNat_add, UInt8.toNat_mul, UInt8.toNat_div, UInt8.toNat_mod,
    UInt8.reduceToNat]
  omega

/-- Bytes are in order as their quotients are, and behind these their remainders. -/
theorem div_mod_lt_iff : x / 16 < y / 16 ∨ x / 16 = y / 16 ∧ x % 16 < y % 16 ↔ x < y := by
  simp only [← UInt8.toNat_inj, UInt8.lt_iff_toNat_lt, UInt8.toNat_div, UInt8.toNat_mod,
    UInt8.reduceToNat]
  omega

theorem div_mod_eq_iff : x / 16 = y / 16 ∧ x % 16 = y % 16 ↔ x = y := by
  simp only [← UInt8.toNat_inj, UInt8.toNat_div, UInt8.toNat_mod, UInt8.reduceToNat]
  omega

end Byte

theorem forall_mem_digits {p : Char → Prop} (h : ∀ n : UInt8, n < 16 → p (digit n))
    (b : Bytes) : ∀ c ∈ digits b, p c := by
  induction b with
  | nil => nofun
  | cons x xs ih =>
      rw [digits, List.forall_mem_cons, List.forall_mem_cons]
      exact ⟨h _ (div_lt_sixteen x), h _ (mod_lt_sixteen x), ih⟩

/-- Every character written is a lower-case digit. -/
theorem isDigit_of_mem_digits (b : Bytes) : ∀ c ∈ digits b, IsDigit c :=
  forall_mem_digits (fun _ => isDigit_digit) b

/-- The codes of the digits of bytes are read back. -/
theorem decodeLower?_digits (b : Bytes) :
    decodeLower? ((digits b).map fun c => UInt8.ofNat c.toNat) = some b := by
  induction b with
  | nil => rfl
  | cons x xs ih =>
      rw [digits, List.map_cons, List.map_cons, decodeLower?,
        lowerValue?_digit (div_lt_sixteen x), lowerValue?_digit (mod_lt_sixteen x)]
      dsimp only
      rw [ih, Option.map_some, div_mul_add_mod]

/-- What is written is read back. -/
theorem decodeLower?_encode (b : Bytes) : decodeLower? (Utf8.encode (encode b)) = some b := by
  have hsmall := forall_mem_digits (p := fun c => c.toNat < 0x80) (fun _ => toNat_digit_lt) b
  rw [encode, Utf8.encode_ofList hsmall, decodeLower?_digits]

/-- The digits determine the bytes. -/
theorem digits_injective : Function.Injective digits := by
  intro b c h
  have hread := decodeLower?_digits b
  rw [h, decodeLower?_digits] at hread
  exact (Option.some.inj hread).symm

/-- Digits are in order as the bytes are. -/
theorem digits_lt_digits_iff (b c : Bytes) : digits b < digits c ↔ b < c := by
  induction b generalizing c with
  | nil =>
      cases c with
      | nil => exact iff_of_false (List.not_lt_nil _) (List.not_lt_nil _)
      | cons y ys => exact iff_of_true (List.nil_lt_cons _ _) (List.nil_lt_cons _ _)
  | cons x xs ih =>
      cases c with
      | nil => exact iff_of_false (List.not_lt_nil _) (List.not_lt_nil _)
      | cons y ys =>
          rw [digits, digits, List.cons_lt_cons_iff, List.cons_lt_cons_iff,
            List.cons_lt_cons_iff, ih,
            digit_lt_digit_iff (div_lt_sixteen x) (div_lt_sixteen y),
            digit_lt_digit_iff (mod_lt_sixteen x) (mod_lt_sixteen y),
            digit_eq_digit_iff (div_lt_sixteen x) (div_lt_sixteen y),
            digit_eq_digit_iff (mod_lt_sixteen x) (mod_lt_sixteen y),
            and_or_left, ← or_assoc, ← and_assoc, div_mod_lt_iff, div_mod_eq_iff]

/-- Texts are in order as the bytes are. -/
theorem encode_lt_encode_iff (b c : Bytes) : encode b < encode c ↔ b < c := by
  rw [String.lt_iff_toList_lt, encode, encode, String.toList_ofList, String.toList_ofList,
    digits_lt_digits_iff]

end Hex
end Courier
