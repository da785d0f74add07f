/-!
# Decimal numerals

Unsigned decimal numerals below a bound.  One plus sign may stand in front; the
digits are read from left to right, and the first offence decides the fault.

**Results.** `scan_digit` and `scan_other` give the reading of one character, and
`read_eq_ok_iff` says which texts are numerals, and of which number.
-/

namespace Courier
namespace Decimal

/-- Why a text is no numeral below the bound. -/
inductive Fault
  | empty
  | invalidDigit
  | tooLarge
  deriving DecidableEq, Repr

def Fault.message : Fault → String
  | .empty => "cannot parse integer from empty string"
  | .invalidDigit => "invalid digit found in string"
  | .tooLarge => "number too large to fit in target type"

def digit? (c : Char) : Option Nat :=
  if '0' ≤ c ∧ c ≤ '9' then some (c.toNat - '0'.toNat) else none

/-- Reads the digits `cs` after a value `v`; each value stays below `bound`. -/
def scan (bound : Nat) : Nat → List Char → Except Fault Nat
  | v, [] => .ok v
  | v, c :: cs =>
      match digit? c with
      | none => .error .invalidDigit
      | some d =>
          if 10 * v + d < bound then scan bound (10 * v + d) cs
          else .error .tooLarge

/-- Reads an unsigned numeral below `bound`, with an optional plus sign. -/
def read (bound : Nat) : List Char → Except Fault Nat
  | [] => .error .empty
  | ['+'] => .error .invalidDigit
  | '+' :: cs => scan bound 0 cs
  | cs => scan bound 0 cs

@[simp] theorem scan_nil (bound v : Nat) :
    scan bound v [] = .ok v := by
  rfl

theorem scan_digit {bound v d : Nat} {c : Char} (cs : List Char)
    (hc : digit? c = some d) (hv : 10 * v + d < bound) :
    scan bound v (c :: cs) = scan bound (10 * v + d) cs := by
  simp [scan, hc, hv]

theorem scan_other {bound v : Nat} {c : Char} (cs : List Char)
    (hc : digit? c = none) :
    scan bound v (c :: cs) = .error .invalidDigit := by
  simp [scan, hc]

theorem digit?_eq (c : Char) :
    digit? c = if c.isDigit = true then some (c.toNat - '0'.toNat) else none := by
  unfold digit?
  congr 1
  rw [Char.isDigit, Bool.and_eq_true, decide_eq_true_iff, decide_eq_true_iff]
  rfl

/-- The digits that are left are read if their value, behind `v`, is below the bound. -/
theorem scan_eq_ok_iff {bound v n : Nat} {cs : List Char} (hv : v < bound) :
    scan bound v cs = .ok n ↔
      (∀ c ∈ cs, c.isDigit = true) ∧ Nat.ofDigitChars 10 cs v = n ∧ n < bound := by
  induction cs generalizing v with
  | nil =>
      rw [scan_nil, Nat.ofDigitChars_nil]
      constructor
      · intro h
        obtain rfl := Except.ok.inj h
        exact ⟨nofun, rfl, hv⟩
      · rintro ⟨_, rfl, _⟩
        rfl
  | cons c cs ih =>
      rw [List.forall_mem_cons, Nat.ofDigitChars_cons]
      have hdigit := digit?_eq c
      by_cases hc : c.isDigit = true
      · rw [if_pos hc] at hdigit
        by_cases hnext : 10 * v + (c.toNat - '0'.toNat) < bound
        · rw [scan_digit cs hdigit hnext, ih hnext]
          simp only [hc, true_and]
        · -- the value only grows
          rw [scan, hdigit]
          simp only [if_neg hnext]
          constructor
          · nofun
          · rintro ⟨_, hvalue, hn⟩
            rw [Nat.ofDigitChars_eq_ofDigitChars_zero] at hvalue
            have hgrows := Nat.le_mul_of_pos_left (10 * v + (c.toNat - '0'.toNat))
              (Nat.pow_pos (n := cs.length) (by decide : 0 < 10))
            omega
      · rw [if_neg hc] at hdigit
        rw [scan_other cs hdigit]
        constructor
        · nofun
        · rintro ⟨⟨hc', _⟩, _⟩
          exact absurd hc' hc

/-- One plus sign or none. -/
def sign : Bool → List Char
  | true => ['+']
  | false => []

/-- Numerals are digits behind one plus sign or none, with a value below the bound. -/
theorem read_eq_ok_iff {bound n : Nat} {cs : List Char} (hbound : 0 < bound) :
    read bound cs = .ok n ↔
      ∃ plus digits, cs = sign plus ++ digits ∧ digits ≠ [] ∧
        (∀ c ∈ digits, c.isDigit = true) ∧ Nat.ofDigitChars 10 digits 0 = n ∧ n < bound := by
  constructor
  · intro h
    unfold read at h
    split at h
    · cases h
    · cases h
    · rename_i digits hne
      exact ⟨true, digits, rfl, hne, (scan_eq_ok_iff hbound).mp h⟩
    · rename_i hne _ _
      exact ⟨false, cs, rfl, hne, (scan_eq_ok_iff hbound).mp h⟩
  · rintro ⟨plus, digits, rfl, hne, hdigits⟩
    have hscan := (scan_eq_ok_iff hbound).mpr hdigits
    cases digits with
    | nil => exact absurd rfl hne
    | cons c cs =>
      cases plus with
      | true => exact hscan
      | false =>
          have hc : c ≠ '+' := by
            rintro rfl
            exact absurd (hdigits.1 _ List.mem_cons_self) (by decide)
          rw [sign, List.nil_append, read]
          · exact hscan
          · nofun
          · intro h
            exact hc (List.cons.inj h).1
          · intro cs' h
            exact hc (List.cons.inj h).1

/-- The numbers of a 32-bit word. -/
def wordBound : Nat := 0x100000000

/-- The numbers of a 64-bit word. -/
def longBound : Nat := 0x10000000000000000

end Decimal
end Courier
