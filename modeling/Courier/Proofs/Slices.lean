import Courier.Bytes
import Mathlib.Algebra.Order.Floor.Div
import Mathlib.Tactic

/-!
# Numbers and slices in byte strings

A number comes back from its bytes if they are enough for it.  How many slices a byte
string has, how long they are, and when a list of pieces is the cut of its own
concatenation.

* `Bytes.toNatLE_ofNatLE`, `Bytes.toNatBE_ofNatBE`: a number that fits is read back, and
  `Bytes.ofNatLE_toNatLE`: so are the bytes of a number.
* `Bytes.length_slices`: the number of slices is the length over the size,
  rounded up.
* `Bytes.length_le_of_mem_slices`: no slice is longer than the size, and
  `Bytes.length_of_mem_slices`: none is shorter if the length is a whole number of them.
* `Bytes.slices_flatten_append`, `Bytes.slices_flatten`: pieces of the full size are the
  first slices, or all of them, of what they spell.
* `Bytes.exists_slices_eq`: all slices but the last are full.
* `Bytes.slices_eq_iff`: when two cuts are the same.
-/

namespace Courier
namespace Bytes

/-- A number that fits is read back. -/
theorem toNatLE_ofNatLE {w n : Nat} (h : n < 256 ^ w) :
    toNatLE (ofNatLE w n) = n := by
  induction w generalizing n with
  | zero =>
      have hzero : n = 0 := by simpa using h
      rw [hzero]
      rfl
  | succ w ih =>
      have hrest : n / 256 < 256 ^ w := by
        rw [Nat.pow_succ] at h
        omega
      have hdigit : (UInt8.ofNat (n % 256)).toNat = n % 256 := by
        rw [UInt8.toNat_ofNat']
        omega
      rw [ofNatLE, toNatLE, ih hrest, hdigit]
      omega

/-- A number is one of those that its bytes are enough for. -/
theorem toNatLE_lt (b : Bytes) : toNatLE b < 256 ^ b.length := by
  induction b with
  | nil => exact Nat.one_pos
  | cons x xs ih =>
      have hx := x.toNat_lt
      rw [toNatLE, List.length_cons, Nat.pow_succ]
      omega

/-- Bytes are read back from their number. -/
theorem ofNatLE_toNatLE (b : Bytes) : ofNatLE b.length (toNatLE b) = b := by
  induction b with
  | nil => rfl
  | cons x xs ih =>
      have hx := x.toNat_lt
      have hdigit : (x.toNat + 256 * toNatLE xs) % 256 = x.toNat := by omega
      have hrest : (x.toNat + 256 * toNatLE xs) / 256 = toNatLE xs := by omega
      rw [List.length_cons, toNatLE, ofNatLE, hdigit, hrest, ih, UInt8.ofNat_toNat]

theorem toNatBE_ofNatBE {w n : Nat} (h : n < 256 ^ w) :
    toNatBE (ofNatBE w n) = n := by
  rw [toNatBE, ofNatBE, List.reverse_reverse, toNatLE_ofNatLE h]

variable {n : Nat}

/-- A byte string that is not empty is cut behind its first `n` bytes. -/
theorem slices_of_ne_nil (hn : 0 < n) {b : Bytes} (hb : b ≠ []) :
    slices n b = b.take n :: slices n (b.drop n) := by
  obtain ⟨m, rfl⟩ : ∃ m, n = m + 1 := ⟨n - 1, by omega⟩
  cases b with
  | nil => exact absurd rfl hb
  | cons x xs => simp [slices_cons]

/-- The rounded-up quotient, one step of `n` at a time. -/
theorem ceilDiv_step (hn : 0 < n) {k : Nat} (hk : 0 < k) :
    (k - n) ⌈/⌉ n + 1 = k ⌈/⌉ n := by
  rw [Nat.ceilDiv_eq_add_pred_div, Nat.ceilDiv_eq_add_pred_div]
  by_cases hle : n ≤ k
  · have hsum : k + n - 1 = (k - n + n - 1) + n := by omega
    rw [hsum, Nat.add_div_right _ hn]
  · have hzero : k - n = 0 := by omega
    have hone : (k + n - 1) / n = 1 := by
      apply Nat.div_eq_of_lt_le <;> omega
    have hnone : (0 + n - 1) / n = 0 := Nat.div_eq_of_lt (by omega)
    rw [hzero, hone, hnone]

/-- More than `n` items take one more piece than they do without the first `n`, also
when at least one piece is asked for. -/
theorem max_ceilDiv_step (hn : 0 < n) {k : Nat} (hk : n < k) :
    max 1 (k ⌈/⌉ n) = max 1 ((k - n) ⌈/⌉ n) + 1 := by
  have hstep := ceilDiv_step hn (by omega : 0 < k)
  have hnext := ceilDiv_step hn (by omega : 0 < k - n)
  omega

theorem max_ceilDiv_of_le (hn : 0 < n) {k : Nat} (hk : k ≤ n) :
    max 1 (k ⌈/⌉ n) = 1 := by
  have hle : k ⌈/⌉ n ≤ 1 := (ceilDiv_le_iff_le_mul hn).mpr (by omega)
  omega

/-- The number of slices is the length over the size, rounded up. -/
theorem length_slices (hn : 0 < n) (b : Bytes) :
    (slices n b).length = b.length ⌈/⌉ n := by
  induction hb : b.length using Nat.strong_induction_on generalizing b with
  | _ k ih =>
      by_cases hnil : b = []
      · subst hnil
        simp [← hb]
      · have hpos : 0 < k := hb ▸ List.length_pos_of_ne_nil hnil
        have hdrop : (b.drop n).length = k - n := by
          rw [List.length_drop, hb]
        rw [slices_of_ne_nil hn hnil, List.length_cons,
          ih (k - n) (by omega) _ hdrop, ceilDiv_step hn hpos]

/-- No slice is longer than the size. -/
theorem length_le_of_mem_slices (hn : 0 < n) (b : Bytes) :
    ∀ s ∈ slices n b, s.length ≤ n := by
  fun_induction slices n b with
  | case1 => simp
  | case2 x xs ih =>
      intro s hs
      rcases List.mem_cons.mp hs with rfl | hs
      · rw [List.length_cons, List.length_take]
        omega
      · exact ih s hs

/-- Pieces of the full size are the first slices of what they spell. -/
theorem slices_flatten_append (hn : 0 < n) (pieces : List Bytes)
    (hfull : ∀ p ∈ pieces, p.length = n) (rest : Bytes) :
    slices n (pieces.flatten ++ rest) = pieces ++ slices n rest := by
  induction pieces with
  | nil => rfl
  | cons p later ih =>
      have hp : p.length = n := hfull p List.mem_cons_self
      have hlater := ih fun q hq => hfull q (List.mem_cons_of_mem _ hq)
      have hne : p ++ (later.flatten ++ rest) ≠ [] := by
        refine List.ne_nil_of_length_pos ?_
        rw [List.length_append]
        omega
      rw [List.flatten_cons, List.append_assoc, slices_of_ne_nil hn hne, ← hp,
        List.take_left, List.drop_left, hp, hlater, List.cons_append]

/-- Pieces of the full size are all the slices of what they spell. -/
theorem slices_flatten (hn : 0 < n) (pieces : List Bytes)
    (hfull : ∀ p ∈ pieces, p.length = n) : slices n pieces.flatten = pieces := by
  have hnothing := slices_flatten_append hn pieces hfull []
  rwa [List.append_nil, slices_nil, List.append_nil] at hnothing

/-- If the length is a whole number of slices, every slice is full. -/
theorem length_of_mem_slices (hn : 0 < n) {b : Bytes} (hwhole : n ∣ b.length) :
    ∀ s ∈ slices n b, s.length = n := by
  induction hb : b.length using Nat.strong_induction_on generalizing b with
  | _ k ih =>
      by_cases hnil : b = []
      · subst hnil
        simp
      · have hpos : 0 < b.length := List.length_pos_of_ne_nil hnil
        have hle : n ≤ b.length := Nat.le_of_dvd hpos hwhole
        have hrest : n ∣ (b.drop n).length := by
          rw [List.length_drop]
          exact Nat.dvd_sub hwhole (Nat.dvd_refl n)
        intro s hs
        rw [slices_of_ne_nil hn hnil] at hs
        rcases List.mem_cons.mp hs with rfl | hs
        · rw [List.length_take]
          omega
        · have hshorter : (b.drop n).length < k := by
            rw [List.length_drop]
            omega
          exact ih _ hshorter hrest rfl s hs

/-- A byte string that fits one slice is its only slice. -/
theorem slices_of_length_le (hn : 0 < n) {b : Bytes} (hb : b ≠ [])
    (hle : b.length ≤ n) : slices n b = [b] := by
  rw [slices_of_ne_nil hn hb, List.take_of_length_le hle,
    List.drop_eq_nil_of_le hle, slices_nil]

/-- All slices but the last are full, and the last one is not empty. -/
theorem exists_slices_eq (hn : 0 < n) {b : Bytes} (hb : b ≠ []) :
    ∃ full last, slices n b = full ++ [last] ∧ (∀ s ∈ full, s.length = n) ∧
      1 ≤ last.length ∧ last.length ≤ n := by
  induction hlength : b.length using Nat.strong_induction_on generalizing b with
  | _ k ih =>
      have hpos : 0 < b.length := List.length_pos_of_ne_nil hb
      by_cases hfits : b.length ≤ n
      · exact ⟨[], b, slices_of_length_le hn hb hfits, nofun, hpos, hfits⟩
      · have hrest : (b.drop n).length = k - n := by
          rw [List.length_drop, hlength]
        have hne : b.drop n ≠ [] := List.ne_nil_of_length_pos (by omega)
        obtain ⟨full, last, hslices, hfull, hlast⟩ := ih (k - n) (by omega) hne hrest
        refine ⟨b.take n :: full, last, ?_, ?_, hlast⟩
        · rw [slices_of_ne_nil hn hb, hslices, List.cons_append]
        · refine List.forall_mem_cons.mpr ⟨?_, hfull⟩
          rw [List.length_take]
          omega

/-- Two cuts are the same when the byte strings are, and either the sizes are or
neither cuts at all. -/
theorem slices_eq_iff {m : Nat} (hm : 0 < m) (hn : 0 < n) (b c : Bytes) :
    slices m b = slices n c ↔ b = c ∧ (m = n ∨ b.length ≤ min m n) := by
  constructor
  · intro h
    have hspelled : b = c := by
      rw [← flatten_slices m b, h, flatten_slices]
    subst hspelled
    refine ⟨rfl, ?_⟩
    by_cases hnil : b = []
    · right
      simp [hnil]
    · -- the first slices tell the sizes apart
      rw [slices_of_ne_nil hm hnil, slices_of_ne_nil hn hnil] at h
      have hfirst := congrArg List.length (List.cons.inj h).1
      rw [List.length_take, List.length_take] at hfirst
      omega
  · rintro ⟨rfl, rfl | hle⟩
    · rfl
    · by_cases hnil : b = []
      · simp [hnil]
      · rw [slices_of_length_le hm hnil (by omega),
          slices_of_length_le hn hnil (by omega)]

end Bytes
end Courier
