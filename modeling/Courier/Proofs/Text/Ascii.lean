import Courier.Text.Utf8
import Mathlib.Tactic

/-!
# Text below 0x80

The bytes of a text determine it.  Below 0x80 a byte is a whole character: texts of
such characters are written with one byte for each, and such bytes are always read.

* `Utf8.encode_eq`: the bytes of a text, character by character, and
  `Utf8.encode_injective`.
* `Utf8.encode_ofList`: the bytes of characters below 0x80.
* `Utf8.exists_decode_eq_ok`: bytes below 0x80 are those of the text that is read.
-/

namespace Courier
namespace Utf8

theorem toNat_ofNat {n : Nat} (h : n < 0x80) : (Char.ofNat n).toNat = n := by
  have hvalid : n.isValidChar := Or.inl (by omega)
  rw [Char.ofNat, dif_pos hvalid]
  rfl

/-- The bytes that are left are listed behind those that are listed already. -/
theorem toList_loop {b : ByteArray} {rest : Bytes} {i : Nat} (listed : Bytes)
    (hrest : b.data.toList.drop i = rest) :
    ByteArray.toList.loop b i listed = listed.reverse ++ rest := by
  induction rest generalizing i listed with
  | nil =>
      have hend : ¬ i < b.size := Nat.not_lt.mpr (List.drop_eq_nil_iff.mp hrest)
      rw [ByteArray.toList.loop, if_neg hend, List.append_nil]
  | cons x rest ih =>
      have hlt : i < b.size := by
        by_contra hge
        rw [List.drop_eq_nil_of_le (Nat.not_lt.mp hge)] at hrest
        cases hrest
      rw [List.drop_eq_getElem_cons hlt] at hrest
      obtain ⟨hfirst, hnext⟩ := List.cons.inj hrest
      have hget : b.get! i = x := by
        rw [← hfirst]
        exact getElem!_pos b.data i hlt
      rw [ByteArray.toList.loop, if_pos hlt, hget, ih (x :: listed) hnext,
        List.reverse_cons, List.append_assoc]
      rfl

theorem toList_eq (b : ByteArray) : b.toList = b.data.toList :=
  toList_loop [] (List.drop_zero)

/-- The bytes of a text are those of its characters. -/
theorem encode_eq (s : String) : encode s = s.toList.flatMap String.utf8EncodeChar := by
  have hbytes : s.toUTF8 = (s.toList.flatMap String.utf8EncodeChar).toByteArray := by
    rw [String.toUTF8_eq_toByteArray, ← List.utf8Encode, ← String.toByteArray_ofList,
      String.ofList_toList]
  rw [encode, hbytes, toList_eq, List.toList_data_toByteArray]

/-- Different texts have different bytes. -/
theorem encode_injective : Function.Injective encode := by
  intro s t h
  rw [encode, encode, toList_eq, toList_eq, Array.toList_inj] at h
  exact String.toByteArray_inj.mp (ByteArray.ext h)

/-- A character below 0x80 is one byte. -/
theorem utf8EncodeChar_of_lt {c : Char} (h : c.toNat < 0x80) :
    String.utf8EncodeChar c = [UInt8.ofNat c.toNat] := by
  have hsize : c.utf8Size = 1 := by
    rw [Char.utf8Size_eq_one_iff, UInt32.le_iff_toNat_le]
    exact Nat.le_of_lt_succ h
  exact String.utf8EncodeChar_eq_singleton hsize

/-- Characters below 0x80 are written with one byte for each. -/
theorem encode_ofList {cs : List Char} (h : ∀ c ∈ cs, c.toNat < 0x80) :
    encode (String.ofList cs) = cs.map fun c => UInt8.ofNat c.toNat := by
  rw [encode_eq, String.toList_ofList]
  induction cs with
  | nil => rfl
  | cons c cs ih =>
      rw [List.forall_mem_cons] at h
      rw [List.flatMap_cons, utf8EncodeChar_of_lt h.1, ih h.2]
      rfl

/-- Bytes below 0x80 are read as one character each. -/
theorem decodeFrom_of_lt {b : Bytes} (h : ∀ x ∈ b, x < 0x80) (index : Nat) :
    decodeFrom index b = .ok (b.map fun x => Char.ofNat x.toNat) := by
  induction b generalizing index with
  | nil => rfl
  | cons x b ih =>
      rw [List.forall_mem_cons] at h
      unfold decodeFrom
      rw [if_pos h.1, ih h.2]
      rfl

/-- Bytes below 0x80 are those of the text that is read from them. -/
theorem exists_decode_eq_ok {b : Bytes} (h : ∀ x ∈ b, x < 0x80) :
    ∃ s, decode b = .ok s ∧ encode s = b := by
  have hlt : ∀ x ∈ b, x.toNat < 0x80 := fun x hx => UInt8.lt_iff_toNat_lt.mp (h x hx)
  have hsmall : ∀ c ∈ b.map fun x => Char.ofNat x.toNat, c.toNat < 0x80 := by
    intro c hc
    obtain ⟨x, hx, rfl⟩ := List.mem_map.mp hc
    rw [toNat_ofNat (hlt x hx)]
    exact hlt x hx
  refine ⟨String.ofList (b.map fun x => Char.ofNat x.toNat), ?_, ?_⟩
  · rw [decode, decodeFrom_of_lt h]
    rfl
  · rw [encode_ofList hsmall, List.map_map]
    refine (List.map_congr_left fun x hx => ?_).trans (List.map_id' b)
    rw [Function.comp_apply, toNat_ofNat (hlt x hx), UInt8.ofNat_toNat]

end Utf8
end Courier
