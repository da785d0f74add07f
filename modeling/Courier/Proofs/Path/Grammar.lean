import Courier.Path
import Mathlib.Data.List.Forall2
import Mathlib.Data.Nat.Bitwise
import Mathlib.Tactic

/-!
# The grammar of derivation paths

A path is the master key's `m` and at most ten components.  A component may be spelled in
many ways; the text that a path is written with is one of them, and the same for all
spellings.

* `Path.Spelling`: one component as a text spells it, `Path.Spelling.Means`: what it
  stands for, and `Path.Spelling.ofComponent`: how a component is written.
* `Path.parseComponent_eq_ok_iff`, `Path.parseComponents_eq_ok_iff`, `Path.parse_eq_ok_iff`:
  the texts that are read, level by level, and what is read.
* `Path.toList_text`, `Path.parse_text`: a path is written by the grammar, and read back.
* `Path.parse_grammar`: the grammar, and the text of a path as its canonical form.
-/

namespace Courier
namespace Path

/-- A component as a text spells it: digits with a value below 2³¹, perhaps a plus sign
before them, and perhaps an apostrophe behind them. -/
structure Spelling where
  plus : Bool
  digits : List Char
  apostrophe : Bool
  ne_nil : digits ≠ []
  isDigit : ∀ c ∈ digits, c.isDigit = true
  small : Nat.ofDigitChars 10 digits 0 < 2 ^ 31

namespace Spelling

def chars (w : Spelling) : List Char :=
  Decimal.sign w.plus ++ w.digits ++ if w.apostrophe then ['\''] else []

/-- The number that the digits give. -/
def value (w : Spelling) : Nat :=
  Nat.ofDigitChars 10 w.digits 0

/-- The component with this number below bit 31, and this bit set for an apostrophe. -/
def Means (w : Spelling) (c : UInt32) : Prop :=
  c.toNat % 2 ^ 31 = w.value ∧ c.toNat.testBit 31 = w.apostrophe

end Spelling

/-- The text of a path whose components are spelled so. -/
def spell (ws : List Spelling) : List Char :=
  'm' :: ws.flatMap fun w => '/' :: w.chars

theorem and_hardenedBit_eq_zero_iff (c : UInt32) :
    c &&& hardenedBit = 0 ↔ c.toNat.testBit 31 = false := by
  have hbit : hardenedBit.toNat = 2 ^ 31 := rfl
  rw [← UInt32.toNat_inj, UInt32.toNat_and, hbit, Nat.and_comm, Nat.two_pow_and]
  cases c.toNat.testBit 31 <;> simp

theorem toNat_and_not_hardenedBit (c : UInt32) :
    (c &&& ~~~hardenedBit).toNat = c.toNat % 2 ^ 31 := by
  have hrest : (~~~hardenedBit).toNat = 2 ^ 31 - 1 := rfl
  rw [UInt32.toNat_and, hrest, Nat.and_two_pow_sub_one_eq_mod]

theorem toNat_mod_of_testBit {c : UInt32} (h : c.toNat.testBit 31 = false) :
    c.toNat % 2 ^ 31 = c.toNat := by
  have hc := c.toNat_lt
  rw [Nat.testBit_eq_decide_div_mod_eq, decide_eq_false_iff_not] at h
  omega

namespace Spelling

/-- The component, as it is put together from what is read. -/
def component (w : Spelling) : UInt32 :=
  if w.apostrophe then UInt32.ofNat w.value ||| hardenedBit else UInt32.ofNat w.value

/-- There is one component that a spelling means. -/
theorem means_iff (w : Spelling) (c : UInt32) : w.Means c ↔ c = w.component := by
  have hbit : hardenedBit.toNat = 2 ^ 31 := rfl
  have hsmall : w.value < 2 ^ 31 := w.small
  have hvalue : (UInt32.ofNat w.value).toNat = w.value := by
    rw [UInt32.toNat_ofNat']
    omega
  have hc := c.toNat_lt
  rw [Means, component, Nat.testBit_eq_decide_div_mod_eq, ← UInt32.toNat_inj]
  cases w.apostrophe with
  | true =>
      rw [if_pos rfl, UInt32.toNat_or, hvalue, hbit, Nat.or_two_pow_eq_add_of_lt hsmall,
        decide_eq_true_iff]
      omega
  | false =>
      rw [if_neg Bool.false_ne_true, hvalue, decide_eq_false_iff_not]
      omega

theorem chars_ne_nil (w : Spelling) : w.chars ≠ [] := by
  simp [chars, w.ne_nil]

/-- No slash stands in a component. -/
theorem slash_not_mem_chars (w : Spelling) : '/' ∉ w.chars := by
  have hdigits : '/' ∉ w.digits := fun h => absurd (w.isDigit _ h) (by decide)
  cases hplus : w.plus <;> cases hmark : w.apostrophe <;>
    simp [chars, Decimal.sign, hplus, hmark, hdigits]

/-- A component spelled as it is written: without a plus sign and leading zeros. -/
def ofComponent (c : UInt32) : Spelling where
  plus := false
  digits := Nat.toDigits 10 (c.toNat % 2 ^ 31)
  apostrophe := c.toNat.testBit 31
  ne_nil := Nat.toDigits_ne_nil
  isDigit := fun _ h => Nat.isDigit_of_mem_toDigits (by decide) (by decide) h
  small := by
    rw [Nat.ofDigitChars_ten_toDigits]
    exact Nat.mod_lt _ (by decide)

theorem chars_ofComponent (c : UInt32) :
    (ofComponent c).chars = Nat.toDigits 10 (c.toNat % 2 ^ 31) ++
      if c.toNat.testBit 31 then ['\''] else [] := by
  rfl

theorem means_ofComponent (c : UInt32) : (ofComponent c).Means c :=
  ⟨Nat.ofDigitChars_ten_toDigits.symm, rfl⟩

/-- A component is written so behind its slash. -/
theorem toList_componentText (c : UInt32) :
    (componentText c).toList = '/' :: (ofComponent c).chars := by
  have hiff := and_hardenedBit_eq_zero_iff c
  rw [chars_ofComponent]
  unfold componentText
  cases hbit : c.toNat.testBit 31 with
  | false =>
      rw [if_pos (hiff.mpr hbit), toNat_mod_of_testBit hbit]
      simp
  | true =>
      have hmarked : c &&& hardenedBit ≠ 0 := fun h => by simp [hiff.mp h] at hbit
      rw [if_neg hmarked, toNat_and_not_hardenedBit]
      simp

end Spelling

/-- An apostrophe at the end of a component is taken off. -/
theorem exists_splitMark_eq (part : List Char) :
    ∃ numeral apostrophe, splitMark part = (numeral, apostrophe) ∧
      part = numeral ++ if apostrophe then ['\''] else [] := by
  unfold splitMark
  split
  · next digits hreverse =>
      have hpart := congrArg List.reverse hreverse
      rw [List.reverse_reverse, List.reverse_cons] at hpart
      exact ⟨_, _, rfl, hpart⟩
  · exact ⟨_, _, rfl, by simp⟩

theorem splitMark_append {digits : List Char} (apostrophe : Bool)
    (h : digits.getLast? ≠ some '\'') :
    splitMark (digits ++ if apostrophe then ['\''] else []) = (digits, apostrophe) := by
  cases apostrophe with
  | true => simp [splitMark]
  | false =>
      unfold splitMark
      split
      · next rest hreverse =>
          simp at hreverse
          simp [List.getLast?_eq_head?_reverse, hreverse] at h
      · simp

/-- The parts that are read as a component, and the component. -/
theorem parseComponent_eq_ok_iff (text : String) (part : List Char) (c : UInt32) :
    parseComponent text part = .ok c ↔ ∃ w : Spelling, part = w.chars ∧ w.Means c := by
  constructor
  · intro h
    obtain ⟨numeral, apostrophe, hsplit, hpart⟩ := exists_splitMark_eq part
    rw [parseComponent, hsplit] at h
    split at h
    · cases h
    · cases hread : Decimal.read Decimal.wordBound numeral with
      | error why => simp [hread] at h
      | ok index =>
          simp only [hread] at h
          obtain ⟨plus, digits, rfl, hne, hdigits, rfl, _⟩ :=
            (Decimal.read_eq_ok_iff (by decide)).mp hread
          split at h
          · cases h
          · next hsmall =>
              let w : Spelling :=
                ⟨plus, digits, apostrophe, hne, hdigits, Nat.lt_of_not_le hsmall⟩
              exact ⟨w, hpart, (w.means_iff c).mpr (Except.ok.inj h).symm⟩
  · rintro ⟨w, rfl, hmeans⟩
    have hlast : (Decimal.sign w.plus ++ w.digits).getLast? ≠ some '\'' := by
      rw [List.getLast?_append_of_ne_nil _ w.ne_nil]
      intro h
      exact absurd (w.isDigit _ (List.mem_of_getLast? h)) (by decide)
    have hsmall : w.value < 2 ^ 31 := w.small
    have hread : Decimal.read Decimal.wordBound (Decimal.sign w.plus ++ w.digits) =
        .ok w.value :=
      (Decimal.read_eq_ok_iff (by decide)).mpr
        ⟨w.plus, w.digits, rfl, w.ne_nil, w.isDigit, rfl, Nat.lt_trans hsmall (by decide)⟩
    have hempty : ¬w.chars.isEmpty = true := by
      rw [List.isEmpty_iff]
      exact w.chars_ne_nil
    have hindex : ¬hardenedBit.toNat ≤ w.value := Nat.not_le_of_lt hsmall
    have hsplit : splitMark w.chars = (Decimal.sign w.plus ++ w.digits, w.apostrophe) :=
      splitMark_append w.apostrophe hlast
    rw [parseComponent, if_neg hempty, hsplit]
    simp only [hread, if_neg hindex]
    rw [(w.means_iff c).mp hmeans, Spelling.component]

/-- The lists of parts that are read as components. -/
theorem parseComponents_eq_ok_iff (text : String) (parts : List (List Char))
    (components : List UInt32) :
    parseComponents text parts = .ok components ↔
      ∃ ws : List Spelling, parts = ws.map Spelling.chars ∧
        List.Forall₂ Spelling.Means ws components := by
  induction parts generalizing components with
  | nil =>
      constructor
      · intro h
        obtain rfl := Except.ok.inj h
        exact ⟨[], rfl, .nil⟩
      · rintro ⟨ws, hws, hmeans⟩
        obtain rfl := List.map_eq_nil_iff.mp hws.symm
        obtain rfl := List.forall₂_nil_left_iff.mp hmeans
        rfl
  | cons part parts ih =>
      constructor
      · intro h
        rw [parseComponents] at h
        cases hfirst : parseComponent text part with
        | error why => simp [hfirst] at h
        | ok c =>
            cases hrest : parseComponents text parts with
            | error why => simp [hfirst, hrest] at h
            | ok cs =>
                simp only [hfirst, hrest] at h
                obtain rfl := Except.ok.inj h
                obtain ⟨w, hw, hc⟩ := (parseComponent_eq_ok_iff text part c).mp hfirst
                obtain ⟨ws, hws, hcs⟩ := (ih cs).mp hrest
                exact ⟨w :: ws, by rw [hw, hws, List.map_cons], .cons hc hcs⟩
      · rintro ⟨ws, hws, hmeans⟩
        cases ws with
        | nil => cases hws
        | cons w ws =>
            obtain ⟨hw, hws⟩ := List.cons.inj hws
            cases hmeans with
            | cons hc hcs =>
                have hfirst := (parseComponent_eq_ok_iff text part _).mpr ⟨w, hw, hc⟩
                have hrest := (ih _).mpr ⟨ws, hws, hcs⟩
                simp only [parseComponents, hfirst, hrest]

/-- The parts of a path in the text of a path. -/
theorem split_eq_iff (ws : List Spelling) (cs : List Char) :
    Parts.split '/' cs = ['m'] :: ws.map Spelling.chars ↔ cs = spell ws := by
  have hjoin : Parts.join ['/'] (['m'] :: ws.map Spelling.chars) = spell ws := by
    simp [Parts.join, spell, List.flatMap_map]
  constructor
  · intro h
    rw [← Parts.join_split '/' cs, h, hjoin]
  · rintro rfl
    rw [← hjoin]
    refine Parts.split_join fun p hp => ?_
    rcases List.mem_cons.mp hp with rfl | hp
    · decide
    · obtain ⟨w, _, rfl⟩ := List.mem_map.mp hp
      exact w.slash_not_mem_chars

variable {text : String}

/-- What the reader of a path asks for, all at once. -/
theorem parse_eq_ok_iff_split (path : Path) :
    parse text = .ok path ↔ ∃ parts, Parts.split '/' text.toList = ['m'] :: parts ∧
      parseComponents text parts = .ok path.components ∧
      path.components.length ≤ maxDepth := by
  constructor
  · intro h
    unfold parse parse? at h
    split at h
    · cases h
    · next path' hpath =>
        obtain rfl := Except.ok.inj h
        split at hpath
        · next parts hsplit =>
            split at hpath
            · cases hpath
            · next components hread =>
                split at hpath
                · cases hpath
                · next hdepth =>
                    obtain rfl := Except.ok.inj hpath
                    exact ⟨parts, hsplit, hread, Nat.le_of_not_lt hdepth⟩
        · cases hpath
  · rintro ⟨parts, hsplit, hread, hdepth⟩
    simp only [parse, parse?, hsplit, hread, if_neg (Nat.not_lt_of_le hdepth)]

/-- The texts that are read as a path, and the path. -/
theorem parse_eq_ok_iff (path : Path) :
    parse text = .ok path ↔ ∃ ws, text.toList = spell ws ∧ ws.length ≤ maxDepth ∧
      List.Forall₂ Spelling.Means ws path.components := by
  rw [parse_eq_ok_iff_split]
  constructor
  · rintro ⟨parts, hsplit, hread, hdepth⟩
    obtain ⟨ws, rfl, hmeans⟩ := (parseComponents_eq_ok_iff text parts _).mp hread
    rw [← hmeans.length_eq] at hdepth
    exact ⟨ws, (split_eq_iff ws _).mp hsplit, hdepth, hmeans⟩
  · rintro ⟨ws, htext, hdepth, hmeans⟩
    rw [hmeans.length_eq] at hdepth
    exact ⟨_, (split_eq_iff ws _).mpr htext,
      (parseComponents_eq_ok_iff text _ _).mpr ⟨ws, rfl, hmeans⟩, hdepth⟩

/-- Every path is written by the grammar. -/
theorem toList_text (path : Path) :
    path.text.toList = spell (path.components.map Spelling.ofComponent) := by
  rw [Path.text, String.toList_append, String.toList_join, spell, List.flatMap_map,
    List.flatMap_map]
  simp only [Spelling.toList_componentText]
  rfl

theorem forall₂_means_ofComponent (components : List UInt32) :
    List.Forall₂ Spelling.Means (components.map Spelling.ofComponent) components := by
  rw [List.forall₂_map_left_iff, List.forall₂_same]
  exact fun c _ => Spelling.means_ofComponent c

/-- A path that is not too deep is read back from its text. -/
theorem parse_text {path : Path} (h : path.components.length ≤ maxDepth) :
    parse path.text = .ok path := by
  refine (parse_eq_ok_iff path).mpr ⟨_, toList_text path, ?_, forall₂_means_ofComponent _⟩
  rwa [List.length_map]

theorem length_of_parse {path : Path} (h : parse text = .ok path) :
    path.components.length ≤ maxDepth := by
  obtain ⟨ws, _, hdepth, hmeans⟩ := (parse_eq_ok_iff path).mp h
  rwa [hmeans.length_eq] at hdepth

/-- The texts that are read. -/
theorem exists_parse_eq_ok_iff :
    (∃ path, parse text = .ok path) ↔ ∃ ws, text.toList = spell ws ∧ ws.length ≤ maxDepth := by
  constructor
  · rintro ⟨path, h⟩
    obtain ⟨ws, htext, hdepth, _⟩ := (parse_eq_ok_iff path).mp h
    exact ⟨ws, htext, hdepth⟩
  · rintro ⟨ws, htext, hdepth⟩
    refine ⟨⟨ws.map Spelling.component⟩, (parse_eq_ok_iff _).mpr ⟨ws, htext, hdepth, ?_⟩⟩
    rw [List.forall₂_map_right_iff, List.forall₂_same]
    exact fun w _ => (w.means_iff _).mpr rfl

/-- A text that is not read is refused as no path. -/
theorem invalidPath_of_parse (h : ¬∃ path, parse text = .ok path) :
    ∃ why, parse text = .error (.invalidPath why) := by
  rw [parse] at h ⊢
  cases hread : parse? text with
  | error why => exact ⟨why, rfl⟩
  | ok path =>
      rw [hread] at h
      exact absurd ⟨path, rfl⟩ h

/-- **The grammar of derivation paths.**  A text is read exactly if it is the master key
and at most ten spelled components, as the path of what these mean; any other text is
refused as no path.  The text of a path that is read is read as this path, and paths that
are read are equal exactly if their texts are. -/
theorem parse_grammar (text : String) :
    (∀ path, parse text = .ok path ↔ ∃ ws, text.toList = spell ws ∧ ws.length ≤ 10 ∧
      List.Forall₂ Spelling.Means ws path.components) ∧
    ((∃ path, parse text = .ok path) ↔ ∃ ws, text.toList = spell ws ∧ ws.length ≤ 10) ∧
    ((¬∃ ws, text.toList = spell ws ∧ ws.length ≤ 10) →
      ∃ why, parse text = .error (.invalidPath why)) ∧
    ∀ path, parse text = .ok path →
      parse path.text = .ok path ∧
      ∀ other path', parse other = .ok path' → (path = path' ↔ path.text = path'.text) := by
  refine ⟨parse_eq_ok_iff, exists_parse_eq_ok_iff,
    fun h => invalidPath_of_parse (mt exists_parse_eq_ok_iff.mp h), fun path hpath => ?_⟩
  have hback := parse_text (length_of_parse hpath)
  refine ⟨hback, fun other path' hother => ⟨congrArg Path.text, fun htext => ?_⟩⟩
  rw [htext, parse_text (length_of_parse hother)] at hback
  exact (Except.ok.inj hback).symm

/-- A path in two spellings, another path, and a text that is none. -/
theorem parse_grammar_of_two_spellings :
    let path : Path := ⟨[0x8000002C, 1]⟩
    let soft : Path := ⟨[44, 1]⟩
    parse "m/+044'/1" = .ok path ∧ parse "m/44'/01" = .ok path ∧ parse "m/44/1" = .ok soft ∧
    (¬∃ ws, "m/x".toList = spell ws ∧ ws.length ≤ 10) ∧
    parse path.text = .ok path ∧ (path = soft ↔ path.text = soft.text) ∧
    ∃ why, parse "m/x" = .error (.invalidPath why) := by
  intro path soft
  have hplus : parse "m/+044'/1" = .ok path := by decide +kernel
  have hzero : parse "m/44'/01" = .ok path := by decide +kernel
  have hsoft : parse "m/44/1" = .ok soft := by decide +kernel
  have herror : parse "m/x" = .error (.invalidPath (.badIndex "m/x" "x" .invalidDigit)) := by
    decide +kernel
  obtain ⟨_, haccepted, hrefused, _⟩ := parse_grammar "m/x"
  obtain ⟨hback, hcanonical⟩ := (parse_grammar "m/+044'/1").2.2.2 path hplus
  have hnone : ¬∃ ws, "m/x".toList = spell ws ∧ ws.length ≤ 10 := by
    intro h
    obtain ⟨path, hpath⟩ := haccepted.mpr h
    rw [herror] at hpath
    cases hpath
  exact ⟨hplus, hzero, hsoft, hnone, hback, hcanonical _ soft hsoft, hrefused hnone⟩

end Path
end Courier
