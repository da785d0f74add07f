import Courier.Proofs.Signer.Acceptance
import Courier.Proofs.Text.Ascii

/-!
# Which answers are read

The answer to a request for a key is two fields, each behind its length in one byte, and
nothing else; none is the front of another one.  The answer to a request for the version is
three bytes and a name in bytes below 0x80.  All other answers are breaches of the protocol.

* `Field.counted_eq_ok_iff`: a field behind its length.
* `KeyAnswer.Fits`, `KeyAnswer.encode`: keys that have an answer, and the answer;
  `KeyAnswer.parse_eq_ok_iff`, `KeyAnswer.eq_of_isPrefix`, `KeyAnswer.refused_of_isPrefix`.
* `AppVersion.Readable`: the answers with a version; `AppVersion.parse_eq_ok_iff`,
  `AppVersion.protocol_of_not_readable`.
* `Client.answers_are_exact`: both kinds of answers.
-/

namespace Courier

namespace Field

variable {b field rest : Bytes}

/-- A field is split off exactly from behind its own length in one byte. -/
theorem counted_eq_ok_iff :
    counted b = .ok (field, rest) ↔ field.length ≤ 255 ∧ b = encodeCounted field ++ rest := by
  constructor
  · intro h
    cases b with
    | nil => cases h
    | cons n b =>
        rw [counted, sized] at h
        split at h
        · cases h
        · next hlong =>
            obtain ⟨rfl, rfl⟩ := Prod.mk.inj (Except.ok.inj h)
            have hn := n.toNat_lt
            have hlength : (b.take n.toNat).length = n.toNat := by
              rw [List.length_take]
              omega
            refine ⟨by omega, ?_⟩
            rw [encodeCounted, hlength, UInt8.ofNat_toNat, List.cons_append,
              List.take_append_drop]
  · rintro ⟨hshort, rfl⟩
    exact counted_encodeCounted (by omega) rest

theorem protocol_of_counted_error {e : Failure} (h : counted b = .error e) :
    ∃ why, e = .protocol why := by
  cases b with
  | nil => exact ⟨_, (Except.error.inj h).symm⟩
  | cons n b =>
      rw [counted, sized] at h
      split at h
      · exact ⟨_, (Except.error.inj h).symm⟩
      · cases h

/-- The front of a byte string is at most one field behind its length. -/
theorem encodeCounted_append_inj {field' rest' : Bytes} (hfield : field.length ≤ 255)
    (hfield' : field'.length ≤ 255)
    (h : encodeCounted field ++ rest = encodeCounted field' ++ rest') :
    field = field' ∧ rest = rest' := by
  have hread : counted (encodeCounted field ++ rest) = .ok (field, rest) :=
    counted_eq_ok_iff.mpr ⟨hfield, rfl⟩
  rw [h, counted_eq_ok_iff.mpr ⟨hfield', rfl⟩] at hread
  obtain ⟨hsame, hbehind⟩ := Prod.mk.inj (Except.ok.inj hread)
  exact ⟨hsame.symm, hbehind.symm⟩

end Field

namespace KeyAnswer

/-- The length of each of the fields fits one byte. -/
structure Fits (a : KeyAnswer) : Prop where
  publicKey : a.publicKey.length ≤ 255
  chainCode : a.chainCode.length ≤ 255

/-- The two fields, each behind its length. -/
def encode (a : KeyAnswer) : Bytes :=
  Field.encodeCounted a.publicKey ++ Field.encodeCounted a.chainCode

variable {r other : Bytes} {a b : KeyAnswer}

/-- An answer is read exactly if it is the encoding of what is read. -/
theorem parse_eq_ok_iff : parse r = .ok a ↔ a.Fits ∧ r = a.encode := by
  constructor
  · intro h
    unfold parse at h
    split at h
    · cases h
    · next publicKey behind hkey =>
        split at h
        · cases h
        · next chainCode left hcode =>
            split at h
            · next hnone =>
                obtain rfl := Except.ok.inj h
                obtain ⟨hkeyFits, rfl⟩ := Field.counted_eq_ok_iff.mp hkey
                obtain ⟨hcodeFits, rfl⟩ := Field.counted_eq_ok_iff.mp hcode
                obtain rfl := List.isEmpty_iff.mp hnone
                refine ⟨⟨hkeyFits, hcodeFits⟩, ?_⟩
                rw [encode, List.append_nil]
            · cases h
  · rintro ⟨⟨hkeyFits, hcodeFits⟩, rfl⟩
    have hkey : Field.counted a.encode = .ok (a.publicKey, Field.encodeCounted a.chainCode) :=
      Field.counted_eq_ok_iff.mpr ⟨hkeyFits, rfl⟩
    have hcode : Field.counted (Field.encodeCounted a.chainCode) = .ok (a.chainCode, []) :=
      Field.counted_eq_ok_iff.mpr ⟨hcodeFits, (List.append_nil _).symm⟩
    simp only [parse, hkey, hcode]
    rfl

/-- An answer that is not read is a breach of the protocol. -/
theorem protocol_of_parse_error {e : Failure} (h : parse r = .error e) :
    ∃ why, e = .protocol why := by
  unfold parse at h
  split at h
  · next hkey =>
      obtain rfl := Except.error.inj h
      exact Field.protocol_of_counted_error hkey
  · split at h
    · next hcode =>
        obtain rfl := Except.error.inj h
        exact Field.protocol_of_counted_error hcode
    · split at h
      · cases h
      · exact ⟨_, (Except.error.inj h).symm⟩

/-- No encoding is the front of another one. -/
theorem eq_of_isPrefix (ha : a.Fits) (hb : b.Fits) (h : a.encode <+: b.encode) : a = b := by
  obtain ⟨behind, h⟩ := h
  rw [encode, encode, List.append_assoc] at h
  obtain ⟨hkey, hrest⟩ := Field.encodeCounted_append_inj ha.publicKey hb.publicKey h
  rw [← List.append_nil (Field.encodeCounted b.chainCode)] at hrest
  obtain ⟨hcode, _⟩ := Field.encodeCounted_append_inj ha.chainCode hb.chainCode hrest
  cases a
  cases b
  rw [KeyAnswer.mk.injEq]
  exact ⟨hkey, hcode⟩

/-- An answer that is cut short or has more behind it is refused. -/
theorem refused_of_isPrefix (h : parse r = .ok a) (hne : other ≠ r)
    (hfront : other <+: r ∨ r <+: other) :
    ∃ why, parse other = .error (.protocol why) := by
  obtain ⟨ha, rfl⟩ := parse_eq_ok_iff.mp h
  cases hother : parse other with
  | error e =>
      obtain ⟨why, rfl⟩ := protocol_of_parse_error hother
      exact ⟨why, rfl⟩
  | ok b =>
      obtain ⟨hb, rfl⟩ := parse_eq_ok_iff.mp hother
      rcases hfront with hcut | hlonger
      · exact absurd (congrArg encode (eq_of_isPrefix hb ha hcut)) hne
      · exact absurd (congrArg encode (eq_of_isPrefix ha hb hlonger).symm) hne

/-- What an application answers for a key is read. -/
theorem parse_of_performKey {needsApproval approves : Bool} {payloads : List Bytes}
    {output : Bytes} (h : Signer.performKey needsApproval approves payloads = .ok output) :
    ∃ path rest, payloads = Path.pack path :: rest ∧
      parse output = .ok ⟨Signer.publicKey path.pack, Signer.chainCode path.pack⟩ := by
  obtain ⟨_, path, rest, _, hpayloads, rfl⟩ := Signer.performKey_eq_ok_iff.mp h
  exact ⟨path, rest, hpayloads, parse_keyBytes path.pack⟩

end KeyAnswer

namespace AppVersion

/-- The three numbers and the name behind them. -/
def encode (v : AppVersion) : Bytes :=
  v.major :: v.minor :: v.patch :: Utf8.encode v.name

/-- Three bytes, and behind them only bytes below 0x80. -/
def Readable (r : Bytes) : Prop :=
  3 ≤ r.length ∧ ∀ x ∈ r.drop 3, x < 0x80

variable {r : Bytes}

/-- What the check of a name finds. -/
theorem all_lt_iff (rest : Bytes) : rest.all (· < 0x80) = true ↔ ∀ x ∈ rest, x < 0x80 := by
  rw [List.all_eq_true]
  simp only [decide_eq_true_iff]

/-- A readable answer is read as a version with just these bytes. -/
theorem exists_parse_eq_ok (h : Readable r) : ∃ v, parse r = .ok v ∧ v.encode = r := by
  obtain ⟨hlong, hascii⟩ := h
  rcases r with _ | ⟨major, _ | ⟨minor, _ | ⟨patch, rest⟩⟩⟩
  · simp at hlong
  · simp at hlong
  · simp at hlong
  · have hname : ∀ x ∈ rest, x < 0x80 := hascii
    obtain ⟨name, hdecode, rfl⟩ := Utf8.exists_decode_eq_ok hname
    refine ⟨⟨major, minor, patch, name⟩, ?_, rfl⟩
    rw [parse, hdecode]
    exact if_pos ((all_lt_iff _).mpr hname)

/-- Every other answer is a breach of the protocol. -/
theorem protocol_of_not_readable (h : ¬ Readable r) :
    ∃ why, parse r = .error (.protocol why) := by
  unfold parse
  split
  · next major minor patch rest =>
      have hwide : ¬ rest.all (· < 0x80) = true := fun hall =>
        h ⟨by simp, (all_lt_iff rest).mp hall⟩
      -- such a name may be text or not, and is refused in both cases
      cases Utf8.decode rest with
      | error why => exact ⟨_, rfl⟩
      | ok name => exact ⟨_, if_neg hwide⟩
  · exact ⟨_, rfl⟩

theorem encode_injective : Function.Injective encode := by
  intro v w h
  simp only [encode, List.cons.injEq] at h
  obtain ⟨hmajor, hminor, hpatch, hname⟩ := h
  cases v
  cases w
  rw [AppVersion.mk.injEq]
  exact ⟨hmajor, hminor, hpatch, Utf8.encode_injective hname⟩

/-- An answer is read exactly if it is readable, as the version that says just this. -/
theorem parse_eq_ok_iff {v : AppVersion} : parse r = .ok v ↔ Readable r ∧ r = v.encode := by
  by_cases hr : Readable r
  · obtain ⟨w, hw, hencode⟩ := exists_parse_eq_ok hr
    constructor
    · intro h
      obtain rfl := Except.ok.inj (hw.symm.trans h)
      exact ⟨hr, hencode.symm⟩
    · rintro ⟨_, hv⟩
      rw [hw, encode_injective (hencode.trans hv)]
  · obtain ⟨why, hwhy⟩ := protocol_of_not_readable hr
    constructor
    · intro h
      rw [hwhy] at h
      cases h
    · rintro ⟨h, _⟩
      exact absurd h hr

end AppVersion

/-- **Answers are read exactly.**  An answer is read as a key exactly if it is the key and
the chain code, each behind its length in one byte.  These are then the only ones, every
such encoding is read, also those that applications make, and an answer that is cut short
or has more behind it is a breach of the protocol.  An answer is read as a version exactly
if it has three bytes and behind them only bytes below 0x80, and the version says just
these; otherwise it is a breach of the protocol. -/
theorem Client.answers_are_exact (r : Bytes) :
    (∀ a, KeyAnswer.parse r = .ok a ↔ a.Fits ∧ r = a.encode) ∧
    (∀ a b : KeyAnswer, a.Fits → b.Fits → a.encode = b.encode → a = b) ∧
    (∀ a : KeyAnswer, a.Fits → KeyAnswer.parse a.encode = .ok a) ∧
    (∀ ins approves payloads output, ins = .getPublicKey ∨ ins = .verifyAddress →
      Signer.perform approves ins payloads = .ok output →
      ∃ path rest, payloads = Path.pack path :: rest ∧
        KeyAnswer.parse output =
          .ok ⟨Signer.publicKey path.pack, Signer.chainCode path.pack⟩) ∧
    (∀ a other, KeyAnswer.parse r = .ok a → other ≠ r → other <+: r ∨ r <+: other →
      ∃ why, KeyAnswer.parse other = .error (.protocol why)) ∧
    (∀ v, AppVersion.parse r = .ok v ↔ AppVersion.Readable r ∧ r = v.encode) ∧
    (AppVersion.Readable r → ∃ v, AppVersion.parse r = .ok v) ∧
    (¬ AppVersion.Readable r → ∃ why, AppVersion.parse r = .error (.protocol why)) := by
  refine ⟨fun a => KeyAnswer.parse_eq_ok_iff, fun a b ha hb h => ?_,
    fun a ha => KeyAnswer.parse_eq_ok_iff.mpr ⟨ha, rfl⟩, ?_,
    fun a other => KeyAnswer.refused_of_isPrefix, fun v => AppVersion.parse_eq_ok_iff,
    fun hr => ?_, AppVersion.protocol_of_not_readable⟩
  · exact KeyAnswer.eq_of_isPrefix ha hb (h ▸ List.prefix_refl _)
  · rintro ins approves payloads output (rfl | rfl) hperform
    · exact KeyAnswer.parse_of_performKey hperform
    · exact KeyAnswer.parse_of_performKey hperform
  · obtain ⟨v, hv, _⟩ := AppVersion.exists_parse_eq_ok hr
    exact ⟨v, hv⟩

/-- An answer with an empty key, cut short and with one byte more, and a name that is text
but has a byte from 0x80 on. -/
theorem Client.answers_are_exact_for_an_empty_key :
    KeyAnswer.parse [0, 1, 7] = .ok ⟨[], [7]⟩ ∧
    (∃ why, KeyAnswer.parse [0, 1] = .error (.protocol why)) ∧
    (∃ why, KeyAnswer.parse [0, 1, 7, 0] = .error (.protocol why)) ∧
    ∃ why, AppVersion.parse [1, 2, 3, 0xc3, 0xa9] = .error (.protocol why) := by
  obtain ⟨hkey, _, _, _, hrefused, _⟩ := answers_are_exact [0, 1, 7]
  obtain ⟨_, _, _, _, _, _, _, hversion⟩ := answers_are_exact [1, 2, 3, 0xc3, 0xa9]
  have hread : KeyAnswer.parse [0, 1, 7] = .ok ⟨[], [7]⟩ :=
    (hkey ⟨[], [7]⟩).mpr ⟨⟨by decide, by decide⟩, rfl⟩
  have hwide : ¬ AppVersion.Readable [1, 2, 3, 0xc3, 0xa9] := fun h =>
    absurd (h.2 0xc3 (by decide)) (by decide)
  exact ⟨hread, hrefused _ [0, 1] hread (by decide) (Or.inl ⟨[7], rfl⟩),
    hrefused _ [0, 1, 7, 0] hread (by decide) (Or.inr ⟨[0], rfl⟩), hversion hwide⟩

end Courier
