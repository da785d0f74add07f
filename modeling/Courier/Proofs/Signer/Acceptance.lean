import Courier.Proofs.Client.Signing
import Courier.Proofs.Path.Grammar

/-!
# The requests that the application accepts

The application checks bytes, and the host encodes paths and transactions.  Both agree:
what is accepted is what can be encoded, and it is encoded in one way only.

* `Path.readable_iff`: the paths that have a name.
* `Path.unpack`: the path in packed bytes, with `Path.unpack_pack` and `Path.pack_unpack`;
  `Signer.isPath_iff`: the packed forms.
* `Client.Encodes`: the payloads of a transaction and a path;
  `Signer.performSign_eq_ok_iff`, `Signer.performKey_eq_ok_iff`: what is answered.
* `Signer.accepts_what_the_host_encodes`: all of this together.
-/

namespace Courier
namespace Path

/-- A path that some text names. -/
def Readable (path : Path) : Prop :=
  ∃ text, parse text = .ok path

/-- All paths have a name, but for those that are too deep. -/
theorem readable_iff {path : Path} :
    path.Readable ↔ path.components.length ≤ maxDepth :=
  ⟨fun ⟨_, h⟩ => length_of_parse h, fun h => ⟨path.text, parse_text h⟩⟩

/-- The path in packed bytes: behind the count, four bytes are a component. -/
def unpack (b : Bytes) : Path :=
  ⟨(Bytes.slices 4 b.tail).map fun s => UInt32.ofNat (Bytes.toNatLE s)⟩

theorem component_of_bytes (c : UInt32) :
    UInt32.ofNat (Bytes.toNatLE (Bytes.ofNatLE 4 c.toNat)) = c := by
  rw [Bytes.toNatLE_ofNatLE c.toNat_lt, UInt32.ofNat_toNat]

theorem bytes_of_component {s : Bytes} (h : s.length = 4) :
    Bytes.ofNatLE 4 (UInt32.ofNat (Bytes.toNatLE s)).toNat = s := by
  have hlt : Bytes.toNatLE s < 2 ^ 32 := by
    have hbound := Bytes.toNatLE_lt s
    rwa [h] at hbound
  have hback := Bytes.ofNatLE_toNatLE s
  rw [h] at hback
  rw [UInt32.toNat_ofNat', Nat.mod_eq_of_lt hlt, hback]

/-- A path is found again in its packed form. -/
theorem unpack_pack (path : Path) : unpack path.pack = path := by
  have hfull : ∀ s ∈ path.components.map fun c => Bytes.ofNatLE 4 c.toNat, s.length = 4 := by
    intro s hs
    obtain ⟨c, _, rfl⟩ := List.mem_map.mp hs
    exact Bytes.length_ofNatLE 4 _
  rw [unpack, pack, List.tail_cons, Bytes.slices_flatten (by decide) _ hfull, List.map_map]
  simp only [Function.comp_def, component_of_bytes, List.map_id']

theorem pack_injective : Function.Injective pack :=
  Function.LeftInverse.injective unpack_pack

/-- Bytes that pass the check are the packed form of the path in them. -/
theorem pack_unpack {b : Bytes} (h : Signer.isPath b = true) :
    (unpack b).components.length ≤ maxDepth ∧ (unpack b).pack = b := by
  cases b with
  | nil => cases h
  | cons count rest =>
      rw [Signer.isPath, Bool.and_eq_true, decide_eq_true_iff, beq_iff_eq] at h
      obtain ⟨hdepth, hlength⟩ := h
      have hcount : (Bytes.slices 4 rest).length = count.toNat := by
        rw [Bytes.length_slices (by decide), hlength, Nat.ceilDiv_eq_add_pred_div]
        omega
      have hfull := Bytes.length_of_mem_slices (by decide) ⟨_, hlength⟩
      have hspelled : ((Bytes.slices 4 rest).map fun s =>
          Bytes.ofNatLE 4 (UInt32.ofNat (Bytes.toNatLE s)).toNat) = Bytes.slices 4 rest := by
        refine (List.map_congr_left fun s hs => ?_).trans (List.map_id' _)
        exact bytes_of_component (hfull s hs)
      constructor
      · rw [unpack, List.tail_cons, List.length_map, hcount]
        exact hdepth
      · rw [unpack, pack, List.tail_cons, List.length_map, hcount, List.map_map,
          UInt8.ofNat_toNat, Function.comp_def, hspelled, Bytes.flatten_slices]

end Path

namespace Client

/-- These are the payloads that the host sends for a transaction and a path. -/
structure Encodes (payloads : List Bytes) (tx : Bytes) (path : Path) : Prop where
  short : tx.length < 2 ^ 32
  readable : path.Readable
  spelled : payloads = [framed tx, path.pack]

/-- A transaction is found again behind its length. -/
theorem framed_injective : Function.Injective framed := by
  intro tx other h
  refine List.append_inj_right h ?_
  rw [Bytes.length_ofNatLE, Bytes.length_ofNatLE]

/-- A field of four bytes with the length of the rest is what the host puts before it. -/
theorem eq_framed_of_sized {payload length tx : Bytes}
    (hsized : Field.sized payload 4 = .ok (length, tx))
    (hlength : Bytes.toNatLE length = tx.length) :
    payload = framed tx ∧ tx.length < 2 ^ 32 := by
  unfold Field.sized at hsized
  split at hsized
  · cases hsized
  · next hlong =>
      obtain ⟨rfl, rfl⟩ := Prod.mk.inj (Except.ok.inj hsized)
      have hfour : (payload.take 4).length = 4 := by
        rw [List.length_take]
        omega
      have hlt := Bytes.toNatLE_lt (payload.take 4)
      have hback := Bytes.ofNatLE_toNatLE (payload.take 4)
      rw [hfour, hlength] at hlt hback
      refine ⟨?_, hlt⟩
      rw [framed, hback, List.take_append_drop]

/-- Payloads are those of one transaction and one path. -/
theorem Encodes.unique {payloads : List Bytes} {tx tx' : Bytes} {path path' : Path}
    (h : Encodes payloads tx path) (h' : Encodes payloads tx' path') :
    tx' = tx ∧ path' = path := by
  have heq := h'.spelled.symm.trans h.spelled
  obtain ⟨hframed, hrest⟩ := List.cons.inj heq
  obtain ⟨hpack, _⟩ := List.cons.inj hrest
  exact ⟨framed_injective hframed, Path.pack_injective hpack⟩

end Client

namespace Signer

/-- The check is for packed forms of paths with a name, and for nothing else. -/
theorem isPath_iff {b : Bytes} :
    isPath b = true ↔ ∃ path : Path, path.Readable ∧ path.pack = b := by
  constructor
  · intro h
    obtain ⟨hdepth, hpack⟩ := Path.pack_unpack h
    exact ⟨Path.unpack b, Path.readable_iff.mpr hdepth, hpack⟩
  · rintro ⟨path, hpath, rfl⟩
    exact isPath_pack (Path.readable_iff.mp hpath)

variable {payloads : List Bytes} {output : Bytes}

/-- An application that approves signs what the host encodes. -/
theorem performSign_eq_ok_iff :
    performSign true payloads = .ok output ↔
      ∃ tx path, Client.Encodes payloads tx path ∧ output = signature path.pack tx := by
  constructor
  · intro h
    unfold performSign at h
    split at h
    · next framed packed =>
        split at h
        · cases h
        · next length tx hsized =>
            split at h
            · cases h
            · next hlength =>
                split at h
                · cases h
                · next hpath =>
                    obtain ⟨path, hreadable, rfl⟩ := isPath_iff.mp (by simpa using hpath)
                    obtain ⟨rfl, hshort⟩ :=
                      Client.eq_framed_of_sized hsized (Decidable.not_not.mp hlength)
                    exact ⟨tx, path, ⟨hshort, hreadable, rfl⟩, (Except.ok.inj h).symm⟩
    · cases h
  · rintro ⟨tx, path, ⟨hshort, hreadable, rfl⟩, rfl⟩
    rw [performSign_framed true (Path.readable_iff.mp hreadable) hshort, if_pos rfl]

/-- A key is given for a packed path, whatever follows it, if it is approved where this is
asked for. -/
theorem performKey_eq_ok_iff {needsApproval approves : Bool} :
    performKey needsApproval approves payloads = .ok output ↔
      (needsApproval = true → approves = true) ∧
      ∃ path rest, Path.Readable path ∧ payloads = path.pack :: rest ∧
        output = keyBytes path.pack := by
  constructor
  · intro h
    unfold performKey at h
    split at h
    · cases h
    · next packed rest =>
        split at h
        · cases h
        · next hpath =>
            obtain ⟨path, hreadable, rfl⟩ := isPath_iff.mp (by simpa using hpath)
            split at h
            · cases h
            · next happroved =>
                refine ⟨fun hneeds => ?_, path, rest, hreadable, rfl, (Except.ok.inj h).symm⟩
                simpa [hneeds] using happroved
  · rintro ⟨happroved, path, rest, hreadable, rfl, rfl⟩
    have hpath := isPath_pack (Path.readable_iff.mp hreadable)
    have hgo : (needsApproval && !approves) = false := by
      cases needsApproval with
      | false => rfl
      | true => rw [happroved rfl]; rfl
    simp [performKey, hpath, hgo]

/-- **The application accepts what the host encodes, and nothing else.**  A path is packed
in one way, its components may be any, and the check is for packed paths.  An application
that approves signs exactly the payloads that the host sends for one transaction of fewer
than 2³² bytes and one path, and a key is given exactly for a packed path in front. -/
theorem accepts_what_the_host_encodes :
    Function.Injective Path.pack ∧
    (∀ components : List UInt32, components.length ≤ 10 → Path.Readable ⟨components⟩) ∧
    (∀ b, isPath b = true ↔ ∃! path : Path, path.Readable ∧ path.pack = b) ∧
    (∀ payloads,
      ((∃ output, perform true .signTx payloads = .ok output) ↔
        ∃ tx path, Client.Encodes payloads tx path) ∧
      ∀ tx path, Client.Encodes payloads tx path →
        perform true .signTx payloads = .ok (signature path.pack tx) ∧
        (∀ client : Client, client.sign path tx = client.send .signTx payloads) ∧
        ∀ tx' path', Client.Encodes payloads tx' path' → tx' = tx ∧ path' = path) ∧
    ∀ approves payloads,
      (∃ output, perform approves .getPublicKey payloads = .ok output) ↔
        ∃ path rest, Path.Readable path ∧ payloads = path.pack :: rest := by
  refine ⟨Path.pack_injective, fun components => Path.readable_iff.mpr, fun b => ?_,
    fun payloads => ⟨?_, fun tx path hencodes => ?_⟩, fun approves payloads => ?_⟩
  · rw [isPath_iff]
    constructor
    · rintro ⟨path, hpath, rfl⟩
      exact ⟨path, ⟨hpath, rfl⟩, fun other h => Path.pack_injective h.2⟩
    · exact ExistsUnique.exists
  · constructor
    · rintro ⟨output, h⟩
      obtain ⟨tx, path, hencodes, _⟩ := performSign_eq_ok_iff.mp h
      exact ⟨tx, path, hencodes⟩
    · rintro ⟨tx, path, hencodes⟩
      exact ⟨_, performSign_eq_ok_iff.mpr ⟨tx, path, hencodes, rfl⟩⟩
  · refine ⟨performSign_eq_ok_iff.mpr ⟨tx, path, hencodes, rfl⟩, fun client => ?_,
      fun tx' path' => hencodes.unique⟩
    rw [client.sign_eq_send path hencodes.short, hencodes.spelled]
  · constructor
    · rintro ⟨output, h⟩
      obtain ⟨_, path, rest, hpath, hpayloads, _⟩ := performKey_eq_ok_iff.mp h
      exact ⟨path, rest, hpath, hpayloads⟩
    · rintro ⟨path, rest, hpath, hpayloads⟩
      exact ⟨_, performKey_eq_ok_iff.mpr ⟨nofun, path, rest, hpath, hpayloads, rfl⟩⟩

/-- Two bytes to sign with the key of a hardened component. -/
theorem accepts_what_the_host_encodes_for_two_bytes :
    let path : Path := ⟨[0x8000002C]⟩
    let payloads : List Bytes := [[2, 0, 0, 0, 7, 8], [1, 0x2C, 0, 0, 0x80]]
    path.components.length ≤ 10 ∧ Client.Encodes payloads [7, 8] path ∧
    perform true .signTx payloads = .ok (signature [1, 0x2C, 0, 0, 0x80] [7, 8]) ∧
    ∀ tx other, Client.Encodes payloads tx other → tx = [7, 8] ∧ other = path := by
  intro path payloads
  have hdepth : path.components.length ≤ 10 := by decide
  obtain ⟨_, hreadable, _, hsign, _⟩ := accepts_what_the_host_encodes
  have hencodes : Client.Encodes payloads [7, 8] path :=
    ⟨by decide, hreadable _ hdepth, by decide⟩
  obtain ⟨hsigned, _, hunique⟩ := (hsign payloads).2 [7, 8] path hencodes
  exact ⟨hdepth, hencodes, hsigned, hunique⟩

end Signer
end Courier
