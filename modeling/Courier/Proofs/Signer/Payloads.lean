import Courier.Client
import Courier.Device.Signer
import Courier.Proofs.Slices

/-!
# Host and application read what the other one writes

The host packs paths and puts transactions behind their lengths; the application
accepts them, and its answers are as the host expects them.

* `Path.length_pack`, `Signer.isPath_take_pack`: a packed path is a path only as a
  whole.
* `Signer.performSign_framed`, `Signer.performKey_pack`: what an application answers
  for the payloads of the host.
* `KeyAnswer.parse_keyBytes`, `AppVersion.parse_versionBytes`: the answers read back.
-/

namespace Courier

/-- A field is read back from behind its length. -/
theorem Field.counted_encodeCounted {b : Bytes} (h : b.length < 256) (rest : Bytes) :
    counted (encodeCounted b ++ rest) = .ok (b, rest) := by
  have hlength : (UInt8.ofNat b.length).toNat = b.length := by
    rw [UInt8.toNat_ofNat']
    omega
  rw [encodeCounted, List.cons_append, counted, hlength, sized_append]

namespace Path

/-- One byte, and four for each component. -/
theorem length_pack (p : Path) : p.pack.length = 1 + 4 * p.components.length := by
  have hcomponents : ∀ components : List UInt32,
      (components.map fun c => Bytes.ofNatLE 4 c.toNat).flatten.length =
        4 * components.length := by
    intro components
    induction components with
    | nil => rfl
    | cons c rest ih =>
        simp only [List.map_cons, List.flatten_cons, List.length_append, ih,
          Bytes.length_ofNatLE, List.length_cons]
        omega
  rw [pack, List.length_cons, hcomponents]
  omega

end Path

namespace Signer

/-- The front of a packed path is no path, and all of it is one. -/
theorem isPath_take_pack {path : Path} (h : path.components.length ≤ Path.maxDepth)
    (n : Nat) : isPath (path.pack.take n) = true ↔ path.pack.length ≤ n := by
  have hcount : (UInt8.ofNat path.components.length).toNat = path.components.length := by
    rw [Path.maxDepth] at h
    rw [UInt8.toNat_ofNat']
    omega
  have hlength := path.length_pack
  cases n with
  | zero => simp [isPath, hlength]
  | succ n =>
      rw [Path.pack, List.length_cons] at hlength ⊢
      rw [List.take_succ_cons, isPath, hcount, List.length_take]
      simp only [Bool.and_eq_true, decide_eq_true_eq, beq_iff_eq]
      constructor
      · rintro ⟨_, hleft⟩
        omega
      · intro hleft
        exact ⟨h, by omega⟩

/-- The application takes the paths that the host packs. -/
theorem isPath_pack {path : Path} (h : path.components.length ≤ Path.maxDepth) :
    isPath path.pack = true := by
  have hall := (isPath_take_pack h path.pack.length).mpr (Nat.le_refl _)
  rwa [List.take_length] at hall

/-- The answer to a request to sign. -/
theorem performSign_framed (approves : Bool) {path : Path} {tx : Bytes}
    (hpath : path.components.length ≤ Path.maxDepth) (htx : tx.length < 2 ^ 32) :
    performSign approves [Client.framed tx, path.pack] =
      if approves then .ok (signature path.pack tx) else .error Status.deny := by
  have hlength : Bytes.toNatLE (Bytes.ofNatLE 4 tx.length) = tx.length :=
    Bytes.toNatLE_ofNatLE htx
  have hsplit : Field.sized (Client.framed tx) 4 =
      .ok (Bytes.ofNatLE 4 tx.length, tx) := by
    have hsized := Field.sized_append (Bytes.ofNatLE 4 tx.length) tx
    rwa [Bytes.length_ofNatLE] at hsized
  simp only [performSign, hsplit, hlength, isPath_pack hpath]
  cases approves <;> simp

/-- The answer to a request for a key. -/
theorem performKey_pack (needsApproval approves : Bool) {path : Path}
    (hpath : path.components.length ≤ Path.maxDepth) :
    performKey needsApproval approves [path.pack] =
      if needsApproval && !approves then .error Status.deny
      else .ok (keyBytes path.pack) := by
  simp only [performKey, isPath_pack hpath]
  rfl

theorem length_publicKey (path : Bytes) : (publicKey path).length = 32 :=
  Digest.length_sha256 _

theorem length_chainCode (path : Bytes) : (chainCode path).length = 32 :=
  Digest.length_sha256 _

theorem length_signature (path tx : Bytes) : (signature path tx).length = 64 := by
  simp [signature, Digest.length_sha256]

theorem length_keyBytes (path : Bytes) : (keyBytes path).length = 66 := by
  simp [keyBytes, Field.encodeCounted, length_publicKey, length_chainCode]

theorem length_versionBytes : versionBytes.length = 17 := by
  decide +kernel

end Signer

/-- The host reads the keys that the application answers with. -/
theorem KeyAnswer.parse_keyBytes (path : Bytes) :
    parse (Signer.keyBytes path) = .ok ⟨Signer.publicKey path, Signer.chainCode path⟩ := by
  have hkey := Field.counted_encodeCounted (b := Signer.publicKey path)
    (by rw [Signer.length_publicKey]; decide)
    (Field.encodeCounted (Signer.chainCode path))
  have hcode := Field.counted_encodeCounted (b := Signer.chainCode path)
    (by rw [Signer.length_chainCode]; decide) []
  rw [List.append_nil] at hcode
  simp only [parse, Signer.keyBytes, hkey, hcode]
  rfl

/-- The host reads the version that the application answers with. -/
theorem AppVersion.parse_versionBytes :
    parse Signer.versionBytes = .ok ⟨0, 1, 0, Signer.appName⟩ := by
  decide +kernel

end Courier
