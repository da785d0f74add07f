import Courier.Proofs.Signer.Payloads
import Courier.Proofs.Signer.Sessions

/-!
# A signature from end to end

The host puts a transaction behind its length, packs the path of the key and sends
both through a block transfer.  What comes back is the signature, or that the request
was denied, after a number of exchanges that the lengths determine; only the budget of
rounds can keep it from coming, and a size of slices for which chunks are too long.

* `Signer.asked_sign`: the exchanges up to the answer.
* `Client.fits_of_validate`: chunks that validated settings leave room for.
* `Client.signs`: the whole operation; `Client.long_chunk_of_a_transaction`: a size of
  slices for which it fails.
-/

namespace Courier

theorem Client.length_framed (tx : Bytes) : (framed tx).length = 4 + tx.length := by
  simp [framed]

/-- The exchanges up to the answer to a request to sign. -/
theorem Signer.asked_sign (s : Signer) (size : Nat) (path : Path) (tx : Bytes) :
    s.asked size [Client.framed tx, path.pack] =
      1 + (4 + tx.length) ⌈/⌉ size + (1 + 4 * path.components.length) ⌈/⌉ size +
        if s.peer.push.isSome then 2 else 0 := by
  simp only [asked, List.map_cons, List.map_nil, List.sum_cons, List.sum_nil,
    Client.length_framed, path.length_pack]
  omega

namespace Client

variable {settings : Settings} {path : Path} {tx : Bytes} {s : Signer}
variable {readings : Nat → Nat}

/-- A transaction whose length fits four bytes is sent. -/
theorem sign_eq_send (c : Client) (path : Path) (htx : tx.length < 2 ^ 32) :
    c.sign path tx = c.send .signTx [framed tx, path.pack] := by
  rw [sign, if_neg]
  rw [maxTransaction]
  omega

/-- Under validated settings the chunks of a request fit, unless the size of the slices is
at the end of the word and the transaction fills one. -/
theorem fits_of_validate (hvalid : settings.validate = .ok ())
    (hfits : settings.chunkSize < 2 ^ 64 - 33 ∨ 4 + tx.length ≤ 222)
    (hpath : path.components.length ≤ 10) :
    ∀ c ∈ Chain.ofPayloads settings.chunkSize [framed tx, path.pack],
      c.bytes.length ≤ 254 := by
  rcases SendMode.fits_or_long hvalid [framed tx, path.pack] with h | ⟨hword, hlong⟩
  · exact h
  · have hpack := path.length_pack
    have hframed := length_framed tx
    simp only [List.mem_cons, List.not_mem_nil, or_false, exists_eq_or_imp,
      exists_eq_left] at hlong
    omega

/-- **Signing through a block transfer.**  An application that approves gives its
signature for the packed path and the transaction, and one that does not denies the
request, if the budget allows the exchanges that this takes; otherwise the budget is
used up and blamed.  There is no other outcome, as long as the size of the slices is not
at the end of the word or the transaction is short. -/
theorem signs (hvalid : settings.validate = .ok ())
    (hfits : settings.chunkSize < 2 ^ 64 - 33 ∨ 4 + tx.length ≤ 222)
    (hpath : path.components.length ≤ 10) (htx : tx.length < 2 ^ 32)
    (hmode : s.mode = .blocks) (hidle : s.peer.isIdle = true)
    (hfragment : 1 ≤ s.peer.fragmentSize)
    (hpush : ∀ chunk, s.peer.push = some chunk → chunk.length ≤ 254)
    (hchunks : Chain.Separable
      (Chain.ofPayloads settings.chunkSize [framed tx, path.pack]))
    (htime : ∀ i, readings (i + 1) < readings 0 + settings.operationTimeout) :
    let served := s.serve readings (sign ⟨settings, .blocks⟩ path tx)
    let asked := 1 + (4 + tx.length) ⌈/⌉ settings.chunkSize +
      (1 + 4 * path.components.length) ⌈/⌉ settings.chunkSize +
      (if s.peer.push.isSome then 2 else 0)
    let total := asked + 64 ⌈/⌉ s.peer.fragmentSize - 1
    (s.approves = true →
      (total ≤ settings.maxRounds →
        served.1 = .ok (Signer.signature path.pack tx) ∧
        served.2.exchanges = s.exchanges + total) ∧
      (settings.maxRounds < total →
        served.1 = .error (.roundLimit settings.maxRounds) ∧
        served.2.exchanges = s.exchanges + settings.maxRounds)) ∧
    (s.approves = false →
      (asked ≤ settings.maxRounds →
        served.1 = .error (.peer Status.deny []) ∧
        served.2.exchanges = s.exchanges + asked) ∧
      (settings.maxRounds < asked →
        served.1 = .error (.roundLimit settings.maxRounds) ∧
        served.2.exchanges = s.exchanges + settings.maxRounds)) := by
  intro served asked total
  have hanswer := Signer.performSign_framed s.approves hpath htx
  have hasked : s.asked settings.chunkSize [framed tx, path.pack] = asked :=
    s.asked_sign settings.chunkSize path tx
  obtain ⟨hsize, _, _, _⟩ := Settings.bounds_of_validate hvalid
  obtain ⟨henough, hshort⟩ := Signer.serve_blocks .signTx hsize
    (fits_of_validate hvalid hfits hpath) (by simp) ⟨hmode, hidle, hfragment, hpush⟩
    hchunks htime
  rw [← sign_eq_send ⟨settings, .blocks⟩ path htx, hasked, Signer.perform, hanswer]
    at henough hshort
  constructor
  · intro happroves
    rw [if_pos happroves] at henough hshort
    have hlater := Peer.laterRounds_ok hfragment
      (Signer.length_signature path.pack tx) (by decide)
    have htotal : asked + s.peer.laterRounds (.ok (Signer.signature path.pack tx)) =
        total := by
      omega
    rw [htotal] at henough hshort
    exact ⟨henough, hshort⟩
  · intro hrejects
    rw [if_neg (by simp [hrejects])] at henough hshort
    exact ⟨henough, hshort⟩

/-- A transaction of three bytes with the key of a path of one component, in slices of
four bytes. -/
theorem signs_three_bytes :
    let settings : Settings := { chunkSize := 4 }
    let path : Path := ⟨[7]⟩
    let s : Signer := { mode := .blocks, peer := { push := some [1] } }
    let served := s.serve (fun _ => 0) (sign ⟨settings, .blocks⟩ path [1, 2, 3])
    served.1 = .ok (Signer.signature path.pack [1, 2, 3]) ∧
    served.2.exchanges = 8 := by
  intro settings path s served
  have hchunks : Chain.Separable (Chain.ofPayloads 4 [framed [1, 2, 3], path.pack]) :=
    Chain.separable_of_nodup (by decide +kernel)
  obtain ⟨happroved, _⟩ := @signs settings path [1, 2, 3] s (fun _ => 0) rfl
    (by decide) (by decide) (by decide) rfl rfl (by decide) (by decide) hchunks
    (fun _ => by decide)
  obtain ⟨hresult, hexchanges⟩ := (happroved rfl).1 (by decide)
  exact ⟨hresult, hexchanges.trans (by decide +kernel)⟩

/-- Validated settings with slices of 2 ^ 64 - 33 bytes: a transaction of 219 bytes is
framed to one chunk that no reply holds. -/
theorem long_chunk_of_a_transaction :
    let settings : Settings := { chunkSize := 2 ^ 64 - 33 }
    let path : Path := ⟨[]⟩
    let tx : Bytes := List.replicate 219 7
    let s : Signer := { mode := .blocks }
    settings.validate = .ok () ∧ settings.chunkSize < 2 ^ 64 - 32 ∧ s.TakesBlocks ∧
    s.peer.push = none ∧
    Chain.Separable (Chain.ofPayloads settings.chunkSize [framed tx, path.pack]) ∧
    ∃ why, (s.serve (fun _ => 0) (sign ⟨settings, .blocks⟩ path tx)).1 =
      .error (.encoding why) := by
  -- stated before the names are introduced, so that the hashes are computed once
  have hchunks : Chain.Separable
      (Chain.ofPayloads (2 ^ 64 - 33) [framed (List.replicate 219 7), Path.pack ⟨[]⟩]) :=
    Chain.separable_of_nodup (by decide +kernel)
  intro settings path tx s
  have hs : s.TakesBlocks := ⟨rfl, rfl, by decide, by simp [s]⟩
  have htx : tx.length = 219 := List.length_replicate
  have hlong : ∃ payload ∈ [framed tx, path.pack], 222 < payload.length := by
    refine ⟨framed tx, List.mem_cons_self, ?_⟩
    rw [length_framed, htx]
    decide
  refine ⟨by decide +kernel, by decide, hs, rfl, hchunks, ?_⟩
  rw [sign_eq_send _ _ (by omega)]
  exact Signer.serve_long s.peer.fragmentSize .signTx (by decide) hlong (by decide) hs
    rfl hchunks (by decide +kernel) fun _ => by decide

end Client
end Courier
