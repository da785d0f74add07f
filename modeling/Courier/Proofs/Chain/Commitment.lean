import Courier.Proofs.Store.Linking

/-!
# Roots as commitments

The root of a payload binds the payload and the way it was cut: chains with one
root are equal unless two of their chunks collide, and equal chains have equal
slices.  What is left open is only the size of a cut that does not cut at all.

* `Chain.ofPayload_eq_iff`: when two payloads have the same chain.
* `Chain.root_eq_iff`: without collisions the roots are the same exactly when the
  chains are.
* `Chain.root_eq_zero_iff`: the sentinel stands for the empty payload alone.
* `Store.link_root_binds`: the same for the roots that linking gives.
-/

namespace Courier
namespace Chain

/-- A chain determines the slices that it was made of. -/
theorem ofSlices_injective : Function.Injective ofSlices := by
  intro xs ys h
  rw [← map_slice_ofSlices xs, h, map_slice_ofSlices]

theorem ofPayload_eq_iff {m n : Nat} (hm : 0 < m) (hn : 0 < n) (b c : Bytes) :
    ofPayload m b = ofPayload n c ↔ b = c ∧ (m = n ∨ b.length ≤ min m n) := by
  rw [ofPayload, ofPayload, ofSlices_injective.eq_iff]
  exact Bytes.slices_eq_iff hm hn b c

/-- Without collisions two payloads have the same root exactly when they have the
same chain. -/
theorem root_eq_iff {m n : Nat} {b c : Bytes}
    (hchunks : Separable (ofPayload m b ++ ofPayload n c)) :
    root (ofPayload m b) = root (ofPayload n c) ↔
      ofPayload m b = ofPayload n c := by
  constructor
  · intro h
    have hb := leads_ofPayload fun d hd => hchunks.nonzero d (List.mem_append_left _ hd)
    have hc := leads_ofPayload fun d hd => hchunks.nonzero d (List.mem_append_right _ hd)
    rw [← h] at hc
    rcases eq_or_collision hb hc with heq | ⟨x, hx, y, hy, hne, hhash⟩
    · exact heq
    · exact absurd (hchunks.distinct x (List.mem_append_left _ hx) y
        (List.mem_append_right _ hy) hhash) hne
  · intro h
    rw [h]

/-- If no chunk has the sentinel for its hash, the sentinel is the root of the empty
payload alone. -/
theorem root_eq_zero_iff {n : Nat} {b : Bytes}
    (hnonzero : ∀ c ∈ ofPayload n b, c.hash ≠ Hash.zero) :
    root (ofPayload n b) = Hash.zero ↔ b = [] := by
  constructor
  · intro h
    have hleads := leads_ofPayload hnonzero
    rw [h, leads_zero] at hleads
    rw [← payload_ofPayload n b, hleads.1, payload_nil]
  · rintro rfl
    rw [ofPayload, Bytes.slices_nil]
    rfl

end Chain

namespace Store

/-- **A root binds its payload.**  Without collisions, two payloads are linked to
the same root exactly when they are equal and cut alike, whatever the stores hold;
only the empty payload is linked to the sentinel. -/
theorem link_root_binds {P Q : Bytes} {m n : Nat} (hm : 1 ≤ m) (hn : 1 ≤ n)
    (hchunks : Chain.Separable (Chain.ofPayload m P ++ Chain.ofPayload n Q))
    (s t : Store) :
    ∃ p s' q t', s.link P m = .ok (p, s') ∧ t.link Q n = .ok (q, t') ∧
      (p = q ↔ P = Q ∧ (m = n ∨ P.length ≤ min m n)) ∧
      (p = Hash.zero ↔ P = []) ∧ (q = Hash.zero ↔ Q = []) := by
  refine ⟨_, _, _, _, link_eq hm s P, link_eq hn t Q, ?_, ?_, ?_⟩
  · rw [Chain.root_eq_iff hchunks, Chain.ofPayload_eq_iff hm hn]
  · exact Chain.root_eq_zero_iff fun c hc =>
      hchunks.nonzero c (List.mem_append_left _ hc)
  · exact Chain.root_eq_zero_iff fun c hc =>
      hchunks.nonzero c (List.mem_append_right _ hc)

/-- Three bytes in slices of two and in one slice of three. -/
theorem link_root_of_three_bytes :
    let payload : Bytes := [1, 2, 3]
    1 ≤ 2 ∧ 1 ≤ 3 ∧
    Chain.Separable (Chain.ofPayload 2 payload ++ Chain.ofPayload 3 payload) ∧
    ∃ p s q t, Store.empty.link payload 2 = .ok (p, s) ∧
      Store.empty.link payload 3 = .ok (q, t) ∧ p ≠ q ∧ p ≠ Hash.zero := by
  intro payload
  have hchunks : Chain.Separable
      (Chain.ofPayload 2 payload ++ Chain.ofPayload 3 payload) :=
    ⟨by decide +kernel, by decide +kernel⟩
  obtain ⟨p, s, q, t, hp, hq, hroots, hzero, _⟩ :=
    link_root_binds (by decide) (by decide) hchunks .empty .empty
  refine ⟨by decide, by decide, hchunks, p, s, q, t, hp, hq, ?_, ?_⟩
  · rw [Ne, hroots]
    decide
  · rw [Ne, hzero]
    decide

end Store
end Courier
