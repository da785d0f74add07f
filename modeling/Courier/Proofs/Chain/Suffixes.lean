import Courier.Proofs.Chain.Commitment
import Mathlib.Data.Set.Card

/-!
# Suffixes of payloads

The chunk of a slice is linked to all that comes behind it, so it stands for what
is left of the payload from this slice on.  Two chunks are the same when these
suffixes are, however the slices themselves may repeat.

* `Chain.drop_ofPayload`, `Chain.getElem?_ofPayload`: the chunks from a position
  on, and the chunk at a position.
* `Chain.suffixes`: what is left of payloads behind whole slices.
* `Chain.exists_hash_iff`: the hashes of the chunks are the roots of the suffixes.
* `Chain.injOn_root`: without collisions the roots tell the suffixes apart.
* `Chain.ncard_suffixes`: one payload has as many suffixes as slices.
-/

namespace Courier
namespace Chain

variable {size : Nat}

/-- Behind some chunks come the chunks of what is left of the payload. -/
theorem drop_ofPayload (hsize : 0 < size) (i : Nat) (payload : Bytes) :
    (ofPayload size payload).drop i = ofPayload size (payload.drop (i * size)) := by
  induction i generalizing payload with
  | zero => simp
  | succ i ih =>
      by_cases hnil : payload = []
      · simp [hnil]
      · have hlength : (i + 1) * size = size + i * size := by ring
        rw [ofPayload_of_ne_nil hsize hnil, List.drop_succ_cons, ih, List.drop_drop,
          hlength]

/-- The chunk at a position: its slice, linked to what is left behind it. -/
theorem getElem?_ofPayload (hsize : 0 < size) (i : Nat) (payload : Bytes) :
    (ofPayload size payload)[i]? =
      if payload.drop (i * size) = [] then none
      else some ⟨root (ofPayload size (payload.drop ((i + 1) * size))),
        (payload.drop (i * size)).take size⟩ := by
  rw [← List.head?_drop, drop_ofPayload hsize]
  split_ifs with hnil
  · simp [hnil]
  · have hlength : i * size + size = (i + 1) * size := by ring
    rw [ofPayload_of_ne_nil hsize hnil, List.head?_cons, List.drop_drop, hlength]

/-- Something is left behind whole slices as long as not all slices are passed. -/
theorem drop_ne_nil_iff (hsize : 0 < size) (i : Nat) (payload : Bytes) :
    payload.drop (i * size) ≠ [] ↔ i < payload.length ⌈/⌉ size := by
  rw [Ne, List.drop_eq_nil_iff, ← not_le, ceilDiv_le_iff_le_mul hsize, Nat.mul_comm]

/-- What is left of the payloads behind whole slices, as long as something is. -/
def suffixes (size : Nat) (payloads : List Bytes) : Set Bytes :=
  {suffix | suffix ≠ [] ∧ ∃ payload ∈ payloads, ∃ i : Nat,
    suffix = payload.drop (i * size)}

/-- The hashes of the chunks are the roots of the suffixes. -/
theorem exists_hash_iff (hsize : 0 < size) (payloads : List Bytes) (h : Hash) :
    (∃ c ∈ ofPayloads size payloads, c.hash = h) ↔
      ∃ suffix ∈ suffixes size payloads, root (ofPayload size suffix) = h := by
  constructor
  · rintro ⟨c, hc, rfl⟩
    obtain ⟨payload, hmem, hc⟩ := List.mem_flatMap.mp hc
    obtain ⟨i, hi⟩ := List.mem_iff_getElem?.mp hc
    rw [getElem?_ofPayload hsize] at hi
    split_ifs at hi with hnil
    refine ⟨_, ⟨hnil, payload, hmem, i, rfl⟩, ?_⟩
    have hlength : i * size + size = (i + 1) * size := by ring
    rw [ofPayload_of_ne_nil hsize hnil, List.drop_drop, hlength, root,
      Option.some.inj hi]
  · rintro ⟨suffix, ⟨hnil, payload, hmem, i, rfl⟩, rfl⟩
    have hdrop := drop_ofPayload hsize i payload
    rw [ofPayload_of_ne_nil hsize hnil] at hdrop ⊢
    refine ⟨_, List.mem_flatMap.mpr ⟨payload, hmem, ?_⟩, rfl⟩
    exact List.mem_of_mem_drop (hdrop ▸ List.mem_cons_self)

theorem Separable.mono {xs ys : List Linked} (hys : Separable ys) (h : xs ⊆ ys) :
    Separable xs :=
  ⟨fun c hc d hd => hys.distinct c (h hc) d (h hd), fun c hc => hys.nonzero c (h hc)⟩

/-- The chunks of a suffix are chunks of the payload. -/
theorem ofPayload_subset_of_mem_suffixes (hsize : 0 < size) {payloads : List Bytes}
    {suffix : Bytes} (hsuffix : suffix ∈ suffixes size payloads) :
    ofPayload size suffix ⊆ ofPayloads size payloads := by
  obtain ⟨_, payload, hmem, i, rfl⟩ := hsuffix
  intro c hc
  rw [← drop_ofPayload hsize] at hc
  exact List.mem_flatMap.mpr ⟨payload, hmem, List.mem_of_mem_drop hc⟩

/-- Without collisions the roots tell the suffixes apart. -/
theorem injOn_root (hsize : 0 < size) {payloads : List Bytes}
    (hchunks : Separable (ofPayloads size payloads)) :
    Set.InjOn (fun suffix => root (ofPayload size suffix))
      (suffixes size payloads) := by
  intro x hx y hy hroots
  have hboth : Separable (ofPayload size x ++ ofPayload size y) :=
    hchunks.mono (List.append_subset.mpr
      ⟨ofPayload_subset_of_mem_suffixes hsize hx,
        ofPayload_subset_of_mem_suffixes hsize hy⟩)
  have hchains := (root_eq_iff hboth).mp hroots
  exact ((ofPayload_eq_iff hsize hsize x y).mp hchains).1

/-- One payload has as many suffixes as slices, even if its slices repeat. -/
theorem ncard_suffixes (hsize : 0 < size) (payload : Bytes) :
    (suffixes size [payload]).ncard = payload.length ⌈/⌉ size := by
  have himage : suffixes size [payload] =
      (fun i => payload.drop (i * size)) '' Finset.range (payload.length ⌈/⌉ size) := by
    ext suffix
    simp only [suffixes, List.mem_singleton, exists_eq_left, Set.mem_ofPred_eq,
      Set.mem_image, Finset.coe_range, Set.mem_Iio, ← drop_ne_nil_iff hsize]
    constructor
    · rintro ⟨hnil, i, rfl⟩
      exact ⟨i, hnil, rfl⟩
    · rintro ⟨i, hnil, rfl⟩
      exact ⟨hnil, i, rfl⟩
  have hinjective : Set.InjOn (fun i => payload.drop (i * size))
      (Finset.range (payload.length ⌈/⌉ size)) := by
    -- suffixes at different positions differ in length
    intro i hi j hj heq
    rw [Finset.mem_coe, Finset.mem_range, ← drop_ne_nil_iff hsize, Ne,
      List.drop_eq_nil_iff] at hi hj
    have hlength := congrArg List.length heq
    simp only [List.length_drop] at hlength
    exact Nat.eq_of_mul_eq_mul_right hsize (by omega)
  rw [himage, hinjective.ncard_image, Set.ncard_coe_finset,
    Finset.card_range]

end Chain
end Courier
