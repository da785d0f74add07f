import Courier.Proofs.Chain.Walk
import Courier.Proofs.Store.View
import Courier.Transfer

/-!
# What linking stores

The host enters the chunks of its payloads one after another, the chunks of each
payload from the last to the first.  Seen as a view this is one look-up among all
the chunks; if their hashes tell them apart, every chunk is found again.

* `Store.get?_insertChain`: the view after entering a chain.
* `Store.link_eq`, `Store.linkAll_eq`: the roots and the store that linking gives.
* `Store.get?_linked`: every linked chunk is found under its hash.
* `Transfer.ofPayloads_eq`: the transfer that payloads make.
-/

namespace Courier
namespace Store

theorem insertChain_cons (s : Store) (c : Linked) (rest : List Linked) :
    s.insertChain (c :: rest) = (s.insertChain rest).insert c.hash c.bytes := by
  rfl

theorem insertChain_append (s : Store) (xs ys : List Linked) :
    s.insertChain (xs ++ ys) = (s.insertChain ys).insertChain xs :=
  List.foldr_append

/-- The chunk under a hash is the first of the chain that has it, or else the one
that was there before. -/
theorem get?_insertChain (s : Store) (chain : List Linked) (h : Hash) :
    (s.insertChain chain).get? h =
      ((chain.find? fun c => c.hash = h).map Linked.bytes).or (s.get? h) := by
  induction chain with
  | nil => rfl
  | cons c rest ih =>
      rw [insertChain_cons, get?_insert, ih, List.find?_cons]
      by_cases hc : c.hash = h
      · simp [hc]
      · simp [hc]

/-- Keys that are no hash of the chain keep what they had. -/
theorem getElem?_insertChain_of_ne {s : Store} {chain : List Linked}
    {key : String} (hkey : ∀ c ∈ chain, c.hash.toHex ≠ key) :
    (s.insertChain chain).table[key]? = s.table[key]? := by
  induction chain with
  | nil => rfl
  | cons c rest ih =>
      have hother : compare c.hash.toHex key ≠ .eq := fun h =>
        hkey c List.mem_cons_self (Std.LawfulEqCmp.eq_of_compare h)
      rw [insertChain_cons, insert, Std.TreeMap.getElem?_insert, if_neg hother]
      exact ih fun d hd => hkey d (List.mem_cons_of_mem _ hd)

/-- What linking one payload gives: its root, and a store with its chunks. -/
theorem link_eq {size : Nat} (hsize : 0 < size) (s : Store) (payload : Bytes) :
    s.link payload size =
      .ok (Chain.root (Chain.ofPayload size payload),
        s.insertChain (Chain.ofPayload size payload)) := by
  rw [link, Chain.split, if_neg (by omega)]
  rfl

/-- What linking gives: the roots in order, and a store with the chunks of all
payloads, where later payloads come first. -/
theorem linkAll_eq {size : Nat} (hsize : 0 < size) (s : Store)
    (payloads : List Bytes) :
    s.linkAll size payloads =
      .ok (payloads.map fun payload =>
            Chain.root (Chain.ofPayload size payload),
        s.insertChain (payloads.reverse.flatMap (Chain.ofPayload size))) := by
  induction payloads generalizing s with
  | nil => rfl
  | cons payload rest ih =>
      rw [linkAll, link_eq hsize]
      dsimp only
      rw [ih, List.reverse_cons, List.flatMap_append, insertChain_append,
        List.flatMap_singleton]
      rfl

/-- If hashes tell the chunks apart, every linked chunk is found again. -/
theorem get?_linked {size : Nat} {payloads : List Bytes}
    (hchunks : Chain.Separable (Chain.ofPayloads size payloads)) {c : Linked}
    (hc : c ∈ Chain.ofPayloads size payloads) (s : Store) :
    (s.insertChain (payloads.reverse.flatMap (Chain.ofPayload size))).get?
      c.hash = some c.bytes := by
  have hmem : ∀ d, d ∈ payloads.reverse.flatMap (Chain.ofPayload size) ↔
      d ∈ Chain.ofPayloads size payloads := by
    intro d
    simp [Chain.ofPayloads]
  rw [get?_insertChain]
  cases hfind : (payloads.reverse.flatMap (Chain.ofPayload size)).find?
      fun d => d.hash = c.hash with
  | none =>
      have hnone := List.find?_eq_none.mp hfind c ((hmem c).mpr hc)
      simp at hnone
  | some d =>
      have hhash : d.hash = c.hash := by
        simpa using List.find?_some hfind
      have hd := (hmem d).mp (List.mem_of_find?_eq_some hfind)
      rw [Option.map_some, Option.some_or,
        hchunks.distinct d hd c hc hhash]

end Store

/-- A new transfer of payloads: it has their roots and all their chunks. -/
theorem Transfer.ofPayloads_eq {size : Nat} (hsize : 0 < size) (header : Header)
    (payloads : List Bytes) (limits : Limits) :
    ofPayloads header payloads size limits =
      .ok { header := header
            store := Store.empty.insertChain
              (payloads.reverse.flatMap (Chain.ofPayload size))
            roots := payloads.map fun payload =>
              Chain.root (Chain.ofPayload size payload)
            limits := limits } := by
  rw [ofPayloads, Store.linkAll_eq hsize]

end Courier
