import Courier.Proofs.Chain.Walk
import Courier.Proofs.Store.Size

/-!
# Walks through a store

A walk follows the links of stored chunks, under whatever hash each of them is
stored.  It stops at the sentinel, at a hash without a chunk, and at a chunk too
short to hold a link.  From every other hash there is one way on, so a walk that
stops comes to no hash twice and passes at most as many chunks as are stored: the
bound on the links that `Store.trail` follows takes nothing away.

* `Store.Passes`: a walk from one hash to another; `Store.Stops`: where it stops.
* `Store.Passes.unique`: from one hash there is one walk that stops.
* `Store.Passes.length_le_size`: it passes at most as many chunks as are stored.
* `Store.trail_of_passes_zero`, `Store.trail_of_missing`, `Store.trail_of_short`: what
  the bounded walk says of a walk that stops.
* `Store.reassemble_of_passes`, `Store.exists_error_reassemble_iff`: what is put
  together from the walk, and when nothing is.
-/

namespace Courier

/-- The hashes at which a walk from `h` finds the chunks. -/
def Chain.cursors : Hash → List Linked → List Hash
  | _, [] => []
  | h, c :: rest => h :: cursors c.next rest

@[simp] theorem Chain.length_cursors (h : Hash) (chunks : List Linked) :
    (cursors h chunks).length = chunks.length := by
  induction chunks generalizing h with
  | nil => rfl
  | cons c rest ih => rw [cursors, List.length_cons, ih, List.length_cons]

namespace Store

open Chain (cursors)

/-- The store leads from one hash through these chunks to another. -/
def Passes (s : Store) : Hash → List Linked → Hash → Prop
  | h, [], k => h = k
  | h, c :: rest, k =>
      h ≠ Hash.zero ∧ s.get? h = some c.bytes ∧ s.Passes c.next rest k

/-- The hashes from which no link leads on. -/
inductive Stops (s : Store) : Hash → Prop
  | sentinel : Stops s Hash.zero
  | missing {h : Hash} (habsent : s.get? h = none) : Stops s h
  | short {h : Hash} {chunk : Bytes} (hstored : s.get? h = some chunk)
      (hshort : chunk.length < Hash.size) : Stops s h

/-- Following links from the hash comes to an end. -/
def Ends (s : Store) (root : Hash) : Prop :=
  ∃ chunks stop, s.Passes root chunks stop ∧ s.Stops stop

variable {s : Store} {root stop h k l : Hash} {chunks xs ys : List Linked}

section Walks

/-- A walk along chunks that are stored under their own hashes. -/
theorem passes_of_leads (hleads : Chain.Leads h chunks k)
    (hstored : ∀ c ∈ chunks, s.get? c.hash = some c.bytes) :
    s.Passes h chunks k := by
  induction chunks generalizing h with
  | nil => exact hleads
  | cons c rest ih =>
      obtain ⟨hne, rfl, hrest⟩ := hleads
      exact ⟨hne, hstored c List.mem_cons_self,
        ih hrest fun d hd => hstored d (List.mem_cons_of_mem _ hd)⟩

/-- The walk through the chunks of a payload, when they are at hand. -/
theorem passes_ofPayload {size : Nat} {payload : Bytes}
    (hnonzero : ∀ c ∈ Chain.ofPayload size payload, c.hash ≠ Hash.zero)
    (hstored : ∀ c ∈ Chain.ofPayload size payload,
      s.get? c.hash = some c.bytes) :
    s.Passes (Chain.root (Chain.ofPayload size payload))
      (Chain.ofPayload size payload) Hash.zero :=
  passes_of_leads (Chain.leads_ofPayload hnonzero) hstored

theorem Stops.eq_nil (hstops : s.Stops h) (hpasses : s.Passes h chunks k) :
    chunks = [] ∧ h = k := by
  cases chunks with
  | nil => exact ⟨rfl, hpasses⟩
  | cons c rest =>
      obtain ⟨hne, hget, _⟩ := hpasses
      cases hstops with
      | sentinel => exact absurd rfl hne
      | missing habsent => rw [habsent] at hget; cases hget
      | short hstored hshort =>
          rw [hstored] at hget
          rw [Option.some.inj hget, c.length_bytes] at hshort
          omega

/-- From one hash there is one walk that stops. -/
theorem Passes.unique (hxs : s.Passes h xs k) (hk : s.Stops k)
    (hys : s.Passes h ys l) (hl : s.Stops l) : xs = ys ∧ k = l := by
  induction xs generalizing h ys with
  | nil =>
      have hstart : h = k := hxs
      subst hstart
      obtain ⟨rfl, hend⟩ := hk.eq_nil hys
      exact ⟨rfl, hend⟩
  | cons c rest ih =>
      cases ys with
      | nil =>
          have hstart : h = l := hys
          subst hstart
          exact absurd (hl.eq_nil hxs).1 (List.cons_ne_nil _ _)
      | cons d others =>
          obtain ⟨_, hc, hrest⟩ := hxs
          obtain ⟨_, hd, hothers⟩ := hys
          rw [hc] at hd
          obtain rfl := Linked.bytes_injective (Option.some.inj hd)
          obtain ⟨rfl, hend⟩ := ih hrest hothers
          exact ⟨rfl, hend⟩

/-- Every hash on the way to the stop has a walk of its own to it. -/
theorem Passes.of_mem_cursors (hpasses : s.Passes root chunks stop)
    (hmem : h ∈ cursors root chunks) :
    ∃ later, later.length ≤ chunks.length ∧ s.Passes h later stop := by
  induction chunks generalizing root with
  | nil => cases hmem
  | cons c rest ih =>
      rcases List.mem_cons.mp hmem with rfl | hmem
      · exact ⟨c :: rest, Nat.le_refl _, hpasses⟩
      · obtain ⟨later, hlength, hlater⟩ := ih hpasses.2.2 hmem
        exact ⟨later, Nat.le_succ_of_le hlength, hlater⟩

/-- A walk that stops comes to no hash twice. -/
theorem Passes.nodup_cursors (hpasses : s.Passes root chunks stop)
    (hstops : s.Stops stop) : (cursors root chunks).Nodup := by
  induction chunks generalizing root with
  | nil => exact List.nodup_nil
  | cons c rest ih =>
      refine List.nodup_cons.mpr ⟨fun hmem => ?_, ih hpasses.2.2⟩
      -- the walk from the second visit on would be the whole walk again
      obtain ⟨later, hlength, hlater⟩ := hpasses.2.2.of_mem_cursors hmem
      obtain ⟨rfl, _⟩ := hlater.unique hstops hpasses hstops
      rw [List.length_cons] at hlength
      omega

theorem Passes.stored (hpasses : s.Passes root chunks stop) :
    ∀ h ∈ cursors root chunks, s.get? h ≠ none := by
  induction chunks generalizing root with
  | nil => intro h hmem; cases hmem
  | cons c rest ih =>
      obtain ⟨_, hget, hrest⟩ := hpasses
      intro h hmem
      rcases List.mem_cons.mp hmem with rfl | hmem
      · rw [hget]
        exact Option.some_ne_none _
      · exact ih hrest h hmem

/-- A walk that stops passes at most as many chunks as are stored. -/
theorem Passes.length_le_size (hpasses : s.Passes root chunks stop)
    (hstops : s.Stops stop) : chunks.length ≤ s.size := by
  rw [← Chain.length_cursors root]
  exact Store.length_le_size (hpasses.nodup_cursors hstops) hpasses.stored

end Walks

section Trails

theorem Trail.foldr_push_complete (xs ys : List Linked) :
    xs.foldr Trail.push (.complete ys) = .complete (xs ++ ys) := by
  induction xs with
  | nil => rfl
  | cons c rest ih => rw [List.foldr_cons, ih]; rfl

theorem Trail.foldr_push_of_ne_complete {t : Trail}
    (ht : ∀ ys, t ≠ .complete ys) (xs : List Linked) :
    xs.foldr Trail.push t = t := by
  induction xs with
  | nil => rfl
  | cons c rest ih =>
      rw [List.foldr_cons, ih]
      cases t with
      | complete ys => exact absurd rfl (ht ys)
      | _ => rfl

@[simp] theorem follow_zero (s : Store) (fuel : Nat) :
    s.follow fuel Hash.zero = .complete [] := by
  cases fuel <;> simp [follow]

theorem follow_missing (hne : h ≠ Hash.zero) (habsent : s.get? h = none)
    (fuel : Nat) : s.follow (fuel + 1) h = .missing h := by
  simp [follow, hne, habsent]

theorem follow_short {chunk : Bytes} (hne : h ≠ Hash.zero)
    (hstored : s.get? h = some chunk) (hshort : chunk.length < Hash.size)
    (fuel : Nat) : s.follow (fuel + 1) h = .short chunk.length := by
  simp [follow, hne, hstored, Linked.ofBytes_of_short hshort]

theorem follow_linked {c : Linked} (hne : h ≠ Hash.zero)
    (hstored : s.get? h = some c.bytes) (fuel : Nat) :
    s.follow (fuel + 1) h = (s.follow fuel c.next).push c := by
  simp [follow, hne, hstored]

/-- The bounded walk passes the chunks of a walk. -/
theorem Passes.follow (hpasses : s.Passes root chunks stop) (fuel : Nat) :
    s.follow (fuel + chunks.length) root =
      chunks.foldr Trail.push (s.follow fuel stop) := by
  induction chunks generalizing root with
  | nil =>
      have hstart : root = stop := hpasses
      rw [hstart]
      rfl
  | cons c rest ih =>
      obtain ⟨hne, hstored, hrest⟩ := hpasses
      rw [List.length_cons, ← Nat.add_assoc, follow_linked hne hstored, ih hrest]
      rfl

/-- The bound is enough for every walk that stops. -/
theorem Passes.trail (hpasses : s.Passes root chunks stop)
    (hstops : s.Stops stop) :
    ∃ fuel, s.trail root = chunks.foldr Trail.push (s.follow (fuel + 1) stop) := by
  have hlength := hpasses.length_le_size hstops
  refine ⟨s.size - chunks.length, ?_⟩
  rw [← hpasses.follow, Store.trail]
  congr 1
  omega

theorem trail_of_passes_zero (hpasses : s.Passes root chunks Hash.zero) :
    s.trail root = .complete chunks := by
  obtain ⟨fuel, htrail⟩ := hpasses.trail .sentinel
  rw [htrail, follow_zero, Trail.foldr_push_complete, List.append_nil]

theorem trail_of_missing (hpasses : s.Passes root chunks stop)
    (hne : stop ≠ Hash.zero) (habsent : s.get? stop = none) :
    s.trail root = .missing stop := by
  obtain ⟨fuel, htrail⟩ := hpasses.trail (.missing habsent)
  rw [htrail, follow_missing hne habsent,
    Trail.foldr_push_of_ne_complete fun _ h => by cases h]

theorem trail_of_short {chunk : Bytes} (hpasses : s.Passes root chunks stop)
    (hne : stop ≠ Hash.zero) (hstored : s.get? stop = some chunk)
    (hshort : chunk.length < Hash.size) :
    s.trail root = .short chunk.length := by
  obtain ⟨fuel, htrail⟩ := hpasses.trail (.short hstored hshort)
  rw [htrail, follow_short hne hstored hshort,
    Trail.foldr_push_of_ne_complete fun _ h => by cases h]

/-- A walk that stops does so at the sentinel, or it is cut short by a missing or a
short chunk. -/
theorem Ends.cases (hends : s.Ends root) :
    (∃ chunks, s.Passes root chunks Hash.zero) ∨
    ∃ chunks stop, s.Passes root chunks stop ∧ stop ≠ Hash.zero ∧
      (s.get? stop = none ∨
        ∃ chunk, s.get? stop = some chunk ∧ chunk.length < Hash.size) := by
  obtain ⟨chunks, stop, hpasses, hstops⟩ := hends
  by_cases hzero : stop = Hash.zero
  · subst hzero
    exact Or.inl ⟨chunks, hpasses⟩
  · refine Or.inr ⟨chunks, stop, hpasses, hzero, ?_⟩
    cases hstops with
    | sentinel => exact absurd rfl hzero
    | missing habsent => exact Or.inl habsent
    | short hstored hshort => exact Or.inr ⟨_, hstored, hshort⟩

end Trails

section Payloads

/-- From a walk to the sentinel the payload is put together. -/
theorem reassemble_of_passes (hpasses : s.Passes root chunks Hash.zero) :
    s.reassemble root = .ok (Chain.payload chunks) := by
  rw [reassemble, trail_of_passes_zero hpasses]
  rfl

/-- A walk that stops fails to give a payload exactly when it stops at a missing or
a short chunk. -/
theorem exists_error_reassemble_iff (hends : s.Ends root) :
    (∃ e, s.reassemble root = .error e) ↔
      ∃ chunks stop, s.Passes root chunks stop ∧ stop ≠ Hash.zero ∧
        (s.get? stop = none ∨
          ∃ chunk, s.get? stop = some chunk ∧ chunk.length < Hash.size) := by
  constructor
  · rintro ⟨e, herror⟩
    rcases hends.cases with ⟨chunks, hpasses⟩ | hcut
    · rw [reassemble_of_passes hpasses] at herror
      cases herror
    · exact hcut
  · rintro ⟨chunks, stop, hpasses, hne, habsent | ⟨chunk, hstored, hshort⟩⟩
    · rw [reassemble, trail_of_missing hpasses hne habsent]
      exact ⟨_, rfl⟩
    · rw [reassemble, trail_of_short hpasses hne hstored hshort]
      exact ⟨_, rfl⟩

/-- A root without a payload breaks the protocol. -/
theorem protocol_of_reassemble_error {e : Failure}
    (h : s.reassemble root = .error e) : ∃ why, e = .protocol why := by
  unfold reassemble at h
  cases htrail : s.trail root with
  | complete chunks => simp [htrail] at h
  | missing hash => exact ⟨_, by simpa [htrail] using h.symm⟩
  | short length => exact ⟨_, by simpa [htrail] using h.symm⟩
  | endless => exact ⟨_, by simpa [htrail] using h.symm⟩

end Payloads

end Store
end Courier
