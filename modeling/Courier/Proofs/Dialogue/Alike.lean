import Courier.Dialogue

/-!
# Dialogues on channels that answer alike

A dialogue sees of a channel no more than the answers and the times.  So what it
comes to on one channel it comes to on every other that answers alike, as far as
the commands go that it can ask.

* `Dialogue.Asks`: every command of a dialogue has a property; it is then on record
  for every command that is sent (`Dialogue.Asks.logged`).
* `Channel.beside`: a channel beside a clock with given readings.
* `Channel.Alike`: two channels whose states are related and stay related, with the
  same answers; `Channel.Alike.run` brings this to whole dialogues and
  `Channel.Alike.logged` to the records of their exchanges.
* `Dialogue.keeps`: what every answer keeps, a dialogue keeps.
* `Dialogue.run_logged`: the record changes nothing in what a dialogue comes to.
-/

namespace Courier

variable {α β σ τ : Type} {P Q : Request → Prop}

namespace Dialogue

/-- Every command that the dialogue can come to has the property. -/
def Asks (P : Request → Prop) : Dialogue α → Prop
  | .done _ => True
  | .ask request next => P request ∧ ∀ response, (next response).Asks P
  | .clock next => ∀ time, (next time).Asks P

/-- So has every command on record. -/
theorem Asks.logged {d : Dialogue α} (h : d.Asks P) (channel : Channel σ)
    {s : σ × List Exchange} (hs : ∀ x ∈ s.2, P x.request) :
    ∀ x ∈ (d.run channel.logged s).2.2, P x.request := by
  induction d generalizing s with
  | done value => exact hs
  | ask request next ih =>
      obtain ⟨hrequest, hnext⟩ := h
      refine ih _ (hnext _) fun x hx => ?_
      rcases List.mem_cons.mp hx with rfl | hx
      · exact hrequest
      · exact hs x hx
  | clock next ih => exact ih _ (h _) hs

theorem Asks.imp {d : Dialogue α} (h : d.Asks P) (hPQ : ∀ request, P request → Q request) :
    d.Asks Q := by
  induction d with
  | done value => trivial
  | ask request next ih =>
      exact ⟨hPQ request h.1, fun response => ih response (h.2 response)⟩
  | clock next ih => exact fun time => ih time (h time)

/-- Every command asks for something. -/
theorem asks_any (d : Dialogue α) : d.Asks fun _ => True := by
  induction d with
  | done value => trivial
  | ask request next ih => exact ⟨trivial, ih⟩
  | clock next ih => exact ih

theorem bind_bind {γ : Type} (d : Dialogue α) (f : α → Dialogue β) (g : β → Dialogue γ) :
    (d.bind f).bind g = d.bind fun value => (f value).bind g := by
  induction d with
  | done value => rfl
  | ask request next ih => simp [bind, ih]
  | clock next ih => simp [bind, ih]

/-- What every answer and every look at the clock keeps, a dialogue keeps. -/
theorem keeps {I : σ → Prop} {channel : Channel σ}
    (hanswer : ∀ s request, I s → I (channel.answer s request).2)
    (htime : ∀ s, I s → I (channel.time s).2) (d : Dialogue α) {s : σ} (hs : I s) :
    I (d.run channel s).2 := by
  induction d generalizing s with
  | done value => exact hs
  | ask request next ih => exact ih _ (hanswer s request hs)
  | clock next ih => exact ih _ (htime s hs)

/-- The record changes nothing in what a dialogue comes to. -/
theorem run_logged (d : Dialogue α) (channel : Channel σ) (s : σ) (log : List Exchange) :
    (d.run channel.logged (s, log)).1 = (d.run channel s).1 ∧
      (d.run channel.logged (s, log)).2.1 = (d.run channel s).2 := by
  induction d generalizing s log with
  | done value => exact ⟨rfl, rfl⟩
  | ask request next ih => exact ih _ _ _
  | clock next ih => exact ih _ _ _

end Dialogue

namespace Channel

/-- The channel beside a clock with given readings. -/
def beside (channel : Channel σ) (readings : Nat → Nat) : Channel (σ × Nat) where
  answer s request :=
    let answered := channel.answer s.1 request
    (answered.1, answered.2, s.2)
  time s := (readings s.2, s.1, s.2 + 1)

/-- From related states on, two channels show the same times and give the same
answers to the commands with a property, and they stay related. -/
structure Alike (P : Request → Prop) (R : σ → τ → Prop) (c : Channel σ)
    (d : Channel τ) : Prop where
  answer : ∀ {s t request}, R s t → P request →
    (c.answer s request).1 = (d.answer t request).1 ∧
      R (c.answer s request).2 (d.answer t request).2
  time : ∀ {s t}, R s t → (c.time s).1 = (d.time t).1 ∧ R (c.time s).2 (d.time t).2

variable {R : σ → τ → Prop} {c : Channel σ} {d : Channel τ}

/-- A dialogue comes to the same on channels that answer alike. -/
theorem Alike.run (h : Alike P R c d) {x : Dialogue α} (hx : x.Asks P) {s : σ}
    {t : τ} (hst : R s t) :
    (x.run c s).1 = (x.run d t).1 ∧ R (x.run c s).2 (x.run d t).2 := by
  induction x generalizing s t with
  | done value => exact ⟨rfl, hst⟩
  | ask request next ih =>
      obtain ⟨hanswer, hrelated⟩ := h.answer hst hx.1
      rw [Dialogue.run_ask, Dialogue.run_ask, hanswer]
      exact ih _ (hx.2 _) hrelated
  | clock next ih =>
      obtain ⟨htime, hrelated⟩ := h.time hst
      rw [Dialogue.run_clock, Dialogue.run_clock, htime]
      exact ih _ (hx _) hrelated

/-- With the exchanges on record the channels are alike too, and so are the records. -/
theorem Alike.logged (h : Alike P R c d) :
    Alike P (fun s t => R s.1 t.1 ∧ s.2 = t.2) c.logged d.logged := by
  constructor
  · rintro s t request ⟨hst, hrecord⟩ hrequest
    obtain ⟨hanswer, hrelated⟩ := h.answer hst hrequest
    refine ⟨hanswer, hrelated, ?_⟩
    simp only [Channel.logged, hanswer, hrecord]
  · rintro s t ⟨hst, hrecord⟩
    obtain ⟨htime, hrelated⟩ := h.time hst
    exact ⟨htime, hrelated, hrecord⟩

end Channel
end Courier
