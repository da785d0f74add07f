/-!
# Parts of a text

A text falls into parts at every place where a mark stands.

* `Parts.split` gives the parts, `Parts.join` puts parts together.
* `Parts.join_split` says that nothing is lost: joined with the mark again, the
  parts are the text.  `Parts.split_join` says that there are no other parts without the
  mark that make it.
-/

namespace Courier
namespace Parts

/-- The parts of a text between the places where a mark stands. -/
def split (mark : Char) : List Char → List (List Char)
  | [] => [[]]
  | c :: cs =>
      if c = mark then [] :: split mark cs
      else
        match split mark cs with
        | [] => [[c]]
        | part :: parts => (c :: part) :: parts

/-- The parts one after another, with the same text before each but the first. -/
def join (between : List Char) : List (List Char) → List Char
  | [] => []
  | part :: parts => part ++ parts.flatMap (between ++ ·)

theorem split_ne_nil (mark : Char) (cs : List Char) : split mark cs ≠ [] := by
  cases cs with
  | nil => simp [split]
  | cons c cs =>
      unfold split
      split
      · simp
      · split <;> simp

/-- No part is lost, and nothing but the mark stands between two of them. -/
theorem join_split (mark : Char) (cs : List Char) :
    join [mark] (split mark cs) = cs := by
  induction cs with
  | nil => rfl
  | cons c cs ih =>
      cases h : split mark cs with
      | nil => exact absurd h (split_ne_nil mark cs)
      | cons part parts =>
          rw [h] at ih
          by_cases hc : c = mark
          · simp only [split, hc, if_true, h, join, List.nil_append,
              List.flatMap_cons]
            rw [← ih]
            simp [join]
          · simp only [split, hc, if_false, h, join, List.cons_append]
            rw [← ih]
            simp [join]

/-- A text without the mark is its only part. -/
theorem split_of_not_mem {mark : Char} {part : List Char} (h : mark ∉ part) :
    split mark part = [part] := by
  induction part with
  | nil => rfl
  | cons c cs ih =>
      have hc : ¬c = mark := fun heq => h (heq ▸ List.mem_cons_self)
      rw [split, if_neg hc, ih (List.not_mem_of_not_mem_cons h)]

/-- Up to the first mark stands the first part. -/
theorem split_append_cons {mark : Char} {part : List Char} (h : mark ∉ part)
    (rest : List Char) : split mark (part ++ mark :: rest) = part :: split mark rest := by
  induction part with
  | nil => rw [List.nil_append, split, if_pos rfl]
  | cons c cs ih =>
      have hc : ¬c = mark := fun heq => h (heq ▸ List.mem_cons_self)
      rw [List.cons_append, split, if_neg hc, ih (List.not_mem_of_not_mem_cons h)]

/-- Parts without the mark are the parts of the text that they make. -/
theorem split_join {mark : Char} {part : List Char} {parts : List (List Char)}
    (h : ∀ p ∈ part :: parts, mark ∉ p) :
    split mark (join [mark] (part :: parts)) = part :: parts := by
  induction parts generalizing part with
  | nil =>
      rw [join, List.flatMap_nil, List.append_nil]
      exact split_of_not_mem (h part List.mem_cons_self)
  | cons next later ih =>
      have hjoin : join [mark] (part :: next :: later) =
          part ++ mark :: join [mark] (next :: later) := by
        simp [join]
      rw [hjoin, split_append_cons (h part List.mem_cons_self),
        ih fun p hp => h p (List.mem_cons_of_mem _ hp)]

end Parts
end Courier
