/-!
# Pieces between separators

* `join_split`: joining the pieces with the separator gives the list again.
-/

namespace DownloadTriage

variable {α : Type} [DecidableEq α]

/-- The pieces of a list between separators: one more than there are separators. -/
def split (separator : α) : List α → List (List α)
  | [] => [[]]
  | x :: xs =>
    if x = separator then [] :: split separator xs
    else match split separator xs with
      | [] => [[x]]
      | p :: ps => (x :: p) :: ps

theorem split_ne_nil (separator : α) (xs : List α) : split separator xs ≠ [] := by
  cases xs with
  | nil => simp [split]
  | cons x xs =>
    by_cases hx : x = separator
    · simp [split, hx]
    · rw [split, if_neg hx]
      cases split separator xs <;> simp

theorem join_split (separator : α) (xs : List α) :
    [separator].intercalate (split separator xs) = xs := by
  induction xs with
  | nil => rfl
  | cons x xs ih =>
    obtain ⟨p, ps, h⟩ := List.exists_cons_of_ne_nil (split_ne_nil separator xs)
    rw [h] at ih
    by_cases hx : x = separator
    · subst hx
      rw [split, if_pos rfl, h, ← ih]
      rfl
    · rw [split, if_neg hx, h, ← ih]
      cases ps <;> rfl

end DownloadTriage
