/-!
# Parts

A sequence cut at each occurrence of a separator, as a path is at its slashes. There is one part
more than there are separators, and parts may be empty.
-/

namespace Duelist.Text

/-- The parts between the separators. -/
def parts {α : Type} [DecidableEq α] (separator : α) : List α → List (List α)
  | [] => [[]]
  | a :: rest =>
    if a = separator then [] :: parts separator rest
    else match parts separator rest with
      | part :: others => (a :: part) :: others
      | [] => [[a]]

/-- There is always a part. -/
theorem parts_ne_nil {α : Type} [DecidableEq α] (separator : α) (as : List α) :
    parts separator as ≠ [] := by
  cases as with
  | nil => simp [parts]
  | cons a rest =>
    unfold parts
    split
    · simp
    · split <;> simp

end Duelist.Text
