/-!
# Searching a row

The elements of a row that pass a test come first in it, and how many they are is found by halving.
Of a row in which they are mixed with others nothing can be said.
-/

namespace ParseView.Edit

/-- Halves the places from `low` to `high` until the first one where the test fails is left. -/
def searchBetween {α : Type} (test : α → Bool) (row : List α) (low high : Nat) : Nat :=
  if low < high then
    let middle := low + (high - low) / 2
    if row[middle]?.any test then searchBetween test row (middle + 1) high
    else searchBetween test row low middle
  else low
termination_by high - low

/-- How many elements pass a test, if they come first. -/
def partitionPoint {α : Type} (test : α → Bool) (row : List α) : Nat :=
  searchBetween test row 0 row.length

section Append

variable {α : Type} {test : α → Bool} {left right : List α}

theorem searchBetween_append (hleft : ∀ x ∈ left, test x = true)
    (hright : ∀ x ∈ right, test x = false) {low high : Nat} (hlow : low ≤ left.length)
    (hhigh : left.length ≤ high) :
    searchBetween test (left ++ right) low high = left.length := by
  fun_induction searchBetween test (left ++ right) low high with
  | case1 low high hlt middle hpass ih =>
      -- Only places on the left pass, so that the end of the left lies behind the middle.
      refine ih (Nat.lt_of_not_le fun hle => ?_) hhigh
      rw [List.getElem?_append_right hle, Option.any_eq_true] at hpass
      obtain ⟨x, hx, hpass⟩ := hpass
      rw [hright x (List.mem_of_getElem? hx)] at hpass
      exact Bool.noConfusion hpass
  | case2 low high hlt middle hfail ih =>
      refine ih hlow (Nat.le_of_not_lt fun hmiddle => hfail ?_)
      rw [List.getElem?_append_left hmiddle, List.getElem?_eq_getElem hmiddle]
      exact hleft _ (List.getElem_mem hmiddle)
  | case3 low high hlt => omega

theorem partitionPoint_append (hleft : ∀ x ∈ left, test x = true)
    (hright : ∀ x ∈ right, test x = false) :
    partitionPoint test (left ++ right) = left.length :=
  searchBetween_append hleft hright (Nat.zero_le _) (by simp)

end Append

end ParseView.Edit
