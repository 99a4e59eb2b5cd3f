import Mathlib.Data.List.Basic

/-!
# The first of each key

`firstOf key l` keeps the first element of `l` with each key, and `withPast f l` is what `f`
says of each element, given the elements before it.  Both are extended at the end of the list.
-/

namespace Intellivault.Lib

variable {α β κ : Type}

section FirstOf

variable [DecidableEq κ] (key : α → κ)

/-- The elements whose key no earlier element has. -/
def firstOf : List α → List α
  | [] => []
  | a :: rest => a :: (firstOf rest).filter fun b => key b ≠ key a

theorem firstOf_append (l l' : List α) :
    firstOf key (l ++ l') = firstOf key l ++ (firstOf key l').filter fun b => key b ∉ l.map key := by
  induction l with
  | nil => simp [firstOf]
  | cons a l ih =>
      have split : ∀ b, (decide (key b ≠ key a) && decide (key b ∉ l.map key)) =
          decide (key b ∉ (a :: l).map key) := by
        intro b
        simp [not_or]
      rw [List.cons_append, firstOf, firstOf, ih, List.filter_append, List.filter_filter]
      simp only [split, List.cons_append]

/-- One more element is kept if its key is new. -/
theorem firstOf_snoc (l : List α) (a : α) :
    firstOf key (l ++ [a]) = if key a ∈ l.map key then firstOf key l else firstOf key l ++ [a] := by
  rw [firstOf_append]
  split
  · rename_i old
    simpa [firstOf] using old
  · rename_i new
    rw [show firstOf key [a] = [a] from rfl, List.filter_cons_of_pos (by simpa using new)]
    rfl

end FirstOf

/-- What `f` says of each element after the ones before it. -/
def withPast (f : List α → α → Option β) (past : List α) : List α → List β
  | [] => []
  | a :: rest => (f past a).toList ++ withPast f (past ++ [a]) rest

theorem withPast_snoc (f : List α → α → Option β) (past l : List α) (a : α) :
    withPast f past (l ++ [a]) = withPast f past l ++ (f (past ++ l) a).toList := by
  induction l generalizing past with
  | nil => simp [withPast]
  | cons b l ih => simp [withPast, ih]

end Intellivault.Lib
