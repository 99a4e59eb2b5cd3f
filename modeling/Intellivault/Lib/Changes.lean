import Mathlib.Data.List.Range

/-!
# Observed changes

`changes key last l` keeps the elements whose key is not the key of the element before; `last`
is the key seen before the first one.  Where a key determines its element nothing is missed at
the end: the last change is the last element.
-/

namespace Intellivault.Lib

variable {α κ : Type} [DecidableEq κ] {key : α → κ} {last : Option κ} {a : α} {l : List α}

/-- The elements that do not repeat the key of the element before. -/
def changes (key : α → κ) (last : Option κ) : List α → List α
  | [] => []
  | a :: rest =>
      if some (key a) = last then changes key (some (key a)) rest
      else a :: changes key (some (key a)) rest

theorem changes_cons :
    changes key last (a :: l) =
      (if some (key a) = last then [] else [a]) ++ changes key (some (key a)) l := by
  rw [changes]
  split <;> rfl

/-- From an element on, the last change is the last element, or there was none. -/
theorem getLast?_cons_changes (versioned : ∀ b ∈ a :: l, ∀ c ∈ a :: l, key b = key c → b = c) :
    (a :: changes key (some (key a)) l).getLast? = (a :: l).getLast? := by
  induction l generalizing a with
  | nil => rfl
  | cons b l ih =>
      have rest := ih fun c hc d hd => versioned c (.tail _ hc) d (.tail _ hd)
      rw [List.getLast?_cons_cons, ← rest, changes]
      split
      · rename_i same
        have same : b = a := versioned b (.tail _ (.head _)) a (.head _) (Option.some.inj same)
        rw [same]
      · rw [List.getLast?_cons_cons]

/-- Nothing is missed at the end. -/
theorem getLast?_changes (versioned : ∀ b ∈ l, ∀ c ∈ l, key b = key c → b = c) :
    (changes key none l).getLast? = l.getLast? := by
  cases l with
  | nil => rfl
  | cons a l => exact getLast?_cons_changes versioned

/-- The changes of a sequence, by their places. -/
theorem changes_range (f : Nat → α) (n : Nat) :
    changes key none ((List.range n).map f) =
      ((List.range n).filter fun i => i = 0 ∨ key (f i) ≠ key (f (i - 1))).map f := by
  have later : ∀ m i, changes key (some (key (f i))) ((List.range' (i + 1) m).map f) =
      ((List.range' (i + 1) m).filter fun j => j = 0 ∨ key (f j) ≠ key (f (j - 1))).map f := by
    intro m
    induction m with
    | zero => exact fun _ => rfl
    | succ m ih =>
        intro i
        rw [List.range'_succ, List.map_cons, changes_cons, ih (i + 1), List.filter_cons]
        by_cases same : key (f (i + 1)) = key (f i)
        · simp [same]
        · simp [same]
  cases n with
  | zero => rfl
  | succ n =>
      rw [List.range_eq_range', List.range'_succ, List.map_cons, changes_cons, Nat.zero_add,
        later n 0]
      simp

end Intellivault.Lib
