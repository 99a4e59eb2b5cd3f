import Mathlib.Algebra.GroupWithZero.Nat
import Mathlib.Data.List.Basic

/-!
# The pieces of a split list

`xs.splitOn x` cuts a list at each `x`.  Put back with an `x` before each, the pieces are the
list behind one more `x` (`flatMap_splitOn`); the facts about pieces follow from that.
-/

namespace Intellivault.Lib

variable {α : Type*}

theorem not_mem_of_mem_splitOnP {p : α → Bool} {xs piece : List α} (mem : piece ∈ xs.splitOnP p) :
    ∀ c ∈ piece, p c = false := by
  induction xs generalizing piece with
  | nil =>
      rw [List.splitOnP_nil, List.mem_singleton] at mem
      rw [mem]
      nofun
  | cons x xs ih =>
      rw [List.splitOnP_cons_eq_if_modifyHead] at mem
      split at mem
      · rcases List.mem_cons.mp mem with rfl | mem
        · nofun
        · exact ih mem
      · rename_i kept
        cases pieces : xs.splitOnP p with
        | nil => exact absurd pieces (List.splitOnP_ne_nil p xs)
        | cons head rest =>
            rw [pieces, List.modifyHead_cons] at mem
            rw [pieces] at ih
            rcases List.mem_cons.mp mem with rfl | mem
            · intro c mem'
              rcases List.mem_cons.mp mem' with rfl | mem'
              · exact Bool.eq_false_iff.mpr kept
              · exact ih List.mem_cons_self c mem'
            · exact ih (List.mem_cons_of_mem head mem)

theorem splitOnP_congr {p q : α → Bool} {xs : List α} (same : ∀ x ∈ xs, p x = q x) :
    xs.splitOnP p = xs.splitOnP q := by
  induction xs with
  | nil => rfl
  | cons x xs ih =>
      rw [List.splitOnP_cons_eq_if_modifyHead, List.splitOnP_cons_eq_if_modifyHead,
        same x List.mem_cons_self, ih fun y mem => same y (List.mem_cons_of_mem x mem)]

theorem flatMap_cons_eq_intercalate (x : α) {ls : List (List α)} (nonempty : ls ≠ []) :
    ls.flatMap (x :: ·) = x :: [x].intercalate ls := by
  induction ls with
  | nil => exact absurd rfl nonempty
  | cons l ls ih =>
      cases ls with
      | nil => rw [List.flatMap_singleton, List.intercalate_singleton]
      | cons m ls =>
          rw [List.flatMap_cons, ih (List.cons_ne_nil m ls), List.intercalate_cons_cons]
          simp only [List.cons_append, List.append_assoc, List.nil_append]

section Separator

variable [BEq α] [LawfulBEq α] {x : α} {xs piece : List α}

theorem not_mem_of_mem_splitOn (mem : piece ∈ xs.splitOn x) : x ∉ piece := by
  intro mem'
  have other := not_mem_of_mem_splitOnP (p := (· == x)) mem x mem'
  rw [beq_self_eq_true] at other
  cases other

theorem flatMap_splitOn (x : α) (xs : List α) : (xs.splitOn x).flatMap (x :: ·) = x :: xs := by
  rw [flatMap_cons_eq_intercalate x (List.splitOn_ne_nil x xs), List.intercalate_splitOn]

/-- The pieces of a list that is put together from lists without the separator. -/
theorem splitOn_of_flatMap {ls : List (List α)} (absent : ∀ l ∈ ls, x ∉ l)
    (joined : ls.flatMap (x :: ·) = x :: xs) : xs.splitOn x = ls := by
  have nonempty : ls ≠ [] := by
    rintro rfl
    cases joined
  rw [flatMap_cons_eq_intercalate x nonempty] at joined
  rw [← (List.cons.inj joined).2]
  exact List.splitOn_intercalate x absent nonempty

/-- A piece is where the list has it: after the start or a separator, before the end or one. -/
theorem mem_splitOn_split (mem : piece ∈ xs.splitOn x) :
    ∃ before after, x :: xs = before ++ x :: (piece ++ after) ∧
      (after = [] ∨ ∃ rest, after = x :: rest) := by
  obtain ⟨left, right, split⟩ := List.append_of_mem mem
  refine ⟨left.flatMap (x :: ·), right.flatMap (x :: ·), ?_, ?_⟩
  · rw [← flatMap_splitOn, split, List.flatMap_append, List.flatMap_cons]
    rfl
  · cases right with
    | nil => exact Or.inl rfl
    | cons next right => exact Or.inr ⟨_, List.flatMap_cons⟩

theorem infix_of_mem_splitOn (mem : piece ∈ xs.splitOn x) : piece <:+: xs := by
  obtain ⟨before, after, split, -⟩ := mem_splitOn_split mem
  cases before with
  | nil => exact ⟨[], after, (List.cons.inj split).2.symm⟩
  | cons _ before =>
      refine ⟨before ++ [x], after, ?_⟩
      rw [(List.cons.inj split).2]
      simp only [List.append_assoc, List.cons_append, List.nil_append, List.append_eq]

theorem splitOn_append_left {ys : List α} (absent : x ∉ ys) :
    (ys ++ xs).splitOn x = (xs.splitOn x).modifyHead (ys ++ ·) := by
  induction ys with
  | nil =>
      rw [List.nil_append]
      cases xs.splitOn x <;> rfl
  | cons y ys ih =>
      rw [List.mem_cons, not_or] at absent
      have other : ¬(y == x) = true := fun same => absent.1 (eq_of_beq same).symm
      rw [List.cons_append, List.splitOn_cons_eq_if_modifyHead, if_neg other, ih absent.2,
        List.modifyHead_modifyHead]
      rfl

/-- Text behind the list goes to its last piece. -/
theorem mem_splitOn_append {ys : List α} (absent : x ∉ ys) (mem : piece ∈ (xs ++ ys).splitOn x) :
    piece ∈ xs.splitOn x ∨ ∃ last ∈ xs.splitOn x, piece = last ++ ys := by
  obtain ⟨init, last, split⟩ : ∃ init last, xs.splitOn x = init ++ [last] :=
    ⟨_, _, (List.dropLast_append_getLast (List.splitOn_ne_nil x xs)).symm⟩
  have joined : (init ++ [last ++ ys]).flatMap (x :: ·) = x :: (xs ++ ys) := by
    have parts := flatMap_splitOn x xs
    rw [split, List.flatMap_append, List.flatMap_singleton] at parts
    rw [List.flatMap_append, List.flatMap_singleton, ← List.cons_append, ← List.append_assoc,
      parts, List.cons_append]
  have pieces : ∀ l ∈ init ++ [last ++ ys], x ∉ l := by
    intro l mem
    rcases List.mem_append.mp mem with mem | mem
    · exact not_mem_of_mem_splitOn (split ▸ List.mem_append_left [last] mem)
    · rw [List.mem_singleton.mp mem, List.mem_append, not_or]
      have whole := List.mem_append_right init (List.mem_singleton_self last)
      exact ⟨not_mem_of_mem_splitOn (split ▸ whole), absent⟩
  rw [splitOn_of_flatMap pieces joined] at mem
  rw [split]
  rcases List.mem_append.mp mem with mem | mem
  · exact Or.inl (List.mem_append_left [last] mem)
  · exact Or.inr ⟨last, List.mem_append_right init (List.mem_singleton_self last),
      List.mem_singleton.mp mem⟩

/-- A piece of a part of the list begins the part, or begins a piece of the list. -/
theorem mem_splitOn_of_infix {ys : List α} (inside : ys <:+: xs) (mem : piece ∈ ys.splitOn x) :
    piece <+: ys ∨ ∃ more, piece ++ more ∈ xs.splitOn x := by
  obtain ⟨left, right, rfl⟩ := inside
  obtain ⟨before, after, split, -⟩ := mem_splitOn_split mem
  cases before with
  | nil => exact Or.inl ⟨after, (List.cons.inj split).2.symm⟩
  | cons _ before =>
      have apart : left ++ ys ++ right = (left ++ before) ++ x :: (piece ++ (after ++ right)) := by
        rw [(List.cons.inj split).2]
        simp only [List.append_assoc, List.cons_append, List.append_eq]
      cases pieces : (after ++ right).splitOn x with
      | nil => exact absurd pieces (List.splitOn_ne_nil x _)
      | cons head rest =>
          refine Or.inr ⟨head, ?_⟩
          rw [apart, List.splitOn_append_cons_self,
            splitOn_append_left (not_mem_of_mem_splitOn mem), pieces, List.modifyHead_cons]
          exact List.mem_append_right _ List.mem_cons_self

/-- Counting what is not the separator, piece by piece. -/
theorem sum_countP_splitOn {p : α → Bool} (absent : p x = false) (xs : List α) :
    ((xs.splitOn x).map (List.countP p)).sum = xs.countP p := by
  have counted := congrArg (List.countP p) (flatMap_splitOn x xs)
  rw [List.countP_flatMap, List.countP_cons_of_neg (by simp [absent])] at counted
  rw [← counted]
  refine congrArg List.sum (List.map_congr_left fun piece _ => ?_)
  rw [Function.comp_apply, List.countP_cons_of_neg (by simp [absent])]

end Separator

end Intellivault.Lib
