import Mathlib.Data.List.Sort
import Mathlib.Data.List.Perm.Subperm

/-!
# The highest scores

`Nearest score xs k out` says that `out` is one of the ways to take the `k` members of `xs`
with the highest scores.  Selecting and filtering do not commute: what is left of a selection
is a selection of what is left exactly when the filter takes nothing away or the selection
already has everything the filter keeps (`Nearest.filter_iff`).
-/

namespace Intellivault.Lib

variable {α S : Type} [LinearOrder S] {score : α → S} {xs out : List α} {k : Nat}

/-- The list holds the `k` members with the highest scores, or all of them if they are fewer. -/
structure Nearest (score : α → S) (xs : List α) (k : Nat) (out : List α) : Prop where
  nodup : out.Nodup
  subset : out ⊆ xs
  length : out.length = min k xs.length
  highest : ∀ x ∈ xs, x ∉ out → ∀ y ∈ out, score x ≤ score y

/-- The order a selection is listed in does not matter. -/
theorem Nearest.perm {out' : List α} (h : Nearest score xs k out) (same : out.Perm out') :
    Nearest score xs k out' := by
  refine ⟨same.nodup_iff.mp h.nodup, fun x hx => h.subset (same.mem_iff.mpr hx), ?_, ?_⟩
  · rw [← same.length_eq, h.length]
  · intro x hx other y hy
    exact h.highest x hx (fun mem => other (same.mem_iff.mp mem)) y (same.mem_iff.mpr hy)

theorem length_le_of_subset (nodup : out.Nodup) (subset : out ⊆ xs) : out.length ≤ xs.length :=
  (List.subperm_of_subset nodup subset).length_le

/-- **A filter after the selection.** -/
theorem Nearest.filter_iff {p : α → Bool} (nodup : xs.Nodup) (h : Nearest score xs k out) :
    Nearest score (xs.filter p) k (out.filter p) ↔
      (∀ x ∈ out, p x) ∨ ∀ x ∈ xs, p x → x ∈ out := by
  have keep : out.filter p ⊆ xs.filter p := by
    intro x hx
    obtain ⟨mem, hp⟩ := List.mem_filter.mp hx
    exact List.mem_filter.mpr ⟨h.subset mem, hp⟩
  have fewer := length_le_of_subset (h.nodup.filter p) keep
  have taken : out.length ≤ k := h.length ▸ Nat.min_le_left _ _
  have members : (xs.filter p).length ≤ xs.length := List.length_filter_le _ _
  constructor
  · intro selected
    by_cases all : ∀ x ∈ out, p x
    · exact .inl all
    -- Something was filtered out, so the selection was cut short by the members, not by `k`.
    have lost : (out.filter p).length < out.length := by
      refine Nat.lt_of_le_of_ne (List.length_filter_le _ _) fun same => ?_
      exact all (List.length_filter_eq_length_iff.mp same)
    have length := selected.length
    have enough : (xs.filter p).length ≤ (out.filter p).length := by omega
    have same := (List.subperm_of_subset selected.nodup keep).perm_of_length_le enough
    refine .inr fun x hx hp => ?_
    exact (List.mem_filter.mp (same.mem_iff.mpr (List.mem_filter.mpr ⟨hx, hp⟩))).1
  · intro whole
    refine ⟨h.nodup.filter p, keep, ?_, ?_⟩
    · have length := h.length
      rcases whole with all | every
      · have same : out.filter p = out := List.filter_eq_self.mpr all
        rw [same] at fewer ⊢
        omega
      · have back : xs.filter p ⊆ out.filter p := by
          intro x hx
          obtain ⟨mem, hp⟩ := List.mem_filter.mp hx
          exact List.mem_filter.mpr ⟨every x mem hp, hp⟩
        have atLeast := length_le_of_subset (nodup.filter p) back
        have shorter : (out.filter p).length ≤ out.length := List.length_filter_le _ _
        omega
    · intro x hx other y hy
      obtain ⟨mem, hp⟩ := List.mem_filter.mp hx
      refine h.highest x mem (fun inside => ?_) y (List.mem_filter.mp hy).1
      exact other (List.mem_filter.mpr ⟨inside, hp⟩)

/-- One way to select: sort, and cut. -/
def nearest (score : α → S) (xs : List α) (k : Nat) : List α :=
  (xs.insertionSort fun a b => score b ≤ score a).take k

theorem nearest_spec (nodup : xs.Nodup) : Nearest score xs k (nearest score xs k) := by
  have perm := List.perm_insertionSort (fun a b => score b ≤ score a) xs
  have sorted := List.pairwise_insertionSort (fun a b => score b ≤ score a) xs
  have unique : (xs.insertionSort fun a b => score b ≤ score a).Nodup := perm.nodup_iff.mpr nodup
  refine ⟨unique.sublist (List.take_sublist _ _), ?_, ?_, ?_⟩
  · exact fun x hx => perm.mem_iff.mp (List.mem_of_mem_take hx)
  · rw [nearest, List.length_take, perm.length_eq]
  · intro x hx other y hy
    have mem := perm.mem_iff.mpr hx
    rw [← List.take_append_drop k (xs.insertionSort _), List.mem_append] at mem
    rw [← List.take_append_drop k (xs.insertionSort _), List.pairwise_append] at sorted
    exact sorted.2.2 y hy x (mem.resolve_left other)

end Intellivault.Lib
