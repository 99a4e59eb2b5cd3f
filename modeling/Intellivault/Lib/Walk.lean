import Mathlib.Data.List.Dedup
import Mathlib.Logic.Relation

/-!
# Frontier walks

A walk keeps a set of seen nodes and a frontier, asks for every node one step away
from the frontier, and repeats with the nodes it had not seen.  `walk` is that loop
with a bound on its rounds, `Walks` the loop without one.  Over a finite universe the loop
has stopped by itself within the bound (`walks_walk`), and it collects exactly the nodes the
step relation reaches from the start (`mem_walk_iff`).
-/

namespace Intellivault.Lib

variable {α : Type} [DecidableEq α]

/-- What one round adds: the answers for the frontier that were not seen before. -/
def found (next : List α → List α) (frontier seen : List α) : List α :=
  ((next frontier).filter (· ∉ seen)).dedup

/-- The loop, for at most `fuel` rounds. -/
def walk (next : List α → List α) : Nat → List α → List α → List α
  | 0, _, seen => seen
  | fuel + 1, frontier, seen =>
      if frontier = [] then seen
      else walk next fuel (found next frontier seen) (seen ++ found next frontier seen)

/-- The loop as it is: it stops on an empty frontier, with what it has seen. -/
inductive Walks (next : List α → List α) : List α → List α → List α → Prop
  | stop {seen : List α} : Walks next [] seen seen
  | round {frontier seen out : List α} (going : frontier ≠ [])
      (rest : Walks next (found next frontier seen) (seen ++ found next frontier seen) out) :
      Walks next frontier seen out

/-- It stops in one way at most. -/
theorem Walks.unique {next : List α → List α} {frontier seen out out' : List α}
    (walks : Walks next frontier seen out) (walks' : Walks next frontier seen out') : out = out' := by
  induction walks with
  | stop =>
      cases walks' with
      | stop => rfl
      | round going _ => exact (going rfl).elim
  | round going _ ih =>
      cases walks' with
      | stop => exact (going rfl).elim
      | round _ rest => exact ih rest

@[simp] theorem mem_found {next : List α → List α} {frontier seen : List α} {x : α} :
    x ∈ found next frontier seen ↔ x ∈ next frontier ∧ x ∉ seen := by
  simp [found]

section Relation

variable {next : List α → List α} {R : α → α → Prop} {U : List α}

/-- Whatever the walk collects is reached from something it started with. -/
theorem reaches_of_mem_walk (pointwise : ∀ ids x, x ∈ next ids ↔ ∃ a ∈ ids, R a x) :
    ∀ (fuel : Nat) (frontier seen : List α), (∀ a ∈ frontier, a ∈ seen) →
      ∀ x ∈ walk next fuel frontier seen, ∃ a ∈ seen, Relation.ReflTransGen R a x := by
  intro fuel
  induction fuel with
  | zero => exact fun _ seen _ x hx => ⟨x, hx, .refl⟩
  | succ fuel ih =>
      intro frontier seen sub x hx
      simp only [walk] at hx
      split at hx
      · exact ⟨x, hx, .refl⟩
      · obtain ⟨a, ha, reach⟩ := ih _ _ (fun a ha => List.mem_append_right _ ha) x hx
        rcases List.mem_append.mp ha with ha | ha
        · exact ⟨a, ha, reach⟩
        · obtain ⟨b, hb, step⟩ := (pointwise _ _).mp (mem_found.mp ha).1
          exact ⟨b, sub b hb, .head step reach⟩

theorem subset_walk : ∀ (fuel : Nat) (frontier seen : List α),
    ∀ x ∈ seen, x ∈ walk next fuel frontier seen := by
  intro fuel
  induction fuel with
  | zero => exact fun _ _ x hx => hx
  | succ fuel ih =>
      intro frontier seen x hx
      simp only [walk]
      split
      · exact hx
      · exact ih _ _ x (List.mem_append_left _ hx)

/-- How many nodes of the universe are still unseen. -/
def unseen (U seen : List α) : Nat := (U.filter (· ∉ seen)).length

theorem unseen_append_lt {seen new : List α} {x : α} (hx : x ∈ new) (fresh : x ∉ seen)
    (inU : x ∈ U) : unseen U (seen ++ new) < unseen U seen := by
  have shrink : U.filter (· ∉ seen ++ new) = (U.filter (· ∉ seen)).filter (· ∉ new) := by
    rw [List.filter_filter]
    refine List.filter_congr fun y _ => ?_
    simp [Bool.and_comm]
  rw [unseen, unseen, shrink]
  refine Nat.lt_of_le_of_ne (List.length_filter_le _ _) fun same => ?_
  have all := List.length_filter_eq_length_iff.mp same x (by simp [inU, fresh])
  simp [hx] at all

/-- A round that finds something leaves fewer nodes unseen. -/
theorem found_shrinks (pointwise : ∀ ids x, x ∈ next ids ↔ ∃ a ∈ ids, R a x)
    (inside : ∀ a x, R a x → x ∈ U) {fuel : Nat} {frontier seen : List α}
    (bound : unseen U seen < fuel + 1) (some : found next frontier seen ≠ []) :
    unseen U (seen ++ found next frontier seen) < fuel := by
  obtain ⟨x, hx⟩ := List.exists_mem_of_ne_nil _ some
  obtain ⟨answer, fresh⟩ := mem_found.mp hx
  obtain ⟨b, _, step⟩ := (pointwise _ _).mp answer
  have fewer := unseen_append_lt hx fresh (inside b x step)
  omega

/-- With a round left for every unseen node the loop ends on an empty frontier, so the
result is closed under the step relation. -/
theorem walk_closed (pointwise : ∀ ids x, x ∈ next ids ↔ ∃ a ∈ ids, R a x)
    (inside : ∀ a x, R a x → x ∈ U) :
    ∀ (fuel : Nat) (frontier seen : List α), (frontier ≠ [] → unseen U seen < fuel) →
      (∀ a ∈ seen, a ∉ frontier → ∀ x, R a x → x ∈ seen) →
      ∀ a ∈ walk next fuel frontier seen, ∀ x, R a x → x ∈ walk next fuel frontier seen := by
  intro fuel
  induction fuel with
  | zero =>
      intro frontier seen bound done a ha x step
      have empty : frontier = [] := by
        by_contra ne
        exact Nat.not_lt_zero _ (bound ne)
      exact done a ha (by simp [empty]) x step
  | succ fuel ih =>
      intro frontier seen bound done
      simp only [walk]
      split
      · rename_i empty
        intro a ha x step
        exact done a ha (by simp [empty]) x step
      · rename_i nonempty
        refine ih _ _ (fun ne => ?_) (fun a ha old x step => ?_)
        · exact found_shrinks pointwise inside (bound nonempty) ne
        · have seenA : a ∈ seen := (List.mem_append.mp ha).resolve_right old
          by_cases front : a ∈ frontier
          · by_cases seenX : x ∈ seen
            · exact List.mem_append_left _ seenX
            · have answer : x ∈ next frontier := (pointwise _ _).mpr ⟨a, front, step⟩
              exact List.mem_append_right _ (mem_found.mpr ⟨answer, seenX⟩)
          · exact List.mem_append_left _ (done a seenA front x step)

/-- With a round left for every unseen node the bound is not what ends the loop. -/
theorem walks_walk (pointwise : ∀ ids x, x ∈ next ids ↔ ∃ a ∈ ids, R a x)
    (inside : ∀ a x, R a x → x ∈ U) :
    ∀ (fuel : Nat) (frontier seen : List α), (frontier ≠ [] → unseen U seen < fuel) →
      Walks next frontier seen (walk next fuel frontier seen) := by
  intro fuel
  induction fuel with
  | zero =>
      intro frontier seen bound
      have empty : frontier = [] := by
        by_contra ne
        exact Nat.not_lt_zero _ (bound ne)
      rw [empty, walk]
      exact .stop
  | succ fuel ih =>
      intro frontier seen bound
      rw [walk]
      split
      · rename_i empty
        rw [empty]
        exact .stop
      · rename_i going
        exact .round going (ih _ _ fun ne => found_shrinks pointwise inside (bound going) ne)

/-- **A bounded walk is reachability.**  When every step lands in `U`, `U.length + 1`
rounds from one start collect exactly the nodes reachable from it. -/
theorem mem_walk_iff (pointwise : ∀ ids x, x ∈ next ids ↔ ∃ a ∈ ids, R a x)
    (inside : ∀ a x, R a x → x ∈ U) {start x : α} :
    x ∈ walk next (U.length + 1) [start] [start] ↔ Relation.ReflTransGen R start x := by
  constructor
  · intro hx
    obtain ⟨a, ha, reach⟩ := reaches_of_mem_walk pointwise _ _ _ (fun _ h => h) x hx
    rwa [List.mem_singleton.mp ha] at reach
  · intro reach
    have bound : unseen U [start] < U.length + 1 :=
      Nat.lt_succ_of_le (List.length_filter_le _ _)
    have closed := walk_closed pointwise inside (U.length + 1) [start] [start]
      (fun _ => bound) (fun a ha old => absurd ha old)
    induction reach with
    | refl => exact subset_walk _ _ _ _ (List.mem_singleton_self start)
    | tail _ step ih => exact closed _ ih _ step

end Relation

end Intellivault.Lib
