import Mathlib.Data.List.Sort
import Mathlib.Data.List.Nodup

/-!
# Stable ranking

`Ranked score l ranked` says that `ranked` lists the members of `l` by decreasing score, and
members of one score as `l` lists them.  A stable sort ranks (`rank_ranked`), there is one ranking
(`Ranked.eq`), and cutting it commutes with filtering out the low scores (`Ranked.take_filter`).
-/

namespace Intellivault.Lib

variable {α S : Type} [LinearOrder S] {score : α → S} {l ranked ranked' : List α}

/-- The first element is listed before the second one: for its score, or for its place in `l`. -/
def Before (score : α → S) (l : List α) (a b : α) : Prop :=
  score b < score a ∨ score b = score a ∧ [a, b].Sublist l

structure Ranked (score : α → S) (l ranked : List α) : Prop where
  perm : ranked.Perm l
  order : ranked.Pairwise (Before score l)

/-- A stable sort by decreasing score. -/
def rank (score : α → S) (l : List α) : List α := l.insertionSort fun a b => score b ≤ score a

/-- Ranking the scored elements ranks the elements. -/
theorem rank_scored (score : α → S) (l : List α) :
    (l.map fun a => (score a, a)).insertionSort (fun a b => b.1 ≤ a.1) =
      (rank score l).map fun a => (score a, a) :=
  (List.map_insertionSort (fun a b => score b ≤ score a) (fun a b : S × α => b.1 ≤ a.1) _ _
    fun _ _ _ _ => Iff.rfl).symm

omit [LinearOrder S] in
/-- Filtering the scored elements by the score filters the elements. -/
theorem filter_scored (score : α → S) (l : List α) (keep : S → Prop) [DecidablePred keep] :
    ((l.map fun a => (score a, a)).filter fun b => keep b.1).map (·.2) =
      l.filter fun a => keep (score a) := by
  rw [List.filter_map, List.map_map]
  exact List.map_id _

theorem Before.le {a b : α} (before : Before score l a b) : score b ≤ score a := by
  rcases before with lower | ⟨same, -⟩
  · exact lower.le
  · exact same.le

theorem Before.cons {a b : α} (before : Before score l a b) (x : α) : Before score (x :: l) a b :=
  before.imp_right fun ⟨same, first⟩ => ⟨same, first.cons x⟩

/-- The first of the list is inserted before those of its score. -/
theorem orderedInsert_order {x : α} (sorted : ranked.Pairwise (Before score (x :: l)))
    (members : ranked ⊆ l) :
    (ranked.orderedInsert (fun a b => score b ≤ score a) x).Pairwise (Before score (x :: l)) := by
  induction ranked with
  | nil => exact List.pairwise_singleton _ _
  | cons b ranked ih =>
      obtain ⟨first, rest⟩ := List.pairwise_cons.mp sorted
      rw [List.orderedInsert_cons]
      split
      · rename_i above
        refine List.pairwise_cons.mpr ⟨fun c mem => ?_, sorted⟩
        have below : score c ≤ score x := by
          rcases List.mem_cons.mp mem with rfl | later
          · exact above
          · exact (first c later).le.trans above
        rcases below.lt_or_eq with lower | same
        · exact .inl lower
        · exact .inr ⟨same, (List.singleton_sublist.mpr (members mem)).cons_cons x⟩
      · rename_i below
        refine List.pairwise_cons.mpr ⟨fun c mem => ?_, ih rest (List.cons_subset.mp members).2⟩
        rcases (List.mem_orderedInsert _).mp mem with rfl | later
        · exact .inl (lt_of_not_ge below)
        · exact first c later

theorem rank_ranked (score : α → S) (l : List α) : Ranked score l (rank score l) := by
  refine ⟨List.perm_insertionSort _ _, ?_⟩
  induction l with
  | nil => exact .nil
  | cons x l ih =>
      have sorted : (rank score l).Pairwise (Before score (x :: l)) := ih.imp fun before => before.cons x
      exact orderedInsert_order sorted (List.perm_insertionSort _ _).subset

/-- Two members of a list without repetition come in one order only. -/
theorem eq_of_sublist {a b : α} (nodup : l.Nodup) (first : [a, b].Sublist l)
    (second : [b, a].Sublist l) : a = b := by
  induction l with
  | nil => cases first
  | cons x l ih =>
      obtain ⟨new, nodup⟩ := List.nodup_cons.mp nodup
      cases first with
      | cons _ inside =>
          cases second with
          | cons _ inside' => exact ih nodup inside inside'
          | cons_cons _ _ => exact absurd (inside.subset (by simp)) new
      | cons_cons _ _ =>
          cases second with
          | cons _ inside' => exact absurd (inside'.subset (by simp)) new
          | cons_cons _ _ => rfl

namespace Ranked

/-- There is one ranking. -/
theorem eq (nodup : l.Nodup) (h : Ranked score l ranked) (h' : Ranked score l ranked') :
    ranked = ranked' := by
  refine List.Perm.eq_of_pairwise ?_ h.order h'.order (h.perm.trans h'.perm.symm)
  intro a b _ _ before after
  rcases before with lower | ⟨same, first⟩
  · exact absurd lower (not_lt_of_ge after.le)
  · rcases after with lower | ⟨-, second⟩
    · exact absurd same (ne_of_gt lower)
    · exact eq_of_sublist nodup first second

/-- What a filter keeps is ranked as it was. -/
theorem filter (h : Ranked score l ranked) (p : α → Bool) :
    Ranked score (l.filter p) (ranked.filter p) := by
  refine ⟨h.perm.filter p, ?_⟩
  refine (h.order.filter p).imp_of_mem fun {a b} ha hb before => before.imp_right ?_
  rintro ⟨same, first⟩
  have kept : [a, b].filter p = [a, b] := by
    simp [(List.mem_filter.mp ha).2, (List.mem_filter.mp hb).2]
  exact ⟨same, kept ▸ first.filter p⟩

/-- If the filter keeps what scores higher than what it keeps, one may cut first. -/
theorem take_filter (h : Ranked score l ranked) {p : α → Bool}
    (upward : ∀ a b, score b ≤ score a → p b → p a) (n : Nat) :
    (ranked.take n).filter p = (ranked.filter p).take n := by
  have order := h.order
  clear h
  induction ranked generalizing n with
  | nil => simp
  | cons a ranked ih =>
      obtain ⟨first, rest⟩ := List.pairwise_cons.mp order
      cases n with
      | zero => rfl
      | succ n =>
          cases kept : p a with
          | true => simp [kept, ih n rest]
          | false =>
              have none : ∀ b ∈ ranked, ¬p b := by
                intro b mem
                have dropped : ¬p a := by simp [kept]
                exact fun keeps => dropped (upward a b (first b mem).le keeps)
              have all : ranked.filter p = [] := List.filter_eq_nil_iff.mpr none
              have some : (ranked.take n).filter p = [] :=
                List.filter_eq_nil_iff.mpr fun b mem => none b (List.mem_of_mem_take mem)
              simp [kept, all, some]

end Ranked

end Intellivault.Lib
