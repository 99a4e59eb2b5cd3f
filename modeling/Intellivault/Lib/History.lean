import Mathlib.Data.List.Induction

/-!
# Histories of a labelled transition system

A `History step s tr s'` is a finite run from `s` to `s'`; `tr` lists its transitions, the
newest last.  An assumption on the environment is a condition on the transitions of a
history and not a part of the system.
-/

namespace Intellivault.Lib

/-- One step of a history. -/
structure Transition (S L : Type) where
  source : S
  label : L
  target : S

variable {S L : Type}

/-- The runs of `step` from `s`. -/
inductive History (step : S → L → S → Prop) (s : S) : List (Transition S L) → S → Prop
  | start : History step s [] s
  | next {tr : List (Transition S L)} {t u : S} {l : L} :
      History step s tr t → step t l u → History step s (tr ++ [⟨t, l, u⟩]) u

variable {step : S → L → S → Prop} {cond : Transition S L → Prop} {inv : S → Prop} {s s' : S}
  {tr : List (Transition S L)}

theorem forall_mem_snoc {α : Type} {P : α → Prop} {xs : List α} {x : α} :
    (∀ y ∈ xs ++ [x], P y) ↔ (∀ y ∈ xs, P y) ∧ P x := by
  rw [List.forall_mem_append, List.forall_mem_singleton]

/-- An element of a list with one more element is the new one, or one of the list. -/
theorem snoc_eq_append_cons {α : Type} {xs before after : List α} {x y : α}
    (split : xs ++ [y] = before ++ x :: after) :
    xs = before ∧ y = x ∧ after = [] ∨ ∃ rest, after = rest ++ [y] ∧ xs = before ++ x :: rest := by
  rcases List.eq_nil_or_concat after with rfl | ⟨rest, z, rfl⟩
  · obtain ⟨rfl, last⟩ := List.append_inj' split rfl
    exact .inl ⟨rfl, List.singleton_inj.mp last, rfl⟩
  · rw [List.concat_eq_append, ← List.cons_append, ← List.append_assoc] at split
    obtain ⟨rfl, last⟩ := List.append_inj' split rfl
    obtain rfl := List.singleton_inj.mp last
    exact .inr ⟨rest, List.concat_eq_append, rfl⟩

/-- If fewer than `n` of a kind precede each one of the kind, there are at most `n` of it. -/
theorem countP_le_of_each {α : Type} {p : α → Bool} {xs : List α} {n : Nat}
    (each : ∀ before x after, xs = before ++ x :: after → p x → before.countP p < n) :
    xs.countP p ≤ n := by
  induction xs using List.reverseRecOn with
  | nil => exact Nat.zero_le n
  | append_singleton xs x ih =>
      rw [List.countP_append, List.countP_singleton]
      split
      · rename_i kind
        exact each xs x [] rfl kind
      · refine ih fun before y after here => each before y (after ++ [x]) ?_
        rw [here, List.append_assoc, List.cons_append]

namespace History

/-- What the steps that meet a condition preserve holds at the end. -/
theorem invariant (history : History step s tr s') (met : ∀ x ∈ tr, cond x) (start : inv s)
    (keep : ∀ t l u, inv t → cond ⟨t, l, u⟩ → step t l u → inv u) : inv s' := by
  induction history with
  | start => exact start
  | next _ moved ih =>
      rw [forall_mem_snoc] at met
      exact keep _ _ _ (ih met.1) met.2 moved

/-- Every transition of a history is a step between two states the invariant holds of. -/
theorem visits (history : History step s tr s') (met : ∀ x ∈ tr, cond x) (start : inv s)
    (keep : ∀ t l u, inv t → cond ⟨t, l, u⟩ → step t l u → inv u) :
    ∀ x ∈ tr, inv x.source ∧ step x.source x.label x.target ∧ inv x.target := by
  induction history with
  | start => simp
  | next before moved ih =>
      rw [forall_mem_snoc] at met ⊢
      have inside := before.invariant met.1 start keep
      exact ⟨ih met.1, inside, moved, keep _ _ _ inside met.2 moved⟩

/-- Every transition of a history is a step. -/
theorem step_of_mem (history : History step s tr s') :
    ∀ x ∈ tr, step x.source x.label x.target := by
  induction history with
  | start => simp
  | next before moved ih => exact forall_mem_snoc.mpr ⟨ih, moved⟩

/-- One history after the other. -/
theorem append {more : List (Transition S L)} {t : S} (history : History step s tr t)
    (later : History step t more s') : History step s (tr ++ more) s' := by
  induction later with
  | start => rwa [List.append_nil]
  | next before moved ih =>
      rw [← List.append_assoc]
      exact ih.next moved

/-- A history up to one of its transitions. -/
theorem upTo {before after : List (Transition S L)} {x : Transition S L}
    (history : History step s tr s') (split : tr = before ++ x :: after) :
    History step s before x.source ∧ step x.source x.label x.target := by
  induction history generalizing after with
  | start =>
      exact (List.append_ne_nil_of_right_ne_nil before (List.cons_ne_nil x after) split.symm).elim
  | next earlier moved ih =>
      rcases snoc_eq_append_cons split with ⟨rfl, rfl, -⟩ | ⟨rest, -, same⟩
      · exact ⟨earlier, moved⟩
      · exact ih same

/-- Along the moves, as long as every step passes the check. -/
def follow {M : Type} (move : S → M → Option (L × S)) (check : Transition S L → Bool) :
    S → List M → Option S
  | s, [] => some s
  | s, m :: moves =>
      (move s m).bind fun next =>
        if check ⟨s, next.1, next.2⟩ then follow move check next.2 moves else none

theorem follow_history {M : Type} {move : S → M → Option (L × S)} {check : Transition S L → Bool}
    {moves : List M} {t : S} (sound : ∀ s m l s', move s m = some (l, s') → step s l s')
    (before : History step s tr t) (passed : ∀ x ∈ tr, check x = true)
    (followed : follow move check t moves = some s') :
    ∃ more, History step s (tr ++ more) s' ∧ ∀ x ∈ tr ++ more, check x = true := by
  induction moves generalizing tr t with
  | nil =>
      cases followed
      exact ⟨[], by rwa [List.append_nil], by rwa [List.append_nil]⟩
  | cons m moves ih =>
      simp only [follow, Option.bind_eq_some_iff, Option.ite_none_right_eq_some] at followed
      obtain ⟨⟨l, next⟩, moved, checked, followed⟩ := followed
      have after := before.next (sound _ _ _ _ moved)
      obtain ⟨more, history, all⟩ := ih after (forall_mem_snoc.mpr ⟨passed, checked⟩) followed
      rw [List.append_assoc] at history all
      exact ⟨_, history, all⟩

end History

end Intellivault.Lib
