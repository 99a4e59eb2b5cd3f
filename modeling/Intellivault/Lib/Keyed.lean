import Mathlib.Data.List.Nodup

/-!
# Lists of records with unique keys

A table is a list of records no two of which share a key.  Selecting by key gives at
most one record, the same one from any two tables that agree on it; updating and
deleting records keeps the keys distinct as long as an update keeps its record's key.
-/

namespace Intellivault.Lib

variable {α κ : Type} {key : α → κ} {l l₁ l₂ : List α} {p : α → Bool}

/-- Selecting the records with the key of one record selects just that record. -/
theorem filter_eq_singleton (unique : (l.map key).Nodup) {x : α} (hx : x ∈ l) (px : p x = true)
    (only : ∀ y ∈ l, p y = true → key y = key x) : l.filter p = [x] := by
  induction l with
  | nil => cases hx
  | cons y l ih =>
      rw [List.map_cons, List.nodup_cons] at unique
      obtain ⟨fresh, unique⟩ := unique
      rcases List.mem_cons.mp hx with rfl | later
      · have rest : l.filter p = [] := by
          rw [List.filter_eq_nil_iff]
          intro z hz pz
          have same := only z (List.mem_cons_of_mem _ hz) pz
          exact fresh (same ▸ List.mem_map_of_mem hz)
        rw [List.filter_cons_of_pos px, rest]
      · have skip : ¬p y = true := by
          intro py
          have same := only y List.mem_cons_self py
          exact fresh (same ▸ List.mem_map_of_mem later)
        rw [List.filter_cons_of_neg skip]
        exact ih unique later fun z hz => only z (List.mem_cons_of_mem _ hz)

/-- Two tables that agree on the records a selection by key can hit give the same rows. -/
theorem filter_eq_of_agree (unique₁ : (l₁.map key).Nodup) (unique₂ : (l₂.map key).Nodup)
    {k : κ} (only : ∀ y, p y = true → key y = k)
    (agree : ∀ y, p y = true → (y ∈ l₁ ↔ y ∈ l₂)) : l₁.filter p = l₂.filter p := by
  by_cases hit : ∃ x ∈ l₁, p x = true
  · obtain ⟨x, hx, px⟩ := hit
    have only' : ∀ y, p y = true → key y = key x := fun y py => (only y py).trans (only x px).symm
    rw [filter_eq_singleton unique₁ hx px fun y _ => only' y,
      filter_eq_singleton unique₂ ((agree x px).mp hx) px fun y _ => only' y]
  · have none₁ : l₁.filter p = [] := by
      rw [List.filter_eq_nil_iff]
      exact fun x hx px => hit ⟨x, hx, px⟩
    have none₂ : l₂.filter p = [] := by
      rw [List.filter_eq_nil_iff]
      exact fun x hx px => hit ⟨x, (agree x px).mpr hx, px⟩
    rw [none₁, none₂]

/-- Updates that keep keys, and deletions, leave a sublist of the keys. -/
theorem map_filterMap_sublist {f : α → Option α} (keeps : ∀ x y, f x = some y → key y = key x) :
    ((l.filterMap f).map key).Sublist (l.map key) := by
  induction l with
  | nil => exact .slnil
  | cons x l ih =>
      cases h : f x with
      | none =>
          rw [List.filterMap_cons_none h]
          exact ih.cons _
      | some y =>
          rw [List.filterMap_cons_some h, List.map_cons, List.map_cons, keeps x y h]
          exact ih.cons_cons _

/-- Keys stay unique under updates, deletions and additions with unused keys. -/
theorem nodup_map_filterMap_append {f : α → Option α} {new : List α}
    (unique : (l.map key).Nodup) (keeps : ∀ x y, f x = some y → key y = key x)
    (uniqueNew : (new.map key).Nodup) (fresh : ∀ x ∈ new, ∀ y ∈ l, key y ≠ key x) :
    ((l.filterMap f ++ new).map key).Nodup := by
  have sub := map_filterMap_sublist (l := l) keeps
  rw [List.map_append, List.nodup_append']
  refine ⟨unique.sublist sub, uniqueNew, ?_⟩
  intro k old isNew
  obtain ⟨y, hy, rfl⟩ := List.mem_map.mp (sub.subset old)
  obtain ⟨x, hx, same⟩ := List.mem_map.mp isNew
  exact fresh x hx y hy same.symm

/-- Deleting the records with a property, record by record. -/
theorem filter_not_eq_filterMap {P : α → Prop} [DecidablePred P] :
    l.filter (fun x => ¬P x) = l.filterMap fun x => if P x then none else some x := by
  rw [← List.filterMap_eq_filter]
  congr 1
  funext x
  by_cases h : P x <;> simp [Option.guard, h]

/-- Two passes over a table commute if they commute on each record. -/
theorem filterMap_comm {f g : α → Option α} (comm : ∀ x, (f x).bind g = (g x).bind f) :
    (l.filterMap f).filterMap g = (l.filterMap g).filterMap f := by
  rw [List.filterMap_filterMap, List.filterMap_filterMap]
  congr 1
  funext x
  exact comm x

/-- Updates that leave the selected records as they are do not show in the selection. -/
theorem filter_map_of_fixed {f : α → α} (keeps : ∀ x, p (f x) = p x)
    (fixed : ∀ x, p x = true → f x = x) : (l.map f).filter p = l.filter p := by
  have same : p ∘ f = p := funext keeps
  rw [List.filter_map, same]
  calc (l.filter p).map f = (l.filter p).map id :=
        List.map_congr_left fun x hx => fixed x (List.mem_filter.mp hx).2
    _ = l.filter p := List.map_id _

end Intellivault.Lib
