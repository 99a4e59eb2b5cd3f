import Mathlib.Data.List.Forall2
import Intellivault.Graph.Invariant

/-!
# A cascade, end to end

What `change_visibility` with `cascade` makes of the graph, as one relation between the graph
before and the graph after it: `Cascaded`.  The set it is about is what the walk
`_owned_component` collects, and that is what can be reached over the caller's own edges
through the caller's own entities.
-/

namespace Intellivault

open Lib

/-- The entity with another visibility; the time of the update is left open. -/
def EntityNode.Shown (e e' : EntityNode) (w : Visibility) : Prop :=
  e' = { e with visibility := w, updatedAt := e'.updatedAt }

/-- The edge with another visibility. -/
def RelatedTo.Shown (r r' : RelatedTo) (w : Visibility) : Prop :=
  r' = { r with visibility := w, updatedAt := r'.updatedAt }

/-- The graph `g'` is `g` after a cascade of the user `u` over the entities `ids`. -/
structure Cascaded (g g' : Graph) (u : UUID) (ids : List UUID) (w : Visibility)
    (affected : List UUID) : Prop where
  /-- The entities of the set are as visible as asked for, the others as they were. -/
  entities : List.Forall₂ (fun e e' => if e.id ∈ ids then e.Shown e' w else e' = e)
    g.entities g'.entities
  affectedOnce : affected.Nodup
  /-- What is reported are the entities of the set that were not so before. -/
  affected : ∀ x, x ∈ affected ↔ x ∈ ids ∧ ∃ e ∈ g.entities, e.id = x ∧ e.visibility ≠ w
  /-- Made public: the user's own edges inside the set are public, the others as they were. -/
  published : w = .pub →
    List.Forall₂ (fun r r' => if r.ownerId = u ∧ r.Within ids then r.Shown r' .pub else r' = r)
      g.relationships g'.relationships
  /-- Made private: foreign edges at the set are gone, the user's own ones there are private,
  the others as they were. -/
  hidden : w = .priv →
    List.Forall₂ (fun r r' => if r.ownerId = u ∧ r.Touches ids then r.Shown r' .priv else r' = r)
      (g.relationships.filter fun r => ¬(r.ownerId ≠ u ∧ r.Touches ids)) g'.relationships

section Records

variable {now : Time} {clock : Clock} {ids : List UUID} {u : UUID} {v : Visibility}

theorem EntityNode.flip_shown {e : EntityNode} (own : e.id ∈ ids → e.ownerId = u) :
    if e.id ∈ ids then e.Shown (e.flip now ids u v) v else e.flip now ids u v = e := by
  split
  · rename_i mem
    unfold flip
    split
    · rfl
    · rename_i kept
      have same : e.visibility = v := by
        by_contra other
        exact kept ⟨mem, own mem, other⟩
      rw [← same]
      rfl
  · rename_i other
    exact if_neg fun hit => other hit.1

/-- What a change to public does to an edge. -/
theorem RelatedTo.flip_shown {r : RelatedTo} :
    if r.ownerId = u ∧ r.Within ids then r.Shown (r.flip now ids u v) v
    else r.flip now ids u v = r := by
  split
  · rename_i inside
    unfold flip
    split
    · rfl
    · rename_i kept
      have same : r.visibility = v := by
        by_contra other
        exact kept ⟨⟨inside.1, other⟩, inside.2⟩
      rw [← same]
      rfl
  · rename_i other
    exact if_neg fun hit => other ⟨hit.1.1, hit.2⟩

theorem RelatedTo.demote_shown {r : RelatedTo} :
    if r.ownerId = u ∧ r.Touches ids then r.Shown (r.demote now ids u) .priv
    else r.demote now ids u = r := by
  split
  · rename_i inside
    unfold demote
    split
    · rfl
    · rename_i kept
      have same : r.visibility = .priv := by
        cases hv : r.visibility with
        | priv => rfl
        | pub => exact (kept ⟨⟨inside.1, hv⟩, inside.2⟩).elim
      rw [← same]
      rfl
  · rename_i other
    exact if_neg fun hit => other ⟨hit.1.1, hit.2⟩

theorem RelatedTo.Shown.trans {r s t : RelatedTo} {v w : Visibility} (first : r.Shown s v)
    (second : s.Shown t w) : r.Shown t w := by
  unfold Shown at *
  rw [second, first]

/-- What a change to private does to an edge that stays. -/
theorem RelatedTo.hide_shown {now' : Time} {r : RelatedTo} :
    if r.ownerId = u ∧ r.Touches ids then
      r.Shown ((r.flip now ids u .priv).demote now' ids u) .priv
    else (r.flip now ids u .priv).demote now' ids u = r := by
  have flipped : if r.ownerId = u ∧ r.Within ids then r.Shown (r.flip now ids u .priv) .priv
      else r.flip now ids u .priv = r := r.flip_shown
  have demoted : if (r.flip now ids u .priv).ownerId = u ∧ (r.flip now ids u .priv).Touches ids then
      (r.flip now ids u .priv).Shown ((r.flip now ids u .priv).demote now' ids u) .priv
      else (r.flip now ids u .priv).demote now' ids u = r.flip now ids u .priv :=
    RelatedTo.demote_shown
  have same : r.Same (r.flip now ids u .priv) := same_flip
  simp only [same.2.1, same.touches_iff] at demoted
  split
  · rename_i here
    rw [if_pos here] at demoted
    split at flipped
    · exact flipped.trans demoted
    · rwa [flipped] at demoted ⊢
  · rename_i elsewhere
    rw [if_neg elsewhere] at demoted
    rw [if_neg fun inside => elsewhere ⟨inside.1, .inl inside.2.1⟩] at flipped
    rw [demoted, flipped]

/-- Filtering and rewriting in one pass. -/
theorem RelatedTo.revise_hide {r : RelatedTo} :
    r.revise clock true ids u .priv = if ¬(r.ownerId ≠ u ∧ r.Touches ids) then
      some ((r.flip (clock 1) ids u .priv).demote (clock 2) ids u) else none := by
  have same : r.Same (r.flip (clock 1) ids u .priv) := same_flip
  have owner : (r.flip (clock 1) ids u .priv).ownerId = r.ownerId := same.2.1
  have touches : (r.flip (clock 1) ids u .priv).Touches ids ↔ r.Touches ids := same.touches_iff
  simp only [revise, clean, if_true, owner, touches, ite_not]

end Records

theorem forall₂_map_of {α : Type} {R : α → α → Prop} {f : α → α} {xs : List α}
    (each : ∀ x ∈ xs, R x (f x)) : List.Forall₂ R xs (xs.map f) :=
  List.forall₂_map_right_iff.mpr (List.forall₂_same.mpr each)

theorem filterMap_ite {α : Type} {p : α → Prop} [DecidablePred p] {f : α → α} {xs : List α} :
    xs.filterMap (fun x => if p x then some (f x) else none) = (xs.filter (p ·)).map f := by
  rw [← List.filterMap_eq_map, List.filterMap_filter]
  simp only [decide_eq_true_eq, Function.comp_def]

/-- **What a cascade from an own entity does.** -/
theorem Service.cascadeTx_cascaded {g : Graph} {clock : Clock} {u id : UUID} {w : Visibility}
    (wf : g.Wf) (own : g.Owns u id) : ∃ g' affected,
      changeVisibility g clock u id ⟨w, true⟩ = (g', .ok ⟨affected⟩) ∧
        Cascaded g g' u (ownedComponent g u id) w affected := by
  refine ⟨_, _, changeVisibility_eq clock ⟨w, true⟩ wf own, ?_⟩
  have mine : ∀ e ∈ g.entities, e.id ∈ ownedComponent g u id → e.ownerId = u := by
    intro e he mem
    obtain ⟨x, hx, same, owner⟩ := owns_of_mem_ownedComponent wf own mem
    rw [← wf.eq_of_id hx he same]
    exact owner
  refine ⟨?_, ?_, fun x => ?_, ?_, ?_⟩
  · exact forall₂_map_of fun e he => EntityNode.flip_shown (mine e he)
  · exact wf.entityIds.sublist (List.filter_sublist.map _)
  · rw [mem_flipped]
    constructor
    · rintro ⟨e, he, ⟨mem, -, other⟩, rfl⟩
      exact ⟨mem, e, he, rfl, other⟩
    · rintro ⟨mem, e, he, rfl, other⟩
      exact ⟨e, he, ⟨mem, mine e he mem, other⟩, rfl⟩
  · rintro rfl
    dsimp only [scope]
    rw [if_pos rfl, show (fun r : RelatedTo => r.revise clock true (ownedComponent g u id) u .pub) =
      fun r => some (r.flip (clock 1) (ownedComponent g u id) u .pub) from rfl,
      ← Function.comp_def, List.filterMap_eq_map]
    exact forall₂_map_of fun r _ => r.flip_shown
  · rintro rfl
    dsimp only [scope]
    rw [if_pos rfl]
    simp only [RelatedTo.revise_hide]
    rw [filterMap_ite]
    exact forall₂_map_of fun r _ => RelatedTo.hide_shown

/-- The walk from an entity ends by itself, in the component the model computes. -/
theorem Service.walks_ownedComponent {g : Graph} (wf : g.Wf) (u id : UUID) :
    Walks (Cypher.ownedNeighbours g u) [id] [id] (ownedComponent g u id) := by
  have inside : ∀ a x, Cypher.OwnedHop g u a x → x ∈ g.entities.map (·.id) := by
    intro a x hop
    obtain ⟨⟨e, he, rfl, -⟩, -⟩ := hop
    exact List.mem_map_of_mem he
  have bound : unseen (g.entities.map (·.id)) [id] < g.entities.length + 1 := by
    refine Nat.lt_succ_of_le ((List.length_filter_le _ _).trans ?_)
    rw [List.length_map]
  exact walks_walk (fun ids x => Cypher.mem_ownedNeighbours wf) inside _ _ _ fun _ => bound

/-- **The cascade, end to end.**  The walk ends, in what is reachable over own edges through own
entities; the change does to that set what it is asked for, and fails without a trace on an
entity that is not the caller's. -/
theorem Reachable.cascade {g : Graph} (h : Reachable g) (clock : Clock) (u id : UUID)
    (w : Visibility) :
    ∃ ids, (∀ out, Walks (Cypher.ownedNeighbours g u) [id] [id] out ↔ out = ids) ∧
      (∀ x, x ∈ ids ↔ Relation.ReflTransGen (Cypher.OwnedHop g u) id x) ∧
      if g.Owns u id then
        ∃ g' affected, Service.changeVisibility g clock u id ⟨w, true⟩ = (g', .ok ⟨affected⟩) ∧
          Cascaded g g' u ids w affected
      else
        Service.changeVisibility g clock u id ⟨w, true⟩ =
          (g, .error ⟨Service.notFound, "Entity not found"⟩) := by
  have wf := h.inv.wf
  have walks := Service.walks_ownedComponent wf u id
  refine ⟨Service.ownedComponent g u id, fun out => ?_, fun x => Service.mem_ownedComponent wf, ?_⟩
  · constructor
    · exact fun walks' => walks'.unique walks
    · rintro rfl
      exact walks
  · split
    · rename_i own
      exact Service.cascadeTx_cascaded wf own
    · rename_i foreign
      exact Service.changeVisibility_of_not_owns foreign

/-- User 2 hides the note 20: it and the edge from it become private, in one component. -/
theorem cascade_twoUsers :
    ∃ ids, (∀ out, Walks (Cypher.ownedNeighbours .twoUsers 2) [20] [20] out ↔ out = ids) ∧
      (∀ x, x ∈ ids ↔ Relation.ReflTransGen (Cypher.OwnedHop .twoUsers 2) 20 x) ∧
      if Graph.twoUsers.Owns 2 20 then
        ∃ g' affected, Service.changeVisibility .twoUsers (fun _ => 4) 2 20 ⟨.priv, true⟩ =
          (g', .ok ⟨affected⟩) ∧ Cascaded .twoUsers g' 2 ids .priv affected
      else
        Service.changeVisibility .twoUsers (fun _ => 4) 2 20 ⟨.priv, true⟩ =
          (.twoUsers, .error ⟨Service.notFound, "Entity not found"⟩) :=
  reachable_twoUsers.cascade (fun _ => 4) 2 20 .priv

end Intellivault
