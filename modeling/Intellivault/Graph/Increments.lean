import Intellivault.Graph.Additive
import Intellivault.Graph.Frame

/-!
# One addition at a time

`Added u g g'` is what one private addition of the user `u` does to the graph as it finds it.
Where `Extends` looks back to the graph before a run, `Added` holds between any two moments,
so that it is of use where others act in between.
-/

namespace Intellivault

/-- New private records of `u`, and new embeddings and citations for entities of `u`. -/
structure Added (u : UUID) (g g' : Graph) : Prop where
  entities : ∃ (embedded : EntityNode → Option Embedding) (new : List EntityNode),
    g'.entities = (g.entities.map fun e => { e with embedding := embedded e }) ++ new ∧
      (∀ e, e.ownerId ≠ u → embedded e = e.embedding) ∧
      ∀ e ∈ new, e.ownerId = u ∧ e.visibility = .priv
  relationships : ∃ new, g'.relationships = g.relationships ++ new ∧
    ∀ r ∈ new, r.ownerId = u ∧ r.visibility = .priv
  citations : ∀ x, ¬g.Owns u x →
    g'.sourcedFrom.filter (fun s => s.entityId = x) = g.sourcedFrom.filter fun s => s.entityId = x

/-- The user's own records are as they were. -/
structure Spared (v : UUID) (g g' : Graph) : Prop where
  entity : ∀ e ∈ g.entities, e.ownerId = v →
    e ∈ g'.entities ∧ ∀ e' ∈ g'.entities, e'.id = e.id → e' = e
  citations : ∀ e ∈ g.entities, e.ownerId = v →
    g'.sourcedFrom.filter (fun s => s.entityId = e.id) =
      g.sourcedFrom.filter fun s => s.entityId = e.id

namespace Spared

variable {v : UUID} {g g' g'' : Graph}

theorem refl (wf : g.Wf) : Spared v g g where
  entity _ he _ := ⟨he, fun _ he' same => wf.eq_of_id he' he same⟩
  citations _ _ _ := rfl

theorem trans (first : Spared v g g') (second : Spared v g' g'') : Spared v g g'' where
  entity e he own := second.entity e (first.entity e he own).1 own
  citations e he own :=
    (second.citations e (first.entity e he own).1 own).trans (first.citations e he own)

/-- A call by somebody else. -/
theorem of_run {clock : Clock} {u : UUID} {op : Op} (wf : g.Wf) (fresh : op.Fresh g)
    (other : v ≠ u) : Spared v g (op.run g clock u).1 where
  entity e he own := Op.foreign_entity wf fresh he fun mine => other (own.symm.trans mine)
  citations _ he own := by
    refine Op.run_rows wf fun ⟨_, hx, same, mine⟩ => other ?_
    rw [← own, ← wf.eq_of_id hx he same, mine]

end Spared

/-- What the caller is shown, but for the sources. -/
def GraphView.unsourced (view : GraphView) : GraphView :=
  { view with entities := view.entities.map fun e => { e with sources := [] } }

namespace Op

variable {g : Graph} {clock : Clock} {u : UUID} {op : Op}

theorem Adds.embeds (g : Graph) (clock : Clock) (u : UUID) (adds : op.Adds .empty) :
    ∃ embedded : EntityNode → Option Embedding,
    (op.change g clock u).onEntity = (fun e => some { e with embedding := embedded e }) ∧
      ∀ e, e.ownerId ≠ u → embedded e = e.embedding := by
  cases op with
  | createEntity _ _ | createRelationship _ _ | attachSources _ _ =>
      exact ⟨EntityNode.embedding, rfl, fun _ _ => rfl⟩
  | setEntityEmbedding id embedding =>
      refine ⟨fun e => if e.id = id ∧ e.ownerId = u then some embedding else e.embedding, ?_,
        fun e foreign => if_neg fun mine => foreign mine.2⟩
      funext e
      dsimp only [change]
      split <;> rfl
  | changeVisibility _ _ | deleteEntity _ | deleteRelationship _ => exact adds.elim

/-- A call that creates private records only, or fills in those of its user. -/
theorem Adds.added (adds : op.Adds .empty) (wf : g.Wf) (fresh : op.Fresh g) :
    Added u g (op.run g clock u).1 where
  entities := by
    obtain ⟨embedded, onEntity, foreign⟩ := adds.embeds g clock u
    refine ⟨embedded, (op.change g clock u).newEntities, ?_, foreign, fun e mem => ?_⟩
    · rw [(run_records wf).1, onEntity, List.filterMap_eq_map']
    · exact ⟨((change_sound clock u wf fresh).newEntity e mem).1, adds.newEntities e mem⟩
  relationships := by
    refine ⟨(op.change g clock u).newEdges, ?_, fun r mem => ?_⟩
    · rw [(run_records wf).2, adds.onEdge, List.filterMap_some]
    · exact ⟨((change_sound clock u wf fresh).newEdge r mem).1, adds.newEdges r mem⟩
  citations _ foreign := run_rows wf foreign

end Op

namespace Added

variable {u v x : UUID} {g g' : Graph}

theorem refl : Added u g g where
  entities := ⟨EntityNode.embedding, [], by simp, fun _ _ => rfl, List.forall_mem_nil _⟩
  relationships := ⟨[], by simp, List.forall_mem_nil _⟩
  citations _ _ := rfl

/-- Private records of one user are not visible to another. -/
theorem hidden (other : v ≠ u) {e : EntityNode} (mine : e.ownerId = u ∧ e.visibility = .priv) :
    ¬e.VisibleTo v := by
  rintro (shared | own)
  · rw [mine.2] at shared
    cases shared
  · exact other (own.symm.trans mine.1)

theorem sees_iff (added : Added u g g') (other : v ≠ u) : g'.Sees v x ↔ g.Sees v x := by
  obtain ⟨embedded, new, entities, -, priv⟩ := added.entities
  constructor
  · intro ⟨e, he, hid, visible⟩
    rw [entities] at he
    rcases List.mem_append.mp he with old | fresh
    · obtain ⟨before, mem, rfl⟩ := List.mem_map.mp old
      exact ⟨before, mem, hid, visible⟩
    · exact absurd visible (hidden other (priv e fresh))
  · intro ⟨e, he, hid, visible⟩
    refine ⟨{ e with embedding := embedded e }, ?_, hid, visible⟩
    rw [entities]
    exact List.mem_append_left _ (List.mem_map_of_mem he)

/-- What another user is shown of the entities is the same rows, with other embeddings. -/
theorem visible (added : Added u g g') (other : v ≠ u) :
    ∃ embedded : EntityNode → Option Embedding,
      (g'.entities.filter fun e => e.VisibleTo v) =
        (g.entities.filter fun e => e.VisibleTo v).map fun e => { e with embedding := embedded e } := by
  obtain ⟨embedded, new, entities, -, priv⟩ := added.entities
  refine ⟨embedded, ?_⟩
  have none : (new.filter fun e => e.VisibleTo v) = [] := by
    rw [List.filter_eq_nil_iff]
    intro e mem visible
    exact hidden other (priv e mem) (of_decide_eq_true visible)
  rw [entities, List.filter_append, none, List.append_nil, List.filter_map]
  rfl

/-- **Everybody else is shown the same entities and edges.** -/
theorem listGraph (added : Added u g g') (other : v ≠ u) :
    (Service.listGraph g' v).unsourced = (Service.listGraph g v).unsourced := by
  obtain ⟨embedded, visible⟩ := added.visible other
  obtain ⟨newEdges, edges, priv⟩ := added.relationships
  have sorted := List.map_insertionSort (fun a b : EntityNode => a.createdAt ≤ b.createdAt)
    (fun a b : EntityNode => a.createdAt ≤ b.createdAt)
    (fun e : EntityNode => { e with embedding := embedded e })
    (g.entities.filter fun e => e.VisibleTo v) fun _ _ _ _ => Iff.rfl
  have shown : g'.relationships.filter (fun r =>
        (∃ a ∈ g'.entities, ∃ b ∈ g'.entities, r.Links a b ∧ a.VisibleTo v ∧ b.VisibleTo v) ∧
          r.VisibleTo v) =
      g.relationships.filter fun r =>
        (∃ a ∈ g.entities, ∃ b ∈ g.entities, r.Links a b ∧ a.VisibleTo v ∧ b.VisibleTo v) ∧
          r.VisibleTo v := by
    simp only [RelatedTo.links_seen, added.sees_iff other]
    rw [edges, List.filter_append, List.append_right_eq_self, List.filter_eq_nil_iff]
    intro r mem shown
    rcases (of_decide_eq_true shown).2 with shared | own
    · rw [(priv r mem).2] at shared
      cases shared
    · exact other (own.symm.trans (priv r mem).1)
  rw [GraphView.unsourced, GraphView.unsourced, Service.listGraph, Service.listGraph,
    Cypher.listVisibleEntities, Cypher.listVisibleEntities, Cypher.listVisibleRelationships,
    Cypher.listVisibleRelationships, shown, visible, ← sorted]
  simp only [List.map_map]
  rfl

end Added

end Intellivault
