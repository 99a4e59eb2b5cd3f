import Intellivault.Graph.Invariant

/-!
# The ownership frame

A call on behalf of one user leaves every other user's entities as they are, with their
embeddings and citations, and takes away another user's edge only at an entity of the
caller's.  Nobody's entity or edge changes hands.
-/

namespace Intellivault

namespace Op

variable {g : Graph} {clock : Clock} {u : UUID} {op : Op}

/-- Records of the graph after the call that have an old id come from the old record. -/
theorem entity_of_id (wf : g.Wf) (fresh : op.Fresh g) {e e' : EntityNode} (he : e ∈ g.entities)
    (he' : e' ∈ (op.run g clock u).1.entities) (same : e'.id = e.id) :
    (op.change g clock u).onEntity e = some e' := by
  have s := change_sound clock u wf fresh
  rcases (mem_run_entities wf).mp he' with ⟨x, hx, hxe⟩ | isNew
  · rw [(s.entity x e' hxe).1] at same
    rw [← wf.eq_of_id hx he same]
    exact hxe
  · exact absurd ⟨e, he, same.symm⟩ (s.newEntity e' isNew).2

theorem edge_of_id (wf : g.Wf) (fresh : op.Fresh g) {r r' : RelatedTo}
    (hr : r ∈ g.relationships) (hr' : r' ∈ (op.run g clock u).1.relationships)
    (same : r'.id = r.id) : (op.change g clock u).onEdge r = some r' := by
  have s := change_sound clock u wf fresh
  rcases (mem_run_relationships wf).mp hr' with ⟨x, hx, hxr⟩ | isNew
  · rw [(s.edge x r' hxr).1] at same
    rw [← wf.edge_eq_of_id hx hr same]
    exact hxr
  · exact absurd same.symm ((s.newEdge r' isNew).2.2.1 r hr)

/-- Another user's entity stays as it is. -/
theorem foreign_entity (wf : g.Wf) (fresh : op.Fresh g) {e : EntityNode} (he : e ∈ g.entities)
    (foreign : e.ownerId ≠ u) :
    e ∈ (op.run g clock u).1.entities ∧
      ∀ e' ∈ (op.run g clock u).1.entities, e'.id = e.id → e' = e := by
  have kept := (change_sound clock u wf fresh).foreignEntity e foreign
  refine ⟨(mem_run_entities wf).mpr (Or.inl ⟨e, he, kept⟩), fun e' he' same => ?_⟩
  have hit := entity_of_id wf fresh he he' same
  rw [kept] at hit
  exact (Option.some.inj hit).symm

/-- Another user's edge stays as it is, or goes with an end of the caller's. -/
theorem foreign_edge (wf : g.Wf) (fresh : op.Fresh g) {r : RelatedTo} (hr : r ∈ g.relationships)
    (foreign : r.ownerId ≠ u) :
    (r ∈ (op.run g clock u).1.relationships ∧
        ∀ r' ∈ (op.run g clock u).1.relationships, r'.id = r.id → r' = r) ∨
      (∀ r' ∈ (op.run g clock u).1.relationships, r'.id ≠ r.id) ∧
        (g.Owns u r.fromId ∨ g.Owns u r.toId) := by
  rcases (change_sound clock u wf fresh).foreignEdge r foreign with
    kept | ⟨gone, own⟩
  · refine Or.inl ⟨(mem_run_relationships wf).mpr (Or.inl ⟨r, hr, kept⟩), fun r' hr' same => ?_⟩
    have hit := edge_of_id wf fresh hr hr' same
    rw [kept] at hit
    exact (Option.some.inj hit).symm
  · refine Or.inr ⟨fun r' hr' same => ?_, own⟩
    have hit := edge_of_id wf fresh hr hr' same
    rw [gone] at hit
    cases hit

end Op

/-- **The ownership frame** of every call on every reachable graph. -/
theorem Reachable.ownership_frame {g : Graph} (h : Reachable g) (clock : Clock) (u : UUID) (op : Op)
    (fresh : op.Fresh g) :
    (∀ e ∈ g.entities, e.ownerId ≠ u →
      (e ∈ (op.run g clock u).1.entities ∧
        ∀ e' ∈ (op.run g clock u).1.entities, e'.id = e.id → e' = e) ∧
      (op.run g clock u).1.sourcedFrom.filter (fun s => s.entityId = e.id) =
        g.sourcedFrom.filter fun s => s.entityId = e.id) ∧
    (∀ r ∈ g.relationships, r.ownerId ≠ u →
      (r ∈ (op.run g clock u).1.relationships ∧
        ∀ r' ∈ (op.run g clock u).1.relationships, r'.id = r.id → r' = r) ∨
      (∀ r' ∈ (op.run g clock u).1.relationships, r'.id ≠ r.id) ∧
        (g.Owns u r.fromId ∨ g.Owns u r.toId)) ∧
    (∀ e ∈ g.entities, ∀ e' ∈ (op.run g clock u).1.entities,
      e'.id = e.id → e'.ownerId = e.ownerId) ∧
    ∀ r ∈ g.relationships, ∀ r' ∈ (op.run g clock u).1.relationships,
      r'.id = r.id → r'.ownerId = r.ownerId := by
  have wf := h.inv.wf
  have s := Op.change_sound clock u wf fresh
  refine ⟨fun e he foreign => ⟨Op.foreign_entity wf fresh he foreign, ?_⟩,
    fun r hr foreign => Op.foreign_edge wf fresh hr foreign, fun e he e' he' same => ?_,
    fun r hr r' hr' same => ?_⟩
  · apply Op.run_rows wf
    intro ⟨x, hx, same, own⟩
    rw [wf.eq_of_id hx he same] at own
    exact foreign own
  · exact (s.entity e e' (Op.entity_of_id wf fresh he he' same)).2
  · exact (s.edge r r' (Op.edge_of_id wf fresh hr hr' same)).2.1

/-- User 1 deletes the note 10: user 2's note stays, and only the edge to 10 goes. -/
theorem ownership_frame_twoUsers :
    (∀ e ∈ Graph.twoUsers.entities, e.ownerId ≠ 1 →
      e ∈ (Op.run .twoUsers (fun _ => 4) 1 (.deleteEntity 10)).1.entities) ∧
    ∀ r ∈ Graph.twoUsers.relationships, r.ownerId ≠ 1 →
      r ∈ (Op.run .twoUsers (fun _ => 4) 1 (.deleteEntity 10)).1.relationships ∨
        Graph.twoUsers.Owns 1 r.fromId ∨ Graph.twoUsers.Owns 1 r.toId := by
  have h := reachable_twoUsers.ownership_frame (fun _ => 4) 1 (.deleteEntity 10) trivial
  exact ⟨fun e he foreign => (h.1 e he foreign).1.1,
    fun r hr foreign => (h.2.1 r hr foreign).imp And.left And.right⟩

end Intellivault
