import Intellivault.Graph.Invariant

/-!
# Private additions

`Extends u g₀ g`: the graph `g` is `g₀` with private records of the user `u` added.  The
calls that only add such records keep it (`Extends.run`), and nobody else can tell the
two graphs apart (`Extends.listGraph`).
-/

namespace Intellivault

/-- `g` is `g₀` and private additions of `u`. -/
structure Extends (u : UUID) (g₀ g : Graph) : Prop where
  wf : g.Wf
  entities : ∃ new, g.entities = g₀.entities ++ new ∧
    ∀ e ∈ new, e.ownerId = u ∧ e.visibility = .priv
  relationships : ∃ new, g.relationships = g₀.relationships ++ new ∧
    ∀ r ∈ new, r.ownerId = u ∧ r.visibility = .priv ∧
      (g.Sees u r.fromId ∧ g.Sees u r.toId) ∧ (g.Owns u r.fromId ∨ g.Owns u r.toId)
  citations : ∀ x, g₀.Has x →
    g.sourcedFrom.filter (fun s => s.entityId = x) = g₀.sourcedFrom.filter fun s => s.entityId = x

/-- The calls that only add private records, or fill in those that are not in `g₀`. -/
def Op.Adds (g₀ : Graph) : Op → Prop
  | .createEntity _ data => data.visibility = .priv
  | .createRelationship _ data => data.visibility = .priv
  | .attachSources id _ | .setEntityEmbedding id _ => ¬g₀.Has id
  | _ => False

namespace Op

variable {g₀ g : Graph} {clock : Clock} {u : UUID} {op : Op}

/-- What such a call does to the stored entities. -/
theorem Adds.onEntity (clock : Clock) (u : UUID) (adds : op.Adds g₀) : ∃ f : EntityNode → EntityNode,
    (op.change g clock u).onEntity = (fun e => some (f e)) ∧
    (∀ e, (f e).id = e.id ∧ (f e).ownerId = e.ownerId ∧ (f e).visibility = e.visibility) ∧
    ∀ e ∈ g₀.entities, f e = e := by
  cases op with
  | createEntity _ _ | createRelationship _ _ | attachSources _ _ =>
      exact ⟨id, rfl, fun _ => ⟨rfl, rfl, rfl⟩, fun _ _ => rfl⟩
  | setEntityEmbedding id embedding =>
      refine ⟨_, rfl, fun e => ?_, fun e he => if_neg fun hit => adds ⟨e, he, hit.1⟩⟩
      split <;> exact ⟨rfl, rfl, rfl⟩
  | changeVisibility _ _ | deleteEntity _ | deleteRelationship _ => exact adds.elim

theorem Adds.onEdge (adds : op.Adds g₀) : (op.change g clock u).onEdge = some := by
  cases op with
  | createEntity _ _ | createRelationship _ _ | attachSources _ _ | setEntityEmbedding _ _ => rfl
  | changeVisibility _ _ | deleteEntity _ | deleteRelationship _ => exact adds.elim

theorem Adds.newEntities (adds : op.Adds g₀) :
    ∀ e ∈ (op.change g clock u).newEntities, e.visibility = .priv := by
  cases op with
  | createEntity _ _ =>
      intro e mem
      rw [List.mem_singleton.mp mem]
      exact adds
  | createRelationship _ _ | attachSources _ _ | setEntityEmbedding _ _ => simp [change]
  | changeVisibility _ _ | deleteEntity _ | deleteRelationship _ => exact adds.elim

theorem Adds.newEdges (adds : op.Adds g₀) :
    ∀ r ∈ (op.change g clock u).newEdges, r.visibility = .priv := by
  cases op with
  | createRelationship _ _ =>
      intro r mem
      dsimp only [change] at mem
      split at mem
      · rw [List.mem_singleton.mp mem]
        exact adds
      · cases mem
  | createEntity _ _ | attachSources _ _ | setEntityEmbedding _ _ => simp [change]
  | changeVisibility _ _ | deleteEntity _ | deleteRelationship _ => exact adds.elim

/-- The citations of the entities of `g₀` keep their rows. -/
theorem Adds.rows (adds : op.Adds g₀) (wf : g.Wf) {x : UUID} (old : g₀.Has x) :
    (op.run g clock u).1.sourcedFrom.filter (fun s => s.entityId = x) =
      g.sourcedFrom.filter fun s => s.entityId = x := by
  cases op with
  | createEntity _ _ => rfl
  | createRelationship _ _ => simp [run, createRelationship_eq wf]
  | attachSources id urls =>
      rcases attachSources_eq clock u id urls wf with ⟨heq, -⟩ | ⟨e, he, rfl, own, heq⟩
      · simp only [run, heq]
      · simp only [run, heq]
        exact Cypher.citeAll_rows fun same => adds (same ▸ old)
  | setEntityEmbedding _ _ => rfl
  | changeVisibility _ _ | deleteEntity _ | deleteRelationship _ => exact adds.elim

/-- Nobody loses sight of anything. -/
theorem Adds.sees (adds : op.Adds g₀) (wf : g.Wf) {v x : UUID} :
    (g.Sees v x → (op.run g clock u).1.Sees v x) ∧ (g.Owns v x → (op.run g clock u).1.Owns v x) := by
  obtain ⟨f, onEntity, same, -⟩ := adds.onEntity (g := g) clock u
  have kept : ∀ e ∈ g.entities, f e ∈ (op.run g clock u).1.entities := fun e he =>
    (mem_run_entities wf).mpr (.inl ⟨e, he, by rw [onEntity]⟩)
  constructor
  · intro ⟨e, he, hid, visible⟩
    refine ⟨f e, kept e he, (same e).1.trans hid, ?_⟩
    rw [EntityNode.VisibleTo, (same e).2.1, (same e).2.2]
    exact visible
  · intro ⟨e, he, hid, own⟩
    exact ⟨f e, kept e he, (same e).1.trans hid, (same e).2.1.trans own⟩

end Op

namespace Extends

variable {u : UUID} {g₀ g : Graph}

theorem refl (wf : g₀.Wf) : Extends u g₀ g₀ where
  wf := wf
  entities := ⟨[], by simp⟩
  relationships := ⟨[], by simp⟩
  citations _ _ := rfl

/-- **The step lemma.** -/
theorem run (h : Extends u g₀ g) {op : Op} (adds : op.Adds g₀) (fresh : op.Fresh g)
    (clock : Clock) : Extends u g₀ (op.run g clock u).1 := by
  have sound := Op.change_sound clock u h.wf fresh
  obtain ⟨f, onEntity, same, fixed⟩ := adds.onEntity (g := g) clock u
  obtain ⟨oldEntities, hentities, privEntities⟩ := h.entities
  obtain ⟨oldEdges, hedges, privEdges⟩ := h.relationships
  refine ⟨Op.wf_run h.wf fresh, ?_, ?_, fun x old => (adds.rows h.wf old).trans (h.citations x old)⟩
  · refine ⟨oldEntities.map f ++ (op.change g clock u).newEntities, ?_, fun e mem => ?_⟩
    · rw [(Op.run_records h.wf).1, onEntity, hentities, ← List.append_assoc]
      rw [List.filterMap_eq_map', List.map_append, List.map_congr_left fixed, List.map_id']
    · rcases List.mem_append.mp mem with old | new
      · obtain ⟨e, he, rfl⟩ := List.mem_map.mp old
        rw [(same e).2.1, (same e).2.2]
        exact privEntities e he
      · exact ⟨(sound.newEntity e new).1, adds.newEntities e new⟩
  · refine ⟨oldEdges ++ (op.change g clock u).newEdges, ?_, fun r mem => ?_⟩
    · rw [(Op.run_records h.wf).2, adds.onEdge, hedges, List.filterMap_some, List.append_assoc]
    · rcases List.mem_append.mp mem with old | new
      · obtain ⟨own, hidden, ⟨sfrom, sto⟩, touches⟩ := privEdges r old
        exact ⟨own, hidden, ⟨(adds.sees h.wf).1 sfrom, (adds.sees h.wf).1 sto⟩,
          touches.imp (adds.sees h.wf).2 (adds.sees h.wf).2⟩
      · obtain ⟨own, ⟨⟨sfrom, sto⟩, touches, -⟩, -⟩ := sound.newEdge r new
        exact ⟨own, adds.newEdges r new, ⟨(adds.sees h.wf).1 sfrom, (adds.sees h.wf).1 sto⟩,
          touches.imp (adds.sees h.wf).2 (adds.sees h.wf).2⟩

/-- A fresh id is not one of the entities there were before. -/
theorem not_has (h : Extends u g₀ g) {id : UUID} (fresh : ∀ e ∈ g.entities, e.id ≠ id) :
    ¬g₀.Has id := by
  intro ⟨e, he, same⟩
  obtain ⟨new, hentities, -⟩ := h.entities
  exact fresh e (by rw [hentities]; exact List.mem_append_left _ he) same

/-- What other users see of an old entity. -/
theorem sees_iff (h : Extends u g₀ g) {v x : UUID} (other : v ≠ u) : g.Sees v x ↔ g₀.Sees v x := by
  obtain ⟨new, hentities, priv⟩ := h.entities
  constructor
  · intro ⟨e, he, hid, visible⟩
    rw [hentities] at he
    rcases List.mem_append.mp he with old | added
    · exact ⟨e, old, hid, visible⟩
    · obtain ⟨own, hidden⟩ := priv e added
      rcases visible with hpub | hown
      · rw [hidden] at hpub
        cases hpub
      · exact absurd (hown.symm.trans own) other
  · intro ⟨e, he, hid, visible⟩
    exact ⟨e, by rw [hentities]; exact List.mem_append_left _ he, hid, visible⟩

theorem sourceUrls (h : Extends u g₀ g) {x : UUID} (old : g₀.Has x) :
    Cypher.sourceUrls g x = Cypher.sourceUrls g₀ x := by
  rw [Cypher.sourceUrls, h.citations x old, Cypher.sourceUrls]

/-- Everybody else is shown the same graph. -/
theorem listGraph (h : Extends u g₀ g) {v : UUID} (other : v ≠ u) :
    Service.listGraph g v = Service.listGraph g₀ v := by
  obtain ⟨newEntities, hentities, privEntities⟩ := h.entities
  obtain ⟨newEdges, hedges, privEdges⟩ := h.relationships
  have entities : g.entities.filter (fun e => e.VisibleTo v) =
      g₀.entities.filter fun e => e.VisibleTo v := by
    rw [hentities, List.filter_append, List.append_right_eq_self, List.filter_eq_nil_iff]
    intro e mem visible
    obtain ⟨own, hidden⟩ := privEntities e mem
    rcases of_decide_eq_true visible with hpub | hown
    · rw [hidden] at hpub
      cases hpub
    · exact other (hown.symm.trans own)
  have edges : g.relationships.filter (fun r =>
        (∃ a ∈ g.entities, ∃ b ∈ g.entities, r.Links a b ∧ a.VisibleTo v ∧ b.VisibleTo v) ∧
          r.VisibleTo v) =
      g₀.relationships.filter fun r =>
        (∃ a ∈ g₀.entities, ∃ b ∈ g₀.entities, r.Links a b ∧ a.VisibleTo v ∧ b.VisibleTo v) ∧
          r.VisibleTo v := by
    simp only [RelatedTo.links_seen, h.sees_iff other]
    rw [hedges, List.filter_append, List.append_right_eq_self, List.filter_eq_nil_iff]
    intro r mem shown
    obtain ⟨own, hidden, -⟩ := privEdges r mem
    rcases (of_decide_eq_true shown).2 with hpub | hown
    · rw [hidden] at hpub
      cases hpub
    · exact other (hown.symm.trans own)
  rw [Service.listGraph, Service.listGraph, Cypher.listVisibleEntities, Cypher.listVisibleEntities,
    Cypher.listVisibleRelationships, Cypher.listVisibleRelationships, entities, edges]
  congr 1
  rw [List.map_map, List.map_map]
  refine List.map_congr_left fun e mem => ?_
  have old : e ∈ g₀.entities := List.mem_of_mem_filter ((List.mem_insertionSort _).mp mem)
  simp only [Function.comp_apply, h.sourceUrls ⟨e, old, rfl⟩]

end Extends

end Intellivault
