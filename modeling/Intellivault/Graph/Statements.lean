import Intellivault.Graph.Ops

/-!
# The statements, by endpoint ids

In a well-formed graph ids are unique and every edge has both its ends, so the
conditions the statements put on matched nodes are conditions on the ids an edge
carries.  `Graph.Owns` and `Graph.Sees` are the two facts about an id that any
statement asks for on behalf of a caller.
-/

namespace Intellivault

namespace Graph

def Has (g : Graph) (id : UUID) : Prop := ∃ e ∈ g.entities, e.id = id

/-- The caller owns the entity with the id. -/
def Owns (g : Graph) (u id : UUID) : Prop := ∃ e ∈ g.entities, e.id = id ∧ e.ownerId = u

/-- The entity with the id is public or the caller's own. -/
def Sees (g : Graph) (u id : UUID) : Prop := ∃ e ∈ g.entities, e.id = id ∧ e.VisibleTo u

/-- Every relationship has both its ends. -/
def Closed (g : Graph) : Prop := ∀ r ∈ g.relationships, g.Has r.fromId ∧ g.Has r.toId

/-- Ids are unique and no edge lacks an end. -/
structure Wf (g : Graph) : Prop where
  entityIds : (g.entities.map (·.id)).Nodup
  edgeIds : (g.relationships.map (·.id)).Nodup
  endpoints : g.Closed
  citing : ∀ r ∈ g.sourcedFrom, g.Has r.entityId

instance (g : Graph) (u id : UUID) : Decidable (g.Owns u id) :=
  inferInstanceAs (Decidable (∃ e ∈ g.entities, _))

instance (g : Graph) (u id : UUID) : Decidable (g.Sees u id) :=
  inferInstanceAs (Decidable (∃ e ∈ g.entities, _))

variable {g : Graph} {u id : UUID}

theorem Owns.has (h : g.Owns u id) : g.Has id :=
  let ⟨e, he, hid, _⟩ := h
  ⟨e, he, hid⟩

theorem Owns.sees (h : g.Owns u id) : g.Sees u id :=
  let ⟨e, he, hid, own⟩ := h
  ⟨e, he, hid, Or.inr own⟩

theorem Wf.eq_of_id (wf : g.Wf) {a b : EntityNode} (ha : a ∈ g.entities) (hb : b ∈ g.entities)
    (same : a.id = b.id) : a = b :=
  List.inj_on_of_nodup_map wf.entityIds ha hb same

theorem Wf.edge_eq_of_id (wf : g.Wf) {r s : RelatedTo} (hr : r ∈ g.relationships)
    (hs : s ∈ g.relationships) (same : r.id = s.id) : r = s :=
  List.inj_on_of_nodup_map wf.edgeIds hr hs same

/-- An owned id belongs to no second owner. -/
theorem Wf.owner_unique (wf : g.Wf) {v : UUID} (hu : g.Owns u id) (hv : g.Owns v id) : u = v := by
  obtain ⟨a, ha, haid, rfl⟩ := hu
  obtain ⟨b, hb, hbid, rfl⟩ := hv
  rw [wf.eq_of_id ha hb (haid.trans hbid.symm)]

end Graph

/-! ## Conditions on the two ends of an edge -/

namespace RelatedTo

variable {g : Graph} {r : RelatedTo} {u : UUID} {ids : List UUID}

/-- The edge starts or ends at one of the ids. -/
def Touches (r : RelatedTo) (ids : List UUID) : Prop := r.fromId ∈ ids ∨ r.toId ∈ ids

/-- Both ends of the edge are among the ids. -/
def Within (r : RelatedTo) (ids : List UUID) : Prop := r.fromId ∈ ids ∧ r.toId ∈ ids

/-- The caller owns the edge or one of its ends. -/
def Detachable (r : RelatedTo) (g : Graph) (u : UUID) : Prop :=
  r.ownerId = u ∨ g.Owns u r.fromId ∨ g.Owns u r.toId

instance (r : RelatedTo) (ids : List UUID) : Decidable (r.Touches ids) :=
  inferInstanceAs (Decidable (_ ∨ _))

instance (r : RelatedTo) (ids : List UUID) : Decidable (r.Within ids) :=
  inferInstanceAs (Decidable (_ ∧ _))

instance (r : RelatedTo) (g : Graph) (u : UUID) : Decidable (r.Detachable g u) :=
  inferInstanceAs (Decidable (_ ∨ _))

theorem Touches.of_mem {x : UUID} (h : r.Touches [x]) (mem : x ∈ ids) : r.Touches ids := by
  rcases h with hfrom | hto
  · exact Or.inl (List.mem_singleton.mp hfrom ▸ mem)
  · exact Or.inr (List.mem_singleton.mp hto ▸ mem)

theorem Within.mem {x : UUID} (h : r.Within ids) (touches : r.Touches [x]) : x ∈ ids := by
  rcases touches with hfrom | hto
  · exact List.mem_singleton.mp hfrom ▸ h.1
  · exact List.mem_singleton.mp hto ▸ h.2

theorem joins_touches (ends : g.Has r.fromId ∧ g.Has r.toId) :
    (∃ e ∈ g.entities, ∃ b ∈ g.entities, r.Joins e b ∧ e.id ∈ ids) ↔ r.Touches ids := by
  obtain ⟨⟨a, ha, hfrom⟩, b, hb, hto⟩ := ends
  constructor
  · rintro ⟨e, _, c, _, joined, mem⟩
    rcases joined with ⟨hf, _⟩ | ⟨_, ht⟩
    · exact Or.inl (hf ▸ mem)
    · exact Or.inr (ht ▸ mem)
  · rintro (mem | mem)
    · exact ⟨a, ha, b, hb, Or.inl ⟨hfrom.symm, hto.symm⟩, hfrom ▸ mem⟩
    · exact ⟨b, hb, a, ha, Or.inr ⟨hfrom.symm, hto.symm⟩, hto ▸ mem⟩

theorem joins_within (ends : g.Has r.fromId ∧ g.Has r.toId) :
    (∃ a ∈ g.entities, ∃ b ∈ g.entities, r.Joins a b ∧ a.id ∈ ids ∧ b.id ∈ ids) ↔
      r.Within ids := by
  obtain ⟨⟨a, ha, hfrom⟩, b, hb, hto⟩ := ends
  constructor
  · rintro ⟨e, _, c, _, joined, he, hc⟩
    rcases joined with ⟨hf, ht⟩ | ⟨hf, ht⟩
    · exact ⟨hf ▸ he, ht ▸ hc⟩
    · exact ⟨hf ▸ hc, ht ▸ he⟩
  · rintro ⟨mf, mt⟩
    exact ⟨a, ha, b, hb, Or.inl ⟨hfrom.symm, hto.symm⟩, hfrom ▸ mf, hto ▸ mt⟩

theorem joins_detachable (ends : g.Has r.fromId ∧ g.Has r.toId) :
    (∃ a ∈ g.entities, ∃ b ∈ g.entities, r.Joins a b ∧
      (r.ownerId = u ∨ a.ownerId = u ∨ b.ownerId = u)) ↔ r.Detachable g u := by
  obtain ⟨⟨a, ha, hfrom⟩, b, hb, hto⟩ := ends
  constructor
  · rintro ⟨e, he, c, hc, joined, own | own | own⟩
    · exact Or.inl own
    · rcases joined with ⟨hf, _⟩ | ⟨_, ht⟩
      · exact Or.inr (Or.inl ⟨e, he, hf.symm, own⟩)
      · exact Or.inr (Or.inr ⟨e, he, ht.symm, own⟩)
    · rcases joined with ⟨_, ht⟩ | ⟨hf, _⟩
      · exact Or.inr (Or.inr ⟨c, hc, ht.symm, own⟩)
      · exact Or.inr (Or.inl ⟨c, hc, hf.symm, own⟩)
  · rintro (own | ⟨e, he, hid, own⟩ | ⟨e, he, hid, own⟩)
    · exact ⟨a, ha, b, hb, Or.inl ⟨hfrom.symm, hto.symm⟩, Or.inl own⟩
    · exact ⟨e, he, b, hb, Or.inl ⟨hid.symm, hto.symm⟩, Or.inr (Or.inl own)⟩
    · exact ⟨e, he, a, ha, Or.inr ⟨hfrom.symm, hid.symm⟩, Or.inr (Or.inl own)⟩

theorem links_seen :
    (∃ a ∈ g.entities, ∃ b ∈ g.entities, r.Links a b ∧ a.VisibleTo u ∧ b.VisibleTo u) ↔
      g.Sees u r.fromId ∧ g.Sees u r.toId := by
  constructor
  · rintro ⟨a, ha, b, hb, ⟨hf, ht⟩, va, vb⟩
    exact ⟨⟨a, ha, hf.symm, va⟩, b, hb, ht.symm, vb⟩
  · rintro ⟨⟨a, ha, hf, va⟩, b, hb, ht, vb⟩
    exact ⟨a, ha, b, hb, ⟨hf.symm, ht.symm⟩, va, vb⟩

theorem links_within_seen :
    (∃ a ∈ g.entities, ∃ b ∈ g.entities,
        r.Links a b ∧ (a.id ∈ ids ∧ b.id ∈ ids) ∧ a.VisibleTo u ∧ b.VisibleTo u) ↔
      r.Within ids ∧ g.Sees u r.fromId ∧ g.Sees u r.toId := by
  constructor
  · rintro ⟨a, ha, b, hb, ⟨hf, ht⟩, ⟨ma, mb⟩, va, vb⟩
    exact ⟨⟨hf ▸ ma, ht ▸ mb⟩, ⟨a, ha, hf.symm, va⟩, b, hb, ht.symm, vb⟩
  · rintro ⟨⟨mf, mt⟩, ⟨a, ha, hf, va⟩, b, hb, ht, vb⟩
    exact ⟨a, ha, b, hb, ⟨hf.symm, ht.symm⟩, ⟨hf ▸ mf, ht ▸ mt⟩, va, vb⟩

end RelatedTo

/-! ## Matching by id -/

namespace Cypher

variable {g : Graph} {u id : UUID}

@[simp] theorem mem_matchOwned {e : EntityNode} :
    e ∈ matchOwned g id u ↔ e ∈ g.entities ∧ e.id = id ∧ e.ownerId = u := by
  simp [matchOwned]

@[simp] theorem mem_matchVisible {e : EntityNode} :
    e ∈ matchVisible g id u ↔ e ∈ g.entities ∧ e.id = id ∧ e.VisibleTo u := by
  simp [matchVisible]

theorem matchOwned_eq_nil_iff : matchOwned g id u = [] ↔ ¬g.Owns u id := by
  rw [List.eq_nil_iff_forall_not_mem]
  simp only [mem_matchOwned, Graph.Owns, not_exists, not_and]

/-- The rows of `relationship_endpoints.cypher`. -/
theorem mem_relationshipEndpoints {fromId toId : UUID} {p : EntityNode × EntityNode} :
    p ∈ relationshipEndpoints g fromId toId u ↔
      (p.1 ∈ g.entities ∧ p.1.id = fromId ∧ p.1.VisibleTo u) ∧
      (p.2 ∈ g.entities ∧ p.2.id = toId ∧ p.2.VisibleTo u) ∧
      (p.1.ownerId = u ∨ p.2.ownerId = u) := by
  obtain ⟨a, b⟩ := p
  simp only [relationshipEndpoints, List.mem_filter, List.pair_mem_product, mem_matchVisible,
    decide_eq_true_eq, and_assoc]

/-! ## The owned component -/

/-- One hop of the caller-owned sub-graph. -/
def OwnedHop (g : Graph) (u a b : UUID) : Prop :=
  g.Owns u b ∧ ∃ r ∈ g.relationships, r.ownerId = u ∧
    (r.fromId = a ∧ r.toId = b ∨ r.fromId = b ∧ r.toId = a)

theorem mem_ownedNeighbours (wf : g.Wf) {ids : List UUID} {b : UUID} :
    b ∈ ownedNeighbours g u ids ↔ ∃ a ∈ ids, OwnedHop g u a b := by
  simp only [ownedNeighbours, List.mem_dedup, List.mem_map, List.mem_filter, decide_eq_true_eq]
  constructor
  · rintro ⟨e, ⟨he, own, r, hr, rown, a, _, joined, ha⟩, rfl⟩
    refine ⟨a.id, ha, ⟨e, he, rfl, own⟩, r, hr, rown, ?_⟩
    rcases joined with ⟨hf, ht⟩ | ⟨hf, ht⟩
    · exact Or.inl ⟨hf, ht⟩
    · exact Or.inr ⟨hf, ht⟩
  · rintro ⟨a, ha, ⟨e, he, rfl, own⟩, r, hr, rown, ends⟩
    obtain ⟨⟨s, hs, hfrom⟩, t, ht, hto⟩ := wf.endpoints r hr
    rcases ends with ⟨rfl, hb⟩ | ⟨hb, rfl⟩
    · exact ⟨e, ⟨he, own, r, hr, rown, s, hs, Or.inl ⟨hfrom.symm, hb⟩, hfrom ▸ ha⟩, rfl⟩
    · exact ⟨e, ⟨he, own, r, hr, rown, t, ht, Or.inr ⟨hb, hto.symm⟩, hto ▸ ha⟩, rfl⟩

end Cypher

/-- **The breadth-first walk is reachability** over caller-owned edges through
caller-owned entities. -/
theorem Service.mem_ownedComponent {g : Graph} (wf : g.Wf) {u start id : UUID} :
    id ∈ Service.ownedComponent g u start ↔
      Relation.ReflTransGen (Cypher.OwnedHop g u) start id := by
  have length : g.entities.length = (g.entities.map (·.id)).length := by simp
  rw [Service.ownedComponent, length]
  refine Lib.mem_walk_iff (fun ids x => Cypher.mem_ownedNeighbours wf) fun a x hop => ?_
  obtain ⟨⟨e, he, rfl, _⟩, _⟩ := hop
  exact List.mem_map_of_mem he

/-- Every entity of the component is the caller's own. -/
theorem Service.owns_of_mem_ownedComponent {g : Graph} (wf : g.Wf) {u start id : UUID}
    (own : g.Owns u start) (mem : id ∈ Service.ownedComponent g u start) : g.Owns u id := by
  rcases Relation.ReflTransGen.cases_tail ((Service.mem_ownedComponent wf).mp mem) with
    rfl | ⟨_, _, hop⟩
  · exact own
  · exact hop.1

/-! ## What a caller is shown -/

namespace Service

variable {g : Graph} {u : UUID}

theorem mem_listGraph_entities {x : Entity} :
    x ∈ (listGraph g u).entities ↔
      ∃ e ∈ g.entities, e.VisibleTo u ∧ entity e (Cypher.sourceUrls g e.id) = x := by
  simp [listGraph, Cypher.listVisibleEntities, List.mem_insertionSort, and_assoc]

theorem mem_listGraph_relationships {r : Relationship} :
    r ∈ (listGraph g u).relationships ↔
      r ∈ g.relationships ∧ (g.Sees u r.fromId ∧ g.Sees u r.toId) ∧ r.VisibleTo u := by
  simp only [listGraph, Cypher.listVisibleRelationships, List.mem_insertionSort, List.mem_filter,
    decide_eq_true_eq, RelatedTo.links_seen]

theorem mem_listVisibleRelationshipsAmong {ids : List UUID} {r : Relationship} :
    r ∈ listVisibleRelationshipsAmong g u ids ↔
      r ∈ g.relationships ∧ (r.Within ids ∧ g.Sees u r.fromId ∧ g.Sees u r.toId) ∧
        r.VisibleTo u := by
  unfold listVisibleRelationshipsAmong
  split
  · rename_i none
    simp [none, RelatedTo.Within]
  · simp only [Cypher.listVisibleRelationshipsAmong, List.mem_insertionSort, List.mem_filter,
      decide_eq_true_eq, RelatedTo.links_within_seen]

/-- An entity the caller does not see is not listed, nor is any edge at it. -/
theorem listGraph_of_not_sees {x : UUID} (unseen : ¬g.Sees u x) :
    (∀ e ∈ (listGraph g u).entities, e.id ≠ x) ∧
      ∀ r ∈ (listGraph g u).relationships, r.fromId ≠ x ∧ r.toId ≠ x := by
  refine ⟨fun y hy same => ?_, fun r hr => ?_⟩
  · obtain ⟨e, he, visible, rfl⟩ := mem_listGraph_entities.mp hy
    exact unseen ⟨e, he, same, visible⟩
  · obtain ⟨-, ⟨sfrom, sto⟩, -⟩ := mem_listGraph_relationships.mp hr
    exact ⟨fun same => unseen (same ▸ sfrom), fun same => unseen (same ▸ sto)⟩

end Service

end Intellivault
