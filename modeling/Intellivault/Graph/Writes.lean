import Intellivault.Lib.Keyed
import Intellivault.Graph.Statements

/-!
# The writing statements, edge by edge

In a well-formed graph each writing statement rewrites, removes or keeps an entity or an
edge by that record's own fields and ids.  The equations here put the statements in that
form, up to `create_relationship.cypher` and the transactions of `change_visibility`.
-/

namespace Intellivault

open Lib

/-! ## Rewriting one entity or edge -/

/-- The flip of `flip_entities.cypher`, on one node. -/
def EntityNode.flip (now : Time) (ids : List UUID) (u : UUID) (v : Visibility) (e : EntityNode) :
    EntityNode :=
  if e.id ∈ ids ∧ e.ownerId = u ∧ e.visibility ≠ v then
    { e with visibility := v, updatedAt := now }
  else e

/-- The flip of `flip_relationships.cypher`, on one edge. -/
def RelatedTo.flip (now : Time) (ids : List UUID) (u : UUID) (v : Visibility) (r : RelatedTo) :
    RelatedTo :=
  if (r.ownerId = u ∧ r.visibility ≠ v) ∧ r.Within ids then
    { r with visibility := v, updatedAt := now }
  else r

/-- The demotion of `demote_owned_edges.cypher`, on one edge. -/
def RelatedTo.demote (now : Time) (ids : List UUID) (u : UUID) (r : RelatedTo) : RelatedTo :=
  if (r.ownerId = u ∧ r.visibility = .pub) ∧ r.Touches ids then
    { r with visibility := .priv, updatedAt := now }
  else r

/-- `_clean_incident_edges`, on one edge. -/
def RelatedTo.clean (now : Time) (ids : List UUID) (u : UUID) (r : RelatedTo) :
    Option RelatedTo :=
  if r.ownerId ≠ u ∧ r.Touches ids then none else some (r.demote now ids u)

namespace EntityNode

variable {now : Time} {ids : List UUID} {u : UUID} {v : Visibility} {e : EntityNode}

@[simp] theorem flip_id : (e.flip now ids u v).id = e.id := by
  unfold flip
  split <;> rfl

@[simp] theorem flip_ownerId : (e.flip now ids u v).ownerId = e.ownerId := by
  unfold flip
  split <;> rfl

theorem flip_of_foreign (foreign : e.ownerId ≠ u) : e.flip now ids u v = e :=
  if_neg fun h => foreign h.2.1

/-- An entity of the flipped set ends up with the target visibility. -/
theorem flip_visibility (mem : e.id ∈ ids) (own : e.ownerId = u) :
    (e.flip now ids u v).visibility = v := by
  unfold flip
  split
  · rfl
  · rename_i h
    by_contra hne
    exact h ⟨mem, own, hne⟩

/-- Only an own entity of the set changes visibility. -/
theorem flip_visibility_ne (changed : (e.flip now ids u v).visibility ≠ e.visibility) :
    e.id ∈ ids ∧ e.ownerId = u := by
  unfold flip at changed
  split at changed
  · rename_i h
    exact ⟨h.1, h.2.1⟩
  · exact absurd rfl changed

end EntityNode

namespace RelatedTo

variable {now : Time} {ids : List UUID} {u : UUID} {v : Visibility} {r r' : RelatedTo}

/-- The two edges differ in visibility and time stamps at most. -/
def Same (r r' : RelatedTo) : Prop :=
  r'.id = r.id ∧ r'.ownerId = r.ownerId ∧ r'.fromId = r.fromId ∧ r'.toId = r.toId ∧
    r'.kind = r.kind

@[simp] theorem Same.rfl : r.Same r := ⟨Eq.refl _, Eq.refl _, Eq.refl _, Eq.refl _, Eq.refl _⟩

theorem Same.trans {s t : RelatedTo} (h : r.Same s) (h' : s.Same t) : r.Same t :=
  ⟨h'.1.trans h.1, h'.2.1.trans h.2.1, h'.2.2.1.trans h.2.2.1, h'.2.2.2.1.trans h.2.2.2.1,
    h'.2.2.2.2.trans h.2.2.2.2⟩

theorem same_flip : r.Same (r.flip now ids u v) := by
  unfold flip
  split <;> exact ⟨Eq.refl _, Eq.refl _, Eq.refl _, Eq.refl _, Eq.refl _⟩

theorem same_demote : r.Same (r.demote now ids u) := by
  unfold demote
  split <;> exact ⟨Eq.refl _, Eq.refl _, Eq.refl _, Eq.refl _, Eq.refl _⟩

theorem Same.touches_iff (h : r.Same r') : r'.Touches ids ↔ r.Touches ids := by
  unfold Touches
  rw [h.2.2.1, h.2.2.2.1]

theorem flip_of_foreign (foreign : r.ownerId ≠ u) : r.flip now ids u v = r :=
  if_neg fun h => foreign h.1.1

theorem demote_of_foreign (foreign : r.ownerId ≠ u) : r.demote now ids u = r :=
  if_neg fun h => foreign h.1.1

/-- Only an own edge inside the set changes visibility, to the target. -/
theorem flip_visibility_ne (changed : (r.flip now ids u v).visibility ≠ r.visibility) :
    r.ownerId = u ∧ r.Within ids ∧ (r.flip now ids u v).visibility = v := by
  unfold flip at changed ⊢
  split at changed
  · rename_i h
    rw [if_pos h]
    exact ⟨h.1.1, h.2, rfl⟩
  · exact absurd (Eq.refl _) changed

/-- An own edge at the set is private after the demotion. -/
theorem demote_visibility (own : r.ownerId = u) (touches : r.Touches ids) :
    (r.demote now ids u).visibility = .priv := by
  unfold demote
  split
  · rfl
  · rename_i h
    cases hv : r.visibility with
    | priv => rfl
    | pub => exact absurd ⟨⟨own, hv⟩, touches⟩ h

/-- The demotion publishes nothing. -/
theorem visibility_of_demote (h : (r.demote now ids u).visibility = .pub) :
    r.visibility = .pub := by
  unfold demote at h
  split at h
  · cases h
  · exact h

end RelatedTo

/-! ## The edge statements, edge by edge -/

namespace Graph

theorem Has.of_ids {g g' : Graph} (ids : g'.entities.map (·.id) = g.entities.map (·.id))
    {id : UUID} (h : g.Has id) : g'.Has id := by
  have mem : id ∈ g'.entities.map (·.id) := by
    rw [ids]
    exact List.mem_map.mpr h
  exact List.mem_map.mp mem

theorem Closed.of_ids {g g' : Graph} (h : g.Closed)
    (ids : g'.entities.map (·.id) = g.entities.map (·.id))
    (edges : g'.relationships = g.relationships) : g'.Closed := by
  intro r hr
  rw [edges] at hr
  exact ⟨(h r hr).1.of_ids ids, (h r hr).2.of_ids ids⟩

theorem Closed.map {g : Graph} (h : g.Closed) {f : RelatedTo → RelatedTo}
    (same : ∀ r : RelatedTo, r.Same (f r)) : { g with relationships := g.relationships.map f }.Closed := by
  intro r hr
  obtain ⟨s, hs, rfl⟩ := List.mem_map.mp hr
  obtain ⟨_, _, hfrom, hto, _⟩ := same s
  rw [hfrom, hto]
  exact h s hs

end Graph

namespace Cypher

variable {g : Graph} {now : Time} {ids : List UUID} {id u : UUID} {v : Visibility}

theorem flipEntities_eq :
    flipEntities g now ids u v =
      ({ g with entities := g.entities.map (·.flip now ids u v) },
        (g.entities.filter fun e => e.id ∈ ids ∧ e.ownerId = u ∧ e.visibility ≠ v).map (·.id)) :=
  rfl

/-- The single flip is the flip of a one-element set. -/
theorem setEntityVisibility_eq :
    setEntityVisibility g now id u v =
      ({ g with entities := g.entities.map (·.flip now [id] u v) },
        (matchOwned g id u).map fun e => (e.id, decide (e.visibility ≠ v))) := by
  have each : ∀ e : EntityNode,
      (if (e.id = id ∧ e.ownerId = u) ∧ e.visibility ≠ v then
        { e with visibility := v, updatedAt := now } else e) = e.flip now [id] u v := by
    intro e
    simp only [EntityNode.flip, List.mem_singleton, and_assoc]
  simp only [setEntityVisibility, each]

theorem flipRelationships_eq (closed : g.Closed) :
    flipRelationships g now ids u v =
      { g with relationships := g.relationships.map (·.flip now ids u v) } := by
  unfold flipRelationships
  congr 1
  apply List.map_congr_left
  intro r hr
  simp only [RelatedTo.joins_within (closed r hr), RelatedTo.flip]

theorem demoteOwnedEdges_eq (closed : g.Closed) :
    demoteOwnedEdges g now ids u =
      { g with relationships := g.relationships.map (·.demote now ids u) } := by
  unfold demoteOwnedEdges
  congr 1
  apply List.map_congr_left
  intro r hr
  simp only [RelatedTo.joins_touches (closed r hr), RelatedTo.demote]

theorem removeForeignEdges_eq (closed : g.Closed) :
    removeForeignEdges g ids u =
      { g with relationships := g.relationships.filter fun r =>
          ¬(r.ownerId ≠ u ∧ r.Touches ids) } := by
  unfold removeForeignEdges
  congr 1
  apply List.filter_congr
  intro r hr
  simp only [RelatedTo.joins_touches (closed r hr)]

/-- The clean-up, edge by edge. -/
theorem cleanIncidentEdges_eq (closed : g.Closed) :
    Service.cleanIncidentEdges g now u ids =
      { g with relationships := g.relationships.filterMap (·.clean now ids u) } := by
  unfold Service.cleanIncidentEdges
  rw [demoteOwnedEdges_eq closed,
    removeForeignEdges_eq (closed.map fun _ => RelatedTo.same_demote)]
  congr 1
  rw [← List.filterMap_eq_filter, ← List.filterMap_eq_map, List.filterMap_filterMap]
  congr 1
  funext r
  have same : r.Same (r.demote now ids u) := RelatedTo.same_demote
  have howner : (r.demote now ids u).ownerId = r.ownerId := same.2.1
  have htouches : (r.demote now ids u).Touches ids ↔ r.Touches ids := same.touches_iff
  by_cases h : r.ownerId ≠ u ∧ r.Touches ids
  · simp [RelatedTo.clean, Option.guard, howner, htouches, h]
  · simp [RelatedTo.clean, Option.guard, howner, htouches, h]

end Cypher

/-! ## Linking two entities -/

namespace Graph

/-- The entity with the id is public. -/
def Public (g : Graph) (id : UUID) : Prop := ∃ e ∈ g.entities, e.id = id ∧ e.visibility = .pub

instance (g : Graph) (id : UUID) : Decidable (g.Public id) :=
  inferInstanceAs (Decidable (∃ e ∈ g.entities, _))

/-- What `create_relationship.cypher` asks of the two ends. -/
def Linkable (g : Graph) (u fromId toId : UUID) (v : Visibility) : Prop :=
  (g.Sees u fromId ∧ g.Sees u toId) ∧ (g.Owns u fromId ∨ g.Owns u toId) ∧
    (v = .priv ∨ (g.Public fromId ∧ g.Public toId))

instance (g : Graph) (u fromId toId : UUID) (v : Visibility) :
    Decidable (g.Linkable u fromId toId v) :=
  inferInstanceAs (Decidable (_ ∧ _ ∧ _))

end Graph

namespace Cypher

variable {g : Graph} {u id fromId toId : UUID}

theorem matchVisible_eq (wf : g.Wf) {e : EntityNode} (he : e ∈ g.entities)
    (visible : e.VisibleTo u) : matchVisible g e.id u = [e] :=
  filter_eq_singleton wf.entityIds he (by simpa using visible) fun y _ hy =>
    (of_decide_eq_true hy).1

/-- The endpoint query answers with the pair of entities, or with nothing. -/
theorem relationshipEndpoints_eq (wf : g.Wf) {a b : EntityNode} (ha : a ∈ g.entities)
    (hb : b ∈ g.entities) (va : a.VisibleTo u) (vb : b.VisibleTo u)
    (own : a.ownerId = u ∨ b.ownerId = u) : relationshipEndpoints g a.id b.id u = [(a, b)] := by
  simp [relationshipEndpoints, matchVisible_eq wf ha va, matchVisible_eq wf hb vb, own,
    List.product]

theorem relationshipEndpoints_eq_nil_iff (wf : g.Wf) :
    relationshipEndpoints g fromId toId u = [] ↔ ¬g.Linkable u fromId toId .priv := by
  rw [List.eq_nil_iff_forall_not_mem]
  constructor
  · intro none linkable
    obtain ⟨⟨⟨a, ha, rfl, va⟩, b, hb, rfl, vb⟩, own, -⟩ := linkable
    refine none (a, b) (mem_relationshipEndpoints.mpr ⟨⟨ha, rfl, va⟩, ⟨hb, rfl, vb⟩, ?_⟩)
    rcases own with ⟨c, hc, same, own⟩ | ⟨c, hc, same, own⟩
    · rw [wf.eq_of_id hc ha same] at own
      exact Or.inl own
    · rw [wf.eq_of_id hc hb same] at own
      exact Or.inr own
  · intro unlinkable p hp
    obtain ⟨⟨ha, haid, va⟩, ⟨hb, hbid, vb⟩, own⟩ := mem_relationshipEndpoints.mp hp
    refine unlinkable ⟨⟨⟨p.1, ha, haid, va⟩, p.2, hb, hbid, vb⟩, ?_, Or.inl rfl⟩
    rcases own with own | own
    · exact Or.inl ⟨p.1, ha, haid, own⟩
    · exact Or.inr ⟨p.2, hb, hbid, own⟩

/-- `create_relationship.cypher` creates the one edge asked for, or nothing. -/
theorem createRelationship_rows (wf : g.Wf) (now : Time) (id u fromId toId : UUID)
    (kind : String) (v : Visibility) :
    (createRelationship g now id u fromId toId kind v).2 =
      if g.Linkable u fromId toId v then
        [{ id, ownerId := u, fromId, toId, kind, visibility := v
           createdAt := now, updatedAt := now }]
      else [] := by
  by_cases ends : g.Linkable u fromId toId .priv
  · obtain ⟨⟨⟨a, ha, rfl, va⟩, b, hb, rfl, vb⟩, own, -⟩ := ends
    have ownPair : a.ownerId = u ∨ b.ownerId = u := by
      rcases own with ⟨c, hc, same, own⟩ | ⟨c, hc, same, own⟩
      · exact Or.inl (wf.eq_of_id hc ha same ▸ own)
      · exact Or.inr (wf.eq_of_id hc hb same ▸ own)
    have publicA : g.Public a.id ↔ a.visibility = .pub := by
      constructor
      · rintro ⟨c, hc, same, hpub⟩
        exact wf.eq_of_id hc ha same ▸ hpub
      · exact fun hpub => ⟨a, ha, rfl, hpub⟩
    have publicB : g.Public b.id ↔ b.visibility = .pub := by
      constructor
      · rintro ⟨c, hc, same, hpub⟩
        exact wf.eq_of_id hc hb same ▸ hpub
      · exact fun hpub => ⟨b, hb, rfl, hpub⟩
    have linkable : g.Linkable u a.id b.id v ↔
        v = .priv ∨ (a.visibility = .pub ∧ b.visibility = .pub) := by
      rw [← publicA, ← publicB]
      exact ⟨fun h => h.2.2, fun h => ⟨⟨⟨a, ha, rfl, va⟩, b, hb, rfl, vb⟩, own, h⟩⟩
    simp only [createRelationship, relationshipEndpoints_eq wf ha hb va vb ownPair, linkable]
    split
    · rename_i h
      simp [h]
    · rename_i h
      simp [h]
  · have unlinkable : ¬g.Linkable u fromId toId v := fun h => ends ⟨h.1, h.2.1, Or.inl rfl⟩
    have none := (relationshipEndpoints_eq_nil_iff wf).mpr ends
    simp [createRelationship, none, unlinkable]

end Cypher

/-! ## Changing visibility -/

/-- The citations of the entities take on the visibility. -/
def SourcedFrom.restamp (ids : List UUID) (v : Visibility) (r : SourcedFrom) : SourcedFrom :=
  if r.entityId ∈ ids then { r with visibility := v } else r

/-- Rewriting citations of the caller's own entities, in their visibility only. -/
structure Restamps (g : Graph) (u : UUID) (f : SourcedFrom → SourcedFrom) : Prop where
  entityId : ∀ r, (f r).entityId = r.entityId
  url : ∀ r, (f r).url = r.url
  foreign : ∀ r, ¬g.Owns u r.entityId → f r = r

theorem SourcedFrom.restamps {g : Graph} {u : UUID} {ids : List UUID} {v : Visibility}
    (mine : ∀ x ∈ ids, g.Owns u x) : Restamps g u (restamp ids v) := by
  constructor
  · intro r
    unfold restamp
    split <;> rfl
  · intro r
    unfold restamp
    split <;> rfl
  · intro r foreign
    exact if_neg fun mem => foreign (mine _ mem)

/-- What `change_visibility` does to one edge: a cascade flips it, and a change to private
cleans it up. -/
def RelatedTo.revise (clock : Clock) (cascade : Bool) (ids : List UUID) (u : UUID)
    (v : Visibility) (r : RelatedTo) : Option RelatedTo :=
  let r := if cascade then r.flip (clock 1) ids u v else r
  if v = .priv then r.clean (clock (if cascade then 2 else 1)) ids u else some r

namespace RelatedTo

variable {clock : Clock} {cascade : Bool} {ids : List UUID} {u : UUID} {v : Visibility}
  {r r' : RelatedTo}

/-- The two stages of `revise`. -/
theorem revise_eq_some (h : r.revise clock cascade ids u v = some r') :
    ∃ s, r.Same s ∧
      (s.visibility = r.visibility ∨ r.ownerId = u ∧ r.Within ids ∧ s.visibility = v) ∧
      (v = .priv ∧ s.clean (clock (if cascade then 2 else 1)) ids u = some r' ∨
        v = .pub ∧ s = r') := by
  refine ⟨if cascade then r.flip (clock 1) ids u v else r, ?_, ?_, ?_⟩
  · cases cascade with
    | false => exact Same.rfl
    | true => exact same_flip
  · cases cascade with
    | false => exact Or.inl rfl
    | true =>
        by_cases same : (r.flip (clock 1) ids u v).visibility = r.visibility
        · exact Or.inl same
        · exact Or.inr (flip_visibility_ne same)
  · unfold revise at h
    cases v with
    | priv => exact Or.inl ⟨rfl, h⟩
    | pub => exact Or.inr ⟨rfl, Option.some.inj h⟩

theorem clean_eq_some {now : Time} (h : r.clean now ids u = some r') :
    (r.ownerId = u ∨ ¬r.Touches ids) ∧ r' = r.demote now ids u := by
  unfold clean at h
  split at h
  · cases h
  · rename_i kept
    refine ⟨?_, (Option.some.inj h).symm⟩
    by_cases own : r.ownerId = u
    · exact Or.inl own
    · exact Or.inr fun touches => kept ⟨own, touches⟩

theorem same_revise (h : r.revise clock cascade ids u v = some r') : r.Same r' := by
  obtain ⟨s, same, -, ⟨-, cleaned⟩ | ⟨-, rfl⟩⟩ := revise_eq_some h
  · rw [(clean_eq_some cleaned).2]
    exact same.trans same_demote
  · exact same

/-- A foreign edge goes if it meets an entity that is made private. -/
theorem revise_of_foreign_eq (foreign : r.ownerId ≠ u) :
    r.revise clock cascade ids u v = if v = .priv ∧ r.Touches ids then none else some r := by
  have unflipped : (if cascade then r.flip (clock 1) ids u v else r) = r := by
    cases cascade with
    | false => rfl
    | true => exact flip_of_foreign foreign
  unfold revise
  rw [unflipped]
  cases v with
  | priv => simp [clean, foreign, demote_of_foreign foreign]
  | pub => rfl

/-- A foreign edge is left alone, or cleaned up at an entity that is made private. -/
theorem revise_of_foreign (foreign : r.ownerId ≠ u) :
    r.revise clock cascade ids u v = some r ∨
      r.revise clock cascade ids u v = none ∧ r.Touches ids := by
  rw [revise_of_foreign_eq foreign]
  split
  · rename_i gone
    exact Or.inr ⟨rfl, gone.2⟩
  · exact Or.inl rfl

/-- What is left at an entity that is made private is the caller's own, and private. -/
theorem revise_hides (h : r.revise clock cascade ids u .priv = some r') (touches : r.Touches ids) :
    r.ownerId = u ∧ r'.visibility = .priv := by
  obtain ⟨s, same, -, ⟨-, cleaned⟩ | ⟨hv, -⟩⟩ := revise_eq_some h
  · obtain ⟨kept, rfl⟩ := clean_eq_some cleaned
    have touches' : s.Touches ids := same.touches_iff.mpr touches
    rcases kept with own | untouched
    · exact ⟨same.2.1.symm.trans own, demote_visibility own touches'⟩
    · exact absurd touches' untouched
  · cases hv

/-- An edge becomes public only inside a component that is made public. -/
theorem revise_shows (h : r.revise clock cascade ids u v = some r')
    (hpub : r'.visibility = .pub) : r.visibility = .pub ∨ v = .pub ∧ r.Within ids := by
  obtain ⟨s, -, flipped, ⟨hv, cleaned⟩ | ⟨hv, rfl⟩⟩ := revise_eq_some h
  · rw [(clean_eq_some cleaned).2] at hpub
    have shown := visibility_of_demote hpub
    rcases flipped with unflipped | ⟨-, -, target⟩
    · exact Or.inl (unflipped.symm.trans shown)
    · rw [target, hv] at shown
      cases shown
  · rcases flipped with unflipped | ⟨-, within, -⟩
    · exact Or.inl (unflipped.symm.trans hpub)
    · exact Or.inr ⟨hv, within⟩

end RelatedTo

namespace Graph

variable {g : Graph} {now : Time} {ids : List UUID} {u w id : UUID} {v : Visibility}

/-- The graph with its entities flipped. -/
abbrev flip (g : Graph) (now : Time) (ids : List UUID) (u : UUID) (v : Visibility) : Graph :=
  { g with entities := g.entities.map (·.flip now ids u v) }

theorem ids_flip : (g.flip now ids u v).entities.map (·.id) = g.entities.map (·.id) := by
  simp

end Graph

namespace Service

variable {g : Graph} {clock : Clock} {u id : UUID} {ids : List UUID} {v : Visibility}
  {change : VisibilityChange}

/-- The entities a change of visibility is about. -/
def scope (g : Graph) (u id : UUID) (cascade : Bool) : List UUID :=
  if cascade then ownedComponent g u id else [id]

theorem mem_scope_self (wf : g.Wf) {cascade : Bool} : id ∈ scope g u id cascade := by
  cases cascade with
  | false => exact List.mem_singleton.mpr rfl
  | true => exact (mem_ownedComponent wf).mpr .refl

theorem owns_of_mem_scope (wf : g.Wf) {cascade : Bool} {x : UUID} (own : g.Owns u id)
    (mem : x ∈ scope g u id cascade) : g.Owns u x := by
  cases cascade with
  | false => exact List.mem_singleton.mp mem ▸ own
  | true => exact owns_of_mem_ownedComponent wf own mem

/-- The entities of the set that a flip changes. -/
def flipped (g : Graph) (ids : List UUID) (u : UUID) (v : Visibility) : List UUID :=
  (g.entities.filter fun e => e.id ∈ ids ∧ e.ownerId = u ∧ e.visibility ≠ v).map (·.id)

theorem mem_flipped {x : UUID} :
    x ∈ flipped g ids u v ↔
      ∃ e ∈ g.entities, (e.id ∈ ids ∧ e.ownerId = u ∧ e.visibility ≠ v) ∧ e.id = x := by
  simp only [flipped, List.mem_map, List.mem_filter, decide_eq_true_eq, and_assoc]

theorem owns_of_mem_flipped {x : UUID} (mem : x ∈ flipped g ids u v) : g.Owns u x := by
  obtain ⟨e, he, ⟨-, own, -⟩, hid⟩ := mem_flipped.mp mem
  exact ⟨e, he, hid, own⟩

/-- `_sync_sources` after a flip gives the citations of what it changed the target visibility. -/
theorem syncSources_eq (wf : g.Wf) (now : Time) (ids : List UUID) (edges : List RelatedTo) :
    syncSources { g.flip now ids u v with relationships := edges } u (flipped g ids u v) =
      { g.flip now ids u v with
        relationships := edges
        sourcedFrom := g.sourcedFrom.map (SourcedFrom.restamp (flipped g ids u v) v) } := by
  unfold syncSources
  split
  · rename_i none
    have idle : SourcedFrom.restamp [] v = id := by
      funext r
      exact if_neg List.not_mem_nil
    rw [none, idle, List.map_id]
  · unfold Cypher.syncEntitySources
    congr 1
    apply List.map_congr_left
    intro r _
    split
    · rename_i e' found
      obtain ⟨e, he, rfl⟩ := List.mem_map.mp (List.mem_of_find?_eq_some found)
      have hit := List.find?_some found
      obtain ⟨same, mem, -⟩ := of_decide_eq_true hit
      obtain ⟨x, hx, ⟨inside, own, -⟩, hid⟩ := mem_flipped.mp mem
      rw [EntityNode.flip_id] at hid
      rw [wf.eq_of_id hx he hid] at inside own
      rw [EntityNode.flip_visibility inside own]
      exact (if_pos (same ▸ mem)).symm
    · rename_i none
      refine (if_neg fun mem => ?_).symm
      obtain ⟨e, he, ⟨inside, own, changed⟩, hid⟩ := mem_flipped.mp mem
      have missed := List.find?_eq_none.mp none _ (List.mem_map_of_mem he)
      rw [decide_eq_true_eq, EntityNode.flip_id, EntityNode.flip_ownerId] at missed
      exact missed ⟨hid.symm, hid ▸ mem, own⟩

theorem changeVisibility_of_not_owns (foreign : ¬g.Owns u id) :
    changeVisibility g clock u id change = (g, .error ⟨notFound, "Entity not found"⟩) := by
  have none := Cypher.matchOwned_eq_nil_iff.mpr foreign
  unfold changeVisibility
  split
  · simp [cascadeTx, Cypher.ownedEntityExists, none]
  · simp [singleVisibilityTx, Cypher.setEntityVisibility, none]

/-- The clean-up a change to private ends with, edge by edge. -/
theorem cleanIfPrivate_eq (closed : g.Closed) {now : Time} :
    (if v = .priv then cleanIncidentEdges g now u ids else g) =
      { g with relationships := g.relationships.filterMap fun r =>
          if v = .priv then r.clean now ids u else some r } := by
  split
  · exact Cypher.cleanIncidentEdges_eq closed
  · simp

/-- `_single_visibility_tx` on the caller's own entity. -/
theorem singleVisibilityTx_of_owns (wf : g.Wf) (own : g.Owns u id) :
    singleVisibilityTx g clock u id v =
      ({ entities := g.entities.map (·.flip (clock 0) [id] u v)
         relationships := g.relationships.filterMap (·.revise clock false [id] u v)
         sources := g.sources
         sourcedFrom := g.sourcedFrom.map (SourcedFrom.restamp (flipped g [id] u v) v) },
        .ok ⟨flipped g [id] u v⟩) := by
  obtain ⟨e, he, rfl, hown⟩ := own
  have row : Cypher.matchOwned g e.id u = [e] :=
    filter_eq_singleton wf.entityIds he (by simp [hown]) fun y _ hy => (of_decide_eq_true hy).1
  have affected : flipped g [e.id] u v = if e.visibility ≠ v then [e.id] else [] := by
    unfold flipped
    split
    · rename_i changed
      rw [filter_eq_singleton wf.entityIds he (by simp [hown, changed]) fun y _ hy =>
        List.mem_singleton.mp (of_decide_eq_true hy).1]
      rfl
    · rename_i unchanged
      apply List.map_eq_nil_iff.mpr
      rw [List.filter_eq_nil_iff]
      intro x hx hit
      obtain ⟨same, -, changed⟩ := of_decide_eq_true hit
      rw [wf.eq_of_id hx he (List.mem_singleton.mp same)] at changed
      exact unchanged changed
  have hsync : (if e.visibility ≠ v then syncSources (g.flip (clock 0) [e.id] u v) u [e.id]
        else g.flip (clock 0) [e.id] u v) =
      { g.flip (clock 0) [e.id] u v with
        sourcedFrom := g.sourcedFrom.map (SourcedFrom.restamp (flipped g [e.id] u v) v) } := by
    rw [← syncSources_eq wf (clock 0) [e.id] g.relationships, affected]
    split <;> rfl
  have closed : Graph.Closed { g.flip (clock 0) [e.id] u v with
      sourcedFrom := g.sourcedFrom.map (SourcedFrom.restamp (flipped g [e.id] u v) v) } :=
    wf.endpoints.of_ids Graph.ids_flip rfl
  rw [affected] at hsync closed ⊢
  simp only [singleVisibilityTx, Cypher.setEntityVisibility_eq, row, List.map_cons, List.map_nil,
    decide_eq_true_eq, hsync, cleanIfPrivate_eq closed]
  rfl

/-- `_cascade_tx` from the caller's own entity. -/
theorem cascadeTx_of_owns (wf : g.Wf) (own : g.Owns u id) :
    cascadeTx g clock u id v =
      ({ entities := g.entities.map (·.flip (clock 0) (ownedComponent g u id) u v)
         relationships := g.relationships.filterMap
          (·.revise clock true (ownedComponent g u id) u v)
         sources := g.sources
         sourcedFrom := g.sourcedFrom.map
          (SourcedFrom.restamp (flipped g (ownedComponent g u id) u v) v) },
        .ok ⟨flipped g (ownedComponent g u id) u v⟩) := by
  have found : Cypher.ownedEntityExists g id u ≠ [] := by
    intro none
    exact Cypher.matchOwned_eq_nil_iff.mp (List.map_eq_nil_iff.mp none) own
  have closed : (g.flip (clock 0) (ownedComponent g u id) u v).Closed :=
    wf.endpoints.of_ids Graph.ids_flip rfl
  have closed' := closed.map (f := (·.flip (clock 1) (ownedComponent g u id) u v))
    fun _ => RelatedTo.same_flip
  have closed'' : Graph.Closed { g.flip (clock 0) (ownedComponent g u id) u v with
      relationships := g.relationships.map (·.flip (clock 1) (ownedComponent g u id) u v)
      sourcedFrom := g.sourcedFrom.map
        (SourcedFrom.restamp (flipped g (ownedComponent g u id) u v) v) } := closed'.of_ids rfl rfl
  have hsync := syncSources_eq (u := u) (v := v) wf (clock 0) (ownedComponent g u id)
    (g.relationships.map (·.flip (clock 1) (ownedComponent g u id) u v))
  simp only [cascadeTx, if_neg found, Cypher.flipEntities_eq]
  rw [Cypher.flipRelationships_eq closed]
  rw [← flipped, hsync, cleanIfPrivate_eq closed'', ← List.filterMap_eq_map,
    List.filterMap_filterMap]
  rfl

/-- What a change of visibility by the owner does, single or cascading. -/
theorem changeVisibility_eq (clock : Clock) (change : VisibilityChange) (wf : g.Wf)
    (own : g.Owns u id) :
    changeVisibility g clock u id change =
      ({ entities := g.entities.map
          (·.flip (clock 0) (scope g u id change.cascade) u change.visibility)
         relationships := g.relationships.filterMap
          (·.revise clock change.cascade (scope g u id change.cascade) u change.visibility)
         sources := g.sources
         sourcedFrom := g.sourcedFrom.map (SourcedFrom.restamp
          (flipped g (scope g u id change.cascade) u change.visibility) change.visibility) },
        .ok ⟨flipped g (scope g u id change.cascade) u change.visibility⟩) := by
  obtain ⟨v, cascade⟩ := change
  cases cascade with
  | false => exact singleVisibilityTx_of_owns wf own
  | true => exact cascadeTx_of_owns wf own

/-- ... where only citations of the caller's own entities change. -/
theorem changeVisibility_of_owns (clock : Clock) (change : VisibilityChange) (wf : g.Wf)
    (own : g.Owns u id) :
    ∃ f, Restamps g u f ∧
      changeVisibility g clock u id change =
        ({ entities := g.entities.map
            (·.flip (clock 0) (scope g u id change.cascade) u change.visibility)
           relationships := g.relationships.filterMap
            (·.revise clock change.cascade (scope g u id change.cascade) u change.visibility)
           sources := g.sources
           sourcedFrom := g.sourcedFrom.map f },
          .ok ⟨(g.entities.filter fun e => e.id ∈ scope g u id change.cascade ∧ e.ownerId = u ∧
            e.visibility ≠ change.visibility).map (·.id)⟩) := by
  have mine : ∀ x ∈ flipped g (scope g u id change.cascade) u change.visibility, g.Owns u x :=
    fun _ => owns_of_mem_flipped
  exact ⟨_, SourcedFrom.restamps mine, changeVisibility_eq clock change wf own⟩

end Service

end Intellivault
