import Intellivault.Graph.Additive
import Intellivault.Frontend.GraphPage

/-!
# A page that is out of date

Between the rendering of a graph page and a click on it, other users send requests and runs
of the user commit.  `Stays` is what of the graph is as the page shows it, whatever they do;
from it follows how the service answers each request that the page can send.  A call of the
service is one atomic step; `ReadCommitted` shows what that idealizes.
-/

namespace Intellivault.Frontend

/-! ## While the page is open -/

/-- Others call the service, and calls of the user's runs add private records.  A drawn id is
neither in use nor was it when the page was rendered. -/
inductive Meanwhile (g₀ : Graph) (u : UUID) : Graph → Prop
  | start : Meanwhile g₀ u g₀
  | call {g : Graph} (clock : Clock) (v : UUID) (op : Op) : Meanwhile g₀ u g →
      v ≠ u ∨ op.Adds .empty → op.Fresh g → op.Fresh g₀ → Meanwhile g₀ u (op.run g clock v).1

/-- What stays of the graph. -/
structure Stays (g₀ : Graph) (u : UUID) (g : Graph) : Prop where
  inv : g.Inv
  own : ∀ e ∈ g₀.entities, e.ownerId = u →
    ∃ e' ∈ g.entities, e'.id = e.id ∧ e'.ownerId = u ∧ e'.visibility = e.visibility
  owner : ∀ e ∈ g₀.entities, ∀ e' ∈ g.entities, e'.id = e.id → e'.ownerId = e.ownerId
  edge : ∀ r ∈ g₀.relationships, ∀ r' ∈ g.relationships, r'.id = r.id → r.Same r'

section Stays

variable {g₀ g : Graph} {u v x : UUID} {op : Op} {clock : Clock}

theorem newEntity_fresh (fresh : op.Fresh g₀) {e : EntityNode}
    (new : e ∈ (op.change g clock v).newEntities) : ∀ old ∈ g₀.entities, e.id ≠ old.id := by
  intro old mem same
  cases op with
  | createEntity id data =>
      rw [List.mem_singleton.mp new] at same
      exact fresh old mem same.symm
  | changeVisibility id change =>
      dsimp only [Op.change] at new
      split at new <;> cases new
  | _ => cases new

theorem newEdge_fresh (fresh : op.Fresh g₀) {r : RelatedTo}
    (new : r ∈ (op.change g clock v).newEdges) : ∀ old ∈ g₀.relationships, r.id ≠ old.id := by
  intro old mem same
  cases op with
  | createRelationship id data =>
      dsimp only [Op.change] at new
      split at new
      · rw [List.mem_singleton.mp new] at same
        exact fresh old mem same.symm
      · cases new
  | changeVisibility id change =>
      dsimp only [Op.change] at new
      split at new <;> cases new
  | _ => cases new

/-- An entity of the user's goes through the call with its visibility. -/
theorem own_kept (gently : v ≠ u ∨ op.Adds .empty) (wf : g.Wf) (fresh : op.Fresh g)
    {e : EntityNode} (mem : e ∈ g.entities) (own : e.ownerId = u) :
    ∃ e' ∈ (op.run g clock v).1.entities,
      e'.id = e.id ∧ e'.ownerId = u ∧ e'.visibility = e.visibility := by
  rcases gently with other | adds
  · have kept := (Op.change_sound clock v wf fresh).foreignEntity e fun mine =>
      other (mine.symm.trans own)
    exact ⟨e, (Op.mem_run_entities wf).mpr (.inl ⟨e, mem, kept⟩), rfl, own, rfl⟩
  · obtain ⟨f, onEntity, same, -⟩ := adds.onEntity (g := g) clock v
    obtain ⟨sameId, sameOwner, sameVisibility⟩ := same e
    refine ⟨f e, (Op.mem_run_entities wf).mpr (.inl ⟨e, mem, ?_⟩), sameId,
      sameOwner.trans own, sameVisibility⟩
    rw [onEntity]

theorem Meanwhile.stays (meanwhile : Meanwhile g₀ u g) (inv : g₀.Inv) : Stays g₀ u g := by
  induction meanwhile with
  | start =>
      refine ⟨inv, fun e mem own => ⟨e, mem, rfl, own, rfl⟩, fun e mem e' mem' same => ?_,
        fun r mem r' mem' same => ?_⟩
      · rw [inv.wf.eq_of_id mem' mem same]
      · rw [inv.wf.edge_eq_of_id mem' mem same]
        exact RelatedTo.Same.rfl
  | @call g clock v op before gently fresh fresh₀ ih =>
      have wf := ih.inv.wf
      have sound := Op.change_sound clock v wf fresh
      refine ⟨Op.inv_run ih.inv fresh, fun e mem own => ?_, fun e mem e' mem' same => ?_,
        fun r mem r' mem' same => ?_⟩
      · obtain ⟨old, inside, sameId, isOwn, sameVisibility⟩ := ih.own e mem own
        obtain ⟨e', mem', sameId', isOwn', sameVisibility'⟩ :=
          own_kept gently wf fresh inside isOwn
        exact ⟨e', mem', sameId'.trans sameId, isOwn', sameVisibility'.trans sameVisibility⟩
      · rcases (Op.mem_run_entities wf).mp mem' with ⟨old, inside, kept⟩ | new
        · obtain ⟨sameId, sameOwner⟩ := sound.entity old e' kept
          exact sameOwner.trans (ih.owner e mem old inside (sameId.symm.trans same))
        · exact (newEntity_fresh fresh₀ new e mem same).elim
      · rcases (Op.mem_run_relationships wf).mp mem' with ⟨old, inside, kept⟩ | new
        · have kept := sound.edge old r' kept
          exact (ih.edge r mem old inside (kept.1.symm.trans same)).trans kept
        · exact (newEdge_fresh fresh₀ new r mem same).elim

namespace Stays

theorem owns_iff (stays : Stays g₀ u g) (has : g₀.Has x) : g.Owns u x ↔ g₀.Owns u x := by
  constructor
  · intro ⟨e', mem', isX, own⟩
    obtain ⟨e, mem, rfl⟩ := has
    exact ⟨e, mem, rfl, (stays.owner e mem e' mem' isX).symm.trans own⟩
  · intro ⟨e, mem, isX, own⟩
    obtain ⟨e', mem', sameId, own', -⟩ := stays.own e mem own
    exact ⟨e', mem', sameId.trans isX, own'⟩

/-- What the user owns is as public as it was. -/
theorem public_iff (stays : Stays g₀ u g) (wf : g₀.Wf) (own : g₀.Owns u x) :
    g.Public x ↔ g₀.Public x := by
  obtain ⟨e, mem, rfl, mine⟩ := own
  obtain ⟨e', mem', sameId, -, sameVisibility⟩ := stays.own e mem mine
  constructor
  · intro ⟨a, inside, isX, isPublic⟩
    rw [stays.inv.wf.eq_of_id inside mem' (isX.trans sameId.symm), sameVisibility] at isPublic
    exact ⟨e, mem, rfl, isPublic⟩
  · intro ⟨a, inside, isX, isPublic⟩
    rw [wf.eq_of_id inside mem isX] at isPublic
    exact ⟨e', mem', sameId, sameVisibility.trans isPublic⟩

/-- Somebody else's entity is seen as long as it is public. -/
theorem sees_iff (stays : Stays g₀ u g) (has : g₀.Has x) (foreign : ¬g₀.Owns u x) :
    g.Sees u x ↔ g.Public x := by
  constructor
  · intro ⟨e, mem, isX, visible⟩
    refine ⟨e, mem, isX, visible.resolve_right fun own => foreign ?_⟩
    exact (stays.owns_iff has).mp ⟨e, mem, isX, own⟩
  · intro ⟨e, mem, isX, isPublic⟩
    exact ⟨e, mem, isX, .inl isPublic⟩

theorem detachable_iff (stays : Stays g₀ u g) (wf : g₀.Wf) {r r' : RelatedTo}
    (mem : r ∈ g₀.relationships) (same : r.Same r') : r'.Detachable g u ↔ r.Detachable g₀ u := by
  obtain ⟨hasFrom, hasTo⟩ := wf.endpoints r mem
  obtain ⟨-, sameOwner, sameFrom, sameTo, -⟩ := same
  rw [RelatedTo.Detachable, RelatedTo.Detachable, sameOwner, sameFrom, sameTo,
    stays.owns_iff hasFrom, stays.owns_iff hasTo]

end Stays

end Stays

/-! ## What the page knows -/

section Page

variable {g₀ g : Graph} {u x : UUID} {page : GraphPage} {clock : Clock}

/-- The page was rendered from this graph. -/
structure GraphPage.Renders (page : GraphPage) (g₀ : Graph) (u : UUID) : Prop where
  user : page.userId = u
  entities : page.entities = (Service.listGraph g₀ u).entities
  relationships : page.relationships = (Service.listGraph g₀ u).relationships

namespace GraphPage.Renders

theorem mem_entities (renders : page.Renders g₀ u) {entity : Entity} :
    entity ∈ page.entities ↔ ∃ e ∈ g₀.entities, e.VisibleTo u ∧
      Service.entity e (Cypher.sourceUrls g₀ e.id) = entity := by
  rw [renders.entities, Service.mem_listGraph_entities]

theorem mem_relationships (renders : page.Renders g₀ u) {rel : Relationship} :
    rel ∈ page.relationships ↔ rel ∈ g₀.relationships ∧
      (g₀.Sees u rel.fromId ∧ g₀.Sees u rel.toId) ∧ rel.VisibleTo u := by
  rw [renders.relationships, Service.mem_listGraph_relationships]

theorem ids_nodup (renders : page.Renders g₀ u) (wf : g₀.Wf) :
    (page.entities.map (·.id)).Nodup := by
  rw [renders.entities, Service.listGraph, Cypher.listVisibleEntities, List.map_map, List.map_map]
  show (List.map EntityNode.id _).Nodup
  refine ((List.perm_insertionSort _ _).map EntityNode.id).nodup_iff.mpr ?_
  exact (List.filter_sublist.map EntityNode.id).nodup wf.entityIds

theorem sees_iff (renders : page.Renders g₀ u) :
    x ∈ page.entities.map (·.id) ↔ g₀.Sees u x := by
  rw [List.mem_map]
  constructor
  · intro ⟨entity, mem, isX⟩
    obtain ⟨e, inside, visible, rfl⟩ := renders.mem_entities.mp mem
    exact ⟨e, inside, isX, visible⟩
  · intro ⟨e, inside, isX, visible⟩
    exact ⟨_, renders.mem_entities.mpr ⟨e, inside, visible, rfl⟩, isX⟩

theorem owns_iff (renders : page.Renders g₀ u) : x ∈ page.ownedEntityIds ↔ g₀.Owns u x := by
  simp only [GraphPage.ownedEntityIds, List.mem_map, List.mem_filter, decide_eq_true_eq,
    renders.user]
  constructor
  · intro ⟨entity, ⟨mem, own⟩, isX⟩
    obtain ⟨e, inside, visible, rfl⟩ := renders.mem_entities.mp mem
    exact ⟨e, inside, isX, own⟩
  · intro ⟨e, inside, isX, own⟩
    exact ⟨_, ⟨renders.mem_entities.mpr ⟨e, inside, .inr own, rfl⟩, own⟩, isX⟩

theorem canDelete_iff (renders : page.Renders g₀ u) {rel : Relationship} :
    page.canDeleteRelationship rel = true ↔ rel.Detachable g₀ u := by
  rw [GraphPage.canDeleteRelationship, decide_eq_true_eq, renders.user, renders.owns_iff,
    renders.owns_iff, RelatedTo.Detachable]

/-- An entity of the page is found under its id. -/
theorem entityById_eq (renders : page.Renders g₀ u) (wf : g₀.Wf) {entity : Entity}
    (mem : entity ∈ page.entities) : page.entityById entity.id = some entity := by
  have inside : entity ∈ page.entities.reverse := List.mem_reverse.mpr mem
  cases found : page.entityById entity.id with
  | none =>
      have missed := List.find?_eq_none.mp found entity inside
      exact (missed (decide_eq_true rfl)).elim
  | some other =>
      have mem' := List.mem_reverse.mp (List.mem_of_find?_eq_some found)
      have same := List.find?_some found
      rw [List.inj_on_of_nodup_map (renders.ids_nodup wf) mem' mem (of_decide_eq_true same)]

theorem public_iff (renders : page.Renders g₀ u) (wf : g₀.Wf) :
    (page.entityById x).map (·.visibility) = some .pub ↔ g₀.Public x := by
  constructor
  · intro isPublic
    obtain ⟨entity, found, visibility⟩ := Option.map_eq_some_iff.mp isPublic
    have mem := List.mem_reverse.mp (List.mem_of_find?_eq_some found)
    have isX := List.find?_some found
    obtain ⟨e, inside, -, rfl⟩ := renders.mem_entities.mp mem
    exact ⟨e, inside, of_decide_eq_true isX, visibility⟩
  · intro ⟨e, inside, isX, visibility⟩
    have mem := renders.mem_entities.mpr ⟨e, inside, .inl visibility, rfl⟩
    have found := renders.entityById_eq wf mem
    rw [← isX]
    exact Option.map_eq_some_iff.mpr ⟨_, found, visibility⟩

theorem relCanBePublic_iff (renders : page.Renders g₀ u) (wf : g₀.Wf) {fromId toId : UUID} :
    page.relCanBePublic fromId toId = true ↔ g₀.Public fromId ∧ g₀.Public toId := by
  rw [GraphPage.relCanBePublic, decide_eq_true_eq, renders.public_iff wf, renders.public_iff wf]

end GraphPage.Renders

end Page

/-! ## The answers -/

/-- The answer to a request for a relationship that was created. -/
def Linked : Answer → Prop
  | .relationship _ => True
  | _ => False

def entityNotFound : Answer := .error ⟨404, "Entity not found"⟩

def relationshipNotFound : Answer := .error ⟨404, "Relationship not found"⟩

/-- How the service answers what the page sends. -/
structure GraphPage.Told (page : GraphPage) (g : Graph) (clock : Clock) : Prop where
  /-- The buttons of an own entity work. -/
  deletes : ∀ entity ∈ page.entities, entity.ownerId = page.userId →
    ((Op.deleteEntity entity.id).run g clock page.userId).2 = .done
  /-- A switch or a tap turns the visibility that is shown. -/
  toggles : ∀ entity ∈ page.entities, entity.ownerId = page.userId → ∀ cascadeOverride,
    ∃ result, ((page.toggleVisibility entity cascadeOverride).run g clock page.userId).2 =
        .affected result ∧ entity.id ∈ result.affectedIds ∧
      ∃ e ∈ ((page.toggleVisibility entity cascadeOverride).run g clock page.userId).1.entities,
        e.id = entity.id ∧ e.visibility ≠ entity.visibility
  /-- The entities without buttons are refused. -/
  foreign : ∀ entity ∈ page.entities, entity.ownerId ≠ page.userId →
    ((Op.deleteEntity entity.id).run g clock page.userId).2 = entityNotFound ∧
      ∀ change, ((Op.changeVisibility entity.id change).run g clock page.userId).2 = entityNotFound
  /-- A relationship is deleted if it has the button, and is still there. -/
  detaches : ∀ rel ∈ page.relationships,
    ((Op.deleteRelationship rel.id).run g clock page.userId).2 =
      if page.canDeleteRelationship rel ∧ ∃ r ∈ g.relationships, r.id = rel.id then .done
      else relationshipNotFound
  /-- Two own entities can be linked. -/
  linksOwn : ∀ id values, values.fromId ∈ page.ownedEntityIds →
    values.toId ∈ page.ownedEntityIds →
      Linked ((page.onCreateRelationship id values).run g clock page.userId).2
  /-- An own one can be linked to somebody else's as long as that is public. -/
  links : ∀ id values x, x ∈ page.entities.map (·.id) → x ∉ page.ownedEntityIds →
    values.fromId ∈ page.ownedEntityIds ∧ values.toId = x ∨
      values.toId ∈ page.ownedEntityIds ∧ values.fromId = x →
    (Linked ((page.onCreateRelationship id values).run g clock page.userId).2 ↔ g.Public x)
  /-- Two of somebody else's cannot, though the form offers them. -/
  linksForeign : ∀ id values, values.fromId ∈ page.entities.map (·.id) →
    values.fromId ∉ page.ownedEntityIds → values.toId ∈ page.entities.map (·.id) →
      values.toId ∉ page.ownedEntityIds →
    ((page.onCreateRelationship id values).run g clock page.userId).2 =
      .error ⟨404, Service.endpointsNotLinkable⟩

/-- Nothing of the view is missing from the diagram and the tables. -/
structure GraphPage.Complete (page : GraphPage) : Prop where
  nodes : page.elements.1.map (·.id) = page.entities.map (·.id)
  edges : page.elements.2.map (·.id) = page.relationships.map (·.id)
  named : ∀ rel ∈ page.relationships, ∀ x, x = rel.fromId ∨ x = rel.toId →
    ∃ entity ∈ page.entities, entity.id = x ∧ page.endName x = .inl entity.name
  /-- A tap on a node is the switch of its entity, if it is the user's own. -/
  taps : ∀ entity ∈ page.entities, ∀ node ∈ page.elements.1, node.id = entity.id →
    ∀ shiftKey, page.tap node shiftKey =
      if entity.ownerId = page.userId then some (page.toggleVisibility entity (some shiftKey))
      else none

section Answers

variable {g₀ g : Graph} {u : UUID} {page : GraphPage} {clock : Clock} {id : UUID}
  {data : RelationshipInput}

theorem linked_iff (wf : g.Wf) :
    Linked ((Op.createRelationship id data).run g clock u).2 ↔
      g.Linkable u data.fromId data.toId data.visibility := by
  simp only [Op.run, Op.createRelationship_eq wf, Op.change]
  by_cases linkable : g.Linkable u data.fromId data.toId data.visibility
  · rw [if_pos linkable]
    exact iff_of_true trivial linkable
  · rw [if_neg linkable]
    exact iff_of_false not_false linkable

theorem unlinkable_answer (wf : g.Wf) (unlinkable : ¬g.Linkable u data.fromId data.toId .priv) :
    ((Op.createRelationship id data).run g clock u).2 =
      .error ⟨404, Service.endpointsNotLinkable⟩ := by
  have none := (Cypher.relationshipEndpoints_eq_nil_iff wf).mpr unlinkable
  have never : ¬g.Linkable u data.fromId data.toId data.visibility :=
    fun linkable => unlinkable ⟨linkable.1, linkable.2.1, .inl rfl⟩
  simp only [Op.run, Op.createRelationship_eq wf, Op.change, if_neg never]
  rw [Service.rejectRelationship, none]
  rfl

theorem deleteEntity_answer :
    ((Op.deleteEntity id).run g clock u).2 =
      if g.Owns u id then .done else entityNotFound := by
  simp only [Op.run, Op.deleteEntity_eq]
  split <;> rfl

theorem deleteRelationship_answer (wf : g.Wf) :
    ((Op.deleteRelationship id).run g clock u).2 =
      if ∃ r ∈ g.relationships, r.id = id ∧ r.Detachable g u then .done
      else relationshipNotFound := by
  simp only [Op.run, Op.deleteRelationship_eq wf.endpoints]
  split <;> rfl

theorem changeVisibility_answer (clock : Clock) (change : VisibilityChange) (wf : g.Wf)
    {e : EntityNode} (mem : e ∈ g.entities) (own : e.ownerId = u)
    (other : e.visibility ≠ change.visibility) :
    ∃ result, ((Op.changeVisibility e.id change).run g clock u).2 = .affected result ∧
      e.id ∈ result.affectedIds ∧
      ∃ e' ∈ ((Op.changeVisibility e.id change).run g clock u).1.entities,
        e'.id = e.id ∧ e'.visibility = change.visibility := by
  have done := Service.changeVisibility_eq clock change wf ⟨e, mem, rfl, own⟩
  have inScope : e.id ∈ Service.scope g u e.id change.cascade := Service.mem_scope_self wf
  refine ⟨⟨Service.flipped g (Service.scope g u e.id change.cascade) u change.visibility⟩,
    ?_, ?_, ?_⟩
  · rw [Op.run, done]
    rfl
  · exact Service.mem_flipped.mpr ⟨e, mem, ⟨inScope, own, other⟩, rfl⟩
  · refine ⟨e.flip (clock 0) (Service.scope g u e.id change.cascade) u change.visibility, ?_,
      EntityNode.flip_id, EntityNode.flip_visibility inScope own⟩
    rw [Op.run, done]
    exact List.mem_map_of_mem mem

/-- The diagram and the tables show all that the page was given. -/
theorem GraphPage.Renders.complete (renders : page.Renders g₀ u) (wf : g₀.Wf) : page.Complete := by
  have ends : ∀ rel ∈ page.relationships, rel.fromId ∈ page.entities.map (·.id) ∧
      rel.toId ∈ page.entities.map (·.id) := by
    intro rel mem
    obtain ⟨-, ⟨seesFrom, seesTo⟩, -⟩ := renders.mem_relationships.mp mem
    exact ⟨renders.sees_iff.mpr seesFrom, renders.sees_iff.mpr seesTo⟩
  refine ⟨?_, ?_, ?_, ?_⟩
  · rw [GraphPage.elements, toElements, List.map_map]
    rfl
  · rw [GraphPage.elements, toElements, List.map_map]
    rw [List.filter_eq_self.mpr fun rel mem => decide_eq_true (ends rel mem)]
    rfl
  · intro rel mem x isEnd
    have shown : x ∈ page.entities.map (·.id) := by
      rcases isEnd with rfl | rfl
      · exact (ends rel mem).1
      · exact (ends rel mem).2
    obtain ⟨entity, inside, rfl⟩ := List.mem_map.mp shown
    refine ⟨entity, inside, rfl, ?_⟩
    rw [GraphPage.endName, GraphPage.nameById, renders.entityById_eq wf inside]
    rfl
  · intro entity mem node inside same shiftKey
    obtain ⟨source, mem', rfl⟩ := List.mem_map.mp inside
    have found : (page.entities.find? fun candidate => candidate.id = source.id) =
        some entity := by
      cases found : page.entities.find? fun candidate => candidate.id = source.id with
      | none =>
          have missed := List.find?_eq_none.mp found entity mem
          exact (missed (decide_eq_true same.symm)).elim
      | some other =>
          have isId := List.find?_some found
          rw [List.inj_on_of_nodup_map (renders.ids_nodup wf) (List.mem_of_find?_eq_some found) mem
            ((of_decide_eq_true isId).trans same)]
    have isEntity : source = entity :=
      List.inj_on_of_nodup_map (renders.ids_nodup wf) mem' mem same
    rw [GraphPage.tap, found, isEntity]
    simp only [decide_eq_true_eq, Option.map_some]

/-! ## Any time later -/

section Later

variable (renders : page.Renders g₀ u) (stays : Stays g₀ u g)

include renders stays

theorem shown_owns (wf : g₀.Wf) {entity : Entity} (mem : entity ∈ page.entities) :
    g.Owns u entity.id ↔ entity.ownerId = u := by
  obtain ⟨e, inside, -, rfl⟩ := renders.mem_entities.mp mem
  refine (stays.owns_iff ⟨e, inside, rfl⟩).trans ?_
  constructor
  · intro ⟨a, inside', same, own⟩
    rw [wf.eq_of_id inside' inside same] at own
    exact own
  · exact fun own => ⟨e, inside, rfl, own⟩

theorem toggle_answer {entity : Entity} (mem : entity ∈ page.entities) (own : entity.ownerId = u)
    (cascadeOverride : Option Bool) :
    ∃ result, ((page.toggleVisibility entity cascadeOverride).run g clock u).2 =
        .affected result ∧ entity.id ∈ result.affectedIds ∧
      ∃ e ∈ ((page.toggleVisibility entity cascadeOverride).run g clock u).1.entities,
        e.id = entity.id ∧ e.visibility ≠ entity.visibility := by
  obtain ⟨e, inside, -, rfl⟩ := renders.mem_entities.mp mem
  obtain ⟨e', inside', sameId, own', sameVisibility⟩ := stays.own e inside own
  have turned : (if e.visibility = .pub then Visibility.priv else .pub) ≠ e.visibility := by
    cases e.visibility <;> decide
  have answer := changeVisibility_answer clock ⟨if e.visibility = .pub then .priv else .pub,
    cascadeOverride.getD (page.cascade e.id)⟩ stays.inv.wf inside' own'
    (sameVisibility ▸ turned.symm)
  rw [sameId] at answer
  obtain ⟨result, affected, listed, last, mem', isLast, visibility⟩ := answer
  refine ⟨result, affected, listed, last, mem', isLast, ?_⟩
  rw [visibility]
  exact turned

theorem detach_answer (wf : g₀.Wf) {rel : Relationship} (mem : rel ∈ page.relationships) :
    ((Op.deleteRelationship rel.id).run g clock u).2 =
      if page.canDeleteRelationship rel ∧ ∃ r ∈ g.relationships, r.id = rel.id then .done
      else relationshipNotFound := by
  have inside := (renders.mem_relationships.mp mem).1
  have same : (∃ r ∈ g.relationships, r.id = rel.id ∧ r.Detachable g u) ↔
      page.canDeleteRelationship rel ∧ ∃ r ∈ g.relationships, r.id = rel.id := by
    rw [renders.canDelete_iff]
    have alike : ∀ r ∈ g.relationships, r.id = rel.id →
        (r.Detachable g u ↔ rel.Detachable g₀ u) := fun r mem' isRel =>
      stays.detachable_iff wf inside (stays.edge rel inside r mem' isRel)
    constructor
    · intro ⟨r, mem', isRel, detachable⟩
      exact ⟨(alike r mem' isRel).mp detachable, r, mem', isRel⟩
    · intro ⟨detachable, r, mem', isRel⟩
      exact ⟨r, mem', isRel, (alike r mem' isRel).mpr detachable⟩
  rw [deleteRelationship_answer stays.inv.wf]
  simp only [same]

/-- An own entity that the page shows is the user's still. -/
theorem owned_later {x : UUID} (owned : x ∈ page.ownedEntityIds) : g.Owns u x := by
  have before := renders.owns_iff.mp owned
  exact (stays.owns_iff before.has).mpr before

theorem linksOwn_answer (wf : g₀.Wf) {values : RelationshipInput}
    (ownFrom : values.fromId ∈ page.ownedEntityIds)
    (ownTo : values.toId ∈ page.ownedEntityIds) :
    Linked ((page.onCreateRelationship id values).run g clock u).2 := by
  have ownsFrom := owned_later renders stays ownFrom
  have ownsTo := owned_later renders stays ownTo
  refine (linked_iff stays.inv.wf).mpr ⟨⟨ownsFrom.sees, ownsTo.sees⟩, .inl ownsFrom, ?_⟩
  dsimp only
  split
  · rename_i bothPublic
    obtain ⟨publicFrom, publicTo⟩ := (renders.relCanBePublic_iff wf).mp bothPublic
    exact .inr ⟨(stays.public_iff wf (renders.owns_iff.mp ownFrom)).mpr publicFrom,
      (stays.public_iff wf (renders.owns_iff.mp ownTo)).mpr publicTo⟩
  · exact .inl rfl

/-- What the page shows and does not mark as the user's belongs to somebody else. -/
theorem foreign_later {x : UUID} (shown : x ∈ page.entities.map (·.id))
    (foreign : x ∉ page.ownedEntityIds) : ¬g.Owns u x ∧ (g.Sees u x ↔ g.Public x) := by
  obtain ⟨e, inside, rfl, -⟩ := renders.sees_iff.mp shown
  have before : ¬g₀.Owns u e.id := fun owns => foreign (renders.owns_iff.mpr owns)
  exact ⟨fun owns => before ((stays.owns_iff ⟨e, inside, rfl⟩).mp owns),
    stays.sees_iff ⟨e, inside, rfl⟩ before⟩

theorem linksForeign_answer {id : UUID} {values : RelationshipInput}
    (shownFrom : values.fromId ∈ page.entities.map (·.id))
    (foreignFrom : values.fromId ∉ page.ownedEntityIds)
    (shownTo : values.toId ∈ page.entities.map (·.id))
    (foreignTo : values.toId ∉ page.ownedEntityIds) :
    ((page.onCreateRelationship id values).run g clock u).2 =
      .error ⟨404, Service.endpointsNotLinkable⟩ := by
  apply unlinkable_answer stays.inv.wf
  intro linkable
  rcases linkable.2.1 with own | own
  · exact (foreign_later renders stays shownFrom foreignFrom).1 own
  · exact (foreign_later renders stays shownTo foreignTo).1 own

/-- An end of the user's and another one: the other one has to be public, and the own one
too if the form asks for a public relationship. -/
theorem links_answer (wf : g₀.Wf) {id : UUID} {values : RelationshipInput} {x : UUID}
    (shown : x ∈ page.entities.map (·.id)) (foreign : x ∉ page.ownedEntityIds)
    (ends : values.fromId ∈ page.ownedEntityIds ∧ values.toId = x ∨
      values.toId ∈ page.ownedEntityIds ∧ values.fromId = x) :
    Linked ((page.onCreateRelationship id values).run g clock u).2 ↔ g.Public x := by
  obtain ⟨-, seesIff⟩ := foreign_later renders stays shown foreign
  refine (linked_iff stays.inv.wf).trans ?_
  constructor
  · intro linkable
    rcases ends with ⟨-, rfl⟩ | ⟨-, rfl⟩
    · exact seesIff.mp linkable.1.2
    · exact seesIff.mp linkable.1.1
  · intro isPublic
    have asks : (if page.relCanBePublic values.fromId values.toId then values.visibility
        else Visibility.priv) = .priv ∨ g₀.Public values.fromId ∧ g₀.Public values.toId := by
      split
      · rename_i bothPublic
        exact .inr ((renders.relCanBePublic_iff wf).mp bothPublic)
      · exact .inl rfl
    rcases ends with ⟨own, rfl⟩ | ⟨own, rfl⟩
    · have owns := owned_later renders stays own
      have still := stays.public_iff wf (renders.owns_iff.mp own)
      exact ⟨⟨owns.sees, seesIff.mpr isPublic⟩, .inl owns,
        asks.imp_right fun both => ⟨still.mpr both.1, isPublic⟩⟩
    · have owns := owned_later renders stays own
      have still := stays.public_iff wf (renders.owns_iff.mp own)
      exact ⟨⟨seesIff.mpr isPublic, owns.sees⟩, .inr owns,
        asks.imp_right fun both => ⟨isPublic, still.mpr both.2⟩⟩

end Later

/-- **What an outdated page offers, the service grants**: whatever others and the user's own
runs have done since the page was rendered, each request of the page is answered as the page
suggests, but for what others have taken away and for a link between two of their entities. -/
theorem page_outdated (reachable : Reachable g₀) (renders : page.Renders g₀ u)
    (meanwhile : Meanwhile g₀ u g) (clock : Clock) : page.Complete ∧ page.Told g clock := by
  have wf := reachable.inv.wf
  have stays := meanwhile.stays reachable.inv
  obtain rfl := renders.user
  refine ⟨renders.complete wf, ?_⟩
  exact {
    deletes := fun entity mem own => by
      rw [deleteEntity_answer, if_pos ((shown_owns renders stays wf mem).mpr own)]
    toggles := fun entity mem own cascadeOverride =>
      toggle_answer renders stays mem own cascadeOverride
    foreign := fun entity mem foreign => by
      have none : ¬g.Owns page.userId entity.id :=
        fun owns => foreign ((shown_owns renders stays wf mem).mp owns)
      refine ⟨?_, fun change => ?_⟩
      · rw [deleteEntity_answer, if_neg none]
      · rw [Op.run, Service.changeVisibility_of_not_owns none]
        rfl
    detaches := fun rel mem => detach_answer renders stays wf mem
    linksOwn := fun id values ownFrom ownTo => linksOwn_answer renders stays wf ownFrom ownTo
    links := fun id values x shown foreign ends =>
      links_answer renders stays wf shown foreign ends
    linksForeign := fun id values shownFrom foreignFrom shownTo foreignTo =>
      linksForeign_answer renders stays shownFrom foreignFrom shownTo foreignTo }

/-- The second user deletes the note that cites the first user's. -/
theorem page_outdated_twoUsers :
    (GraphPage.render 1 (Service.listGraph .twoUsers 1)).Complete ∧
      (GraphPage.render 1 (Service.listGraph .twoUsers 1)).Told
        ((Op.deleteEntity 20).run .twoUsers (fun _ => 4) 2).1 (fun _ => 5) :=
  page_outdated reachable_twoUsers ⟨rfl, rfl, rfl⟩
    (.call (fun _ => 4) 2 (.deleteEntity 20) .start (.inl (by decide)) trivial trivial)
    (fun _ => 5)

end Answers

end Intellivault.Frontend
