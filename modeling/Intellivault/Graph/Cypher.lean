import Mathlib.Data.List.Sort
import Mathlib.Data.List.Dedup
import Intellivault.Graph.Model

/-!
# The Cypher statements

One definition for each file of `app/graph/cypher/`, under the file's name.  A statement
that writes returns the graph after it together with the rows it returns; a statement
that only reads returns its rows.

A `MATCH` of a node pattern is a filter of the stored nodes, and a condition on the two
ends of a relationship pattern asks for a pair of nodes the edge links or joins.
`Intellivault/Graph/Statements.lean` restates these conditions in terms of the
edge's own endpoint ids, for a well-formed graph.
-/

namespace Intellivault.Cypher

/-- The nodes matching `(e:Entity {id: $id, owner_id: $owner_id})`. -/
def matchOwned (g : Graph) (id ownerId : UUID) : List EntityNode :=
  g.entities.filter fun e => e.id = id ∧ e.ownerId = ownerId

/-- The nodes matching `(e:Entity {id: $id})` that are visible to the caller. -/
def matchVisible (g : Graph) (id ownerId : UUID) : List EntityNode :=
  g.entities.filter fun e => e.id = id ∧ e.VisibleTo ownerId

/-- `collect(DISTINCT s.url)` over `(e)-[:SOURCED_FROM]->(s:Source)`. -/
def sourceUrls (g : Graph) (id : UUID) : List String :=
  ((g.sourcedFrom.filter fun r => r.entityId = id).map (·.url)).dedup

/-! ## Entities and their sources -/

/-- `create_entity.cypher` -/
def createEntity (g : Graph) (now : Time) (id ownerId : UUID) (visibility : Visibility)
    (name kind : String) (attributes : Attributes) : Graph × EntityNode :=
  let e : EntityNode :=
    { id, ownerId, visibility, name, kind, attributes
      embedding := none, createdAt := now, updatedAt := now }
  ({ g with entities := g.entities ++ [e] }, e)

/-- `MERGE (s:Source {url: url}) ON CREATE SET s.fetched_at = datetime()` -/
def mergeSource (now : Time) (g : Graph) (url : String) : Graph :=
  if ∃ s ∈ g.sources, s.url = url then g
  else { g with sources := g.sources ++ [⟨url, now⟩] }

/-- `MERGE (e)-[r:SOURCED_FROM]->(s) SET r.visibility = e.visibility` -/
def mergeSourcedFrom (e : EntityNode) (g : Graph) (url : String) : Graph :=
  if ∃ r ∈ g.sourcedFrom, r.entityId = e.id ∧ r.url = url then
    { g with
      sourcedFrom := g.sourcedFrom.map fun r =>
        if r.entityId = e.id ∧ r.url = url then { r with visibility := e.visibility } else r }
  else { g with sourcedFrom := g.sourcedFrom ++ [⟨e.id, url, e.visibility⟩] }

/-- `attach_sources.cypher` -/
def attachSources (g : Graph) (now : Time) (ownerId entityId : UUID) (urls : List String) :
    Graph :=
  (matchOwned g entityId ownerId).foldl
    (fun g e => urls.foldl (fun g url => mergeSourcedFrom e (mergeSource now g url) url) g) g

/-- `set_entity_embedding.cypher` -/
def setEntityEmbedding (g : Graph) (id ownerId : UUID) (embedding : Embedding) :
    Graph × List UUID :=
  ({ g with
      entities := g.entities.map fun e =>
        if e.id = id ∧ e.ownerId = ownerId then { e with embedding := some embedding } else e },
    (matchOwned g id ownerId).map (·.id))

/-- `delete_entity.cypher`: `DETACH DELETE` takes every edge of the node with it. -/
def deleteEntity (g : Graph) (id ownerId : UUID) : Graph × List UUID :=
  let gone := matchOwned g id ownerId
  ({ g with
      entities := g.entities.filter fun e => ¬(e.id = id ∧ e.ownerId = ownerId)
      relationships := g.relationships.filter fun r =>
        ¬∃ e ∈ gone, r.fromId = e.id ∨ r.toId = e.id
      sourcedFrom := g.sourcedFrom.filter fun r => ¬∃ e ∈ gone, r.entityId = e.id },
    gone.map (·.id))

/-! ## Relationships -/

/-- `relationship_endpoints.cypher`: the endpoint pairs the caller may link. -/
def relationshipEndpoints (g : Graph) (fromId toId ownerId : UUID) :
    List (EntityNode × EntityNode) :=
  ((matchVisible g fromId ownerId).product (matchVisible g toId ownerId)).filter fun p =>
    p.1.ownerId = ownerId ∨ p.2.ownerId = ownerId

/-- `create_relationship.cypher` -/
def createRelationship (g : Graph) (now : Time) (id ownerId fromId toId : UUID) (kind : String)
    (visibility : Visibility) : Graph × List RelatedTo :=
  let rows := (relationshipEndpoints g fromId toId ownerId).filter fun p =>
    visibility = .priv ∨ (p.1.visibility = .pub ∧ p.2.visibility = .pub)
  let created : List RelatedTo := rows.map fun p =>
    { id, ownerId, fromId := p.1.id, toId := p.2.id, kind, visibility
      createdAt := now, updatedAt := now }
  ({ g with relationships := g.relationships ++ created }, created)

/-- `delete_relationship.cypher` -/
def deleteRelationship (g : Graph) (id ownerId : UUID) : Graph × List UUID :=
  let gone (r : RelatedTo) : Prop :=
    r.id = id ∧ ∃ a ∈ g.entities, ∃ b ∈ g.entities, r.Joins a b ∧
      (r.ownerId = ownerId ∨ a.ownerId = ownerId ∨ b.ownerId = ownerId)
  let _ : DecidablePred gone := fun _ => inferInstanceAs (Decidable (_ ∧ _))
  ({ g with relationships := g.relationships.filter fun r => ¬gone r },
    (g.relationships.filter fun r => gone r).map (·.id))

/-! ## Visibility -/

/-- `set_entity_visibility.cypher` -/
def setEntityVisibility (g : Graph) (now : Time) (id ownerId : UUID) (visibility : Visibility) :
    Graph × List (UUID × Bool) :=
  ({ g with
      entities := g.entities.map fun e =>
        if (e.id = id ∧ e.ownerId = ownerId) ∧ e.visibility ≠ visibility then
          { e with visibility, updatedAt := now }
        else e },
    (matchOwned g id ownerId).map fun e => (e.id, decide (e.visibility ≠ visibility)))

/-- `owned_entity_exists.cypher` -/
def ownedEntityExists (g : Graph) (id ownerId : UUID) : List UUID :=
  (matchOwned g id ownerId).map (·.id)

/-- `owned_neighbours.cypher` -/
def ownedNeighbours (g : Graph) (ownerId : UUID) (ids : List UUID) : List UUID :=
  ((g.entities.filter fun b => b.ownerId = ownerId ∧
    ∃ r ∈ g.relationships, r.ownerId = ownerId ∧
      ∃ a ∈ g.entities, r.Joins a b ∧ a.id ∈ ids).map (·.id)).dedup

/-- `flip_entities.cypher` -/
def flipEntities (g : Graph) (now : Time) (ids : List UUID) (ownerId : UUID)
    (visibility : Visibility) : Graph × List UUID :=
  let flips (e : EntityNode) : Prop :=
    e.id ∈ ids ∧ e.ownerId = ownerId ∧ e.visibility ≠ visibility
  let _ : DecidablePred flips := fun _ => inferInstanceAs (Decidable (_ ∧ _))
  ({ g with
      entities := g.entities.map fun e =>
        if flips e then { e with visibility, updatedAt := now } else e },
    (g.entities.filter fun e => flips e).map (·.id))

/-- `flip_relationships.cypher` -/
def flipRelationships (g : Graph) (now : Time) (ids : List UUID) (ownerId : UUID)
    (visibility : Visibility) : Graph :=
  { g with
    relationships := g.relationships.map fun r =>
      if (r.ownerId = ownerId ∧ r.visibility ≠ visibility) ∧
          ∃ a ∈ g.entities, ∃ b ∈ g.entities, r.Joins a b ∧ a.id ∈ ids ∧ b.id ∈ ids then
        { r with visibility, updatedAt := now }
      else r }

/-- `demote_owned_edges.cypher` -/
def demoteOwnedEdges (g : Graph) (now : Time) (ids : List UUID) (ownerId : UUID) : Graph :=
  { g with
    relationships := g.relationships.map fun r =>
      if (r.ownerId = ownerId ∧ r.visibility = .pub) ∧
          ∃ e ∈ g.entities, ∃ b ∈ g.entities, r.Joins e b ∧ e.id ∈ ids then
        { r with visibility := .priv, updatedAt := now }
      else r }

/-- `remove_foreign_edges.cypher` -/
def removeForeignEdges (g : Graph) (ids : List UUID) (ownerId : UUID) : Graph :=
  { g with
    relationships := g.relationships.filter fun r =>
      ¬(r.ownerId ≠ ownerId ∧
        ∃ e ∈ g.entities, ∃ b ∈ g.entities, r.Joins e b ∧ e.id ∈ ids) }

/-- `sync_entity_sources.cypher` -/
def syncEntitySources (g : Graph) (ids : List UUID) (ownerId : UUID) : Graph :=
  { g with
    sourcedFrom := g.sourcedFrom.map fun r =>
      match g.entities.find? fun e => r.entityId = e.id ∧ e.id ∈ ids ∧ e.ownerId = ownerId with
      | some e => { r with visibility := e.visibility }
      | none => r }

/-! ## Reads -/

/-- `list_visible_entities.cypher` -/
def listVisibleEntities (g : Graph) (ownerId : UUID) : List (EntityNode × List String) :=
  ((g.entities.filter fun e => e.VisibleTo ownerId).insertionSort
      fun a b => a.createdAt ≤ b.createdAt).map fun e => (e, sourceUrls g e.id)

/-- `list_visible_relationships.cypher` -/
def listVisibleRelationships (g : Graph) (ownerId : UUID) : List RelatedTo :=
  (g.relationships.filter fun r =>
      (∃ a ∈ g.entities, ∃ b ∈ g.entities,
        r.Links a b ∧ a.VisibleTo ownerId ∧ b.VisibleTo ownerId) ∧
      r.VisibleTo ownerId).insertionSort fun a b => a.createdAt ≤ b.createdAt

/-- `list_visible_relationships_among.cypher` -/
def listVisibleRelationshipsAmong (g : Graph) (ownerId : UUID) (ids : List UUID) :
    List RelatedTo :=
  (g.relationships.filter fun r =>
      (∃ a ∈ g.entities, ∃ b ∈ g.entities,
        r.Links a b ∧ (a.id ∈ ids ∧ b.id ∈ ids) ∧ a.VisibleTo ownerId ∧ b.VisibleTo ownerId) ∧
      r.VisibleTo ownerId).insertionSort fun a b => a.createdAt ≤ b.createdAt

/-- `search_entities_by_vector.cypher`, over the nodes `db.index.vector.queryNodes` yields
with their scores. -/
def searchEntitiesByVector (g : Graph) (ownerId : UUID) (yielded : List (EntityNode × Rat)) :
    List (EntityNode × List String) :=
  ((yielded.filter fun p => p.1.VisibleTo ownerId).insertionSort
      fun a b => b.2 ≤ a.2).map fun p => (p.1, sourceUrls g p.1.id)

end Intellivault.Cypher
