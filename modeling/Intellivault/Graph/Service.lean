import Intellivault.Lib.Walk
import Intellivault.Graph.Cypher

/-!
# The graph service

The operations of `app/graph/service.py`.  Each takes the graph, the clock and the
caller's id and returns the graph after the call with the response or the HTTP error.
A clock is a function of the statement's position in the operation, since `datetime()`
is read anew by each statement.
-/

namespace Intellivault

open Lib

/-- The times the statements of one operation read, in order. -/
abbrev Clock := Nat → Time

namespace Service

def notFound : Nat := 404
def unprocessable : Nat := 422

def endpointsNotLinkable : String :=
  "Both entities must be visible to you and you must own at least one of them"

def publicEdgePrivateEndpoint : String :=
  "A public relationship needs both entities to be public"

/-- `_entity`. -/
def entity (e : EntityNode) (sources : List String) : Entity :=
  { id := e.id, ownerId := e.ownerId, visibility := e.visibility, name := e.name, kind := e.kind
    attributes := e.attributes, sources, createdAt := e.createdAt, updatedAt := e.updatedAt }

/-- `create_entity`.  The id is the fresh `uuid4()`. -/
def createEntity (g : Graph) (clock : Clock) (ownerId id : UUID) (data : EntityInput) :
    Graph × Entity :=
  let (g, e) := Cypher.createEntity g (clock 0) id ownerId data.visibility data.name.val
    data.kind.val (Json.sortKeysObj data.attributes)
  (g, entity e [])

/-- `attach_sources`. -/
def attachSources (g : Graph) (clock : Clock) (ownerId entityId : UUID) (urls : List String) :
    Graph :=
  if urls = [] then g else Cypher.attachSources g (clock 0) ownerId entityId urls

/-- `_reject_relationship`: why `create_relationship` produced no row. -/
def rejectRelationship (g : Graph) (ownerId : UUID) (data : RelationshipInput) : HTTPException :=
  match Cypher.relationshipEndpoints g data.fromId data.toId ownerId with
  | (a, b) :: _ =>
      if data.visibility = .pub ∧ (a.visibility ≠ .pub ∨ b.visibility ≠ .pub) then
        ⟨unprocessable, publicEdgePrivateEndpoint⟩
      else ⟨notFound, endpointsNotLinkable⟩
  | [] => ⟨notFound, endpointsNotLinkable⟩

/-- `create_relationship`.  The id is the fresh `uuid4()`. -/
def createRelationship (g : Graph) (clock : Clock) (ownerId id : UUID) (data : RelationshipInput) :
    Graph × Except HTTPException Relationship :=
  let (g', rows) := Cypher.createRelationship g (clock 0) id ownerId data.fromId data.toId
    data.kind.val data.visibility
  match rows with
  | r :: _ => (g', .ok r)
  | [] => (g', .error (rejectRelationship g' ownerId data))

/-- `delete_entity`. -/
def deleteEntity (g : Graph) (ownerId entityId : UUID) : Graph × Except HTTPException Unit :=
  let (g, rows) := Cypher.deleteEntity g entityId ownerId
  (g, if rows = [] then .error ⟨notFound, "Entity not found"⟩ else .ok ())

/-- `delete_relationship`. -/
def deleteRelationship (g : Graph) (ownerId relationshipId : UUID) :
    Graph × Except HTTPException Unit :=
  let (g, rows) := Cypher.deleteRelationship g relationshipId ownerId
  (g, if rows = [] then .error ⟨notFound, "Relationship not found"⟩ else .ok ())

/-- `set_entity_embedding`. -/
def setEntityEmbedding (g : Graph) (ownerId entityId : UUID) (embedding : Embedding) :
    Graph × Except HTTPException Unit :=
  let (g, rows) := Cypher.setEntityEmbedding g entityId ownerId embedding
  (g, if rows = [] then .error ⟨notFound, "Entity not found"⟩ else .ok ())

/-- `list_visible_relationships_among`. -/
def listVisibleRelationshipsAmong (g : Graph) (ownerId : UUID) (entityIds : List UUID) :
    List Relationship :=
  if entityIds = [] then [] else Cypher.listVisibleRelationshipsAmong g ownerId entityIds

/-- `list_graph`. -/
def listGraph (g : Graph) (ownerId : UUID) : GraphView :=
  { entities := (Cypher.listVisibleEntities g ownerId).map fun row => entity row.1 row.2
    relationships := Cypher.listVisibleRelationships g ownerId }

/-! ## `change_visibility` -/

/-- `_owned_component`: breadth-first over caller-owned nodes and edges.  The bound on
the rounds is never what ends the loop (`mem_ownedComponent`). -/
def ownedComponent (g : Graph) (ownerId startId : UUID) : List UUID :=
  walk (Cypher.ownedNeighbours g ownerId) (g.entities.length + 1) [startId] [startId]

/-- `_clean_incident_edges`. -/
def cleanIncidentEdges (g : Graph) (now : Time) (ownerId : UUID) (ids : List UUID) : Graph :=
  Cypher.removeForeignEdges (Cypher.demoteOwnedEdges g now ids ownerId) ids ownerId

/-- `_sync_sources`. -/
def syncSources (g : Graph) (ownerId : UUID) (ids : List UUID) : Graph :=
  if ids = [] then g else Cypher.syncEntitySources g ids ownerId

/-- `_single_visibility_tx`. -/
def singleVisibilityTx (g : Graph) (clock : Clock) (ownerId entityId : UUID)
    (visibility : Visibility) : Graph × Except HTTPException VisibilityChangeResult :=
  let (g₁, rows) := Cypher.setEntityVisibility g (clock 0) entityId ownerId visibility
  match rows with
  | [] => (g, .error ⟨notFound, "Entity not found"⟩)
  | (id, changed) :: _ =>
      let g₂ := if changed then syncSources g₁ ownerId [entityId] else g₁
      let g₃ :=
        if visibility = .priv then cleanIncidentEdges g₂ (clock 1) ownerId [entityId] else g₂
      (g₃, .ok ⟨if changed then [id] else []⟩)

/-- `_cascade_tx`. -/
def cascadeTx (g : Graph) (clock : Clock) (ownerId entityId : UUID) (visibility : Visibility) :
    Graph × Except HTTPException VisibilityChangeResult :=
  if Cypher.ownedEntityExists g entityId ownerId = [] then
    (g, .error ⟨notFound, "Entity not found"⟩)
  else
    let ids := ownedComponent g ownerId entityId
    let (g₁, changed) := Cypher.flipEntities g (clock 0) ids ownerId visibility
    let g₂ := Cypher.flipRelationships g₁ (clock 1) ids ownerId visibility
    let g₃ := syncSources g₂ ownerId changed
    let g₄ := if visibility = .priv then cleanIncidentEdges g₃ (clock 2) ownerId ids else g₃
    (g₄, .ok ⟨changed⟩)

/-- `change_visibility`: one transaction, single or cascading. -/
def changeVisibility (g : Graph) (clock : Clock) (ownerId entityId : UUID)
    (change : VisibilityChange) : Graph × Except HTTPException VisibilityChangeResult :=
  if change.cascade then cascadeTx g clock ownerId entityId change.visibility
  else singleVisibilityTx g clock ownerId entityId change.visibility

end Service

end Intellivault
