import Intellivault.Graph.Ops

/-!
# The graph page

`src/app/graph/graph-view.tsx` and `graph-diagram.tsx` of the frontend: what the page makes of
the view it was rendered with, and the requests that its buttons, switches, nodes and forms
send.
-/

namespace Intellivault.Frontend

/-! ## `GraphView` -/

/-- The props and the state of the component. -/
structure GraphPage where
  /-- `user.id` -/
  userId : UUID
  entities : List Entity
  relationships : List Relationship
  /-- The checked "cascade to connected" boxes. -/
  cascade : UUID → Bool := fun _ => false

/-- The page as it is rendered for the user. -/
def GraphPage.render (userId : UUID) (initial : GraphView) : GraphPage where
  userId := userId
  entities := initial.entities
  relationships := initial.relationships

namespace GraphPage

variable (page : GraphPage)

/-- `entityById.get(id)`: of several entries with one key, a `Map` keeps the last. -/
def entityById (id : UUID) : Option Entity :=
  page.entities.reverse.find? fun entity => entity.id = id

/-- `nameById.get(id)` -/
def nameById (id : UUID) : Option String := (page.entityById id).map (·.name)

def relCanBePublic (fromId toId : UUID) : Bool :=
  (page.entityById fromId).map (·.visibility) = some .pub ∧
    (page.entityById toId).map (·.visibility) = some .pub

def ownedEntityIds : List UUID :=
  (page.entities.filter fun e => e.ownerId = page.userId).map (·.id)

def canDeleteRelationship (rel : Relationship) : Bool :=
  rel.ownerId = page.userId ∨ rel.fromId ∈ page.ownedEntityIds ∨ rel.toId ∈ page.ownedEntityIds

def toggleVisibility (entity : Entity) (cascadeOverride : Option Bool) : Op :=
  let next : Visibility := if entity.visibility = .pub then .priv else .pub
  .changeVisibility entity.id
    { visibility := next, cascade := cascadeOverride.getD (page.cascade entity.id) }

/-- The id is the one the service will draw. -/
def onCreateRelationship (id : UUID) (values : RelationshipInput) : Op :=
  let visibility := if page.relCanBePublic values.fromId values.toId then values.visibility
    else .priv
  .createRelationship id { values with visibility }

/-- The end of a relationship, as the table shows it; an id stands for an unknown name. -/
def endName (id : UUID) : String ⊕ UUID :=
  match page.nameById id with
  | some name => .inl name
  | none => .inr id

end GraphPage

/-! ## `GraphDiagram` -/

/-- The data of a node of the diagram. -/
structure Node where
  id : UUID
  label : String
  visibility : Visibility
  mine : Bool

/-- The data of an edge of the diagram. -/
structure Edge where
  id : UUID
  source : UUID
  target : UUID
  label : String
  visibility : Visibility

def toElements (entities : List Entity) (relationships : List Relationship) (ownerId : UUID) :
    List Node × List Edge :=
  let present := entities.map (·.id)
  let nodes := entities.map fun entity =>
    { id := entity.id, label := entity.name, visibility := entity.visibility
      mine := entity.ownerId = ownerId }
  let edges := (relationships.filter fun rel => rel.fromId ∈ present ∧ rel.toId ∈ present).map
    fun rel => { id := rel.id, source := rel.fromId, target := rel.toId, label := rel.kind
                 visibility := rel.visibility }
  (nodes, edges)

namespace GraphPage

variable (page : GraphPage)

def elements : List Node × List Edge :=
  toElements page.entities page.relationships page.userId

/-- A tap on a node of the diagram. -/
def tap (target : Node) (shiftKey : Bool) : Option Op :=
  if target.mine then
    (page.entities.find? fun candidate => candidate.id = target.id).map fun entity =>
      page.toggleVisibility entity (some shiftKey)
  else none

end GraphPage

end Intellivault.Frontend
