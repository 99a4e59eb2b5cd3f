import Mathlib.Logic.Relation
import Intellivault.Graph.Service

/-!
# Service calls as steps on the graph

Every call of the service by one user, as one atomic step.  A call that creates
something carries the id it draws; `Op.Fresh` says that the id is not in use.
`Reachable` is what any number of users can make of the empty graph.
-/

namespace Intellivault

/-- A service call that may write. -/
inductive Op where
  | createEntity (id : UUID) (data : EntityInput)
  | createRelationship (id : UUID) (data : RelationshipInput)
  | changeVisibility (entityId : UUID) (change : VisibilityChange)
  | deleteEntity (entityId : UUID)
  | deleteRelationship (relationshipId : UUID)
  | attachSources (entityId : UUID) (urls : List String)
  | setEntityEmbedding (entityId : UUID) (embedding : Embedding)
deriving DecidableEq

/-- A service call that only reads. -/
inductive Query where
  | listGraph
  | listVisibleRelationshipsAmong (entityIds : List UUID)
deriving DecidableEq

/-- What the caller gets back. -/
inductive Answer where
  | entity (e : Entity)
  | relationship (r : Relationship)
  | affected (result : VisibilityChangeResult)
  | done
  | graph (view : GraphView)
  | relationships (rs : List Relationship)
  | error (x : HTTPException)
deriving DecidableEq

/-- The answer of a call that returns or raises. -/
def Answer.of {α : Type} (answer : α → Answer) : Except HTTPException α → Answer
  | .ok a => answer a
  | .error x => .error x

def Op.run (g : Graph) (clock : Clock) (u : UUID) : Op → Graph × Answer
  | .createEntity id data =>
      let (g, e) := Service.createEntity g clock u id data
      (g, .entity e)
  | .createRelationship id data =>
      let (g, r) := Service.createRelationship g clock u id data
      (g, .of .relationship r)
  | .changeVisibility entityId change =>
      let (g, r) := Service.changeVisibility g clock u entityId change
      (g, .of .affected r)
  | .deleteEntity entityId =>
      let (g, r) := Service.deleteEntity g u entityId
      (g, .of (fun _ => .done) r)
  | .deleteRelationship relationshipId =>
      let (g, r) := Service.deleteRelationship g u relationshipId
      (g, .of (fun _ => .done) r)
  | .attachSources entityId urls => (Service.attachSources g clock u entityId urls, .done)
  | .setEntityEmbedding entityId embedding =>
      let (g, r) := Service.setEntityEmbedding g u entityId embedding
      (g, .of (fun _ => .done) r)

def Query.run (g : Graph) (u : UUID) : Query → Answer
  | .listGraph => .graph (Service.listGraph g u)
  | .listVisibleRelationshipsAmong entityIds =>
      .relationships (Service.listVisibleRelationshipsAmong g u entityIds)

/-- The id a creating call draws is not in use. -/
def Op.Fresh (g : Graph) : Op → Prop
  | .createEntity id _ => ∀ e ∈ g.entities, e.id ≠ id
  | .createRelationship id _ => ∀ r ∈ g.relationships, r.id ≠ id
  | _ => True

instance (g : Graph) : (op : Op) → Decidable (op.Fresh g)
  | .createEntity id _ => inferInstanceAs (Decidable (∀ e ∈ g.entities, e.id ≠ id))
  | .createRelationship id _ => inferInstanceAs (Decidable (∀ r ∈ g.relationships, r.id ≠ id))
  | .changeVisibility _ _ | .deleteEntity _ | .deleteRelationship _ | .attachSources _ _
  | .setEntityEmbedding _ _ => inferInstanceAs (Decidable True)

/-- One call by some user at some time. -/
inductive Step : Graph → Graph → Prop
  | call {g : Graph} (clock : Clock) (u : UUID) (op : Op) (fresh : op.Fresh g) :
      Step g (op.run g clock u).1

/-- The graphs any sequence of calls by any users leads to. -/
def Reachable (g : Graph) : Prop := Relation.ReflTransGen Step Graph.empty g

theorem Reachable.empty : Reachable Graph.empty := .refl

theorem Reachable.call {g : Graph} (h : Reachable g) (clock : Clock) (u : UUID) (op : Op)
    (fresh : op.Fresh g) : Reachable (op.run g clock u).1 :=
  h.tail (.call clock u op fresh)

/-! ## A graph of two users -/

/-- A public note. -/
def publicNote : EntityInput :=
  { name := ⟨"note", by decide⟩, kind := .of "text" (Eq.refl true), visibility := .pub }

/-- A public edge from the second user's note to the first user's. -/
def citesNote : RelationshipInput :=
  { fromId := 20, toId := 10, kind := .of "cites" (Eq.refl true), visibility := .pub }

/-- The users 1 and 2 each publish a note, and user 2 links the two. -/
def Graph.twoUsers : Graph :=
  let g := (Op.run .empty (fun _ => 1) 1 (.createEntity 10 publicNote)).1
  let g := (Op.run g (fun _ => 2) 2 (.createEntity 20 publicNote)).1
  (Op.run g (fun _ => 3) 2 (.createRelationship 30 citesNote)).1

theorem reachable_twoUsers : Reachable .twoUsers := by
  have first := Reachable.empty.call (fun _ => 1) 1 (.createEntity 10 publicNote) (by decide)
  have second := first.call (fun _ => 2) 2 (.createEntity 20 publicNote) (by decide)
  exact second.call (fun _ => 3) 2 (.createRelationship 30 citesNote) (by decide)

end Intellivault
