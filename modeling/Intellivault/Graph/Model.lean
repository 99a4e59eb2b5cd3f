import Mathlib.Data.Rat.Defs
import Intellivault.Lib.Json

/-!
# The knowledge graph and its wire models

The property graph behind `app/graph/`: `:Entity` nodes, `RELATED_TO` edges, shared
`:Source` nodes and the `SOURCED_FROM` edges between them, and the request and
response models of `app/graph/schemas.py`.

* Ids and owners are UUIDs throughout; the service passes them as `str(uuid)`.
* `attributes` is persisted as `json.dumps(attributes, sort_keys=True)`; the model keeps
  the fields of the JSON object that text denotes, in that order.
* A `datetime()` is a natural number.
-/

namespace Intellivault

open Lib

abbrev UUID := BitVec 128

instance : LawfulBEq UUID := inferInstance

/-- A point in time, as `datetime()` returns it. -/
abbrev Time := Nat

/-- An embedding vector; nothing is computed with its components. -/
abbrev Embedding := List Rat

abbrev Attributes := List (String × Json)

/-- `Visibility = Literal["private", "public"]`. -/
inductive Visibility where
  | priv
  | pub
deriving DecidableEq, Repr

/-- `Annotated[str, Field(min_length=lo, max_length=hi)]`. -/
structure Bounded (lo hi : Nat) where
  val : String
  bounds : lo ≤ val.length ∧ val.length ≤ hi
deriving DecidableEq, Repr

abbrev Name := Bounded 1 200
abbrev Kind := Bounded 1 100

/-- A text that fits. -/
def Bounded.of {lo hi : Nat} (text : String)
    (fits : decide (lo ≤ text.length ∧ text.length ≤ hi) = true) : Bounded lo hi :=
  ⟨text, of_decide_eq_true fits⟩

/-! ## What is stored -/

/-- An `(:Entity)` node. -/
structure EntityNode where
  id : UUID
  ownerId : UUID
  visibility : Visibility
  name : String
  kind : String
  attributes : Attributes
  embedding : Option Embedding
  createdAt : Time
  updatedAt : Time
deriving DecidableEq

/-- A `[:RELATED_TO]` edge, from the node `fromId` to the node `toId`. -/
structure RelatedTo where
  id : UUID
  ownerId : UUID
  fromId : UUID
  toId : UUID
  kind : String
  visibility : Visibility
  createdAt : Time
  updatedAt : Time
deriving DecidableEq

/-- A `(:Source)` node, addressed by its URL. -/
structure SourceNode where
  url : String
  fetchedAt : Time
deriving DecidableEq

/-- A `[:SOURCED_FROM]` edge from an entity to the source with the URL. -/
structure SourcedFrom where
  entityId : UUID
  url : String
  visibility : Visibility
deriving DecidableEq

structure Graph where
  entities : List EntityNode
  relationships : List RelatedTo
  sources : List SourceNode
  sourcedFrom : List SourcedFrom
deriving DecidableEq

/-- The database before any call. -/
def Graph.empty : Graph := ⟨[], [], [], []⟩

/-- `e.visibility = 'public' OR e.owner_id = $owner_id`. -/
def EntityNode.VisibleTo (e : EntityNode) (ownerId : UUID) : Prop :=
  e.visibility = .pub ∨ e.ownerId = ownerId

/-- `r.visibility = 'public' OR r.owner_id = $owner_id`. -/
def RelatedTo.VisibleTo (r : RelatedTo) (ownerId : UUID) : Prop :=
  r.visibility = .pub ∨ r.ownerId = ownerId

/-- The directed pattern `(a)-[r:RELATED_TO]->(b)`. -/
def RelatedTo.Links (r : RelatedTo) (a b : EntityNode) : Prop :=
  r.fromId = a.id ∧ r.toId = b.id

/-- The undirected pattern `(a)-[r:RELATED_TO]-(b)`. -/
def RelatedTo.Joins (r : RelatedTo) (a b : EntityNode) : Prop :=
  r.Links a b ∨ r.Links b a

instance (e : EntityNode) (u : UUID) : Decidable (e.VisibleTo u) :=
  inferInstanceAs (Decidable (_ ∨ _))

instance (r : RelatedTo) (u : UUID) : Decidable (r.VisibleTo u) :=
  inferInstanceAs (Decidable (_ ∨ _))

instance (r : RelatedTo) (a b : EntityNode) : Decidable (r.Links a b) :=
  inferInstanceAs (Decidable (_ ∧ _))

instance (r : RelatedTo) (a b : EntityNode) : Decidable (r.Joins a b) :=
  inferInstanceAs (Decidable (_ ∨ _))

/-! ## Requests and responses -/

/-- `EntityInput`. -/
structure EntityInput where
  name : Name
  kind : Kind
  visibility : Visibility := .priv
  attributes : Attributes := []
deriving DecidableEq

/-- `Entity`: an entity node as returned to the caller, with the URLs it cites. -/
structure Entity where
  id : UUID
  ownerId : UUID
  visibility : Visibility
  name : String
  kind : String
  attributes : Attributes
  sources : List String
  createdAt : Time
  updatedAt : Time
deriving DecidableEq

/-- `RelationshipInput`. -/
structure RelationshipInput where
  fromId : UUID
  toId : UUID
  kind : Kind
  visibility : Visibility := .priv
deriving DecidableEq

/-- `Relationship`: an edge as returned to the caller has the fields of the stored one. -/
abbrev Relationship := RelatedTo

/-- `GraphView`. -/
structure GraphView where
  entities : List Entity
  relationships : List Relationship
deriving DecidableEq

/-- `VisibilityChange`. -/
structure VisibilityChange where
  visibility : Visibility
  cascade : Bool := false
deriving DecidableEq

/-- `VisibilityChangeResult`. -/
structure VisibilityChangeResult where
  affectedIds : List UUID
deriving DecidableEq

/-- `fastapi.HTTPException`. -/
structure HTTPException where
  statusCode : Nat
  detail : String
deriving DecidableEq, Repr

end Intellivault
