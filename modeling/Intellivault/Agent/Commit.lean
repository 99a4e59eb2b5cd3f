import Intellivault.Agent.Research

/-!
# The commit and enrich nodes

`app/agent/nodes/commit.py` and `app/agent/nodes/enrich.py`, the two nodes that write.
-/

namespace Intellivault.Agent

open Lib

/-! ## `commit` -/

/-- `id_map`, the latest assignment first. -/
abbrev IdMap := List (String × UUID)

def resolveRef (ref : String) (idMap : IdMap) : Option UUID :=
  match idMap.lookup ref with
  | some id => some id
  | none => parseUuid ref

def embedText (draft : DraftEntity) : String :=
  let text := draft.name.val ++ " (" ++ draft.kind.val ++ ")"
  if draft.attributes ≠ [] then
    text ++ "\n" ++ Json.dumps (.obj (Json.sortKeysObj draft.attributes))
  else text

/-- `_embed_entity`: the notes after it. -/
def embedEntity (ownerId entityId : UUID) (draft : DraftEntity) (skipped : List String) :
    Coroutine (List String) :=
  tryExcept Exn.isException
    (do
      let vector ← aembedQuery (embedText draft)
      let _ ← GraphService.setEntityEmbedding ownerId entityId vector
      return skipped)
    fun exc => return skipped ++ ["embed " ++ draft.name.val ++ ": " ++ exc.str]

/-- `_attach_sources`: the notes after it. -/
def attachSources (ownerId entityId : UUID) (urls : List String) (skipped : List String) :
    Coroutine (List String) :=
  tryExcept Exn.isException
    (do
      let _ ← GraphService.attachSources ownerId entityId urls
      return skipped)
    fun exc => return skipped ++ ["attach sources for " ++ uuidStr entityId ++ ": " ++ exc.str]

/-- The local variables of `_commit_entities`. -/
structure EntityLoop where
  idMap : IdMap := []
  committed : List UUID
  created : List DigestEntity := []
  skipped : List String := []

/-- One draft of `_commit_entities`. -/
def commitEntity (ownerId runId : UUID) (sourceUrls : List String) (draft : DraftEntity)
    (loop : EntityLoop) : Coroutine EntityLoop :=
  match draft.existingId with
  | some id => return { loop with idMap := (draft.tempId, id) :: loop.idMap }
  | none => do
      let entity ← GraphService.createEntity ownerId
        { name := draft.name, kind := draft.kind, attributes := draft.attributes
          visibility := .priv }
      let _ ← Service.appendCommittedEntity runId entity.id
      let skipped ← (if sourceUrls ≠ [] then
          attachSources ownerId entity.id sourceUrls loop.skipped
        else pure loop.skipped)
      let skipped ← embedEntity ownerId entity.id draft skipped
      return {
        idMap := (draft.tempId, entity.id) :: loop.idMap
        committed := loop.committed ++ [entity.id]
        created := loop.created ++ [⟨entity.id, entity.name, entity.kind⟩]
        skipped }

def commitEntities (ownerId runId : UUID) (sourceUrls : List String) :
    List DraftEntity → EntityLoop → Coroutine EntityLoop
  | [], loop => return loop
  | draft :: rest, loop => do
      let loop ← commitEntity ownerId runId sourceUrls draft loop
      commitEntities ownerId runId sourceUrls rest loop

/-- The local variables of `_commit_relationships`. -/
structure EdgeLoop where
  committed : List UUID
  skipped : List String := []

/-- Create one private edge and record it; an `HTTPException` is noted under `label`. -/
def commitEdge (ownerId runId fromId toId : UUID) (kind : Kind) (label : String) (loop : EdgeLoop) :
    Coroutine EdgeLoop := do
  let created ← tryExcept Exn.isHttp
    (do
      let rel ← GraphService.createRelationship ownerId
        { fromId, toId, kind, visibility := .priv }
      return Except.ok rel)
    fun exc => return Except.error exc
  match created with
  | .error (.http x) => return { loop with skipped := loop.skipped ++ [label ++ ": " ++ x.detail] }
  | .error exc => .raise exc
  | .ok rel =>
      let _ ← Service.appendCommittedRelationship runId rel.id
      return { loop with committed := loop.committed ++ [rel.id] }

/-- One draft of `_commit_relationships`. -/
def commitRelationship (ownerId runId : UUID) (idMap : IdMap) (edge : DraftRelationship)
    (loop : EdgeLoop) : Coroutine EdgeLoop :=
  let label := "relationship " ++ edge.fromRef ++ "->" ++ edge.toRef
  match resolveRef edge.fromRef idMap, resolveRef edge.toRef idMap with
  | some source, some target => commitEdge ownerId runId source target edge.kind label loop
  | _, _ => return { loop with skipped := loop.skipped ++ [label ++ ": unresolved endpoint"] }

def commitRelationships (ownerId runId : UUID) (idMap : IdMap) :
    List DraftRelationship → EdgeLoop → Coroutine EdgeLoop
  | [], loop => return loop
  | edge :: rest, loop => do
      let loop ← commitRelationship ownerId runId idMap edge loop
      commitRelationships ownerId runId idMap rest loop

def commitNode (state : AgentState) : Coroutine Update := do
  let result := state.structured.getD {}
  let entities ← commitEntities state.ownerId state.runId (state.documents.map (·.url))
    result.entities { committed := state.committedEntityIds }
  let edges ← commitRelationships state.ownerId state.runId entities.idMap result.relationships
    { committed := state.committedRelationshipIds }
  return {
    committedEntityIds := some entities.committed
    committedRelationshipIds := some edges.committed
    committedEntities := some entities.created
    skipped := some (state.skipped ++ entities.skipped ++ edges.skipped) }

/-! ## `enrich` -/

def neighbours : Nat := 5

/-- The vector search of `_links_for`; no candidates when it fails. -/
def nearEntities (ownerId : UUID) (entity : DigestEntity) (ownIds : List UUID) :
    Coroutine (List Entity) :=
  tryExcept Exn.isException
    (do
      let vector ← aembedQuery (entity.name ++ " (" ++ entity.kind ++ ")")
      GraphService.searchEntitiesByVector ownerId vector (neighbours + ownIds.dedup.length))
    fun _ => return []

def linksFor (ownerId : UUID) (entity : DigestEntity) (ownIds : List UUID) :
    Coroutine (List (String × Kind)) := do
  let near ← nearEntities ownerId entity ownIds
  let candidates := (near.filter fun e => e.id ∉ ownIds).take neighbours
  if candidates = [] then return []
  else
    let listing := "\n".intercalate (candidates.map fun e =>
      "- id=" ++ uuidStr e.id ++ " " ++ e.name ++ " [" ++ e.kind ++ "]")
    tryExcept Exn.isStructuredOutput
      (do
        let links : EnrichLinks ← structured .enrichLinks [.system "enrich_system",
          .human ("New entity: " ++ entity.name ++ " [" ++ entity.kind ++ "] (id=" ++
            uuidStr entity.id ++ ")\n\nExisting entities:\n" ++ listing)]
        let valid := candidates.map fun e => uuidStr e.id
        return (links.links.filter fun link => link.targetId ∈ valid).map fun link =>
          (link.targetId, link.kind))
      fun _ => return []

/-- The inner loop of `enrich_node`: the links of one entity. -/
def enrichLinks (ownerId runId : UUID) (entity : DigestEntity) :
    List (String × Kind) → EdgeLoop → Coroutine EdgeLoop
  | [], loop => return loop
  | (targetId, kind) :: rest, loop =>
      match parseUuid targetId with
      | none => .raise (.other "badly formed hexadecimal UUID string"
          "ValueError('badly formed hexadecimal UUID string')")
      | some target => do
          let label := "enrich " ++ entity.name ++ "->" ++ targetId
          let loop ← commitEdge ownerId runId entity.id target kind label loop
          enrichLinks ownerId runId entity rest loop

/-- The outer loop of `enrich_node`: the entities the run created. -/
def enrichEntities (ownerId runId : UUID) (ownIds : List UUID) :
    List DigestEntity → EdgeLoop → Coroutine EdgeLoop
  | [], loop => return loop
  | entity :: rest, loop => do
      let links ← linksFor ownerId entity ownIds
      let loop ← enrichLinks ownerId runId entity links loop
      enrichEntities ownerId runId ownIds rest loop

def enrichNode (state : AgentState) : Coroutine Update :=
  if state.committedEntities = [] then return {}
  else do
    let loop ← enrichEntities state.ownerId state.runId state.committedEntityIds
      state.committedEntities
      { committed := state.committedRelationshipIds, skipped := state.skipped }
    return {
      committedRelationshipIds := some loop.committed
      skipped := some loop.skipped }

end Intellivault.Agent
