import Intellivault.Agent.Conservation
import Intellivault.Agent.Lookup

/-!
# References to drafts

What a draft may refer to is decided twice: `_prune_dangling_edges` looks among the drafts of a
reply, `_resolve_ref` into the ids that `_commit_entities` collects.  Both come to the same:
a `tempId`, or something that reads as a UUID (`Refers`).
-/

namespace Intellivault.Agent

open Lib Prog

/-- The reference is one of the ids of the drafts, or a UUID. -/
def Refers (tempIds : List String) (ref : String) : Prop := ref ∈ tempIds ∨ (parseUuid ref).isSome

/-! ## Pruning -/

/-- The ids of entities that drafts are linked to are known besides, but those are UUIDs. -/
theorem known_iff_refers (result : StructuredResult) (ref : String) :
    (ref ∈ knownRefs result ∨ (parseUuid ref).isSome) ↔ Refers (result.entities.map (·.tempId)) ref := by
  rw [knownRefs, List.mem_append, or_assoc, Refers]
  refine or_congr_right (or_iff_right_of_imp fun linked => ?_)
  obtain ⟨d, -, printed⟩ := List.mem_filterMap.mp linked
  obtain ⟨id, -, rfl⟩ := Option.map_eq_some_iff.mp printed
  rw [parseUuid_uuidStr]
  rfl

theorem mem_prune_iff {result : StructuredResult} {r : DraftRelationship} :
    r ∈ (pruneDanglingEdges result).1.relationships ↔ r ∈ result.relationships ∧
      Refers (result.entities.map (·.tempId)) r.fromRef ∧
      Refers (result.entities.map (·.tempId)) r.toRef := by
  simp [pruneDanglingEdges, ← known_iff_refers]

/-! ## Committing -/

theorem resolveRef_isSome {ref : String} {idMap : IdMap} :
    (resolveRef ref idMap).isSome ↔ Refers (idMap.map (·.1)) ref := by
  have known : (idMap.lookup ref).isSome ↔ ref ∈ idMap.map (·.1) := by
    rw [List.lookup_isSome_iff, List.mem_map]
    simp only [beq_iff_eq, @eq_comm _ ref]
  unfold resolveRef Refers
  rw [← known]
  split
  · rename_i found
    simp [found]
  · rename_i unknown
    simp [unknown]

section Entities

variable {ownerId runId : UUID} {urls : List String}

/-- A note of `_commit_entities`. -/
def OfEntity (note : String) : Prop :=
  ∃ text, note = "embed " ++ text ∨ note = "attach sources for " ++ text

/-- What drafts add to the loop: their `tempId`s as keys, and notes on entities. -/
def Mapped (loop : EntityLoop) (drafts : List DraftEntity) (loop' : EntityLoop) : Prop :=
  loop'.idMap.map (·.1) = (drafts.map (·.tempId)).reverse ++ loop.idMap.map (·.1) ∧
    ∃ notes, loop'.skipped = loop.skipped ++ notes ∧ ∀ note ∈ notes, OfEntity note

theorem attachSources_notes (entityId : UUID) (skipped : List String) :
    (attachSources ownerId entityId urls skipped).Returns fun skipped' =>
      ∃ notes, skipped' = skipped ++ notes ∧ ∀ note ∈ notes, OfEntity note := by
  refine tryExcept_returns (Returns.bind fun _ => ?_) fun exc => ?_
  · exact ⟨[], (List.append_nil _).symm, List.forall_mem_nil _⟩
  · refine ⟨_, rfl, List.forall_mem_singleton.mpr ⟨uuidStr entityId ++ ": " ++ exc.str, .inr ?_⟩⟩
    simp [String.append_assoc]

theorem embedEntity_notes (entityId : UUID) (draft : DraftEntity) (skipped : List String) :
    (embedEntity ownerId entityId draft skipped).Returns fun skipped' =>
      ∃ notes, skipped' = skipped ++ notes ∧ ∀ note ∈ notes, OfEntity note := by
  refine tryExcept_returns (Returns.bind fun _ => Returns.bind fun _ => ?_) fun exc => ?_
  · exact ⟨[], (List.append_nil _).symm, List.forall_mem_nil _⟩
  · refine ⟨_, rfl, List.forall_mem_singleton.mpr ⟨draft.name.val ++ ": " ++ exc.str, .inl ?_⟩⟩
    simp [String.append_assoc]

theorem commitEntity_maps (draft : DraftEntity) (loop : EntityLoop) :
    (commitEntity ownerId runId urls draft loop).Returns (Mapped loop [draft]) := by
  unfold commitEntity
  split
  · exact ⟨rfl, [], (List.append_nil _).symm, List.forall_mem_nil _⟩
  · refine Returns.bind fun entity => Returns.bind fun _ => ?_
    have attached : (if urls ≠ [] then attachSources ownerId entity.id urls loop.skipped
        else pure loop.skipped).Returns fun skipped' =>
          ∃ notes, skipped' = loop.skipped ++ notes ∧ ∀ note ∈ notes, OfEntity note := by
      split
      · exact attachSources_notes _ _
      · exact ⟨[], (List.append_nil _).symm, List.forall_mem_nil _⟩
    refine attached.then fun skipped ⟨notes, before, ours⟩ => ?_
    refine (embedEntity_notes _ _ _).then fun skipped' ⟨notes', after, ours'⟩ => ?_
    refine ⟨rfl, notes ++ notes', ?_, List.forall_mem_append.mpr ⟨ours, ours'⟩⟩
    rw [after, before, List.append_assoc]

theorem commitEntities_maps (drafts : List DraftEntity) (loop : EntityLoop) :
    (commitEntities ownerId runId urls drafts loop).Returns (Mapped loop drafts) := by
  induction drafts generalizing loop with
  | nil => exact ⟨rfl, [], (List.append_nil _).symm, List.forall_mem_nil _⟩
  | cons draft rest ih =>
      refine (commitEntity_maps draft loop).then fun loop' ⟨keys, notes, before, ours⟩ => ?_
      refine (ih loop').mono fun loop'' ⟨keys', notes', after, ours'⟩ => ?_
      refine ⟨?_, notes ++ notes', ?_, List.forall_mem_append.mpr ⟨ours, ours'⟩⟩
      · simp [keys', keys]
      · rw [after, before, List.append_assoc]

end Entities

/-! ## The edges that are asked for -/

/-- An edge the graph service was asked to create, and how that went. -/
abbrev Attempt := RelationshipInput × Except Exn Relationship

def attemptOf : Event Call Call.Answer Exn → Option Attempt
  | ⟨.graph (.createRelationship _ data), r⟩ => some (data, r)
  | _ => none

def attempts (log : CallLog) : List Attempt := log.filterMap attemptOf

/-- The draft's edge, between what its references resolve to. -/
def Asks (idMap : IdMap) (edge : DraftRelationship) (a : Attempt) : Prop :=
  resolveRef edge.fromRef idMap = some a.1.fromId ∧ resolveRef edge.toRef idMap = some a.1.toId ∧
    a.1.kind = edge.kind

/-- The note on an edge the graph service rejected. -/
def edgeNote (label : String) (a : Attempt) : Option String :=
  match a.2 with
  | .error (.http x) => some (label ++ ": " ++ x.detail)
  | _ => none

section Edges

variable {ownerId runId : UUID} {idMap : IdMap}

theorem commitEntity_asksNothing {urls : List String} (draft : DraftEntity) (loop : EntityLoop) :
    (commitEntity ownerId runId urls draft loop).Calls fun c => ∀ r, attemptOf ⟨c, r⟩ = none := by
  unfold commitEntity
  split
  · trivial
  · refine (calls_call fun _ => rfl).bind fun entity => (calls_call fun _ => rfl).bind fun _ => ?_
    refine Calls.bind ?_ fun skipped => Calls.bind ?_ fun skipped => trivial
    · split
      · exact calls_tryExcept ((calls_call fun _ => rfl).bind fun _ => trivial) fun _ => trivial
      · trivial
    · exact calls_tryExcept ((calls_call fun _ => rfl).bind fun _ =>
        (calls_call fun _ => rfl).bind fun _ => trivial) fun _ => trivial

theorem commitEntities_asksNothing {urls : List String} (drafts : List DraftEntity)
    (loop : EntityLoop) : (commitEntities ownerId runId urls drafts loop).Calls
      fun c => ∀ r, attemptOf ⟨c, r⟩ = none := by
  induction drafts generalizing loop with
  | nil => trivial
  | cons draft rest ih => exact (commitEntity_asksNothing draft loop).bind fun _ => ih _

theorem commitEdge_asks (fromId toId : UUID) (kind : Kind) (label : String) (loop : EdgeLoop) :
    (commitEdge ownerId runId fromId toId kind label loop).Logs (fun _ => True) fun log r =>
      ∀ loop', r = .ok loop' → ∃ r, attempts log = [(⟨fromId, toId, kind, .priv⟩, r)] ∧
        loop'.skipped = loop.skipped ++ (edgeNote label (⟨fromId, toId, kind, .priv⟩, r)).toList := by
  refine logs_bind.mpr (logs_handle.mpr (logs_bind.mpr (logs_perform.mpr fun r _ => ?_)))
  cases r with
  | error x =>
      dsimp only
      split
      · rename_i http
        cases x with
        | http x =>
            rintro _ ⟨⟩
            exact ⟨.error (.http x), rfl, rfl⟩
        | _ => cases http
      · exact fun _ => of_error_eq_ok
  | ok rel =>
      refine logs_bind.mpr (logs_perform.mpr fun r _ => ?_)
      cases r with
      | error x => exact fun _ => of_error_eq_ok
      | ok u =>
          rintro _ ⟨⟩
          exact ⟨.ok rel, rfl, (List.append_nil _).symm⟩

/-- The notes on the edges of the drafts. -/
def edgeNotes (edges : List DraftRelationship) (asked : List Attempt) : List String :=
  (edges.zip asked).filterMap fun p => edgeNote p.1.label p.2

theorem commitRelationships_asks {edges : List DraftRelationship}
    (refers : ∀ r ∈ edges, Refers (idMap.map (·.1)) r.fromRef ∧ Refers (idMap.map (·.1)) r.toRef)
    (loop : EdgeLoop) :
    (commitRelationships ownerId runId idMap edges loop).Logs (fun _ => True) fun log r =>
      ∀ loop', r = .ok loop' → List.Forall₂ (Asks idMap) edges (attempts log) ∧
        loop'.skipped = loop.skipped ++ edgeNotes edges (attempts log) := by
  induction edges generalizing loop with
  | nil =>
      rintro _ ⟨⟩
      exact ⟨.nil, (List.append_nil _).symm⟩
  | cons edge rest ih =>
      obtain ⟨⟨source, target⟩, others⟩ := List.forall_mem_cons.mp refers
      obtain ⟨fromId, starts⟩ := Option.isSome_iff_exists.mp (resolveRef_isSome.mpr source)
      obtain ⟨toId, ends⟩ := Option.isSome_iff_exists.mp (resolveRef_isSome.mpr target)
      have one : commitRelationship ownerId runId idMap edge loop =
          commitEdge ownerId runId fromId toId edge.kind edge.label loop := by
        rw [commitRelationship, starts, ends]
        rfl
      rw [commitRelationships, one]
      refine logs_bind.mpr ((commitEdge_asks _ _ _ _ _).mono fun log r asked => ?_)
      cases r with
      | error x => exact fun _ => of_error_eq_ok
      | ok loop' =>
          obtain ⟨answer, here, noted⟩ := asked loop' rfl
          refine (ih others loop').mono fun log' r later loop'' same => ?_
          obtain ⟨asks, notes⟩ := later loop'' same
          have both : attempts (log ++ log') =
              (⟨fromId, toId, edge.kind, .priv⟩, answer) :: attempts log' := by
            rw [attempts, List.filterMap_append]
            exact congrArg (· ++ attempts log') here
          rw [both]
          refine ⟨.cons ⟨starts, ends, rfl⟩ asks, ?_⟩
          rw [notes, noted, List.append_assoc, edgeNotes, edgeNotes, List.zip_cons_cons,
            List.filterMap_cons]
          cases edgeNote edge.label (⟨fromId, toId, edge.kind, .priv⟩, answer) <;> rfl

end Edges

/-! ## From the reply to the graph -/

/-- What `structure_node` makes of a reply. -/
def pruned (py : Py) (reply : StructuredResult) (digest : Option GraphDigest) : StructuredResult :=
  (pruneDanglingEdges (dedupeAgainstExisting py reply digest)).1

/-- All edges of the drafts are between drafts, or named by UUIDs. -/
def StructuredResult.Closed (drafts : StructuredResult) : Prop :=
  ∀ r ∈ drafts.relationships, Refers (drafts.entities.map (·.tempId)) r.fromRef ∧
    Refers (drafts.entities.map (·.tempId)) r.toRef

theorem pruned_closed (py : Py) (reply : StructuredResult) (digest : Option GraphDigest) :
    (pruned py reply digest).Closed := fun _ mem => (mem_prune_iff.mp mem).2

/-- Lookup keeps the drafts closed: it adds edges between them, and their ids stay. -/
theorem lookup_closed {deps : Deps} {state : AgentState} {u : Update} {ps : List Passage}
    (looked : LookedUp deps state u ps) (closed : (state.structured.getD {}).Closed) :
    ((state.merge u).structured.getD {}).Closed := by
  have ids : ((state.merge u).structured.getD {}).entities.map (·.tempId) =
      (state.structured.getD {}).entities.map (·.tempId) := by
    rw [looked.entities, ← looked.drafts, List.map_map, List.map_map]
    exact List.map_congr_left fun p _ => p.summarised.1
  rw [StructuredResult.Closed, ids, looked.relationships, List.forall_mem_append]
  refine ⟨closed, fun r added => ?_⟩
  rw [added_eq] at added
  obtain ⟨m, mentioned, added⟩ := List.mem_filterMap.mp added
  obtain ⟨ref, named, -, rfl, -⟩ := addedFor_eq_some.mp added
  obtain ⟨p, passed, inside⟩ := List.mem_flatMap.mp mentioned
  obtain ⟨name, -, rfl⟩ := List.mem_map.mp inside
  refine ⟨.inl ?_, .inl (tempIdByName_mem named)⟩
  rw [← looked.drafts, List.map_map]
  exact List.mem_map_of_mem passed

/-- What a commit of closed drafts reports: each edge was asked for, and the notes are on
entities, or on edges that the graph service rejected. -/
structure Reported (state : AgentState) (update : Update) (log : CallLog) : Prop where
  asked : ∃ idMap : IdMap,
    idMap.map (·.1) = ((state.structured.getD {}).entities.map (·.tempId)).reverse ∧
    List.Forall₂ (Asks idMap) (state.structured.getD {}).relationships (attempts log)
  notes : ∃ remarks, (∀ note ∈ remarks, OfEntity note) ∧
    update.skipped = some (state.skipped ++ remarks ++
      edgeNotes (state.structured.getD {}).relationships (attempts log))

theorem commitNode_reports {state : AgentState} (closed : (state.structured.getD {}).Closed) :
    (commitNode state).Logs (fun _ => True) fun log r => ∀ update, r = .ok update →
      Reported state update log := by
  refine logs_bind.mpr (((commitEntities_maps _ _).logs.and
    (commitEntities_asksNothing _ _).logs).mono fun log r ⟨maps, calls⟩ => ?_)
  have nothing : attempts log = [] :=
    List.filterMap_eq_nil_iff.mpr fun e mem => (calls e mem).1 e.2
  cases r with
  | error x => exact fun _ => of_error_eq_ok
  | ok entities =>
      obtain ⟨keys, remarks, noted, ours⟩ := maps entities rfl
      rw [List.map_nil, List.append_nil] at keys
      have refers : ∀ r ∈ (state.structured.getD {}).relationships,
          Refers (entities.idMap.map (·.1)) r.fromRef ∧ Refers (entities.idMap.map (·.1)) r.toRef := by
        intro r mem
        simpa [Refers, keys] using closed r mem
      refine logs_bind.mpr ((commitRelationships_asks refers _).mono fun log' r asked => ?_)
      cases r with
      | error x => exact fun _ => of_error_eq_ok
      | ok edges =>
          obtain ⟨asks, notes⟩ := asked edges rfl
          rintro _ ⟨⟩
          have all : attempts (log ++ (log' ++ [])) = attempts log' := by
            rw [List.append_nil, attempts, List.filterMap_append]
            exact congrArg (· ++ attempts log') nothing
          constructor
          · rw [all]
            exact ⟨entities.idMap, keys, asks⟩
          · rw [all]
            refine ⟨remarks, ours, congrArg some ?_⟩
            rw [noted, notes, List.nil_append, List.nil_append]

/-- **Pruning and committing agree on references.** -/
theorem references_agree (py : Py) (reply : StructuredResult) (digest : Option GraphDigest) :
    (∀ (S : Type) (H : Handler Call Call.Answer Exn S) (ownerId runId : UUID) (urls : List String)
      (loop loop' : EntityLoop) (s s' : S) (log : CallLog), loop.idMap = [] →
      Runs H (commitEntities ownerId runId urls (pruned py reply digest).entities loop) s log
        (ended (.ok loop')) s' →
      (pruned py reply digest).relationships = reply.relationships.filter fun r =>
        (resolveRef r.fromRef loop'.idMap).isSome ∧ (resolveRef r.toRef loop'.idMap).isSome) ∧
    ∀ (S : Type) (H : Handler Call Call.Answer Exn S) (deps : Deps) (state state' : AgentState)
      (u update : Update) (s s' t t' : S) (log log' : CallLog),
      state.structured = some (pruned py reply digest) →
      Runs H (lookupNode deps state) s log (ended (.ok u)) s' →
      state'.structured = (state.merge u).structured →
      Runs H (commitNode state') t log' (ended (.ok update)) t' → Reported state' update log' := by
  constructor
  · intro S H ownerId runId urls loop loop' s s' log fresh run
    have keys := (Returns.of_ends (commitEntities_maps _ _) run.ends).1
    rw [fresh, List.map_nil, List.append_nil] at keys
    have drafted : (pruned py reply digest).entities =
        (dedupeAgainstExisting py reply digest).entities := rfl
    have drawn : (dedupeAgainstExisting py reply digest).relationships = reply.relationships := by
      cases digest <;> rfl
    have side : ∀ ref, (ref ∈ knownRefs (dedupeAgainstExisting py reply digest) ∨
        (parseUuid ref).isSome) ↔ (resolveRef ref loop'.idMap).isSome := by
      intro ref
      rw [known_iff_refers, resolveRef_isSome, keys, drafted, Refers, Refers, List.mem_reverse]
    rw [← drawn]
    refine List.filter_congr fun r _ => decide_eq_decide.mpr ?_
    rw [decide_eq_true_iff, decide_eq_true_iff, side, side]
  · intro S H deps state state' u update s s' t t' log log' start looking same committing
    obtain ⟨ps, -, looked⟩ := looking.logs (fun _ _ _ _ _ => trivial) (lookupNode_logs deps state) u rfl
    have closed := lookup_closed looked (by rw [start]; exact pruned_closed py reply digest)
    rw [← same] at closed
    exact committing.logs (fun _ _ _ _ _ => trivial) (commitNode_reports closed) update rfl

/-! ## A reply with an edge that leads nowhere -/

/-- Two notes, of which the graph knows the second; one edge names no note. -/
def strayReply : StructuredResult where
  entities :=
    [{ tempId := "t1", name := .of "draft" (Eq.refl true), kind := .of "text" (Eq.refl true) },
     { tempId := "t2", name := .of "paper" (Eq.refl true), kind := .of "text" (Eq.refl true) }]
  relationships := [⟨"t1", "t3", relatedKind⟩, ⟨"t1", uuidStr 20, relatedKind⟩]

def paperDigest : GraphDigest := { entities := [⟨20, "paper", "text"⟩] }

/-- The drafts after `structure_node`. -/
def strayState : AgentState :=
  { initialState "notes" 1 7 with
    structured := some (pruned topicDeps.py strayReply (some paperDigest)) }

/-- The drafts after `lookup_node`, which found the second note related to the first. -/
def strayFound : AgentState :=
  { initialState "notes" 1 7 with
    structured := some {
      entities :=
        [{ tempId := "t1", name := .of "draft" (Eq.refl true), kind := .of "text" (Eq.refl true) },
         { tempId := "t2", name := .of "paper" (Eq.refl true), kind := .of "text" (Eq.refl true)
           existingId := some 20 }]
      relationships := [⟨"t1", uuidStr 20, relatedKind⟩, ⟨"t1", "t2", relatedKind⟩] } }

/-- One edge is pruned; the commit asks for the other one and for the one that lookup added. -/
theorem references_agree_stray :
    (∃ idMap : IdMap, (pruned topicDeps.py strayReply (some paperDigest)).relationships =
      strayReply.relationships.filter fun r =>
        (resolveRef r.fromRef idMap).isSome ∧ (resolveRef r.toRef idMap).isSome) ∧
    ∃ update log, Reported strayFound update log ∧ (attempts log).length = 2 := by
  have agree := references_agree topicDeps.py strayReply (some paperDigest)
  constructor
  · exact ⟨_, agree.1 Unit _ 1 7 [] { committed := [] } _ () () _ rfl
      (logged_run (linkAnswers (.ok ())) _)⟩
  · exact ⟨_, _, agree.2 Unit _ topicDeps strayState strayFound _ _ () () () () _ _ rfl
      (logged_run (topicAnswers ["paper"]) _) rfl (logged_run (linkAnswers (.ok ())) _), rfl⟩

end Intellivault.Agent
