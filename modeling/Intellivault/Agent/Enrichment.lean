import Intellivault.Lib.Script
import Intellivault.Agent.Body

/-!
# When enrichment fails

`enrich_node` guards its calls one by one: the embedder and the vector search by
`except Exception`, the chat model by `structured` and `except StructuredOutputError`, the
creation of an edge by `except HTTPException`, and the write that records the edge by nothing.
What each call was answered is in the log, so the log says whether the node returns, and which
edges it created and which it noted.
-/

namespace Intellivault.Agent

open Lib Prog

/-! ## The log -/

/-- A call succeeds or raises an `Exception`. -/
def Uncancelled (e : Event Call Call.Answer Exn) : Prop := ∀ x, e.2 = .error x → x.isException

/-- The answers no clause of `enrich_node` is for. -/
def Escapes : Event Call Call.Answer Exn → Prop
  | ⟨.graph (.createRelationship _ _), .error x⟩ => ¬x.isHttp
  | ⟨.sql (.appendCommittedRelationship _ _), .error _⟩ => True
  | _ => False

/-- The creation of an edge, with its answer. -/
def edgeOf : Event Call Call.Answer Exn → Option (RelationshipInput × Except Exn Relationship)
  | ⟨.graph (.createRelationship _ data), r⟩ => some (data, r)
  | _ => none

/-- The edges created, by their ids. -/
def createdEdges (log : CallLog) : List UUID :=
  (log.filterMap edgeOf).filterMap fun
    | (_, .ok rel) => some rel.id
    | _ => none

/-- The edges the graph service rejected. -/
def rejectedEdges (log : CallLog) : List (RelationshipInput × HTTPException) :=
  (log.filterMap edgeOf).filterMap fun
    | (data, .error (.http x)) => some (data, x)
    | _ => none

theorem createdEdges_append (log log' : CallLog) :
    createdEdges (log ++ log') = createdEdges log ++ createdEdges log' := by
  simp only [createdEdges, List.filterMap_append]

theorem rejectedEdges_append (log log' : CallLog) :
    rejectedEdges (log ++ log') = rejectedEdges log ++ rejectedEdges log' := by
  simp only [rejectedEdges, List.filterMap_append]

/-- The note `enrich_node` makes of a rejected edge. -/
def IsNote (entities : List DigestEntity) (edge : RelationshipInput × HTTPException)
    (note : String) : Prop :=
  ∃ entity ∈ entities, entity.id = edge.1.fromId ∧
    note = "enrich " ++ entity.name ++ "->" ++ uuidStr edge.1.toId ++ ": " ++ edge.2.detail

/-- The loop's lists are the first ones, with the ids of the edges created since and the notes
on those rejected; nothing has escaped. -/
structure Enriched (entities : List DigestEntity) (first : EdgeLoop) (log : CallLog)
    (loop : EdgeLoop) : Prop where
  ids : loop.committed = first.committed ++ createdEdges log
  notes : ∃ notes, loop.skipped = first.skipped ++ notes ∧
    List.Forall₂ (IsNote entities) (rejectedEdges log) notes
  calm : ∀ e ∈ log, ¬Escapes e

/-- What the loops end with. -/
def EnrichDone (entities : List DigestEntity) (first : EdgeLoop) (log : CallLog) :
    Except Exn EdgeLoop → Prop
  | .ok loop => Enriched entities first log loop
  | .error _ => ∃ e ∈ log, Escapes e

section Loops

variable {entities : List DigestEntity} {first loop : EdgeLoop} {past : CallLog}
  {ownerId runId : UUID}

/-- What one call adds, to the loop and to the log. -/
theorem Enriched.snoc {e : Event Call Call.Answer Exn} {loop' : EdgeLoop} {notes : List String}
    (enriched : Enriched entities first past loop) (calm : ¬Escapes e)
    (ids : loop'.committed = loop.committed ++ createdEdges [e])
    (skipped : loop'.skipped = loop.skipped ++ notes)
    (about : List.Forall₂ (IsNote entities) (rejectedEdges [e]) notes) :
    Enriched entities first (past ++ [e]) loop' := by
  obtain ⟨earlier, before, matched⟩ := enriched.notes
  constructor
  · rw [createdEdges_append, ids, enriched.ids, List.append_assoc]
  · rw [rejectedEdges_append]
    exact ⟨earlier ++ notes, by rw [skipped, before, List.append_assoc],
      List.rel_append matched about⟩
  · exact List.forall_mem_append.mpr ⟨enriched.calm, List.forall_mem_singleton.mpr calm⟩

/-- A call that creates no edge and does not escape changes nothing. -/
theorem Enriched.other {e : Event Call Call.Answer Exn} (enriched : Enriched entities first past loop)
    (other : edgeOf e = none) (calm : ¬Escapes e) : Enriched entities first (past ++ [e]) loop := by
  refine enriched.snoc calm ?_ (List.append_nil _).symm ?_
  · simp [createdEdges, other]
  · simp [rejectedEdges, other]

/-! ## The guarded calls -/

/-- The vector search never raises. -/
theorem nearEntities_scripted {entity : DigestEntity} {ownIds : List UUID} :
    (nearEntities ownerId entity ownIds).Scripted Uncancelled (fun _ _ => True)
      (fun _ r => ∃ near, r = .ok near) past := by
  rw [nearEntities, tryExcept, scripted_handle, scripted_bind]
  refine scripted_free.mpr fun r answered => ?_
  cases r with
  | error x =>
      dsimp only
      rw [if_pos (answered x rfl)]
      exact ⟨[], rfl⟩
  | ok vector =>
      refine scripted_free.mpr fun r answered => ?_
      cases r with
      | error x =>
          dsimp only
          rw [if_pos (answered x rfl)]
          exact ⟨[], rfl⟩
      | ok near => exact ⟨near, rfl⟩

/-- `structured` raises nothing but a `StructuredOutputError`. -/
theorem structured_scripted {schema : Schema} {messages : List Message} :
    (structured schema messages).Scripted Uncancelled (fun _ _ => True)
      (fun _ r => ∀ x, r = .error x → x.isStructuredOutput) past := by
  rw [structured]
  refine scripted_handle.mpr (scripted_free.mpr fun r answered => ?_)
  cases r with
  | ok reply => exact nofun
  | error x =>
      dsimp only
      rw [if_pos (answered x rfl)]
      refine scripted_handle.mpr (scripted_free.mpr fun r answered => ?_)
      cases r with
      | ok reply => exact nofun
      | error x =>
          dsimp only
          rw [if_pos (answered x rfl)]
          rintro _ ⟨⟩
          rfl

/-- The links of an entity, if there are any, name ids; nothing is raised. -/
theorem linksFor_scripted {entity : DigestEntity} {ownIds : List UUID} :
    (linksFor ownerId entity ownIds).Scripted Uncancelled (fun _ _ => True)
      (fun _ r => ∃ links, r = .ok links ∧ ∀ link ∈ links, ∃ id, link.1 = uuidStr id) past := by
  rw [linksFor, scripted_bind]
  refine nearEntities_scripted.mono fun log r ⟨near, returned⟩ => ?_
  subst returned
  dsimp only
  split
  · exact ⟨[], rfl, fun _ mem => (List.not_mem_nil mem).elim⟩
  refine scripted_handle.mpr (scripted_bind.mpr ?_)
  refine structured_scripted.mono fun log r raised => ?_
  cases r with
  | error x =>
      dsimp only
      rw [if_pos (raised x rfl)]
      exact ⟨[], rfl, fun _ mem => (List.not_mem_nil mem).elim⟩
  | ok links =>
      refine ⟨_, rfl, fun link mem => ?_⟩
      obtain ⟨given, valid, rfl⟩ := List.mem_map.mp mem
      obtain ⟨e, -, same⟩ := List.mem_map.mp (of_decide_eq_true (List.mem_filter.mp valid).2)
      exact ⟨e.id, same.symm⟩

/-! ## The edges -/

/-- One edge of an entity: created and recorded, noted, or escaped. -/
theorem commitEdge_scripted {entity : DigestEntity} {target : UUID} {kind : Kind}
    (mem : entity ∈ entities) (enriched : Enriched entities first past loop) :
    (commitEdge ownerId runId entity.id target kind
        ("enrich " ++ entity.name ++ "->" ++ uuidStr target) loop).Scripted Uncancelled
      (fun _ _ => True) (EnrichDone entities first) past := by
  rw [commitEdge, scripted_bind, tryExcept, scripted_handle, scripted_bind]
  refine scripted_free.mpr fun r answered => ?_
  cases r with
  | error x =>
      by_cases http : x.isHttp
      · dsimp only
        rw [if_pos http]
        cases x with
        | http x =>
            exact enriched.snoc (fun foreign => foreign rfl) (List.append_nil _).symm rfl
              (.cons ⟨entity, mem, rfl, rfl⟩ .nil)
        | _ => cases http
      · dsimp only
        rw [if_neg http]
        exact ⟨_, List.mem_append_right _ (List.mem_singleton_self _), http⟩
  | ok rel =>
      refine scripted_bind.mpr (scripted_free.mpr fun r _ => ?_)
      cases r with
      | error x => exact ⟨_, List.mem_append_right _ (List.mem_singleton_self _), trivial⟩
      | ok u =>
          refine Enriched.other ?_ rfl id
          exact enriched.snoc id rfl (List.append_nil _).symm .nil

theorem enrichLinks_scripted {entity : DigestEntity} {links : List (String × Kind)}
    (mem : entity ∈ entities) (named : ∀ link ∈ links, ∃ id, link.1 = uuidStr id)
    (enriched : Enriched entities first past loop) :
    (enrichLinks ownerId runId entity links loop).Scripted Uncancelled (fun _ _ => True)
      (EnrichDone entities first) past := by
  induction links generalizing past loop with
  | nil => exact enriched
  | cons link rest ih =>
      have others := List.forall_mem_of_forall_mem_cons named
      -- `obtain` would evaluate `parseUuid` in the goal.
      apply (named link (.head _)).elim
      intro target here
      rw [enrichLinks, here, parseUuid_uuidStr, scripted_bind]
      refine (commitEdge_scripted mem enriched).mono fun log r done => ?_
      cases r with
      | ok loop => exact ih others done
      | error x => exact done

theorem enrichEntities_scripted {ownIds : List UUID} {todo : List DigestEntity}
    (mem : todo ⊆ entities) (enriched : Enriched entities first past loop) :
    (enrichEntities ownerId runId ownIds todo loop).Scripted Uncancelled (fun _ _ => True)
      (EnrichDone entities first) past := by
  induction todo generalizing past loop with
  | nil => exact enriched
  | cons entity rest ih =>
      obtain ⟨here, others⟩ := List.cons_subset.mp mem
      have quiet : ∀ (log : CallLog) c r, c.Research → Uncancelled ⟨c, r⟩ →
          Enriched entities first log loop → Enriched entities first (log ++ [⟨c, r⟩]) loop := by
        intro log c r reads _ enriched
        have other : edgeOf ⟨c, r⟩ = none ∧ ¬Escapes ⟨c, r⟩ := by
          cases c with
          | graph c => cases c <;> first | exact ⟨rfl, id⟩ | exact (reads trivial).elim
          | sql q => exact reads.elim
          | _ => exact ⟨rfl, id⟩
        exact enriched.other other.1 other.2
      rw [enrichEntities, scripted_bind]
      refine (linksFor_scripted.and ((linksFor_calls ownerId entity ownIds).scripted quiet
        enriched)).mono fun log r ⟨⟨links, returned, named⟩, kept⟩ => ?_
      subst returned
      refine scripted_bind.mpr ?_
      refine (enrichLinks_scripted here named kept).mono fun log r done => ?_
      cases r with
      | ok loop => exact ih others done
      | error x => exact done

end Loops

/-- **When enrichment returns.**  As long as the run is not cancelled, `enrich_node` returns
exactly if no creation of an edge raised anything but an `HTTPException` and no write that
records an edge raised.  It then has recorded each edge that was created, in order, and noted
each one that was rejected. -/
theorem enrich_returns_iff {S : Type} {H : Handler Call Call.Answer Exn S}
    (uncancelled : ∀ c s r s', H c s r s' → Uncancelled ⟨c, r⟩) (state : AgentState) {s s' : S}
    {log : CallLog} {r : Except Exn Update}
    (run : Runs H (enrichNode state) s log (ended r) s') :
    ((∃ update, r = .ok update) ↔ ∀ e ∈ log, ¬Escapes e) ∧
      ∀ update, r = .ok update →
        (state.merge update).committedRelationshipIds =
            state.committedRelationshipIds ++ createdEdges log ∧
          ∃ notes, (state.merge update).skipped = state.skipped ++ notes ∧
            List.Forall₂ (IsNote state.committedEntities) (rejectedEdges log) notes := by
  have scripted : (enrichNode state).Scripted Uncancelled (fun _ _ => True)
      (fun log r => match r with
        | .ok update => Enriched state.committedEntities
            { committed := state.committedRelationshipIds, skipped := state.skipped } log
            { committed := (state.merge update).committedRelationshipIds
              skipped := (state.merge update).skipped }
        | .error _ => ∃ e ∈ log, Escapes e) [] := by
    have start : Enriched state.committedEntities
        { committed := state.committedRelationshipIds, skipped := state.skipped } []
        { committed := state.committedRelationshipIds, skipped := state.skipped } :=
      ⟨(List.append_nil _).symm, ⟨[], (List.append_nil _).symm, .nil⟩, List.forall_mem_nil _⟩
    unfold enrichNode
    split
    · exact start
    · rw [scripted_bind]
      refine (enrichEntities_scripted (List.Subset.refl _) start).mono fun log r done => ?_
      cases r with
      | ok loop => exact done
      | error x => exact done
  have done := scripted_ended.mp (run.scripted uncancelled scripted).2
  rw [List.nil_append] at done
  cases r with
  | ok update =>
      refine ⟨iff_of_true ⟨update, rfl⟩ done.calm, ?_⟩
      rintro _ ⟨⟩
      exact ⟨done.ids, done.notes⟩
  | error x =>
      obtain ⟨e, mem, escaped⟩ := done
      refine ⟨iff_of_false ?_ fun calm => calm e mem escaped, fun update same => by cases same⟩
      rintro ⟨update, ⟨⟩⟩

/-! ## A note that gets a link -/

/-- Any call may answer anything, or raise any `Exception`. -/
def anyAnswer : Handler Call Call.Answer Exn Unit := fun c _ r _ => Uncancelled ⟨c, r⟩

/-- One drafted note, to be committed. -/
def linkedState : AgentState :=
  { initialState "notes" 1 7 with
    structured := some { entities :=
      [{ tempId := "t1", name := .of "draft" (Eq.refl true), kind := .of "text" (Eq.refl true) }] } }

/-- The graph creates the note 40, finds the entity 20 near it and creates the edge 41, which
the model asks for; `record` is how the write that records the edge goes. -/
def linkAnswers (record : Except Exn Unit) : (c : Call) → Unit → Except Exn c.Answer × Unit
  | .graph (.createEntity ownerId visibility name kind attributes), u =>
      (.ok ⟨40, ownerId, visibility, name, kind, attributes, [], 5, 5⟩, u)
  | .graph (.searchEntitiesByVector _ _ _), u => (.ok [⟨20, 1, .priv, "paper", "text", [], [], 1, 1⟩], u)
  | .graph (.createRelationship ownerId data), u =>
      (.ok ⟨41, ownerId, data.fromId, data.toId, data.kind.val, data.visibility, 5, 5⟩, u)
  | .graph (.setEntityEmbedding _ _ _), u | .sql (.appendCommittedEntity _ _), u => (.ok (), u)
  | .sql (.appendCommittedRelationship _ _), u => (record, u)
  | .embed _, u => (.ok [1], u)
  | .ask .enrichLinks _, u => (.ok { links := [⟨uuidStr 20, relatedKind⟩] }, u)
  | _, u => (.error .timeout, u)

/-- The state after the commit. -/
def linkedUpdate : Update where
  committedEntityIds := some [40]
  committedRelationshipIds := some []
  committedEntities := some [⟨40, "draft", "text"⟩]
  skipped := some []

theorem linkAnswers_any {record : Except Exn Unit} (fails : ∀ x, record = .error x → x.isException)
    (c : Call) (u : Unit) : anyAnswer c u (linkAnswers record c u).1 (linkAnswers record c u).2 := by
  have timeout : ∀ c : Call, Uncancelled ⟨c, .error .timeout⟩ := by
    rintro c x ⟨⟩
    rfl
  have answered : ∀ (c : Call) (a : c.Answer), Uncancelled ⟨c, .ok a⟩ := by
    intro c a x same
    cases same
  cases c with
  | graph c => cases c <;> first | exact timeout _ | exact answered _ _
  | sql q => cases q <;> first | exact timeout _ | exact answered _ _ | exact fails
  | embed text => exact answered _ _
  | ask schema messages => cases schema <;> first | exact timeout _ | exact answered _ _
  | _ => exact timeout _

theorem linkAnswers_ok (c : Call) (u : Unit) :
    anyAnswer c u (linkAnswers (.ok ()) c u).1 (linkAnswers (.ok ()) c u).2 := by
  have recorded : ∀ x, (.ok () : Except Exn Unit) = .error x → x.isException := nofun
  exact linkAnswers_any recorded c u

theorem linkedCommit (record : Except Exn Unit) (fails : ∀ x, record = .error x → x.isException) :
    Runs anyAnswer (commitNode linkedState) () ((commitNode linkedState).run (linkAnswers record) ()).1
      (ended (.ok linkedUpdate)) () :=
  runs_run (linkAnswers_any fails) (commitNode linkedState) ()

/-- The edge is created and recorded. -/
theorem enrich_returns_iff_linked :
    ∃ log update, Runs anyAnswer (enrichNode (linkedState.merge linkedUpdate)) () log
        (ended (.ok update)) () ∧
      (linkedState.merge update).committedRelationshipIds = [41] ∧ (∀ e ∈ log, ¬Escapes e) := by
  have run := runs_run linkAnswers_ok (enrichNode (linkedState.merge linkedUpdate)) ()
  obtain ⟨calm, -⟩ := enrich_returns_iff (fun _ _ _ _ answered => answered) _ run
  exact ⟨_, _, run, rfl, calm.mp ⟨_, rfl⟩⟩

/-- The write that records the edge raises, and so does `enrich_node`. -/
theorem enrichment_escapes :
    ¬∀ (S : Type) (H : Handler Call Call.Answer Exn S),
      (∀ c s r s', H c s r s' → Uncancelled ⟨c, r⟩) →
      ∀ (state : AgentState) (committed : Update) (s t u : S) (log log' : CallLog)
        (r : Except Exn Update),
        Runs H (commitNode state) s log (ended (.ok committed)) t →
        Runs H (enrichNode (state.merge committed)) t log' (ended r) u → ∃ update, r = .ok update := by
  intro returns
  have fails : ∀ x, (.error .timeout : Except Exn Unit) = .error x → x.isException := by
    rintro x ⟨⟩
    rfl
  obtain ⟨update, same⟩ := returns Unit anyAnswer (fun _ _ _ _ answered => answered) linkedState
    linkedUpdate () () () _ _ _ (linkedCommit (.error .timeout) fails)
    (runs_run (linkAnswers_any fails) (enrichNode (linkedState.merge linkedUpdate)) ())
  cases same

end Intellivault.Agent
