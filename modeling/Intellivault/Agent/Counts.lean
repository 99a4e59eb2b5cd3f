import Intellivault.Agent.Conservation
import Intellivault.Agent.FailureRecord
import Intellivault.Agent.Drafts
import Intellivault.Agent.Supersteps

/-!
# The counts of a run that succeeded

The lists in the task's state, the arrays in the row and what the graph created agree after
each step of the graph (`Booked`), so the last statement of a run that succeeds writes over
the arrays what they hold already, and counts it.
-/

namespace Intellivault.Agent

open Lib Prog Sql

/-! ## Enrichment goes on with the lists -/

section Enrich

variable {ownerId runId : UUID} {loop : EdgeLoop}

/-- The edges of a loop that returns are booked. -/
def EdgesDone (runId : UUID) (loop : EdgeLoop) (log : CallLog) (r : Except Exn EdgeLoop) : Prop :=
  ∀ loop', r = .ok loop' → (∀ e ∈ log, Recorded runId e) ∧
    ∃ outcomes, EdgesKept loop loop' (tally log) outcomes

theorem EdgesDone.start (runId : UUID) (loop : EdgeLoop) : EdgesDone runId loop [] (.ok loop) := by
  rintro _ ⟨⟩
  exact ⟨List.forall_mem_nil _, [], .none⟩

/-- First these edges, then those. -/
theorem EdgesDone.append {log log' : CallLog} {loop' : EdgeLoop} {r : Except Exn EdgeLoop}
    (first : EdgesDone runId loop log (.ok loop')) (second : EdgesDone runId loop' log' r) :
    EdgesDone runId loop (log ++ log') r := by
  intro loop'' same
  obtain ⟨recorded, outcomes, kept⟩ := first loop' rfl
  obtain ⟨recorded', outcomes', kept'⟩ := second loop'' same
  refine ⟨List.forall_mem_append.mpr ⟨recorded, recorded'⟩, outcomes ++ outcomes', ?_⟩
  rw [tally_append]
  exact kept.append kept'

theorem enrichLinks_logs (entity : DigestEntity) (links : List (String × Kind)) :
    (enrichLinks ownerId runId entity links loop).Logs (fun _ => True) (EdgesDone runId loop) := by
  induction links generalizing loop with
  | nil => exact .start runId loop
  | cons link rest ih =>
      rw [enrichLinks]
      split
      · exact fun _ => of_error_eq_ok
      · refine logs_bind.mpr (commitEdge_logs.mono fun log r done => ?_)
        cases r with
        | error x => exact fun _ => of_error_eq_ok
        | ok loop' =>
            have first : EdgesDone runId loop log (.ok loop') := by
              rintro _ ⟨⟩
              obtain ⟨recorded, outcome, kept, -⟩ := done
              exact ⟨recorded, [outcome], kept⟩
            exact ih.mono fun log' r second => first.append second

theorem enrichEntities_logs (ownIds : List UUID) (entities : List DigestEntity) :
    (enrichEntities ownerId runId ownIds entities loop).Logs (fun _ => True)
      (EdgesDone runId loop) := by
  induction entities generalizing loop with
  | nil => exact .start runId loop
  | cons entity rest ih =>
      refine logs_bind.mpr ((linksFor_calls ownerId entity ownIds).logs.mono fun log r calls => ?_)
      cases r with
      | error x => exact fun _ => of_error_eq_ok
      | ok links =>
          have quiet : EdgesDone runId loop log (.ok loop) := by
            rintro _ ⟨⟩
            obtain ⟨none, recorded⟩ := silent_log runId fun e mem => (calls e mem).1.silent
            exact ⟨recorded, [], by rw [none]; exact .none⟩
          refine logs_bind.mpr ((enrichLinks_logs entity links).mono fun log' r first => ?_)
          cases r with
          | error x => exact fun _ => of_error_eq_ok
          | ok loop' =>
              exact ih.mono fun log'' r second => quiet.append (first.append second)

end Enrich

/-! ## The lists, the row and the graph -/

/-- The state's lists grew by what the graph created, and so did the arrays of the row. -/
structure Booked (runId : UUID) (state state' : AgentState) (log : CallLog) : Prop where
  recorded : ∀ e ∈ log, Recorded runId e
  entityIds : state'.committedEntityIds = state.committedEntityIds ++ (tally log).created.map (·.id)
  edgeIds : state'.committedRelationshipIds = state.committedRelationshipIds ++ (tally log).edges
  entityAppends : (tally log).entityAppends = (tally log).created.map (·.id)
  edgeAppends : (tally log).edgeAppends = (tally log).edges

section Booking

variable {runId : UUID} {a a' b b' c : AgentState} {log log' : CallLog}

theorem Booked.trans (first : Booked runId a b log) (second : Booked runId b c log') :
    Booked runId a c (log ++ log') := by
  constructor
  · exact List.forall_mem_append.mpr ⟨first.recorded, second.recorded⟩
  · simp [second.entityIds, first.entityIds]
  · simp [second.edgeIds, first.edgeIds]
  · simp [first.entityAppends, second.entityAppends]
  · simp [first.edgeAppends, second.edgeAppends]

/-- Calls that create and append nothing, and a state with the same lists. -/
theorem Booked.of_silent (silent : ∀ e ∈ log, e.1.Silent) (same : SameIds b a) :
    Booked runId a b log := by
  obtain ⟨none, recorded⟩ := silent_log runId silent
  constructor
  · exact recorded
  · rw [none, same.1]
    exact (List.append_nil _).symm
  · rw [none, same.2]
    exact (List.append_nil _).symm
  · rw [none]
    rfl
  · rw [none]

theorem Booked.congr (before : SameIds a a') (after : SameIds b b') (booked : Booked runId a b log) :
    Booked runId a' b' log := by
  constructor
  · exact booked.recorded
  · rw [← after.1, ← before.1, booked.entityIds]
  · rw [← after.2, ← before.2, booked.edgeIds]
  · exact booked.entityAppends
  · exact booked.edgeAppends

theorem SameIds.update (same : SameIds a b) (u : Update) : SameIds (a.update u) (b.update u) :=
  ⟨congrArg u.committedEntityIds.getD same.1, congrArg u.committedRelationshipIds.getD same.2⟩

theorem SameIds.trans (first : SameIds a b) (second : SameIds b c) : SameIds a c :=
  ⟨first.1.trans second.1, first.2.trans second.2⟩

theorem sameIds_merge (state : AgentState) (u : Update) : SameIds (state.merge u) (state.update u) :=
  ⟨rfl, rfl⟩

theorem sameIds_noIds {u : Update} (none : u.NoIds) (state : AgentState) :
    SameIds (state.update u) state := by
  simp [SameIds, AgentState.update, none.1, none.2]

end Booking

/-! ## Node by node -/

section Nodes

variable (deps : Deps)

theorem commitNode_booked (state : AgentState) : (commitNode state).Logs (fun _ => True)
    fun log r => ∀ u, r = .ok u → Booked state.runId state (state.update u) log := by
  refine (commitNode_logs state).mono fun log r done => ?_
  rintro u rfl
  obtain ⟨recorded, outcomes, kept⟩ := done
  constructor
  · exact recorded
  · exact congrArg (·.getD state.committedEntityIds) kept.entityIds
  · rw [kept.edges]
    exact congrArg (·.getD state.committedRelationshipIds) kept.edgeIds
  · exact kept.appends.1
  · exact kept.appends.2

theorem enrichNode_booked (state : AgentState) : (enrichNode state).Logs (fun _ => True)
    fun log r => ∀ u, r = .ok u → Booked state.runId state (state.update u) log := by
  unfold enrichNode
  split
  · rintro _ ⟨⟩
    exact .of_silent (List.forall_mem_nil _) ⟨rfl, rfl⟩
  · refine logs_bind.mpr ((enrichEntities_logs _ _).mono fun log r done => ?_)
    cases r with
    | error x => exact fun _ => of_error_eq_ok
    | ok loop =>
        rintro _ ⟨⟩
        obtain ⟨recorded, outcomes, kept⟩ := done loop rfl
        rw [List.append_nil]
        constructor
        · exact recorded
        · rw [kept.entities.1]
          exact (List.append_nil _).symm
        · rw [kept.edges]
          exact kept.committed
        · rw [kept.entities.1, kept.entities.2]
          rfl
        · rw [kept.appends, kept.edges]

theorem runNode_booked (node : Node) (state : AgentState) :
    (runNode deps node state).Logs (fun _ => True)
      fun log r => ∀ u, r = .ok u → Booked state.runId state (state.update u) log := by
  by_cases commits : node.Commits
  · rcases commits with rfl | rfl
    · exact commitNode_booked state
    · exact enrichNode_booked state
  · refine ((research_calls deps commits state).logs.and
      (research_noIds deps state commits).logs).mono fun log r ⟨calls, noIds⟩ u same => ?_
    exact .of_silent (fun e mem => (calls e mem).1.silent) (sameIds_noIds (noIds u same) state)

end Nodes

/-! ## Step by step -/

section Drive

variable (deps : Deps) {runId : UUID} {graphState state : AgentState}

theorem yielded_silent (node : Node) (update : Update) :
    (yielded runId node state update).Calls Call.Silent := by
  refine (calls_call trivial).attempt.bind fun r => ?_
  cases r with
  | error exc => trivial
  | ok _ =>
      exact Calls.bind ⟨trivial, fun _ => trivial⟩ fun _ =>
        (calls_call trivial).attempt.bind fun _ => trivial

theorem yielded_returns (node : Node) (update : Update) :
    (yielded runId node state update).Returns
      fun p => ∀ x, p.2 = .ok x → p.1 = state.update update := by
  refine Returns.bind fun r => ?_
  cases r with
  | error exc => exact fun _ => of_error_eq_ok
  | ok _ => exact Returns.bind fun _ => Returns.bind fun _ _ _ => rfl

/-- What a step of `_drive` leaves if it succeeds. -/
def StepBooked (runId : UUID) (graphState state : AgentState) (log : CallLog)
    (r : Except Exn (AgentState × Except Exn (List Update))) : Prop :=
  ∀ state' updates, r = .ok (state', .ok updates) →
    Booked runId state state' log ∧ SameIds (updates.foldl AgentState.merge graphState) state'

theorem oneNode_booked (node : Node) (same : graphState.runId = runId)
    (ids : SameIds graphState state) :
    (oneNode deps runId node graphState state).Logs (fun _ => True)
      (StepBooked runId graphState state) := by
  subst same
  refine logs_bind.mpr (logs_attempt.mpr ((runNode_booked deps node graphState).mono
    fun log r done => ?_))
  cases r with
  | error exc =>
      rintro state' updates ⟨⟩
  | ok update =>
      refine logs_bind.mpr (((yielded_silent node update).logs.and
        (yielded_returns node update).logs).mono fun log' r ⟨calls, returned⟩ => ?_)
      cases r with
      | error exc => exact fun _ _ => of_error_eq_ok
      | ok p =>
          obtain ⟨state', recorded⟩ := p
          intro state'' updates same
          cases recorded with
          | error exc => cases same
          | ok x =>
              cases same
              obtain rfl : state' = state.update update := returned _ rfl x rfl
              have booked := (done update rfl).congr ids (ids.update update)
              have quiet : Booked graphState.runId (state.update update) (state.update update) log' :=
                .of_silent (fun e mem => (calls e mem).1) ⟨rfl, rfl⟩
              rw [List.append_nil]
              exact ⟨booked.trans quiet, (sameIds_merge graphState update).trans (ids.update update)⟩

theorem branches_silent (topic : String) (docs : List (Nat × FetchedDoc))
    (updates : List (Nat × Update)) :
    (branches topic runId docs state updates).Calls Call.Silent := by
  induction docs generalizing state updates with
  | nil => trivial
  | cons doc rest ih =>
      have analyze : (analyzeOneNode topic doc.2).Calls Call.Silent :=
        (analyzeOneNode_calls topic doc.2).mono fun _ => Call.Research.silent
      refine analyze.attempt.bind fun r => ?_
      cases r with
      | error exc => trivial
      | ok update =>
          refine (yielded_silent .analyzeOne update).bind fun (state, recorded) => ?_
          cases recorded with
          | error exc => trivial
          | ok _ => exact ih _

theorem branches_returns {topic : String} {docs : List (Nat × FetchedDoc)}
    {updates : List (Nat × Update)} (noIds : ∀ p ∈ updates, p.2.NoIds)
    (ids : SameIds graphState state) :
    (branches topic runId docs state updates).Returns fun p => ∀ us, p.2 = .ok us →
      SameIds p.1 state ∧ SameIds (us.foldl AgentState.merge graphState) p.1 := by
  induction docs generalizing state updates with
  | nil =>
      rintro us ⟨⟩
      have sorted : ∀ u ∈ (updates.insertionSort fun a b => a.1 ≤ b.1).map (·.2), u.NoIds := by
        intro u mem
        obtain ⟨p, inside, rfl⟩ := List.mem_map.mp mem
        exact noIds p ((List.mem_insertionSort _).mp inside)
      exact ⟨⟨rfl, rfl⟩, (NoIds_foldl sorted graphState).trans ids⟩
  | cons doc rest ih =>
      have analyzed := analyzeOneNode_noIds topic doc.2
      refine analyzed.attempt.then fun r noIds' => ?_
      cases r with
      | error exc => exact fun _ => of_error_eq_ok
      | ok update =>
          have fresh := noIds' update rfl
          refine (yielded_returns .analyzeOne update).then fun (state', recorded) returned => ?_
          cases recorded with
          | error exc => exact fun _ => of_error_eq_ok
          | ok x =>
              obtain rfl : state' = state.update update := returned x rfl
              have kept := sameIds_noIds fresh state
              refine (ih (List.forall_mem_cons.mpr ⟨fresh, noIds⟩)
                (ids.trans ⟨kept.1.symm, kept.2.symm⟩)).mono fun p rest us same => ?_
              obtain ⟨before, after⟩ := rest us same
              exact ⟨before.trans kept, after⟩

theorem superstep_booked (node : Node) (same : graphState.runId = runId)
    (ids : SameIds graphState state) :
    (superstep deps runId node graphState state).Logs (fun _ => True)
      (StepBooked runId graphState state) := by
  unfold superstep
  split
  · have silent : (analyzeAll runId graphState state).Calls Call.Silent := by
      refine Calls.bind ⟨trivial, fun r => ?_⟩ fun _ => branches_silent _ _ _
      cases r <;> trivial
    have returned : (analyzeAll runId graphState state).Returns fun p => ∀ us, p.2 = .ok us →
        SameIds p.1 state ∧ SameIds (us.foldl AgentState.merge graphState) p.1 :=
      Returns.bind fun order => branches_returns (List.forall_mem_nil _) ids
    refine (silent.logs.and returned.logs).mono fun log r ⟨calls, ended⟩ state' updates same => ?_
    obtain ⟨before, after⟩ := ended _ same updates rfl
    exact ⟨.of_silent (fun e mem => (calls e mem).1) before, after⟩
  · exact oneNode_booked deps node same ids

/-- **The lists stay in step along the graph.** -/
theorem drive_booked (review : Bool) (steps : Nat) (node : Node) (same : graphState.runId = runId)
    (ids : SameIds graphState state) :
    (drive deps review runId steps node graphState state).Logs (fun _ => True)
      fun log r => ∀ state', r = .ok (state', .ok ()) → Booked runId state state' log := by
  refine drive_rule (I := fun past _ graphState' state' =>
      Booked runId state state' past ∧ graphState'.runId = runId ∧ SameIds graphState' state')
    (D := fun past state' => Booked runId state state' past) ?_ steps
    ⟨.of_silent (List.forall_mem_nil _) ⟨rfl, rfl⟩, same, ids⟩
  rintro past node graphState₁ state₁ ⟨before, same, ids⟩
  refine (superstep_booked deps node same ids).mono fun log r done state₂ updates went => ?_
  obtain ⟨booked, ids⟩ := done state₂ updates went
  split
  · exact before.trans booked
  · exact ⟨before.trans booked, (merge_runId updates graphState₁).trans same, ids⟩

theorem commitBody_booked (same : state.runId = runId) : (commitBody state).Logs (fun _ => True)
    fun log r => ∀ state', r = .ok (state', .ok ()) → Booked runId state state' log := by
  subst same
  have mirrored : ∀ (s : AgentState) (u : Update) (r : Except Exn Unit),
      Booked state.runId s s [⟨.mirror u, r⟩] := fun s u r =>
    .of_silent (List.forall_mem_singleton.mpr trivial) ⟨rfl, rfl⟩
  refine (commitBody_rule (commitNode_booked state) fun _ => enrichNode_booked _).mono
    fun log r taken state' went => ?_
  obtain ⟨u, u', log₁, log₂, m₁, m₂, rfl, done, done', rfl⟩ := taken state' went
  have enriched := (done' u' rfl).trans (mirrored _ u' m₂)
  exact (done u rfl).trans ((mirrored _ u m₁).trans enriched)

end Drive

/-! ## The row and the graph, along a run -/

/-- A call that does not overwrite the arrays of the row. -/
def Call.Spares : Call → Prop
  | .sql q =>
      match q with
      | .insertRun _ _ | .markSucceeded _ _ _ _ | .markFailed _ _ _ _ => False
      | _ => True
  | _ => True

theorem Call.Body.spares {c : Call} (h : c.Body false) : c.Spares := by
  cases c with
  | sql q => cases q <;> trivial
  | _ => trivial

/-- The arrays of a row grew by these ids. -/
def Grown (row row' : RunRow) (t : Tally) : Prop :=
  row'.committedEntityIds = row.committedEntityIds ++ t.entityAppends ∧
    row'.committedRelationshipIds = row.committedRelationshipIds ++ t.edgeAppends

theorem grown_none (row : RunRow) : Grown row row {} :=
  ⟨(List.append_nil _).symm, (List.append_nil _).symm⟩

/-- One statement, on the arrays of the row of the run. -/
theorem rewrite_grown {jsonb : Attributes → Attributes} {now : Time} {row : RunRow} {q : Sql}
    (r : Except Exn q.Answer) (spare : (Call.sql q).Spares) :
    Grown row (q.rewrite jsonb now row) (tallyOf ⟨.sql q, r⟩) := by
  cases q with
  | appendCommittedEntity id e => exact ⟨rfl, (List.append_nil _).symm⟩
  | appendCommittedRelationship id e => exact ⟨(List.append_nil _).symm, rfl⟩
  | insertRun _ _ | markSucceeded _ _ _ _ | markFailed _ _ _ _ => exact spare.elim
  | _ => exact grown_none row

/-- One call, on the row of the run. -/
theorem database_grown {jsonb : Attributes → Attributes} {runId : UUID} {row : RunRow} {t : Table}
    {c : Call} {r : Except Exn c.Answer} (answered : database jsonb c (some row) r t)
    (named : row.id = runId) (spare : c.Spares) (recorded : Recorded runId ⟨c, r⟩) :
    ∃ row', t = some row' ∧ row'.id = runId ∧ Grown row row' (tallyOf ⟨c, r⟩) := by
  cases c with
  | sql q =>
      obtain ⟨draw, ran⟩ := answered
      have update : q.runId ≠ none := by
        cases q with
        | insertRun _ _ => exact spare.elim
        | _ => exact nofun
      by_cases appends : ∃ id, q = .appendCommittedEntity runId id ∨
          q = .appendCommittedRelationship runId id
      · have took : t = some (q.rewrite jsonb draw.now row) ∧ q.runId = some runId := by
          obtain ⟨id, rfl | rfl⟩ := appends <;>
          · obtain ⟨-, rfl⟩ := recorded
            obtain ⟨-, rfl⟩ | ⟨⟨_, ⟨⟩⟩, -⟩ := ran
            refine ⟨?_, rfl⟩
            rw [exec_some _ update, named]
            exact congrArg some (if_pos rfl)
        exact ⟨_, took.1, by rw [rewrite_id, named], rewrite_grown r spare⟩
      · have same : tallyOf ⟨.sql q, r⟩ = {} := by
          cases q with
          | appendCommittedEntity id e => exact (appends ⟨e, .inl (by rw [recorded.1])⟩).elim
          | appendCommittedRelationship id e => exact (appends ⟨e, .inr (by rw [recorded.1])⟩).elim
          | _ => rfl
        have executed : ∃ row', (q.exec jsonb draw.newId draw.now (some row)).1 = some row' ∧
            row'.id = runId ∧ Grown row row' (tallyOf ⟨.sql q, r⟩) := by
          refine ⟨_, exec_some q update, ?_⟩
          split
          · exact ⟨by rw [rewrite_id, named], rewrite_grown r spare⟩
          · exact ⟨named, same ▸ grown_none row⟩
        rcases ran with ⟨-, rfl⟩ | ⟨-, rfl | rfl⟩
        · exact executed
        · exact ⟨row, rfl, named, same ▸ grown_none row⟩
        · exact executed
  | graph c =>
      obtain rfl : t = some row := answered
      refine ⟨row, rfl, named, ?_⟩
      cases c <;> cases r <;> exact grown_none row
  | _ =>
      obtain rfl : t = some row := answered
      exact ⟨row, rfl, named, grown_none row⟩

/-- The arrays of the row are appended to. -/
theorem arrays_follow {α : Type} {jsonb : Attributes → Attributes} {runId : UUID}
    {p p' : Coroutine α} {row : RunRow} {t : Table} {log : CallLog}
    (run : Runs (database jsonb) p (some row) log p' t) (named : row.id = runId)
    (spares : ∀ e ∈ log, e.1.Spares) (recorded : ∀ e ∈ log, Recorded runId e) :
    ∃ row', t = some row' ∧ row'.id = runId ∧ Grown row row' (tally log) := by
  generalize before : some row = t₀ at run
  induction run generalizing row with
  | refl => exact ⟨row, before.symm, named, grown_none row⟩
  | step answered _ ih =>
      subst before
      obtain ⟨spare, spares⟩ := List.forall_mem_cons.mp spares
      obtain ⟨done, recorded⟩ := List.forall_mem_cons.mp recorded
      obtain ⟨row₁, rfl, named₁, entities, edges⟩ := database_grown answered named spare done
      obtain ⟨row', same, named', entities', edges'⟩ := ih named₁ spares recorded rfl
      refine ⟨row', same, named', ?_, ?_⟩
      · rw [entities', entities, List.append_assoc]
        rfl
      · rw [edges', edges, List.append_assoc]
        rfl

theorem tally_created (log : CallLog) :
    (tally log).created.map (·.id) = log.flatMap fun e => (tallyOf e).created.map (·.id) := by
  induction log with
  | nil => rfl
  | cons e log ih => rw [tally_cons, tally_append_created, List.map_append, ih, List.flatMap_cons]

theorem tally_edges (log : CallLog) : (tally log).edges = log.flatMap fun e => (tallyOf e).edges := by
  induction log with
  | nil => rfl
  | cons e log ih => rw [tally_cons, tally_append_edges, ih, List.flatMap_cons]

section Fresh

variable {u : UUID} {g g' : Graph} {α : Type} {p p' : Coroutine α} {log : CallLog}

/-- An entity that was created is new. -/
theorem around_creates {c : Call} {r : Except Exn c.Answer} (answered : around u c g r g') :
    ((tallyOf ⟨c, r⟩).created.map (·.id)).Nodup ∧
      ∀ id ∈ (tallyOf ⟨c, r⟩).created.map (·.id), ¬g.Has id ∧ g'.Has id := by
  cases c with
  | graph c =>
      cases c with
      | createEntity ownerId visibility name kind attributes =>
          cases r with
          | error x => exact ⟨List.nodup_nil, List.forall_mem_nil _⟩
          | ok entity =>
              obtain ⟨now, id, fresh, same, rfl⟩ | ⟨⟨_, ⟨⟩⟩, _⟩ := answered
              obtain rfl := Except.ok.inj same
              refine ⟨List.nodup_singleton _, List.forall_mem_singleton.mpr ⟨?_, ?_⟩⟩
              · rintro ⟨e, mem, old⟩
                exact fresh e mem old
              · exact ⟨_, List.mem_append_right _ (List.mem_singleton_self _), rfl⟩
      | _ => cases r <;> exact ⟨List.nodup_nil, List.forall_mem_nil _⟩
  | sql q => cases q <;> exact ⟨List.nodup_nil, List.forall_mem_nil _⟩
  | _ => exact ⟨List.nodup_nil, List.forall_mem_nil _⟩

/-- No entity is created twice. -/
theorem created_nodup (run : Runs (around u) p g log p' g') :
    ((tally log).created.map (·.id)).Nodup := by
  rw [tally_created]
  have lasts : ∀ (c : Call) g (r : Except Exn c.Answer) g' id,
      around u c g r g' → g.Has id → g'.Has id := fun _ _ _ _ _ answered =>
    (around_stands answered).has
  exact (run.fresh lasts fun _ _ _ _ => around_creates).1

/-- There is an edge with the id. -/
def HasEdge (g : Graph) (id : UUID) : Prop := ∃ s ∈ g.relationships, s.id = id

theorem HasEdge.of_append {new : List RelatedTo} {id : UUID} (had : HasEdge g id)
    (same : g'.relationships = g.relationships ++ new) : HasEdge g' id := by
  obtain ⟨s, mem, named⟩ := had
  exact ⟨s, same ▸ List.mem_append_left _ mem, named⟩

/-- A call of the graph service keeps the edges, and adds at most one, with a new id. -/
theorem GraphCall.Effect.edges {c : GraphCall} {r : Except Exn c.Answer}
    (effect : c.Effect g r g') : ∃ new, g'.relationships = g.relationships ++ new ∧
      ∀ id ∈ (tallyOf ⟨.graph c, r⟩).edges, ¬HasEdge g id ∧ ∃ s ∈ new, s.id = id := by
  cases c with
  | createEntity =>
      obtain ⟨now, id, -, rfl, rfl⟩ := effect
      exact ⟨[], (List.append_nil _).symm, List.forall_mem_nil _⟩
  | attachSources =>
      obtain ⟨clock, rfl, rfl⟩ := effect
      refine ⟨[], ?_, List.forall_mem_nil _⟩
      rw [List.append_nil, Service.attachSources]
      split
      · rfl
      · exact Cypher.attachSources_relationships
  | createRelationship ownerId data =>
      obtain ⟨clock, id, fresh, rfl, rfl⟩ := effect
      dsimp only [Service.createRelationship, Cypher.createRelationship]
      split
      · rename_i rel rest rows
        refine ⟨_, rfl, List.forall_mem_singleton.mpr ?_⟩
        have made : rel.id = id := by
          have mem : rel ∈ rel :: rest := List.mem_cons_self
          rw [← rows] at mem
          obtain ⟨p, -, rfl⟩ := List.mem_map.mp mem
          rfl
        constructor
        · rintro ⟨s, mem, old⟩
          exact fresh s mem (old.trans made)
        · exact ⟨rel, rows ▸ List.mem_cons_self, rfl⟩
      · exact ⟨_, rfl, List.forall_mem_nil _⟩
  | setEntityEmbedding =>
      obtain ⟨rfl, rfl⟩ := effect
      exact ⟨[], (List.append_nil _).symm, List.forall_mem_nil _⟩
  | searchEntitiesByVector | listGraph | listVisibleRelationshipsAmong =>
      exact ⟨[], by rw [List.append_nil]; exact congrArg Graph.relationships effect,
        by cases r <;> exact List.forall_mem_nil _⟩

theorem around_edges {c : Call} {r : Except Exn c.Answer} (answered : around u c g r g') :
    ∃ new, g'.relationships = g.relationships ++ new ∧
      ∀ id ∈ (tallyOf ⟨c, r⟩).edges, ¬HasEdge g id ∧ ∃ s ∈ new, s.id = id := by
  have kept : g' = g → (tallyOf ⟨c, r⟩).edges = [] →
      ∃ new, g'.relationships = g.relationships ++ new ∧
        ∀ id ∈ (tallyOf ⟨c, r⟩).edges, ¬HasEdge g id ∧ ∃ s ∈ new, s.id = id := by
    rintro rfl none
    exact ⟨[], (List.append_nil _).symm, none ▸ List.forall_mem_nil _⟩
  cases c with
  | graph c =>
      obtain effect | ⟨⟨_, rfl⟩, same | ⟨_, effect⟩⟩ := answered
      · exact effect.edges
      · exact kept same (by cases c <;> rfl)
      · obtain ⟨new, same, -⟩ := effect.edges
        exact ⟨new, same, by cases c <;> exact List.forall_mem_nil _⟩
  | sql q => cases q <;> first | exact kept answered rfl | exact kept answered.1 rfl
  | _ => exact kept answered rfl

theorem tallyOf_edges_nodup (e : Event Call Call.Answer Exn) : (tallyOf e).edges.Nodup := by
  unfold tallyOf
  split <;> first | exact List.nodup_singleton _ | exact List.nodup_nil

/-- Nor is an edge. -/
theorem edges_nodup (run : Runs (around u) p g log p' g') : (tally log).edges.Nodup := by
  rw [tally_edges]
  have lasts : ∀ (c : Call) g (r : Except Exn c.Answer) g' id,
      around u c g r g' → HasEdge g id → HasEdge g' id := by
    intro c g r g' id answered had
    obtain ⟨new, same, -⟩ := around_edges answered
    exact had.of_append same
  refine (run.fresh lasts fun c g r g' answered => ⟨?_, ?_⟩).1
  · exact tallyOf_edges_nodup ⟨c, r⟩
  · obtain ⟨new, same, given⟩ := around_edges answered
    intro id mem
    obtain ⟨absent, s, added, named⟩ := given id mem
    exact ⟨absent, s, same ▸ List.mem_append_right _ added, named⟩

end Fresh

/-! ## Runs that succeed -/

/-- The graph and the row of the run, side by side. -/
def world (u : UUID) (jsonb : Attributes → Attributes) : Handler Call Call.Answer Exn (Graph × Table) :=
  fun c s r s' => around u c s.1 r s'.1 ∧ database jsonb c s.2 r s'.2

/-- A task that returns ends with `mark_succeeded`, of a state whose lists are booked. -/
def Finishes (runId : UUID) (log : CallLog) (r : Except Exn Unit) : Prop :=
  r = .ok () → ∃ before state₀ state,
    log = before ++ [⟨.sql (.markSucceeded runId (result state) state.committedEntityIds
      state.committedRelationshipIds), .ok ()⟩] ∧
    (∀ e ∈ before, e.1.Spares) ∧ state₀.committedEntityIds = [] ∧
    state₀.committedRelationshipIds = [] ∧ Booked runId state₀ state before

section Tasks

variable {runId : UUID} {α : Type}

theorem finishes_after {p : Coroutine α} {f : α → Coroutine Unit}
    (quiet : p.Calls fun c => c.Silent ∧ c.Spares)
    (rest : ∀ a, (f a).Logs (fun _ => True) (Finishes runId)) :
    (p >>= f).Logs (fun _ => True) (Finishes runId) := by
  refine logs_bind.mpr (quiet.logs.mono fun log r calls => ?_)
  cases r with
  | error x => exact fun failed => nomatch failed
  | ok a =>
      refine (rest a).mono fun log' r finishes returned => ?_
      obtain ⟨before, state₀, state, rfl, spares, entities, edges, booked⟩ := finishes returned
      refine ⟨log ++ before, state₀, state, (List.append_assoc ..).symm, ?_, entities, edges, ?_⟩
      · exact List.forall_mem_append.mpr ⟨fun e mem => (calls e mem).1.2, spares⟩
      · have idle : Booked runId state₀ state₀ log :=
          .of_silent (fun e mem => (calls e mem).1.1) ⟨rfl, rfl⟩
        exact idle.trans booked

theorem guarded_logs {limit : String} {body : Coroutine (AgentState × Except Exn Unit)}
    {done : CallLog → Except Exn (AgentState × Except Exn Unit) → Prop}
    (logs : body.Logs (fun _ => True) done) : (guarded runId limit body).Logs (fun _ => True)
      fun log r => ∀ state, r = .ok state → done log (.ok (state, .ok ())) := by
  refine logs_bind.mpr (logs.mono fun log r h => ?_)
  cases r with
  | error x => exact fun _ => of_error_eq_ok
  | ok p =>
      obtain ⟨state, outcome⟩ := p
      dsimp only
      split
      · rename_i u kept
        rintro _ ⟨⟩
        rw [List.append_nil]
        cases outcome with
        | ok _ => exact h
        | error x => cases x <;> cases kept
      · refine logs_bind.mpr (logs_perform.mpr fun r _ => ?_)
        cases r <;> exact fun _ => of_error_eq_ok

/-- The guarded body of a task, and its last statement. -/
theorem task_finishes {limit : String} {body : Coroutine (AgentState × Except Exn Unit)}
    {state₀ : AgentState} (entities : state₀.committedEntityIds = [])
    (edges : state₀.committedRelationshipIds = []) (calls : body.Calls (Call.Body false))
    (booked : body.Logs (fun _ => True)
      fun log r => ∀ state, r = .ok (state, .ok ()) → Booked runId state₀ state log) :
    (guarded runId limit body >>= finishSucceeded runId).Logs (fun _ => True)
      (Finishes runId) := by
  refine logs_bind.mpr ((guarded_logs (calls.logs.and booked)).mono fun log r done => ?_)
  cases r with
  | error x => exact fun failed => nomatch failed
  | ok state =>
      obtain ⟨calls, booked⟩ := done state rfl
      refine logs_perform.mpr fun r _ => ?_
      rintro rfl
      exact ⟨log, state₀, state, rfl, fun e mem => (calls e mem).1.spares, entities, edges,
        booked state rfl⟩

theorem getRunInternal_idle : (Service.getRunInternal runId).Calls fun c => c.Silent ∧ c.Spares := by
  refine (calls_call ⟨trivial, trivial⟩).bind fun found => ?_
  cases found <;> trivial

theorem load_idle (column : String) (raw : Option α) :
    (Service.load column raw).Calls fun c => c.Silent ∧ c.Spares := by
  cases raw with
  | none => trivial
  | some value => exact (calls_call ⟨trivial, trivial⟩).bind fun _ => trivial

theorem loadParked_idle : (Service.loadParked runId).Calls fun c => c.Silent ∧ c.Spares := by
  refine (calls_call ⟨trivial, trivial⟩).bind fun found => ?_
  cases found with
  | none => trivial
  | some row =>
      exact (load_idle _ _).bind fun _ => (load_idle _ _).bind fun _ =>
        (load_idle _ _).bind fun _ => trivial

/-- The task commits, and then ends the run: `_run_agent` without a review, or
`_commit_agent_run`. -/
def Completes (deps : Deps) (runId : UUID) (task : Coroutine Unit) : Prop :=
  deps.settings.reviewRequired = false ∧ task = runAgent deps runId ∨ task = commitAgentRun deps runId

theorem Completes.finishes {deps : Deps} {task : Coroutine Unit} (commits : Completes deps runId task) :
    task.Logs (fun _ => True) (Finishes runId) := by
  obtain ⟨open', rfl⟩ | rfl := commits
  · refine finishes_after getRunInternal_idle fun row => ?_
    refine finishes_after (calls_call ⟨trivial, trivial⟩) fun _ => ?_
    rw [open']
    have gate : false = true → ¬Node.Commits .plan := fun pending => nomatch pending
    exact task_finishes rfl rfl (drive_calls deps runId _ gate _ _)
      (drive_booked deps false _ .plan rfl ⟨rfl, rfl⟩)
  · refine finishes_after getRunInternal_idle fun row => ?_
    refine finishes_after loadParked_idle fun parked => ?_
    exact task_finishes rfl rfl (commitBody_calls _) (commitBody_booked rfl)

end Tasks

/-- The row of a run that succeeded counts what was created, recorded and appended; `row'` is
the row as its last statement found it. -/
structure Counted (row' row : RunRow) (t : Tally) : Prop where
  status : row.status = .succeeded
  counts : ∃ res, row.result = some res ∧ res.entitiesCreated = row.committedEntityIds.length ∧
    res.relationshipsCreated = row.committedRelationshipIds.length
  entities : row.committedEntityIds = t.created.map (·.id)
  edges : row.committedRelationshipIds = t.edges
  entityArray : row'.committedEntityIds = row.committedEntityIds
  edgeArray : row'.committedRelationshipIds = row.committedRelationshipIds
  entityAppends : t.entityAppends = row.committedEntityIds
  edgeAppends : t.edgeAppends = row.committedRelationshipIds
  distinctEntities : row.committedEntityIds.Nodup
  distinctEdges : row.committedRelationshipIds.Nodup

theorem succeeded_counts {u runId : UUID} {jsonb : Attributes → Attributes} {deps : Deps}
    {task : Coroutine Unit} (commits : Completes deps runId task) {row₀ : RunRow} {g₀ g : Graph}
    {t : Table} {log : CallLog} (named : row₀.id = runId) (noEntities : row₀.committedEntityIds = [])
    (noEdges : row₀.committedRelationshipIds = [])
    (run : Runs (world u jsonb) task (g₀, some row₀) log (ended (.ok ())) (g, t)) :
    ∃ before last q g' row' row, log = before ++ [last] ∧
      Runs (world u jsonb) task (g₀, some row₀) before q (g', some row') ∧
      t = some row ∧ Counted row' row (tally log) := by
  obtain ⟨before, state₀, state, rfl, spares, noIds, noIds', booked⟩ :=
    run.logs (fun _ _ _ _ _ => trivial) commits.finishes rfl
  obtain ⟨q, ⟨g', t'⟩, first, last⟩ := run.cut
  have onTable : Runs (database jsonb) task (some row₀) before q t' :=
    first.through (f := Prod.snd) fun _ _ _ _ answered => answered.2
  have onGraph : Runs (around u) task g₀ before q g' :=
    first.through (f := Prod.fst) fun _ _ _ _ answered => answered.1
  obtain ⟨row', rfl, named', entities, edges⟩ := arrays_follow onTable named spares booked.recorded
  have answered : database jsonb (.sql (.markSucceeded runId (result state) state.committedEntityIds
      state.committedRelationshipIds)) (some row') (.ok ()) t :=
    last.once.2
  obtain ⟨draw, ⟨-, rfl⟩ | ⟨⟨_, ⟨⟩⟩, -⟩⟩ := answered
  refine ⟨before, _, q, g', row', _, rfl, first, update_some named' _, ?_⟩
  have created : (tally before).created.map (·.id) = state.committedEntityIds := by
    rw [booked.entityIds, noIds, List.nil_append]
  have drawn : (tally before).edges = state.committedRelationshipIds := by
    rw [booked.edgeIds, noIds', List.nil_append]
  have quiet : tally (before ++ [⟨.sql (.markSucceeded runId (result state)
      state.committedEntityIds state.committedRelationshipIds), .ok ()⟩]) = tally before := by
    simp [tallyOf]
  rw [quiet]
  constructor
  · rfl
  · exact ⟨result state, rfl, rfl, rfl⟩
  · exact created.symm
  · exact drawn.symm
  · rw [entities, noEntities, booked.entityAppends, created]
    rfl
  · rw [edges, noEdges, booked.edgeAppends, drawn]
    rfl
  · exact booked.entityAppends.trans created
  · exact booked.edgeAppends.trans drawn
  · exact created ▸ created_nodup onGraph
  · exact drawn ▸ edges_nodup onGraph

/-- **A commit conserves.**  However its calls are answered, what `commit_node` returns accounts
for each draft once, and it returns if the graph creates and records.  The row of a run that
succeeds counts what was created. -/
theorem commit_conserved :
    (∀ (S : Type) (H : Handler Call Call.Answer Exn S) (state : AgentState) (s s' : S)
      (log : CallLog) (r : Except Exn Update), Runs H (commitNode state) s log (ended r) s' →
      ((∀ e ∈ log, CommitAnswer e) → ∃ update, r = .ok update) ∧
        ∀ update, r = .ok update → ∃ outcomes, CommitKept state update (tally log) outcomes) ∧
    ∀ (u runId : UUID) (jsonb : Attributes → Attributes) (deps : Deps) (task : Coroutine Unit)
      (row₀ : RunRow) (g₀ g : Graph) (t : Table) (log : CallLog), Completes deps runId task →
      row₀.id = runId → row₀.committedEntityIds = [] → row₀.committedRelationshipIds = [] →
      Runs (world u jsonb) task (g₀, some row₀) log (ended (.ok ())) (g, t) →
      ∃ before last q g' row' row, log = before ++ [last] ∧
        Runs (world u jsonb) task (g₀, some row₀) before q (g', some row') ∧
        t = some row ∧ Counted row' row (tally log) := by
  constructor
  · intro S H state s s' log r run
    have done := run.logs (fun _ _ _ _ _ => trivial) (commitNode_logs state)
    cases r with
    | ok update =>
        refine ⟨fun _ => ⟨update, rfl⟩, ?_⟩
        rintro _ ⟨⟩
        exact done.2
    | error x =>
        obtain ⟨e, mem, unexpected⟩ := done
        exact ⟨fun expected => (unexpected (expected e mem)).elim, fun _ => of_error_eq_ok⟩
  · intro u runId jsonb deps task row₀ g₀ g t log completes named noEntities noEdges run
    exact succeeded_counts completes named noEntities noEdges run

/-! ## A commit with an edge that leads nowhere -/

/-- A new note, a known one, an edge to a note that was not drafted and one between the two. -/
def mixedState : AgentState :=
  { initialState "notes" 1 7 with
    structured := some {
      entities :=
        [{ tempId := "t1", name := .of "draft" (Eq.refl true), kind := .of "text" (Eq.refl true) },
         { tempId := "t2", name := .of "paper" (Eq.refl true), kind := .of "text" (Eq.refl true)
           existingId := some 20 }]
      relationships :=
        [{ fromRef := "t1", toRef := "t3", kind := relatedKind },
         { fromRef := "t1", toRef := "t2", kind := relatedKind }] } }

/-- Calls are answered as a commit expects. -/
def committing : Handler Call Call.Answer Exn Unit := fun c _ r _ => CommitAnswer ⟨c, r⟩

theorem linkAnswers_committing (c : Call) (u : Unit) :
    committing c u (linkAnswers (.ok ()) c u).1 (linkAnswers (.ok ()) c u).2 := by
  have uncancelled := linkAnswers_ok c u
  cases c with
  | graph c =>
      cases c with
      | createEntity => exact ⟨_, rfl⟩
      | createRelationship => exact fun _ same => nomatch same
      | _ => exact uncancelled
  | sql q => cases q <;> first | rfl | exact uncancelled
  | _ => exact uncancelled

/-- The graph takes the parked note of user 1 and its edge; the table works. -/
def countAnswers : (c : Call) → Graph × Table → Except Exn c.Answer × (Graph × Table)
  | .graph c, (g, t) =>
      let (r, g) := parkedAnswers (.graph c) g
      (r, g, t)
  | .sql q, (g, t) =>
      if ∀ row ∈ t, row.userId = 1 then
        let (t, rows) := q.exec id 0 1 t
        (.ok rows, g, t)
      else (.error .timeout, g, t)
  | .load _, s => (.ok (), s)
  | _, s => (.error .timeout, s)

theorem countAnswers_allowed (c : Call) (s : Graph × Table) :
    world 1 id c s (countAnswers c s).1 (countAnswers c s).2 := by
  obtain ⟨g, t⟩ := s
  cases c with
  | graph c => exact ⟨parkedAnswers_allowed (.graph c) g, rfl⟩
  | sql q =>
      rw [countAnswers]
      split
      · rename_i own
        refine ⟨?_, ⟨0, 1⟩, .inl ⟨rfl, rfl⟩⟩
        cases q with
        | getRunInternal runId =>
            refine ⟨rfl, fun row found => own row ?_⟩
            exact (Option.filter_eq_some_iff.mp (Except.ok.inj found)).1
        | _ => rfl
      · refine ⟨?_, {}, .inr ⟨⟨_, rfl⟩, .inl rfl⟩⟩
        cases q with
        | getRunInternal runId => exact ⟨rfl, fun row found => nomatch found⟩
        | _ => rfl
  | _ => exact ⟨rfl, rfl⟩

def countedRun : CallLog × Except Exn Unit × Graph × Table :=
  (commitAgentRun parkedDeps 7).run countAnswers (.twoUsers, some parkedRow)

/-- Of the two edges one is created and one is noted; the row counts the note and its edge. -/
theorem commit_conserved_mixed :
    (∃ log update outcomes, Runs committing (commitNode mixedState) () log (ended (.ok update)) () ∧
      CommitKept mixedState update (tally log) outcomes ∧ outcomes.length = 2 ∧
      outcomeIds outcomes = [41]) ∧
    ∃ row' row, countedRun.2.2.2 = some row ∧ Counted row' row (tally countedRun.1) ∧
      row.committedEntityIds = [40] ∧ row.committedRelationshipIds = [41] := by
  constructor
  · have run := runs_run linkAnswers_committing (commitNode mixedState) ()
    obtain ⟨outcomes, kept⟩ := (commit_conserved.1 _ _ _ _ _ _ _ run).2 _ rfl
    refine ⟨_, _, outcomes, run, kept, kept.about.length_eq.symm, ?_⟩
    exact (List.append_inj_right (Option.some.inj kept.edgeIds) rfl).symm
  · have run := runs_run countAnswers_allowed (commitAgentRun parkedDeps 7) (.twoUsers, some parkedRow)
    obtain ⟨-, -, -, -, row', row, -, -, same, counted⟩ :=
      commit_conserved.2 1 7 id parkedDeps _ parkedRow _ _ _ _ (.inr rfl) rfl rfl rfl run
    refine ⟨row', row, same, counted, ?_, ?_⟩
    · rw [counted.entities]
      rfl
    · rw [counted.edges]
      rfl

end Intellivault.Agent
