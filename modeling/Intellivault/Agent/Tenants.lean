import Intellivault.Agent.Fleet
import Intellivault.Chat.Service

/-!
# Users among each other

Who may touch which run, over all interleavings of the requests of all users and the jobs of
all runs.  The invariant is `Attends`: a process has not made its first call, or it serves
one run, of which a row says that its user owns it; rows keep their owners, so this stays true
whatever the others do.  `fleet_isolated` reads off it what each call may show, write, enqueue
and do in the knowledge graph, and `fleet_private` that a user sees no trace of the others.
-/

namespace Intellivault.Agent

open Lib Prog

/-! ## Owners -/

/-- A row says that the run belongs to the user. -/
def Fleet.Owns (w : Fleet) (userId runId : UUID) : Prop :=
  ∃ row ∈ w.runs.rows, row.id = runId ∧ row.userId = userId

/-- The task is for this run of this user; a job is for the run, whoever that belongs to. -/
def FleetTask.On (runId owner : UUID) : FleetTask → Prop
  | .create userId _ => userId = owner
  | .get userId id | .review userId id _ => userId = owner ∧ id = runId
  | .job j => j.runId = runId

/-- The same run: what no statement changes. -/
structure RunRow.SameRun (row row' : RunRow) : Prop where
  id : row'.id = row.id
  userId : row'.userId = row.userId
  topic : row'.topic = row.topic
  createdAt : row'.createdAt = row.createdAt

theorem Sql.rewrite_same (jsonb : Attributes → Attributes) (now : Time) (q : Sql) (row : RunRow) :
    row.SameRun (q.rewrite jsonb now row) := by
  cases q <;> exact ⟨rfl, rfl, rfl, rfl⟩

section Attends

variable {deps : Deps} {jsonb : Attributes → Attributes} {w w' : Fleet} {u id : UUID}
  {P : UUID → Prop} {q : Sql}

theorem AgentRuns.unique {t : AgentRuns} {row row' : RunRow} (mem : row ∈ t.rows)
    (mem' : row' ∈ t.rows) (same : row.id = row'.id) : row = row' := by
  have found := t.selectId_of_mem mem
  rw [same, t.selectId_of_mem mem'] at found
  exact (Option.some.inj found).symm

/-- What a statement does to the table: nothing, or a new row, or it rewrites one. -/
theorem fleet_rows {r : Except Exn q.Answer} (answer : fleet jsonb (.sql q) w r w') :
    w'.runs.rows = w.runs.rows ∨
      (∃ userId topic id now, q = .insertRun userId topic ∧
        w'.runs.rows = w.runs.rows ++ [Statement.insertRun id now userId topic]) ∨
      ∃ id now, q.runId = some id ∧
        w'.runs.rows = w.runs.rows.map fun r => if id = r.id then q.rewrite jsonb now r else r := by
  obtain ⟨⟨draw, effect⟩, -⟩ := answer
  have executed : w'.runs.rows = w.runs.rows ∨
      w'.runs.rows = (q.execAll jsonb draw.newId draw.now w.runs.rows).1 := by
    rcases effect with ⟨-, done⟩ | ⟨-, kept | done⟩
    · exact .inr done
    · exact .inl (congrArg AgentRuns.rows kept)
    · exact .inr done
  rcases executed with kept | done
  · exact .inl kept
  · cases named : q.runId with
    | none =>
        cases q with
        | insertRun userId topic =>
            exact .inr (.inl ⟨userId, topic, draw.newId, draw.now, rfl, done⟩)
        | _ => cases named
    | some id =>
        rw [Sql.execAll_of named] at done
        exact .inr (.inr ⟨id, draw.now, rfl, done⟩)

/-- Only a statement changes the table. -/
theorem fleet_rows_other {c : Call} {r : Except Exn c.Answer} (answer : fleet jsonb c w r w')
    (other : ∀ q, c ≠ .sql q) : w'.runs = w.runs := by
  cases c with
  | sql q => exact absurd rfl (other q)
  | kiq job => exact answer.1
  | _ => exact congrArg Fleet.runs answer

/-- No row is lost, and none changes hands. -/
theorem fleet_kept {c : Call} {r : Except Exn c.Answer} (answer : fleet jsonb c w r w') :
    ∀ row ∈ w.runs.rows, ∃ row' ∈ w'.runs.rows, row.SameRun row' := by
  intro row mem
  have same : w'.runs.rows = w.runs.rows → ∃ row' ∈ w'.runs.rows, row.SameRun row' :=
    fun kept => ⟨row, kept ▸ mem, rfl, rfl, rfl, rfl⟩
  by_cases statement : ∃ q, c = .sql q
  · obtain ⟨q, rfl⟩ := statement
    rcases fleet_rows answer with kept | ⟨_, _, _, _, -, added⟩ | ⟨id, now, -, rewritten⟩
    · exact same kept
    · exact ⟨row, by rw [added]; exact List.mem_append_left _ mem, rfl, rfl, rfl, rfl⟩
    · refine ⟨_, by rw [rewritten]; exact List.mem_map_of_mem mem, ?_⟩
      split
      · exact Sql.rewrite_same jsonb now q row
      · exact ⟨rfl, rfl, rfl, rfl⟩
  · exact same (congrArg AgentRuns.rows
      (fleet_rows_other answer fun q here => statement ⟨q, here⟩))

theorem Fleet.Owns.next {c : Call} {r : Except Exn c.Answer} (owns : w.Owns u id)
    (answer : fleet jsonb c w r w') : w'.Owns u id := by
  obtain ⟨row, mem, named, owner⟩ := owns
  obtain ⟨row', mem', same⟩ := fleet_kept answer row mem
  exact ⟨row', mem', same.id.trans named, same.userId.trans owner⟩

theorem Fleet.Owns.owner (owns : w.Owns u id) {row : RunRow} (mem : row ∈ w.runs.rows)
    (named : row.id = id) : row.userId = u := by
  obtain ⟨row', mem', named', owner⟩ := owns
  rw [AgentRuns.unique mem mem' (named.trans named'.symm)]
  exact owner

/-! ## What a process may do -/

/-- The process has yet to find out about its run, or it serves one that its user owns; without
an owner (`P` is empty) it has nothing left to do. -/
def Attends (deps : Deps) (w : Fleet) (p : FleetProcess) : Prop :=
  p.past = [] ∧ p.rest = p.kind.body deps ∨
    ∃ id P, (∀ u, P u → w.Owns u id ∧ p.kind.On id u) ∧ Serves id P (fun _ => True) p.rest

/-- The rows a statement about a run returns are of that run, and tell its owner. -/
theorem read_answer {r : Except Exn q.Answer} (named : q.runId = some id)
    (answer : fleet jsonb (.sql q) w r w') :
    ∃ P, (∀ u, P u → w'.Owns u id ∧ ∃ a, r = .ok a ∧ ∃ row ∈ q.rows a, row.userId = u) ∧
      Returned id P ⟨.sql q, r⟩ := by
  have theirs : Returned id (w.Owns · id) ⟨.sql q, r⟩ := by
    obtain ⟨⟨draw, answered | ⟨⟨exc, raised⟩, -⟩⟩, -⟩ := answer
    · rw [answered.1]
      intro row returned
      rw [Sql.execAll_of named] at returned
      obtain ⟨before, found, same, owner⟩ := Sql.rows_exec named
        (fun row found => (Sql.selectId_id found).2) returned
      obtain ⟨mem, here⟩ := Sql.selectId_id found
      exact ⟨same, before, mem, here, owner.symm⟩
    · rw [raised]
      trivial
  refine ⟨fun u => w.Owns u id ∧ ∃ a, r = .ok a ∧ ∃ row ∈ q.rows a, row.userId = u,
    fun u ⟨owns, told⟩ => ⟨owns.next answer, told⟩, ?_⟩
  cases r with
  | error exc => trivial
  | ok a =>
      intro row returned
      obtain ⟨same, owns⟩ := theirs row returned
      exact ⟨same, owns, a, rfl, row, returned, rfl⟩

theorem getRun_user {r : Except Exn (Option RunRow)} {a : Option RunRow} {row : RunRow}
    (answer : fleet jsonb (.sql (.getRun id u)) w r w') (ok : r = .ok a) (returned : row ∈ a) :
    row.userId = u := by
  obtain ⟨⟨draw, answered | ⟨⟨exc, raised⟩, -⟩⟩, -⟩ := answer
  · have same : a = ((Sql.getRun id u).execAll jsonb draw.newId draw.now w.runs.rows).2 :=
      Except.ok.inj (ok.symm.trans answered.1)
    rw [Sql.execAll_of rfl] at same
    rw [same] at returned
    exact of_decide_eq_true (Option.filter_eq_some_iff.mp returned).2
  · cases ok.symm.trans raised

theorem create_answer {topic : String} {r : Except Exn RunRow}
    (answer : fleet jsonb (.sql (.insertRun u topic)) w r w') :
    ∃ id P, (∀ v, P v → w'.Owns v id ∧ u = v) ∧
      Returned id P ⟨.sql (.insertRun u topic), r⟩ := by
  obtain ⟨⟨draw, ⟨ok, rows⟩ | ⟨⟨exc, raised⟩, -⟩⟩, -⟩ := answer
  · have new : Statement.insertRun draw.newId draw.now u topic ∈ w'.runs.rows := by
      rw [rows]
      exact List.mem_append_right _ List.mem_cons_self
    refine ⟨draw.newId, fun v => u = v, fun v same => ⟨⟨_, new, rfl, same⟩, same⟩, ?_⟩
    rw [ok]
    intro row mem
    rw [List.mem_singleton.mp mem]
    exact ⟨rfl, rfl⟩
  · refine ⟨0, fun _ => False, fun _ absurd => absurd.elim, ?_⟩
    rw [raised]
    trivial

/-- Whom the first answer is about. -/
theorem first_answer {task : FleetTask} {r : Except Exn task.first.Answer}
    (answer : fleet jsonb task.first w r w') :
    ∃ id P, task.Runs id ∧ (∀ u, P u → w'.Owns u id ∧ task.On id u) ∧
      Returned id P ⟨task.first, r⟩ := by
  cases task with
  | create userId topic =>
      obtain ⟨id, P, owners, returned⟩ := create_answer answer
      exact ⟨id, P, trivial, owners, returned⟩
  | get userId id =>
      obtain ⟨P, owners, returned⟩ := read_answer rfl answer
      refine ⟨id, P, rfl, fun u inside => ?_, returned⟩
      obtain ⟨owns, a, ok, row, mem, same⟩ := owners u inside
      exact ⟨owns, (getRun_user answer ok (Option.mem_toList.mp mem)).symm.trans same, rfl⟩
  | review userId id data =>
      obtain ⟨P, owners, returned⟩ := read_answer rfl answer
      refine ⟨id, P, rfl, fun u inside => ?_, returned⟩
      obtain ⟨owns, a, ok, row, mem, same⟩ := owners u inside
      exact ⟨owns, (getRun_user answer ok (Option.mem_toList.mp mem)).symm.trans same, rfl⟩
  | job job =>
      obtain ⟨P, owners, returned⟩ := read_answer rfl answer
      exact ⟨job.runId, P, rfl, fun u inside => ⟨(owners u inside).1, rfl⟩, returned⟩

theorem FleetTask.runs_some (k : FleetTask) : ∃ id, k.Runs id := by
  cases k with
  | create _ _ => exact ⟨0, trivial⟩
  | get _ id | review _ id _ => exact ⟨id, rfl⟩
  | job j => exact ⟨j.runId, rfl⟩

theorem first_call {k : FleetTask} {c : Call} {f : Except Exn c.Answer → Coroutine Unit}
    (fresh : Prog.call c f = k.body deps) : c = k.first := by
  obtain ⟨id, about⟩ := k.runs_some
  have opens := body_opens (P := anyone) deps about
  rw [← fresh] at opens
  exact opens.1

/-- What the next call of a process is: the first one of its kind, or one for a run its user
owns. -/
theorem Attends.call {k : FleetTask} {past : List (Event Call Call.Answer Exn)} {c : Call}
    {f : Except Exn c.Answer → Coroutine Unit} (attends : Attends deps w ⟨k, past, .call c f⟩) :
    c = k.first ∨ ∃ id P, (∀ u, P u → w.Owns u id ∧ k.On id u) ∧ c.For id P := by
  rcases attends with ⟨-, fresh⟩ | ⟨id, P, owners, serves⟩
  · exact .inl (first_call fresh)
  · exact .inr ⟨id, P, owners, serves.1⟩

/-- After a call the process knows whose run it is, if it did not before. -/
theorem Attends.answered {k : FleetTask} {past : List (Event Call Call.Answer Exn)} {c : Call}
    {f : Except Exn c.Answer → Coroutine Unit} {r : Except Exn c.Answer}
    (attends : Attends deps w ⟨k, past, .call c f⟩) (answer : fleet jsonb c w r w') :
    ∃ id P, (∀ u, P u → w'.Owns u id ∧ k.On id u) ∧ Returned id P ⟨c, r⟩ ∧
      Serves id P (fun _ => True) (f r) := by
  rcases attends with ⟨-, fresh⟩ | ⟨id, P, owners, serves⟩
  · have fresh : Prog.call c f = k.body deps := fresh
    obtain rfl := first_call fresh
    obtain ⟨id, P, about, owners, returned⟩ := first_answer answer
    have opens := body_opens (P := P) deps about
    rw [← fresh] at opens
    exact ⟨id, P, owners, returned, opens.2 r returned⟩
  · have returned : Returned id P ⟨c, r⟩ := by
      refine fleet_returned answer serves.1 fun ⟨u, inside⟩ row mem named => ?_
      obtain ⟨owns, -⟩ := owners u inside
      rw [owns.owner mem named]
      exact inside
    refine ⟨id, P, fun u inside => ?_, returned, serves.2 r returned⟩
    obtain ⟨owns, on⟩ := owners u inside
    exact ⟨owns.next answer, on⟩

theorem Attends.next {k : FleetTask} {past : List (Event Call Call.Answer Exn)} {c : Call}
    {f : Except Exn c.Answer → Coroutine Unit} {r : Except Exn c.Answer}
    (attends : Attends deps w ⟨k, past, .call c f⟩) (answer : fleet jsonb c w r w') :
    Attends deps w' ⟨k, past ++ [⟨c, r⟩], f r⟩ := by
  obtain ⟨id, P, owners, -, serves⟩ := attends.answered answer
  exact .inr ⟨id, P, owners, serves⟩

theorem Attends.later {p : FleetProcess} {c : Call} {r : Except Exn c.Answer}
    (attends : Attends deps w p) (answer : fleet jsonb c w r w') : Attends deps w' p := by
  rcases attends with fresh | ⟨id, P, owners, serves⟩
  · exact .inl fresh
  · refine .inr ⟨id, P, fun u inside => ?_, serves⟩
    obtain ⟨owns, on⟩ := owners u inside
    exact ⟨owns.next answer, on⟩

end Attends

/-! ## The invariant -/

/-- Every process attends to its own, and every job is for a run there is. -/
structure Attended (deps : Deps) (pool : FleetPool) : Prop where
  processes : ∀ p ∈ pool.processes, Attends deps pool.world p
  queue : ∀ job ∈ pool.world.queue, ∃ u, pool.world.Owns u job.runId

section Runs

variable {deps : Deps} {jsonb : Attributes → Attributes} {pool pool' : FleetPool}
  {a : Action FleetTask Call Call.Answer Exn} {tr : List FleetTransition}

theorem Attended.empty : Attended deps .empty := ⟨List.forall_mem_nil _, List.forall_mem_nil _⟩

/-- A job is new in the queue because a task has sent it. -/
theorem fleet_queue {w w' : Fleet} {c : Call} {r : Except Exn c.Answer}
    (answer : fleet jsonb c w r w') : ∀ job ∈ w'.queue,
      job ∈ w.queue ∨ (⟨c, r⟩ : Event Call Call.Answer Exn) = ⟨.kiq job, .ok ()⟩ := by
  intro job mem
  cases c with
  | kiq job' =>
      obtain ⟨-, queue⟩ := answer
      rw [queue] at mem
      rcases List.mem_append.mp mem with old | new
      · exact .inl old
      · cases r with
        | error exc => cases new
        | ok _ =>
            obtain rfl := List.mem_singleton.mp new
            exact .inr rfl
  | sql q =>
      rw [answer.2] at mem
      exact .inl mem
  | _ =>
      have same : w' = w := answer
      rw [same] at mem
      exact .inl mem

/-- A job is sent for a run that its sender's user owns. -/
theorem Attends.enqueues {w : Fleet} {k : FleetTask} {past : List (Event Call Call.Answer Exn)}
    {job : Job} {f : Except Exn Unit → Coroutine Unit}
    (attends : Attends deps w ⟨k, past, .call (.kiq job) f⟩) :
    ∃ u, w.Owns u job.runId ∧ k.On job.runId u := by
  rcases attends.call with first | ⟨id, P, owners, about, u, inside⟩
  · cases k <;> cases first
  · obtain rfl : job.runId = id := about
    exact ⟨u, owners u inside⟩

theorem arrives_kept {w w' : Fleet} {k : FleetTask} (spawned : arrivesFleet w k w') :
    w'.runs = w.runs ∧ ∀ job ∈ w'.queue, job ∈ w.queue := by
  cases k with
  | job job =>
      obtain ⟨before, after, queue, rfl⟩ := spawned
      refine ⟨rfl, fun job' mem => ?_⟩
      rw [queue]
      rcases List.mem_append.mp mem with first | last
      · exact List.mem_append_left _ first
      · exact List.mem_append_right _ (List.mem_cons_of_mem _ last)
  | _ =>
      have same : w' = w := spawned
      rw [same]
      exact ⟨rfl, fun _ mem => mem⟩

theorem Attended.next (attended : Attended deps pool) (step : FleetStep deps jsonb pool a pool') :
    Attended deps pool' := by
  cases step with
  | @start w w' ps k spawned =>
      have fresh : Attends deps w' ⟨k, [], k.body deps⟩ := .inl ⟨rfl, rfl⟩
      have kept := arrives_kept spawned
      refine ⟨fun p mem => ?_, fun job mem => ?_⟩
      · rcases List.mem_append.mp mem with old | new
        · have before := attended.processes p old
          simp only [Attends, Fleet.Owns, kept.1] at before ⊢
          exact before
        · rw [List.mem_singleton.mp new]
          exact fresh
      · have before := attended.queue job (kept.2 job mem)
        simp only [Fleet.Owns, kept.1] at before ⊢
        exact before
  | @call w w' before after k past c f r answer =>
      have here := attended.processes ⟨k, past, .call c f⟩ (List.mem_append_right _ List.mem_cons_self)
      refine ⟨fun p mem => ?_, fun job mem => ?_⟩
      · rcases List.mem_append.mp mem with old | new
        · exact (attended.processes p (List.mem_append_left _ old)).later answer
        · rcases List.mem_cons.mp new with rfl | old
          · exact here.next answer
          · exact (attended.processes p
              (List.mem_append_right _ (List.mem_cons_of_mem _ old))).later answer
      · rcases fleet_queue answer job mem with old | sent
        · obtain ⟨u, owns⟩ := attended.queue job old
          exact ⟨u, owns.next answer⟩
        · cases sent
          obtain ⟨u, owns, -⟩ := here.enqueues
          exact ⟨u, owns.next answer⟩

/-! ## Isolation -/

/-- What one step of the fleet keeps to. -/
structure Isolated (x : FleetTransition) : Prop where
  /-- No run is deleted, renamed or given to another user. -/
  kept : ∀ row ∈ x.source.world.runs.rows, ∃ row' ∈ x.target.world.runs.rows, row.SameRun row'
  /-- A row that changes is written by a review of its owner or by its own job. -/
  written : ∀ row ∈ x.source.world.runs.rows, row ∉ x.target.world.runs.rows →
    ∃ k past e, x.label = .call k past e ∧ k.On row.id row.userId
  /-- A new row is that of the user who asked for it. -/
  created : ∀ row ∈ x.target.world.runs.rows,
    (∀ old ∈ x.source.world.runs.rows, old.id ≠ row.id) →
      ∃ topic past e, x.label = .call (.create row.userId topic) past e ∧ row.topic = topic.val
  /-- A statement shows a process only the rows of its own run and user. -/
  shown : ∀ k past (q : Sql) (answer : q.Answer), x.label = .call k past ⟨.sql q, .ok answer⟩ →
    ∀ row ∈ q.rows answer, k.On row.id row.userId
  /-- A job is sent for the run of the user who asks for it. -/
  enqueued : ∀ k past job r, x.label = .call k past ⟨.kiq job, r⟩ →
    ∃ u, x.source.world.Owns u job.runId ∧ k.On job.runId u
  /-- A job is in the queue because it was sent. -/
  queued : ∀ job ∈ x.target.world.queue, job ∉ x.source.world.queue →
    ∃ k past, x.label = .call k past ⟨.kiq job, .ok ()⟩
  /-- The knowledge graph is used on behalf of the owner of the run only. -/
  graph : ∀ k past (c : GraphCall) (r : Except Exn c.Answer), x.label = .call k past ⟨.graph c, r⟩ →
    ∃ runId, x.source.world.Owns c.ownerId runId ∧ k.On runId c.ownerId

section Step

variable {w w' : Fleet} {k : FleetTask} {past : List (Event Call Call.Answer Exn)} {c : Call}
  {f : Except Exn c.Answer → Coroutine Unit} {r : Except Exn c.Answer}

/-- A row that a call changes is that of the caller's run. -/
theorem Attends.written (attends : Attends deps w ⟨k, past, .call c f⟩)
    (answer : fleet jsonb c w r w') {row : RunRow} (mem : row ∈ w.runs.rows)
    (changed : row ∉ w'.runs.rows) : k.On row.id row.userId := by
  by_cases statement : ∃ q, c = .sql q
  · obtain ⟨q, rfl⟩ := statement
    rcases fleet_rows answer with kept | ⟨_, _, _, _, -, added⟩ | ⟨id, now, named, rewritten⟩
    · exact absurd (kept ▸ mem) changed
    · rw [added] at changed
      exact absurd (List.mem_append_left _ mem) changed
    · have image : (if id = row.id then q.rewrite jsonb now row else row) ∈ w'.runs.rows := by
        rw [rewritten]
        exact List.mem_map_of_mem mem
      by_cases here : id = row.id
      · rw [if_pos here] at image
        rcases attends.call with first | ⟨id', P, owners, about, u, inside⟩
        · cases k with
          | create _ _ =>
              cases first
              cases named
          | get _ _ | review _ _ _ | job _ =>
              cases first
              exact absurd image changed
        · cases named.symm.trans about
          obtain ⟨owns, on⟩ := owners u inside
          rw [owns.owner mem here.symm, ← here]
          exact on
      · rw [if_neg here] at image
        exact absurd image changed
  · rw [fleet_rows_other answer fun q here => statement ⟨q, here⟩] at changed
    exact absurd mem changed

/-- A row that a call adds is that of the run its caller was asked to create. -/
theorem Attends.created (attends : Attends deps w ⟨k, past, .call c f⟩)
    (answer : fleet jsonb c w r w') {row : RunRow} (mem : row ∈ w'.runs.rows)
    (new : ∀ old ∈ w.runs.rows, old.id ≠ row.id) :
    ∃ topic, k = .create row.userId topic ∧ row.topic = topic.val := by
  by_cases statement : ∃ q, c = .sql q
  · obtain ⟨q, rfl⟩ := statement
    rcases fleet_rows answer with kept | ⟨u, topic, _, _, insert, added⟩ | ⟨id, now, -, rewritten⟩
    · rw [kept] at mem
      exact absurd rfl (new row mem)
    · rw [added] at mem
      rcases List.mem_append.mp mem with old | last
      · exact absurd rfl (new row old)
      · obtain rfl := List.mem_singleton.mp last
        rcases attends.call with first | ⟨_, _, _, about, _⟩
        · rw [insert] at first
          cases k with
          | create _ topic =>
              cases first
              exact ⟨topic, rfl, rfl⟩
          | get _ _ | review _ _ _ | job _ => cases first
        · rw [insert] at about
          cases about
    · rw [rewritten] at mem
      obtain ⟨old, inside, rfl⟩ := List.mem_map.mp mem
      exact absurd (Sql.id_rewrite old).symm (new old inside)
  · rw [fleet_rows_other answer fun q here => statement ⟨q, here⟩] at mem
    exact absurd rfl (new row mem)

theorem Attends.isolated {ps ps' : List FleetProcess}
    (attends : Attends deps w ⟨k, past, .call c f⟩) (answer : fleet jsonb c w r w') :
    Isolated ⟨⟨w, ps⟩, .call k past ⟨c, r⟩, ⟨w', ps'⟩⟩ where
  kept := fleet_kept answer
  written row mem changed := ⟨k, past, _, rfl, attends.written answer mem changed⟩
  created row mem new := by
    obtain ⟨topic, rfl, same⟩ := attends.created answer mem new
    exact ⟨topic, past, _, rfl, same⟩
  shown k' past' q a label row mem := by
    cases label
    obtain ⟨id, P, owners, returned, -⟩ := attends.answered answer
    obtain ⟨rfl, inside⟩ := returned row mem
    exact (owners _ inside).2
  enqueued k' past' job r' label := by
    cases label
    exact attends.enqueues
  queued job mem new := by
    rcases fleet_queue answer job mem with old | sent
    · exact absurd old new
    · exact ⟨k, past, by rw [sent]⟩
  graph k' past' c' r' label := by
    cases label
    rcases attends.call with first | ⟨id, P, owners, inside⟩
    · cases k <;> cases first
    · exact ⟨id, owners _ inside.1⟩

end Step

/-- A task that starts touches no run. -/
theorem isolated_start {w w' : Fleet} {ps ps' : List FleetProcess} {k : FleetTask}
    (spawned : arrivesFleet w k w') : Isolated ⟨⟨w, ps⟩, .start k, ⟨w', ps'⟩⟩ where
  kept row mem := ⟨row, (arrives_kept spawned).1 ▸ mem, rfl, rfl, rfl, rfl⟩
  written row mem changed := absurd ((arrives_kept spawned).1 ▸ mem) changed
  created row mem new := by
    rw [(arrives_kept spawned).1] at mem
    exact absurd rfl (new row mem)
  shown _ _ _ _ label := by cases label
  enqueued _ _ _ _ label := by cases label
  queued job mem new := absurd ((arrives_kept spawned).2 job mem) new
  graph _ _ _ _ label := by cases label

/-- **Users are isolated from each other.**  In every interleaving of the requests of all users
with the jobs of all runs no run changes hands, each row is read and written by its owner's
requests and its own job only, jobs are enqueued by the owner of their run, and a job uses the
knowledge graph on behalf of that owner. -/
theorem fleet_isolated (history : History (FleetStep deps jsonb) FleetPool.empty tr pool) :
    ∀ x ∈ tr, Isolated x := by
  have each : ∀ x ∈ tr, (fun _ => True) x := fun _ _ => trivial
  have start : Attended deps FleetPool.empty := .empty
  have visits := history.visits each start fun _ _ _ inv _ step => inv.next step
  intro x mem
  obtain ⟨attended, step, -⟩ := visits x mem
  obtain ⟨source, label, target⟩ := x
  cases step with
  | start spawned => exact isolated_start spawned
  | call answer =>
      exact (attended.processes _ (List.mem_append_right _ List.mem_cons_self)).isolated answer

theorem fleet_isolated_two : ∃ (tr : List FleetTransition) (pool : FleetPool),
    History (FleetStep quietDeps id) FleetPool.empty tr pool ∧
      pool.world.runs.rows.map (fun row => (row.id, row.userId)) = [(8, 2), (7, 1)] ∧
      ∀ x ∈ tr, Isolated x := by
  have owned : (FleetPool.play quietDeps (fun _ => true) twoRuns).map (fun pool =>
      pool.world.runs.rows.map fun row => (row.id, row.userId)) = some [(8, 2), (7, 1)] := by decide
  obtain ⟨pool, played, rows⟩ := Option.map_eq_some_iff.mp owned
  obtain ⟨tr, history, -⟩ := FleetPool.play_history played
  exact ⟨tr, pool, history, rows, fleet_isolated history⟩

/-! ## What a user sees -/

/-- The step is taken by a request of the user or by a job of one of the user's runs. -/
def FleetTask.By (w : Fleet) (u : UUID) : FleetTask → Prop
  | .create v _ | .get v _ | .review v _ _ => v = u
  | .job j => w.Owns u j.runId

instance (w : Fleet) (u : UUID) (k : FleetTask) : Decidable (k.By w u) :=
  match k with
  | .create v _ | .get v _ | .review v _ _ => inferInstanceAs (Decidable (v = u))
  | .job j => inferInstanceAs (Decidable (∃ row ∈ w.runs.rows, row.id = j.runId ∧ row.userId = u))

def ForUser (u : UUID) (x : FleetTransition) : Prop :=
  match x.label with
  | .start _ => False
  | .call k _ _ => k.By x.source.world u

instance (u : UUID) (x : FleetTransition) : Decidable (ForUser u x) :=
  match x with
  | ⟨_, .start _, _⟩ => isFalse not_false
  | ⟨s, .call k _ _, _⟩ => inferInstanceAs (Decidable (k.By s.world u))

/-- `_summary`. -/
def summary (row : RunRow) : Chat.AgentRunSummary :=
  { id := row.id, topic := row.topic, status := row.status, createdAt := row.createdAt
    updatedAt := row.updatedAt }

/-- What `list_runs` may answer: the user's rows, newest first.  Rows of one instant come in
whatever order the database likes. -/
def AgentRuns.Lists (t : AgentRuns) (userId : UUID) (answer : List Chat.AgentRunSummary) : Prop :=
  answer.Perm ((t.rows.filter fun r => r.userId = userId).map summary) ∧
    answer.Pairwise fun a b => b.createdAt ≤ a.createdAt

theorem filter_map_of_fixed {rows : List RunRow} {g : RunRow → RunRow} {u : UUID}
    (owner : ∀ r ∈ rows, (g r).userId = r.userId) (fixed : ∀ r ∈ rows, r.userId = u → g r = r) :
    ((rows.map g).filter fun r => r.userId = u) = rows.filter fun r => r.userId = u := by
  induction rows with
  | nil => rfl
  | cons row rest ih =>
      rw [List.forall_mem_cons] at owner fixed
      have later := ih owner.2 fixed.2
      by_cases mine : row.userId = u
      · rw [List.map_cons, fixed.1 mine, List.filter_cons_of_pos (by simpa using mine),
          List.filter_cons_of_pos (by simpa using mine), later]
      · rw [List.map_cons, List.filter_cons_of_neg (by simpa [owner.1] using mine),
          List.filter_cons_of_neg (by simpa using mine), later]

/-- A call of somebody else leaves the rows of a user alone. -/
theorem Attends.unseen {w w' : Fleet} {k : FleetTask} {past : List (Event Call Call.Answer Exn)}
    {c : Call} {f : Except Exn c.Answer → Coroutine Unit} {r : Except Exn c.Answer} {u : UUID}
    (attends : Attends deps w ⟨k, past, .call c f⟩) (answer : fleet jsonb c w r w')
    (other : ¬k.By w u) :
    (w'.runs.rows.filter fun r => r.userId = u) = w.runs.rows.filter fun r => r.userId = u := by
  by_cases statement : ∃ q, c = .sql q
  · obtain ⟨q, rfl⟩ := statement
    rcases fleet_rows answer with kept | ⟨v, topic, id, now, insert, added⟩ | ⟨id, now, named, rewritten⟩
    · rw [kept]
    · have theirs : v ≠ u := by
        rcases attends.call with first | ⟨_, _, _, about, _⟩
        · rw [insert] at first
          cases k with
          | create _ _ =>
              cases first
              exact other
          | get _ _ | review _ _ _ | job _ => cases first
        · rw [insert] at about
          cases about
      have dropped : ¬(Statement.insertRun id now v topic).userId = u := theirs
      rw [added, List.filter_append, List.filter_cons_of_neg (by simpa using dropped)]
      exact List.append_nil _
    · rw [rewritten]
      refine filter_map_of_fixed (fun row _ => ?_) fun row mem mine => ?_
      · split
        · exact (Sql.rewrite_same jsonb now q row).userId
        · rfl
      · by_cases here : id = row.id
        · rw [if_pos here]
          rcases attends.call with first | ⟨id', P, owners, about, v, inside⟩
          · cases k with
            | create _ _ =>
                cases first
                cases named
            | get _ _ | review _ _ _ | job _ =>
                cases first
                rfl
          · cases named.symm.trans about
            obtain ⟨owns, on⟩ := owners v inside
            have same : u = v := mine.symm.trans (owns.owner mem here.symm)
            subst same
            refine absurd ?_ other
            cases k with
            | create _ _ => exact on
            | get _ _ => exact on.1
            | review _ _ _ => exact on.1
            | job j =>
                obtain rfl : j.runId = id := on
                exact owns
        · rw [if_neg here]
  · rw [fleet_rows_other answer fun q here => statement ⟨q, here⟩]

/-- What `get_run` finds is among the user's rows. -/
theorem AgentRuns.getRun_filter (t : AgentRuns) (u runId : UUID) :
    ((Sql.selectId t.rows runId).filter fun r => r.userId = u) =
      (t.rows.filter fun r => r.userId = u).find? fun r => r.id = runId := by
  refine Option.ext fun row => ?_
  rw [Option.filter_eq_some_iff]
  constructor
  · rintro ⟨found, mine⟩
    obtain ⟨mem, named⟩ := Sql.selectId_id found
    have inside : row ∈ t.rows.filter fun r => r.userId = u := List.mem_filter.mpr ⟨mem, mine⟩
    cases other : (t.rows.filter fun r => r.userId = u).find? fun r => r.id = runId with
    | none =>
        have absent := List.find?_eq_none.mp other row inside
        exact absurd (decide_eq_true named) absent
    | some row' =>
        have named' : row'.id = runId := by simpa using List.find?_some other
        have mem' := (List.mem_filter.mp (List.mem_of_find?_eq_some other)).1
        rw [AgentRuns.unique mem' mem (named'.trans named.symm)]
  · intro found
    obtain ⟨mem, mine⟩ := List.mem_filter.mp (List.mem_of_find?_eq_some found)
    have named : row.id = runId := by simpa using List.find?_some found
    exact ⟨named ▸ t.selectId_of_mem mem, mine⟩

/-- **A user sees no trace of the others.**  From any moment on, as long as no request of a user
and no job of the user's runs makes a call, `list_runs` and `get_run` answer that user as they
did before, whatever everybody else does. -/
theorem fleet_private {u : UUID} {before rest : List FleetTransition} {later : FleetPool}
    (history : History (FleetStep deps jsonb) FleetPool.empty before pool)
    (others : History (FleetStep deps jsonb) pool rest later) (quiet : ∀ x ∈ rest, ¬ForUser u x) :
    (∀ answer, later.world.runs.Lists u answer ↔ pool.world.runs.Lists u answer) ∧
      ∀ runId newId now,
        ((Sql.getRun runId u).execAll jsonb newId now later.world.runs.rows).2 =
          ((Sql.getRun runId u).execAll jsonb newId now pool.world.runs.rows).2 := by
  have each : ∀ x ∈ before, (fun _ => True) x := fun _ _ => trivial
  have start : Attended deps FleetPool.empty := .empty
  have attended := history.invariant each start fun _ _ _ inv _ step => inv.next step
  let inv (s : FleetPool) : Prop := Attended deps s ∧
    (s.world.runs.rows.filter fun r => r.userId = u) =
      pool.world.runs.rows.filter fun r => r.userId = u
  have now : inv pool := ⟨attended, rfl⟩
  have keep : ∀ s l t, inv s → ¬ForUser u ⟨s, l, t⟩ → FleetStep deps jsonb s l t → inv t := by
    intro s label t ⟨attended, same⟩ other step
    refine ⟨attended.next step, Eq.trans ?_ same⟩
    cases step with
    | start spawned => rw [(arrives_kept spawned).1]
    | call answer =>
        exact (attended.processes _ (List.mem_append_right _ List.mem_cons_self)).unseen answer other
  have kept : inv later := others.invariant quiet now keep
  have same : (later.world.runs.rows.filter fun r => r.userId = u) =
      pool.world.runs.rows.filter fun r => r.userId = u := kept.2
  refine ⟨fun answer => ?_, fun runId newId now => ?_⟩
  · rw [AgentRuns.Lists, AgentRuns.Lists, same]
  · have found : ∀ t : AgentRuns, ((Sql.getRun runId u).execAll jsonb newId now t.rows).2 =
        (t.rows.filter fun r => r.userId = u).find? fun r => r.id = runId := by
      intro t
      rw [Sql.execAll_of rfl, ← t.getRun_filter]
      have named : (Sql.selectId t.rows runId).filter (fun r => r.id = runId) =
          Sql.selectId t.rows runId := by
        cases found : Sql.selectId t.rows runId with
        | none => rfl
        | some row => exact if_pos (decide_eq_true (Sql.selectId_id found).2)
      exact congrArg (Option.filter fun r => decide (r.userId = u)) named
    rw [found, found, same]

/-- The second user's run waits while the first user's is researched. -/
theorem fleet_private_two : ∃ (before rest : List FleetTransition) (pool later : FleetPool),
    History (FleetStep quietDeps id) FleetPool.empty before pool ∧
      History (FleetStep quietDeps id) pool rest later ∧
      pool.world.status 7 = some .queued ∧ later.world.status 7 = some .awaitingReview ∧
      ((∀ answer, later.world.runs.Lists 2 answer ↔ pool.world.runs.Lists 2 answer) ∧
        ∀ runId newId now,
          ((Sql.getRun runId 2).execAll id newId now later.world.runs.rows).2 =
            ((Sql.getRun runId 2).execAll id newId now pool.world.runs.rows).2) := by
  have created : (FleetPool.play quietDeps (fun _ => true) (twoRuns.take 8)).map
      (fun pool => pool.world.status 7) = some (some .queued) := by decide
  obtain ⟨pool, played, queued⟩ := Option.map_eq_some_iff.mp created
  obtain ⟨before, history, -⟩ := FleetPool.play_history played
  have researched : (FleetPool.play quietDeps (fun _ => true) (twoRuns.take 8)).bind (fun pool =>
      (Pool.play (FleetTask.body quietDeps) arriveFleet Choice.respondFleet
        (fun x => !decide (ForUser 2 x)) pool ((twoRuns.drop 8).take 33)).map fun later =>
          later.world.status 7) = some (some .awaitingReview) := by decide
  rw [played, Option.bind_some] at researched
  obtain ⟨later, parked, awaiting⟩ := Option.map_eq_some_iff.mp researched
  have arriving : ∀ w task w', arriveFleet w task = some w' → arrivesFleet w task w' :=
    fun _ _ _ => arriveFleet_arrives
  have answers : ∀ choice c w r w', Choice.respondFleet choice c w = some (r, w') →
      fleet id c w r w' := fun _ _ _ _ _ => respondFleet_fleet
  obtain ⟨rest, others, quiet⟩ :=
    Pool.play_history arriving answers .start (List.forall_mem_nil _) parked
  rw [List.nil_append] at others quiet
  exact ⟨before, rest, pool, later, history, others, queued, awaiting,
    fleet_private history others fun x mem => by simpa using quiet x mem⟩

end Runs

end Intellivault.Agent
