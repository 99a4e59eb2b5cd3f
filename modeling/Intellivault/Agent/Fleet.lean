import Intellivault.Agent.Ownership
import Intellivault.Agent.RowMachine

/-!
# All runs at once

`agent_runs` with all its rows and the queue with all its jobs, under any number of requests
of any users.  `runPart` is one run of it: `fleet_refines_run` shows that what happens to a run
among all others is a history of that run alone, so that the results about one run hold of
each of them.
-/

namespace Intellivault.Agent

open Lib Prog

/-! ## The table -/

namespace Sql

/-- `WHERE id = $1`, on the whole table. -/
def selectId (rows : List RunRow) (runId : UUID) : Table := rows.find? fun r => r.id = runId

/-- Run a statement on the whole table: the rows after it, and those it returns. -/
def execAll (jsonb : Attributes → Attributes) (newId : UUID) (now : Time) (rows : List RunRow) :
    (q : Sql) → List RunRow × q.Answer
  | .insertRun userId topic =>
      let r := Statement.insertRun newId now userId topic
      (rows ++ [r], r)
  | q =>
      (rows.map fun r => if q.runId = some r.id then q.rewrite jsonb now r else r,
        (q.exec jsonb newId now (rows.find? fun r => q.runId = some r.id)).2)

variable {jsonb : Attributes → Attributes} {newId id other : UUID} {now : Time}
  {rows : List RunRow} {row : RunRow} {q : Sql}

theorem execAll_of (named : q.runId = some id) :
    q.execAll jsonb newId now rows =
      (rows.map fun r => if id = r.id then q.rewrite jsonb now r else r,
        (q.exec jsonb newId now (selectId rows id)).2) := by
  have eqs : (fun r : RunRow => decide (q.runId = some r.id)) = fun r => decide (r.id = id) := by
    funext r
    exact decide_eq_decide.mpr (by rw [named, Option.some.injEq, eq_comm])
  have same : (fun r : RunRow => if q.runId = some r.id then q.rewrite jsonb now r else r) =
      fun r => if id = r.id then q.rewrite jsonb now r else r := by
    simp only [named, Option.some.injEq]
  cases q with
  | insertRun _ _ => cases named
  | _ =>
      rw [execAll, same, eqs, selectId]
      exact fun _ _ same => nomatch same

theorem id_rewrite (r : RunRow) :
    (if id = r.id then q.rewrite jsonb now r else r).id = r.id := by
  split
  · exact rewrite_id q
  · rfl

/-- A statement about an id does to its row what it does to the table of that row. -/
theorem selectId_execAll (named : q.runId = some id) :
    selectId (q.execAll jsonb newId now rows).1 id = (q.exec jsonb newId now (selectId rows id)).1 := by
  have update : q.runId ≠ none := by rw [named]; exact Option.some_ne_none id
  rw [execAll_of named, selectId, List.find?_map]
  simp only [Function.comp_def, id_rewrite]
  rw [← selectId]
  cases found : selectId rows id with
  | none => cases q <;> first | rfl | exact absurd rfl update
  | some row =>
      have same : row.id = id := by simpa using List.find?_some found
      rw [exec_some q update, named, Option.map_some, same, if_pos rfl, if_pos rfl]

/-- And it leaves the other rows alone. -/
theorem selectId_execAll_other (named : q.runId = some id) (distinct : id ≠ other) :
    selectId (q.execAll jsonb newId now rows).1 other = selectId rows other := by
  rw [execAll_of named, selectId, List.find?_map]
  simp only [Function.comp_def, id_rewrite]
  rw [← selectId]
  cases found : selectId rows other with
  | none => rfl
  | some row =>
      have same : row.id = other := by simpa using List.find?_some found
      rw [Option.map_some, same, if_neg distinct]

theorem selectId_snoc : selectId (rows ++ [row]) id =
    (selectId rows id).or (if row.id = id then some row else none) := by
  rw [selectId, List.find?_append, ← selectId, List.find?_singleton]
  simp only [decide_eq_true_eq]

theorem selectId_id (found : selectId rows id = some row) : row ∈ rows ∧ row.id = id :=
  ⟨List.mem_of_find?_eq_some found, by simpa using List.find?_some found⟩

theorem whereId_update (set : RunRow → RunRow) (kept : (set row).id = row.id) (same : row.id = id) :
    whereId (update (some row) id set) id = some (set row) := by
  rw [update_some same, whereId_some (kept.trans same)]

/-- The rows a statement returns are about the run it is about. -/
theorem rows_exec (named : q.runId = some id) {t : Table}
    (about : ∀ row, t = some row → row.id = id) {row : RunRow}
    (returned : row ∈ q.rows (q.exec jsonb newId now t).2) :
    ∃ before, t = some before ∧ row.id = id ∧ row.userId = before.userId := by
  cases t with
  | none =>
      cases q with
      | insertRun _ _ => cases named
      | _ => simp [Sql.rows, exec, whereId, update] at returned
  | some before =>
      have same := about before rfl
      refine ⟨before, rfl, ?_⟩
      cases q with
      | insertRun _ _ => cases named
      | approveReview runId pending =>
          cases named
          have after := whereId_update (Statement.approveReview now (pending.stored jsonb)) rfl same
          simp only [Sql.rows, exec, after, Option.mem_toList] at returned
          cases returned
          exact ⟨same, rfl⟩
      | markCancelled runId =>
          cases named
          have after := whereId_update (Statement.markCancelled now) rfl same
          simp only [Sql.rows, exec, after, Option.mem_toList] at returned
          cases returned
          exact ⟨same, rfl⟩
      | getRun runId userId =>
          cases named
          simp only [Sql.rows, exec, whereId_some same, Option.mem_toList,
            Option.filter_eq_some_iff] at returned
          cases returned.1
          exact ⟨same, rfl⟩
      | getRunInternal runId =>
          cases named
          simp only [Sql.rows, exec, whereId_some same, Option.mem_toList] at returned
          cases returned
          exact ⟨same, rfl⟩
      | getPending runId =>
          cases named
          simp only [Sql.rows, exec, whereId_some same, Option.mem_toList] at returned
          cases returned
          exact ⟨same, rfl⟩
      | _ => cases returned

end Sql

/-- `agent_runs`: the id is the primary key. -/
structure AgentRuns where
  rows : List RunRow
  primaryKey : (rows.map RunRow.id).Nodup

def AgentRuns.empty : AgentRuns := ⟨[], List.nodup_nil⟩

theorem AgentRuns.ext_rows {t t' : AgentRuns} (same : t.rows = t'.rows) : t = t' := by
  cases t
  cases t'
  cases same
  rfl

/-- A row is the one its id selects. -/
theorem AgentRuns.selectId_of_mem {t : AgentRuns} {row : RunRow} (mem : row ∈ t.rows) :
    Sql.selectId t.rows row.id = some row := by
  have unique := t.primaryKey
  revert mem unique
  generalize t.rows = rows
  intro mem unique
  induction rows with
  | nil => cases mem
  | cons first rest ih =>
      rw [Sql.selectId, List.find?_cons]
      rw [List.map_cons, List.nodup_cons] at unique
      rcases List.mem_cons.mp mem with rfl | later
      · simp
      · have other : first.id ≠ row.id := by
          intro same
          exact unique.1 (same ▸ List.mem_map_of_mem later)
        simp only [other, decide_false]
        exact ih later unique.2

/-! ## The system -/

structure Fleet where
  runs : AgentRuns := .empty
  queue : List Job := []

/-- What a call does: a statement is answered, or raises before or after it took effect. -/
def fleet (jsonb : Attributes → Attributes) : Handler Call Call.Answer Exn Fleet
  | .sql q, w, r, w' =>
      (∃ draw : Draw,
        r = .ok (q.execAll jsonb draw.newId draw.now w.runs.rows).2 ∧
            w'.runs.rows = (q.execAll jsonb draw.newId draw.now w.runs.rows).1 ∨
          (∃ exc, r = .error exc) ∧ (w'.runs = w.runs ∨
            w'.runs.rows = (q.execAll jsonb draw.newId draw.now w.runs.rows).1)) ∧
        w'.queue = w.queue
  | .kiq job, w, r, w' =>
      w'.runs = w.runs ∧ w'.queue = w.queue ++ match r with
        | .ok _ => [job]
        | .error _ => []
  | _, w, _, w' => w' = w

/-- A request comes at any time, a job when it is taken from the queue. -/
def arrivesFleet : Fleet → FleetTask → Fleet → Prop
  | w, .job job, w' =>
      ∃ before after, w.queue = before ++ job :: after ∧ w' = ⟨w.runs, before ++ after⟩
  | w, _, w' => w' = w

abbrev FleetPool := Pool FleetTask Call Call.Answer Exn Fleet

abbrev FleetStep (deps : Deps) (jsonb : Attributes → Attributes) :=
  Pool.Step (FleetTask.body deps) (fleet jsonb) arrivesFleet

abbrev FleetTransition := Transition FleetPool (Action FleetTask Call Call.Answer Exn)

/-- Before anything was asked for. -/
def FleetPool.empty : FleetPool := ⟨{}, []⟩

/-! ## One run of it -/

/-- The row of the run and the jobs queued for it. -/
def Fleet.part (runId : UUID) (w : Fleet) : World :=
  ⟨Sql.selectId w.runs.rows runId, w.queue.filter fun job => job.runId = runId⟩

/-- What a task is to the run; reading the run is nothing to it. -/
def FleetTask.part (runId : UUID) : FleetTask → Option Task
  | .create userId topic => some (.create userId topic)
  | .get _ _ => none
  | .review userId id data => if id = runId then some (.review userId data) else none
  | .job j => if j.runId = runId then some (.job j) else none

/-- A call that changes nothing. -/
def Call.Looks : Call → Prop
  | .sql (.getRun _ _) => True
  | .sql _ | .kiq _ => False
  | _ => True

/-- Everybody. -/
def anyone : UUID → Prop := fun _ => True

abbrev FleetProcess := Process FleetTask Call Call.Answer Exn

/-- The process works for the run, or is about to create some run. -/
def FleetProcess.Own (deps : Deps) (runId : UUID) (k' : Task) (p : FleetProcess) : Prop :=
  p.kind.part runId = some k' ∧
    (Serves runId anyone (fun _ => True) p.rest ∨
      ∃ userId topic, p = ⟨.create userId topic, [], FleetTask.body deps (.create userId topic)⟩)

/-- What is left works for another run, or it changes nothing. -/
def Elsewhere (runId : UUID) (rest : Coroutine Unit) : Prop :=
  (∃ id, id ≠ runId ∧ Serves id anyone (fun _ => True) rest) ∨ rest.Calls Call.Looks

section Part

variable {deps : Deps} {jsonb : Attributes → Attributes} {runId id : UUID} {P : UUID → Prop}
  {w w' : Fleet} {q : Sql}

/-- The rows a call brings are those of the run it is for. -/
theorem fleet_returned {c : Call} {r : Except Exn c.Answer} (answer : fleet jsonb c w r w')
    (forRun : c.For id P)
    (owners : (∃ u, P u) → ∀ row ∈ w.runs.rows, row.id = id → P row.userId) :
    Returned id P ⟨c, r⟩ := by
  cases c with
  | sql q =>
      obtain ⟨⟨draw, answered | ⟨⟨exc, raised⟩, -⟩⟩, -⟩ := answer
      · rw [answered.1]
        intro row returned
        rw [Sql.execAll_of forRun.1] at returned
        obtain ⟨before, found, same, owner⟩ := Sql.rows_exec forRun.1
          (fun row found => (Sql.selectId_id found).2) returned
        obtain ⟨mem, named⟩ := Sql.selectId_id found
        exact ⟨same, owner ▸ owners forRun.2 before mem named⟩
      · rw [raised]
        trivial
  | _ => trivial

/-- A call for the run does to its part what it does to the fleet. -/
theorem system_of_fleet {c : Call} {r : Except Exn c.Answer} (answer : fleet jsonb c w r w')
    (forRun : c.For runId P) : system jsonb runId c (w.part runId) r (w'.part runId) := by
  cases c with
  | sql q =>
      obtain ⟨⟨draw, effect⟩, queue⟩ := answer
      have named := forRun.1
      have row : ∀ {rows}, rows = (q.execAll jsonb draw.newId draw.now w.runs.rows).1 →
          Sql.selectId rows runId =
            (q.exec jsonb draw.newId draw.now (Sql.selectId w.runs.rows runId)).1 := by
        intro rows same
        rw [same, Sql.selectId_execAll named]
      refine ⟨⟨draw, ?_⟩, ?_, ?_, fun row found => (Sql.selectId_id found).2⟩
      · rcases effect with ⟨answered, done⟩ | ⟨raised, kept | done⟩
        · rw [Sql.execAll_of named] at answered
          exact .inl ⟨answered, row done⟩
        · exact .inr ⟨raised, .inl (by rw [Fleet.part, Fleet.part, kept])⟩
        · exact .inr ⟨raised, .inr (row done)⟩
      · rw [Fleet.part, Fleet.part, queue]
      · rw [named]
        exact nofun
  | kiq job =>
      obtain ⟨runs, queue⟩ := answer
      have about : job.runId = runId := forRun.1
      refine ⟨by rw [Fleet.part, Fleet.part, runs], ?_⟩
      rw [Fleet.part, queue, List.filter_append]
      cases r <;> simp [Fleet.part, about]
  | _ =>
      have same : w' = w := answer
      rw [same]
      rfl

/-- A call for another run does not reach the part. -/
theorem part_of_fleet {c : Call} {r : Except Exn c.Answer} (answer : fleet jsonb c w r w')
    (forRun : c.For id P) (distinct : id ≠ runId) : w'.part runId = w.part runId := by
  cases c with
  | sql q =>
      obtain ⟨⟨draw, effect⟩, queue⟩ := answer
      obtain ⟨named, u, owner⟩ := forRun
      have row : Sql.selectId w'.runs.rows runId = Sql.selectId w.runs.rows runId := by
        rcases effect with ⟨-, done⟩ | ⟨-, kept | done⟩
        · rw [done, Sql.selectId_execAll_other named distinct]
        · rw [kept]
        · rw [done, Sql.selectId_execAll_other named distinct]
      rw [Fleet.part, Fleet.part, row, queue]
  | kiq job =>
      obtain ⟨runs, queue⟩ := answer
      have about : job.runId = id := forRun.1
      rw [Fleet.part, Fleet.part, runs, queue, List.filter_append]
      cases r <;> simp [about, distinct]
  | _ =>
      have same : w' = w := answer
      rw [same]

theorem part_of_looks {c : Call} {r : Except Exn c.Answer} (answer : fleet jsonb c w r w')
    (looks : c.Looks) : w' = w := by
  cases c with
  | sql q =>
      cases q with
      | getRun id userId =>
          obtain ⟨⟨draw, effect⟩, queue⟩ := answer
          have same : w'.runs.rows = w.runs.rows := by
            have rows : ∀ r : RunRow, (if id = r.id then r else r) = r := fun r => ite_self r
            rcases effect with ⟨-, done⟩ | ⟨-, kept | done⟩
            · rw [done, Sql.execAll_of rfl]
              simp only [Sql.rewrite, rows, List.map_id']
            · rw [kept]
            · rw [done, Sql.execAll_of rfl]
              simp only [Sql.rewrite, rows, List.map_id']
          cases w
          cases w'
          rw [Fleet.mk.injEq]
          exact ⟨AgentRuns.ext_rows same, queue⟩
      | _ => exact looks.elim
  | kiq job => exact looks.elim
  | _ => exact answer

/-- Without an owner there is nothing to change. -/
theorem looks_of_serves {α : Type} {Q : α → Prop} {p : Coroutine α}
    (serves : Serves id (fun _ => False) Q p) : p.Calls Call.Looks := by
  induction p with
  | ret a => trivial
  | raise x => trivial
  | call c k ih =>
      cases c with
      | sql q => exact serves.1.2.elim fun _ absurd => absurd.elim
      | kiq job => exact serves.1.2.elim fun _ absurd => absurd.elim
      | _ => exact ⟨trivial, fun r => ih r (serves.2 r trivial)⟩

theorem created_part (runId : UUID) {row : RunRow} (rows : w'.runs.rows = w.runs.rows ++ [row])
    (queue : w'.queue = w.queue) :
    (row.id = runId → (w.part runId).row = none ∧ (w'.part runId).row = some row) ∧
      (row.id ≠ runId → w'.part runId = w.part runId) := by
  have unique := w'.runs.primaryKey
  rw [rows, List.map_append, List.nodup_append] at unique
  have absent : row.id = runId → Sql.selectId w.runs.rows runId = none := by
    intro same
    refine List.find?_eq_none.mpr fun r mem => ?_
    have other := unique.2.2 r.id (List.mem_map_of_mem mem) row.id (by simp)
    rw [← same]
    simpa using other
  refine ⟨fun same => ⟨absent same, ?_⟩, fun other => ?_⟩
  · rw [Fleet.part, rows, Sql.selectId_snoc, absent same, if_pos same]
    rfl
  · rw [Fleet.part, Fleet.part, rows, queue, Sql.selectId_snoc, if_neg other, Option.or_none]

/-- A request that creates a run becomes the run's own, or it creates another one, or none. -/
theorem create_part {userId : UUID} {topic : String}
    {f : Except Exn RunRow → Coroutine Unit} {r : Except Exn RunRow}
    (serves : ∀ id P, Returned id P ⟨.sql (.insertRun userId topic), r⟩ →
      Serves id P (fun _ => True) (f r))
    (answer : fleet jsonb (.sql (.insertRun userId topic)) w r w') :
    system jsonb runId (.sql (.insertRun userId topic)) (w.part runId) r (w'.part runId) ∧
        Serves runId anyone (fun _ => True) (f r) ∨
      w'.part runId = w.part runId ∧ Elsewhere runId (f r) := by
  obtain ⟨⟨draw, effect⟩, queue⟩ := answer
  have done : w'.runs.rows = w.runs.rows ++ [Statement.insertRun draw.newId draw.now userId topic] →
      (r = .ok (Statement.insertRun draw.newId draw.now userId topic) ∨ ∃ exc, r = .error exc) →
      system jsonb runId (.sql (.insertRun userId topic)) (w.part runId) r (w'.part runId) ∧
          Serves runId anyone (fun _ => True) (f r) ∨
        w'.part runId = w.part runId ∧ Elsewhere runId (f r) := by
    intro rows outcome
    obtain ⟨mine, other⟩ := created_part runId rows queue
    have returned : Returned draw.newId anyone ⟨.sql (.insertRun userId topic), r⟩ := by
      rcases outcome with ok | ⟨exc, raised⟩
      · rw [ok]
        intro row mem
        rw [List.mem_singleton.mp mem]
        exact ⟨rfl, trivial⟩
      · rw [raised]
        trivial
    by_cases same : draw.newId = runId
    · obtain ⟨absent, new⟩ := mine same
      rw [same] at returned
      refine .inl ⟨⟨⟨draw, ?_⟩, ?_, fun _ => absent, fun row found => ?_⟩, serves _ _ returned⟩
      · rcases outcome with ok | raised
        · exact .inl ⟨ok, new⟩
        · exact .inr ⟨raised, .inr new⟩
      · rw [Fleet.part, Fleet.part, queue]
      · cases new.symm.trans found
        exact same
    · exact .inr ⟨other same, .inl ⟨_, same, serves _ _ returned⟩⟩
  rcases effect with ⟨ok, rows⟩ | ⟨raised, kept | rows⟩
  · exact done rows (.inl ok)
  · obtain ⟨exc, raised⟩ := raised
    refine .inr ⟨by rw [Fleet.part, Fleet.part, kept, queue], .inr ?_⟩
    refine looks_of_serves (serves runId (fun _ => False) ?_)
    rw [raised]
    trivial
  · exact done rows (.inr raised)

theorem anyone_owns (id : UUID) :
    (∃ u, anyone u) → ∀ row ∈ w.runs.rows, row.id = id → anyone row.userId :=
  fun _ _ _ _ => trivial

variable (deps jsonb runId) in
/-- One run as a part of the fleet. -/
def runPart : Part (FleetTask.body deps) (fleet jsonb) arrivesFleet (Task.body deps runId)
    (system jsonb runId) arrives where
  view := Fleet.part runId
  Own := FleetProcess.Own deps runId
  Away p := Elsewhere runId p.rest
  Left k' := ∃ userId topic, k' = .create userId topic
  start {w w' k} spawned := by
    have serves : ∀ id, k.Runs id → k.first.For id anyone →
        Serves id anyone (fun _ => True) (k.body deps) :=
      fun _ about first => (body_opens deps about).meets first
    have someone : ∃ u, anyone u := ⟨0, trivial⟩
    cases k with
    | create userId topic =>
        have same : w' = w := spawned
        refine .inl ⟨.create userId topic, ?_, rfl, rfl, .inr ⟨userId, topic, rfl⟩⟩
        rw [same]
        rfl
    | get userId id =>
        have same : w' = w := spawned
        refine .inr ⟨by rw [same], .inr ?_⟩
        refine Calls.bind ?_ fun _ => trivial
        refine Calls.bind (calls_call trivial) fun found => ?_
        cases found with
        | none => trivial
        | some row => exact Calls.bind (calls_call trivial) fun _ => trivial
    | review userId id data =>
        have same : w' = w := spawned
        have reviews := serves id rfl ⟨rfl, someone⟩
        by_cases here : id = runId
        · refine .inl ⟨.review userId data, ?_, ?_, if_pos here, .inl (here ▸ reviews)⟩
          · rw [same]
            rfl
          · rw [← here]
            rfl
        · exact .inr ⟨by rw [same], .inl ⟨id, here, reviews⟩⟩
    | job job =>
        obtain ⟨before, after, queue, rfl⟩ := spawned
        have works := serves job.runId rfl ⟨rfl, someone⟩
        by_cases here : job.runId = runId
        · refine .inl ⟨.job job, ⟨before.filter fun job => job.runId = runId,
            after.filter fun job => job.runId = runId, ?_, ?_⟩, ?_, if_pos here, .inl (here ▸ works)⟩
          · rw [Fleet.part, queue, List.filter_append, List.filter_cons_of_pos (by simpa using here)]
          · rw [Fleet.part, List.filter_append]
            rfl
          · cases job <;> rfl
        · refine .inr ⟨?_, .inl ⟨_, here, works⟩⟩
          rw [Fleet.part, Fleet.part, queue, List.filter_append, List.filter_append,
            List.filter_cons_of_neg (by simpa using here)]
  own_call {w w' k k' past c f r} own answer := by
    obtain ⟨kind, serves | ⟨userId, topic, fresh⟩⟩ := own
    · exact .inl ⟨system_of_fleet answer serves.1, kind,
        .inl (serves.2 r (fleet_returned answer serves.1 (anyone_owns runId)))⟩
    · rw [Process.mk.injEq] at fresh
      obtain ⟨rfl, rfl, rest⟩ := fresh
      have opens : ∀ id P, (Prog.call c f).Opens (.sql (.insertRun userId topic.val))
          (Returned id P) (Call.For id P) fun _ => True := by
        intro id P
        rw [rest]
        exact body_opens deps (show (FleetTask.create userId topic).Runs id from trivial)
      obtain rfl : c = .sql (.insertRun userId topic.val) := (opens runId anyone).1
      rcases create_part (fun id P => (opens id P).2 r) answer with ⟨effect, serves⟩ | ⟨same, gone⟩
      · exact .inl ⟨effect, kind, .inl serves⟩
      · cases kind
        exact .inr ⟨same, ⟨userId, topic, rfl⟩, gone⟩
  away_call {w w' k past c f r} away answer := by
    rcases away with ⟨id, distinct, serves⟩ | looks
    · exact ⟨part_of_fleet answer serves.1 distinct,
        .inl ⟨id, distinct, serves.2 r (fleet_returned answer serves.1 (anyone_owns id))⟩⟩
    · exact ⟨by rw [part_of_looks answer looks.1], .inr (looks.2 r)⟩

end Part

/-! ## The fleet along a schedule -/

/-- What is chosen for one call; `none` where the id of a new run is taken. -/
def Choice.respondFleet (choice : Choice) :
    (c : Call) → Fleet → Option (Except Exn c.Answer × Fleet)
  | .sql q, w =>
      let done := choice.settle w.runs.rows
        (q.execAll id choice.draw.newId choice.draw.now w.runs.rows).swap
      if unique : (done.2.map RunRow.id).Nodup then some (done.1, ⟨⟨done.2, unique⟩, w.queue⟩)
      else none
  | .kiq job, w => some (choice.settle w ((), ⟨w.runs, w.queue ++ [job]⟩))
  | c, w => some (choice.answer c, w)

/-- A request comes, or the job is taken from the queue. -/
def arriveFleet (w : Fleet) : FleetTask → Option Fleet
  | .job j => if j ∈ w.queue then some ⟨w.runs, w.queue.erase j⟩ else none
  | _ => some w

theorem respondFleet_fleet {choice : Choice} {c : Call} {w w' : Fleet} {r : Except Exn c.Answer}
    (answered : choice.respondFleet c w = some (r, w')) : fleet id c w r w' := by
  cases c with
  | sql q =>
      simp only [Choice.respondFleet, Option.dite_none_right_eq_some, Option.some.injEq] at answered
      obtain ⟨unique, answered⟩ := answered
      cases answered
      refine ⟨⟨choice.draw, ?_⟩, rfl⟩
      rcases choice.settle_cases w.runs.rows
        (q.execAll id choice.draw.newId choice.draw.now w.runs.rows).swap with done | ⟨exc, raised⟩
      · exact .inl ⟨congrArg Prod.fst done, congrArg Prod.snd done⟩
      · exact .inr ⟨⟨exc, congrArg Prod.fst raised⟩,
          .inl (AgentRuns.ext_rows (congrArg Prod.snd raised))⟩
  | kiq job =>
      have settled := Option.some.inj answered
      rcases choice.settle_cases w ((), ⟨w.runs, w.queue ++ [job]⟩) with done | ⟨exc, raised⟩
      · cases done.symm.trans settled
        exact ⟨rfl, rfl⟩
      · cases raised.symm.trans settled
        exact ⟨rfl, (List.append_nil _).symm⟩
  | _ => exact (Prod.mk.inj (Option.some.inj answered)).2.symm

theorem arriveFleet_arrives {w w' : Fleet} {task : FleetTask}
    (arrived : arriveFleet w task = some w') : arrivesFleet w task w' := by
  cases task with
  | job job =>
      simp only [arriveFleet, Option.ite_none_right_eq_some, Option.some.injEq] at arrived
      obtain ⟨queued, rfl⟩ := arrived
      obtain ⟨before, after, new, queue, erased⟩ := List.exists_erase_eq queued
      exact ⟨before, after, queue, by rw [erased]⟩
  | _ => exact (Option.some.inj arrived).symm

/-- The fleet from its beginning along a schedule. -/
def FleetPool.play (deps : Deps) (check : FleetTransition → Bool)
    (moves : List (Pool.Move FleetTask Choice)) : Option FleetPool :=
  Pool.play (FleetTask.body deps) arriveFleet Choice.respondFleet check FleetPool.empty moves

theorem FleetPool.play_history {deps : Deps} {check : FleetTransition → Bool}
    {moves : List (Pool.Move FleetTask Choice)} {pool : FleetPool}
    (played : FleetPool.play deps check moves = some pool) :
    ∃ tr, History (FleetStep deps id) FleetPool.empty tr pool ∧ ∀ x ∈ tr, check x = true := by
  have arriving : ∀ w task w', arriveFleet w task = some w' → arrivesFleet w task w' :=
    fun _ _ _ => arriveFleet_arrives
  have answers : ∀ choice c w r w', Choice.respondFleet choice c w = some (r, w') →
      fleet id c w r w' := fun _ _ _ _ _ => respondFleet_fleet
  exact Pool.play_history arriving answers .start (List.forall_mem_nil _) played

/-! ## Every run of the fleet -/

section Fleet

variable {deps : Deps} {jsonb : Attributes → Attributes} {pool : FleetPool}
  {tr : List FleetTransition}

/-- **What happens to a run among all others is a history of that run alone**: any interleaving
of the requests of all users and of the jobs of all runs shows, for each id, a history of the
system of one run, with steps in between that do not touch its row or its jobs. -/
theorem fleet_refines_run (history : History (FleetStep deps jsonb) FleetPool.empty tr pool)
    (runId : UUID) : ∃ (tr' : List RunTransition) (pool' : RunPool),
      History (RunStep deps jsonb runId) RunPool.empty tr' pool' ∧
        (runPart deps jsonb runId).Mirrors tr tr' ∧ (runPart deps jsonb runId).Agree pool pool' :=
  Part.history history ⟨rfl, .nil⟩

/-- Two users create runs; the first is researched and parked, and its owner approves it while
the second is taken by the worker. -/
def twoRuns : List (Pool.Move FleetTask Choice) :=
  [.start (.create 1 (.of "notes" (Eq.refl true))), .start (.create 2 (.of "notes" (Eq.refl true))),
    .call 1 { draw := ⟨8, 0⟩ }, .call 0 { draw := ⟨7, 0⟩ }, .call 0 {}, .call 1 {}, .call 0 {},
    .call 1 {}, .start (.job (.runAgent 7))] ++ List.replicate 32 (.call 2 {}) ++
  [.start (.review 1 7 approval), .start (.job (.runAgent 8))] ++
    (List.replicate 5 [.call 3 {}, .call 4 {}]).flatten ++ [.start (.get 2 8), .call 5 {}]

theorem fleet_refines_run_two : ∃ (tr : List FleetTransition) (pool : FleetPool),
    History (FleetStep quietDeps id) FleetPool.empty tr pool ∧ pool.world.queue.length = 1 ∧
      ∃ (tr' : List RunTransition) (pool' : RunPool),
        History (RunStep quietDeps id 7) RunPool.empty tr' pool' ∧
          (runPart quietDeps id 7).Mirrors tr tr' ∧ (runPart quietDeps id 7).Agree pool pool' := by
  have queued : (FleetPool.play quietDeps (fun _ => true) twoRuns).map
      (fun pool => pool.world.queue.length) = some 1 := by decide
  obtain ⟨pool, played, queue⟩ := Option.map_eq_some_iff.mp queued
  obtain ⟨tr, history, -⟩ := FleetPool.play_history played
  exact ⟨tr, pool, history, queue, fleet_refines_run history 7⟩

/-! ### The row machine of every run -/

def Fleet.status (w : Fleet) (runId : UUID) : Option AgentRunStatus :=
  (Sql.selectId w.runs.rows runId).map RunRow.status

def FleetTask.Reviews (runId : UUID) : FleetTask → Prop
  | .review _ id _ => id = runId
  | _ => False

instance (runId : UUID) (task : FleetTask) : Decidable (task.Reviews runId) :=
  match task with
  | .review _ id _ => inferInstanceAs (Decidable (id = runId))
  | .create _ _ | .get _ _ | .job _ => isFalse not_false

/-- A review starts when the earlier ones of the same run have ended. -/
def FleetReviewsApart (x : FleetTransition) : Prop :=
  match x.label with
  | .start (.review _ runId _) => ∀ p ∈ x.source.processes, p.kind.Reviews runId → p.Ended
  | _ => True

instance (x : FleetTransition) : Decidable (FleetReviewsApart x) :=
  match x with
  | ⟨s, .start (.review _ runId _), _⟩ =>
      inferInstanceAs (Decidable (∀ p ∈ s.processes, p.kind.Reviews runId → p.Ended))
  | ⟨_, .start (.create _ _), _⟩ | ⟨_, .start (.get _ _), _⟩ | ⟨_, .start (.job _), _⟩
  | ⟨_, .call _ _ _, _⟩ => isTrue trivial

/-- The run is parked by this step. -/
def FleetParks (runId : UUID) (x : FleetTransition) : Prop :=
  x.source.world.status runId ≠ some .awaitingReview ∧
    x.target.world.status runId = some .awaitingReview

instance (runId : UUID) (x : FleetTransition) : Decidable (FleetParks runId x) :=
  inferInstanceAs (Decidable (_ ∧ _))

def World.parks (w w' : World) : Bool :=
  w.row.map RunRow.status ≠ some .awaitingReview ∧ w'.row.map RunRow.status = some .awaitingReview

theorem FleetTask.of_part_review {runId userId : UUID} {data : AgentRunReview} {task : FleetTask}
    (part : task.part runId = some (.review userId data)) : task = .review userId runId data := by
  cases task with
  | create _ _ => cases part
  | get _ _ => cases part
  | review _ id _ =>
      obtain ⟨same, part⟩ := Option.ite_none_right_eq_some.mp part
      cases part
      rw [same]
  | job _ => cases (Option.ite_none_right_eq_some.mp part).2

/-- Where the reviews of a run are apart, they are so in its own history. -/
theorem apart_of_fleet {runId : UUID} {x : FleetTransition} {x' : RunTransition}
    (shows : (runPart deps jsonb runId).Shows x.label x'.label)
    (agree : (runPart deps jsonb runId).Agree x.source x'.source) (apart : FleetReviewsApart x) :
    ReviewsApart x' := by
  obtain ⟨source, label, target⟩ := x
  obtain ⟨source', label', target'⟩ := x'
  cases shows with
  | call own => trivial
  | @start k k' own =>
      cases k' with
      | create _ _ => trivial
      | job _ => trivial
      | review userId data =>
          obtain rfl := FleetTask.of_part_review own.1
          intro q known reviews
          rcases agree.tracks.mem known with ⟨p, mem, here, -, rest⟩ | left
          · obtain ⟨kind, past, rest'⟩ := q
            cases kind with
            | review _ _ =>
                have kind := FleetTask.of_part_review here.1
                obtain ⟨r, ended⟩ := apart p mem (by rw [kind]; rfl)
                exact ⟨r, rest.trans ended⟩
            | create _ _ => exact reviews.elim
            | job _ => exact reviews.elim
          · obtain ⟨_, _, create⟩ := left
            rw [create] at reviews
            exact reviews.elim

/-- **The row machine holds of every run**, whatever the other users and the other runs do: its
status moves forward only, it is parked at most once, and every row has the fields of its
status, as long as no two reviews of the same run overlap. -/
theorem fleet_row_machine (history : History (FleetStep deps jsonb) FleetPool.empty tr pool)
    (apart : ∀ x ∈ tr, FleetReviewsApart x) :
    (∀ runId, (∀ x ∈ tr, StatusStep (x.source.world.status runId) (x.target.world.status runId)) ∧
      tr.countP (fun x => FleetParks runId x) ≤ 1) ∧
        ∀ row ∈ pool.world.runs.rows, RowFits row := by
  have each : ∀ runId, ((∀ x ∈ tr,
      StatusStep (x.source.world.status runId) (x.target.world.status runId)) ∧
        tr.countP (fun x => FleetParks runId x) ≤ 1) ∧
          ∀ row, Sql.selectId pool.world.runs.rows runId = some row → RowFits row := by
    intro runId
    have mirrored : ∃ (tr' : List RunTransition) (pool' : RunPool),
        History (RunStep deps jsonb runId) RunPool.empty tr' pool' ∧
          (runPart deps jsonb runId).Mirrors tr tr' ∧ (runPart deps jsonb runId).Agree pool pool' :=
      Part.history history ⟨rfl, .nil⟩
    obtain ⟨tr', pool', alone, mirrors, agree⟩ := mirrored
    have apart' : ∀ x' ∈ tr', ReviewsApart x' := by
      intro x' mem
      obtain ⟨x, found, shows, before⟩ := mirrors.of_mem mem
      exact apart_of_fleet shows before (apart x found)
    obtain ⟨machine, once, -⟩ := RowMachine.parks_once alone apart'
    have visits := alone.visits apart' RowMachine.empty fun _ _ _ inv cond step => inv.next step cond
    refine ⟨⟨?_, ?_⟩, fun row found => ?_⟩
    · exact mirrors.forall
        (R := fun w w' => StatusStep (w.row.map RunRow.status) (w'.row.map RunRow.status))
        (fun _ => .stay) fun x mem => (visits x mem).1.status_step (visits x mem).2.1
    · have parked := mirrors.countP (R := World.parks) fun w => decide_eq_false fun both => both.1 both.2
      exact parked.trans_le once
    · refine (machine.row row ?_).fields
      rw [agree.world]
      exact found
  exact ⟨fun runId => (each runId).1,
    fun row mem => (each row.id).2 row (AgentRuns.selectId_of_mem mem)⟩

theorem fleet_row_machine_two : ∃ (tr : List FleetTransition) (pool : FleetPool),
    History (FleetStep quietDeps id) FleetPool.empty tr pool ∧
      pool.world.status 7 = some .running ∧ pool.world.status 8 = some .running ∧
      ((∀ runId, (∀ x ∈ tr,
        StatusStep (x.source.world.status runId) (x.target.world.status runId)) ∧
          tr.countP (fun x => FleetParks runId x) ≤ 1) ∧
            ∀ row ∈ pool.world.runs.rows, RowFits row) := by
  have both : (FleetPool.play quietDeps (fun x => FleetReviewsApart x) twoRuns).map
      (fun pool => (pool.world.status 7, pool.world.status 8)) =
        some (some .running, some .running) := by decide
  obtain ⟨pool, played, running⟩ := Option.map_eq_some_iff.mp both
  obtain ⟨tr, history, apart⟩ := FleetPool.play_history played
  exact ⟨tr, pool, history, congrArg Prod.fst running, congrArg Prod.snd running,
    fleet_row_machine history fun x mem => of_decide_eq_true (apart x mem)⟩

end Fleet

end Intellivault.Agent
