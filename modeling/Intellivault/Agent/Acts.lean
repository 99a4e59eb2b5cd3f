import Intellivault.Agent.System

/-!
# What a call does to the run

Seen from the run, a process has a `Role`: it is about to start the research, doing it,
deciding a review, about to enqueue the commit, and so on.  `Act` lists what one call can do
to the row, to the queue and to the role of its caller; `acts` says that the calls of
processes that keep to the protocol are acts.  Every invariant of the run is a case analysis
over `Act`.
-/

namespace Intellivault.Agent

open Lib Prog

/-! ## Roles -/

/-- What a process, or a job in the queue, means to the run. -/
inductive Role where
  | idle
  /-- It has the research to start. -/
  | starting
  | research
  /-- A review that has not read the row. -/
  | asking
  | deciding
  /-- An approval that has its commit to enqueue. -/
  | approving
  | approved
  | rejecting
  | committing
  /-- A commit that has ended. -/
  | spent
deriving DecidableEq

def Job.role : Job → Role
  | .runAgent _ => .starting
  | .commitAgentRun _ => .committing

def Task.role : Task → Stage → Role
  | .create _ _, .owing _ => .starting
  | .create _ _, _ => .idle
  | .review _ _, .fresh => .asking
  | .review _ _, .deciding => .deciding
  | .review _ _, .owing _ => .approving
  | .review _ _, .done => .approved
  | .review _ _, .rejecting => .rejecting
  | .review _ _, _ => .idle
  | .job (.runAgent _), .fresh | .job (.runAgent _), .ready => .starting
  | .job (.runAgent _), .working => .research
  | .job (.runAgent _), _ => .idle
  | .job (.commitAgentRun _), .fresh | .job (.commitAgentRun _), .working => .committing
  | .job (.commitAgentRun _), _ => .spent

/-- The role of a process that has stopped short. -/
def Role.lost : Role → Role
  | .committing | .spent => .spent
  | _ => .idle

/-! ## Acts -/

/-- The call raised. -/
def Raises (e : Event Call Call.Answer Exn) : Prop := ∃ exc, e.2 = .error exc

/-- A call that a task makes under `_guarded`. -/
def Task.Guards : Task → Call → Prop
  | .job _, c => c.Body false
  | _, _ => False

/-- The updates of the row that a role may issue, and the role after them. -/
inductive Writes (review : Bool) : Role → Sql → Role → Prop
  | begin {id : UUID} : Writes review .starting (.markRunning id) .research
  | node {a : Role} {id : UUID} {node : String} {plan : Option Plan}
      (inside : a = .research ∨ a = .committing) : Writes review a (.recordNode id node plan) a
  | entity {a : Role} {id entityId : UUID}
      (inside : a = .research ∧ review = false ∨ a = .committing) :
      Writes review a (.appendCommittedEntity id entityId) a
  | relationship {a : Role} {id relationshipId : UUID}
      (inside : a = .research ∧ review = false ∨ a = .committing) :
      Writes review a (.appendCommittedRelationship id relationshipId) a
  | park {id : UUID} {pending : StructuredResult} {result : AgentRunResult} {urls : List String}
      (gate : review = true) :
      Writes review .research (.markAwaitingReview id pending result urls) .idle
  | succeed {a : Role} {id : UUID} {result : AgentRunResult} {entityIds edgeIds : List UUID}
      (inside : a = .research ∧ review = false ∨ a = .committing) :
      Writes review a (.markSucceeded id result entityIds edgeIds) a.lost
  | fail {a : Role} {id : UUID} {error : String} {entityIds edgeIds : List UUID}
      (inside : a = .research ∨ a = .committing) :
      Writes review a (.markFailed id error entityIds edgeIds) a.lost
  | approve {id : UUID} {pending : StructuredResult} :
      Writes review .deciding (.approveReview id pending) .approving
  | cancel {id : UUID} : Writes review .deciding (.markCancelled id) .rejecting

/-- What a call of a process of kind `k` does: the world before, the role before, the role
after and the world after. -/
inductive Act (jsonb : Attributes → Attributes) (review : Bool) (runId : UUID) (k : Task)
    (e : Event Call Call.Answer Exn) : World → Role → Role → World → Prop
  | keep {w : World} {a : Role} : Act jsonb review runId k e w a a w
  /-- The caller stops, and the row stays. -/
  | lose {w : World} {a : Role}
      (why : Raises e ∧ ¬k.Guards e.1 ∨ a = .asking ∨ a = .deciding ∨ w.row = none) :
      Act jsonb review runId k e w a a.lost w
  /-- A review reads the row. -/
  | see {w : World} {row : RunRow} (here : w.row = some row)
      (awaiting : row.status = .awaitingReview) : Act jsonb review runId k e w .asking .deciding w
  | insert {q : List Job} {b : Role} {now : Time} {userId : UUID} {topic : String}
      (goes : b = .starting ∨ b = .idle ∧ Raises e ∧ ¬k.Guards e.1) :
      Act jsonb review runId k e ⟨none, q⟩ .idle b
        ⟨some (Statement.insertRun runId now userId topic), q⟩
  /-- An update takes effect; its caller may be told that it failed. -/
  | write {row : RunRow} {q : List Job} {a b b' : Role} {s : Sql} {now : Time}
      (what : e.1 = .sql s) (writes : Writes review a s b)
      (goes : b' = b ∨ b' = a.lost ∧ Raises e ∧ ¬k.Guards e.1) :
      Act jsonb review runId k e ⟨some row, q⟩ a b' ⟨some (s.rewrite jsonb now row), q⟩
  | enqueueRun {t : Table} {q : List Job} :
      Act jsonb review runId k e ⟨t, q⟩ .starting .idle ⟨t, q ++ [.runAgent runId]⟩
  | enqueueCommit {t : Table} {q : List Job} :
      Act jsonb review runId k e ⟨t, q⟩ .approving .approved ⟨t, q ++ [.commitAgentRun runId]⟩

/-! ## What a statement does to the world -/

section Statements

variable {jsonb : Attributes → Attributes} {runId : UUID} {w w' : World}

theorem World.eq {w w' : World} (row : w'.row = w.row) (queue : w'.queue = w.queue) : w' = w := by
  cases w
  cases w'
  cases row
  cases queue
  rfl

/-- The insert makes the row of this run. -/
theorem system_insert {userId : UUID} {topic : String} {r : Except Exn RunRow}
    (answer : system jsonb runId (.sql (.insertRun userId topic)) w r w') :
    w.row = none ∧ ∃ now, let row := Statement.insertRun runId now userId topic
      r = .ok row ∧ w' = ⟨some row, w.queue⟩ ∨
      (∃ exc, r = .error exc) ∧ (w' = w ∨ w' = ⟨some row, w.queue⟩) := by
  obtain ⟨⟨draw, done⟩, queue, absent, named⟩ := answer
  refine ⟨absent rfl, draw.now, ?_⟩
  have fresh : w'.row = some (Statement.insertRun draw.newId draw.now userId topic) →
      draw.newId = runId := fun row' => named _ row'
  rcases done with ⟨returned, row'⟩ | ⟨raised, same | row'⟩
  · cases fresh row'
    exact .inl ⟨returned, World.eq row' queue⟩
  · exact .inr ⟨raised, .inl (World.eq same queue)⟩
  · cases fresh row'
    exact .inr ⟨raised, .inr (World.eq row' queue)⟩

/-- An update of the run takes effect, or raises. -/
theorem system_update {q : Sql} {row : RunRow} {r : Except Exn q.Answer}
    (answer : system jsonb runId (.sql q) w r w') (about : q.runId = some runId)
    (here : w.row = some row) (named : row.id = runId) :
    ∃ now newId, (r = .ok (q.exec jsonb newId now (some row)).2 ∨ ∃ exc, r = .error exc) ∧
      w' = ⟨some (q.rewrite jsonb now row), w.queue⟩ ∨ (∃ exc, r = .error exc) ∧ w' = w := by
  obtain ⟨⟨draw, done⟩, queue, _, _⟩ := answer
  have exec : (q.exec jsonb draw.newId draw.now w.row).1 = some (q.rewrite jsonb draw.now row) := by
    rw [here, Sql.exec_some q (by simp [about]), if_pos (by rw [about, named])]
  rw [exec] at done
  refine ⟨draw.now, draw.newId, ?_⟩
  rcases done with ⟨returned, row'⟩ | ⟨raised, same | row'⟩
  · rw [here] at returned
    exact .inl ⟨.inl returned, World.eq row' queue⟩
  · exact .inr ⟨raised, World.eq same queue⟩
  · exact .inl ⟨.inr raised, World.eq row' queue⟩

/-- Whatever it answers, a statement about an existing row rewrites it or leaves it. -/
theorem system_rewrite {q : Sql} {row : RunRow} {r : Except Exn q.Answer}
    (answer : system jsonb runId (.sql q) w r w') (update : q.runId ≠ none)
    (here : w.row = some row) :
    w' = w ∨ ∃ now, w' = ⟨some (q.rewrite jsonb now row), w.queue⟩ := by
  obtain ⟨⟨draw, done⟩, queue, _, _⟩ := answer
  have effect : w'.row = w.row ∨ w'.row = (q.exec jsonb draw.newId draw.now w.row).1 := by
    rcases done with ⟨_, row'⟩ | ⟨_, row'⟩
    · exact .inr row'
    · exact row'
  rcases effect with same | row'
  · exact .inl (World.eq same queue)
  · rw [here, Sql.exec_some q update] at row'
    split at row'
    · exact .inr ⟨draw.now, World.eq row' queue⟩
    · exact .inl (World.eq (row'.trans here.symm) queue)

/-- What a statement that only reads answers. -/
theorem system_read {q : Sql} {r : Except Exn q.Answer}
    (answer : system jsonb runId (.sql q) w r w')
    (reads : ∀ newId now t, (q.exec jsonb newId now t).1 = t) :
    w' = w ∧ ∀ a, r = .ok a → ∃ newId now, a = (q.exec jsonb newId now w.row).2 := by
  obtain ⟨⟨draw, done⟩, queue, _, _⟩ := answer
  rcases done with ⟨returned, row'⟩ | ⟨⟨exc, raised⟩, row'⟩
  · rw [reads] at row'
    refine ⟨World.eq row' queue, fun a same => ⟨draw.newId, draw.now, ?_⟩⟩
    rw [same] at returned
    injection returned
  · rw [reads, or_self] at row'
    refine ⟨World.eq row' queue, fun a same => ?_⟩
    rw [raised] at same
    cases same

theorem Sql.whereId_eq_some {t : Table} {id : UUID} {row : RunRow} (found : whereId t id = some row) :
    t = some row ∧ row.id = id := by
  obtain ⟨here, same⟩ := Option.filter_eq_some_iff.mp found
  exact ⟨here, of_decide_eq_true same⟩

end Statements

/-! ## Every call is an act -/

/-- The job a request enqueues. -/
def Task.Owes (runId : UUID) : Task → Job → Prop
  | .create _ _, due => due = .runAgent runId
  | .review _ _, due => due = .commitAgentRun runId
  | .job _, _ => False

/-- A process in its stage: it is about this run, and past its first call the row is there. -/
structure Sound (runId : UUID) (k : Task) (s : Stage) (w : World) : Prop where
  mine : ∀ job, k = .job job → job.runId = runId
  owes : ∀ job, s = .owing job → k.Owes runId job
  present : s = .fresh ∨ s = .dead ∨ w.row ≠ none

section Acts

variable {jsonb : Attributes → Attributes} {review : Bool} {runId : UUID} {k : Task}
  {e : Event Call Call.Answer Exn} {w w' : World}

/-- What `acts` says of one stage: the call is an act, and the process stays sound. -/
def Moves (jsonb : Attributes → Attributes) (review : Bool) (runId : UUID) (k : Task)
    (e : Event Call Call.Answer Exn) (w : World) (s s' : Stage) (w' : World) : Prop :=
  Act jsonb review runId k e w (k.role s) (k.role s') w' ∧ Sound runId k s' w'

/-- The call leaves everything as it is. -/
theorem moves_keep {s s' : Stage} (same : k.role s' = k.role s) (sound : Sound runId k s' w) :
    Moves jsonb review runId k e w s s' w := by
  refine ⟨?_, sound⟩
  rw [same]
  exact .keep

theorem Sound.dead {s : Stage} (sound : Sound runId k s w) : Sound runId k .dead w' :=
  ⟨sound.mine, nofun, .inr (.inl rfl)⟩

/-- A caller that raised outside `_guarded` stops. -/
theorem moves_lose {s s' : Stage} (gone : k.role s' = (k.role s).lost) (raises : Raises e)
    (unguarded : ¬k.Guards e.1) (sound : Sound runId k s' w) :
    Moves jsonb review runId k e w s s' w := by
  refine ⟨?_, sound⟩
  rw [gone]
  exact .lose (.inl ⟨raises, unguarded⟩)

theorem inserts_moves {userId : UUID} {topic : Topic}
    (sound : Sound runId (.create userId topic) .fresh w)
    (legal : Stage.inserts e ≠ .bad) (answer : system jsonb runId e.1 w e.2 w') :
    Moves jsonb review runId (.create userId topic) e w .fresh (Stage.inserts e) w' := by
  obtain ⟨c, r⟩ := e
  cases c with
  | sql q =>
      cases q with
      | insertRun userId topic =>
          obtain ⟨row, queue⟩ := w
          obtain ⟨absent, now, done⟩ := system_insert answer
          cases absent
          rcases done with ⟨rfl, rfl⟩ | ⟨⟨exc, rfl⟩, rfl | rfl⟩
          · refine ⟨.insert (.inl rfl), sound.mine, fun job due => ?_, .inr (.inr nofun)⟩
            cases due
            rfl
          · exact moves_keep rfl sound.dead
          · exact ⟨.insert (.inr ⟨rfl, ⟨exc, rfl⟩, id⟩), sound.dead⟩
      | _ => exact (legal rfl).elim
  | _ => exact (legal rfl).elim

theorem enqueues_moves {job : Job} (unguarded : ∀ c, ¬k.Guards c)
    (gone : k.role .dead = (k.role (.owing job)).lost)
    (queued : ∀ t q, Act jsonb review runId k e ⟨t, q⟩ (k.role (.owing job)) (k.role .done)
      ⟨t, q ++ [job]⟩)
    (sound : Sound runId k (.owing job) w) (legal : Stage.enqueues job e ≠ .bad)
    (answer : system jsonb runId e.1 w e.2 w') :
    Moves jsonb review runId k e w (.owing job) (Stage.enqueues job e) w' := by
  obtain ⟨c, r⟩ := e
  cases c with
  | parse row =>
      cases answer
      cases r with
      | ok _ => exact moves_keep rfl sound
      | error exc => exact moves_lose gone ⟨exc, rfl⟩ (unguarded _) sound.dead
  | kiq job' =>
      have same : job' = job := Stage.of_legal legal
      subst same
      obtain ⟨row', queue'⟩ := answer
      have stage : Stage.enqueues job' ⟨.kiq job', r⟩ = Stage.after r .done := if_pos rfl
      rw [stage]
      cases r with
      | ok _ =>
          rw [show w' = ⟨w.row, w.queue ++ [job']⟩ from World.eq row' queue']
          refine ⟨queued w.row w.queue, sound.mine, nofun, ?_⟩
          exact .inr (.inr ((sound.present.resolve_left nofun).resolve_left nofun))
      | error exc =>
          rw [show w' = w from World.eq row' (queue'.trans (List.append_nil _))]
          exact moves_lose gone ⟨exc, rfl⟩ (unguarded _) sound.dead
  | _ => exact (legal rfl).elim

theorem looks_moves {userId : UUID} {data : AgentRunReview}
    (sound : Sound runId (.review userId data) .fresh w) (legal : Stage.looks e ≠ .bad)
    (answer : system jsonb runId e.1 w e.2 w') :
    Moves jsonb review runId (.review userId data) e w .fresh (Stage.looks e) w' := by
  obtain ⟨c, r⟩ := e
  cases c with
  | sql q =>
      cases q with
      | getRun id userId =>
          obtain ⟨rfl, read⟩ := system_read answer fun _ _ _ => rfl
          have stop : Act jsonb review runId (.review userId data) ⟨.sql (.getRun id userId), r⟩ w'
              .asking .idle w' := .lose (.inr (.inl rfl))
          match r with
          | .error exc => exact ⟨.lose (.inr (.inl rfl)), sound.dead⟩
          | .ok none => exact ⟨.lose (.inr (.inl rfl)), sound.dead⟩
          | .ok (some row) =>
              obtain ⟨_, _, found⟩ := read _ rfl
              have here := (Sql.whereId_eq_some (Option.filter_eq_some_iff.mp found.symm).1).1
              dsimp only [Stage.looks]
              by_cases awaiting : row.status = .awaitingReview
              · rw [if_pos awaiting]
                refine ⟨.see here awaiting, sound.mine, nofun, .inr (.inr ?_)⟩
                rw [here]
                exact nofun
              · rw [if_neg awaiting]
                exact ⟨.lose (.inr (.inl rfl)), sound.dead⟩
      | _ => exact (legal rfl).elim
  | _ => exact (legal rfl).elim

/-- The row of a process that is past its first call. -/
theorem Sound.row {s : Stage} (sound : Sound runId k s w) (begun : s ≠ .fresh) (alive : s ≠ .dead) :
    ∃ row, w.row = some row :=
  Option.ne_none_iff_exists'.mp ((sound.present.resolve_left begun).resolve_left alive)

theorem decides_moves {userId : UUID} {data : AgentRunReview}
    (sound : Sound runId (.review userId data) .deciding w)
    (named : ∀ row, w.row = some row → row.id = runId)
    (legal : Stage.decides runId data.decision e ≠ .bad)
    (answer : system jsonb runId e.1 w e.2 w') :
    Moves jsonb review runId (.review userId data) e w .deciding
      (Stage.decides runId data.decision e) w' := by
  obtain ⟨c, r⟩ := e
  obtain ⟨row, here⟩ := sound.row (by simp) (by simp)
  have same := named row here
  obtain ⟨t, queue⟩ := w
  cases here
  cases c with
  | load column =>
      cases answer
      cases r with
      | ok _ => exact moves_keep rfl sound
      | error exc => exact moves_lose rfl ⟨exc, rfl⟩ not_false sound.dead
  | sql q =>
      cases q with
      | approveReview id pending =>
          have about : id = runId ∧ data.decision = .approve := Stage.of_legal legal
          rw [show Stage.decides runId data.decision ⟨.sql (.approveReview id pending), r⟩ =
            Stage.returning r fun row => .owing (.commitAgentRun row.id) from if_pos about]
          obtain ⟨now, newId, ⟨rfl | ⟨exc, rfl⟩, rfl⟩ | ⟨⟨exc, rfl⟩, rfl⟩⟩ :=
            system_update answer (congrArg some about.1) rfl same
          · have returned : ((Sql.approveReview id pending).exec jsonb newId now (some row)).2 =
                some (Statement.approveReview now (pending.stored jsonb) row) := by
              rw [Sql.exec, Sql.update_some (same.trans about.1.symm)]
              exact Sql.whereId_some (same.trans about.1.symm)
            rw [returned]
            refine ⟨.write rfl .approve (.inl rfl), sound.mine, fun job due => ?_,
              .inr (.inr (by simp))⟩
            cases due
            exact congrArg Job.commitAgentRun same
          · exact ⟨.write rfl .approve (.inr ⟨rfl, ⟨exc, rfl⟩, not_false⟩), sound.dead⟩
          · exact moves_lose rfl ⟨exc, rfl⟩ not_false sound.dead
      | markCancelled id =>
          have about : id = runId ∧ data.decision = .reject := Stage.of_legal legal
          rw [show Stage.decides runId data.decision ⟨.sql (.markCancelled id), r⟩ =
            Stage.returning r fun _ => .rejecting from if_pos about]
          obtain ⟨now, newId, ⟨rfl | ⟨exc, rfl⟩, rfl⟩ | ⟨⟨exc, rfl⟩, rfl⟩⟩ :=
            system_update answer (congrArg some about.1) rfl same
          · have returned : ((Sql.markCancelled id).exec jsonb newId now (some row)).2 =
                some (Statement.markCancelled now row) := by
              rw [Sql.exec, Sql.update_some (same.trans about.1.symm)]
              exact Sql.whereId_some (same.trans about.1.symm)
            rw [returned]
            exact ⟨.write rfl .cancel (.inl rfl), sound.mine, (fun job due => by cases due),
              .inr (.inr (by simp))⟩
          · exact ⟨.write rfl .cancel (.inr ⟨rfl, ⟨exc, rfl⟩, not_false⟩), sound.dead⟩
          · exact moves_lose rfl ⟨exc, rfl⟩ not_false sound.dead
      | _ => exact (legal rfl).elim
  | _ => exact (legal rfl).elim

theorem rejects_moves {userId : UUID} {data : AgentRunReview}
    (sound : Sound runId (.review userId data) .rejecting w) (legal : Stage.rejects e ≠ .bad)
    (answer : system jsonb runId e.1 w e.2 w') :
    Moves jsonb review runId (.review userId data) e w .rejecting (Stage.rejects e) w' := by
  obtain ⟨c, r⟩ := e
  cases c with
  | parse row =>
      cases answer
      cases r with
      | ok _ => exact moves_keep rfl sound
      | error exc => exact moves_lose rfl ⟨exc, rfl⟩ not_false sound.dead
  | _ => exact (legal rfl).elim

/-! ### The jobs -/

section Jobs

variable {job : Job}

theorem fetches_moves {next : Stage} (first : (Task.job job).role next = (Task.job job).role .fresh)
    (gone : (Task.job job).role .dead = ((Task.job job).role .fresh).lost)
    (notOwing : ∀ due, next ≠ .owing due)
    (sound : Sound runId (.job job) .fresh w)
    (named : ∀ row, w.row = some row → row.id = runId)
    (legal : Stage.fetches job.runId next e ≠ .bad)
    (answer : system jsonb runId e.1 w e.2 w') :
    Moves jsonb review runId (.job job) e w .fresh (Stage.fetches job.runId next e) w' := by
  obtain ⟨c, r⟩ := e
  cases c with
  | sql q =>
      cases q with
      | getRunInternal id =>
          have about : id = job.runId := Stage.of_legal legal
          rw [show Stage.fetches job.runId next ⟨.sql (.getRunInternal id), r⟩ =
            Stage.returning r fun _ => next from if_pos about]
          obtain ⟨rfl, read⟩ := system_read answer fun _ _ _ => rfl
          match r with
          | .error exc => exact moves_lose gone ⟨exc, rfl⟩ not_false sound.dead
          | .ok (some row) =>
              obtain ⟨_, _, found⟩ := read _ rfl
              have here := (Sql.whereId_eq_some found.symm).1
              refine moves_keep first ⟨sound.mine, fun due owed => (notOwing due owed).elim, ?_⟩
              rw [here]
              exact .inr (.inr nofun)
          | .ok none =>
              obtain ⟨_, _, found⟩ := read _ rfl
              have absent : w'.row = none := by
                cases here : w'.row with
                | none => rfl
                | some row =>
                    have same : row.id = id :=
                      (named row here).trans ((sound.mine job rfl).symm.trans about.symm)
                    rw [here, Sql.exec, Sql.whereId_some same] at found
                    cases found
              have stops : Act jsonb review runId (.job job) ⟨.sql (.getRunInternal id), .ok none⟩ w'
                  ((Task.job job).role .fresh) ((Task.job job).role .dead) w' := by
                rw [gone]
                exact .lose (.inr (.inr (.inr absent)))
              exact ⟨stops, sound.dead⟩
      | _ => exact (legal rfl).elim
  | _ => exact (legal rfl).elim

/-- A statement of the job that may be the last one: what it does, also when it raises. -/
theorem close_moves {q : Sql} {r : Except Exn q.Answer} {row : RunRow} {queue : List Job}
    {a : Role} {s : Stage} (last : s = .done) (atWork : (Task.job job).role .working = a)
    (gone : (Task.job job).role .done = a.lost) (writes : Writes review a q a.lost)
    (unguarded : ¬(Call.sql q).Body false) (sound : Sound runId (.job job) .working ⟨some row, queue⟩)
    (same : row.id = runId) (about : q.runId = some runId)
    (answer : system jsonb runId (.sql q) ⟨some row, queue⟩ r w') :
    Moves jsonb review runId (.job job) ⟨.sql q, r⟩ ⟨some row, queue⟩ .working s w' := by
  unfold Moves
  rw [last, atWork, gone]
  obtain ⟨now, newId, ⟨_, rfl⟩ | ⟨⟨exc, rfl⟩, rfl⟩⟩ := system_update answer about rfl same
  · exact ⟨.write rfl writes (.inl rfl), sound.mine, nofun, .inr (.inr nofun)⟩
  · exact ⟨.lose (.inl ⟨⟨exc, rfl⟩, unguarded⟩), sound.mine, nofun, .inr (.inr nofun)⟩

/-- A note about the progress of the job. -/
theorem note_moves {q : Sql} {r : Except Exn q.Answer} {row : RunRow} {queue : List Job}
    {a : Role} (atWork : (Task.job job).role .working = a) (writes : Writes review a q a)
    (sound : Sound runId (.job job) .working ⟨some row, queue⟩) (update : q.runId ≠ none)
    (answer : system jsonb runId (.sql q) ⟨some row, queue⟩ r w') :
    Moves jsonb review runId (.job job) ⟨.sql q, r⟩ ⟨some row, queue⟩ .working .working w' := by
  unfold Moves
  rw [atWork]
  obtain rfl | ⟨now, rfl⟩ := system_rewrite answer update rfl
  · exact ⟨.keep, sound⟩
  · exact ⟨.write rfl writes (.inl rfl), sound.mine, nofun, .inr (.inr nofun)⟩

theorem begins_moves {id : UUID} (sound : Sound runId (.job (.runAgent id)) .ready w)
    (named : ∀ row, w.row = some row → row.id = runId) (legal : Stage.begins id e ≠ .bad)
    (answer : system jsonb runId e.1 w e.2 w') :
    Moves jsonb review runId (.job (.runAgent id)) e w .ready (Stage.begins id e) w' := by
  obtain ⟨c, r⟩ := e
  obtain ⟨row, here⟩ := sound.row nofun nofun
  have same := named row here
  have mine : id = runId := sound.mine _ rfl
  obtain ⟨t, queue⟩ := w
  cases here
  cases c with
  | sql q =>
      cases q with
      | markRunning id' =>
          have about : id' = id := Stage.of_legal legal
          rw [show Stage.begins id ⟨.sql (.markRunning id'), r⟩ = Stage.after r .working from
            if_pos about]
          obtain ⟨now, newId, ⟨rfl | ⟨exc, rfl⟩, rfl⟩ | ⟨⟨exc, rfl⟩, rfl⟩⟩ :=
            system_update answer (congrArg some (about.trans mine)) rfl same
          · exact ⟨.write rfl .begin (.inl rfl), sound.mine, nofun, .inr (.inr nofun)⟩
          · exact ⟨.write rfl .begin (.inr ⟨rfl, ⟨exc, rfl⟩, not_false⟩), sound.dead⟩
          · exact moves_lose rfl ⟨exc, rfl⟩ not_false sound.dead
      | _ => exact (legal rfl).elim
  | _ => exact (legal rfl).elim

theorem runs_moves {id : UUID} (sound : Sound runId (.job (.runAgent id)) .working w)
    (named : ∀ row, w.row = some row → row.id = runId) (legal : Stage.runs review id e ≠ .bad)
    (answer : system jsonb runId e.1 w e.2 w') :
    Moves jsonb review runId (.job (.runAgent id)) e w .working (Stage.runs review id e) w' := by
  obtain ⟨c, r⟩ := e
  obtain ⟨row, here⟩ := sound.row nofun nofun
  have same := named row here
  have mine : id = runId := sound.mine _ rfl
  obtain ⟨t, queue⟩ := w
  cases here
  cases c with
  | sql q =>
      cases q with
      | recordNode _ _ _ => exact note_moves rfl (.node (.inl rfl)) sound nofun answer
      | appendCommittedEntity _ _ =>
          cases review with
          | true => exact (legal rfl).elim
          | false => exact note_moves rfl (.entity (.inl ⟨rfl, rfl⟩)) sound nofun answer
      | appendCommittedRelationship _ _ =>
          cases review with
          | true => exact (legal rfl).elim
          | false => exact note_moves rfl (.relationship (.inl ⟨rfl, rfl⟩)) sound nofun answer
      | markAwaitingReview id' pending result urls =>
          have about : id' = id ∧ review = true := Stage.of_legal legal
          exact close_moves (if_pos about) rfl rfl (.park about.2) not_false sound same
            (congrArg some (about.1.trans mine)) answer
      | markSucceeded id' result es rs =>
          have about : id' = id ∧ ¬review := Stage.of_legal legal
          exact close_moves (if_pos about) rfl rfl (.succeed (.inl ⟨rfl, by simpa using about.2⟩))
            not_false sound same
            (congrArg some (about.1.trans mine)) answer
      | markFailed id' error es rs =>
          have about : id' = id := Stage.of_legal legal
          exact close_moves (if_pos about) rfl rfl (.fail (.inl rfl)) not_false sound same
            (congrArg some (about.trans mine)) answer
      | _ => exact (legal rfl).elim
  | kiq _ | load _ | parse _ => exact (legal rfl).elim
  | _ =>
      cases answer
      exact moves_keep rfl sound

theorem commits_moves {id : UUID} (sound : Sound runId (.job (.commitAgentRun id)) .working w)
    (named : ∀ row, w.row = some row → row.id = runId) (legal : Stage.commits id e ≠ .bad)
    (answer : system jsonb runId e.1 w e.2 w') :
    Moves jsonb review runId (.job (.commitAgentRun id)) e w .working (Stage.commits id e) w' := by
  obtain ⟨c, r⟩ := e
  obtain ⟨row, here⟩ := sound.row nofun nofun
  have same := named row here
  have mine : id = runId := sound.mine _ rfl
  obtain ⟨t, queue⟩ := w
  cases here
  cases c with
  | sql q =>
      cases q with
      | getPending id' =>
          have about : id' = id := Stage.of_legal legal
          rw [show Stage.commits id ⟨.sql (.getPending id'), r⟩ = Stage.after r .working from
            if_pos about]
          obtain ⟨rfl, _⟩ := system_read answer fun _ _ _ => rfl
          cases r with
          | ok _ => exact moves_keep rfl sound
          | error exc => exact moves_lose rfl ⟨exc, rfl⟩ not_false sound.dead
      | recordNode _ _ _ => exact note_moves rfl (.node (.inr rfl)) sound nofun answer
      | appendCommittedEntity _ _ => exact note_moves rfl (.entity (.inr rfl)) sound nofun answer
      | appendCommittedRelationship _ _ =>
          exact note_moves rfl (.relationship (.inr rfl)) sound nofun answer
      | markSucceeded id' result es rs =>
          have about : id' = id := Stage.of_legal legal
          exact close_moves (if_pos about) rfl rfl (.succeed (.inr rfl)) not_false sound same
            (congrArg some (about.trans mine)) answer
      | markFailed id' error es rs =>
          have about : id' = id := Stage.of_legal legal
          exact close_moves (if_pos about) rfl rfl (.fail (.inr rfl)) not_false sound same
            (congrArg some (about.trans mine)) answer
      | _ => exact (legal rfl).elim
  | load _ =>
      cases answer
      cases r with
      | ok _ => exact moves_keep rfl sound
      | error exc => exact moves_lose rfl ⟨exc, rfl⟩ not_false sound.dead
  | kiq _ | parse _ => exact (legal rfl).elim
  | _ =>
      cases answer
      exact moves_keep rfl sound

end Jobs

/-- **Every call of a process that keeps to the protocol is an act.** -/
theorem acts {s : Stage} (sound : Sound runId k s w)
    (named : ∀ row, w.row = some row → row.id = runId)
    (legal : k.advance review runId s e ≠ .bad) (answer : system jsonb runId e.1 w e.2 w') :
    Moves jsonb review runId k e w s (k.advance review runId s e) w' := by
  cases k with
  | create userId topic =>
      cases s with
      | fresh => exact inserts_moves sound legal answer
      | owing job =>
          cases sound.owes job rfl
          exact enqueues_moves (fun _ => not_false) rfl (fun _ _ => .enqueueRun) sound legal answer
      | _ => exact (legal rfl).elim
  | review userId data =>
      cases s with
      | fresh => exact looks_moves sound legal answer
      | deciding => exact decides_moves sound named legal answer
      | rejecting => exact rejects_moves sound legal answer
      | owing job =>
          cases sound.owes job rfl
          exact enqueues_moves (fun _ => not_false) rfl (fun _ _ => .enqueueCommit) sound legal
            answer
      | _ => exact (legal rfl).elim
  | job job =>
      cases job with
      | runAgent id =>
          cases s with
          | fresh => exact fetches_moves rfl rfl nofun sound named legal answer
          | ready => exact begins_moves sound named legal answer
          | working => exact runs_moves sound named legal answer
          | _ => exact (legal rfl).elim
      | commitAgentRun id =>
          cases s with
          | fresh => exact fetches_moves rfl rfl nofun sound named legal answer
          | working => exact commits_moves sound named legal answer
          | _ => exact (legal rfl).elim

/-- The row of the run stays. -/
theorem Act.present {a b : Role} (act : Act jsonb review runId k e w a b w')
    (here : w.row ≠ none) : w'.row ≠ none := by
  cases act with
  | insert _ => exact nofun
  | write _ _ _ => exact nofun
  | _ => exact here

/-- It keeps its id. -/
theorem Act.named {a b : Role} (act : Act jsonb review runId k e w a b w')
    (named : ∀ row, w.row = some row → row.id = runId) :
    ∀ row, w'.row = some row → row.id = runId := by
  intro row here
  cases act with
  | insert _ =>
      cases here
      rfl
  | write _ _ _ =>
      cases here
      rw [Sql.rewrite_id]
      exact named _ rfl
  | _ => exact named row here

/-- The queue holds jobs of this run. -/
theorem Act.queue {a b : Role} (act : Act jsonb review runId k e w a b w')
    (queued : ∀ job ∈ w.queue, job.runId = runId) : ∀ job ∈ w'.queue, job.runId = runId := by
  intro job mem
  cases act with
  | enqueueRun =>
      rcases List.mem_append.mp mem with old | new
      · exact queued job old
      · rw [List.mem_singleton.mp new, Job.runId]
  | enqueueCommit =>
      rcases List.mem_append.mp mem with old | new
      · exact queued job old
      · rw [List.mem_singleton.mp new, Job.runId]
  | _ => exact queued job mem

end Acts

end Intellivault.Agent
