import Intellivault.Lib.Pool
import Intellivault.Agent.Body
import Intellivault.Agent.Database

/-!
# One run among its requests and jobs

The system of one run: its row of `agent_runs`, the jobs queued for it, and any number of
requests and jobs that run concurrently.  A process makes one call at a time; a statement is
atomic, sees what was committed, and may raise before or after it took effect.  A job starts
by leaving the queue, so it runs at most once.

`Task.advance` is the protocol each process keeps to, read off its calls; `body_adheres`
says that the routes and the tasks do keep to it, whatever is answered.
-/

namespace Intellivault.Agent

open Lib Prog

/-! ## The system -/

/-- What runs for the run: requests and jobs. -/
inductive Task where
  | create (userId : UUID) (topic : Topic)
  | review (userId : UUID) (data : AgentRunReview)
  | job (job : Job)

def Job.runId : Job → UUID
  | .runAgent id | .commitAgentRun id => id

structure World where
  row : Table := none
  queue : List Job := []

/-- What a process of each kind does. -/
def Task.body (deps : Deps) (runId : UUID) : Task → Coroutine Unit
  | .create userId topic => do
      let _ ← Router.createRun userId topic
      return ()
  | .review userId data => do
      let _ ← Router.reviewRun userId runId data
      return ()
  | .job (.runAgent id) => runAgent deps id
  | .job (.commitAgentRun id) => commitAgentRun deps id

/-- What a call does: the statements go to the table, of which one row is the run's, an
accepted job is queued, and everything else leaves both alone. -/
def system (jsonb : Attributes → Attributes) (runId : UUID) : Handler Call Call.Answer Exn World
  | .sql q, w, r, w' =>
      database jsonb (.sql q) w.row r w'.row ∧ w'.queue = w.queue ∧
        (q.runId = none → w.row = none) ∧ ∀ row, w'.row = some row → row.id = runId
  | .kiq job, w, r, w' =>
      w'.row = w.row ∧ w'.queue = w.queue ++ match r with
        | .ok _ => [job]
        | .error _ => []
  | _, w, _, w' => w' = w

/-- A request comes at any time, a job when it is taken from the queue. -/
def arrives : World → Task → World → Prop
  | w, .job job, w' =>
      ∃ before after, w.queue = before ++ job :: after ∧ w' = ⟨w.row, before ++ after⟩
  | w, _, w' => w' = w

abbrev RunPool := Pool Task Call Call.Answer Exn World

abbrev RunStep (deps : Deps) (jsonb : Attributes → Attributes) (runId : UUID) :=
  Pool.Step (Task.body deps runId) (system jsonb runId) arrives

/-- Before the run is created. -/
def RunPool.empty : RunPool := ⟨{}, []⟩

/-! ## The system along a schedule -/

/-- Nobody outside has anything to say: the model plans, nothing is found. -/
def quiet : (c : Call) → Except Exn c.Answer
  | .ask .plan _ => .ok ⟨"", ["query"], by decide⟩
  | .graph (.listGraph _) => .ok ⟨[], []⟩
  | .load _ | .parse _ | .kiq _ | .guardUrl _ | .sleep _ | .stream | .mirror _ => .ok ()
  | _ => .error .timeout

/-- No web search and no encyclopedia. -/
def quietDeps : Deps :=
  { settings := { recursionLimit := 25 }, searchTool := false, wikipediaTools := []
    py := { lower := id, loads := fun _ => none, strOf := fun _ => "" } }

/-- What is chosen for one call: whether it raises, and otherwise its answer. -/
structure Choice where
  raises : Option Exn := none
  draw : Draw := {}
  answer : (c : Call) → Except Exn c.Answer := quiet

/-- The call raises and does nothing, or it does what it is for. -/
def Choice.settle {α W : Type} (choice : Choice) (w : W) (done : α × W) : Except Exn α × W :=
  match choice.raises with
  | none => (.ok done.1, done.2)
  | some exc => (.error exc, w)

/-- What a call then does; `none` where the run's row would not be the only one. -/
def Choice.respond (jsonb : Attributes → Attributes) (runId : UUID) (choice : Choice) :
    (c : Call) → World → Option (Except Exn c.Answer × World)
  | .sql q, w =>
      let done := choice.settle w.row (q.exec jsonb choice.draw.newId choice.draw.now w.row).swap
      if (q.runId = none → w.row = none) ∧ ∀ row ∈ done.2, row.id = runId then
        some (done.1, ⟨done.2, w.queue⟩)
      else none
  | .kiq job, w => some (choice.settle w ((), ⟨w.row, w.queue ++ [job]⟩))
  | c, w => some (choice.answer c, w)

/-- A request comes, or the job is taken from the queue. -/
def arrive (w : World) : Task → Option World
  | .job job => if job ∈ w.queue then some ⟨w.row, w.queue.erase job⟩ else none
  | _ => some w

theorem Choice.settle_cases {α W : Type} (choice : Choice) (w : W) (done : α × W) :
    choice.settle w done = (.ok done.1, done.2) ∨ ∃ exc, choice.settle w done = (.error exc, w) := by
  rw [settle]
  cases choice.raises with
  | none => exact .inl rfl
  | some exc => exact .inr ⟨exc, rfl⟩

theorem respond_system {jsonb : Attributes → Attributes} {runId : UUID} {choice : Choice} {c : Call}
    {w w' : World} {r : Except Exn c.Answer}
    (answered : choice.respond jsonb runId c w = some (r, w')) : system jsonb runId c w r w' := by
  cases c with
  | sql q =>
      simp only [Choice.respond, Option.ite_none_right_eq_some, Option.some.injEq] at answered
      obtain ⟨⟨absent, named⟩, rfl, rfl⟩ := answered
      refine ⟨⟨choice.draw, ?_⟩, rfl, absent, named⟩
      rcases choice.settle_cases w.row
        (q.exec jsonb choice.draw.newId choice.draw.now w.row).swap with done | ⟨exc, raised⟩
      · rw [done]
        exact .inl ⟨rfl, rfl⟩
      · rw [raised]
        exact .inr ⟨⟨exc, rfl⟩, .inl rfl⟩
  | kiq job =>
      have settled := Option.some.inj answered
      rcases choice.settle_cases w ((), ⟨w.row, w.queue ++ [job]⟩) with done | ⟨exc, raised⟩
      · cases done.symm.trans settled
        exact ⟨rfl, rfl⟩
      · cases raised.symm.trans settled
        exact ⟨rfl, (List.append_nil _).symm⟩
  | _ => exact (Prod.mk.inj (Option.some.inj answered)).2.symm

theorem arrive_arrives {w w' : World} {task : Task} (arrived : arrive w task = some w') :
    arrives w task w' := by
  cases task with
  | job job =>
      simp only [arrive, Option.ite_none_right_eq_some, Option.some.injEq] at arrived
      obtain ⟨queued, rfl⟩ := arrived
      obtain ⟨before, after, new, queue, erased⟩ := List.exists_erase_eq queued
      exact ⟨before, after, queue, by rw [erased]⟩
  | _ => exact (Option.some.inj arrived).symm

abbrev RunTransition := Transition RunPool (Action Task Call Call.Answer Exn)

/-- The run from its beginning along a schedule. -/
def RunPool.play (deps : Deps) (runId : UUID) (check : RunTransition → Bool)
    (moves : List (Pool.Move Task Choice)) : Option RunPool :=
  Pool.play (Task.body deps runId) arrive (Choice.respond id runId) check RunPool.empty
    moves

theorem RunPool.play_history {deps : Deps} {runId : UUID} {check : RunTransition → Bool}
    {moves : List (Pool.Move Task Choice)} {pool : RunPool}
    (played : RunPool.play deps runId check moves = some pool) :
    ∃ tr, History (RunStep deps id runId) RunPool.empty tr pool ∧ ∀ x ∈ tr, check x = true := by
  have arriving : ∀ w task w', arrive w task = some w' → arrives w task w' :=
    fun _ _ _ => arrive_arrives
  have answers : ∀ choice c w r w', Choice.respond id runId choice c w = some (r, w') →
      system id runId c w r w' := fun _ _ _ _ _ => respond_system
  exact Pool.play_history arriving answers .start (List.forall_mem_nil _) played

/-! ## The protocol -/

/-- How far a process has got. -/
inductive Stage where
  | fresh
  /-- A review that read a row awaiting one. -/
  | deciding
  /-- A request that wrote its status and has a job to enqueue. -/
  | owing (job : Job)
  | rejecting
  /-- A job that has read its row. -/
  | ready
  | working
  /-- Nothing is left to do: the job is enqueued, or the last status written. -/
  | done
  /-- An exception came, or the row was not as expected. -/
  | dead
  /-- A call that the protocol does not have. -/
  | bad
deriving DecidableEq

namespace Stage

/-- On to the next stage, unless the call raised. -/
def after {α : Type} (r : Except Exn α) (next : Stage) : Stage :=
  match r with
  | .ok _ => next
  | .error _ => .dead

/-- A request that still has a job to enqueue. -/
def enqueues (job : Job) : Event Call Call.Answer Exn → Stage
  | ⟨.parse _, r⟩ => after r (.owing job)
  | ⟨.kiq job', r⟩ => if job' = job then after r .done else .bad
  | _ => .bad

/-- A request whose first statement writes the run. -/
def inserts : Event Call Call.Answer Exn → Stage
  | ⟨.sql (.insertRun _ _), r⟩ =>
      match (r : Except Exn RunRow) with
      | .ok row => .owing (.runAgent row.id)
      | .error _ => .dead
  | _ => .bad

def advanceCreate : Stage → Event Call Call.Answer Exn → Stage
  | .fresh, e => inserts e
  | .owing job, e => enqueues job e
  | _, _ => .bad

/-- A review that looks at the run first. -/
def looks : Event Call Call.Answer Exn → Stage
  | ⟨.sql (.getRun _ _), r⟩ =>
      match (r : Except Exn (Option RunRow)) with
      | .ok (some row) => if row.status = .awaitingReview then .deciding else .dead
      | _ => .dead
  | _ => .bad

/-- The row an `UPDATE .. RETURNING` gave back. -/
def returning (r : Except Exn (Option RunRow)) (next : RunRow → Stage) : Stage :=
  match r with
  | .ok (some row) => next row
  | _ => .dead

/-- A review that writes its decision. -/
def decides (runId : UUID) (decision : Decision) : Event Call Call.Answer Exn → Stage
  | ⟨.load _, r⟩ => after r .deciding
  | ⟨.sql (.approveReview id _), r⟩ =>
      if id = runId ∧ decision = .approve then
        returning r fun row => .owing (.commitAgentRun row.id)
      else .bad
  | ⟨.sql (.markCancelled id), r⟩ =>
      if id = runId ∧ decision = .reject then returning r fun _ => .rejecting else .bad
  | _ => .bad

def rejects : Event Call Call.Answer Exn → Stage
  | ⟨.parse _, r⟩ => after r .rejecting
  | _ => .bad

def advanceReview (runId : UUID) (decision : Decision) :
    Stage → Event Call Call.Answer Exn → Stage
  | .fresh, e => looks e
  | .deciding, e => decides runId decision e
  | .rejecting, e => rejects e
  | .owing job, e => enqueues job e
  | _, _ => .bad

/-- A job that reads its row first. -/
def fetches (id : UUID) (next : Stage) : Event Call Call.Answer Exn → Stage
  | ⟨.sql (.getRunInternal id'), r⟩ => if id' = id then returning r fun _ => next else .bad
  | _ => .bad

def begins (id : UUID) : Event Call Call.Answer Exn → Stage
  | ⟨.sql (.markRunning id'), r⟩ => if id' = id then after r .working else .bad
  | _ => .bad

/-- `_run_agent` from its first node on. -/
def runs (review : Bool) (id : UUID) : Event Call Call.Answer Exn → Stage
  | ⟨.sql q, _⟩ =>
      match q with
      | .recordNode _ _ _ => .working
      | .appendCommittedEntity _ _ | .appendCommittedRelationship _ _ =>
          if review then .bad else .working
      | .markAwaitingReview id' _ _ _ => if id' = id ∧ review then .done else .bad
      | .markSucceeded id' _ _ _ => if id' = id ∧ ¬review then .done else .bad
      | .markFailed id' _ _ _ => if id' = id then .done else .bad
      | _ => .bad
  | ⟨.kiq _, _⟩ | ⟨.load _, _⟩ | ⟨.parse _, _⟩ => .bad
  | _ => .working

def advanceRun (review : Bool) (id : UUID) : Stage → Event Call Call.Answer Exn → Stage
  | .fresh, e => fetches id .ready e
  | .ready, e => begins id e
  | .working, e => runs review id e
  | _, _ => .bad

/-- `_commit_agent_run` after its first statement. -/
def commits (id : UUID) : Event Call Call.Answer Exn → Stage
  | ⟨.sql q, r⟩ =>
      match q with
      | .getPending id' => if id' = id then after r .working else .bad
      | .recordNode _ _ _ | .appendCommittedEntity _ _ | .appendCommittedRelationship _ _ =>
          .working
      | .markSucceeded id' _ _ _ | .markFailed id' _ _ _ => if id' = id then .done else .bad
      | _ => .bad
  | ⟨.load _, r⟩ => after r .working
  | ⟨.kiq _, _⟩ | ⟨.parse _, _⟩ => .bad
  | _ => .working

def advanceCommit (id : UUID) : Stage → Event Call Call.Answer Exn → Stage
  | .fresh, e => fetches id .working e
  | .working, e => commits id e
  | _, _ => .bad

def Legal (s : Stage) : Prop := s ≠ .bad

theorem of_legal {p : Prop} [Decidable p] {s : Stage} (legal : (if p then s else .bad) ≠ .bad) :
    p := by
  by_contra other
  exact legal (if_neg other)

end Stage

def Task.advance (review : Bool) (runId : UUID) : Task → Stage → Event Call Call.Answer Exn → Stage
  | .create _ _ => Stage.advanceCreate
  | .review _ data => Stage.advanceReview runId data.decision
  | .job (.runAgent id) => Stage.advanceRun review id
  | .job (.commitAgentRun id) => Stage.advanceCommit id

/-- Where a process stands when it ends. -/
def Task.ends : Task → Except Exn Unit → Stage → Prop
  | .create _ _, .ok _, s => s = .done
  | .review _ data, .ok _, s => s = if data.decision = .approve then .done else .rejecting
  | .job _, .ok _, s => s = .done
  | .job _, .error _, s => s = .done ∨ s = .dead
  | _, .error _, s => s = .dead

/-! ## The routes and the tasks keep to it -/

section Adheres

variable {review : Bool} {runId : UUID} {k : Task}

/-- The program visits legal stages only, and `Q` holds of the last one. -/
abbrev Adheres {α : Type} (review : Bool) (runId : UUID) (k : Task)
    (Q : Except Exn α → Stage → Prop) (p : Coroutine α) (s : Stage) : Prop :=
  p.Holds (Pool.reads (Task.advance review runId) k) Stage.Legal Q s

/-- The stage after a program: from what it returns, or dead if it raised. -/
def Leads {α : Type} (next : α → Stage) (r : Except Exn α) (s : Stage) : Prop :=
  match r with
  | .ok a => s = next a
  | .error _ => s = .dead

theorem adheres_call {c : Call} {next : c.Answer → Stage} {s : Stage}
    (ok : ∀ a, next a ≠ .bad ∧ k.advance review runId s ⟨c, .ok a⟩ = next a)
    (error : ∀ exc, k.advance review runId s ⟨c, .error exc⟩ = .dead) :
    Adheres review runId k (Leads next) (call c) s := by
  refine Pool.holds_reads.mpr fun r => ?_
  cases r with
  | ok a =>
      rw [(ok a).2]
      exact ⟨(ok a).1, rfl⟩
  | error exc =>
      rw [error exc]
      exact ⟨nofun, rfl⟩

theorem adheres_then {α β : Type} {next : α → Stage} {Q : Except Exn β → Stage → Prop}
    {p : Coroutine α} {f : α → Coroutine β} {s : Stage}
    (first : Adheres review runId k (Leads next) p s)
    (ok : ∀ a, Adheres review runId k Q (f a) (next a))
    (error : ∀ exc, Q (.error exc) .dead) : Adheres review runId k Q (p >>= f) s := by
  refine holds_bind.mpr (Holds.mono (fun r s leads => ?_) first)
  cases r with
  | ok a =>
      cases leads
      exact ok a
  | error exc =>
      cases leads
      exact error exc

/-! ### The requests -/

theorem run_adheres {row : RunRow} {s : Stage} {next : AgentRun → Stage} (legal : s ≠ .bad)
    (protocol : ∀ r, k.advance review runId s ⟨.parse row, r⟩ = Stage.after r s)
    (named : ∀ run, run.id = row.id → next run = s) :
    Adheres review runId k (Leads next) (Service.run row) s :=
  adheres_then (adheres_call (fun _ => ⟨legal, protocol _⟩) fun _ => protocol _)
    (fun _ => (named _ rfl).symm) fun _ => rfl

/-- Enqueueing the job a request owes ends it. -/
theorem kiq_adheres {job : Job}
    (protocol : k.advance review runId (.owing job) = Stage.enqueues job) :
    Adheres review runId k (Leads fun _ => .done) (kiq job) (.owing job) := by
  have queued : ∀ r, k.advance review runId (.owing job) ⟨.kiq job, r⟩ = Stage.after r .done := by
    intro r
    rw [protocol]
    exact if_pos rfl
  exact adheres_call (fun _ => ⟨nofun, queued _⟩) fun _ => queued _

theorem createRun_adheres (userId : UUID) (topic : Topic) :
    Adheres review runId (.create userId topic) (Leads fun run => .owing (.runAgent run.id))
      (Service.createRun userId topic) .fresh := by
  have inserted : Adheres review runId (.create userId topic)
      (Leads fun row : RunRow => .owing (.runAgent row.id))
      (sql (.insertRun userId topic.val)) .fresh :=
    adheres_call (fun _ => ⟨nofun, rfl⟩) fun _ => rfl
  refine adheres_then inserted (fun row => ?_) fun _ => rfl
  exact run_adheres nofun (fun _ => rfl) fun run same => by rw [same]

theorem create_adheres (deps : Deps) (userId : UUID) (topic : Topic) :
    Adheres review runId (.create userId topic) (Task.ends (.create userId topic))
      (Task.body deps runId (.create userId topic)) .fresh := by
  have created : Adheres review runId (.create userId topic) (Leads fun _ => .done)
      (Router.createRun userId topic) .fresh :=
    adheres_then (createRun_adheres userId topic)
      (fun run => adheres_then (kiq_adheres rfl) (fun _ => rfl) fun _ => rfl) fun _ => rfl
  exact adheres_then created (fun _ => rfl) fun _ => rfl

theorem load_adheres {α : Type} {column : String} {raw : Option α} {s : Stage}
    (legal : s ≠ .bad)
    (protocol : ∀ r, k.advance review runId s ⟨.load column, r⟩ = Stage.after r s) :
    Adheres review runId k (Leads fun _ => s) (Service.load column raw) s := by
  cases raw with
  | none => rfl
  | some value =>
      exact adheres_then (adheres_call (fun _ => ⟨legal, protocol _⟩) fun _ => protocol _)
        (fun _ => rfl) fun _ => rfl

/-- Where a review stands once its decision is written. -/
def decided (decision : Decision) (runId : UUID) : Stage :=
  match decision with
  | .approve => .owing (.commitAgentRun runId)
  | .reject => .rejecting

theorem decide_adheres (userId : UUID) (data : AgentRunReview) (row : RunRow) :
    Adheres review runId (.review userId data)
      (Leads fun updated : Option RunRow => match updated with
        | some row => decided data.decision row.id
        | none => .dead)
      (Service.decide runId data row) .deciding := by
  rw [Service.decide]
  cases decision : data.decision with
  | reject =>
      have written : ∀ r, (Task.review userId data).advance review runId .deciding
          ⟨.sql (.markCancelled runId), r⟩ = Stage.returning r fun _ => .rejecting :=
        fun r => if_pos ⟨rfl, decision⟩
      refine adheres_call (fun updated => ⟨?_, ?_⟩) fun exc => written _
      · cases updated <;> exact nofun
      · rw [written]
        cases updated <;> rfl
  | approve =>
      have written : ∀ pending r, (Task.review userId data).advance review runId .deciding
          ⟨.sql (.approveReview runId pending), r⟩ =
            Stage.returning r fun row => .owing (.commitAgentRun row.id) :=
        fun pending r => if_pos ⟨rfl, decision⟩
      refine adheres_then (load_adheres nofun fun _ => rfl) (fun pending => ?_) fun _ => rfl
      refine adheres_call (fun updated => ⟨?_, ?_⟩) fun exc => written _ _
      · cases updated <;> exact nofun
      · rw [written]
        cases updated <;> rfl

theorem submitReview_adheres (userId : UUID) (data : AgentRunReview) :
    Adheres review runId (.review userId data) (Leads fun run => decided data.decision run.id)
      (Service.submitReview userId runId data) .fresh := by
  have found : Adheres review runId (.review userId data)
      (Leads fun found : Option RunRow => match found with
        | some row => if row.status = .awaitingReview then .deciding else .dead
        | none => .dead)
      (sql (.getRun runId userId)) .fresh := by
    refine adheres_call (fun found => ⟨?_, ?_⟩) fun exc => rfl
    · cases found with
      | none => exact nofun
      | some row =>
          dsimp only
          split <;> exact nofun
    · cases found <;> rfl
  refine adheres_then found (fun found => ?_) fun _ => rfl
  cases found with
  | none => rfl
  | some row =>
      dsimp only
      by_cases awaiting : row.status = .awaitingReview
      · rw [if_pos awaiting, if_neg (not_not.mpr awaiting)]
        refine adheres_then (decide_adheres userId data row) (fun updated => ?_) fun _ => rfl
        cases updated with
        | none => rfl
        | some row =>
            cases decision : data.decision with
            | approve =>
                exact run_adheres nofun (fun _ => rfl) fun run same => by rw [decided, same]; rfl
            | reject => exact run_adheres nofun (fun _ => rfl) fun _ _ => rfl
      · rw [if_neg awaiting, if_pos awaiting]
        rfl

theorem reviewRun_adheres (userId : UUID) (data : AgentRunReview) :
    Adheres review runId (.review userId data)
      (Leads fun _ => if data.decision = .approve then .done else .rejecting)
      (Router.reviewRun userId runId data) .fresh := by
  refine adheres_then (submitReview_adheres userId data) (fun run => ?_) fun _ => rfl
  cases data.decision with
  | approve => exact adheres_then (kiq_adheres rfl) (fun _ => rfl) fun _ => rfl
  | reject => rfl

theorem review_adheres (deps : Deps) (userId : UUID) (data : AgentRunReview) :
    Adheres review runId (.review userId data) (Task.ends (.review userId data))
      (Task.body deps runId (.review userId data)) .fresh :=
  adheres_then (reviewRun_adheres userId data) (fun _ => rfl) fun _ => rfl

/-! ### The jobs -/

section Jobs

variable {id : UUID}

theorem fetch_adheres {next : Stage} (legal : next ≠ .bad)
    (protocol : ∀ e, k.advance review runId .fresh e = Stage.fetches id next e) :
    Adheres review runId k (Leads fun _ => next) (Service.getRunInternal id) .fresh := by
  have found : Adheres review runId k
      (Leads fun found : Option RunRow => match found with
        | some _ => next
        | none => .dead)
      (sql (.getRunInternal id)) .fresh := by
    have fetched : ∀ r, k.advance review runId .fresh ⟨.sql (.getRunInternal id), r⟩ =
        Stage.returning r fun _ => next := by
      intro r
      rw [protocol]
      exact if_pos rfl
    refine adheres_call (fun found => ⟨?_, ?_⟩) fun exc => fetched _
    · cases found with
      | none => exact nofun
      | some row => exact legal
    · rw [fetched]
      cases found <;> rfl
  refine adheres_then found (fun found => ?_) fun _ => rfl
  cases found <;> rfl

/-- The body of a task makes no call that the protocol would notice, and returns. -/
theorem guarded_adheres (limit : String) {bodyReview : Bool}
    {p : Coroutine (AgentState × Except Exn Unit)} (calls : p.Calls (Call.Body bodyReview))
    (safe : p.Safe)
    (protocol : ∀ c r, c.Body bodyReview → k.advance review runId .working ⟨c, r⟩ = .working)
    (failed : ∀ error es rs r,
      k.advance review runId .working ⟨.sql (.markFailed id error es rs), r⟩ = .done) :
    Adheres review runId k (fun r s => match r with
      | .ok _ => s = .working
      | .error _ => s = .done) (guarded id limit p) .working := by
  have kept : p.Holds (Pool.reads (Task.advance review runId) k) (· = .working)
      (fun _ s => s = .working) .working := by
    refine calls.holds (fun c s r s' body working moved => ?_) rfl
    cases working
    rw [moved, protocol c r body]
  have legal : Adheres review runId k (fun _ s => s = .working) p .working := by
    refine kept.weaken fun s working => ?_
    rw [working]
    exact nofun
  refine holds_bind.mpr ((safe.holds legal).mono fun r s ⟨working, x, same⟩ => ?_)
  cases working
  cases same
  dsimp only
  cases waitFor x.2 with
  | ok _ => rfl
  | error exc =>
      refine holds_bind.mpr (Pool.holds_reads.mpr fun r => ?_)
      rw [failed]
      refine ⟨nofun, ?_⟩
      cases r <;> rfl

/-- A last statement, after which the job is done. -/
theorem close_adheres {q : Sql} {Q : Except Exn q.Answer → Stage → Prop}
    (protocol : ∀ r, k.advance review runId .working ⟨.sql q, r⟩ = .done)
    (done : ∀ r, Q r .done) : Adheres review runId k Q (sql q) .working := by
  refine Pool.holds_reads.mpr fun r => ?_
  rw [protocol]
  exact ⟨nofun, done r⟩

theorem runs_body (c : Call) (r : Except Exn c.Answer) (inside : c.Body review) :
    Stage.runs review id ⟨c, r⟩ = .working := by
  cases c with
  | sql q => cases review <;> cases q <;> first | rfl | exact inside.elim
  | kiq _ | load _ | parse _ => cases review <;> exact inside.elim
  | _ => rfl

theorem commits_body (c : Call) (r : Except Exn c.Answer) (inside : c.Body false) :
    Stage.commits id ⟨c, r⟩ = .working := by
  cases c with
  | sql q => cases q <;> first | rfl | exact inside.elim
  | kiq _ | load _ | parse _ => exact inside.elim
  | _ => rfl

/-- The two ways a job ends under the guard, and then its last statement. -/
theorem guarded_then {limit : String} {p : Coroutine (AgentState × Except Exn Unit)}
    {f : AgentState → Coroutine Unit}
    (guard : Adheres review runId k (fun r s => match r with
      | .ok _ => s = .working
      | .error _ => s = .done) (guarded id limit p) .working)
    (last : ∀ state, Adheres review runId k (fun _ s => s = .done) (f state) .working) :
    Adheres review runId k (fun _ s => s = .done) (guarded id limit p >>= f) .working := by
  refine holds_bind.mpr (guard.mono fun r s ends => ?_)
  cases r with
  | ok state =>
      cases ends
      exact last state
  | error exc => exact ends

theorem ends_done {job : Job} (r : Except Exn Unit) {s : Stage} (done : s = .done) :
    Task.ends (.job job) r s := by
  cases r with
  | ok _ => exact done
  | error _ => exact .inl done

theorem runAgent_adheres (deps : Deps) :
    Adheres deps.settings.reviewRequired runId (.job (.runAgent id))
      (Task.ends (.job (.runAgent id))) (runAgent deps id) .fresh := by
  have fetched : Adheres deps.settings.reviewRequired runId (.job (.runAgent id))
      (Leads fun _ => .ready) (Service.getRunInternal id) .fresh :=
    fetch_adheres nofun fun _ => rfl
  have begun : Adheres deps.settings.reviewRequired runId (.job (.runAgent id))
      (Leads fun _ => .working) (Service.markRunning id) .ready :=
    adheres_call (fun _ => ⟨nofun, if_pos rfl⟩) fun _ => if_pos rfl
  refine adheres_then fetched (fun row => ?_) fun _ => .inr rfl
  refine adheres_then begun (fun _ => ?_) fun _ => .inr rfl
  have failed : ∀ error es rs r,
      (Task.job (.runAgent id)).advance deps.settings.reviewRequired runId .working
        ⟨.sql (.markFailed id error es rs), r⟩ = .done := fun _ _ _ _ => if_pos rfl
  have gate : deps.settings.reviewRequired = true → ¬Node.plan.Commits :=
    fun _ commits => commits.elim nofun nofun
  have guard := guarded_adheres deps.settings.runTimeout
    (drive_calls deps id deps.settings.recursionLimit gate
      (initialState row.topic row.userId id) (initialState row.topic row.userId id))
    (drive_safe deps id _ _ _ _ _) runs_body failed
  refine (guarded_then guard fun state => ?_).mono fun r s => ends_done r
  cases deps.settings.reviewRequired with
  | true => exact close_adheres (fun _ => if_pos ⟨rfl, rfl⟩) fun _ => rfl
  | false => exact close_adheres (fun _ => if_pos ⟨rfl, nofun⟩) fun _ => rfl

theorem commitAgentRun_adheres (deps : Deps) :
    Adheres review runId (.job (.commitAgentRun id)) (Task.ends (.job (.commitAgentRun id)))
      (commitAgentRun deps id) .fresh := by
  have fetched : Adheres review runId (.job (.commitAgentRun id)) (Leads fun _ => .working)
      (Service.getRunInternal id) .fresh :=
    fetch_adheres nofun fun _ => rfl
  have loaded : Adheres review runId (.job (.commitAgentRun id)) (Leads fun _ => .working)
      (Service.loadParked id) .working := by
    have pending : Adheres review runId (.job (.commitAgentRun id))
        (Leads fun _ : Option RunRow => .working) (sql (.getPending id)) .working :=
      adheres_call (fun _ => ⟨nofun, if_pos rfl⟩) fun _ => if_pos rfl
    refine adheres_then pending (fun found => ?_) fun _ => rfl
    cases found with
    | none => rfl
    | some row =>
        refine adheres_then (load_adheres nofun fun _ => rfl) (fun _ => ?_) fun _ => rfl
        refine adheres_then (load_adheres nofun fun _ => rfl) (fun _ => ?_) fun _ => rfl
        exact adheres_then (load_adheres nofun fun _ => rfl) (fun _ => rfl) fun _ => rfl
  refine adheres_then fetched (fun row => ?_) fun _ => .inr rfl
  refine adheres_then loaded (fun parked => ?_) fun _ => .inr rfl
  have failed : ∀ error es rs r, (Task.job (.commitAgentRun id)).advance review runId .working
      ⟨.sql (.markFailed id error es rs), r⟩ = .done := fun _ _ _ _ => if_pos rfl
  have inside : ∀ c r, c.Body false →
      (Task.job (.commitAgentRun id)).advance review runId .working ⟨c, r⟩ = .working :=
    fun c r => commits_body c r
  have guard := guarded_adheres deps.settings.runTimeout
    (commitBody_calls (restored row.topic row.userId id parked)) (commitBody_safe _) inside failed
  refine (guarded_then guard fun state => ?_).mono fun r s => ends_done r
  exact close_adheres (fun _ => if_pos rfl) fun _ => rfl

end Jobs

/-- Every process keeps to the protocol of its kind. -/
theorem body_adheres (deps : Deps) (runId : UUID) (task : Task) :
    Pool.Follows (Task.advance deps.settings.reviewRequired runId) (fun _ => .fresh) Stage.Legal
      Task.ends ⟨task, [], task.body deps runId⟩ := by
  refine ⟨nofun, ?_⟩
  cases task with
  | create userId topic => exact create_adheres deps userId topic
  | review userId data => exact review_adheres deps userId data
  | job job =>
      cases job with
      | runAgent id => exact runAgent_adheres deps
      | commitAgentRun id => exact commitAgentRun_adheres deps

end Adheres

end Intellivault.Agent
