import Mathlib.Data.List.Count
import Intellivault.Agent.Acts

/-!
# The census of the run

How many processes and queued jobs have each role.  `turn` says what one step of the system
does to the row and to the census; from there on no invariant looks at a program, a list of
processes or a queue.
-/

namespace Intellivault.Agent

open Lib Prog

abbrev RunProcess := Process Task Call Call.Answer Exn

section Census

variable (review : Bool) (runId : UUID)

def stageOf (p : RunProcess) : Stage := Pool.stage (Task.advance review runId) (fun _ => .fresh) p

def roleOf (p : RunProcess) : Role := p.kind.role (stageOf review runId p)

/-- The jobs in the queue that have a role. -/
def World.queued (w : World) (x : Role) : Nat := (w.queue.map Job.role).count x

def census (pool : RunPool) (x : Role) : Nat :=
  pool.world.queued x + (pool.processes.map (roleOf review runId)).count x

theorem World.queued_snoc (t : Table) (q : List Job) (job : Job) (x : Role) :
    World.queued ⟨t, q ++ [job]⟩ x =
      World.queued ⟨t, q⟩ x + if job.role = x then 1 else 0 := by
  simp only [World.queued, List.map_append, List.count_append, List.map_cons, List.map_nil,
    List.count_singleton, beq_iff_eq]

end Census

/-! ## What holds of every process -/

/-- Everything in the pool is about this run, and every process keeps to its protocol. -/
structure Grounded (deps : Deps) (runId : UUID) (pool : RunPool) : Prop where
  named : ∀ row, pool.world.row = some row → row.id = runId
  queued : ∀ job ∈ pool.world.queue, job.runId = runId
  sound : ∀ p ∈ pool.processes,
    Sound runId p.kind (stageOf deps.settings.reviewRequired runId p) pool.world
  follows : ∀ p ∈ pool.processes,
    Pool.Follows (Task.advance deps.settings.reviewRequired runId) (fun _ => .fresh) Stage.Legal
      Task.ends p

section Turn

variable {deps : Deps} {jsonb : Attributes → Attributes} {runId : UUID} {pool pool' : RunPool}
  {l : Action Task Call Call.Answer Exn}

theorem Grounded.empty : Grounded deps runId .empty :=
  ⟨by simp [RunPool.empty], by simp [RunPool.empty], by simp [RunPool.empty],
    by simp [RunPool.empty]⟩

theorem Sound.later {k : Task} {s : Stage} {w w' : World} (sound : Sound runId k s w)
    (present : w.row ≠ none → w'.row ≠ none) : Sound runId k s w' :=
  ⟨sound.mine, sound.owes, sound.present.imp_right fun h => h.imp_right present⟩

theorem Sound.fresh {k : Task} {w : World} (mine : ∀ job, k = .job job → job.runId = runId) :
    Sound runId k .fresh w := ⟨mine, nofun, .inl rfl⟩

/-- The next call of a process is an act. -/
theorem Grounded.moves {w w' : World} {ps qs : List RunProcess} {k : Task}
    {past : List (Event Call Call.Answer Exn)} {c : Call} {f : Except Exn c.Answer → Coroutine Unit}
    {r : Except Exn c.Answer}
    (grounded : Grounded deps runId ⟨w, ps ++ ⟨k, past, .call c f⟩ :: qs⟩)
    (answer : system jsonb runId c w r w') :
    Moves jsonb deps.settings.reviewRequired runId k ⟨c, r⟩ w
      (stageOf deps.settings.reviewRequired runId ⟨k, past, .call c f⟩)
      (stageOf deps.settings.reviewRequired runId ⟨k, past ++ [⟨c, r⟩], f r⟩) w' := by
  have mem : (⟨k, past, .call c f⟩ : RunProcess) ∈ ps ++ ⟨k, past, .call c f⟩ :: qs := by simp
  have legal := (grounded.follows _ mem).2 r _ rfl
  rw [stageOf, stageOf, Pool.stage_snoc _ _ k past ⟨c, r⟩ (.call c f)]
  exact acts (grounded.sound _ mem) grounded.named legal.1 answer

theorem arrives_cases {w w' : World} {task : Task} (started : arrives w task w') :
    w' = w ∧ (∀ job, task ≠ .job job) ∨
      ∃ job before after, task = .job job ∧ w.queue = before ++ job :: after ∧
        w' = ⟨w.row, before ++ after⟩ := by
  cases task with
  | job job =>
      obtain ⟨before, after, queue, rfl⟩ := started
      exact .inr ⟨job, before, after, rfl, queue, rfl⟩
  | _ => exact .inl ⟨started, nofun⟩

theorem Grounded.next (grounded : Grounded deps runId pool)
    (step : RunStep deps jsonb runId pool l pool') : Grounded deps runId pool' := by
  have follows := step.follows (body_adheres deps runId) grounded.follows
  cases step with
  | @start w w' ps task started =>
      have newcomer : (∀ job, task = .job job → job.runId = runId) → w'.row = w.row →
          ∀ p ∈ ps ++ [⟨task, [], task.body deps runId⟩],
            Sound runId p.kind (stageOf deps.settings.reviewRequired runId p) w' := by
        intro mine row p mem
        rcases List.mem_append.mp mem with old | new
        · exact (grounded.sound p old).later (by rw [row]; exact id)
        · rw [List.mem_singleton.mp new]
          exact .fresh mine
      rcases arrives_cases started with ⟨rfl, request⟩ | ⟨job, before, after, rfl, queue, rfl⟩
      · exact ⟨grounded.named, grounded.queued,
          newcomer (fun job same => (request job same).elim) rfl, follows⟩
      · refine ⟨grounded.named, fun due mem => grounded.queued due ?_, newcomer ?_ rfl, follows⟩
        · rw [queue]
          rcases List.mem_append.mp mem with left | right
          · exact List.mem_append_left _ left
          · exact List.mem_append_right _ (List.mem_cons_of_mem _ right)
        · intro job' same
          cases same
          exact grounded.queued job (by simp [queue])
  | @call w w' before after k past c f r answer =>
      obtain ⟨act, sound⟩ := grounded.moves answer
      refine ⟨act.named grounded.named, act.queue grounded.queued, fun p mem => ?_, follows⟩
      rcases List.mem_append.mp mem with old | new
      · exact (grounded.sound p (List.mem_append_left _ old)).later act.present
      rcases List.mem_cons.mp new with rfl | old
      · exact sound
      · exact (grounded.sound p
          (List.mem_append_right _ (List.mem_cons_of_mem _ old))).later act.present

/-! ## Steps by their effect -/

/-- What a step does to the world and to the census. -/
inductive Turn (deps : Deps) (jsonb : Attributes → Attributes) (runId : UUID) (pool : RunPool)
    (l : Action Task Call Call.Answer Exn) (pool' : RunPool) : Prop
  | request {task : Task} (label : l = .start task) (kind : ∀ job, task ≠ .job job)
      (same : pool'.world = pool.world)
      (count : ∀ x, census deps.settings.reviewRequired runId pool' x =
        census deps.settings.reviewRequired runId pool x +
          if task.role .fresh = x then 1 else 0)
  | taken {job : Job} (label : l = .start (.job job)) (row : pool'.world.row = pool.world.row)
      (count : ∀ x, census deps.settings.reviewRequired runId pool' x =
        census deps.settings.reviewRequired runId pool x)
  | called {k : Task} {past : List (Event Call Call.Answer Exn)} {e : Event Call Call.Answer Exn}
      {a b : Role} (label : l = .call k past e)
      (caller : a = roleOf deps.settings.reviewRequired runId ⟨k, past, .ret ()⟩)
      (counted : 0 < census deps.settings.reviewRequired runId pool a)
      (act : Act jsonb deps.settings.reviewRequired runId k e pool.world a b pool'.world)
      (count : ∀ x, census deps.settings.reviewRequired runId pool' x + (if a = x then 1 else 0) +
        pool.world.queued x =
          census deps.settings.reviewRequired runId pool x + (if b = x then 1 else 0) +
            pool'.world.queued x)

theorem turn (grounded : Grounded deps runId pool)
    (step : RunStep deps jsonb runId pool l pool') : Turn deps jsonb runId pool l pool' := by
  cases step with
  | @start w w' ps task started =>
      rcases arrives_cases started with ⟨rfl, request⟩ | ⟨job, before, after, rfl, queue, rfl⟩
      · refine .request rfl request rfl fun x => ?_
        simp only [census, List.map_append, List.count_append, List.map_cons, List.map_nil,
          List.count_singleton, roleOf, stageOf, Pool.stage_nil, beq_iff_eq]
        omega
      · refine .taken rfl rfl fun x => ?_
        have first : (Task.job job).role .fresh = job.role := by cases job <;> rfl
        simp only [census, World.queued, queue, List.map_append, List.count_append, List.map_cons,
          List.map_nil, List.count_cons, List.count_nil, roleOf, stageOf, Pool.stage_nil, first]
        omega
  | @call w w' before after k past c f r answer =>
      have counted : 0 < census deps.settings.reviewRequired runId
          ⟨w, before ++ ⟨k, past, .call c f⟩ :: after⟩
          (roleOf deps.settings.reviewRequired runId ⟨k, past, .call c f⟩) := by
        refine Nat.add_pos_right _ (List.count_pos_iff.mpr ?_)
        exact List.mem_map_of_mem (by simp)
      refine .called rfl rfl counted (grounded.moves answer).1 fun x => ?_
      have before' : roleOf deps.settings.reviewRequired runId ⟨k, past, .call c f⟩ =
          roleOf deps.settings.reviewRequired runId ⟨k, past, .ret ()⟩ := rfl
      have after' : roleOf deps.settings.reviewRequired runId ⟨k, past ++ [⟨c, r⟩], f r⟩ =
          k.role (stageOf deps.settings.reviewRequired runId ⟨k, past ++ [⟨c, r⟩], f r⟩) := rfl
      simp only [census, List.map_append, List.count_append, List.map_cons, List.count_cons,
        beq_iff_eq, before', after']
      omega

/-- A request that comes changes no role that counts: it is idle, or about to ask. -/
theorem request_quiet {task : Task} {n n' : Role → Nat} (kind : ∀ job, task ≠ .job job)
    (count : ∀ x, n' x = n x + if task.role .fresh = x then 1 else 0) :
    ∀ x, x ≠ .idle → x ≠ .asking → n' x = n x := by
  intro x idle asking
  rw [count, if_neg, Nat.add_zero]
  cases task with
  | create _ _ => exact idle.symm
  | review _ _ => exact asking.symm
  | job job => exact (kind job rfl).elim

end Turn

end Intellivault.Agent
