import Intellivault.Agent.Database
import Intellivault.Agent.Service
import Intellivault.Lib.Changes
import Intellivault.Lib.Logs
import Intellivault.Lib.Script
import Intellivault.Stream.RoundTrip

/-!
# The status stream

`stream_run` polls the row of a run and sends an event for every version it has not sent yet,
until it polls a terminal status.  It is run for so many polls at most; a stream that no row ends
is followed as far as one likes.

Whatever its surroundings do, the events it sends are the changes of the rows it polled
(`Streamed`); against surroundings that answer with given rows and clock readings these are the
rows from the first one on.
-/

namespace Intellivault.Agent

open Lib Prog
open Intellivault.Stream (Frame SseEvent)

/-! ## `model_dump(mode="json")` -/

/-- An optional value. -/
def orNull {α : Type} (dump : α → Json) : Option α → Json
  | none => .null
  | some value => dump value

def uuidJson (id : UUID) : Json := .str (uuidStr id)

def Plan.modelDump (p : Plan) : Json :=
  .obj [("summary", .str p.summary), ("queries", .arr (p.queries.map .str))]

def AgentRunResult.modelDump (r : AgentRunResult) : Json :=
  .obj [
    ("analysis", .str r.analysis),
    ("entities_created", .num (toString r.entitiesCreated)),
    ("relationships_created", .num (toString r.relationshipsCreated)),
    ("skipped", .arr (r.skipped.map .str))]

def DraftEntity.modelDump (e : DraftEntity) : Json :=
  .obj [
    ("temp_id", .str e.tempId),
    ("name", .str e.name.val),
    ("kind", .str e.kind.val),
    ("attributes", .obj e.attributes),
    ("existing_id", orNull uuidJson e.existingId)]

def DraftRelationship.modelDump (r : DraftRelationship) : Json :=
  .obj [("from_ref", .str r.fromRef), ("to_ref", .str r.toRef), ("kind", .str r.kind.val)]

def StructuredResult.modelDump (s : StructuredResult) : Json :=
  .obj [
    ("entities", .arr (s.entities.map DraftEntity.modelDump)),
    ("relationships", .arr (s.relationships.map DraftRelationship.modelDump))]

/-- The fields of `AgentRunSummary` come first; `isoformat` prints a point in time. -/
def AgentRun.modelDump (isoformat : Time → String) (run : AgentRun) : Json :=
  .obj [
    ("id", uuidJson run.id),
    ("topic", .str run.topic),
    ("status", .str run.status.text),
    ("created_at", .str (isoformat run.createdAt)),
    ("updated_at", .str (isoformat run.updatedAt)),
    ("current_node", orNull .str run.currentNode),
    ("plan", orNull Plan.modelDump run.plan),
    ("result", orNull AgentRunResult.modelDump run.result),
    ("pending", orNull StructuredResult.modelDump run.pending),
    ("committed_entity_ids", .arr (run.committedEntityIds.map uuidJson)),
    ("committed_relationship_ids", .arr (run.committedRelationshipIds.map uuidJson)),
    ("error", orNull .str run.error)]

/-! ## `stream_run` -/

inductive StreamCall where
  /-- A call of the agent service. -/
  | agent (c : Call)
  /-- `asyncio.get_running_loop().time()` -/
  | time
  /-- `yield`, until the response asks for the next chunk. -/
  | yield (frame : Frame)
  /-- `asyncio.sleep(seconds)` -/
  | sleep (seconds : Rat)

def StreamCall.Answer : StreamCall → Type
  | .agent c => c.Answer
  | .time => Rat
  | .yield _ | .sleep _ => Unit

/-- An asynchronous generator, up to its `return`. -/
abbrev Generator (α : Type) : Type := Prog StreamCall StreamCall.Answer Exn α

def await (c : StreamCall) : Generator c.Answer := perform c

namespace Service

/-- `_STREAM_TERMINAL_STATUSES` -/
def streamTerminalStatuses : List AgentRunStatus :=
  [.succeeded, .failed, .cancelled, .awaitingReview]

/-- `_POLL_INTERVAL_SECONDS` -/
def pollIntervalSeconds : Rat := 1

/-- `_HEARTBEAT_INTERVAL_SECONDS` -/
def heartbeatIntervalSeconds : Rat := 15

def statusFrame (isoformat : Time → String) (run : AgentRun) : Frame :=
  .event "status" (run.modelDump isoformat)

def keepAliveFrame : Frame := .comment "keep-alive"

/-- `run = await get_run(..)` -/
def poll (userId runId : UUID) : Generator AgentRun :=
  (getRun userId runId).interp fun c => await (.agent c)

/-- `if run.updated_at != last_updated_at: ..`; the two variables after it. -/
def sendChange (isoformat : Time → String) (run : AgentRun) (lastUpdatedAt : Option Time)
    (lastHeartbeat : Rat) : Generator (Option Time × Rat) :=
  if some run.updatedAt ≠ lastUpdatedAt then do
    let _ ← await (.yield (statusFrame isoformat run))
    let now : Rat ← await .time
    return (some run.updatedAt, now)
  else return (lastUpdatedAt, lastHeartbeat)

/-- `if now - last_heartbeat >= _HEARTBEAT_INTERVAL_SECONDS: ..` -/
def sendKeepAlive (lastHeartbeat : Rat) : Generator Rat := do
  let now : Rat ← await .time
  if now - lastHeartbeat ≥ heartbeatIntervalSeconds then do
    let _ ← await (.yield keepAliveFrame)
    return now
  else return lastHeartbeat

/-- The `while True`, for so many polls at most; whether it returned. -/
def streamLoop (isoformat : Time → String) (userId runId : UUID) :
    Nat → Option Time → Rat → Generator Bool
  | 0, _, _ => return false
  | polls + 1, lastUpdatedAt, lastHeartbeat => do
      let run ← poll userId runId
      let (lastUpdatedAt, lastHeartbeat) ← sendChange isoformat run lastUpdatedAt lastHeartbeat
      if run.status ∈ streamTerminalStatuses then return true
      else
        let lastHeartbeat ← sendKeepAlive lastHeartbeat
        let _ ← await (.sleep pollIntervalSeconds)
        streamLoop isoformat userId runId polls lastUpdatedAt lastHeartbeat

/-- `stream_run` -/
def streamRun (isoformat : Time → String) (userId runId : UUID) (polls : Nat) : Generator Bool := do
  let now : Rat ← await .time
  streamLoop isoformat userId runId polls none now

end Service

/-! ## What a stream logs -/

/-- The run a row shows its owner. -/
def RunRow.toAgentRun (row : RunRow) : AgentRun where
  id := row.id
  topic := row.topic
  status := row.status
  currentNode := row.currentNode
  plan := row.plan
  result := row.result
  pending := row.pending
  committedEntityIds := row.committedEntityIds
  committedRelationshipIds := row.committedRelationshipIds
  error := row.error
  createdAt := row.createdAt
  updatedAt := row.updatedAt

/-- The stream stops after such a run. -/
def AgentRun.Terminal (run : AgentRun) : Prop := run.status ∈ Service.streamTerminalStatuses

abbrev StreamLog := List (Event StreamCall StreamCall.Answer Exn)

namespace StreamLog

/-- The row a statement found. -/
def fetchedRow : Event StreamCall StreamCall.Answer Exn → Option RunRow
  | ⟨.agent (.sql (.getRun _ _)), r⟩ =>
      match (r : Except Exn (Option RunRow)) with
      | .ok found => found
      | .error _ => none
  | _ => none

/-- The run a poll returned. -/
def polledRun : Event StreamCall StreamCall.Answer Exn → Option AgentRun
  | ⟨.agent (.parse row), .ok _⟩ => some row.toAgentRun
  | _ => none

def yieldedFrame : Event StreamCall StreamCall.Answer Exn → Option Frame
  | ⟨.yield frame, _⟩ => some frame
  | _ => none

/-- The rows found, in order. -/
def fetched (log : StreamLog) : List RunRow := log.filterMap fetchedRow

/-- The runs the polls returned, in order. -/
def polled (log : StreamLog) : List AgentRun := log.filterMap polledRun

/-- The frames sent, in order. -/
def frames (log : StreamLog) : List Frame := log.filterMap yieldedFrame

/-- The events among them, as their reader sees them. -/
def statuses (log : StreamLog) : List SseEvent := (frames log).filterMap Frame.pair

/-- The call did not raise; a poll found its row. -/
def Served (e : Event StreamCall StreamCall.Answer Exn) : Prop :=
  (∃ a, e.2 = .ok a) ∧
    ∀ userId runId, e.1 = .agent (.sql (.getRun userId runId)) → fetchedRow e ≠ none

def Answered (log : StreamLog) : Prop := ∀ e ∈ log, Served e

variable {log log' : StreamLog}

@[simp] theorem fetched_append : fetched (log ++ log') = fetched log ++ fetched log' :=
  List.filterMap_append

@[simp] theorem polled_append : polled (log ++ log') = polled log ++ polled log' :=
  List.filterMap_append

@[simp] theorem frames_append : frames (log ++ log') = frames log ++ frames log' :=
  List.filterMap_append

@[simp] theorem answered_append : Answered (log ++ log') ↔ Answered log ∧ Answered log' :=
  List.forall_mem_append

end StreamLog

open StreamLog Intellivault.Agent.Service

variable {isoformat : Time → String} {userId runId : UUID} {lastUpdatedAt : Option Time}
  {log log' : StreamLog} {run : AgentRun} {polls : Nat} {r : Except Exn Bool}

/-- The event of a run. -/
def statusEvent (isoformat : Time → String) (run : AgentRun) : SseEvent :=
  ⟨"status", run.modelDump isoformat⟩

/-- What the generator has done when it is over, from a state in which `lastUpdatedAt` was sent
last, in so many polls at most. -/
structure Streamed (isoformat : Time → String) (polls : Nat) (lastUpdatedAt : Option Time)
    (log : StreamLog) (r : Except Exn Bool) : Prop where
  /-- It sent the changes of what it polled. -/
  sent : statuses log =
    (changes AgentRun.updatedAt lastUpdatedAt (polled log)).map (statusEvent isoformat)
  /-- It sent nothing else but keep-alives. -/
  beats : ∀ frame ∈ frames log, frame.pair = none → frame = keepAliveFrame
  /-- There is no poll after a terminal run. -/
  pending : (polled log).Pairwise fun earlier _ => ¬earlier.Terminal
  bounded : (polled log).length ≤ polls
  /-- It returned because of the last run. -/
  returned : r = .ok true → ∃ run, (polled log).getLast? = some run ∧ run.Terminal
  /-- The polls were used up. -/
  spent : r = .ok false → (polled log).length = polls ∧ ∀ run ∈ polled log, ¬run.Terminal
  /-- Only an exception keeps it from going on, and it skips no row. -/
  completed : Answered log →
    (∃ b, r = .ok b) ∧ (fetched log).map RunRow.toAgentRun = polled log

/-- What one turn of the loop has done, up to where it sleeps. -/
structure StreamTurn (isoformat : Time → String) (lastUpdatedAt : Option Time) (run : AgentRun)
    (log : StreamLog) : Prop where
  polled : polled log = [run]
  fetched : (fetched log).map RunRow.toAgentRun = [run]
  sent : statuses log =
    if some run.updatedAt = lastUpdatedAt then [] else [statusEvent isoformat run]
  beats : ∀ frame ∈ frames log, frame.pair = none → frame = keepAliveFrame

theorem statuses_append : statuses (log ++ log') = statuses log ++ statuses log' := by
  rw [statuses, frames_append, List.filterMap_append]
  rfl

/-- Some calls that only wait. -/
structure Idle (log : StreamLog) : Prop where
  polled : polled log = []
  fetched : fetched log = []
  beats : ∀ frame ∈ frames log, frame = keepAliveFrame

theorem Idle.statuses (idle : Idle log) : statuses log = [] := by
  refine List.filterMap_eq_nil_iff.mpr fun frame mem => ?_
  rw [idle.beats frame mem]
  rfl

theorem StreamTurn.idle (turn : StreamTurn isoformat lastUpdatedAt run log) (idle : Idle log') :
    StreamTurn isoformat lastUpdatedAt run (log ++ log') where
  polled := by rw [polled_append, turn.polled, idle.polled, List.append_nil]
  fetched := by rw [fetched_append, idle.fetched, List.append_nil, turn.fetched]
  sent := by rw [statuses_append, idle.statuses, List.append_nil, turn.sent]
  beats := by
    rw [frames_append]
    exact List.forall_mem_append.mpr ⟨turn.beats, fun frame mem _ => idle.beats frame mem⟩

/-- No poll is allowed. -/
theorem Streamed.start : Streamed isoformat 0 lastUpdatedAt [] (.ok false) where
  sent := rfl
  beats := List.forall_mem_nil _
  pending := .nil
  bounded := Nat.le_refl _
  returned := nofun
  spent := fun _ => ⟨rfl, List.forall_mem_nil _⟩
  completed := fun _ => ⟨⟨false, rfl⟩, rfl⟩

/-- An exception before anything was polled. -/
theorem Streamed.raised {x : Exn} (unpolled : polled log = []) (unsent : frames log = [])
    (failed : ¬Answered log) : Streamed isoformat polls lastUpdatedAt log (.error x) where
  sent := by rw [statuses, unsent, unpolled]; rfl
  beats := by rw [unsent]; exact nofun
  pending := by rw [unpolled]; exact .nil
  bounded := by rw [unpolled]; exact Nat.zero_le _
  returned := nofun
  spent := nofun
  completed := fun answered => absurd answered failed

/-- A turn that is the last one. -/
theorem StreamTurn.last (turn : StreamTurn isoformat lastUpdatedAt run log) (stops : r ≠ .ok false)
    (terminal : r = .ok true → run.Terminal) (failed : (∃ x, r = .error x) → ¬Answered log) :
    Streamed isoformat (polls + 1) lastUpdatedAt log r where
  sent := by
    rw [turn.sent, turn.polled, changes_cons]
    split <;> rfl
  beats := turn.beats
  pending := by rw [turn.polled]; exact List.pairwise_singleton _ _
  bounded := by rw [turn.polled]; exact Nat.succ_le_succ (Nat.zero_le _)
  returned := fun stopped => ⟨run, by rw [turn.polled]; rfl, terminal stopped⟩
  spent := fun used => absurd used stops
  completed := by
    intro answered
    refine ⟨?_, turn.fetched.trans turn.polled.symm⟩
    cases r with
    | ok b => exact ⟨b, rfl⟩
    | error x => exact absurd answered (failed ⟨x, rfl⟩)

/-- An exception in a turn. -/
theorem StreamTurn.raised {x : Exn} (turn : StreamTurn isoformat lastUpdatedAt run log)
    (failed : ¬Answered log) : Streamed isoformat (polls + 1) lastUpdatedAt log (.error x) :=
  turn.last nofun nofun fun _ => failed

/-- A turn with a terminal run. -/
theorem StreamTurn.stops (turn : StreamTurn isoformat lastUpdatedAt run log)
    (terminal : run.Terminal) : Streamed isoformat (polls + 1) lastUpdatedAt log (.ok true) :=
  turn.last nofun (fun _ => terminal) nofun

/-- Any other turn is followed by the next one. -/
theorem StreamTurn.goesOn (turn : StreamTurn isoformat lastUpdatedAt run log)
    (pending : ¬run.Terminal) (rest : Streamed isoformat polls (some run.updatedAt) log' r) :
    Streamed isoformat (polls + 1) lastUpdatedAt (log ++ log') r where
  sent := by
    rw [statuses_append, turn.sent, rest.sent, polled_append, turn.polled, List.singleton_append,
      changes_cons, List.map_append]
    split <;> rfl
  beats := by
    rw [frames_append]
    exact List.forall_mem_append.mpr ⟨turn.beats, rest.beats⟩
  pending := by
    rw [polled_append, turn.polled]
    exact List.pairwise_cons.mpr ⟨fun _ _ => pending, rest.pending⟩
  bounded := by
    rw [polled_append, turn.polled, List.singleton_append, List.length_cons]
    exact Nat.succ_le_succ rest.bounded
  returned := by
    intro stopped
    obtain ⟨last, found, terminal⟩ := rest.returned stopped
    refine ⟨last, ?_, terminal⟩
    rw [polled_append, turn.polled, List.getLast?_append, found]
    rfl
  spent := by
    intro used
    obtain ⟨length, going⟩ := rest.spent used
    rw [polled_append, turn.polled, List.singleton_append]
    exact ⟨congrArg (· + 1) length, List.forall_mem_cons.mpr ⟨pending, going⟩⟩
  completed := by
    intro answered
    obtain ⟨ended, same⟩ := rest.completed (answered_append.mp answered).2
    refine ⟨ended, ?_⟩
    rw [fetched_append, List.map_append, turn.fetched, same, polled_append, turn.polled]

/-! ## The parts of a turn -/

/-- A call that raised was not answered. -/
theorem not_answered {c : StreamCall} {x : Exn} (mem : ⟨c, .error x⟩ ∈ log) : ¬Answered log :=
  fun answered => of_error_eq_ok (answered _ mem).1.choose_spec

theorem poll_logs :
    (poll userId runId).Logs (fun _ => True) fun log r =>
      frames log = [] ∧
        match r with
        | .ok run => polled log = [run] ∧ (fetched log).map RunRow.toAgentRun = [run]
        | .error _ => polled log = [] ∧ ¬Answered log := by
  refine fun found _ => ?_
  rcases found with x | _ | row
  · exact ⟨rfl, rfl, not_answered (.head _)⟩
  · exact ⟨rfl, rfl, fun answered => (answered _ (.head _)).2 _ _ rfl rfl⟩
  · refine fun parsed _ => ?_
    cases parsed with
    | error x => exact ⟨rfl, rfl, not_answered (.tail _ (.head _))⟩
    | ok _ => exact ⟨rfl, rfl, rfl⟩

theorem sendChange_logs {lastHeartbeat : Rat} :
    (sendChange isoformat run lastUpdatedAt lastHeartbeat).Logs (fun _ => True) fun log r =>
      polled log = [] ∧ fetched log = [] ∧
        frames log =
          (if some run.updatedAt = lastUpdatedAt then [] else [statusFrame isoformat run]) ∧
        match r with
        | .ok (updatedAt, _) => updatedAt = some run.updatedAt
        | .error _ => ¬Answered log := by
  by_cases known : some run.updatedAt = lastUpdatedAt
  · rw [sendChange, if_neg (not_not.mpr known), if_pos known]
    exact ⟨rfl, rfl, rfl, known.symm⟩
  · rw [sendChange, if_pos known, if_neg known]
    refine fun sent _ => ?_
    cases sent with
    | error x => exact ⟨rfl, rfl, rfl, not_answered (.head _)⟩
    | ok _ =>
        refine fun now _ => ?_
        cases now with
        | error x => exact ⟨rfl, rfl, rfl, not_answered (.tail _ (.head _))⟩
        | ok _ => exact ⟨rfl, rfl, rfl, rfl⟩

theorem sendKeepAlive_logs {lastHeartbeat : Rat} :
    (sendKeepAlive lastHeartbeat).Logs (fun _ => True) fun log r =>
      Idle log ∧ ∀ x, r = .error x → ¬Answered log := by
  refine fun (now : Except Exn Rat) _ => ?_
  cases now with
  | error x => exact ⟨⟨rfl, rfl, nofun⟩, fun _ _ => not_answered (.head _)⟩
  | ok now =>
      show Prog.Logs _ (if now - lastHeartbeat ≥ heartbeatIntervalSeconds then _ else _) _
      split
      · refine fun sent _ => ?_
        have beat : ∀ frame ∈ [keepAliveFrame], frame = keepAliveFrame :=
          fun _ mem => List.mem_singleton.mp mem
        cases sent with
        | error x => exact ⟨⟨rfl, rfl, beat⟩, fun _ _ => not_answered (.tail _ (.head _))⟩
        | ok _ => exact ⟨⟨rfl, rfl, beat⟩, nofun⟩
      · exact ⟨⟨rfl, rfl, nofun⟩, nofun⟩

/-- A poll and what is sent about it begin a turn. -/
theorem turn_begins (unsent : frames log = []) (returned : polled log = [run])
    (found : (fetched log).map RunRow.toAgentRun = [run]) (unpolled : polled log' = [])
    (unfetched : fetched log' = [])
    (sent : frames log' =
      if some run.updatedAt = lastUpdatedAt then [] else [statusFrame isoformat run]) :
    StreamTurn isoformat lastUpdatedAt run (log ++ log') where
  polled := by rw [polled_append, returned, unpolled, List.append_nil]
  fetched := by rw [fetched_append, unfetched, List.append_nil, found]
  sent := by
    rw [statuses, frames_append, unsent, List.nil_append, sent]
    split <;> rfl
  beats := by
    rw [frames_append, unsent, List.nil_append, sent]
    split
    · exact nofun
    · exact List.forall_mem_singleton.mpr nofun

/-! ## The loop -/

/-- The rest of a turn that is not the last one, and the turns after it. -/
theorem wait_logs {lastHeartbeat : Rat} (turn : StreamTurn isoformat lastUpdatedAt run log)
    (pending : ¬run.Terminal)
    (rest : ∀ lastHeartbeat : Rat,
      (streamLoop isoformat userId runId polls (some run.updatedAt) lastHeartbeat).Logs
        (fun _ => True) (Streamed isoformat polls (some run.updatedAt))) :
    Prog.Logs (fun _ => True)
      (do
        let lastHeartbeat ← sendKeepAlive lastHeartbeat
        let _ ← await (.sleep pollIntervalSeconds)
        streamLoop isoformat userId runId polls (some run.updatedAt) lastHeartbeat)
      fun log' => Streamed isoformat (polls + 1) lastUpdatedAt (log ++ log') := by
  refine logs_bind.mpr (sendKeepAlive_logs.mono fun log₁ r ⟨idle, raised⟩ => ?_)
  have waited := turn.idle idle
  cases r with
  | error x => exact waited.raised fun answered => raised x rfl (answered_append.mp answered).2
  | ok lastHeartbeat =>
      refine fun slept _ => ?_
      have asleep : Idle [⟨.sleep pollIntervalSeconds, slept⟩] := ⟨rfl, rfl, nofun⟩
      have waited := waited.idle asleep
      cases slept with
      | error x =>
          show Streamed _ _ _ (log ++ (log₁ ++ [_])) _
          rw [← List.append_assoc]
          exact waited.raised (not_answered (List.mem_append_right _ (.head _)))
      | ok _ =>
          refine (rest lastHeartbeat).mono fun log₂ r streamed => ?_
          show Streamed _ _ _ (log ++ (log₁ ++ ([_] ++ log₂))) _
          rw [← List.append_assoc, ← List.append_assoc]
          exact waited.goesOn pending streamed

theorem streamLoop_logs {lastHeartbeat : Rat} :
    (streamLoop isoformat userId runId polls lastUpdatedAt lastHeartbeat).Logs (fun _ => True)
      (Streamed isoformat polls lastUpdatedAt) := by
  -- Induction on the polls that are left; `lastUpdatedAt` is what the turns before sent last.
  induction polls generalizing lastUpdatedAt lastHeartbeat with
  | zero => exact Streamed.start
  | succ polls ih =>
      rw [streamLoop]
      refine logs_bind.mpr (poll_logs.mono fun log₁ r ⟨unsent, polled⟩ => ?_)
      cases r with
      | error x => exact .raised polled.1 unsent polled.2
      | ok run =>
          refine logs_bind.mpr
            (sendChange_logs.mono fun log₂ r ⟨unpolled, unfetched, sent, after⟩ => ?_)
          have turn := turn_begins unsent polled.1 polled.2 unpolled unfetched sent
          cases r with
          | error x => exact turn.raised fun answered => after (answered_append.mp answered).2
          | ok vars =>
              obtain ⟨updatedAt, lastHeartbeat⟩ := vars
              obtain rfl : updatedAt = some run.updatedAt := after
              show Prog.Logs _ (if run.status ∈ streamTerminalStatuses then _ else _) _
              split
              · rename_i terminal
                show Streamed _ _ _ (log₁ ++ (log₂ ++ [])) _
                rw [List.append_nil]
                exact turn.stops terminal
              · rename_i pending
                refine (wait_logs turn pending fun _ => ih).mono fun log₃ r streamed => ?_
                rwa [← List.append_assoc]

theorem streamRun_logs :
    (streamRun isoformat userId runId polls).Logs (fun _ => True)
      (Streamed isoformat polls none) := by
  refine fun now _ => ?_
  cases now with
  | error x => exact .raised rfl rfl (not_answered (.head _))
  | ok now =>
      refine streamLoop_logs.mono fun log r streamed => ?_
      exact {
        streamed with
        completed := fun answered =>
          streamed.completed (List.forall_mem_of_forall_mem_cons answered) }

/-- **Every change is sent**, whoever answers the calls of the stream, and however it ends. -/
theorem streamRun_streamed {S : Type} {H : Handler StreamCall StreamCall.Answer Exn S} {s s' : S}
    (ran : Runs H (streamRun isoformat userId runId polls) s log (ended r) s') :
    Streamed isoformat polls none log r :=
  ran.logs (fun _ _ _ _ _ => trivial) streamRun_logs

/-! ## Given rows -/

/-- How far the surroundings have come. -/
structure Progress where
  polls : Nat := 0
  readings : Nat := 0

/-- Surroundings whose polls find the rows of a sequence, whose clock shows the times of another
one, and in which nothing fails. -/
def polling (rows : Nat → RunRow) (clock : Nat → Rat) :
    (c : StreamCall) → Progress → Except Exn c.Answer × Progress
  | .agent (.sql (.getRun _ _)), s => (.ok (some (rows s.polls)), { s with polls := s.polls + 1 })
  | .agent (.parse _), s => (.ok (), s)
  | .agent _, s => (.error .cancelled, s)
  | .time, s => (.ok (clock s.readings), { s with readings := s.readings + 1 })
  | .yield _, s => (.ok (), s)
  | .sleep _, s => (.ok (), s)

section

variable (rows : Nat → RunRow) (clock : Nat → Rat)

theorem fetched_step (c : StreamCall) (s : Progress) :
    (List.range s.polls).map rows ++ fetched [⟨c, (polling rows clock c s).1⟩] =
      (List.range (polling rows clock c s).2.polls).map rows := by
  cases c with
  | time | yield _ | sleep _ => exact List.append_nil _
  | agent c =>
      cases c with
      | sql q =>
          cases q with
          | getRun _ _ =>
              show _ = (List.range (s.polls + 1)).map rows
              rw [List.range_succ, List.map_append]
              rfl
          | _ => exact List.append_nil _
      | _ => exact List.append_nil _

/-- The rows are found one after the other, whatever program asks for them. -/
theorem fetched_run {α : Type} (p : Generator α) (s : Progress) :
    (List.range s.polls).map rows ++ fetched (p.run (polling rows clock) s).1 =
      (List.range (p.run (polling rows clock) s).2.2.polls).map rows := by
  induction p generalizing s with
  | ret a => exact List.append_nil _
  | raise x => exact List.append_nil _
  | call c k ih =>
      have first : fetched ((Prog.call c k).run (polling rows clock) s).1 =
          fetched [⟨c, (polling rows clock c s).1⟩] ++
            fetched ((k (polling rows clock c s).1).run (polling rows clock)
              (polling rows clock c s).2).1 := by
        rw [← fetched_append]
        rfl
      rw [first, ← List.append_assoc, fetched_step]
      exact ih _ _

/-- The calls a stream makes. -/
def StreamCall.Polls : StreamCall → Prop
  | .agent (.sql (.getRun _ _)) | .agent (.parse _) | .time | .yield _ | .sleep _ => True
  | .agent _ => False

theorem poll_calls : (poll userId runId).Calls StreamCall.Polls := by
  refine ⟨trivial, fun found => ?_⟩
  rcases found with x | _ | row
  · trivial
  · trivial
  · refine ⟨trivial, fun parsed => ?_⟩
    cases parsed <;> trivial

theorem sendChange_calls {lastHeartbeat : Rat} :
    (sendChange isoformat run lastUpdatedAt lastHeartbeat).Calls StreamCall.Polls := by
  rw [sendChange]
  split
  · exact .bind (calls_perform trivial) fun _ => .bind (calls_perform trivial) fun _ => trivial
  · trivial

theorem sendKeepAlive_calls {lastHeartbeat : Rat} :
    (sendKeepAlive lastHeartbeat).Calls StreamCall.Polls := by
  refine .bind (calls_perform trivial) fun now => ?_
  split
  · exact .bind (calls_perform trivial) fun _ => trivial
  · trivial

theorem streamLoop_calls {lastHeartbeat : Rat} :
    (streamLoop isoformat userId runId polls lastUpdatedAt lastHeartbeat).Calls
      StreamCall.Polls := by
  induction polls generalizing lastUpdatedAt lastHeartbeat with
  | zero => trivial
  | succ polls ih =>
      rw [streamLoop]
      refine .bind poll_calls fun run => .bind sendChange_calls fun vars => ?_
      show Prog.Calls _ (if run.status ∈ streamTerminalStatuses then _ else _)
      split
      · trivial
      · exact .bind sendKeepAlive_calls fun _ => .bind (calls_perform trivial) fun _ => ih

theorem streamRun_calls :
    (streamRun isoformat userId runId polls).Calls StreamCall.Polls :=
  .bind (calls_perform trivial) fun _ => streamLoop_calls

theorem served_step {c : StreamCall} (asked : c.Polls) (s : Progress) :
    Served ⟨c, (polling rows clock c s).1⟩ := by
  cases c with
  | time | yield _ | sleep _ => exact ⟨⟨_, rfl⟩, nofun⟩
  | agent c =>
      cases c with
      | sql q =>
          cases q with
          | getRun _ _ => exact ⟨⟨_, rfl⟩, fun _ _ _ => Option.some_ne_none _⟩
          | _ => exact asked.elim
      | parse _ => exact ⟨⟨_, rfl⟩, nofun⟩
      | _ => exact asked.elim

/-- These surroundings answer whatever a stream asks. -/
theorem answered_run {α : Type} {p : Generator α} (asked : p.Calls StreamCall.Polls)
    (s : Progress) : Answered (p.run (polling rows clock) s).1 := by
  induction p generalizing s with
  | ret a => exact List.forall_mem_nil _
  | raise x => exact List.forall_mem_nil _
  | call c k ih =>
      exact List.forall_mem_cons.mpr ⟨served_step rows clock asked.1 s, ih _ (asked.2 _) _⟩

/-- A stream in these surroundings: its log, how it ends and how far they have come. -/
def follow (isoformat : Time → String) (userId runId : UUID) (polls : Nat) :
    StreamLog × Except Exn Bool × Progress :=
  (streamRun isoformat userId runId polls).run (polling rows clock) {}

/-- It does not fail, and polls the rows of the sequence from the first one on. -/
theorem follow_streamed (isoformat : Time → String) (userId runId : UUID) (polls : Nat) :
    let ran := follow rows clock isoformat userId runId polls
    Streamed isoformat polls none ran.1 ran.2.1 ∧ (∃ b, ran.2.1 = .ok b) ∧
      polled ran.1 = (List.range ran.2.2.polls).map fun i => (rows i).toAgentRun := by
  intro ran
  have runs : Runs (fun _ _ _ _ => True) (streamRun isoformat userId runId polls) {}
      ran.1 (ended ran.2.1) ran.2.2 := runs_run (fun _ _ => trivial) _ _
  have streamed := streamRun_streamed runs
  have complete := streamed.completed (answered_run rows clock streamRun_calls {})
  have found : fetched ran.1 = (List.range ran.2.2.polls).map rows :=
    fetched_run rows clock (streamRun isoformat userId runId polls) {}
  refine ⟨streamed, complete.1, complete.2.symm.trans ?_⟩
  rw [found, List.map_map]
  rfl

end

/-- Where `updated_at` determines the run, the last event is the last run that was polled. -/
theorem Streamed.lastSent (streamed : Streamed isoformat polls none log r)
    (versioned : ∀ b ∈ polled log, ∀ c ∈ polled log, b.updatedAt = c.updatedAt → b = c) :
    (statuses log).getLast? = (polled log).getLast?.map (statusEvent isoformat) := by
  rw [streamed.sent, List.getLast?_map, getLast?_changes versioned]

/-- Where a stream stands that polled the first `n` of some runs. -/
theorem Streamed.until {f : Nat → AgentRun} {n : Nat} {stopped : Bool}
    (streamed : Streamed isoformat polls lastUpdatedAt log (.ok stopped))
    (first : polled log = (List.range n).map f) :
    (∀ i, i + 1 < n → ¬(f i).Terminal) ∧
      if stopped then ∃ m, n = m + 1 ∧ (f m).Terminal else n = polls ∧ ∀ i < n, ¬(f i).Terminal := by
  have pending := streamed.pending
  rw [first] at pending
  refine ⟨fun i before => ?_, ?_⟩
  · have early : i < ((List.range n).map f).length := by
      rw [List.length_map, List.length_range]
      omega
    have late : i + 1 < ((List.range n).map f).length := by
      rwa [List.length_map, List.length_range]
    have apart := List.pairwise_iff_getElem.mp pending i (i + 1) early late (Nat.lt_succ_self i)
    rwa [List.getElem_map, List.getElem_range] at apart
  · cases stopped with
    | false =>
        obtain ⟨length, going⟩ := streamed.spent rfl
        rw [first] at length going
        rw [List.length_map, List.length_range] at length
        exact ⟨length, fun i before => going _ (List.mem_map_of_mem (List.mem_range.mpr before))⟩
    | true =>
        obtain ⟨run, last, terminal⟩ := streamed.returned rfl
        cases n with
        | zero =>
            rw [first] at last
            cases last
        | succ m =>
            rw [first, List.range_succ, List.map_append, List.map_singleton,
              List.getLast?_concat] at last
            obtain rfl := Option.some.inj last
            exact ⟨m, rfl, terminal⟩

/-! ## The version column -/

/-- A statement leaves the row alone, or stamps it. -/
theorem rewrite_stamps (jsonb : Attributes → Attributes) (now : Time) (q : Sql) (row : RunRow) :
    q.rewrite jsonb now row = row ∨ (q.rewrite jsonb now row).updatedAt = now := by
  cases q <;> first | exact .inl rfl | exact .inr rfl

/-- A statement that changes the status of a run assigns `updated_at`. -/
theorem exec_stamps {jsonb : Attributes → Attributes} {newId : UUID} {now : Time} {q : Sql}
    {before after : RunRow} (done : (q.exec jsonb newId now (some before)).1 = some after)
    (changed : after.status ≠ before.status) : after.updatedAt = now := by
  by_cases update : q.runId = none
  · cases q with
    | insertRun _ _ =>
        cases done
        rfl
    | _ => cases update
  · rw [Sql.exec_some q update] at done
    obtain rfl := Option.some.inj done
    split
    · rename_i same
      rw [if_pos same] at changed
      exact (rewrite_stamps jsonb now q before).resolve_left fun kept => changed (by rw [kept])
    · rename_i other
      rw [if_neg other] at changed
      exact absurd rfl changed

/-! ## The guarantee -/

/-- The `status` a reader finds in an event. -/
def statusField (event : SseEvent) : Option Json :=
  match event.data with
  | .obj fields => fields.lookup "status"
  | _ => none

/-- **The status stream delivers every observed change, and always the last one.**  The events are
the rows whose `updated_at` is not that of the row before; whatever else is sent are keep-alives.
With a terminal row the stream ends, and its last event carries that status; without one it is
followed as long as it is polled.  Every statement that changes a status assigns `updated_at`. -/
theorem stream_delivers (isoformat : Time → String) (userId runId : UUID) (rows : Nat → RunRow)
    (clock : Nat → Rat) (bound : Nat)
    (versioned : ∀ i < bound, ∀ j < bound, (rows i).updatedAt = (rows j).updatedAt →
      (rows i).toAgentRun = (rows j).toAgentRun) :
    (let ran := follow rows clock isoformat userId runId bound
      let polls := ran.2.2.polls
      let event := fun i => statusEvent isoformat (rows i).toAgentRun
      statuses ran.1 = ((List.range polls).filter fun i =>
        i = 0 ∨ (rows i).updatedAt ≠ (rows (i - 1)).updatedAt).map event ∧
      (∀ frame ∈ frames ran.1, frame.pair = none → frame = keepAliveFrame) ∧
      (∀ k < bound, (rows k).status ∈ streamTerminalStatuses →
        (∀ i < k, (rows i).status ∉ streamTerminalStatuses) →
        ran.2.1 = .ok true ∧ polls = k + 1 ∧ (statuses ran.1).getLast? = some (event k) ∧
          statusField (event k) = some (.str (rows k).status.text)) ∧
      ((∀ i < bound, (rows i).status ∉ streamTerminalStatuses) →
        ran.2.1 = .ok false ∧ polls = bound)) ∧
    ∀ jsonb newId now (q : Sql) before after,
      (q.exec jsonb newId now (some before)).1 = some after → after.status ≠ before.status →
        after.updatedAt = now := by
  refine ⟨?_, fun jsonb newId now q before after => exec_stamps⟩
  intro ran polls event
  obtain ⟨streamed, ⟨stopped, ended⟩, polled⟩ :=
    follow_streamed rows clock isoformat userId runId bound
  have bounded : polls ≤ bound := by
    have bounded := streamed.bounded
    rwa [polled, List.length_map, List.length_range] at bounded
  have known : ∀ b ∈ StreamLog.polled ran.1, ∀ c ∈ StreamLog.polled ran.1,
      b.updatedAt = c.updatedAt → b = c := by
    rw [polled]
    refine List.forall_mem_map.mpr fun i hi => List.forall_mem_map.mpr fun j hj same => ?_
    exact versioned i ((List.mem_range.mp hi).trans_le bounded)
      j ((List.mem_range.mp hj).trans_le bounded) same
  have last : ∀ m, polls = m + 1 → (statuses ran.1).getLast? = some (event m) := by
    intro m counted
    rw [streamed.lastSent known, polled, show ran.2.2.polls = m + 1 from counted, List.range_succ,
      List.map_append, List.map_singleton, List.getLast?_concat]
    rfl
  have sent := streamed.sent
  rw [polled, changes_range, List.map_map] at sent
  have reached : ran.2.1 = .ok stopped := ended
  rw [ended] at streamed
  obtain ⟨before, stand⟩ := streamed.until polled
  refine ⟨sent, streamed.beats, fun k inside terminal first => ?_, fun going => ?_⟩
  · cases stopped with
    | false =>
        obtain ⟨spent, going⟩ := stand
        exact absurd terminal (going k (spent.trans_ge inside))
    | true =>
        obtain ⟨m, counted, done⟩ := stand
        have notBefore : ¬m < k := fun less => first m less done
        have notAfter : ¬k < m := fun less => before k (by omega) terminal
        obtain rfl : m = k := by omega
        exact ⟨reached, counted, last m counted, rfl⟩
  · cases stopped with
    | false => exact ⟨reached, stand.1⟩
    | true =>
        obtain ⟨m, counted, done⟩ := stand
        have inside : m < bound := counted.symm.trans_le bounded
        exact absurd done (going m inside)

/-! ## A short stream -/

def shortRow : RunRow := { id := 7, userId := 1, topic := "gaia", createdAt := 0, updatedAt := 0 }

/-- A run that is seen running twice, and then done. -/
def shortRows : Nat → RunRow
  | 0 | 1 => Statement.markRunning 1 shortRow
  | _ => Statement.markSucceeded 2 ⟨"Nothing new.", 0, 0, []⟩ [] [] shortRow

/-- The clock moves on by twenty seconds a reading. -/
def shortStream : StreamLog × Except Exn Bool × Progress :=
  follow shortRows (fun reading => 20 * reading) (fun now => toString now) 1 7 5

theorem stream_delivers_short :
    shortStream.2.1 = .ok true ∧ shortStream.2.2.polls = 3 ∧
      (statuses shortStream.1).length = 2 ∧
      (statuses shortStream.1).getLast?.bind statusField = some (.str "succeeded") := by
  have versioned : ∀ i < 5, ∀ j < 5, (shortRows i).updatedAt = (shortRows j).updatedAt →
      (shortRows i).toAgentRun = (shortRows j).toAgentRun := by
    intro i _ j _ same
    rcases i with _ | _ | i <;> rcases j with _ | _ | j <;> first | rfl | cases same
  obtain ⟨⟨sent, -, stops, -⟩, -⟩ :=
    stream_delivers (fun now => toString now) 1 7 shortRows (fun reading => 20 * reading) 5
      versioned
  obtain ⟨returned, counted, last, status⟩ := stops 2 (by decide) (by decide) (by decide)
  refine ⟨returned, counted, ?_, ?_⟩
  · rw [shortStream, sent, counted]
    rfl
  · rw [shortStream, last]
    exact status

end Intellivault.Agent
