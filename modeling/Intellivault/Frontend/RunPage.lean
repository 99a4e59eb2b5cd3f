import Intellivault.Agent.RowMachine
import Intellivault.Agent.StreamParts

/-!
# The page of a run

`src/app/runs/[id]/run-detail-view.tsx` of the frontend, with `streamRun` of `src/lib/agent.ts`,
the generator of the backend at the other end of the connection, and the jobs and requests that
work on the run meanwhile.  The page keeps the JSON of the run that it received last.
-/

namespace Intellivault.Frontend

open Lib Prog Intellivault.Agent
open Intellivault.Stream (Frame SseEvent parseSse)

/-! ## `RunDetailView` -/

structure RunPage where
  run : Json
  streamNotice : Bool := false
  subscription : Nat := 0

/-- What the loop of `subscribe` comes upon. -/
inductive Signal where
  | quiet
  | event (event : SseEvent)
  /-- `catch` -/
  | lost

namespace RunPage

/-- The body of the loop and the `catch`, unless the loop is cancelled. -/
def signal (page : RunPage) : Signal → RunPage
  | .quiet => page
  | .event event => if event.event = "status" then { page with run := event.data } else page
  | .lost => { page with streamNotice := true }

/-- `onSuccess` of a review. -/
def onReviewed (page : RunPage) (data : Json) : RunPage where
  run := data
  streamNotice := false
  subscription := page.subscription + 1

def field (page : RunPage) (name : String) : Option Json :=
  match page.run with
  | .obj fields => fields.lookup name
  | _ => none

/-- `run.status === "awaiting_review" && run.pending`, which is an object or null. -/
def reviewCard (page : RunPage) : Bool :=
  match page.field "status", page.field "pending" with
  | some (.str status), some (.obj _) => status = "awaiting_review"
  | _, _ => false

end RunPage

/-! ## A subscription -/

/-- One run of the effect: the stream it has asked for, and how far its loop has come. -/
structure Subscription where
  /-- The version of the row when the effect ran. -/
  opened : Nat
  /-- What the generator has done, and what is left of it. -/
  log : StreamLog := []
  left : Generator Bool
  /-- The chunks of the body that have arrived, and the events of them that were taken. -/
  chunks : List (List UInt8) := []
  taken : Nat := 0
  /-- The loop has ended. -/
  stopped : Bool := false
  /-- The answer was no stream: its body holds no frame, and `streamRun` does not ask for the
  status. -/
  refused : Bool := false

namespace Subscription

/-- The body that has been sent. -/
def body (sub : Subscription) : List UInt8 := (StreamLog.frames sub.log).flatMap Frame.bytes

def events (parse : String → Option Json) (sub : Subscription) : List SseEvent :=
  parseSse parse (some sub.chunks)

/-- The generator has returned, and all it has sent was read. -/
structure Complete (parse : String → Option Json) (sub : Subscription) : Prop where
  returned : sub.left = ended (.ok true)
  arrived : sub.chunks.flatten = sub.body
  taken : sub.taken = (sub.events parse).length

/-- A step of the generator, of the network or of the loop, while the table holds the row. -/
inductive Step (parse : String → Option Json) (row : RunRow) :
    Subscription → Signal → Subscription → Prop
  | serve {sub : Subscription} {c : StreamCall} {k : Except Exn c.Answer → Generator Bool}
      {r : Except Exn c.Answer} : sub.left = .call c k →
      (∀ found, StreamLog.fetchedRow ⟨c, r⟩ = some found → found = row) →
      Step parse row sub .quiet { sub with log := sub.log ++ [⟨c, r⟩], left := k r }
  | deliver {sub : Subscription} (value : List UInt8) : sub.stopped = false →
      (sub.chunks ++ [value]).flatten <+: sub.body →
      Step parse row sub .quiet { sub with chunks := sub.chunks ++ [value] }
  | take {sub : Subscription} {event : SseEvent} : sub.stopped = false →
      (sub.events parse)[sub.taken]? = some event →
      Step parse row sub (.event event) { sub with taken := sub.taken + 1 }
  | lose {sub : Subscription} : sub.stopped = false →
      Step parse row sub .lost { sub with stopped := true }
  | finish {sub : Subscription} : sub.stopped = false → sub.Complete parse →
      Step parse row sub .quiet { sub with stopped := true }
  | refuse {sub : Subscription} : sub.stopped = false → sub.log = [] →
      Step parse row sub .quiet { sub with stopped := true, refused := true }

end Subscription

/-! ## The page among the others -/

/-- The run with its jobs and requests, the versions of its row since the page was rendered, and
the page. -/
structure Following where
  pool : RunPool
  rows : List RunRow
  page : RunPage
  /-- The value of `subscription` the effect has run for. -/
  rendered : Option Nat := none
  /-- The newest one last; all others are cancelled. -/
  subscriptions : List Subscription := []
  /-- Answers to reviews on their way to the page. -/
  answers : List AgentRun := []

namespace Following

variable (deps : Deps) (jsonb : Attributes → Attributes) (userId runId : UUID)
  (isoformat : Time → String) (parse : String → Option Json)

inductive Step : Following → Following → Prop
  /-- A job or a request goes on. -/
  | work {s : Following} {l : Action Task Agent.Call Agent.Call.Answer Exn} {pool : RunPool} :
      RunStep deps jsonb runId s.pool l pool → ReviewsApart ⟨s.pool, l, pool⟩ →
      Step s { s with pool := pool, rows := s.rows ++ pool.world.row.toList }
  /-- The effect runs, and cancels the subscription before. -/
  | effect {s : Following} (polls : Nat) : s.rendered ≠ some s.page.subscription →
      Step s { s with
        rendered := some s.page.subscription
        subscriptions := s.subscriptions ++
          [{ opened := s.rows.length - 1
             left := Service.streamRun isoformat userId runId polls }] }
  /-- A subscription goes on; only the newest one reaches the page. -/
  | loop {s : Following} {older newer : List Subscription} {sub sub' : Subscription}
      {signal : Signal} {row : RunRow} : s.subscriptions = older ++ sub :: newer →
      s.pool.world.row = some row → sub.Step parse row signal sub' →
      Step s { s with
        subscriptions := older ++ sub' :: newer
        page := if newer = [] then s.page.signal signal else s.page }
  /-- A review is answered with the row that it has updated. -/
  | review {s : Following} {row : RunRow} : s.pool.world.row = some row →
      Step s { s with answers := s.answers ++ [row.toAgentRun] }
  /-- The answer arrives. -/
  | answered {s : Following} {data : AgentRun} {before after : List AgentRun} :
      s.answers = before ++ data :: after →
      Step s { s with
        page := s.page.onReviewed (data.modelDump isoformat), answers := before ++ after }

/-- A page that is rendered for a run, and everything after. -/
inductive Reached : Following → Prop
  | render {tr : List RunTransition} {pool : RunPool} {row : RunRow} :
      History (RunStep deps jsonb runId) RunPool.empty tr pool → (∀ x ∈ tr, ReviewsApart x) →
      pool.world.row = some row →
      Reached { pool := pool, rows := [row], page := { run := row.toAgentRun.modelDump isoformat } }
  | step {s s' : Following} : Reached s → Step deps jsonb userId runId isoformat parse s s' →
      Reached s'

end Following

end Intellivault.Frontend
