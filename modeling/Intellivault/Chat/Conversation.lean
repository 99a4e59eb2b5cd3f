import Intellivault.Chat.Turn

/-!
# A conversation, turn by turn

What a complete turn does to the thread (`turn_ran`), and from it what any number of turns
leave behind: the thread only grows, its text is what the model streamed, its tool calls are
those of the rounds, and the runs it reports are the runs that were created.
-/

namespace Intellivault.Chat

open Lib
open Agent (Exn)

abbrev TurnEvent := Prog.Event TurnCall TurnCall.Answer Exn

abbrev TurnLog := List TurnEvent

/-- Calls are answered with anything `real`. -/
def TurnSurroundings (real : TurnEvent → Prop) : Prog.Handler TurnCall TurnCall.Answer Exn Unit :=
  fun c _ r _ => real ⟨c, r⟩

/-- An event of the tools' phase. -/
def inTools (e : Event) : TurnEvent := ⟨.tools e.1, e.2⟩

/-- What was called in the tools' phase. -/
def toolEvent : TurnEvent → Option Event
  | ⟨.tools c, r⟩ => some ⟨c, r⟩
  | ⟨.chatStream _, _⟩ => none

def toolLog (log : TurnLog) : Log := log.filterMap toolEvent

/-- The deltas that came of the reply, and how reading it ended. -/
def replyOf (deps : TurnDeps) : Except Exn Received → List String × Except Exn Unit
  | .ok received => deltas deps received.failed received.lines
  | .error x => ([], .error x)

/-- The assistant's message with its text. -/
def spoken (text : String) (parts : List ToolPart) : ThreadMessage :=
  ⟨.assistant, .message ⟨"text", some text⟩ :: parts.map .tool⟩

/-! ## The changes of a turn -/

theorem setLastText_snoc (thread : Thread) (m : ThreadMessage) (text : String) :
    setLastText text (thread ++ [m]) = thread ++ [m.setText text] := by
  induction thread with
  | nil => rfl
  | cons first rest ih =>
      cases rest with
      | nil => rfl
      | cons second rest => exact congrArg (first :: ·) ih

theorem shown_append (thread : Thread) (messages : List ThreadMessage) :
    shown thread (messages.map .append) = thread ++ messages := by
  induction messages generalizing thread with
  | nil => exact (List.append_nil thread).symm
  | cons m messages ih => exact (ih (thread ++ [m])).trans (List.append_assoc _ _ _)

theorem shown_texts (thread : Thread) (parts : List ToolPart) (text : String)
    (ds : List String) :
    shown (thread ++ [spoken text parts]) ((texts text ds).map .setText) =
      thread ++ [spoken (text ++ String.join ds) parts] := by
  induction ds generalizing text with
  | nil => rw [String.join_nil, String.append_empty]; rfl
  | cons d ds ih =>
      have step : shown (thread ++ [spoken text parts]) ((texts text (d :: ds)).map .setText) =
          shown (thread ++ [spoken (text ++ d) parts]) ((texts (text ++ d) ds).map .setText) :=
        congrArg (fun t => shown t _) (setLastText_snoc thread _ _)
      rw [step, ih, String.join_cons, String.append_assoc]

theorem shown_reported (deps : TurnDeps) (thread : Thread) (r : Except Exn Unit) :
    shown thread (reported deps r).1 = thread := by
  cases r with
  | ok _ => rfl
  | error x =>
      rw [reported]
      split <;> rfl

theorem shown_concat (thread : Thread) (ops ops' : List Op) :
    shown thread (ops ++ ops') = shown (shown thread ops) ops' := List.foldl_append

/-! ## A complete turn -/

/-- The prompt of the turn: the system's and the thread with the user's message. -/
def prompt (deps : TurnDeps) (thread : Thread) : List Message :=
  [("role", .str "system"), ("content", .str deps.system)] :: flatten thread

/-- The surroundings, as far as the tools' phase meets them. -/
def toolSurroundings (real : TurnEvent → Prop) : Prog.Handler Call Call.Answer Exn Unit :=
  Surroundings fun e => real (inTools e)

/-- How a turn ends: the tools' phase raises, or the model replies. -/
inductive TurnEnds (deps : TurnDeps) (real : TurnEvent → Prop) (state : Option Thread)
    (commands : List Command) : TurnLog → List Op × Except Exn Unit → Prop
  | stopped {log : Log} {x : Exn}
      (run : Prog.Runs (toolSurroundings real) (resolveTools deps.toDeps
        (prompt deps (state.getD [] ++ (newUserMessage commands).toList))) () log
        (Prog.ended (.error x)) ()) :
      TurnEnds deps real state commands (log.map inTools)
        ((newUserMessage commands).toList.map .append ++ (reported deps (.error x)).1,
          (reported deps (.error x)).2)
  | replied {log : Log} {progress : Progress} {r : Except Exn Received}
      (run : Prog.Runs (toolSurroundings real) (resolveTools deps.toDeps
        (prompt deps (state.getD [] ++ (newUserMessage commands).toList))) () log
        (Prog.ended (.ok progress)) ()) :
      TurnEnds deps real state commands
        (log.map inTools ++ [⟨.chatStream progress.history, r⟩])
        ((newUserMessage commands).toList.map .append ++ .append (placeholder progress.parts) ::
          ((texts "" (replyOf deps r).1).map .setText ++ (reported deps (replyOf deps r).2).1),
          (reported deps (replyOf deps r).2).2)

section Runs

variable {deps : TurnDeps} {real : TurnEvent → Prop} {state : Option Thread}
  {commands : List Command} {log : TurnLog}

theorem tools_ran {α : Type} {p : Coroutine α} {r : Except Exn α}
    (run : Prog.Runs (TurnSurroundings real) (tools p) () log (Prog.ended r) ()) :
    ∃ log', log = log'.map inTools ∧
      Prog.Runs (toolSurroundings real) p () log' (Prog.ended r) () := by
  induction p generalizing log with
  | ret a =>
      obtain ⟨rfl, rfl, -⟩ := Prog.Runs.ret run
      exact ⟨[], rfl, .refl⟩
  | raise x =>
      obtain ⟨rfl, rfl, -⟩ := Prog.Runs.raise run
      exact ⟨[], rfl, .refl⟩
  | call c k ih =>
      obtain ⟨answer, _, rest, given, more, rfl⟩ := Prog.Runs.call run
      obtain ⟨log', rfl, run'⟩ := ih answer more
      exact ⟨⟨c, answer⟩ :: log', rfl, .step given run'⟩

theorem reply_ran {history : List Message} {out : List Op × Except Exn Unit}
    (run : Prog.Runs (TurnSurroundings real) (reply deps history) () log (Prog.ended (.ok out)) ()) :
    ∃ r, log = [⟨.chatStream history, r⟩] ∧
      out = ((texts "" (replyOf deps r).1).map .setText ++ (reported deps (replyOf deps r).2).1,
        (reported deps (replyOf deps r).2).2) := by
  obtain ⟨answer, _, log₁, log₂, asked, rest, rfl⟩ := run.bind_ok
  obtain ⟨_, same, asked⟩ := Prog.Runs.attempt asked
  obtain rfl := Except.ok.inj same
  obtain ⟨rfl, -⟩ := Prog.Runs.perform asked
  cases answer with
  | error x =>
      obtain ⟨same, rfl, -⟩ := Prog.Runs.ret rest
      exact ⟨.error x, rfl, Except.ok.inj same⟩
  | ok received =>
      obtain ⟨same, rfl, -⟩ := Prog.Runs.ret rest
      exact ⟨.ok received, rfl, Except.ok.inj same⟩

theorem turn_ran {out : List Op × Except Exn Unit}
    (run : Prog.Runs (TurnSurroundings real) (runCallback deps commands state) () log
      (Prog.ended (.ok out)) ()) : TurnEnds deps real state commands log out := by
  obtain ⟨answer, _, log₁, log₂, resolved, rest, rfl⟩ := run.bind_ok
  obtain ⟨_, same, resolved⟩ := Prog.Runs.attempt resolved
  obtain rfl := Except.ok.inj same
  obtain ⟨log', rfl, run'⟩ := tools_ran resolved
  cases answer with
  | error x =>
      obtain ⟨same, rfl, -⟩ := Prog.Runs.ret rest
      obtain rfl := Except.ok.inj same
      rw [List.append_nil]
      exact .stopped run'
  | ok progress =>
      obtain ⟨⟨ops, outcome⟩, _, log₃, log₄, replied, last, rfl⟩ := Prog.Runs.bind_ok rest
      obtain ⟨same, rfl, -⟩ := Prog.Runs.ret last
      obtain rfl := Except.ok.inj same
      obtain ⟨r, rfl, same⟩ := reply_ran replied
      obtain ⟨rfl, rfl⟩ := Prod.mk.inj same
      rw [List.append_nil]
      exact .replied run'

end Runs

theorem toolsRun {real : TurnEvent → Prop} {α : Type} {p : Coroutine α} {log : Log}
    {r : Except Exn α} (run : Prog.Runs (toolSurroundings real) p () log (Prog.ended r) ()) :
    Prog.Runs (TurnSurroundings real) (tools p) () (log.map inTools) (Prog.ended r) () := by
  induction p generalizing log with
  | ret a =>
      obtain ⟨rfl, rfl, -⟩ := Prog.Runs.ret run
      exact .refl
  | raise x =>
      obtain ⟨rfl, rfl, -⟩ := Prog.Runs.raise run
      exact .refl
  | call c k ih =>
      obtain ⟨answer, _, rest, given, more, rfl⟩ := Prog.Runs.call run
      exact .step given (ih answer more)

/-- Every such ending is one that a run comes to, if the model may reply so. -/
theorem TurnEnds.runs {deps : TurnDeps} {real : TurnEvent → Prop} {state : Option Thread}
    {commands : List Command} {log : TurnLog} {out : List Op × Except Exn Unit}
    (ends : TurnEnds deps real state commands log out) (given : ∀ e ∈ log, real e) :
    Prog.Runs (TurnSurroundings real) (runCallback deps commands state) () log
      (Prog.ended (.ok out)) () := by
  cases ends with
  | stopped run =>
      rw [← List.append_nil (List.map inTools _)]
      exact (toolsRun run).attempted.andThen .refl
  | @replied log progress r run =>
      have replied : Prog.Runs (TurnSurroundings real) (reply deps progress.history) ()
          [⟨.chatStream progress.history, r⟩] (Prog.ended (.ok
            ((texts "" (replyOf deps r).1).map .setText ++ (reported deps (replyOf deps r).2).1,
              (reported deps (replyOf deps r).2).2))) () := by
        have asked := given ⟨.chatStream progress.history, r⟩
          (List.mem_append_right _ List.mem_cons_self)
        cases r with
        | error x => exact .step asked .refl
        | ok received => exact .step asked .refl
      rw [← List.append_nil [_]]
      exact (toolsRun run).attempted.andThen (replied.andThen .refl)

/-! ## Turns -/

theorem toolLog_inTools (log : Log) : toolLog (log.map inTools) = log := by
  rw [toolLog, List.filterMap_map]
  exact List.filterMap_some

theorem toolLog_replied (log : Log) (history : List Message) (r : Except Exn Received) :
    toolLog (log.map inTools ++ [⟨.chatStream history, r⟩]) = log := by
  rw [toolLog, List.filterMap_append]
  exact (List.append_nil _).trans (toolLog_inTools log)

/-- The calls of the tools' phase are answered as `Normal` says; the model may do anything. -/
def TurnNormal (e : TurnEvent) : Prop := ∀ e', toolEvent e = some e' → Normal e'

/-- What a request asks, and what becomes of it. -/
structure Turn where
  commands : List Command
  log : TurnLog
  ops : List Op
  outcome : Except Exn Unit

/-- The client's next request carries the thread that the last one left. -/
def TurnStep (deps : TurnDeps) (state : Option Thread) (turn : Turn) (state' : Option Thread) :
    Prop :=
  Prog.Runs (TurnSurroundings TurnNormal) (runCallback deps turn.commands state) () turn.log
    (Prog.ended (.ok (turn.ops, turn.outcome))) () ∧
  state' = some (shown (state.getD []) turn.ops)

/-- The tools take every call the model decides on. -/
def Taken (deps : TurnDeps) (x : Transition (Option Thread) Turn) : Prop :=
  ∀ c ∈ (toolLog x.label.log).flatMap decidedCalls, Resolvable deps.py c

/-! ## A turn that launches -/

/-- All that the model says. -/
def queuedLine : String := "\x7b\"message\": \x7b\"content\": \"Queued.\"\x7d, \"done\": true\x7d"

def exampleTurnDeps : TurnDeps where
  userId := 1
  settings := {}
  py :=
    { lower := id, strOf := fun _ => "None"
      loads := fun line =>
        if line = queuedLine then
          some (.obj [("message", .obj [("content", .str "Queued.")]), ("done", .bool true)])
        else none }
  validationError topic := .other "1 validation error for AgentRunCreate" topic
  system := "You help."
  isHttpError _ := false
  decodeError line := .other "Expecting value" line

def lookInto : List Command := [.addMessage .user [⟨"text", some "Look into transistors."⟩]]

/-- The model launches, and the run gets this id. -/
def toolsLog (id : UUID) (history : List Message) : Log :=
  [⟨.chatOnce history, .ok { role := "assistant", toolCalls := some [launchCall] }⟩,
    ⟨.agent (.sql (.insertRun 1 "transistors")), .ok { exampleRow with id }⟩,
    ⟨.agent (.parse { exampleRow with id }), .ok ()⟩, ⟨.agent (.kiq (.runAgent id)), .ok ()⟩]

theorem toolsLog_normal (id : UUID) (history : List Message) :
    ∀ e ∈ (toolsLog id history).map inTools, TurnNormal e := by
  intro e mem e' same
  obtain ⟨e, inside, rfl⟩ := List.mem_map.mp mem
  obtain rfl := Option.some.inj same
  rw [toolsLog] at inside
  rcases inside with _ | ⟨_, _ | ⟨_, _ | ⟨_, _ | ⟨_, none⟩⟩⟩⟩
  · trivial
  · exact ⟨_, rfl⟩
  · exact ⟨_, rfl⟩
  · exact ⟨_, rfl⟩
  · cases none

theorem tools_run (id : UUID) (history : List Message) : ∃ last,
    Prog.Runs (toolSurroundings TurnNormal) (resolveTools exampleTurnDeps.toDeps history) ()
      (toolsLog id history) (Prog.ended (.ok last)) () := by
  have normal := toolsLog_normal id history
  rw [toolsLog] at normal
  simp only [List.map_cons, List.map_nil, List.forall_mem_cons] at normal
  obtain ⟨first, second, third, fourth, -⟩ := normal
  exact ⟨_, Surroundings.step first (Surroundings.step second (Surroundings.step third
    (Surroundings.step fourth .refl)))⟩

theorem launchTurn_runs (id : UUID) (thread : Option Thread) :
    ∃ turn state, (toolLog turn.log).filterMap createdRun = [id] ∧
      TurnStep exampleTurnDeps thread turn state ∧ Taken exampleTurnDeps ⟨thread, turn, state⟩ := by
  obtain ⟨last, run⟩ := tools_run id (prompt exampleTurnDeps (thread.getD [] ++
      (newUserMessage lookInto).toList))
  have ended : TurnEnds exampleTurnDeps TurnNormal thread lookInto _ _ :=
    .replied (r := .ok ⟨[queuedLine], none⟩) run
  have ran := ended.runs ?_
  · refine ⟨⟨lookInto, _, _, _⟩, _, ?_, ⟨ran, rfl⟩, ?_⟩
    · rw [toolLog_replied]
      rfl
    · rw [Taken, toolLog_replied]
      intro c mem
      obtain rfl := List.mem_singleton.mp mem
      exact ⟨_, rfl, fun search => absurd search (by decide), fun _ => ⟨_, rfl, by decide⟩⟩
  · intro e mem
    rcases List.mem_append.mp mem with before | last
    · exact toolsLog_normal id _ e before
    · obtain rfl := List.mem_singleton.mp last
      intro e' same
      exact absurd same.symm (Option.some_ne_none e')

/-! ## The thread of a turn -/

/-- Messages are added, or the text of the last one is continued. -/
def Grows (t t' : Thread) : Prop :=
  t <+: t' ∨ ∃ before text delta parts, t = before ++ [spoken text parts] ∧
    t' = before ++ [spoken (text ++ delta) parts]

/-- The reply, if the model was asked for one. -/
def streamed : TurnEvent → Option (Except Exn Received)
  | ⟨.chatStream _, r⟩ => some r
  | ⟨.tools _, _⟩ => none

section Turn

variable {deps : TurnDeps} {real : TurnEvent → Prop} {state : Option Thread}
  {commands : List Command} {log : TurnLog} {ops : List Op} {outcome : Except Exn Unit}

/-- The thread and the reply of a turn that got to one. -/
theorem shown_replied (thread : Thread) (user : List ThreadMessage) (parts : List ToolPart)
    (ds : List String) (r : Except Exn Unit) :
    shown thread (user.map .append ++ .append (placeholder parts) ::
        ((texts "" ds).map .setText ++ (reported deps r).1)) =
      thread ++ user ++ [spoken (String.join ds) parts] := by
  have added : shown (thread ++ user ++ [placeholder parts]) ((texts "" ds).map .setText) =
      thread ++ user ++ [spoken ("" ++ String.join ds) parts] :=
    shown_texts (thread ++ user) parts "" ds
  rw [shown_concat, shown_append]
  show shown (thread ++ user ++ [placeholder parts]) _ = _
  rw [shown_concat, shown_reported, added, String.empty_append]

end Turn

namespace Resolves

variable {deps : Deps} {n : Nat} {progress : Progress} {blocks : List (Block deps)} {log : Log}
  {r : Except Exn Progress}

/-- Nothing was launched: the model is not asked again after a launch. -/
theorem unlaunched {x : Exn} (turn : Resolves deps n progress blocks log r) (raised : r = .error x) :
    log.filterMap createdRun = [] ∧ log.filterMap enqueuedRun = [] := by
  induction turn with
  | cap | noCalls | launch => cases raised
  | unreachable => exact ⟨rfl, rfl⟩
  | @next n progress blocks log r b quiet rest ih =>
      obtain ⟨created, enqueued⟩ := ih raised
      have parts : b.parts.filterMap launchedRun = [] := by
        have none : ∀ a ∈ b.answers, a.log.filterMap createdRun = [] := by
          intro a mem
          rw [Block.launches, List.any_eq_false] at quiet
          exact a.ran.created_eq_nil (Bool.eq_false_of_not_eq_true (quiet a mem))
        rw [← b.accounted.created, List.filterMap_flatMap]
        exact List.flatMap_eq_nil_iff.mpr none
      have account := b.accounted
      rw [List.filterMap_append, List.filterMap_append, created, enqueued, List.append_nil,
        List.append_nil]
      exact ⟨account.created.trans parts, account.enqueued.trans parts⟩

/-- Every prompt goes on from the one before. -/
theorem prompts (turn : Resolves deps n progress blocks log r) :
    ∀ history answer, (⟨.chatOnce history, answer⟩ : Event) ∈ log → progress.history <+: history := by
  have block : ∀ (b : Block deps) (start : List Message) history answer,
      (⟨.chatOnce history, answer⟩ : Event) ∈ b.log start → start = history := by
    intro b start history answer mem
    rcases List.mem_cons.mp mem with first | later
    · cases first
      rfl
    · have none := List.countP_eq_zero.mp b.accounted.asked _ later
      exact absurd rfl none
  induction turn with
  | cap => exact nofun
  | noCalls none =>
      intro history answer mem
      cases List.mem_singleton.mp mem
      exact List.prefix_refl _
  | unreachable =>
      intro history answer mem
      cases List.mem_singleton.mp mem
      exact List.prefix_refl _
  | launch b launches =>
      intro history answer mem
      obtain rfl := block b _ history answer mem
      exact List.prefix_refl _
  | next b quiet rest ih =>
      intro history answer mem
      rcases List.mem_append.mp mem with here | later
      · obtain rfl := block b _ history answer here
        exact List.prefix_refl _
      · exact (List.prefix_append _ _).trans (ih history answer later)

end Resolves

/-! ## The runs a thread reports -/

def Part.launched : Part → Option UUID
  | .message _ => none
  | .tool part => launchedRun part

/-- The runs that the tool calls of the thread report. -/
def Thread.runs (thread : Thread) : List UUID :=
  thread.flatMap fun m => m.parts.filterMap Part.launched

theorem Thread.runs_append (t t' : Thread) : Thread.runs (t ++ t') = t.runs ++ Thread.runs t' :=
  List.flatMap_append

theorem runs_spoken (text : String) (parts : List ToolPart) :
    Thread.runs [spoken text parts] = parts.filterMap launchedRun := by
  have each : Part.launched ∘ Part.tool = launchedRun := rfl
  rw [Thread.runs, List.flatMap_singleton, spoken, List.filterMap_cons, List.filterMap_map, each]
  rfl

/-- A client's message reports none. -/
theorem runs_user (commands : List Command) : Thread.runs (newUserMessage commands).toList = [] := by
  cases found : newUserMessage commands with
  | none => rfl
  | some m =>
      obtain ⟨command, -, same⟩ := List.exists_of_findSome?_eq_some found
      cases command with
      | addToolResult _ _ => cases same
      | addMessage role parts =>
          cases same
          rw [Option.toList_some, Thread.runs, List.flatMap_singleton, List.filterMap_map]
          exact List.filterMap_eq_nil_iff.mpr fun _ _ => rfl

/-! ## Turn after turn -/

/-- What the model is asked to go on from. -/
def promptOf : TurnEvent → Option (List Message)
  | ⟨.tools (.chatOnce history), _⟩ => some history
  | ⟨.chatStream history, _⟩ => some history
  | _ => none

section Conversation

variable {deps : TurnDeps} {state : Option Thread} {tr : List (Transition (Option Thread) Turn)}

/-- The runs a turn reports are those it created and enqueued, and what it asks the model goes
on from the whole thread. -/
theorem turn_account {source : Option Thread} {turn : Turn} {target : Option Thread}
    (step : TurnStep deps source turn target) (taken : Taken deps ⟨source, turn, target⟩) :
    (∃ more, target.getD [] = source.getD [] ++ (newUserMessage turn.commands).toList ++ more ∧
        Thread.runs more = (toolLog turn.log).filterMap createdRun ∧
        Thread.runs more = (toolLog turn.log).filterMap enqueuedRun) ∧
      ∀ e ∈ turn.log, ∀ asked, promptOf e = some asked →
        prompt deps (source.getD [] ++ (newUserMessage turn.commands).toList) <+: asked := by
  obtain ⟨run, rfl⟩ := step
  obtain ⟨commands, log, ops, outcome⟩ := turn
  have normal := run.answered fun _ _ _ _ given => given
  dsimp only at run normal taken ⊢
  generalize same : (ops, outcome) = out at run
  have answered : ∀ {log : Log} {r : Except Exn Progress} {more : TurnLog},
      (∀ e ∈ log.map inTools ++ more, TurnNormal e) →
      (∀ c ∈ log.flatMap decidedCalls, Resolvable deps.py c) →
      Prog.Runs (toolSurroundings TurnNormal) (resolveTools deps.toDeps
        (prompt deps (source.getD [] ++ (newUserMessage commands).toList))) () log
        (Prog.ended r) () →
      ∃ blocks, Resolves deps.toDeps deps.settings.chatToolCallMaxRounds
        { history := prompt deps (source.getD [] ++ (newUserMessage commands).toList) } blocks log r := by
    intro log r more normal resolvable run
    rcases rounds_ran run with blocks | ⟨-, ⟨c, mem, bad⟩ | ⟨e, mem, abnormal⟩⟩
    · exact blocks
    · exact absurd (resolvable c mem) bad
    · exact absurd (normal _ (List.mem_append_left _ (List.mem_map_of_mem mem)) e rfl) abnormal
  have asks : ∀ {n progress blocks} {log : Log} {r : Except Exn Progress},
      Resolves deps.toDeps n progress blocks log r →
      ∀ e ∈ log.map inTools, ∀ asked, promptOf e = some asked → progress.history <+: asked := by
    intro n progress blocks log r turn e mem asked prompted
    obtain ⟨⟨c, answer⟩, inside, rfl⟩ := List.mem_map.mp mem
    cases c with
    | chatOnce history =>
        obtain rfl := Option.some.inj prompted
        exact turn.prompts history answer inside
    | _ => cases prompted
  cases turn_ran run with
  | @stopped log x inner =>
      obtain ⟨rfl, rfl⟩ := Prod.mk.inj same
      rw [Taken, toolLog_inTools] at taken
      have normal' : ∀ e ∈ log.map inTools ++ [], TurnNormal e := by rwa [List.append_nil]
      obtain ⟨blocks, turn⟩ := answered normal' taken inner
      obtain ⟨created, enqueued⟩ := turn.unlaunched rfl
      refine ⟨⟨[], ?_, ?_, ?_⟩, asks turn⟩
      · rw [List.append_nil, Option.getD_some, shown_concat, shown_append, shown_reported]
      · rw [toolLog_inTools, created]
        rfl
      · rw [toolLog_inTools, enqueued]
        rfl
  | @replied log progress r inner =>
      obtain ⟨rfl, rfl⟩ := Prod.mk.inj same
      have tools := toolLog_replied log progress.history r
      rw [Taken, tools] at taken
      obtain ⟨blocks, turn⟩ := answered normal taken inner
      obtain ⟨history, parts, -, created, enqueued⟩ := turn.returned rfl
      rw [List.nil_append] at parts
      rw [← parts] at created enqueued
      refine ⟨⟨[spoken (String.join (replyOf deps r).1) progress.parts], ?_, ?_, ?_⟩, ?_⟩
      · rw [Option.getD_some, shown_replied]
      · rw [tools, runs_spoken, created]
      · rw [tools, runs_spoken, enqueued]
      · intro e mem asked prompted
        rcases List.mem_append.mp mem with before | last
        · exact asks turn e before asked prompted
        · obtain rfl := List.mem_singleton.mp last
          obtain rfl := Option.some.inj prompted
          rw [history]
          exact List.prefix_append _ _

/-- **A conversation keeps its account.**  Over any number of turns, whatever the model says and
wherever it fails, as long as the tools take the calls it decides on: the thread only grows,
the runs it reports are exactly those that its turns created and enqueued, in order, and the
model is always asked to go on from the whole thread so far and the new message. -/
theorem conversation_kept (history : History (TurnStep deps) none tr state)
    (taken : ∀ x ∈ tr, Taken deps x) :
    Thread.runs (state.getD []) = tr.flatMap (fun x => (toolLog x.label.log).filterMap createdRun) ∧
      Thread.runs (state.getD []) =
        tr.flatMap (fun x => (toolLog x.label.log).filterMap enqueuedRun) ∧
      ∀ x ∈ tr, x.source.getD [] <+: state.getD [] ∧
        ∀ e ∈ x.label.log, ∀ asked, promptOf e = some asked →
          prompt deps (x.source.getD [] ++ (newUserMessage x.label.commands).toList) <+: asked := by
  induction history with
  | start => exact ⟨rfl, rfl, nofun⟩
  | @next tr t u turn before step ih =>
      rw [forall_mem_snoc] at taken
      obtain ⟨created, enqueued, each⟩ := ih taken.1
      obtain ⟨⟨more, grown, made, sent⟩, prompts⟩ := turn_account step taken.2
      have runs : Thread.runs (u.getD []) = Thread.runs (t.getD []) ++ Thread.runs more := by
        rw [grown, Thread.runs_append, Thread.runs_append, runs_user, List.append_nil]
      have longer : t.getD [] <+: u.getD [] := by
        rw [grown, List.append_assoc]
        exact List.prefix_append _ _
      refine ⟨?_, ?_, forall_mem_snoc.mpr ⟨fun x mem => ?_, longer, prompts⟩⟩
      · rw [runs, List.flatMap_append, List.flatMap_singleton, created, made]
      · rw [runs, List.flatMap_append, List.flatMap_singleton, enqueued, sent]
      · exact ⟨(each x mem).1.trans longer, (each x mem).2⟩

end Conversation

/-- Two turns, each of which launches. -/
theorem conversation_kept_first : ∃ state : Option Thread,
    Thread.runs (state.getD []) = [7, 8] := by
  obtain ⟨turn, state, created, step, taken⟩ := launchTurn_runs 7 none
  obtain ⟨turn', state', created', step', taken'⟩ := launchTurn_runs 8 state
  have history := (History.start.next step).next step'
  have kept := conversation_kept history (forall_mem_snoc.mpr
    ⟨forall_mem_snoc.mpr ⟨nofun, taken⟩, taken'⟩)
  have both := congrArg₂ (· ++ ·) created created'
  exact ⟨state', kept.1.trans (by simpa using both)⟩

end Intellivault.Chat
