import Intellivault.Lib.Rounds
import Intellivault.Chat.Service

/-!
# What becomes of a tool call

The complete runs of `_call_tool`, against any surroundings: `Ran` says how a call is answered
and what was called for it, `Resolvable` which calls are answered at all.
-/

namespace Intellivault.Chat

open Lib
open Agent (Exn Py pyRepr)

abbrev Event := Prog.Event Call Call.Answer Exn

abbrev Log := List Event

/-- Calls are answered with anything `real`. -/
def Surroundings (real : Event → Prop) : Prog.Handler Call Call.Answer Exn Unit :=
  fun c _ r _ => real ⟨c, r⟩

theorem Surroundings.step {real : Event → Prop} {α : Type} {c : Call}
    {k : Except Exn c.Answer → Coroutine α} {answer : Except Exn c.Answer} {log : Log}
    {r : Except Exn α} (given : real ⟨c, answer⟩)
    (rest : Prog.Runs (Surroundings real) (k answer) () log (Prog.ended r) ()) :
    Prog.Runs (Surroundings real) (.call c k) () (⟨c, answer⟩ :: log) (Prog.ended r) () :=
  .step given rest

/-- The agent service and `uuid4` do not raise, and the search task raises what
`except Exception` catches, if anything. -/
def Normal : Event → Prop
  | ⟨.chatOnce _, _⟩ => True
  | ⟨.kiqSearch _ _ _, r⟩ => ∀ x, r = .error x → x.isException
  | ⟨.waitResult, r⟩ => ∀ x, r = .error x → x.isException
  | ⟨.uuid4, r⟩ => ∃ id, r = .ok id
  | ⟨.agent _, r⟩ => ∃ answer, r = .ok answer

/-! ## One call -/

/-- A search, with its log. -/
inductive Searched (deps : Deps) (query : String) :
    Except Exn (List Entity × List Relationship × Option String) → Log → Prop
  | unsent {x} : Searched deps query (.error x)
      [⟨.kiqSearch deps.userId query deps.settings.chatSearchMaxEntities, .error x⟩]
  | unanswered {x} : Searched deps query (.error x)
      [⟨.kiqSearch deps.userId query deps.settings.chatSearchMaxEntities, .ok ()⟩,
        ⟨.waitResult, .error x⟩]
  | answered {result : SearchResult} : Searched deps query (.ok result.returned)
      [⟨.kiqSearch deps.userId query deps.settings.chatSearchMaxEntities, .ok ()⟩,
        ⟨.waitResult, .ok result⟩]

/-- How a call of the function is answered: it is not run and the note says so, or the search
returns or fails, or a run is created and enqueued. -/
inductive Ran (deps : Deps) (function : List (String × Json)) : ToolOutcome → Log → Prop
  | unrecognized (search : nameOf function ≠ .str searchTool)
      (launch : nameOf function ≠ .str launchTool) :
      Ran deps function
        ⟨deps.py.str (nameOf function) ++ " is not a recognized tool.", none, false⟩ []
  | noQuery {args} (name : nameOf function = .str searchTool)
      (dict : argumentsOf function = .obj args)
      (short : (textOf deps.py args "query").length < 3) :
      Ran deps function
        ⟨"search_knowledge_graph was requested without a usable query; it was not run.", none,
          false⟩ []
  | searchFailed {args x log} (name : nameOf function = .str searchTool)
      (dict : argumentsOf function = .obj args) (caught : x.isException)
      (failed : Searched deps (textOf deps.py args "query") (.error x) log) :
      Ran deps function
        ⟨"search_knowledge_graph(query=" ++ pyRepr (textOf deps.py args "query") ++ ") failed: " ++
          x.str, none, false⟩ log
  | searched {args view id log} (name : nameOf function = .str searchTool)
      (dict : argumentsOf function = .obj args)
      (returned : Searched deps (textOf deps.py args "query") (.ok view) log) :
      Ran deps function (searched (textOf deps.py args "query") view id) (log ++ [⟨.uuid4, .ok id⟩])
  | noTopic {args} (name : nameOf function = .str launchTool)
      (dict : argumentsOf function = .obj args)
      (short : (textOf deps.py args "topic").length < 3) :
      Ran deps function
        ⟨"launch_research_agent was requested without a usable topic; it was not run.", none,
          false⟩ []
  | queued {args run} {row : Agent.RunRow} (name : nameOf function = .str launchTool)
      (dict : argumentsOf function = .obj args)
      (topic : (textOf deps.py args "topic").length ≤ 500) (same : run.id = row.id) :
      Ran deps function (queued (textOf deps.py args "topic") run)
        [⟨.agent (.sql (.insertRun deps.userId (textOf deps.py args "topic"))), .ok row⟩,
          ⟨.agent (.parse row), .ok ()⟩, ⟨.agent (.kiq (.runAgent run.id)), .ok ()⟩]

/-- The calls the tools take: `function` is a dictionary, if it is there; the arguments of the
two tools are one, or falsy; and a topic has no more characters than `AgentRunCreate` allows. -/
def Resolvable (py : Py) (toolCall : ToolCall) : Prop :=
  ∃ function, (toolCall.lookup "function").getD (.obj []) = .obj function ∧
    (nameOf function = .str searchTool → ∃ args, argumentsOf function = .obj args) ∧
    (nameOf function = .str launchTool → ∃ args, argumentsOf function = .obj args ∧
      (textOf py args "topic").length ≤ 500)

section Calls

variable {H : Prog.Handler Call Call.Answer Exn Unit} {deps : Deps} {s s' : Unit} {log : Log}

theorem fieldsOf_eq_ok {value : Json} {fields : List (String × Json)} :
    fieldsOf value = .ok fields ↔ value = .obj fields := by
  constructor
  · intro found
    cases value <;> cases found
    rfl
  · rintro rfl
    rfl

/-- The argument is read, or is not in a dictionary. -/
theorem textArgument_cases (py : Py) (args : Json) (key : String) :
    (∃ fields, args = .obj fields ∧ textArgument py args key = .ok (textOf py fields key)) ∨
      (∃ x, textArgument py args key = .error x) ∧ ∀ fields, args ≠ .obj fields := by
  cases args with
  | obj fields => exact .inl ⟨fields, rfl, rfl⟩
  | null => exact .inr ⟨⟨_, rfl⟩, nofun⟩
  | bool b => exact .inr ⟨⟨_, rfl⟩, nofun⟩
  | num n => exact .inr ⟨⟨_, rfl⟩, nofun⟩
  | str s => exact .inr ⟨⟨_, rfl⟩, nofun⟩
  | arr xs => exact .inr ⟨⟨_, rfl⟩, nofun⟩

theorem searchKnowledgeGraph_ran {query : String}
    {r : Except Exn (List Entity × List Relationship × Option String)}
    (run : Prog.Runs H (searchKnowledgeGraph deps query) s log (Prog.ended r) s') :
    Searched deps query r log := by
  rcases run.bind with ⟨x, rfl, sent⟩ | ⟨u, t, log₁, log₂, sent, rest, rfl⟩
  · obtain ⟨rfl, -⟩ := Prog.Runs.perform sent
    exact .unsent
  obtain ⟨rfl, -⟩ := Prog.Runs.perform sent
  rcases rest.bind with ⟨x, rfl, waited⟩ | ⟨result, t', log₃, log₄, waited, last, rfl⟩
  · obtain ⟨rfl, -⟩ := Prog.Runs.perform waited
    exact .unanswered
  · obtain ⟨rfl, -⟩ := Prog.Runs.perform waited
    obtain ⟨rfl, rfl, -⟩ := last.ret
    exact .answered

/-- A call of the agent service, alone. -/
theorem agentService_call {c : Agent.Call} {r : Except Exn c.Answer}
    (run : Prog.Runs H (agentService (Agent.call c)) s log (Prog.ended r) s') :
    log = [⟨.agent c, r⟩] ∧ H (.agent c) s r s' :=
  Prog.Runs.perform (Prog.Runs.interp_perform (h := fun c => call (.agent c)) run)

theorem createRun_ran {userId : UUID} {topic : Agent.Topic} {r : Except Exn Agent.AgentRun}
    (run : Prog.Runs H (agentService (Agent.Service.createRun userId topic)) s log (Prog.ended r)
      s') :
    (∃ x, r = .error x ∧ ∃ e ∈ log, ¬Normal e) ∨ ∃ row made, r = .ok made ∧ made.id = row.id ∧
      log = [⟨.agent (.sql (.insertRun userId topic.val)), .ok row⟩,
        ⟨.agent (.parse row), .ok ()⟩] := by
  rcases Prog.Runs.interp_bind run with
    ⟨x, rfl, inserted⟩ | ⟨row, t, log₁, log₂, inserted, rest, rfl⟩
  · obtain ⟨rfl, -⟩ := agentService_call inserted
    exact .inl ⟨x, rfl, _, List.mem_singleton_self _, fun ⟨_, answered⟩ => nomatch answered⟩
  obtain ⟨rfl, -⟩ := agentService_call inserted
  rcases Prog.Runs.interp_bind rest with ⟨x, rfl, parsed⟩ | ⟨u, t', log₃, log₄, parsed, last, rfl⟩
  · obtain ⟨rfl, -⟩ := agentService_call parsed
    exact .inl ⟨x, rfl, _, List.mem_append_right _ (List.mem_singleton_self _),
      fun ⟨_, answered⟩ => nomatch answered⟩
  · obtain ⟨rfl, -⟩ := agentService_call parsed
    obtain ⟨rfl, rfl, -⟩ := Prog.Runs.ret last
    exact .inr ⟨row, _, rfl, rfl, rfl⟩

/-- What the search raises and `except Exception` does not catch is not normal. -/
theorem Searched.abnormal {query : String} {x : Exn} (search : Searched deps query (.error x) log)
    (uncaught : ¬x.isException) : ∃ e ∈ log, ¬Normal e := by
  generalize returned : (Except.error x : Except Exn _) = r at search
  cases search with
  | unsent =>
      cases returned
      exact ⟨_, List.mem_singleton_self _, fun normal => uncaught (normal x rfl)⟩
  | unanswered =>
      cases returned
      exact ⟨_, List.mem_cons_of_mem _ (List.mem_singleton_self _),
        fun normal => uncaught (normal x rfl)⟩
  | answered => cases returned

variable {function : List (String × Json)} {r : Except Exn ToolOutcome}

theorem runSearch_ran (name : nameOf function = .str searchTool)
    (run : Prog.Runs H (runSearch deps (argumentsOf function)) s log (Prog.ended r) s') :
    (∃ outcome, r = .ok outcome ∧ Ran deps function outcome log) ∨ (∃ x, r = .error x) ∧
      ((∀ args, argumentsOf function ≠ .obj args) ∨ ∃ e ∈ log, ¬Normal e) := by
  rcases run.bind with ⟨x, rfl, read⟩ | ⟨query, t, log₁, log₂, read, rest, rfl⟩
  · obtain ⟨raised, -⟩ := Prog.Runs.atOnce read
    rcases textArgument_cases deps.py (argumentsOf function) "query" with
      ⟨args, dict, found⟩ | ⟨-, other⟩
    · cases raised.trans found
    · exact .inr ⟨⟨x, rfl⟩, .inl other⟩
  obtain ⟨found, rfl, rfl⟩ := Prog.Runs.atOnce read
  rw [List.nil_append]
  rcases textArgument_cases deps.py (argumentsOf function) "query" with
    ⟨args, dict, text⟩ | ⟨⟨x, raised⟩, -⟩
  · obtain rfl := Except.ok.inj (found.trans text)
    split at rest
    · rename_i short
      obtain ⟨rfl, rfl, -⟩ := rest.ret
      exact .inl ⟨_, rfl, .noQuery name dict short⟩
    · rcases rest.bind with ⟨x, rfl, impossible⟩ | ⟨found, t, log₁, log₂, tried, rest, rfl⟩
      · obtain ⟨q, wrong, -⟩ := Prog.Runs.attempt impossible
        cases wrong
      obtain ⟨q, same, search⟩ := Prog.Runs.attempt tried
      obtain rfl := Except.ok.inj same
      have searched := searchKnowledgeGraph_ran search
      match found with
      | .error x =>
          dsimp only at rest
          split at rest
          · rename_i caught
            obtain ⟨rfl, rfl, -⟩ := rest.ret
            rw [List.append_nil]
            exact .inl ⟨_, rfl, .searchFailed name dict caught searched⟩
          · rename_i uncaught
            obtain ⟨rfl, rfl, -⟩ := rest.raise
            obtain ⟨e, mem, abnormal⟩ := searched.abnormal uncaught
            exact .inr ⟨⟨x, rfl⟩, .inr ⟨e, List.mem_append_left _ mem, abnormal⟩⟩
      | .ok view =>
          dsimp only at rest
          rcases rest.bind with ⟨x, rfl, drawn⟩ | ⟨id, t, log₃, log₄, drawn, last, rfl⟩
          · obtain ⟨rfl, -⟩ := Prog.Runs.perform drawn
            exact .inr ⟨⟨x, rfl⟩, .inr ⟨_, List.mem_append_right _ (List.mem_singleton_self _),
              fun ⟨_, answered⟩ => nomatch answered⟩⟩
          · obtain ⟨rfl, -⟩ := Prog.Runs.perform drawn
            obtain ⟨rfl, rfl, -⟩ := last.ret
            exact .inl ⟨_, rfl, .searched name dict searched⟩
  · cases found.trans raised

theorem runLaunch_ran (name : nameOf function = .str launchTool)
    (run : Prog.Runs H (runLaunch deps (argumentsOf function)) s log (Prog.ended r) s') :
    (∃ outcome, r = .ok outcome ∧ Ran deps function outcome log) ∨ (∃ x, r = .error x) ∧
      ((∀ args, argumentsOf function = .obj args → 500 < (textOf deps.py args "topic").length) ∨
        ∃ e ∈ log, ¬Normal e) := by
  rcases run.bind with ⟨x, rfl, read⟩ | ⟨topic, t, log₁, log₂, read, rest, rfl⟩
  · obtain ⟨raised, -⟩ := Prog.Runs.atOnce read
    rcases textArgument_cases deps.py (argumentsOf function) "topic" with
      ⟨args, dict, found⟩ | ⟨-, other⟩
    · cases raised.trans found
    · exact .inr ⟨⟨x, rfl⟩, .inl fun args dict => (other args dict).elim⟩
  obtain ⟨found, rfl, rfl⟩ := Prog.Runs.atOnce read
  rw [List.nil_append]
  rcases textArgument_cases deps.py (argumentsOf function) "topic" with
    ⟨args, dict, text⟩ | ⟨⟨x, raised⟩, -⟩
  · obtain rfl := Except.ok.inj (found.trans text)
    split at rest
    · rename_i short
      obtain ⟨rfl, rfl, -⟩ := rest.ret
      exact .inl ⟨_, rfl, .noTopic name dict short⟩
    rename_i long
    rcases rest.bind with ⟨x, rfl, checked⟩ | ⟨data, t, log₁, log₂, checked, rest, rfl⟩
    · obtain ⟨raised, -⟩ := Prog.Runs.atOnce checked
      refine .inr ⟨⟨x, rfl⟩, .inl fun args' dict' => ?_⟩
      obtain rfl := Json.obj.inj (dict.symm.trans dict')
      rw [agentRunCreate] at raised
      split at raised
      · cases raised
      · omega
    obtain ⟨passed, rfl, rfl⟩ := Prog.Runs.atOnce checked
    rw [List.nil_append]
    rw [agentRunCreate] at passed
    split at passed
    · rename_i bounds
      obtain rfl := Except.ok.inj passed
      rcases rest.bind with ⟨x, rfl, created⟩ | ⟨made, t, log₁, log₂, created, enqueue, rfl⟩
      · rcases createRun_ran created with ⟨_, -, abnormal⟩ | ⟨_, _, wrong, -⟩
        · exact .inr ⟨⟨x, rfl⟩, .inr abnormal⟩
        · cases wrong
      rcases createRun_ran created with ⟨_, wrong, -⟩ | ⟨row, made', same, id, rfl⟩
      · cases wrong
      obtain rfl := Except.ok.inj same
      rcases enqueue.bind with ⟨x, rfl, sent⟩ | ⟨u, t, log₃, log₄, sent, last, rfl⟩
      · obtain ⟨rfl, -⟩ := agentService_call sent
        exact .inr ⟨⟨x, rfl⟩, .inr ⟨_, List.mem_append_right _ (List.mem_singleton_self _),
          fun ⟨_, answered⟩ => nomatch answered⟩⟩
      · obtain ⟨rfl, -⟩ := agentService_call sent
        obtain ⟨rfl, rfl, -⟩ := last.ret
        exact .inl ⟨_, rfl, .queued name dict bounds.2 id⟩
    · cases passed
  · cases found.trans raised

/-- What became of a call whose function was found. -/
theorem callTool_ran {toolCall : ToolCall} (found : functionOf toolCall = .ok function)
    (run : Prog.Runs H (callTool deps toolCall) s log (Prog.ended r) s') :
    (∃ outcome, r = .ok outcome ∧ Ran deps function outcome log) ∨ (∃ x, r = .error x) ∧
      (¬Resolvable deps.py toolCall ∨ ∃ e ∈ log, ¬Normal e) := by
  have same : ∀ function', (toolCall.lookup "function").getD (.obj []) = .obj function' →
      function' = function :=
    fun function' dict => Except.ok.inj ((fieldsOf_eq_ok.mpr dict).symm.trans found)
  rw [callTool, found] at run
  dsimp only [lift, Prog.ended, Prog.ret_bind] at run
  split at run
  · rename_i name
    refine (runSearch_ran name run).imp_right
      (And.imp_right (Or.imp_left fun other resolvable => ?_))
    obtain ⟨function', dict, search, -⟩ := resolvable
    obtain rfl := same function' dict
    obtain ⟨args, dict⟩ := search name
    exact other args dict
  split at run
  · rename_i name
    refine (runLaunch_ran name run).imp_right
      (And.imp_right (Or.imp_left fun tooLong resolvable => ?_))
    obtain ⟨function', dict, -, launch⟩ := resolvable
    obtain rfl := same function' dict
    obtain ⟨args, dict, short⟩ := launch name
    exact absurd (tooLong args dict) (Nat.not_lt.mpr short)
  · rename_i search launch
    obtain ⟨rfl, rfl, -⟩ := Prog.Runs.ret run
    exact .inl ⟨_, rfl, .unrecognized search launch⟩

/-- What was answered was answerable. -/
theorem Ran.resolvable {toolCall : ToolCall} {outcome : ToolOutcome}
    (found : functionOf toolCall = .ok function) (ran : Ran deps function outcome log) :
    Resolvable deps.py toolCall := by
  refine ⟨function, fieldsOf_eq_ok.mp found, fun name => ?_, fun name => ?_⟩
  · cases ran with
    | unrecognized search launch => exact (search name).elim
    | noQuery _ dict _ => exact ⟨_, dict⟩
    | searchFailed _ dict _ _ => exact ⟨_, dict⟩
    | searched _ dict _ => exact ⟨_, dict⟩
    | noTopic _ dict _ => exact ⟨_, dict⟩
    | queued _ dict _ _ => exact ⟨_, dict⟩
  · have different : Json.str launchTool ≠ .str searchTool := by decide
    cases ran with
    | unrecognized search launch => exact (launch name).elim
    | noQuery name' _ _ => exact (different (name.symm.trans name')).elim
    | searchFailed name' _ _ _ => exact (different (name.symm.trans name')).elim
    | searched name' _ _ => exact (different (name.symm.trans name')).elim
    | noTopic _ dict short => exact ⟨_, dict, by omega⟩
    | queued _ dict topic _ => exact ⟨_, dict, topic⟩

/-! ## What an answer is worth -/

def isDecision : Event → Bool
  | ⟨.chatOnce _, _⟩ => true
  | _ => false

/-- The calls the model decided on. -/
def decidedCalls : Event → List ToolCall
  | ⟨.chatOnce _, .ok decision⟩ => OllamaMessage.calls decision
  | _ => []

/-- The run that was created. -/
def createdRun : Event → Option UUID
  | ⟨.agent (.sql (.insertRun _ _)), .ok row⟩ => some (Agent.RunRow.id row)
  | _ => none

/-- The run that was enqueued. -/
def enqueuedRun : Event → Option UUID
  | ⟨.agent (.kiq (.runAgent id)), .ok _⟩ => some id
  | _ => none

/-- The search returned, or the run was enqueued. -/
def succeeded : Event → Bool
  | ⟨.waitResult, .ok _⟩ => true
  | ⟨.agent (.kiq (.runAgent _)), .ok _⟩ => true
  | _ => false

/-- The run a part reports. -/
def launchedRun (part : ToolPart) : Option UUID :=
  match part.result with
  | .queued summary => some summary.id
  | .hits _ _ => none

/-- The model is not asked, and a run is created and enqueued for each launch in `parts`. -/
structure Accounted (parts : List ToolPart) (log : Log) : Prop where
  asked : log.countP isDecision = 0
  decided : log.flatMap decidedCalls = []
  created : log.filterMap createdRun = parts.filterMap launchedRun
  enqueued : log.filterMap enqueuedRun = parts.filterMap launchedRun

theorem Searched.accounted {query : String}
    {r : Except Exn (List Entity × List Relationship × Option String)}
    (search : Searched deps query r log) : Accounted [] log := by
  cases search <;> exact ⟨rfl, rfl, rfl, rfl⟩

theorem Accounted.append {parts parts' : List ToolPart} {log' : Log} (first : Accounted parts log)
    (rest : Accounted parts' log') : Accounted (parts ++ parts') (log ++ log') where
  asked := by rw [List.countP_append, first.asked, rest.asked]
  decided := by rw [List.flatMap_append, first.decided, rest.decided]; rfl
  created := by rw [List.filterMap_append, List.filterMap_append, first.created, rest.created]
  enqueued := by rw [List.filterMap_append, List.filterMap_append, first.enqueued, rest.enqueued]

theorem Ran.accounted {outcome : ToolOutcome} (ran : Ran deps function outcome log) :
    Accounted outcome.part.toList log := by
  cases ran with
  | unrecognized | noQuery | noTopic => exact ⟨rfl, rfl, rfl, rfl⟩
  | searchFailed _ _ _ failed => exact failed.accounted
  | searched _ _ returned => exact returned.accounted.append ⟨rfl, rfl, rfl, rfl⟩
  | queued _ _ _ same => exact ⟨rfl, rfl, congrArg (fun id => [id]) same.symm, rfl⟩

/-- What did not launch created no run. -/
theorem Ran.created_eq_nil {outcome : ToolOutcome} (ran : Ran deps function outcome log)
    (quiet : outcome.launched = false) : log.filterMap createdRun = [] := by
  rw [ran.accounted.created]
  cases ran with
  | unrecognized | noQuery | noTopic | searchFailed | searched => rfl
  | queued => cases quiet

end Calls

end Intellivault.Chat
