import Intellivault.Lib.Script
import Intellivault.Agent.Research

/-!
# The chat turn's tools

`_resolve_tools` of `app/chat/service.py` and what it calls: the rounds in which the model
decides on tool calls, and the two tools.  `create_run` and `enqueue_run` are the agent
service's own coroutines; the search task, the chat model and `uuid4` are calls.
-/

namespace Intellivault.Chat

open Lib
open Agent (Exn Py AgentRun Topic pyRepr uuidStr truthy strip)

/-- One of `tool_calls`: any dictionary. -/
abbrev ToolCall := List (String × Json)

/-- `OllamaMessage` -/
structure OllamaMessage where
  role : String
  content : String := ""
  toolCalls : Option (List ToolCall) := none

/-- `decision.tool_calls or []` -/
def OllamaMessage.calls (decision : OllamaMessage) : List ToolCall := decision.toolCalls.getD []

/-- A message of `ollama_history`. -/
abbrev Message := List (String × Json)

/-- How waiting for `search_knowledge_graph_task` ends, if it does not raise. -/
inductive SearchResult where
  /-- `TaskiqResultTimeoutError`, which is caught. -/
  | timedOut
  /-- `result.is_err` -/
  | failed (error : String)
  | found (entities : List Entity) (relationships : List Relationship) (note : Option String)

inductive Call where
  /-- `chat_once(client, settings, history, tools=_TOOLS)` -/
  | chatOnce (history : List Message)
  /-- `search_knowledge_graph_task.kiq(..)` -/
  | kiqSearch (ownerId : UUID) (query : String) (maxEntities : Nat)
  /-- `task.wait_result(..)`, and the validation of what it returns. -/
  | waitResult
  /-- `uuid4()` -/
  | uuid4
  /-- A call of the agent service. -/
  | agent (c : Agent.Call)

def Call.Answer : Call → Type
  | .chatOnce _ => OllamaMessage
  | .kiqSearch _ _ _ => Unit
  | .waitResult => SearchResult
  | .uuid4 => UUID
  | .agent c => c.Answer

abbrev Coroutine (α : Type) : Type := Prog Call Call.Answer Exn α

def call (c : Call) : Coroutine c.Answer := Prog.perform c

/-- What is computed without a call, returned or raised. -/
def lift {α : Type} : Except Exn α → Coroutine α := Prog.ended

/-- `Settings`, as far as a turn's tools read them. -/
structure Settings where
  chatSearchMaxEntities : Nat := 5
  chatToolCallMaxRounds : Nat := 3

/-- What a turn is run with. -/
structure Deps where
  userId : UUID
  settings : Settings
  py : Py
  /-- The `ValidationError` of `AgentRunCreate(topic=topic)`. -/
  validationError : String → Exn

/-! ## Dictionaries -/

/-- `type(value).__name__` -/
def typeName : Json → String
  | .null => "NoneType"
  | .bool _ => "bool"
  | .num n => if n.toList.all fun c => c.isDigit ∨ c = '-' then "int" else "float"
  | .str _ => "str"
  | .arr _ => "list"
  | .obj _ => "dict"

/-- The `AttributeError` of `value.get`. -/
def attributeError (value : Json) : Exn :=
  let message := "'" ++ typeName value ++ "' object has no attribute 'get'"
  .other message ("AttributeError(" ++ pyRepr message ++ ")")

/-- The fields `value.get(..)` looks into, if the value is a dictionary. -/
def fieldsOf : Json → Except Exn (List (String × Json))
  | .obj fields => .ok fields
  | value => .error (attributeError value)

/-- `call.get("function", {})`, as something to `.get` from. -/
def functionOf (call : ToolCall) : Except Exn (List (String × Json)) :=
  fieldsOf ((call.lookup "function").getD (.obj []))

/-- `.get("name")` -/
def nameOf (function : List (String × Json)) : Json := (function.lookup "name").getD .null

/-- `.get("arguments") or {}` -/
def argumentsOf (function : List (String × Json)) : Json :=
  match function.lookup "arguments" with
  | some value => if truthy value then value else .obj []
  | none => .obj []

/-- `str(args.get(key, "")).strip()`, of the fields of `args`. -/
def textOf (py : Py) (fields : List (String × Json)) (key : String) : String :=
  strip (py.str ((fields.lookup key).getD (.str "")))

def textArgument (py : Py) (args : Json) (key : String) : Except Exn String := do
  let fields ← fieldsOf args
  return textOf py fields key

/-! ## `graph_search.py` -/

/-- What `search_knowledge_graph` returns of it. -/
def SearchResult.returned : SearchResult → List Entity × List Relationship × Option String
  | .timedOut => ([], [], some "search timed out")
  | .failed error => ([], [], some ("search failed: " ++ error))
  | .found entities relationships note => (entities, relationships, note)

/-- `search_knowledge_graph` -/
def searchKnowledgeGraph (deps : Deps) (query : String) :
    Coroutine (List Entity × List Relationship × Option String) := do
  let _ ← call (.kiqSearch deps.userId query deps.settings.chatSearchMaxEntities)
  let result : SearchResult ← call .waitResult
  return result.returned

/-- `name_by_id.get(str(id), str(id))`; a later entity with the id overwrites an earlier one. -/
def nameById (entities : List Entity) (id : UUID) : String :=
  match entities.reverse.find? fun e => e.id = id with
  | some e => e.name
  | none => uuidStr id

/-- `format_search_result` -/
def formatSearchResult (entities : List Entity) (relationships : List Relationship)
    (note : Option String) : String :=
  if entities = [] then
    match note with
    | some "" | none => "No matching entities found in the knowledge graph."
    | some note => note
  else
    let lines := entities.map fun e => "- " ++ e.name ++ " (" ++ e.kind ++ ")"
    let edges := relationships.map fun r =>
      "  - " ++ nameById entities r.fromId ++ " -[" ++ r.kind ++ "]-> " ++ nameById entities r.toId
    "\n".intercalate (lines ++ if relationships = [] then [] else "relationships:" :: edges)

/-! ## The tools -/

/-- `AgentRunSummary` -/
structure AgentRunSummary where
  id : UUID
  topic : String
  status : Agent.AgentRunStatus
  createdAt : Time
  updatedAt : Time

inductive ToolResult where
  | hits (entities : List Entity) (relationships : List Relationship)
  | queued (summary : AgentRunSummary)

/-- A part of the reply with `"type": "tool-call"`. -/
structure ToolPart where
  toolCallId : String
  toolName : String
  args : Json
  argsText : String
  done : Bool
  result : ToolResult

/-- What a tool returns: its note for the model, its part for the UI, and whether it launched. -/
structure ToolOutcome where
  note : String
  part : Option ToolPart
  launched : Bool

/-- `SEARCH_KNOWLEDGE_GRAPH` -/
def searchTool : String := "search_knowledge_graph"

/-- `LAUNCH_RESEARCH_AGENT` -/
def launchTool : String := "launch_research_agent"

/-- A part of a finished call, whose one argument is a text. -/
def toolPart (id tool key text : String) (result : ToolResult) : ToolPart :=
  let args : Json := .obj [(key, .str text)]
  { toolCallId := id, toolName := tool, args, argsText := Json.dumps args, done := true, result }

/-- What `_run_search` returns of a search that returned. -/
def searched (query : String) (view : List Entity × List Relationship × Option String) (id : UUID) :
    ToolOutcome where
  note := "search_knowledge_graph(query=" ++ pyRepr query ++ ") ->\n" ++
    formatSearchResult view.1 view.2.1 view.2.2
  part := some (toolPart ("search-" ++ uuidStr id) searchTool "query" query (.hits view.1 view.2.1))
  launched := false

/-- `_run_search` -/
def runSearch (deps : Deps) (args : Json) : Coroutine ToolOutcome := do
  let query ← lift (textArgument deps.py args "query")
  if query.length < 3 then
    return {
      note := "search_knowledge_graph was requested without a usable query; it was not run."
      part := none, launched := false }
  else
    let found ← (searchKnowledgeGraph deps query).attempt
    match found with
    | .error x =>
        if x.isException then
          return {
            note := "search_knowledge_graph(query=" ++ pyRepr query ++ ") failed: " ++ x.str
            part := none, launched := false }
        else .raise x
    | .ok view =>
        let id : UUID ← call .uuid4
        return searched query view id

/-- `AgentRunCreate(topic=topic)` -/
def agentRunCreate (deps : Deps) (topic : String) : Except Exn Topic :=
  if bounds : 3 ≤ topic.length ∧ topic.length ≤ 500 then .ok ⟨topic, bounds⟩
  else .error (deps.validationError topic)

/-- A coroutine of the agent service. -/
def agentService {α : Type} (p : Agent.Coroutine α) : Coroutine α :=
  p.interp fun c => call (.agent c)

/-- What `_run_launch` returns of a queued run. -/
def queued (topic : String) (run : AgentRun) : ToolOutcome where
  note := "launch_research_agent(topic=" ++ pyRepr topic ++ ") -> queued as run " ++
    uuidStr run.id ++ "."
  part := some (toolPart ("launch-" ++ uuidStr run.id) launchTool "topic" topic
    (.queued ⟨run.id, run.topic, run.status, run.createdAt, run.updatedAt⟩))
  launched := true

/-- `_run_launch` -/
def runLaunch (deps : Deps) (args : Json) : Coroutine ToolOutcome := do
  let topic ← lift (textArgument deps.py args "topic")
  if topic.length < 3 then
    return {
      note := "launch_research_agent was requested without a usable topic; it was not run."
      part := none, launched := false }
  else
    let data ← lift (agentRunCreate deps topic)
    let run ← agentService (Agent.Service.createRun deps.userId data)
    let _ ← agentService (Agent.Service.enqueueRun run.id)
    return queued topic run

/-- `_call_tool` -/
def callTool (deps : Deps) (toolCall : ToolCall) : Coroutine ToolOutcome := do
  let function ← lift (functionOf toolCall)
  let name := nameOf function
  let args := argumentsOf function
  if name = .str searchTool then runSearch deps args
  else if name = .str launchTool then runLaunch deps args
  else
    return { note := deps.py.str name ++ " is not a recognized tool.", part := none, launched := false }

/-! ## The rounds -/

/-- The assistant's turn, as it is put into the history. -/
def decisionMessage (decision : OllamaMessage) : Message :=
  [("role", .str "assistant"), ("content", .str decision.content),
    ("tool_calls", .arr (decision.calls.map .obj))]

def toolMessage (note : String) : Message := [("role", .str "tool"), ("content", .str note)]

/-- The variables of `_resolve_tools`. -/
structure Progress where
  /-- `ollama_history` -/
  history : List Message
  parts : List ToolPart := []
  called : List String := []
  launched : Bool := false

/-- The body of the inner loop, once the call's note, part and launch are known. -/
def Progress.add (progress : Progress) (name : String) (outcome : ToolOutcome) : Progress where
  history := progress.history ++ [toolMessage outcome.note]
  parts := progress.parts ++ outcome.part.toList
  called := progress.called ++ [name]
  launched := progress.launched || outcome.launched

/-- `for call in tool_calls`. -/
def runCalls (deps : Deps) : List ToolCall → Progress → Coroutine Progress
  | [], progress => return progress
  | toolCall :: rest, progress => do
      let function ← lift (functionOf toolCall)
      let outcome ← callTool deps toolCall
      runCalls deps rest (progress.add (deps.py.str (nameOf function)) outcome)

/-- `for _round in range(..)`, with so many rounds left. -/
def rounds (deps : Deps) : Nat → Progress → Coroutine Progress
  | 0, progress => return progress
  | n + 1, progress => do
      let decision : OllamaMessage ← call (.chatOnce progress.history)
      if decision.calls = [] then return progress
      else
        let progress ← runCalls deps decision.calls
          { progress with history := progress.history ++ [decisionMessage decision], launched := false }
        if progress.launched then return progress else rounds deps n progress

/-- `_resolve_tools`.  The history is returned with the parts and the names, for the caller's
list is what it appends to. -/
def resolveTools (deps : Deps) (history : List Message) : Coroutine Progress :=
  rounds deps deps.settings.chatToolCallMaxRounds { history }

end Intellivault.Chat
