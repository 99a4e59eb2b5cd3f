import Mathlib.Logic.Equiv.Defs
import Intellivault.Lib.Prog
import Intellivault.Agent.Sql
import Intellivault.Agent.Text

/-!
# The calls of the worker and the routes

Every `await` that leaves the process is a `Call`: a statement on `agent_runs`, the broker,
the graph service, the embedder, the chat model, an MCP tool, a fetch.  A coroutine is a
`Prog` over these calls.  An overall deadline shows as a call that is answered by the
`CancelledError` asyncio throws into it, which no `except Exception` catches.
-/

namespace Intellivault.Agent

open Lib

/-! ## Exceptions -/

inductive Exn where
  | http (x : HTTPException)
  | structuredOutput (message : String)
  | ssrf (message : String)
  | lookup (message : String)
  | timeout
  | cancelled
  | recursionLimit
  /-- Any other exception, with what `str` and `repr` print for it. -/
  | other (str repr : String)
deriving DecidableEq

namespace Exn

/-- `str(exc)` -/
def str : Exn → String
  | .http x => toString x.statusCode ++ ": " ++ x.detail
  | .structuredOutput message | .ssrf message | .lookup message => message
  | .timeout | .cancelled => ""
  | .recursionLimit => "Recursion limit reached without hitting a stop condition."
  | .other str _ => str

/-- `repr(exc)` -/
def repr : Exn → String
  | .http x =>
      "HTTPException(status_code=" ++ toString x.statusCode ++ ", detail=" ++ pyRepr x.detail ++ ")"
  | .structuredOutput message => "StructuredOutputError(" ++ pyRepr message ++ ")"
  | .ssrf message => "SsrfError(" ++ pyRepr message ++ ")"
  | .lookup message => "LookupError(" ++ pyRepr message ++ ")"
  | .timeout => "TimeoutError()"
  | .cancelled => "CancelledError()"
  | .recursionLimit => "GraphRecursionError(" ++ pyRepr recursionLimit.str ++ ")"
  | .other _ repr => repr

/-- What `except Exception` catches. -/
def isException : Exn → Bool
  | .cancelled => false
  | _ => true

def isHttp : Exn → Bool
  | .http _ => true
  | _ => false

def isStructuredOutput : Exn → Bool
  | .structuredOutput _ => true
  | _ => false

def isSsrf : Exn → Bool
  | .ssrf _ => true
  | _ => false

end Exn

/-! ## Calls and their answers -/

/-- A job in the queue, by the task's name. -/
inductive Job where
  | runAgent (runId : UUID)
  | commitAgentRun (runId : UUID)
deriving DecidableEq

/-- A call of the graph service.  `create_entity` shows the parameters of its one statement:
the attributes as `json.dumps(.., sort_keys=True)` writes them. -/
inductive GraphCall where
  | createEntity (ownerId : UUID) (visibility : Visibility) (name kind : String)
      (attributes : Attributes)
  | attachSources (ownerId entityId : UUID) (urls : List String)
  | createRelationship (ownerId : UUID) (data : RelationshipInput)
  | setEntityEmbedding (ownerId entityId : UUID) (embedding : Embedding)
  | searchEntitiesByVector (ownerId : UUID) (embedding : Embedding) (k : Nat)
  | listGraph (ownerId : UUID)
  | listVisibleRelationshipsAmong (ownerId : UUID) (entityIds : List UUID)

def GraphCall.Answer : GraphCall → Type
  | .createEntity _ _ _ _ _ => Entity
  | .attachSources _ _ _ | .setEntityEmbedding _ _ _ => Unit
  | .createRelationship _ _ => Relationship
  | .searchEntitiesByVector _ _ _ => List Entity
  | .listGraph _ => GraphView
  | .listVisibleRelationshipsAmong _ _ => List Relationship

/-- A message of a prompt; a system message is named by its prompt file. -/
inductive Message where
  | system (prompt : String)
  | human (content : String)
deriving DecidableEq

/-- The `content` of a model's reply. -/
inductive Content where
  | text (s : String)
  | parts (ps : List String)
  | other (s : String)

/-- The schemas the nodes ask a structured reply for. -/
inductive Schema where
  | plan
  | structuredResult
  | critique
  | enrichLinks
deriving DecidableEq

def Schema.Model : Schema → Type
  | .plan => Plan
  | .structuredResult => StructuredResult
  | .critique => Critique
  | .enrichLinks => EnrichLinks

inductive Call where
  | sql (q : Sql)
  /-- Validating a stored `jsonb` column. -/
  | load (column : String)
  /-- Building the `AgentRun` of a returned row. -/
  | parse (row : RunRow)
  /-- `<task>.kiq(..)` -/
  | kiq (job : Job)
  | graph (c : GraphCall)
  /-- `embedder.aembed_query(text)` -/
  | embed (text : String)
  /-- `chat_model.ainvoke(messages)` -/
  | invoke (messages : List Message)
  /-- `with_structured_output(schema).ainvoke(messages)` and the validation of the reply. -/
  | ask (schema : Schema) (messages : List Message)
  /-- `tool.ainvoke(args)` under its timeout. -/
  | tool (name : String) (args : List (String × Json))
  | guardUrl (url : String)
  | fetchText (url : String)
  | sleep (seconds : Rat)
  /-- `async for .. in run_graph(..)`: waiting for the next pair. -/
  | stream
  /-- Not a call: the order in which `n` concurrent branches finish. -/
  | finishOrder (n : Nat)
  /-- Not a call: marks the task's own `state.update(update)`. -/
  | mirror (update : Update)

def Call.Answer : Call → Type
  | .sql q => q.Answer
  | .load _ | .parse _ | .kiq _ | .guardUrl _ | .sleep _ | .stream | .mirror _ => Unit
  | .graph c => c.Answer
  | .embed _ => Embedding
  | .invoke _ => Content
  | .ask schema _ => schema.Model
  | .tool _ _ => Json
  | .fetchText _ => FetchedDoc
  | .finishOrder n => Equiv.Perm (Fin n)

/-- A coroutine. -/
abbrev Coroutine (α : Type) : Type := Prog Call Call.Answer Exn α

/-- The calls a coroutine made, with their answers. -/
abbrev CallLog := List (Prog.Event Call Call.Answer Exn)

/-- Make one call. -/
def call (c : Call) : Coroutine c.Answer := Prog.perform c

/-! ## Exceptions in coroutines -/

/-- `try: p except X as exc: h(exc)`, where `catches` says what is an `X`. -/
def tryExcept {α : Type} (catches : Exn → Bool) (p : Coroutine α) (h : Exn → Coroutine α) : Coroutine α :=
  p.handle fun x => if catches x then h x else .raise x

/-- `asyncio.gather(.., return_exceptions=True)`, of one of its arguments. -/
def returnException {α : Type} (p : Coroutine α) : Coroutine (Except Exn α) :=
  tryExcept Exn.isException (p >>= fun a => .ret (.ok a)) fun x => .ret (.error x)

/-! ## The calls -/

def sql (q : Sql) : Coroutine q.Answer := call (.sql q)

def kiq (job : Job) : Coroutine Unit := call (.kiq job)

def aembedQuery (text : String) : Coroutine Embedding := call (.embed text)

def callTool (name : String) (args : List (String × Json)) : Coroutine Json := call (.tool name args)

def guardUrl (url : String) : Coroutine Unit := call (.guardUrl url)

def fetchText (url : String) : Coroutine FetchedDoc := call (.fetchText url)

def ainvoke (messages : List Message) : Coroutine Content := call (.invoke messages)

/-- The order concurrent branches finish in. -/
def finishOrder (n : Nat) : Coroutine (Equiv.Perm (Fin n)) :=
  .call (.finishOrder n) fun
    | .ok order => .ret order
    | .error _ => .ret (.refl _)

def mirror (update : Update) : Coroutine Unit := .call (.mirror update) fun _ => .ret ()

/-- `structured`: ask, and on any failure ask once more. -/
def structured (schema : Schema) (messages : List Message) : Coroutine schema.Model :=
  tryExcept Exn.isException (call (.ask schema messages)) fun first =>
    let retry := messages ++ [.human ("Your previous reply did not match the required schema (" ++
      first.str ++ "). Reply again with only the valid structured object.")]
    tryExcept Exn.isException (call (.ask schema retry)) fun last =>
      .raise (.structuredOutput last.str)

namespace GraphService

def createEntity (ownerId : UUID) (data : EntityInput) : Coroutine Entity :=
  call (.graph (.createEntity ownerId data.visibility data.name.val data.kind.val
    (Json.sortKeysObj data.attributes)))

def attachSources (ownerId entityId : UUID) (urls : List String) : Coroutine Unit :=
  call (.graph (.attachSources ownerId entityId urls))

def createRelationship (ownerId : UUID) (data : RelationshipInput) : Coroutine Relationship :=
  call (.graph (.createRelationship ownerId data))

def setEntityEmbedding (ownerId entityId : UUID) (embedding : Embedding) : Coroutine Unit :=
  call (.graph (.setEntityEmbedding ownerId entityId embedding))

def searchEntitiesByVector (ownerId : UUID) (embedding : Embedding) (k : Nat) :
    Coroutine (List Entity) :=
  call (.graph (.searchEntitiesByVector ownerId embedding k))

def listGraph (ownerId : UUID) : Coroutine GraphView := call (.graph (.listGraph ownerId))

def listVisibleRelationshipsAmong (ownerId : UUID) (entityIds : List UUID) :
    Coroutine (List Relationship) :=
  call (.graph (.listVisibleRelationshipsAmong ownerId entityIds))

end GraphService

end Intellivault.Agent
