import Intellivault.Chat.Rounds

/-!
# A turn of the chat

`run_callback` of `app/chat/service.py`: the thread a client sends, the tools, and the reply
that is streamed into it.  The thread is typed: it is what earlier turns made of it.  What
reaches the client are the operations on `controller`, in order (`Op`); the reply of the model
is the lines of one response, as they came, and how the response ended.
-/

namespace Intellivault.Chat

open Lib
open Agent (Exn truthy pyRepr)

/-! ## The thread -/

/-- `MessageRole` -/
inductive MessageRole where
  | user
  | assistant
deriving DecidableEq

def MessageRole.text : MessageRole → String
  | .user => "user"
  | .assistant => "assistant"

/-- `MessagePart` -/
structure MessagePart where
  type : String
  text : Option String := none

/-- A part of a message of the thread: one that a client sent or a reply's text, or a tool call. -/
inductive Part where
  | message (part : MessagePart)
  | tool (part : ToolPart)

structure ThreadMessage where
  role : MessageRole
  parts : List Part

/-- `controller.state["messages"]` -/
abbrev Thread := List ThreadMessage

/-- `Command` -/
inductive Command where
  | addMessage (role : MessageRole) (parts : List MessagePart)
  | addToolResult (toolCallId : String) (result : List (String × Json))

def Command.message : Command → Option ThreadMessage
  | .addMessage role parts => some ⟨role, parts.map .message⟩
  | .addToolResult _ _ => none

/-- `_new_user_message` -/
def newUserMessage (commands : List Command) : Option ThreadMessage :=
  commands.findSome? Command.message

/-- `part.get("text") or ""` of a part of type `text`. -/
def Part.content : Part → String
  | .message part => if part.type = "text" then part.text.getD "" else ""
  | .tool _ => ""

def ThreadMessage.content (m : ThreadMessage) : String := String.join (m.parts.map Part.content)

/-- `_flatten` -/
def flatten (messages : Thread) : List Message :=
  messages.map fun m => [("role", .str m.role.text), ("content", .str m.content)]

/-! ## What reaches the client -/

/-- A change of `controller`. -/
inductive Op where
  /-- `controller.state["messages"].append(message)` -/
  | append (message : ThreadMessage)
  /-- `controller.state["messages"][-1]["parts"][0]["text"] = text` -/
  | setText (text : String)
  /-- `controller.add_error(message)` -/
  | addError (message : String)

/-- `message["parts"][0]["text"] = text` -/
def ThreadMessage.setText (m : ThreadMessage) (text : String) : ThreadMessage :=
  match m.parts with
  | .message part :: rest => { m with parts := .message { part with text := some text } :: rest }
  | _ => m

def setLastText (text : String) : Thread → Thread
  | [] => []
  | [m] => [m.setText text]
  | m :: n :: rest => m :: setLastText text (n :: rest)

def Op.apply (thread : Thread) : Op → Thread
  | .append message => thread ++ [message]
  | .setText text => setLastText text thread
  | .addError _ => thread

/-- The thread after some of the changes. -/
def shown (thread : Thread) (ops : List Op) : Thread := ops.foldl Op.apply thread

/-! ## The reply -/

/-- The response to `client.stream("POST", ..)`: its lines, and what was raised after them, or
instead of them. -/
structure Received where
  lines : List String := []
  failed : Option Exn := none

inductive TurnCall where
  /-- A call of the tools' phase. -/
  | tools (c : Call)
  /-- `chat_stream(client, settings, history)` -/
  | chatStream (history : List Message)

def TurnCall.Answer : TurnCall → Type
  | .tools c => c.Answer
  | .chatStream _ => Received

abbrev TurnCoroutine (α : Type) : Type := Prog TurnCall TurnCall.Answer Exn α

/-- The tools' phase within the turn. -/
def tools {α : Type} : Coroutine α → TurnCoroutine α
  | .ret a => .ret a
  | .raise x => .raise x
  | .call c k => .call (.tools c) fun r => tools (k r)

/-- What a turn is run with. -/
structure TurnDeps extends Deps where
  /-- `prompt("chat_system")` -/
  system : String
  /-- `isinstance(exc, httpx.HTTPError)` -/
  isHttpError : Exn → Bool
  /-- The `JSONDecodeError` of a line. -/
  decodeError : String → Exn

/-- `text += delta`, for a delta that is not a string. -/
def concatError (delta : Json) : Exn :=
  let message := "can only concatenate str (not \"" ++ typeName delta ++ "\") to str"
  .other message ("TypeError(" ++ pyRepr message ++ ")")

/-- A line that is not empty: the text it adds, if any, and whether it is the last. -/
def readChunk (deps : TurnDeps) (line : String) : Except Exn (Option String × Bool) :=
  match deps.py.loads line with
  | none => .error (deps.decodeError line)
  | some chunk => do
      let fields ← fieldsOf chunk
      let message ← fieldsOf ((fields.lookup "message").getD (.obj []))
      let done := truthy ((fields.lookup "done").getD .null)
      match (message.lookup "content").getD (.str "") with
      | .str delta => return (if delta = "" then none else some delta, done)
      | delta => if truthy delta then .error (concatError delta) else return (none, done)

/-- The deltas of a response, and how reading it ends. -/
def deltas (deps : TurnDeps) (failed : Option Exn) : List String → List String × Except Exn Unit
  | [] => ([], match failed with
    | none => .ok ()
    | some x => .error x)
  | line :: rest =>
      if line = "" then deltas deps failed rest
      else
        match readChunk deps line with
        | .error x => ([], .error x)
        | .ok (delta, done) =>
            let more := if done then ([], .ok ()) else deltas deps failed rest
            (delta.toList ++ more.1, more.2)

/-- `text` after each delta. -/
def texts (text : String) : List String → List String
  | [] => []
  | delta :: rest => (text ++ delta) :: texts (text ++ delta) rest

/-! ## `run_callback` -/

def unreachable (x : Exn) : Op := .addError ("Could not reach the language model: " ++ x.str)

/-- The assistant's message before its text is streamed. -/
def placeholder (parts : List ToolPart) : ThreadMessage :=
  ⟨.assistant, .message ⟨"text", some ""⟩ :: parts.map .tool⟩

/-- What `except httpx.HTTPError` makes of an outcome. -/
def reported (deps : TurnDeps) : Except Exn Unit → List Op × Except Exn Unit
  | .ok _ => ([], .ok ())
  | .error x => if deps.isHttpError x then ([unreachable x], .ok ()) else ([], .error x)

/-- The reply: the changes it makes, and whether something was raised after them. -/
def reply (deps : TurnDeps) (history : List Message) : TurnCoroutine (List Op × Except Exn Unit) := do
  match ← (Prog.perform (TurnCall.chatStream history) : TurnCoroutine Received).attempt with
  | .error x => return reported deps (.error x)
  | .ok received =>
      let read := deltas deps received.failed received.lines
      let ended := reported deps read.2
      return ((texts "" read.1).map .setText ++ ended.1, ended.2)

/-- `run_callback`: the changes of the controller, and what it raises after them, if anything. -/
def runCallback (deps : TurnDeps) (commands : List Command) (state : Option Thread) :
    TurnCoroutine (List Op × Except Exn Unit) := do
  let user := (newUserMessage commands).toList
  let history := state.getD [] ++ user
  let prompt : Message := [("role", .str "system"), ("content", .str deps.system)]
  match ← (tools (resolveTools deps.toDeps (prompt :: flatten history))).attempt with
  | .error x =>
      let ended := reported deps (.error x)
      return (user.map .append ++ ended.1, ended.2)
  | .ok progress =>
      let (ops, outcome) ← reply deps progress.history
      return (user.map .append ++ .append (placeholder progress.parts) :: ops, outcome)

end Intellivault.Chat
