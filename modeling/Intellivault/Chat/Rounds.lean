import Intellivault.Chat.Tools

/-!
# The rounds of a turn

A complete run of `_resolve_tools`, as blocks: a decision of the model, and an answer to each
of its calls.  `Resolves` says how blocks follow each other and where they end, and what the
turn leaves behind is read off the blocks.
-/

namespace Intellivault.Chat

open Lib
open Agent (Exn Py)

/-! ## Blocks -/

/-- A call with its answer. -/
structure Answer (deps : Deps) where
  toolCall : ToolCall
  function : List (String × Json)
  outcome : ToolOutcome
  log : Log
  found : functionOf toolCall = .ok function
  ran : Ran deps function outcome log

/-- One round: a decision with calls, and an answer to each of them, in order. -/
structure Block (deps : Deps) where
  decision : OllamaMessage
  answers : List (Answer deps)
  decided : answers.map Answer.toolCall = decision.calls
  nonempty : answers ≠ []

variable {deps : Deps}

/-- What `called` says of it. -/
def Answer.name (a : Answer deps) : String := deps.py.str (nameOf a.function)

namespace Block

/-- The assistant's message and one tool message for each call. -/
def messages (b : Block deps) : List Message :=
  decisionMessage b.decision :: b.answers.map fun a => toolMessage a.outcome.note

def names (b : Block deps) : List String := b.answers.map Answer.name

def parts (b : Block deps) : List ToolPart := b.answers.flatMap fun a => a.outcome.part.toList

def launches (b : Block deps) : Bool := b.answers.any fun a => a.outcome.launched

/-- What was called in the round, the model first. -/
def log (b : Block deps) (history : List Message) : Log :=
  ⟨.chatOnce history, .ok b.decision⟩ :: b.answers.flatMap Answer.log

end Block

/-- The variables after a round. -/
def Progress.after (progress : Progress) (b : Block deps) : Progress where
  history := progress.history ++ b.messages
  parts := progress.parts ++ b.parts
  called := progress.called ++ b.names
  launched := b.launches

/-- The rounds of a run that may use `n` of them, and how they end: at the cap, after a
decision without calls, if the model cannot be reached, or after a launch. -/
inductive Resolves (deps : Deps) :
    Nat → Progress → List (Block deps) → Log → Except Exn Progress → Prop
  | cap {progress} : Resolves deps 0 progress [] [] (.ok progress)
  | noCalls {n progress decision} (none : OllamaMessage.calls decision = []) :
      Resolves deps (n + 1) progress [] [⟨.chatOnce progress.history, .ok decision⟩] (.ok progress)
  | unreachable {n progress x} :
      Resolves deps (n + 1) progress [] [⟨.chatOnce progress.history, .error x⟩] (.error x)
  | launch {n progress} (b : Block deps) (launches : b.launches = true) :
      Resolves deps (n + 1) progress [b] (b.log progress.history) (.ok (progress.after b))
  | next {n progress blocks log r} (b : Block deps) (quiet : b.launches = false)
      (rest : Resolves deps n (progress.after b) blocks log r) :
      Resolves deps (n + 1) progress (b :: blocks) (b.log progress.history ++ log) r

/-! ## A run is made of blocks -/

section Runs

variable {H : Prog.Handler Call Call.Answer Exn Unit} {s s' : Unit} {log : Log}

/-- The variables after some of a round's calls. -/
def Progress.answered (progress : Progress) (answers : List (Answer deps)) : Progress where
  history := progress.history ++ answers.map fun a => toolMessage a.outcome.note
  parts := progress.parts ++ answers.flatMap fun a => a.outcome.part.toList
  called := progress.called ++ answers.map Answer.name
  launched := progress.launched || answers.any fun a => a.outcome.launched

@[simp] theorem Progress.answered_nil (progress : Progress) :
    progress.answered ([] : List (Answer deps)) = progress := by
  simp [Progress.answered]

@[simp] theorem Progress.answered_cons (progress : Progress) (a : Answer deps)
    (answers : List (Answer deps)) :
    progress.answered (a :: answers) = (progress.add a.name a.outcome).answered answers := by
  simp [Progress.answered, Progress.add, Bool.or_assoc]

theorem runCalls_ran {calls : List ToolCall} {progress : Progress} {r : Except Exn Progress}
    (run : Prog.Runs H (runCalls deps calls progress) s log (Prog.ended r) s') :
    (∃ answers : List (Answer deps), answers.map Answer.toolCall = calls ∧
        r = .ok (progress.answered answers) ∧ log = answers.flatMap Answer.log) ∨
      (∃ x, r = .error x) ∧
        ((∃ c ∈ calls, ¬Resolvable deps.py c) ∨ ∃ e ∈ log, ¬Normal e) := by
  induction calls generalizing progress log s with
  | nil =>
      obtain ⟨rfl, rfl, -⟩ := Prog.Runs.ret run
      exact .inl ⟨[], rfl, by rw [Progress.answered_nil], rfl⟩
  | cons toolCall rest ih =>
      rcases run.bind with ⟨x, rfl, looked⟩ | ⟨function, t, log₁, log₂, looked, body, rfl⟩
      · obtain ⟨raised, -⟩ := Prog.Runs.atOnce looked
        refine .inr ⟨⟨x, rfl⟩, .inl ⟨toolCall, List.mem_cons_self, fun ⟨function, dict, _⟩ => ?_⟩⟩
        cases raised.trans (fieldsOf_eq_ok.mpr dict)
      obtain ⟨found, rfl, rfl⟩ := Prog.Runs.atOnce looked
      rw [List.nil_append]
      rcases body.bind with ⟨x, rfl, tool⟩ | ⟨outcome, t, log₁, log₂, tool, more, rfl⟩
      · rcases callTool_ran found.symm tool with ⟨_, wrong, -⟩ | ⟨-, reason⟩
        · cases wrong
        · exact .inr ⟨⟨x, rfl⟩, reason.imp_left fun bad => ⟨toolCall, List.mem_cons_self, bad⟩⟩
      rcases callTool_ran found.symm tool with ⟨outcome', same, ran⟩ | ⟨⟨_, wrong⟩, -⟩
      · obtain rfl := Except.ok.inj same
        let a : Answer deps := ⟨toolCall, function, outcome, log₁, found.symm, ran⟩
        rcases ih more with ⟨answers, calls, rfl, rfl⟩ | ⟨raised, reason⟩
        · refine .inl ⟨a :: answers, congrArg (toolCall :: ·) calls, ?_, rfl⟩
          rw [Progress.answered_cons]
          rfl
        · refine .inr ⟨raised, reason.imp (fun ⟨c, mem, bad⟩ => ⟨c, List.mem_cons_of_mem _ mem, bad⟩)
            fun ⟨e, mem, abnormal⟩ => ⟨e, List.mem_append_right _ mem, abnormal⟩⟩
      · cases wrong

/-- A complete run is made of blocks, or a call the tools do not take stops it, or the
surroundings do. -/
theorem rounds_ran {n : Nat} {progress : Progress} {r : Except Exn Progress}
    (run : Prog.Runs H (rounds deps n progress) s log (Prog.ended r) s') :
    (∃ blocks, Resolves deps n progress blocks log r) ∨ (∃ x, r = .error x) ∧
      ((∃ c ∈ log.flatMap decidedCalls, ¬Resolvable deps.py c) ∨ ∃ e ∈ log, ¬Normal e) := by
  induction n generalizing progress log s with
  | zero =>
      obtain ⟨rfl, rfl, -⟩ := Prog.Runs.ret run
      exact .inl ⟨[], .cap⟩
  | succ n ih =>
      rcases run.bind with ⟨x, rfl, asked⟩ | ⟨decision, t, log₁, log₂, asked, body, rfl⟩
      · obtain ⟨rfl, -⟩ := Prog.Runs.perform asked
        exact .inl ⟨[], .unreachable⟩
      obtain ⟨rfl, -⟩ := Prog.Runs.perform asked
      split at body
      · rename_i none
        obtain ⟨rfl, rfl, -⟩ := Prog.Runs.ret body
        exact .inl ⟨[], .noCalls none⟩
      rename_i some
      have decided : ∀ c ∈ OllamaMessage.calls decision, ∀ more : Log,
          c ∈ ([⟨.chatOnce progress.history, .ok decision⟩] ++ more : Log).flatMap decidedCalls :=
        fun c mem more => List.mem_append_left _ mem
      rcases body.bind with ⟨x, rfl, tools⟩ | ⟨progress', t, log₁, log₂, tools, more, rfl⟩
      · rcases runCalls_ran tools with ⟨_, -, wrong, -⟩ | ⟨-, reason⟩
        · cases wrong
        · exact .inr ⟨⟨x, rfl⟩, reason.imp (fun ⟨c, mem, bad⟩ => ⟨c, decided c mem _, bad⟩)
            fun ⟨e, mem, abnormal⟩ => ⟨e, List.mem_append_right _ mem, abnormal⟩⟩
      rcases runCalls_ran tools with ⟨answers, calls, same, rfl⟩ | ⟨⟨_, wrong⟩, -⟩
      · obtain rfl := Except.ok.inj same
        let b : Block deps :=
          ⟨decision, answers, calls, fun none => some (by rw [← calls, none]; rfl)⟩
        have after : Progress.answered { progress with
            history := progress.history ++ [decisionMessage decision], launched := false } answers =
            progress.after b := by
          simp [Progress.answered, Progress.after, Block.messages, Block.parts, Block.names,
            Block.launches, b]
        rw [after] at more
        rw [← List.append_assoc]
        split at more
        · rename_i launches
          obtain ⟨rfl, rfl, -⟩ := Prog.Runs.ret more
          rw [List.append_nil]
          exact .inl ⟨[b], .launch b launches⟩
        · rename_i quiet
          rcases ih more with ⟨blocks, rest⟩ | ⟨raised, reason⟩
          · exact .inl ⟨b :: blocks, .next b (Bool.eq_false_of_not_eq_true quiet) rest⟩
          · refine .inr ⟨raised, reason.imp (fun ⟨c, mem, bad⟩ => ⟨c, ?_, bad⟩)
              fun ⟨e, mem, abnormal⟩ => ⟨e, List.mem_append_right _ mem, abnormal⟩⟩
            rw [List.flatMap_append]
            exact List.mem_append_right _ mem
      · cases wrong

end Runs

/-! ## What a run leaves behind -/

theorem Block.accounted (b : Block deps) : Accounted b.parts (b.answers.flatMap Answer.log) := by
  rw [Block.parts]
  induction b.answers with
  | nil => exact ⟨rfl, rfl, rfl, rfl⟩
  | cons a answers ih => exact a.ran.accounted.append ih

namespace Resolves

variable {n : Nat} {progress : Progress} {blocks : List (Block deps)} {log : Log}
  {r : Except Exn Progress}

theorem length_le (turn : Resolves deps n progress blocks log r) : blocks.length ≤ n := by
  induction turn with
  | cap | noCalls | unreachable => exact Nat.zero_le _
  | launch => exact Nat.succ_le_succ (Nat.zero_le _)
  | next b quiet rest ih => exact Nat.succ_le_succ ih

theorem asked (turn : Resolves deps n progress blocks log r) : log.countP isDecision ≤ n := by
  have one : ∀ (b : Block deps) history, (b.log history).countP isDecision = 1 := by
    intro b history
    rw [Block.log, List.countP_cons, b.accounted.asked]
    rfl
  induction turn with
  | cap => exact Nat.le_refl 0
  | noCalls | unreachable => exact Nat.succ_le_succ (Nat.zero_le _)
  | launch b launches =>
      rw [one]
      exact Nat.succ_le_succ (Nat.zero_le _)
  | next b quiet rest ih =>
      rw [List.countP_append, one]
      omega

/-- The blocks hold all the calls that were decided on. -/
theorem decided (turn : Resolves deps n progress blocks log r) :
    log.flatMap decidedCalls = blocks.flatMap fun b => b.decision.calls := by
  have own : ∀ (b : Block deps) history,
      (b.log history).flatMap decidedCalls = b.decision.calls := by
    intro b history
    rw [Block.log, List.flatMap_cons, b.accounted.decided, List.append_nil]
    rfl
  induction turn with
  | cap | unreachable => rfl
  | noCalls none => exact (List.append_nil _).trans none
  | launch b launches => exact (own b _).trans (List.append_nil _).symm
  | next b quiet rest ih => rw [List.flatMap_append, List.flatMap_cons, own, ih]

/-- Only the last block launches. -/
theorem quiet (turn : Resolves deps n progress blocks log r) :
    ∀ b ∈ blocks.dropLast, b.launches = false := by
  induction turn with
  | cap | noCalls | unreachable | launch => exact nofun
  | @next n progress blocks log r b quiet rest ih =>
      cases blocks with
      | nil => exact nofun
      | cons b' blocks =>
          rw [List.dropLast_cons_cons]
          exact List.forall_mem_cons.mpr ⟨quiet, ih⟩

/-- Only a request to the model that fails stops the rounds. -/
theorem ends (turn : Resolves deps n progress blocks log r) : (∃ last, r = .ok last) ∨
    ∃ x before history, r = .error x ∧ log = before ++ [⟨.chatOnce history, .error x⟩] := by
  induction turn with
  | cap | noCalls | launch => exact .inl ⟨_, rfl⟩
  | unreachable => exact .inr ⟨_, [], _, rfl, rfl⟩
  | next b quiet rest ih =>
      rcases ih with returned | ⟨x, before, history, rfl, rfl⟩
      · exact .inl returned
      · exact .inr ⟨x, _ ++ before, history, rfl, (List.append_assoc _ _ _).symm⟩

/-- What is returned is the blocks' messages, parts and names, and the runs that were created
and enqueued are those of the parts. -/
theorem returned {last : Progress} (turn : Resolves deps n progress blocks log r)
    (ok : r = .ok last) :
    last.history = progress.history ++ blocks.flatMap Block.messages ∧
      last.parts = progress.parts ++ blocks.flatMap Block.parts ∧
      last.called = progress.called ++ blocks.flatMap Block.names ∧
      log.filterMap createdRun = (blocks.flatMap Block.parts).filterMap launchedRun ∧
      log.filterMap enqueuedRun = (blocks.flatMap Block.parts).filterMap launchedRun := by
  have created : ∀ (b : Block deps) history,
      (b.log history).filterMap createdRun = b.parts.filterMap launchedRun :=
    fun b history => b.accounted.created
  have enqueued : ∀ (b : Block deps) history,
      (b.log history).filterMap enqueuedRun = b.parts.filterMap launchedRun :=
    fun b history => b.accounted.enqueued
  induction turn with
  | cap | noCalls =>
      obtain rfl := Except.ok.inj ok
      refine ⟨?_, ?_, ?_, rfl, rfl⟩ <;> exact (List.append_nil _).symm
  | unreachable => cases ok
  | launch b launches =>
      obtain rfl := Except.ok.inj ok
      simp only [List.flatMap_cons, List.flatMap_nil, List.append_nil]
      exact ⟨rfl, rfl, rfl, created b _, enqueued b _⟩
  | next b quiet rest ih =>
      obtain ⟨history, parts, called, made, sent⟩ := ih ok
      simp only [List.flatMap_cons, List.filterMap_append, created, enqueued, made, sent, history,
        parts, called, Progress.after, List.append_assoc, and_self]

end Resolves

/-! ## A launch -/

def launchCall : ToolCall :=
  [("function", .obj [("name", .str "launch_research_agent"),
    ("arguments", .obj [("topic", .str "transistors")])])]

def exampleRow : Agent.RunRow :=
  { id := 7, userId := 1, topic := "transistors", createdAt := 0, updatedAt := 0 }

end Intellivault.Chat
