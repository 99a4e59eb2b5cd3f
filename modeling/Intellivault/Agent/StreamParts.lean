import Intellivault.Agent.StatusStream

/-!
# The status stream, broken off anywhere

What a stream has sent that is not over yet: the first of the changes of what it has polled.
-/

namespace Intellivault.Agent

open Lib Prog StreamLog Intellivault.Agent.Service
open Intellivault.Stream (Frame SseEvent)

variable {isoformat : Time → String} {userId runId : UUID} {log log' : StreamLog} {polls : Nat}

/-- Whatever was polled was found before. -/
def Backed (log : StreamLog) : Prop := polled log <+: (fetched log).map RunRow.toAgentRun

theorem Backed.of_unpolled (unpolled : polled log = []) : Backed log := by
  rw [Backed, unpolled]
  exact List.nil_prefix

/-- More is polled once everything found has been polled. -/
theorem Backed.after (all : (fetched log).map RunRow.toAgentRun = polled log) (backed : Backed log') :
    Backed (log ++ log') := by
  rw [Backed, polled_append, fetched_append, List.map_append, all]
  exact (List.prefix_append_right_inj _).mpr backed

/-- Calls in between. -/
theorem Backed.idle (unpolled : polled log = []) (unfetched : fetched log = [])
    (backed : Backed log') : Backed (log ++ log') := by
  refine Backed.after ?_ backed
  rw [unpolled, unfetched]
  rfl

theorem streamLoop_backed {lastUpdatedAt : Option Time} {lastHeartbeat : Rat} :
    (streamLoop isoformat userId runId polls lastUpdatedAt lastHeartbeat).Logs (fun _ => True)
      fun log _ => Backed log := by
  induction polls generalizing lastUpdatedAt lastHeartbeat with
  | zero => exact .of_unpolled rfl
  | succ polls ih =>
      rw [streamLoop]
      refine logs_bind.mpr (poll_logs.mono fun log₁ r logged => ?_)
      obtain ⟨-, returned⟩ := logged
      cases r with
      | error x => exact .of_unpolled returned.1
      | ok run =>
          have all : (fetched log₁).map RunRow.toAgentRun = polled log₁ :=
            returned.2.trans returned.1.symm
          refine logs_bind.mpr (sendChange_logs.mono fun log₂ r logged => ?_)
          obtain ⟨unpolled, unfetched, -, -⟩ := logged
          cases r with
          | error x => exact .after all (.of_unpolled unpolled)
          | ok vars =>
              show Prog.Logs _ (if run.status ∈ streamTerminalStatuses then _ else _) _
              split
              · exact .after all (.idle unpolled unfetched (.of_unpolled rfl))
              · refine logs_bind.mpr (sendKeepAlive_logs.mono fun log₃ r logged => ?_)
                obtain ⟨idle, -⟩ := logged
                cases r with
                | error x => exact .after all (.idle unpolled unfetched (.of_unpolled idle.polled))
                | ok lastHeartbeat =>
                    refine fun slept _ => ?_
                    have asleep : ∀ log : StreamLog, Backed log →
                        Backed ([⟨.sleep pollIntervalSeconds, slept⟩] ++ log) :=
                      fun _ backed => .idle rfl rfl backed
                    have waited : ∀ log : StreamLog, Backed log →
                        Backed (log₁ ++ (log₂ ++ (log₃ ++ ([⟨.sleep _, slept⟩] ++ log)))) :=
                      fun log backed => .after all (.idle unpolled unfetched
                        (.idle idle.polled idle.fetched (asleep log backed)))
                    cases slept with
                    | error x => exact waited [] (.of_unpolled rfl)
                    | ok _ => exact ih.mono fun log₄ r backed => waited log₄ backed

theorem streamRun_backed :
    (streamRun isoformat userId runId polls).Logs (fun _ => True) fun log _ => Backed log := by
  refine fun now _ => ?_
  have asked : ∀ log : StreamLog, Backed log → Backed ([⟨.time, now⟩] ++ log) :=
    fun _ backed => .idle rfl rfl backed
  cases now with
  | error x => exact asked [] (.of_unpolled rfl)
  | ok now => exact streamLoop_backed.mono fun log r backed => asked log backed

/-- What has been sent so far. -/
structure Sending (isoformat : Time → String) (log : StreamLog) : Prop where
  backed : Backed log
  sent : statuses log <+:
    (changes AgentRun.updatedAt none (polled log)).map (statusEvent isoformat)
  beats : ∀ frame ∈ frames log, frame.pair = none → frame = keepAliveFrame

/-- Calls that fail find nothing and return no run. -/
theorem nothing_polled {x : Exn} (failed : ∀ e ∈ log, e.2 = .error x) :
    polled log = [] ∧ fetched log = [] := by
  constructor
  · refine List.filterMap_eq_nil_iff.mpr fun e mem => ?_
    obtain ⟨c, r⟩ := e
    obtain rfl : r = .error x := failed _ mem
    cases c with
    | agent c => cases c <;> rfl
    | time | yield _ | sleep _ => rfl
  · refine List.filterMap_eq_nil_iff.mpr fun e mem => ?_
    obtain ⟨c, r⟩ := e
    obtain rfl : r = .error x := failed _ mem
    cases c with
    | agent c =>
        cases c with
        | sql q => cases q <;> rfl
        | _ => rfl
    | time | yield _ | sleep _ => rfl

/-- Wherever a stream is broken off, it has sent the first of the changes. -/
theorem streamRun_sending {S : Type} {H : Handler StreamCall StreamCall.Answer Exn S} {s s' : S}
    {left : Generator Bool} (ran : Runs H (streamRun isoformat userId runId polls) s log left s') :
    Sending isoformat log := by
  -- the rest of the stream may fail at once: what it logs then holds no poll
  obtain ⟨rest, r, backed, failed⟩ := (ran.logs_left streamRun_backed).failing Exn.cancelled
  obtain ⟨rest', r', streamed, failed'⟩ := (ran.logs_left streamRun_logs).failing Exn.cancelled
  refine ⟨?_, ?_, ?_⟩
  · obtain ⟨unpolled, unfetched⟩ := nothing_polled failed
    rwa [Backed, polled_append, fetched_append, unpolled, unfetched, List.append_nil,
      List.append_nil] at backed
  · have sent := streamed.sent
    rw [polled_append, (nothing_polled failed').1, List.append_nil, statuses_append] at sent
    exact ⟨_, sent⟩
  · have beats := streamed.beats
    rw [frames_append] at beats
    exact (List.forall_mem_append.mp beats).1

end Intellivault.Agent
