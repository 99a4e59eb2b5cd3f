import Intellivault.Frontend.RunPage

/-!
# What the page of a run shows

Rows, polls, frames, chunks and clicks interleave in any way.  `Sees` is what a subscription has
seen of the row, `UpToDate` what the page shows of its newest subscription; every step keeps both.
-/

namespace Intellivault.Frontend

open Lib Prog Intellivault.Agent StreamLog
open Intellivault.Stream (Frame SseEvent parseSse parseSse_format parseSse_first
  readChunks_first)

/-! ## Versions of the row -/

/-- The rows were seen one after the other, none of them before `first`. -/
def Versions (rows : List RunRow) (first : Nat) (seen : List RunRow) : Prop :=
  ∃ places : List (Nat × RunRow), places.Pairwise (fun p q => p.1 ≤ q.1) ∧
    (∀ p ∈ places, first ≤ p.1 ∧ rows[p.1]? = some p.2) ∧ seen = places.map Prod.snd

section Versions

variable {rows seen seen' : List RunRow} {first : Nat} {row : RunRow}

theorem Versions.nil : Versions rows first [] := ⟨[], .nil, List.forall_mem_nil _, rfl⟩

theorem Versions.later (versions : Versions rows first seen) (more : List RunRow) :
    Versions (rows ++ more) first seen := by
  obtain ⟨places, sorted, inside, rfl⟩ := versions
  refine ⟨places, sorted, fun p mem => ⟨(inside p mem).1, ?_⟩, rfl⟩
  have here := (inside p mem).2
  rw [List.getElem?_append_left (List.getElem?_eq_some_iff.mp here).1, here]

/-- One more look at the row. -/
theorem Versions.look (versions : Versions rows first seen) (opened : first < rows.length)
    (now : rows.getLast? = some row) : Versions rows first (seen ++ [row]) := by
  obtain ⟨places, sorted, inside, rfl⟩ := versions
  rw [List.getLast?_eq_getElem?] at now
  refine ⟨places ++ [(rows.length - 1, row)], ?_, ?_, by rw [List.map_append, List.map_singleton]⟩
  · refine List.pairwise_append.mpr ⟨sorted, List.pairwise_singleton _ _, fun p mem q last => ?_⟩
    rw [List.mem_singleton.mp last]
    have before := (List.getElem?_eq_some_iff.mp (inside p mem).2).1
    show p.1 ≤ rows.length - 1
    omega
  · refine List.forall_mem_append.mpr ⟨inside, List.forall_mem_singleton.mpr ⟨?_, now⟩⟩
    show first ≤ rows.length - 1
    omega

theorem Versions.sublist (versions : Versions rows first seen) (fewer : seen'.Sublist seen) :
    Versions rows first seen' := by
  obtain ⟨places, sorted, inside, rfl⟩ := versions
  obtain ⟨places', few, rfl⟩ := List.sublist_map_iff.mp fewer
  exact ⟨places', sorted.sublist few, fun p mem => inside p (few.subset mem), rfl⟩

theorem Versions.mem (versions : Versions rows first seen) (mem : row ∈ seen) :
    ∃ i, first ≤ i ∧ rows[i]? = some row := by
  obtain ⟨places, -, inside, rfl⟩ := versions
  obtain ⟨p, here, rfl⟩ := List.mem_map.mp mem
  exact ⟨p.1, inside p here⟩

end Versions

/-! ## One subscription -/

section Subscription

variable {userId runId : UUID} {isoformat : Time → String} {parse : String → Option Json}
  {rows : List RunRow} {row : RunRow} {sub sub' : Subscription} {signal : Signal}

def dump (isoformat : Time → String) (row : RunRow) : Json := row.toAgentRun.modelDump isoformat

/-- `json.dumps` writes the run, and `JSON.parse` reads it. -/
structure Readable (isoformat : Time → String) (parse : String → Option Json) (row : RunRow) :
    Prop where
  wf : (dump isoformat row).WellFormed
  inverts : parse (Json.dumps (dump isoformat row)) = some (dump isoformat row)

/-- What the subscription has seen of the row, and how much of it has arrived. -/
structure Sees (userId runId : UUID) (isoformat : Time → String) (parse : String → Option Json)
    (rows : List RunRow) (sub : Subscription) : Prop where
  ran : ∃ polls, Runs (fun _ _ (_ : Except Exn _) _ => True)
    (Service.streamRun isoformat userId runId polls) () sub.log sub.left ()
  opened : sub.opened < rows.length
  found : Versions rows sub.opened (fetched sub.log)
  arrived : sub.chunks.flatten <+: sub.body
  taken : sub.taken ≤ (sub.events parse).length

theorem changes_sublist {α κ : Type} [DecidableEq κ] {key : α → κ} {last : Option κ} {l : List α} :
    (changes key last l).Sublist l := by
  induction l generalizing last with
  | nil => exact .slnil
  | cons a l ih =>
      rw [changes]
      split
      · exact ih.cons a
      · exact ih.cons_cons a

namespace Sees

/-- What was sent are versions of the row, in order. -/
theorem statuses (sees : Sees userId runId isoformat parse rows sub) :
    ∃ seen, Versions rows sub.opened seen ∧
      statuses sub.log = seen.map fun row => statusEvent isoformat row.toAgentRun := by
  obtain ⟨polls, ran⟩ := sees.ran
  have sending := streamRun_sending ran
  have sublist := (sending.sent.sublist.trans (changes_sublist.map _)).trans
    (sending.backed.sublist.map _)
  rw [List.map_map] at sublist
  obtain ⟨seen, fewer, same⟩ := List.sublist_map_iff.mp sublist
  exact ⟨seen, sees.found.sublist fewer, same⟩

/-- The reader can read what was sent. -/
theorem admissible (sees : Sees userId runId isoformat parse rows sub)
    (readable : ∀ row ∈ rows, Readable isoformat parse row) :
    (∀ f ∈ frames sub.log, f.Admissible) ∧ ∀ name data, .event name data ∈ frames sub.log →
      parse (Json.dumps data) = some data := by
  obtain ⟨polls, ran⟩ := sees.ran
  have sending := streamRun_sending ran
  obtain ⟨seen, versions, same⟩ := sees.statuses
  have event : ∀ name data, Frame.event name data ∈ frames sub.log →
      ∃ row ∈ rows, name = "status" ∧ data = dump isoformat row := by
    intro name data mem
    have sent : (⟨name, data⟩ : SseEvent) ∈ StreamLog.statuses sub.log :=
      List.mem_filterMap.mpr ⟨_, mem, rfl⟩
    rw [same] at sent
    obtain ⟨row, inside, eq⟩ := List.mem_map.mp sent
    obtain ⟨i, -, here⟩ := versions.mem inside
    cases eq
    exact ⟨row, List.mem_of_getElem? here, rfl, rfl⟩
  constructor
  · intro f mem
    cases f with
    | event name data =>
        obtain ⟨row, inside, rfl, rfl⟩ := event name data mem
        exact ⟨by decide, by decide, (readable row inside).wf⟩
    | comment text =>
        rw [sending.beats _ mem rfl]
        exact (by decide : '\n' ∉ "keep-alive".toList)
  · intro name data mem
    obtain ⟨row, inside, rfl, rfl⟩ := event name data mem
    exact (readable row inside).inverts

/-- What the loop may take. -/
theorem events (sees : Sees userId runId isoformat parse rows sub)
    (readable : ∀ row ∈ rows, Readable isoformat parse row) :
    ∃ seen, Versions rows sub.opened seen ∧
      sub.events parse = seen.map fun row => statusEvent isoformat row.toAgentRun := by
  obtain ⟨admissible, inverts⟩ := sees.admissible readable
  obtain ⟨seen, versions, same⟩ := sees.statuses
  have part := parseSse_first _ admissible inverts sub.chunks sees.arrived
  rw [show (frames sub.log).filterMap Frame.pair = StreamLog.statuses sub.log from rfl, same] at part
  obtain ⟨seen', fewer, same'⟩ := List.sublist_map_iff.mp part.sublist
  exact ⟨seen', versions.sublist fewer, same'⟩

theorem event (sees : Sees userId runId isoformat parse rows sub)
    (readable : ∀ row ∈ rows, Readable isoformat parse row) {event : SseEvent}
    (mem : event ∈ sub.events parse) :
    ∃ row ∈ rows, event = statusEvent isoformat row.toAgentRun := by
  obtain ⟨seen, versions, same⟩ := sees.events readable
  rw [same] at mem
  obtain ⟨row, inside, rfl⟩ := List.mem_map.mp mem
  obtain ⟨i, -, here⟩ := versions.mem inside
  exact ⟨row, List.mem_of_getElem? here, rfl⟩

theorem later (sees : Sees userId runId isoformat parse rows sub) (more : List RunRow) :
    Sees userId runId isoformat parse (rows ++ more) sub where
  ran := sees.ran
  opened := by
    rw [List.length_append]
    exact Nat.lt_add_right _ sees.opened
  found := sees.found.later more
  arrived := sees.arrived
  taken := sees.taken

/-- **One step of a subscription.** -/
theorem step (sees : Sees userId runId isoformat parse rows sub) (now : rows.getLast? = some row)
    (step : sub.Step parse row signal sub') : Sees userId runId isoformat parse rows sub' := by
  cases step with
  | @serve c k r left found =>
      obtain ⟨polls, ran⟩ := sees.ran
      refine ⟨⟨polls, ?_⟩, sees.opened, ?_, ?_, sees.taken⟩
      · rw [left] at ran
        exact ran.snoc trivial
      · show Versions rows sub.opened (fetched (sub.log ++ [⟨c, r⟩]))
        rw [fetched_append]
        cases hit : fetchedRow ⟨c, r⟩ with
        | none =>
            rw [fetched, fetched, List.filterMap_cons_none hit, List.filterMap_nil, List.append_nil]
            exact sees.found
        | some other =>
            obtain rfl := found other hit
            rw [fetched, fetched, List.filterMap_cons_some hit, List.filterMap_nil]
            exact sees.found.look sees.opened now
      · refine sees.arrived.trans ?_
        rw [Subscription.body, Subscription.body, frames_append, List.flatMap_append]
        exact List.prefix_append _ _
  | deliver value going part =>
      refine ⟨sees.ran, sees.opened, sees.found, part, sees.taken.trans ?_⟩
      exact (readChunks_first sub.chunks [value] {} []).length_le
  | @take event going here =>
      refine ⟨sees.ran, sees.opened, sees.found, sees.arrived, ?_⟩
      exact (List.getElem?_eq_some_iff.mp here).1
  | lose going => exact ⟨sees.ran, sees.opened, sees.found, sees.arrived, sees.taken⟩
  | finish going complete => exact ⟨sees.ran, sees.opened, sees.found, sees.arrived, sees.taken⟩
  | refuse going unopened => exact ⟨sees.ran, sees.opened, sees.found, sees.arrived, sees.taken⟩

/-- A stream that has been read to its end has shown a terminal version last. -/
theorem finished (sees : Sees userId runId isoformat parse rows sub)
    (readable : ∀ row ∈ rows, Readable isoformat parse row)
    (versioned : ∀ a ∈ rows, ∀ b ∈ rows, a.updatedAt = b.updatedAt → a.toAgentRun = b.toAgentRun)
    (complete : sub.Complete parse) :
    ∃ i row, sub.opened ≤ i ∧ rows[i]? = some row ∧ row.toAgentRun.Terminal ∧
      (sub.events parse).getLast? = some (statusEvent isoformat row.toAgentRun) := by
  obtain ⟨admissible, inverts⟩ := sees.admissible readable
  have read : sub.events parse = StreamLog.statuses sub.log :=
    parseSse_format _ admissible inverts sub.chunks complete.arrived
  obtain ⟨polls, ran⟩ := sees.ran
  have backed := (streamRun_sending ran).backed
  rw [complete.returned] at ran
  have streamed := streamRun_streamed ran
  have version : ∀ run ∈ polled sub.log, ∃ row ∈ fetched sub.log, row.toAgentRun = run :=
    fun run mem => List.mem_map.mp (backed.subset mem)
  have known : ∀ b ∈ polled sub.log, ∀ c ∈ polled sub.log, b.updatedAt = c.updatedAt → b = c := by
    intro b memB c memC same
    obtain ⟨rowB, foundB, rfl⟩ := version b memB
    obtain ⟨rowC, foundC, rfl⟩ := version c memC
    obtain ⟨i, -, hereB⟩ := sees.found.mem foundB
    obtain ⟨j, -, hereC⟩ := sees.found.mem foundC
    exact versioned rowB (List.mem_of_getElem? hereB) rowC (List.mem_of_getElem? hereC) same
  obtain ⟨run, last, terminal⟩ := streamed.returned rfl
  obtain ⟨row, found, rfl⟩ := version run (List.mem_of_getLast? last)
  obtain ⟨i, later, here⟩ := sees.found.mem found
  refine ⟨i, row, later, here, terminal, ?_⟩
  rw [read, streamed.lastSent known, last]
  rfl

end Sees

/-! ## The page and its newest subscription -/

/-- The page shows what its loop has taken last, and a loop ends for a reason. -/
structure UpToDate (parse : String → Option Json) (page : RunPage) (sub : Subscription) : Prop where
  last : sub.taken = 0 ∨ ∃ event, (sub.events parse)[sub.taken - 1]? = some event ∧
    page.run = event.data
  stopped : sub.stopped = true → page.streamNotice = true ∨ sub.refused = true ∨ sub.Complete parse

theorem UpToDate.step {page : RunPage} (shows : UpToDate parse page sub)
    (status : ∀ event ∈ sub.events parse, event.event = "status")
    (step : sub.Step parse row signal sub') : UpToDate parse (page.signal signal) sub' := by
  cases step with
  | serve left found =>
      refine ⟨shows.last, fun stopped => (shows.stopped stopped).imp_right fun why => ?_⟩
      refine why.imp_right fun complete => ?_
      have returned := complete.returned
      rw [left] at returned
      cases returned
  | deliver value going part =>
      refine ⟨shows.last.imp_right fun taken => ?_, fun stopped => ?_⟩
      · obtain ⟨event, here, run⟩ := taken
        obtain ⟨more, same⟩ : sub.events parse <+:
            Subscription.events parse { sub with chunks := sub.chunks ++ [value] } :=
          readChunks_first sub.chunks [value] {} []
        obtain ⟨inside, -⟩ := List.getElem?_eq_some_iff.mp here
        refine ⟨event, ?_, run⟩
        rw [← same, List.getElem?_append_left inside]
        exact here
      · rw [going] at stopped
        cases stopped
  | @take event going here =>
      have isStatus := status event (List.mem_of_getElem? here)
      refine ⟨.inr ⟨event, here, ?_⟩, fun stopped => ?_⟩
      · rw [RunPage.signal, if_pos isStatus]
      · rw [going] at stopped
        cases stopped
  | lose going => exact ⟨shows.last, fun _ => .inl rfl⟩
  | finish going complete =>
      exact ⟨shows.last, fun _ => .inr (.inr ⟨complete.returned, complete.arrived, complete.taken⟩)⟩
  | refuse going unopened => exact ⟨shows.last, fun _ => .inr (.inl rfl)⟩

end Subscription

/-! ## The whole -/

/-- Nothing happens to the run any more. -/
def Final (status : AgentRunStatus) : Prop :=
  status = .succeeded ∨ status = .failed ∨ status = .cancelled

theorem Final.stays {status : AgentRunStatus} {after : Option AgentRunStatus} (final : Final status)
    (step : StatusStep (some status) after) : after = some status := by
  cases step with
  | stay => rfl
  | _ => rcases final with same | same | same <;> cases same

/-- The row is not deleted. -/
theorem row_stays {status : AgentRunStatus} (step : StatusStep (some status) none) : False := by
  cases step

namespace Following

section

variable {deps : Deps} {jsonb : Attributes → Attributes} {userId runId : UUID}
  {isoformat : Time → String} {parse : String → Option Json} {s s' : Following}

structure Inv (deps : Deps) (userId runId : UUID) (isoformat : Time → String)
    (parse : String → Option Json) (s : Following) : Prop where
  machine : RowMachine deps runId s.pool
  now : ∃ row, s.pool.world.row = some row ∧ s.rows.getLast? = some row
  final : ∀ row ∈ s.rows, Final row.status → s.pool.status = some row.status
  fits : ∀ row ∈ s.rows, RowFits row
  run : ∃ row ∈ s.rows, s.page.run = dump isoformat row
  answers : ∀ data ∈ s.answers, ∃ row ∈ s.rows, data = row.toAgentRun
  sees : ∀ sub ∈ s.subscriptions, Sees userId runId isoformat parse s.rows sub
  behind : ∀ n, s.rendered = some n → n ≤ s.page.subscription
  current : s.rendered = some s.page.subscription →
    ∃ older sub, s.subscriptions = older ++ [sub] ∧ UpToDate parse s.page sub

theorem Inv.last (inv : Inv deps userId runId isoformat parse s) {row : RunRow}
    (found : s.pool.world.row = some row) : s.rows.getLast? = some row := by
  obtain ⟨row', found', last⟩ := inv.now
  rw [found] at found'
  obtain rfl := Option.some.inj found'
  exact last

/-- The page shows what its newest subscription has taken, if the effect has run for it. -/
theorem Inv.newest (inv : Inv deps userId runId isoformat parse s)
    (now : s.rendered = some s.page.subscription) {older : List Subscription} {sub : Subscription}
    (here : s.subscriptions = older ++ [sub]) : UpToDate parse s.page sub := by
  obtain ⟨before, newest, same, shows⟩ := inv.current now
  rw [here] at same
  obtain ⟨-, same⟩ := List.append_inj' same rfl
  obtain rfl := List.singleton_inj.mp same
  exact shows

theorem Inv.work (inv : Inv deps userId runId isoformat parse s)
    {l : Action Task Agent.Call Agent.Call.Answer Exn} {pool : RunPool}
    (step : RunStep deps jsonb runId s.pool l pool) (apart : ReviewsApart ⟨s.pool, l, pool⟩) :
    Inv deps userId runId isoformat parse
      { s with pool := pool, rows := s.rows ++ pool.world.row.toList } := by
  have machine := inv.machine.next step apart
  have moved := inv.machine.status_step step
  obtain ⟨old, before, -⟩ := inv.now
  obtain ⟨row, after⟩ : ∃ row, pool.world.row = some row := by
    cases after : pool.world.row with
    | some row => exact ⟨row, rfl⟩
    | none =>
        rw [RunPool.status, RunPool.status, before, after] at moved
        exact (row_stays moved).elim
  have status : pool.status = some row.status := by rw [RunPool.status, after]; rfl
  rw [after, Option.toList_some]
  refine ⟨machine, ⟨row, after, List.getLast?_concat⟩, ?_, ?_, ?_, ?_, ?_, inv.behind, inv.current⟩
  · refine List.forall_mem_append.mpr ⟨fun old mem final => ?_, List.forall_mem_singleton.mpr ?_⟩
    · have moved := moved
      rw [inv.final old mem final] at moved
      exact final.stays moved
    · exact fun _ => status
  · exact List.forall_mem_append.mpr
      ⟨inv.fits, List.forall_mem_singleton.mpr (machine.row row after).fields⟩
  · obtain ⟨shown, mem, run⟩ := inv.run
    exact ⟨shown, List.mem_append_left _ mem, run⟩
  · intro data mem
    obtain ⟨row, inside, same⟩ := inv.answers data mem
    exact ⟨row, List.mem_append_left _ inside, same⟩
  · exact fun sub mem => (inv.sees sub mem).later _

theorem Inv.effect (inv : Inv deps userId runId isoformat parse s) (polls : Nat) :
    Inv deps userId runId isoformat parse { s with
      rendered := some s.page.subscription
      subscriptions := s.subscriptions ++
        [{ opened := s.rows.length - 1
           left := Service.streamRun isoformat userId runId polls }] } := by
  refine ⟨inv.machine, inv.now, inv.final, inv.fits, inv.run, inv.answers, ?_, ?_, fun _ => ?_⟩
  · refine List.forall_mem_append.mpr ⟨inv.sees, List.forall_mem_singleton.mpr ?_⟩
    obtain ⟨row, -, last⟩ := inv.now
    have some := List.length_pos_of_mem (List.mem_of_getLast? last)
    refine ⟨⟨polls, .refl⟩, ?_, .nil, List.nil_prefix, Nat.zero_le _⟩
    show s.rows.length - 1 < s.rows.length
    omega
  · intro n same
    obtain rfl := Option.some.inj same
    exact Nat.le_refl _
  · exact ⟨s.subscriptions, _, rfl, .inl rfl, nofun⟩

theorem Inv.loop (inv : Inv deps userId runId isoformat parse s)
    (readable : ∀ row ∈ s.rows, Readable isoformat parse row)
    {older newer : List Subscription} {sub sub' : Subscription} {signal : Signal} {row : RunRow}
    (here : s.subscriptions = older ++ sub :: newer) (found : s.pool.world.row = some row)
    (step : sub.Step parse row signal sub') :
    Inv deps userId runId isoformat parse { s with
      subscriptions := older ++ sub' :: newer
      page := if newer = [] then s.page.signal signal else s.page } := by
  have seen := inv.sees
  rw [here] at seen
  have sees := seen sub (List.mem_append_right _ List.mem_cons_self)
  have last := inv.last found
  have status : ∀ event ∈ sub.events parse, event.event = "status" := by
    intro event mem
    obtain ⟨row, -, rfl⟩ := sees.event readable mem
    rfl
  -- what the loop comes upon does not change the state `subscription`
  have kept : (if newer = [] then s.page.signal signal else s.page).subscription =
      s.page.subscription := by
    split
    · cases signal with
      | quiet | lost => rfl
      | event event => rw [RunPage.signal]; split <;> rfl
    · rfl
  refine ⟨inv.machine, ⟨row, found, last⟩, inv.final, inv.fits, ?_, inv.answers, ?_, ?_, ?_⟩
  · show ∃ row ∈ s.rows, (if newer = [] then s.page.signal signal else s.page).run = _
    split
    · cases step with
      | @take event going here =>
          obtain ⟨row, inside, rfl⟩ := sees.event readable (List.mem_of_getElem? here)
          exact ⟨row, inside, rfl⟩
      | _ => exact inv.run
    · exact inv.run
  · intro other mem
    rcases List.mem_append.mp mem with old | rest
    · exact seen other (List.mem_append_left _ old)
    · rcases List.mem_cons.mp rest with rfl | new
      · exact sees.step last step
      · exact seen other (List.mem_append_right _ (List.mem_cons_of_mem _ new))
  · exact fun n same => (inv.behind n same).trans_eq kept.symm
  · intro current
    have now : s.rendered = some s.page.subscription := current.trans (congrArg some kept)
    clear current kept
    rcases List.eq_nil_or_concat newer with rfl | ⟨rest, newest, rfl⟩
    · rw [if_pos rfl]
      exact ⟨older, sub', rfl, (inv.newest now here).step status step⟩
    · rw [if_neg (by simp)]
      rw [List.concat_eq_append, ← List.cons_append, ← List.append_assoc] at here
      refine ⟨older ++ sub' :: rest, newest, ?_, inv.newest now here⟩
      rw [List.concat_eq_append, List.append_assoc, List.cons_append]

theorem Inv.review (inv : Inv deps userId runId isoformat parse s) {row : RunRow}
    (found : s.pool.world.row = some row) :
    Inv deps userId runId isoformat parse { s with answers := s.answers ++ [row.toAgentRun] } := by
  refine ⟨inv.machine, inv.now, inv.final, inv.fits, inv.run, ?_, inv.sees, inv.behind,
    inv.current⟩
  exact List.forall_mem_append.mpr ⟨inv.answers,
    List.forall_mem_singleton.mpr ⟨row, List.mem_of_getLast? (inv.last found), rfl⟩⟩

theorem Inv.answered (inv : Inv deps userId runId isoformat parse s) {data : AgentRun}
    {before after : List AgentRun} (here : s.answers = before ++ data :: after) :
    Inv deps userId runId isoformat parse { s with
      page := s.page.onReviewed (data.modelDump isoformat), answers := before ++ after } := by
  have answers := inv.answers
  rw [here] at answers
  refine ⟨inv.machine, inv.now, inv.final, inv.fits, ?_, ?_, inv.sees,
    fun n same => (inv.behind n same).trans (Nat.le_succ _), fun current => ?_⟩
  · obtain ⟨row, inside, rfl⟩ := answers data (List.mem_append_right _ List.mem_cons_self)
    exact ⟨row, inside, rfl⟩
  · intro other mem
    refine answers other ?_
    rcases List.mem_append.mp mem with old | new
    · exact List.mem_append_left _ old
    · exact List.mem_append_right _ (List.mem_cons_of_mem _ new)
  -- the effect has not run for this subscription yet
  · exact (Nat.not_succ_le_self _ (inv.behind _ current)).elim

theorem Step.rows (step : Step deps jsonb userId runId isoformat parse s s') :
    ∃ more, s'.rows = s.rows ++ more := by
  cases step with
  | work moved apart => exact ⟨_, rfl⟩
  | _ => exact ⟨[], (List.append_nil _).symm⟩

theorem Inv.render {tr : List RunTransition} {pool : RunPool} {row : RunRow}
    (history : History (RunStep deps jsonb runId) RunPool.empty tr pool)
    (apart : ∀ x ∈ tr, ReviewsApart x) (found : pool.world.row = some row) :
    Inv deps userId runId isoformat parse
      { pool := pool, rows := [row], page := { run := row.toAgentRun.modelDump isoformat } } := by
  have machine := history.invariant apart RowMachine.empty
    fun _ _ _ inv cond step => inv.next step cond
  have fits := (machine.row row found).fields
  refine ⟨machine, ⟨row, found, rfl⟩, ?_, List.forall_mem_singleton.mpr fits,
    ⟨row, List.mem_cons_self, rfl⟩, nofun, nofun, nofun, nofun⟩
  refine List.forall_mem_singleton.mpr fun _ => ?_
  rw [RunPool.status, found, Option.map_some]

theorem Reached.inv (reached : Reached deps jsonb userId runId isoformat parse s)
    (readable : ∀ row ∈ s.rows, Readable isoformat parse row) :
    Inv deps userId runId isoformat parse s := by
  induction reached with
  | render history apart found => exact .render history apart found
  | step before step ih =>
      obtain ⟨more, rows⟩ := step.rows
      have readable' := fun row mem => readable row (rows ▸ List.mem_append_left more mem)
      have inv := ih readable'
      cases step with
      | work moved apart => exact inv.work moved apart
      | effect polls due => exact inv.effect polls
      | loop here found step => exact inv.loop readable' here found step
      | review found => exact inv.review found
      | answered here => exact inv.answered here

/-- The card is there for a run that waits for its review. -/
theorem reviewCard_shown {page : RunPage} {row : RunRow} (fits : RowFits row)
    (waits : row.status = .awaitingReview) (shown : page.run = dump isoformat row) :
    page.reviewCard = true := by
  obtain ⟨pending, found⟩ := Option.ne_none_iff_exists'.mp (fits.awaiting waits).1
  have status : page.field "status" = some (.str "awaiting_review") := by
    rw [RunPage.field, shown, show "awaiting_review" = row.status.text by rw [waits]; rfl]
    rfl
  have card : page.field "pending" = some pending.modelDump := by
    rw [RunPage.field, shown]
    show some (orNull StructuredResult.modelDump row.pending) = _
    rw [found]
    rfl
  rw [RunPage.reviewCard, status, card]
  rfl

/-- **The page of a run follows the run**, whatever the jobs, the stream and the network do, as
long as no two reviews overlap.  It shows a version of the row; its subscriptions take versions of
the row, in their order; and once the newest one has ended without a notice, the page shows a run
that is over and stays so, or one that waits for its review, with the card. -/
theorem run_page_follows (reached : Reached deps jsonb userId runId isoformat parse s)
    (readable : ∀ row ∈ s.rows, Readable isoformat parse row)
    (versioned : ∀ a ∈ s.rows, ∀ b ∈ s.rows, a.updatedAt = b.updatedAt →
      a.toAgentRun = b.toAgentRun) :
    (∃ row ∈ s.rows, s.page.run = dump isoformat row) ∧
      (∀ sub ∈ s.subscriptions, ∃ seen, Versions s.rows sub.opened seen ∧
        (sub.events parse).take sub.taken =
          seen.map fun row => statusEvent isoformat row.toAgentRun) ∧
      ∀ older sub, s.subscriptions = older ++ [sub] → sub.stopped = true → sub.refused = false →
        s.rendered = some s.page.subscription → s.page.streamNotice = false →
          ∃ i row, sub.opened ≤ i ∧ s.rows[i]? = some row ∧ s.page.run = dump isoformat row ∧
            (Final row.status ∧ s.pool.status = some row.status ∨
              row.status = .awaitingReview ∧ s.page.reviewCard = true) := by
  have inv := reached.inv readable
  refine ⟨inv.run, fun sub mem => ?_, fun older sub here stopped opened now quiet => ?_⟩
  · obtain ⟨seen, versions, same⟩ := (inv.sees sub mem).events readable
    refine ⟨seen.take sub.taken, versions.sublist (List.take_sublist _ _), ?_⟩
    rw [same, List.map_take]
  have shows := inv.newest now here
  have sees := inv.sees sub (here ▸ List.mem_append_right _ List.mem_cons_self)
  have complete : sub.Complete parse := by
    rcases shows.stopped stopped with notice | refused | complete
    · rw [quiet] at notice
      cases notice
    · rw [opened] at refused
      cases refused
    · exact complete
  obtain ⟨i, row, later, version, terminal, last⟩ := sees.finished readable versioned complete
  have inside := List.mem_of_getElem? version
  have shown : s.page.run = dump isoformat row := by
    rw [List.getLast?_eq_getElem?, ← complete.taken] at last
    rcases shows.last with nothing | ⟨event, taken, run⟩
    · rw [nothing] at last
      rw [complete.taken] at nothing
      rw [List.length_eq_zero_iff.mp nothing] at last
      cases last
    · rw [last] at taken
      obtain rfl := Option.some.inj taken
      exact run
  refine ⟨i, row, later, version, shown, ?_⟩
  have cases : Final row.status ∨ row.status = .awaitingReview := by
    have terminal : row.status ∈ [.succeeded, .failed, .cancelled, .awaitingReview] := terminal
    simpa only [List.mem_cons, List.not_mem_nil, or_false, Final, or_assoc] using terminal
  exact cases.imp (fun final => ⟨final, inv.final row inside final⟩)
    fun waits => ⟨waits, reviewCard_shown (inv.fits row inside) waits shown⟩

/-! ## A page that is rendered for a parked run -/

/-- A stream that reads a parked run once. -/
def lookOnce (isoformat : Time → String) (row : RunRow) : StreamLog :=
  [⟨.time, .ok (0 : Rat)⟩, ⟨.agent (.sql (.getRun 7 1)), .ok (some row)⟩,
    ⟨.agent (.parse row), .ok ()⟩,
    ⟨.yield (Service.statusFrame isoformat row.toAgentRun), .ok ()⟩, ⟨.time, .ok (0 : Rat)⟩]

/-- The only subscription of a page goes on. -/
theorem Reached.single {pool : RunPool} {rows : List RunRow} {page : RunPage} {row : RunRow}
    {sub sub' : Subscription} {signal : Signal}
    (reached : Reached deps jsonb userId runId isoformat parse
      { pool := pool, rows := rows, page := page, rendered := some 0, subscriptions := [sub] })
    (now : pool.world.row = some row) (step : sub.Step parse row signal sub') :
    Reached deps jsonb userId runId isoformat parse
      { pool := pool, rows := rows, page := page.signal signal, rendered := some 0
        subscriptions := [sub'] } := by
  have loop {s : Following} (alone : s.subscriptions = [] ++ sub :: []) :=
    @Step.loop deps jsonb userId runId isoformat parse s [] [] sub sub' signal row alone
  exact reached.step (loop rfl now step)

theorem Reached.looked {row : RunRow} {pool : RunPool} (parked : row.status = .awaitingReview)
    (now : pool.world.row = some row)
    (reached : Reached deps jsonb 1 7 isoformat parse
      { pool := pool, rows := [row], page := { run := dump isoformat row } }) :
    Reached deps jsonb 1 7 isoformat parse
      { pool := pool, rows := [row], page := { run := dump isoformat row }, rendered := some 0
        subscriptions := [{ opened := 0, left := ended (.ok true)
                            log := lookOnce isoformat row }] } := by
  obtain ⟨id, userId, topic, status⟩ := row
  obtain rfl : status = .awaitingReview := parked
  have opened := reached.step (.effect 1 nofun)
  have asked := Reached.single opened now
    (.serve (c := .time) (r := .ok (0 : Rat)) rfl fun _ none => nomatch none)
  have polled := asked.single now
    (.serve (c := .agent (.sql (.getRun 7 1))) (r := .ok (some _)) rfl
      fun _ same => (Option.some.inj same).symm)
  have parsed := polled.single now
    (.serve (c := .agent (.parse _)) (r := .ok ()) rfl fun _ none => nomatch none)
  have sent := parsed.single now
    (.serve (c := .yield _) (r := .ok ()) rfl fun _ none => nomatch none)
  exact sent.single now (.serve (c := .time) (r := .ok (0 : Rat)) rfl fun _ none => nomatch none)

/-- All of it arrives, the loop takes the event, and ends. -/
theorem Reached.read {row : RunRow} {pool : RunPool} (parked : row.status = .awaitingReview)
    (now : pool.world.row = some row) (readable : Readable isoformat parse row)
    (reached : Reached deps jsonb 1 7 isoformat parse
      { pool := pool, rows := [row], page := { run := dump isoformat row } }) :
    ∃ sub : Subscription, sub.stopped = true ∧ sub.refused = false ∧
      Reached deps jsonb 1 7 isoformat parse
        { pool := pool, rows := [row], page := { run := dump isoformat row }, rendered := some 0
          subscriptions := [sub] } := by
  have looked := reached.looked parked now
  have frame : frames (lookOnce isoformat row) = [.event "status" (dump isoformat row)] := rfl
  have whole : ([] ++ [(frames (lookOnce isoformat row)).flatMap Frame.bytes]).flatten =
      (frames (lookOnce isoformat row)).flatMap Frame.bytes := List.append_nil _
  have part : ([] ++ [(frames (lookOnce isoformat row)).flatMap Frame.bytes]).flatten <+:
      (frames (lookOnce isoformat row)).flatMap Frame.bytes :=
    ⟨[], (List.append_nil _).trans whole⟩
  have delivered := looked.single now (.deliver _ rfl part)
  have events : parseSse parse (some ([] ++ [(frames (lookOnce isoformat row)).flatMap Frame.bytes]))
      = [statusEvent isoformat row.toAgentRun] := by
    refine parseSse_format _ ?_ ?_ _ whole
    · rw [frame]
      exact List.forall_mem_singleton.mpr ⟨by decide, by decide, readable.wf⟩
    · intro name data mem
      rw [frame] at mem
      cases List.mem_singleton.mp mem
      exact readable.inverts
  have here : (parseSse parse (some ([] ++ [(frames (lookOnce isoformat row)).flatMap
      Frame.bytes])))[0]? = some (statusEvent isoformat row.toAgentRun) := by rw [events]; rfl
  have taken := delivered.single now (.take rfl here)
  have finished := taken.single now (.finish rfl ⟨rfl, whole, (congrArg List.length events).symm⟩)
  exact ⟨_, rfl, rfl, finished⟩

end

theorem one_query : 1 ≤ ["query"].length ∧ ["query"].length ≤ 8 := by decide

/-- The row when nothing was found and the run waits for its review. -/
def parkedRow : RunRow where
  id := 7
  userId := 1
  topic := "notes"
  status := .awaitingReview
  plan := some ⟨"", ["query"], one_query⟩
  result := some ⟨"(no sources were analysed)", 0, 0,
    ["search: web-search MCP unavailable — skipped", "structure: "]⟩
  pending := some {}
  createdAt := 0
  updatedAt := 0

theorem parkedRow_readable (isoformat : Time → String) :
    Readable isoformat (fun text => if text = Json.dumps (dump isoformat parkedRow) then
      some (dump isoformat parkedRow) else none) parkedRow where
  wf := by
    simp only [dump, parkedRow, RunRow.toAgentRun, AgentRun.modelDump, orNull, Plan.modelDump,
      AgentRunResult.modelDump, StructuredResult.modelDump, uuidJson, List.map_cons, List.map_nil,
      Json.WellFormed, Json.WellFormedObj, Json.WellFormedArr]
    decide
  inverts := if_pos rfl

theorem run_page_follows_parked : ∃ (parse : String → Option Json) (s : Following)
    (sub : Subscription), Reached quietDeps id 1 7 (fun now => toString now) parse s ∧
      s.subscriptions = [sub] ∧ sub.stopped = true ∧ s.pool.status = some .awaitingReview ∧
        s.page.reviewCard = true := by
  have parked : (RunPool.play quietDeps 7 (fun x => ReviewsApart x) parking).map
      (fun pool => pool.world.row) = some (some parkedRow) := by rfl
  obtain ⟨pool, played, now⟩ := Option.map_eq_some_iff.mp parked
  obtain ⟨tr, history, apart⟩ := RunPool.play_history played
  have readable := parkedRow_readable fun now => toString now
  obtain ⟨sub, stopped, opened, reached⟩ := Reached.read rfl now readable
    (.render history (fun x mem => of_decide_eq_true (apart x mem)) now)
  have status : pool.status = some .awaitingReview := by rw [RunPool.status, now]; rfl
  refine ⟨_, _, sub, reached, rfl, stopped, status, ?_⟩
  obtain ⟨-, -, settled⟩ := run_page_follows reached (List.forall_mem_singleton.mpr readable)
    (List.forall_mem_singleton.mpr (List.forall_mem_singleton.mpr fun _ => rfl))
  obtain ⟨i, row, -, -, -, ⟨final, same⟩ | ⟨-, card⟩⟩ := settled [] sub rfl stopped opened rfl rfl
  · rw [status] at same
    rw [← Option.some.inj same] at final
    rcases final with same | same | same <;> cases same
  · exact card

end Following

end Intellivault.Frontend
