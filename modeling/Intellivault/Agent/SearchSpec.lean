import Intellivault.Lib.Distinct
import Intellivault.Agent.Lookup

/-!
# What a search keeps

`search_node` comes to the failed queries and to the hits of the others, in the order of the
queries.  `safeHits` is what is to be kept of the hits, before the cap, and `noteOf` what is to
be noted about each encounter; the loops have done both for what they came to so far.
-/

namespace Intellivault.Agent

open Lib Prog

/-! ## The specification -/

/-- What the loops come to. -/
inductive Encounter where
  /-- A query that failed, and its note. -/
  | failed (note : String)
  | found (hit : SearchHit)

def Encounter.hit : Encounter → Option SearchHit
  | .failed _ => none
  | .found hit => some hit

/-- The hits among them. -/
def hitsOf (met : List Encounter) : List SearchHit := met.filterMap Encounter.hit

section

variable (guard : String → Option String) (limit : Nat)

/-- The first hit of each URL, without the rejected ones; `guard` says why it rejects a URL. -/
def safeHits (hits : List SearchHit) : List SearchHit :=
  (firstOf SearchHit.url hits).filter fun hit => guard hit.url = none

/-- A failed query is noted; so is a URL that is rejected, when it is met for the first time and
fewer than `limit` hits were kept before. -/
def noteOf (past : List Encounter) : Encounter → Option String
  | .failed note => some note
  | .found hit =>
      if hit.url ∉ (hitsOf past).map SearchHit.url ∧ (safeHits guard (hitsOf past)).length < limit then
        (guard hit.url).map fun reason => "search: " ++ hit.url ++ " (" ++ reason ++ ")"
      else none

def notesOf (met : List Encounter) : List String := withPast (noteOf guard limit) [] met

end

/-- What the result of a query leads to. -/
def encounters (py : Py) (query : String) : Except Exn Json → List Encounter
  | .error exc => [.failed ("search: " ++ pyRepr query ++ " (" ++ exc.str ++ ")")]
  | .ok raw => (parseSearchResult py raw).map .found

/-- All of them, query by query. -/
def allEncounters (py : Py) (queries : List String) (results : List (Except Exn Json)) : List Encounter :=
  (List.zipWith (encounters py) queries results).flatten

/-- The parsed hits of the queries that did not fail. -/
def parsedHits (py : Py) (results : List (Except Exn Json)) : List SearchHit :=
  results.flatMap fun
    | .ok raw => parseSearchResult py raw
    | .error _ => []

/-- The guard accepts a URL or raises `SsrfError`; the search tool may raise any `Exception`. -/
def SearchReply (guard : String → Option String) : Event Call Call.Answer Exn → Prop
  | ⟨.guardUrl url, r⟩ => r = (match guard url with
      | none => .ok ()
      | some reason => .error (.ssrf reason))
  | ⟨.tool _ _, r⟩ => ∀ exc, r = .error exc → exc.isException
  | _ => True

/-- The arguments of the search tool. -/
def searchArgs (query : String) : List (String × Json) :=
  [("query", .str query), ("response_format", .str "json"), ("result_detail", .str "compact")]

/-- The calls of the search tool, one for each query. -/
def toolCalls (queries : List String) (results : List (Except Exn Json)) : CallLog :=
  List.zipWith (fun query r => ⟨.tool "search" (searchArgs query), r⟩) queries results

/-! ## The encounters -/

@[simp] theorem hitsOf_append (met met' : List Encounter) :
    hitsOf (met ++ met') = hitsOf met ++ hitsOf met' := List.filterMap_append

@[simp] theorem hitsOf_failed (note : String) : hitsOf [.failed note] = [] := rfl

@[simp] theorem hitsOf_one (hit : SearchHit) : hitsOf [.found hit] = [hit] := rfl

@[simp] theorem hitsOf_found (hits : List SearchHit) : hitsOf (hits.map .found) = hits := by
  induction hits with
  | nil => rfl
  | cons hit hits ih => exact congrArg (hit :: ·) ih

theorem hitsOf_all (py : Py) {queries : List String} {results : List (Except Exn Json)}
    (each : queries.length = results.length) :
    hitsOf (allEncounters py queries results) = parsedHits py results := by
  induction queries generalizing results with
  | nil =>
      obtain rfl := List.length_eq_zero_iff.mp each.symm
      rfl
  | cons query queries ih =>
      cases results with
      | nil => cases each
      | cons r results =>
          have rest := ih (Nat.succ.inj each)
          have here : hitsOf (encounters py query r) = parsedHits py [r] := by
            cases r <;> simp [encounters, parsedHits]
          have whole : allEncounters py (query :: queries) (r :: results) =
              encounters py query r ++ allEncounters py queries results := rfl
          rw [whole, hitsOf_append, here, rest]
          simp [parsedHits]

theorem safeHits_snoc (guard : String → Option String) (hits : List SearchHit) (hit : SearchHit) :
    safeHits guard (hits ++ [hit]) =
      if hit.url ∈ hits.map SearchHit.url ∨ guard hit.url ≠ none then safeHits guard hits
      else safeHits guard hits ++ [hit] := by
  rw [safeHits, firstOf_snoc]
  by_cases old : hit.url ∈ hits.map SearchHit.url
  · rw [if_pos old, if_pos (.inl old)]
    rfl
  · rw [if_neg old, List.filter_append]
    by_cases accepted : guard hit.url = none
    · rw [if_neg (not_or.mpr ⟨old, not_not.mpr accepted⟩),
        List.filter_cons_of_pos (by simpa using accepted)]
      rfl
    · rw [if_pos (.inr accepted), List.filter_cons_of_neg (by simpa using accepted)]
      exact List.append_nil _

/-! ## The loops -/

/-- The variables of the loops, after these encounters. -/
structure Collected (guard : String → Option String) (limit : Nat) (previous : List String)
    (met : List Encounter) (loop : SearchLoop) : Prop where
  seen : (safeHits guard (hitsOf met)).length < limit →
    ∀ url, url ∈ loop.seen ↔ url ∈ (hitsOf met).map SearchHit.url
  hits : loop.hits = (safeHits guard (hitsOf met)).take limit
  skipped : loop.skipped = previous ++ notesOf guard limit met

section Loops

variable {guard : String → Option String} {limit : Nat} {previous : List String}
  {met : List Encounter} {loop : SearchLoop}

theorem Collected.start : Collected guard limit previous [] { skipped := previous } where
  seen _ _ := Iff.rfl
  hits := List.take_nil.symm
  skipped := (List.append_nil previous).symm

theorem Collected.room (collected : Collected guard limit previous met loop) :
    loop.hits.length < limit ↔ (safeHits guard (hitsOf met)).length < limit := by
  rw [collected.hits, List.length_take]
  omega

/-- A failed query. -/
theorem Collected.failed (collected : Collected guard limit previous met loop) (note : String) :
    Collected guard limit previous (met ++ [.failed note])
      { loop with skipped := loop.skipped ++ [note] } := by
  constructor
  · simpa using collected.seen
  · simpa using collected.hits
  · change loop.skipped ++ [note] = _
    rw [collected.skipped, notesOf, notesOf, withPast_snoc, List.append_assoc]
    rfl

/-- A hit the loop passes over: its URL was seen, or the cap is reached. -/
theorem Collected.passed (collected : Collected guard limit previous met loop) {hit : SearchHit}
    (passed : hit.url ∈ loop.seen ∨ limit ≤ loop.hits.length) :
    Collected guard limit previous (met ++ [.found hit]) loop := by
  have quiet : noteOf guard limit met (.found hit) = none := by
    rw [noteOf, if_neg]
    rintro ⟨new, room⟩
    rcases passed with old | full
    · exact new ((collected.seen room _).mp old)
    · exact absurd (collected.room.mpr room) (Nat.not_lt.mpr full)
  have last : hitsOf (met ++ [.found hit]) = hitsOf met ++ [hit] := hitsOf_append _ _
  constructor
  · intro room url
    rw [last, safeHits_snoc] at room
    have before : (safeHits guard (hitsOf met)).length < limit := by
      split at room
      · exact room
      · rw [List.length_append] at room
        omega
    have old : hit.url ∈ (hitsOf met).map SearchHit.url :=
      (collected.seen before _).mp (passed.resolve_right
        (Nat.not_le.mpr (collected.room.mpr before)))
    rw [last, List.map_append, List.mem_append, List.map_singleton, List.mem_singleton,
      collected.seen before]
    exact ⟨.inl, fun found => found.elim id fun same => same ▸ old⟩
  · rw [last, safeHits_snoc]
    split
    · exact collected.hits
    · rename_i kept
      have full : limit ≤ (safeHits guard (hitsOf met)).length := by
        by_contra room
        have room := Nat.lt_of_not_le room
        rcases passed with old | full
        · exact kept (.inl ((collected.seen room _).mp old))
        · exact absurd (collected.room.mpr room) (Nat.not_lt.mpr full)
      rw [List.take_append_of_le_length full]
      exact collected.hits
  · rw [collected.skipped, notesOf, notesOf, withPast_snoc, List.nil_append, quiet]
    exact congrArg _ (List.append_nil _).symm

/-- A hit that is looked at: it is the first with its URL, and there is room for it. -/
theorem Collected.looked (collected : Collected guard limit previous met loop) {hit : SearchHit}
    (new : ¬(hit.url ∈ loop.seen ∨ limit ≤ loop.hits.length)) :
    hit.url ∉ (hitsOf met).map SearchHit.url ∧ (safeHits guard (hitsOf met)).length < limit ∧
      ∀ url, url ∈ hit.url :: loop.seen ↔
        url ∈ (hitsOf (met ++ [.found hit])).map SearchHit.url := by
  obtain ⟨unseen, room⟩ := not_or.mp new
  have room := collected.room.mp (Nat.lt_of_not_le room)
  refine ⟨fun old => unseen ((collected.seen room _).mpr old), room, fun url => ?_⟩
  rw [hitsOf_append, hitsOf_one, List.map_append, List.mem_append, List.map_singleton,
    List.mem_singleton, List.mem_cons, collected.seen room]
  exact or_comm

/-- A URL the guard accepts. -/
theorem Collected.accepted (collected : Collected guard limit previous met loop) {hit : SearchHit}
    (new : ¬(hit.url ∈ loop.seen ∨ limit ≤ loop.hits.length)) (accepts : guard hit.url = none) :
    Collected guard limit previous (met ++ [.found hit])
      { loop with seen := hit.url :: loop.seen, hits := loop.hits ++ [hit] } := by
  obtain ⟨fresh, room, seen⟩ := collected.looked new
  have whole : safeHits guard (hitsOf met) = loop.hits := by
    rw [collected.hits, List.take_of_length_le room.le]
  have kept : safeHits guard (hitsOf (met ++ [.found hit])) = loop.hits ++ [hit] := by
    rw [hitsOf_append, hitsOf_one, safeHits_snoc, if_neg (not_or.mpr ⟨fresh, not_not.mpr accepts⟩),
      whole]
  have quiet : noteOf guard limit met (.found hit) = none := by
    rw [noteOf, if_pos ⟨fresh, room⟩, accepts]
    rfl
  constructor
  · exact fun _ => seen
  · rw [kept, List.take_of_length_le]
    rw [← whole, List.length_append]
    exact room
  · change loop.skipped = _
    rw [collected.skipped, notesOf, notesOf, withPast_snoc, List.nil_append, quiet]
    exact congrArg _ (List.append_nil _).symm

/-- A URL the guard rejects. -/
theorem Collected.rejected (collected : Collected guard limit previous met loop) {hit : SearchHit}
    {reason : String} (new : ¬(hit.url ∈ loop.seen ∨ limit ≤ loop.hits.length))
    (rejects : guard hit.url = some reason) :
    Collected guard limit previous (met ++ [.found hit])
      { loop with
        seen := hit.url :: loop.seen
        skipped := loop.skipped ++ ["search: " ++ hit.url ++ " (" ++ reason ++ ")"] } := by
  obtain ⟨fresh, room, seen⟩ := collected.looked new
  have kept : safeHits guard (hitsOf (met ++ [.found hit])) = safeHits guard (hitsOf met) := by
    rw [hitsOf_append, hitsOf_one, safeHits_snoc,
      if_pos (.inr (by rw [rejects]; exact Option.some_ne_none _))]
  have note : noteOf guard limit met (.found hit) =
      some ("search: " ++ hit.url ++ " (" ++ reason ++ ")") := by
    rw [noteOf, if_pos ⟨fresh, room⟩, rejects]
    rfl
  constructor
  · exact fun _ => seen
  · rw [kept]
    exact collected.hits
  · change loop.skipped ++ _ = _
    rw [collected.skipped, notesOf, notesOf, withPast_snoc, List.nil_append, note, List.append_assoc]
    rfl

/-- The guard, on a hit that is looked at. -/
theorem guarded_logs_hit (collected : Collected guard limit previous met loop) {hit : SearchHit}
    (new : ¬(hit.url ∈ loop.seen ∨ limit ≤ loop.hits.length)) :
    (tryExcept Exn.isSsrf
      (do
        let _ ← guardUrl hit.url
        return { loop with seen := hit.url :: loop.seen, hits := loop.hits ++ [hit] })
      fun exc => return { loop with
        seen := hit.url :: loop.seen
        skipped := loop.skipped ++ ["search: " ++ hit.url ++ " (" ++ exc.str ++ ")"] }).Logs
      (SearchReply guard) fun log r => (∀ e ∈ log, e.1.isTool = false) ∧
        ∃ loop', r = .ok loop' ∧ Collected guard limit previous (met ++ [.found hit]) loop' := by
  refine logs_handle.mpr (logs_bind.mpr (logs_perform.mpr fun r answer => ?_))
  have answer : r = match guard hit.url with
      | none => .ok ()
      | some reason => .error (.ssrf reason) := answer
  cases verdict : guard hit.url with
  | none =>
      rw [verdict] at answer
      subst answer
      exact ⟨List.forall_mem_singleton.mpr rfl, _, rfl, collected.accepted new verdict⟩
  | some reason =>
      rw [verdict] at answer
      subst answer
      exact ⟨List.forall_mem_singleton.mpr rfl, _, rfl, collected.rejected new verdict⟩

/-- The hits of one query. -/
theorem searchHits_logs (collected : Collected guard limit previous met loop)
    (hits : List SearchHit) :
    (searchHits limit hits loop).Logs (SearchReply guard) fun log r =>
      (∀ e ∈ log, e.1.isTool = false) ∧
        ∃ loop', r = .ok loop' ∧ Collected guard limit previous (met ++ hits.map .found) loop' := by
  induction hits generalizing met loop with
  | nil =>
      refine ⟨List.forall_mem_nil _, loop, rfl, ?_⟩
      rwa [List.map_nil, List.append_nil]
  | cons hit rest ih =>
      rw [List.map_cons, List.append_cons]
      rw [searchHits]
      split
      · rename_i passed
        exact ih (collected.passed passed)
      · rename_i new
        refine logs_bind.mpr ((guarded_logs_hit collected new).mono fun log r looked => ?_)
        obtain ⟨silent, loop', rfl, next⟩ := looked
        exact (ih next).mono fun log' r rest =>
          ⟨List.forall_mem_append.mpr ⟨silent, rest.1⟩, rest.2⟩

/-- The tool answers, or its exception is caught. -/
theorem asked_logs (query : String) :
    (returnException (callTool "search" (searchArgs query))).Logs (SearchReply guard)
      fun log q => ∃ r, q = .ok r ∧ log = [⟨.tool "search" (searchArgs query), r⟩] := by
  refine logs_handle.mpr (logs_bind.mpr (logs_perform.mpr fun r answer => ?_))
  cases r with
  | ok raw => exact ⟨.ok raw, rfl, rfl⟩
  | error exc =>
      have caught : exc.isException := answer exc rfl
      dsimp only
      rw [if_pos caught]
      exact ⟨.error exc, rfl, rfl⟩

/-- All queries. -/
theorem searchQueries_logs (deps : Deps) (queries : List String)
    (collected : Collected guard deps.settings.maxSources previous met loop) :
    (searchQueries deps queries loop).Logs (SearchReply guard) fun log r =>
      ∃ results loop', queries.length = results.length ∧ r = .ok loop' ∧
        log.filter (·.1.isTool) = toolCalls queries results ∧
        Collected guard deps.settings.maxSources previous
          (met ++ allEncounters deps.py queries results) loop' := by
  induction queries generalizing met loop with
  | nil =>
      refine ⟨[], loop, rfl, rfl, rfl, ?_⟩
      rwa [allEncounters, List.zipWith_nil_left, List.flatten_nil, List.append_nil]
  | cons query rest ih =>
      refine logs_bind.mpr ((asked_logs query).mono fun log r asked => ?_)
      obtain ⟨r, rfl, rfl⟩ := asked
      cases r with
      | error exc =>
          refine (ih (collected.failed _)).mono fun log r done => ?_
          obtain ⟨results, loop', each, ended, calls, next⟩ := done
          refine ⟨.error exc :: results, loop', congrArg (· + 1) each, ended, ?_, ?_⟩
          · exact congrArg (_ :: ·) calls
          · rwa [List.append_assoc] at next
      | ok raw =>
          refine logs_bind.mpr ((searchHits_logs collected (parseSearchResult deps.py raw)).mono
            fun log r ⟨silent, found⟩ => ?_)
          obtain ⟨loop', rfl, next⟩ := found
          refine (ih next).mono fun log' r done => ?_
          obtain ⟨results, loop'', each, ended, calls, last⟩ := done
          refine ⟨.ok raw :: results, loop'', congrArg (· + 1) each, ended, ?_, ?_⟩
          · have none : log.filter (·.1.isTool) = [] :=
              List.filter_eq_nil_iff.mpr fun e mem => by simp [silent e mem]
            have rest : (log ++ log').filter (·.1.isTool) = log'.filter (·.1.isTool) := by
              rw [List.filter_append, none, List.nil_append]
            exact congrArg (_ :: ·) (rest.trans calls)
          · rwa [List.append_assoc] at last

end Loops

/-! ## The node -/

/-- **A search keeps the first safe hits.**  With a plan and a tool the node returns: each query
was asked once, the first hits of the safe ones are kept, up to the cap, and the notes about
failed queries and rejected URLs come after the previous ones, in the order they were met. -/
theorem search_keeps_first {deps : Deps} {state : AgentState} {plan : Plan}
    {guard : String → Option String} {S : Type} {H : Handler Call Call.Answer Exn S} {s s' : S}
    {log : CallLog} {r : Except Exn Update} (planned : state.plan = some plan)
    (configured : deps.searchTool = true) (run : Runs H (searchNode deps state) s log (ended r) s')
    (answers : ∀ c s r s', H c s r s' → SearchReply guard ⟨c, r⟩) :
    ∃ results, plan.queries.length = results.length ∧
      log.filter (·.1.isTool) = toolCalls plan.queries results ∧
      r = .ok {
        searchHits := some ((safeHits guard (parsedHits deps.py results)).take deps.settings.maxSources)
        skipped := some (state.skipped ++ notesOf guard deps.settings.maxSources
          (allEncounters deps.py plan.queries results)) } := by
  have done : (searchNode deps state).Logs (SearchReply guard) fun log r =>
      ∃ results, plan.queries.length = results.length ∧
        log.filter (·.1.isTool) = toolCalls plan.queries results ∧
        r = .ok {
          searchHits := some ((safeHits guard (parsedHits deps.py results)).take
            deps.settings.maxSources)
          skipped := some (state.skipped ++ notesOf guard deps.settings.maxSources
            (allEncounters deps.py plan.queries results)) } := by
    rw [searchNode, planned]
    dsimp only
    rw [if_neg (not_not.mpr configured)]
    refine logs_bind.mpr ((searchQueries_logs deps plan.queries .start).mono fun log r found => ?_)
    obtain ⟨results, loop, each, rfl, calls, collected⟩ := found
    refine ⟨results, each, ?_, ?_⟩
    · rwa [List.append_nil]
    · rw [collected.hits, collected.skipped, List.nil_append, hitsOf_all deps.py each]
  exact run.logs answers done

/-! ## Two queries and room for one hit -/

def quickDeps : Deps :=
  { settings := { recursionLimit := 25, maxSources := 1 }, searchTool := true, wikipediaTools := []
    py := { lower := id, loads := fun _ => none, strOf := fun _ => "" } }

def quickPlan : Plan := { summary := "notes", queries := ["slow", "quick"], bounds := by decide }

def quickState : AgentState := { initialState "notes" 1 7 with plan := some quickPlan }

def insideGuard (url : String) : Option String :=
  if url = "http://inside" then some "private address" else none

def itemAt (url : String) : Json := .obj [("url", .str url)]

/-- The first query fails; the hits of the second are found twice, and one is inside. -/
def quickAnswers : (c : Call) → Unit → Except Exn c.Answer × Unit
  | .tool _ args, u =>
      if args.lookup "query" = some (.str "slow") then (.error (.other "down" "OSError('down')"), u)
      else (.ok (.arr (["http://inside", "http://a", "http://inside", "http://b"].map itemAt)), u)
  | .guardUrl url, u => (match insideGuard url with
      | none => .ok ()
      | some reason => .error (.ssrf reason), u)
  | _, u => (.error .timeout, u)

def quickGuard : Handler Call Call.Answer Exn Unit := fun c _ r _ => SearchReply insideGuard ⟨c, r⟩

theorem quickAnswers_replies (c : Call) (u : Unit) :
    quickGuard c u (quickAnswers c u).1 (quickAnswers c u).2 := by
  cases c with
  | guardUrl url => rfl
  | tool name args =>
      intro exc failed
      rw [quickAnswers] at failed
      split at failed
      · cases failed
        rfl
      · cases failed
  | _ => trivial

/-- One hit is kept; the failure and the rejected URL are noted once, and the hit after the cap
is not. -/
theorem search_keeps_first_quick : ∃ results, quickPlan.queries.length = results.length ∧
    (safeHits insideGuard (parsedHits quickDeps.py results)).map SearchHit.url = ["http://a", "http://b"] ∧
    ((searchNode quickDeps quickState).run quickAnswers ()).2.1 = .ok {
      searchHits := some ((safeHits insideGuard (parsedHits quickDeps.py results)).take 1)
      skipped := some ["search: 'slow' (down)", "search: http://inside (private address)"] } := by
  have run := runs_run quickAnswers_replies (searchNode quickDeps quickState) ()
  obtain ⟨results, each, calls, same⟩ := search_keeps_first rfl rfl run fun _ _ _ _ answered => answered
  obtain ⟨failed, found, rfl⟩ := List.length_eq_two.mp each.symm
  cases calls
  exact ⟨_, each, by decide, same⟩

end Intellivault.Agent
