import Mathlib.Data.Finset.Card
import Intellivault.Lib.Ranking
import Intellivault.Lib.Logs
import Intellivault.Graph.Search
import Intellivault.Agent.Research

/-!
# The chat tool's graph search

`app/agent/search_graph.py`.  The compiled graph runs two or three nodes: a vector search, the
ranking of all visible entities if that finds nothing, and a fetch of the edges.  Its result is
specified on the graph itself: `Ranked` is the order the fallback lists entities in.
-/

namespace Intellivault.Agent

open Lib Prog

/-- `SearchState`. -/
structure SearchState where
  ownerId : UUID
  query : String
  limit : Nat
  entities : List Entity := []
  relationships : List Relationship := []
  note : Option String := none

/-- What a node of the search graph returns; keys it does not set are `none`. -/
structure SearchUpdate where
  entities : Option (List Entity) := none
  relationships : Option (List Relationship) := none
  note : Option (Option String) := none

/-- LangGraph overwrites each key. -/
def SearchState.merge (s : SearchState) (u : SearchUpdate) : SearchState :=
  { s with
    entities := u.entities.getD s.entities
    relationships := u.relationships.getD s.relationships
    note := u.note.getD s.note }

namespace SearchGraph

def initialState (ownerId : UUID) (query : String) (limit : Nat) : SearchState :=
  { ownerId, query, limit }

def vectorSearchNode (state : SearchState) : Coroutine SearchUpdate :=
  tryExcept Exn.isException
    (do
      let vector ← aembedQuery state.query
      let hits ← GraphService.searchEntitiesByVector state.ownerId vector state.limit
      return { entities := some hits })
    fun _ => return { entities := some [] }

/-- Where `_route_after_vector_search` leads. -/
inductive Route where
  | fetchEdges
  | lexicalFallback
deriving DecidableEq

def routeAfterVectorSearch (state : SearchState) : Route :=
  if state.entities ≠ [] then .fetchEdges else .lexicalFallback

def overlap (py : Py) (queryTokens : List String) (entity : Entity) : Nat :=
  ((tokens py (entity.name ++ " " ++ entity.kind)).filter (· ∈ queryTokens)).length

/-- `_rank`: the entities with their overlaps; `sorted(.., reverse=True)` is stable. -/
def rank (py : Py) (entities : List Entity) (queryTokens : List String) : List (Nat × Entity) :=
  (entities.map fun e => (overlap py queryTokens e, e)).insertionSort fun a b => b.1 ≤ a.1

def lexicalFallbackNode (deps : Deps) (state : SearchState) : Coroutine SearchUpdate := do
  let view ← GraphService.listGraph state.ownerId
  let ranked := rank deps.py view.entities (tokens deps.py state.query)
  let kept := ((ranked.take state.limit).filter fun p => 0 < p.1).map (·.2)
  let note := if kept ≠ [] then none else some "no matching entities found in the knowledge graph"
  return { entities := some kept, note := some note }

def fetchEdgesNode (state : SearchState) : Coroutine SearchUpdate :=
  if state.entities = [] then return { relationships := some [] }
  else do
    let relationships ←
      GraphService.listVisibleRelationshipsAmong state.ownerId (state.entities.map (·.id))
    return { relationships := some relationships }

/-- `build_search_graph(deps).ainvoke(state)`.  The graph has no cycle, so LangGraph's bound on
the steps is never reached. -/
def ainvoke (deps : Deps) (state : SearchState) : Coroutine SearchState := do
  let update ← vectorSearchNode state
  let state := state.merge update
  let state ← (match routeAfterVectorSearch state with
    | .fetchEdges => return state
    | .lexicalFallback => do
        let update ← lexicalFallbackNode deps state
        return state.merge update)
  let update ← fetchEdgesNode state
  return state.merge update

end SearchGraph

/-! ## The specification -/

section Specification

variable (g : Graph) (u : UUID)

/-- The entity is what `u` is shown of a node that `u` may see. -/
def Seen (e : Entity) : Prop :=
  ∃ node ∈ g.entities, node.VisibleTo u ∧ e = Service.entity node (Cypher.sourceUrls g node.id)

/-- The edge and both of its endpoints are visible to `u`. -/
def SeenEdge (r : Relationship) : Prop :=
  r ∈ g.relationships ∧ r.VisibleTo u ∧ ∃ a ∈ g.entities, ∃ b ∈ g.entities,
    r.Links a b ∧ a.VisibleTo u ∧ b.VisibleTo u

/-- How many tokens the entity shares with the query. -/
def sharedTokens (py : Py) (query : String) (e : Entity) : Nat :=
  ((tokens py (e.name ++ " " ++ e.kind)).toFinset ∩ (tokens py query).toFinset).card

/-- The visible entities that share a token with the query, as `list_graph` lists them. -/
def matching (py : Py) (query : String) : List Entity :=
  (Service.listGraph g u).entities.filter fun e => 0 < sharedTokens py query e

/-- The embedder and the vector search may fail, and the search finds at most as many visible
entities as it is asked for; the other reads show the graph. -/
def SearchGraphAnswer : Event Call Call.Answer Exn → Prop
  | ⟨.embed _, r⟩ => ∀ exc, r = .error exc → exc.isException
  | ⟨.graph (.searchEntitiesByVector ownerId _ k), r⟩ =>
      (∀ exc, r = .error exc → exc.isException) ∧
        ∀ hits : List Entity, r = .ok hits → hits.length ≤ k ∧ ∀ e ∈ hits, Seen g ownerId e
  | ⟨.graph (.listGraph ownerId), r⟩ => r = .ok (Service.listGraph g ownerId)
  | ⟨.graph (.listVisibleRelationshipsAmong ownerId entityIds), r⟩ =>
      r = .ok (Service.listVisibleRelationshipsAmong g ownerId entityIds)
  | _ => True

/-- What a vector search found. -/
def foundBy : Event Call Call.Answer Exn → List Entity
  | ⟨.graph (.searchEntitiesByVector _ _ _), .ok hits⟩ => hits
  | _ => []

/-- The vector search found nothing, or failed, or was not asked. -/
def FoundNothing (log : CallLog) : Prop := log.flatMap foundBy = []

end Specification

/-! ## The reads -/

section Reads

variable {g : Graph} {u : UUID}

theorem mem_listGraph {e : Entity} : e ∈ (Service.listGraph g u).entities ↔ Seen g u e := by
  simp [Service.listGraph, Cypher.listVisibleEntities, Seen, and_assoc, eq_comm]

theorem listGraph_nodup (wf : g.Wf) : (Service.listGraph g u).entities.Nodup := by
  have ids : ((Service.listGraph g u).entities.map (·.id)).Perm
      ((g.entities.filter fun e => e.VisibleTo u).map (·.id)) := by
    rw [Service.listGraph, Cypher.listVisibleEntities, List.map_map, List.map_map]
    exact (List.perm_insertionSort _ _).map _
  have sub := (List.filter_sublist (l := g.entities) (p := fun e => e.VisibleTo u)).map (·.id)
  exact List.Nodup.of_map _ (ids.nodup_iff.mpr (wf.entityIds.sublist sub))

theorem mem_among {ids : List UUID} {r : Relationship} :
    r ∈ Service.listVisibleRelationshipsAmong g u ids ↔
      SeenEdge g u r ∧ r.fromId ∈ ids ∧ r.toId ∈ ids := by
  rw [Service.listVisibleRelationshipsAmong]
  split
  · rename_i none
    simp [none]
  · rw [Cypher.listVisibleRelationshipsAmong, List.mem_insertionSort, List.mem_filter,
      decide_eq_true_eq]
    constructor
    · rintro ⟨stored, ⟨a, ha, b, hb, links, ⟨source, target⟩, seen, seen'⟩, visible⟩
      rw [← links.1] at source
      rw [← links.2] at target
      exact ⟨⟨stored, visible, a, ha, b, hb, links, seen, seen'⟩, source, target⟩
    · rintro ⟨⟨stored, visible, a, ha, b, hb, links, seen, seen'⟩, source, target⟩
      rw [links.1] at source
      rw [links.2] at target
      exact ⟨stored, ⟨a, ha, b, hb, links, ⟨source, target⟩, seen, seen'⟩, visible⟩

theorem among_nodup (wf : g.Wf) (ids : List UUID) :
    (Service.listVisibleRelationshipsAmong g u ids).Nodup := by
  rw [Service.listVisibleRelationshipsAmong]
  split
  · exact List.nodup_nil
  · exact (List.perm_insertionSort _ _).nodup_iff.mpr ((List.Nodup.of_map _ wf.edgeIds).filter _)

/-- An exact index answers as the search graph expects. -/
theorem searchEntitiesByVector_answers {sim : Embedding → Embedding → Rat} {queryNodes : QueryNodes}
    (exact : queryNodes.Exact sim g) {vector : Embedding} {k : Nat} (pos : 1 ≤ k) :
    SearchGraphAnswer g ⟨.graph (.searchEntitiesByVector u vector k),
      .ok (Service.searchEntitiesByVector g queryNodes u vector k)⟩ := by
  refine ⟨nofun, ?_⟩
  rintro hits ⟨⟩
  have near := exact.nearest k vector pos
  have perm := Cypher.hits_perm (u := u) (queryNodes k vector)
  rw [Service.searchEntitiesByVector_eq]
  constructor
  · rw [List.length_map, ← perm.length_eq]
    have fewer := List.length_filter_le (fun e : EntityNode => decide (e.VisibleTo u))
      ((queryNodes k vector).map (·.1))
    have taken : ((queryNodes k vector).map (·.1)).length ≤ k := near.length ▸ Nat.min_le_left _ _
    exact fewer.trans taken
  · intro e mem
    obtain ⟨node, hit, rfl⟩ := List.mem_map.mp mem
    obtain ⟨inside, visible⟩ := List.mem_filter.mp (perm.mem_iff.mpr hit)
    have stored : node ∈ g.entities := List.mem_of_mem_filter (near.subset inside)
    exact ⟨node, stored, of_decide_eq_true visible, rfl⟩

end Reads

/-! ## The fallback -/

theorem tokens_nodup (py : Py) (text : String) : (tokens py text).Nodup := List.nodup_dedup _

theorem overlap_eq (py : Py) (query : String) (e : Entity) :
    SearchGraph.overlap py (tokens py query) e = sharedTokens py query e := by
  have shared : ((tokens py (e.name ++ " " ++ e.kind)).filter (· ∈ tokens py query)).toFinset =
      (tokens py (e.name ++ " " ++ e.kind)).toFinset ∩ (tokens py query).toFinset := by
    ext t
    simp
  rw [SearchGraph.overlap, sharedTokens, ← shared,
    List.toFinset_card_of_nodup ((tokens_nodup _ _).filter _)]

/-- Without the scores, the entities are ranked by them. -/
theorem rank_map (py : Py) (entities : List Entity) (query : String) :
    SearchGraph.rank py entities (tokens py query) =
      (Lib.rank (sharedTokens py query) entities).map fun e => (sharedTokens py query e, e) := by
  have scores : (fun e => (SearchGraph.overlap py (tokens py query) e, e)) =
      fun e => (sharedTokens py query e, e) := funext fun e => by rw [overlap_eq]
  rw [SearchGraph.rank, scores]
  exact rank_scored _ entities

/-- Cutting before the filter loses nothing. -/
theorem kept_ranked {g : Graph} (wf : g.Wf) (py : Py) (u : UUID) (query : String) (limit : Nat) :
    ((((SearchGraph.rank py (Service.listGraph g u).entities (tokens py query)).take limit).filter
      fun p => 0 < p.1).map (·.2)) =
      (Lib.rank (sharedTokens py query) (matching g u py query)).take limit := by
  have ranked := rank_ranked (sharedTokens py query) (Service.listGraph g u).entities
  have whole : (((SearchGraph.rank py (Service.listGraph g u).entities (tokens py query)).take
      limit).filter fun p => 0 < p.1).map (·.2) =
        ((Lib.rank (sharedTokens py query) (Service.listGraph g u).entities).take limit).filter
          fun e => 0 < sharedTokens py query e := by
    rw [rank_map, ← List.map_take]
    exact filter_scored _ _ (0 < ·)
  have upward : ∀ a b, sharedTokens py query b ≤ sharedTokens py query a →
      decide (0 < sharedTokens py query b) = true → decide (0 < sharedTokens py query a) = true :=
    fun a b below some => decide_eq_true (Nat.lt_of_lt_of_le (of_decide_eq_true some) below)
  have nodup : (matching g u py query).Nodup := (listGraph_nodup wf).filter _
  rw [whole, ranked.take_filter upward]
  exact congrArg (List.take limit) ((ranked.filter _).eq nodup (rank_ranked _ _))

/-! ## The graph -/

/-- What the search graph returns. -/
structure SearchResult (g : Graph) (u : UUID) (limit : Nat) (state : SearchState) : Prop where
  seen : ∀ e ∈ state.entities, Seen g u e
  few : state.entities.length ≤ limit
  edges : ∀ r, r ∈ state.relationships ↔
    SeenEdge g u r ∧ ∃ a ∈ state.entities, ∃ b ∈ state.entities, r.fromId = a.id ∧ r.toId = b.id
  once : state.relationships.Nodup
  note : state.note ≠ none ↔ state.entities = []

section Graph

variable {g : Graph} {deps : Deps} {u : UUID} {query : String} {limit : Nat} {state : SearchState}

theorem vectorSearchNode_logs :
    (SearchGraph.vectorSearchNode state).Logs (SearchGraphAnswer g) fun log r =>
      ∃ hits, r = .ok { entities := some hits } ∧ log.flatMap foundBy = hits ∧
        hits.length ≤ state.limit ∧ ∀ e ∈ hits, Seen g state.ownerId e := by
  refine logs_handle.mpr (logs_bind.mpr (logs_perform.mpr fun embedded answer => ?_))
  cases embedded with
  | error exc =>
      have caught : exc.isException := answer exc rfl
      dsimp only
      rw [if_pos caught]
      exact ⟨[], rfl, rfl, Nat.zero_le _, List.forall_mem_nil _⟩
  | ok vector =>
      refine logs_bind.mpr (logs_perform.mpr fun found answer' => ?_)
      cases found with
      | error exc =>
          have caught : exc.isException := answer'.1 exc rfl
          dsimp only
          rw [if_pos caught]
          exact ⟨[], rfl, rfl, Nat.zero_le _, List.forall_mem_nil _⟩
      | ok hits =>
          obtain ⟨few, seen⟩ := answer'.2 hits rfl
          exact ⟨hits, rfl, List.append_nil hits, few, seen⟩

theorem lexicalFallbackNode_logs (wf : g.Wf) :
    (SearchGraph.lexicalFallbackNode deps state).Logs (SearchGraphAnswer g) fun log r =>
      log.flatMap foundBy = [] ∧
        let kept := (Lib.rank (sharedTokens deps.py state.query)
          (matching g state.ownerId deps.py state.query)).take state.limit
        r = .ok {
          entities := some kept
          note := some (if kept ≠ [] then none
            else some "no matching entities found in the knowledge graph") } := by
  refine logs_bind.mpr (logs_perform.mpr fun view answer => ?_)
  obtain rfl : view = .ok (Service.listGraph g state.ownerId) := answer
  refine ⟨rfl, ?_⟩
  rw [← kept_ranked wf]

theorem fetchEdgesNode_logs :
    (SearchGraph.fetchEdgesNode state).Logs (SearchGraphAnswer g) fun log r =>
      log.flatMap foundBy = [] ∧ r = .ok {
        relationships := some (Service.listVisibleRelationshipsAmong g state.ownerId
          (state.entities.map (·.id))) } := by
  unfold SearchGraph.fetchEdgesNode
  split
  · rename_i none
    rw [none]
    exact ⟨rfl, rfl⟩
  · refine logs_bind.mpr (logs_perform.mpr fun edges answer => ?_)
    obtain rfl : edges = .ok (Service.listVisibleRelationshipsAmong g state.ownerId
      (state.entities.map (·.id))) := answer
    exact ⟨rfl, rfl⟩

/-- The edges among entities that `u` sees. -/
theorem fetched_edges (entities : List Entity) (r : Relationship) :
    r ∈ Service.listVisibleRelationshipsAmong g u (entities.map (·.id)) ↔
      SeenEdge g u r ∧ ∃ a ∈ entities, ∃ b ∈ entities, r.fromId = a.id ∧ r.toId = b.id := by
  rw [mem_among, List.mem_map, List.mem_map]
  refine and_congr_right fun _ => ⟨?_, ?_⟩
  · rintro ⟨⟨a, ha, source⟩, b, hb, target⟩
    exact ⟨a, ha, b, hb, source.symm, target.symm⟩
  · rintro ⟨a, ha, b, hb, source, target⟩
    exact ⟨⟨a, ha, source.symm⟩, b, hb, target.symm⟩

/-- The end of the graph, after the nodes that look for entities. -/
theorem fetch_finishes (wf : g.Wf) (state : SearchState) (owner : state.ownerId = u)
    (seen : ∀ e ∈ state.entities, Seen g u e) (few : state.entities.length ≤ limit)
    (note : state.note ≠ none ↔ state.entities = []) :
    (do
      let update ← SearchGraph.fetchEdgesNode state
      return state.merge update : Coroutine SearchState).Logs (SearchGraphAnswer g) fun log r =>
        log.flatMap foundBy = [] ∧ ∃ state', r = .ok state' ∧ state'.entities = state.entities ∧
          SearchResult g u limit state' := by
  subst owner
  refine logs_bind.mpr (fetchEdgesNode_logs.mono fun log r ⟨quiet, fetched⟩ => ?_)
  subst fetched
  refine ⟨?_, _, rfl, rfl, seen, few, fetched_edges state.entities, among_nodup wf _, note⟩
  rw [List.append_nil]
  exact quiet

theorem matching_seen {e : Entity} {py : Py} (mem : e ∈ matching g u py query) : Seen g u e :=
  mem_listGraph.mp (List.mem_of_mem_filter mem)

/-- The routing: the fallback is there for a search that found nothing. -/
theorem fallback_logs (wf : g.Wf) (state : SearchState) (noNote : state.note = none) :
    (match SearchGraph.routeAfterVectorSearch state with
      | .fetchEdges => return state
      | .lexicalFallback => do
          let update ← SearchGraph.lexicalFallbackNode deps state
          return state.merge update : Coroutine SearchState).Logs (SearchGraphAnswer g) fun log r =>
        log.flatMap foundBy = [] ∧ ∃ state', r = .ok state' ∧ state'.ownerId = state.ownerId ∧
          (state'.note ≠ none ↔ state'.entities = []) ∧
          state'.entities = if state.entities ≠ [] then state.entities
            else (Lib.rank (sharedTokens deps.py state.query)
              (matching g state.ownerId deps.py state.query)).take state.limit := by
  unfold SearchGraph.routeAfterVectorSearch
  by_cases some : state.entities ≠ []
  · rw [if_pos some, if_pos some]
    exact ⟨rfl, state, rfl, rfl, iff_of_false (not_not.mpr noNote) some, rfl⟩
  · rw [if_neg some, if_neg some]
    refine logs_bind.mpr ((lexicalFallbackNode_logs wf).mono fun log r ⟨quiet, fallback⟩ => ?_)
    subst fallback
    refine ⟨?_, _, rfl, rfl, ?_, rfl⟩
    · rw [List.append_nil]
      exact quiet
    · simp only [SearchState.merge, Option.getD_some]
      split
      · rename_i kept
        exact iff_of_false (not_not.mpr rfl) kept
      · rename_i empty
        exact iff_of_true (Option.some_ne_none _) (not_not.mp empty)

/-- The whole graph: it goes on with what the vector search found, or else with the fallback. -/
theorem ainvoke_logs (wf : g.Wf) :
    (SearchGraph.ainvoke deps (SearchGraph.initialState u query limit)).Logs (SearchGraphAnswer g)
      fun log r => ∃ state, r = .ok state ∧ SearchResult g u limit state ∧
        state.entities = if log.flatMap foundBy ≠ [] then log.flatMap foundBy
          else (Lib.rank (sharedTokens deps.py query) (matching g u deps.py query)).take limit := by
  refine logs_bind.mpr (vectorSearchNode_logs.mono fun log r found => ?_)
  obtain ⟨hits, rfl, same, few, seen⟩ := found
  refine logs_bind.mpr ((fallback_logs wf _ rfl).mono fun log' r ⟨quiet, looked⟩ => ?_)
  obtain ⟨state, rfl, owner, note, entities⟩ := looked
  have entities : state.entities = if hits ≠ [] then hits
      else (Lib.rank (sharedTokens deps.py query) (matching g u deps.py query)).take limit := entities
  have kept : (∀ e ∈ state.entities, Seen g u e) ∧ state.entities.length ≤ limit := by
    rw [entities]
    split
    · exact ⟨seen, few⟩
    · refine ⟨fun e mem => ?_, List.length_take_le _ _⟩
      exact matching_seen ((rank_ranked _ _).perm.mem_iff.mp (List.mem_of_mem_take mem))
  refine (fetch_finishes wf state owner kept.1 kept.2 note).mono
    fun log'' r ⟨quiet', state', done, same', result⟩ => ?_
  have all : (log ++ (log' ++ log'')).flatMap foundBy = hits := by
    simp [same, quiet, quiet']
  rw [all]
  exact ⟨state', done, result, same'.trans entities⟩

end Graph

/-- **What the search graph returns.**  It returns entities that the caller sees, at most `limit`
of them, just the visible edges among them, and a note if there are none.  When the vector search
finds nothing or fails, they are the first of the visible entities that share a token with the
query; so if there is one of those, something is returned. -/
theorem search_graph_spec {g : Graph} (reachable : Reachable g) {deps : Deps} {u : UUID}
    {query : String} {limit : Nat} (pos : 1 ≤ limit) {S : Type} {H : Handler Call Call.Answer Exn S}
    {s s' : S} {log : CallLog} {r : Except Exn SearchState}
    (run : Runs H (SearchGraph.ainvoke deps (SearchGraph.initialState u query limit)) s log (ended r) s')
    (answers : ∀ c s r s', H c s r s' → SearchGraphAnswer g ⟨c, r⟩) :
    ∃ state, r = .ok state ∧ SearchResult g u limit state ∧
      (¬FoundNothing log → state.entities = log.flatMap foundBy) ∧
      (FoundNothing log → ∃ ranked, Ranked (sharedTokens deps.py query)
        (matching g u deps.py query) ranked ∧ state.entities = ranked.take limit) ∧
      ((∃ e, Seen g u e ∧ 0 < sharedTokens deps.py query e) → state.entities ≠ []) := by
  obtain ⟨state, done, result, entities⟩ := run.logs answers (ainvoke_logs reachable.inv.wf)
  have ranked := rank_ranked (sharedTokens deps.py query) (matching g u deps.py query)
  refine ⟨state, done, result, fun found => ?_, fun nothing => ⟨_, ranked, ?_⟩, ?_⟩
  · exact entities.trans (if_pos found)
  · exact entities.trans (if_neg (not_not.mpr nothing))
  · rintro ⟨e, seen, shares⟩
    have matches' : e ∈ Lib.rank (sharedTokens deps.py query) (matching g u deps.py query) :=
      ranked.perm.mem_iff.mpr
        (List.mem_filter.mpr ⟨mem_listGraph.mpr seen, decide_eq_true shares⟩)
    rw [entities]
    split
    · rename_i some
      exact some
    · rw [Ne, List.take_eq_nil_iff]
      rintro (none | none)
      · omega
      · rw [none] at matches'
        cases matches'

/-! ## Two notes that are not in the index -/

def plainDeps : Deps :=
  { settings := { recursionLimit := 25 }, searchTool := false, wikipediaTools := []
    py := { lower := id, loads := fun _ => none, strOf := fun _ => "" } }

/-- The reads show the two notes and the edge between them. -/
def plainAnswers : (c : Call) → Unit → Except Exn c.Answer × Unit
  | .embed _, w => (.ok [1], w)
  | .graph (.searchEntitiesByVector ownerId vector k), w =>
      if 1 ≤ k then
        (.ok (Service.searchEntitiesByVector .twoUsers (.sorting dot .twoUsers) ownerId vector k), w)
      else (.error .timeout, w)
  | .graph (.listGraph ownerId), w => (.ok (Service.listGraph .twoUsers ownerId), w)
  | .graph (.listVisibleRelationshipsAmong ownerId ids), w =>
      (.ok (Service.listVisibleRelationshipsAmong .twoUsers ownerId ids), w)
  | _, w => (.error (.other "down" "OSError('down')"), w)

def plainGraph : Handler Call Call.Answer Exn Unit := fun c _ r _ => SearchGraphAnswer .twoUsers ⟨c, r⟩

theorem plainAnswers_allowed (c : Call) (w : Unit) :
    plainGraph c w (plainAnswers c w).1 (plainAnswers c w).2 := by
  cases c with
  | embed text => exact nofun
  | graph c =>
      cases c with
      | searchEntitiesByVector ownerId vector k =>
          rw [plainAnswers]
          split
          · rename_i pos
            exact searchEntitiesByVector_answers (QueryNodes.sorting_exact reachable_twoUsers.inv.wf) pos
          · refine ⟨?_, nofun⟩
            rintro _ ⟨⟩
            rfl
      | listGraph ownerId => rfl
      | listVisibleRelationshipsAmong ownerId ids => rfl
      | _ => trivial
  | _ => trivial

/-- A stranger who asks for texts is shown the older note, and no edge. -/
theorem search_graph_spec_texts : ∃ state,
    ((SearchGraph.ainvoke plainDeps (SearchGraph.initialState 3 "old texts, text" 1)).run
      plainAnswers ()).2.1 = .ok state ∧
    SearchResult .twoUsers 3 1 state ∧ state.entities.map (·.id) = [10] ∧ state.note = none ∧
    ∃ ranked, Ranked (sharedTokens plainDeps.py "old texts, text")
      (matching .twoUsers 3 plainDeps.py "old texts, text") ranked ∧ state.entities = ranked.take 1 := by
  have run := runs_run plainAnswers_allowed
    (SearchGraph.ainvoke plainDeps (SearchGraph.initialState 3 "old texts, text" 1)) ()
  obtain ⟨state, done, result, -, fallback, -⟩ :=
    search_graph_spec reachable_twoUsers (by decide) run fun _ _ _ _ answered => answered
  have shown : ∃ state', ((SearchGraph.ainvoke plainDeps (SearchGraph.initialState 3 "old texts, text" 1)).run
      plainAnswers ()).2.1 = .ok state' ∧ state'.entities.map (·.id) = [10] ∧ state'.note = none :=
    ⟨_, rfl, by decide +kernel, by decide +kernel⟩
  obtain ⟨state', done', ids, note⟩ := shown
  obtain rfl := Except.ok.inj (done'.symm.trans done)
  exact ⟨state', done', result, ids, note, fallback rfl⟩

end Intellivault.Agent
