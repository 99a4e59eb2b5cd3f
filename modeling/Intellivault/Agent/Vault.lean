import Intellivault.Graph.Increments
import Intellivault.Agent.Additive
import Intellivault.Agent.Tenants

/-!
# The whole vault

The knowledge graph under everything that writes to it: the jobs of all runs, call by call, and
the graph requests of all users in between.  `Vault.Inv` carries the two invariants together:
the graph is one that the graph service can make, and every process attends to its own run.
`vault_contained` reads off it what each step does to the graph, and `vault_private` what any
number of steps of the others leave alone.

A call of the graph service is one atomic step here.  That is an idealization: `ReadCommitted`
has what others can do between the reads and the writes of one statement.
-/

namespace Intellivault.Agent

open Lib Prog

/-! ## The system -/

/-- The two stores. -/
structure Vault where
  fleet : Fleet := {}
  graph : Graph := .empty

/-- A call of the graph service is answered, or raises before or after it took effect. -/
def onGraph : Handler Call Call.Answer Exn Graph
  | .graph c, g, r, g' => c.Effect g r g' ∨ (∃ exc, r = .error exc) ∧ (g' = g ∨ ∃ r', c.Effect g r' g')
  | _, g, _, g' => g' = g

/-- What a call of a request or a job does. -/
def vault (jsonb : Attributes → Attributes) : Handler Call Call.Answer Exn Vault :=
  fun c w r w' => fleet jsonb c w.fleet r w'.fleet ∧ onGraph c w.graph r w'.graph

def arrivesVault (w : Vault) (k : FleetTask) (w' : Vault) : Prop :=
  arrivesFleet w.fleet k w'.fleet ∧ w'.graph = w.graph

abbrev VaultPool := Pool FleetTask Call Call.Answer Exn Vault

def VaultPool.empty : VaultPool := ⟨{}, []⟩

/-- Its runs, without the graph. -/
def VaultPool.fleet (pool : VaultPool) : FleetPool := ⟨pool.world.fleet, pool.processes⟩

inductive VaultAction where
  /-- A request about a run, or a job of one. -/
  | runs (a : Action FleetTask Call Call.Answer Exn)
  /-- A request of a user about the graph. -/
  | graph (userId : UUID) (op : Op)

abbrev VaultTransition := Transition VaultPool VaultAction

/-- A step of the runs, or a request about the graph. -/
inductive VaultStep (deps : Deps) (jsonb : Attributes → Attributes) :
    VaultPool → VaultAction → VaultPool → Prop
  | runs {pool pool' : VaultPool} {a : Action FleetTask Call Call.Answer Exn} :
      Pool.Step (FleetTask.body deps) (vault jsonb) arrivesVault pool a pool' →
      VaultStep deps jsonb pool (.runs a) pool'
  | graph {w : Vault} {ps : List FleetProcess} (clock : Clock) {userId : UUID} {op : Op} :
      op.Fresh w.graph →
      VaultStep deps jsonb ⟨w, ps⟩ (.graph userId op)
        ⟨{ w with graph := (op.run w.graph clock userId).1 }, ps⟩

/-- On whose behalf the graph is used. -/
def VaultAction.actor : VaultAction → Option UUID
  | .graph userId _ => some userId
  | .runs (.call _ _ ⟨.graph c, _⟩) => some c.ownerId
  | .runs _ => none

/-! ## What a call does to the graph -/

section Calls

variable {g g' : Graph} {c : GraphCall}

/-- A call of a job is an operation of its owner that adds private records, or changes nothing. -/
theorem GraphCall.Effect.op {r : Except Exn c.Answer} (effect : c.Effect g r g') (priv : c.Private) :
    g' = g ∨ ∃ (op : Op) (clock : Clock), op.Adds .empty ∧ op.Fresh g ∧
      g' = (op.run g clock c.ownerId).1 := by
  have absent : ∀ id, ¬Graph.empty.Has id := fun id ⟨_, mem, _⟩ => by cases mem
  cases c with
  | createEntity ownerId visibility name kind attributes =>
      obtain ⟨data, hidden, rfl, rfl, rfl, rfl⟩ := priv
      obtain ⟨now, id, fresh, -, rfl⟩ := effect
      exact .inr ⟨.createEntity id data, fun _ => now, hidden, fresh, rfl⟩
  | attachSources ownerId entityId urls =>
      obtain ⟨clock, -, rfl⟩ := effect
      exact .inr ⟨.attachSources entityId urls, clock, absent entityId, trivial, rfl⟩
  | createRelationship ownerId data =>
      obtain ⟨clock, id, fresh, -, rfl⟩ := effect
      exact .inr ⟨.createRelationship id data, clock, priv, fresh, rfl⟩
  | setEntityEmbedding ownerId entityId embedding =>
      exact .inr ⟨.setEntityEmbedding entityId embedding, fun _ => 0, absent entityId, trivial,
        effect.2⟩
  | searchEntitiesByVector _ _ _ | listGraph _ | listVisibleRelationshipsAmong _ _ =>
      exact .inl effect

/-- The same of a call that may raise. -/
theorem onGraph_op {r : Except Exn c.Answer} (answer : onGraph (.graph c) g r g')
    (priv : c.Private) : g' = g ∨ ∃ (op : Op) (clock : Clock), op.Adds .empty ∧ op.Fresh g ∧
      g' = (op.run g clock c.ownerId).1 := by
  rcases answer with effect | ⟨-, kept | ⟨_, effect⟩⟩
  · exact effect.op priv
  · exact .inl kept
  · exact effect.op priv

/-- Any other call leaves the graph alone. -/
theorem onGraph_other {c : Call} {r : Except Exn c.Answer} (answer : onGraph c g r g')
    (other : ∀ gc, c ≠ .graph gc) : g' = g := by
  cases c with
  | graph gc => exact absurd rfl (other gc)
  | _ => exact answer

end Calls

/-! ## The vault along a schedule -/

/-- What the graph service does, with the id and the time that are drawn; `none` where the id is
taken. -/
def GraphCall.respond (draw : Draw) : (c : GraphCall) → Graph → Option (Except Exn c.Answer × Graph)
  | .createEntity ownerId visibility name kind attributes, g =>
      if ∀ e ∈ g.entities, e.id ≠ draw.newId then
        let made := Cypher.createEntity g draw.now draw.newId ownerId visibility name kind attributes
        some (.ok (Service.entity made.2 []), made.1)
      else none
  | .attachSources ownerId entityId urls, g =>
      some (.ok (), Service.attachSources g (fun _ => draw.now) ownerId entityId urls)
  | .createRelationship ownerId data, g =>
      if ∀ r ∈ g.relationships, r.id ≠ draw.newId then
        let made := Service.createRelationship g (fun _ => draw.now) ownerId draw.newId data
        some (made.2.mapError .http, made.1)
      else none
  | .setEntityEmbedding ownerId entityId embedding, g =>
      let made := Service.setEntityEmbedding g ownerId entityId embedding
      some (made.2.mapError .http, made.1)
  | .searchEntitiesByVector _ _ _, g => some (.error .timeout, g)
  | .listGraph ownerId, g => some (.ok (Service.listGraph g ownerId), g)
  | .listVisibleRelationshipsAmong ownerId entityIds, g =>
      some (.ok (Service.listVisibleRelationshipsAmong g ownerId entityIds), g)

theorem GraphCall.respond_effect {draw : Draw} {c : GraphCall} {g g' : Graph}
    {r : Except Exn c.Answer} (answered : c.respond draw g = some (r, g')) : c.Effect g r g' := by
  cases c with
  | createEntity ownerId visibility name kind attributes =>
      simp only [respond, Option.ite_none_right_eq_some, Option.some.injEq] at answered
      obtain ⟨fresh, answered⟩ := answered
      cases answered
      exact ⟨draw.now, draw.newId, fresh, rfl, rfl⟩
  | createRelationship ownerId data =>
      simp only [respond, Option.ite_none_right_eq_some, Option.some.injEq] at answered
      obtain ⟨fresh, answered⟩ := answered
      cases answered
      exact ⟨fun _ => draw.now, draw.newId, fresh, rfl, rfl⟩
  | attachSources ownerId entityId urls =>
      cases answered
      exact ⟨fun _ => draw.now, rfl, rfl⟩
  | setEntityEmbedding ownerId entityId embedding =>
      cases answered
      exact ⟨rfl, rfl⟩
  | searchEntitiesByVector _ _ _ | listGraph _ | listVisibleRelationshipsAmong _ _ =>
      cases answered
      rfl

def Choice.respondVault (choice : Choice) : (c : Call) → Vault → Option (Except Exn c.Answer × Vault)
  | .graph c, w => (c.respond choice.draw w.graph).map fun (r, g) => (r, { w with graph := g })
  | c, w => (choice.respondFleet c w.fleet).map fun (r, f) => (r, { w with fleet := f })

def arriveVault (w : Vault) (k : FleetTask) : Option Vault :=
  (arriveFleet w.fleet k).map fun f => { w with fleet := f }

inductive VaultMove where
  | runs (m : Pool.Move FleetTask Choice)
  | graph (userId : UUID) (op : Op) (now : Time)

def VaultPool.move (deps : Deps) (pool : VaultPool) : VaultMove → Option (VaultAction × VaultPool)
  | .runs m =>
      (Pool.move (FleetTask.body deps) arriveVault Choice.respondVault pool m).map
        fun (a, next) => (.runs a, next)
  | .graph userId op now =>
      if op.Fresh pool.world.graph then
        some (.graph userId op, ⟨{ pool.world with
          graph := (op.run pool.world.graph (fun _ => now) userId).1 }, pool.processes⟩)
      else none

theorem respondVault_vault {choice : Choice} {c : Call} {w w' : Vault} {r : Except Exn c.Answer}
    (answered : choice.respondVault c w = some (r, w')) : vault id c w r w' := by
  have other : (∀ gc, c ≠ .graph gc) → choice.respondVault c w =
      (choice.respondFleet c w.fleet).map fun (r, f) => (r, { w with fleet := f }) := by
    intro other
    cases c with
    | graph gc => exact absurd rfl (other gc)
    | _ => rfl
  by_cases graph : ∃ gc, c = .graph gc
  · obtain ⟨gc, rfl⟩ := graph
    obtain ⟨⟨r', g⟩, responded, same⟩ := Option.map_eq_some_iff.mp answered
    cases same
    exact ⟨rfl, .inl (GraphCall.respond_effect responded)⟩
  · have none : ∀ gc, c ≠ .graph gc := fun gc here => graph ⟨gc, here⟩
    rw [other none] at answered
    obtain ⟨⟨r', f⟩, responded, same⟩ := Option.map_eq_some_iff.mp answered
    cases same
    refine ⟨respondFleet_fleet responded, ?_⟩
    cases c with
    | graph gc => exact absurd rfl (none gc)
    | _ => rfl

theorem VaultPool.move_step {deps : Deps} {pool pool' : VaultPool} {m : VaultMove} {a : VaultAction}
    (moved : pool.move deps m = some (a, pool')) : VaultStep deps id pool a pool' := by
  cases m with
  | runs m =>
      obtain ⟨⟨a', next⟩, played, same⟩ := Option.map_eq_some_iff.mp moved
      cases same
      refine .runs (Pool.move_step (fun w k w' arrived => ?_)
        (fun _ _ _ _ _ => respondVault_vault) played)
      obtain ⟨f, came, same⟩ := Option.map_eq_some_iff.mp arrived
      cases same
      exact ⟨arriveFleet_arrives came, rfl⟩
  | graph userId op now =>
      simp only [move, Option.ite_none_right_eq_some, Option.some.injEq] at moved
      obtain ⟨fresh, moved⟩ := moved
      cases moved
      exact .graph (fun _ => now) fresh

/-! ## A note is published while a run is committed -/

/-- The reviewer drafts a note that cites the published one. -/
def revision : AgentRunReview :=
  { decision := .approve
    entities := some [
      { tempId := "t1", name := .of "draft" (Eq.refl true), kind := .of "text" (Eq.refl true) }]
    relationships := some [{ fromRef := "t1", toRef := uuidStr 10, kind := .of "cites" (Eq.refl true) }] }

/-- The first user's run is researched, parked and revised. -/
def revising : List (Pool.Move FleetTask Choice) :=
  [.start (.create 1 (.of "notes" (Eq.refl true))), .call 0 { draw := ⟨7, 0⟩ }, .call 0 {}, .call 0 {},
    .start (.job (.runAgent 7))] ++ List.replicate 32 (.call 1 {}) ++
    .start (.review 1 7 revision) :: List.replicate 5 (.call 2 {})

/-- The second user publishes a note before that. -/
def publishing : List VaultMove :=
  .graph 2 (.createEntity 10 publicNote) 1 :: revising.map .runs

/-- The run is committed. -/
def committingRun : List VaultMove :=
  (.start (.job (.commitAgentRun 7)) ::
    (List.range 14).map fun i => Pool.Move.call 3 { draw := ⟨40 + i, 5⟩ }).map .runs

def VaultPool.play (check : VaultTransition → Bool) : VaultPool → List VaultMove → Option VaultPool :=
  History.follow (VaultPool.move quietDeps) check

theorem VaultPool.play_history {check : VaultTransition → Bool} {pool pool' : VaultPool}
    {moves : List VaultMove} (played : pool.play check moves = some pool') :
    ∃ tr, History (VaultStep quietDeps id) pool tr pool' ∧ ∀ x ∈ tr, check x = true := by
  have sound : ∀ s m l s', VaultPool.move quietDeps s m = some (l, s') →
      VaultStep quietDeps id s l s' := fun _ _ _ _ => VaultPool.move_step
  exact History.follow_history sound .start (List.forall_mem_nil _) played

/-- How much the graph holds. -/
def VaultPool.size (pool : VaultPool) : Nat × Nat :=
  (pool.world.graph.entities.length, pool.world.graph.relationships.length)

/-! ## The invariant -/

/-- Every process attends to its own run, and the graph is as the graph service makes it. -/
structure VaultPool.Inv (deps : Deps) (pool : VaultPool) : Prop where
  attended : Attended deps pool.fleet
  graph : Reachable pool.world.graph

/-- What one step does to the graph. -/
structure Contained (x : VaultTransition) : Prop where
  /-- It stays one that requests alone could have made. -/
  reachable : Reachable x.target.world.graph
  /-- Whoever it is not done for keeps their records. -/
  spared : ∀ v, x.label.actor ≠ some v → Spared v x.source.world.graph x.target.world.graph
  /-- A run only ever adds to it, privately, and for the user who owns the run. -/
  added : ∀ a, x.label = .runs a → x.target.world.graph = x.source.world.graph ∨
    ∃ k past c r runId, a = .call k past ⟨.graph c, r⟩ ∧
      x.source.world.fleet.Owns c.ownerId runId ∧ k.On runId c.ownerId ∧
        Added c.ownerId x.source.world.graph x.target.world.graph

section Runs

variable {deps : Deps} {jsonb : Attributes → Attributes} {pool pool' : VaultPool}
  {a : VaultAction} {tr : List VaultTransition}

theorem VaultPool.Inv.empty : VaultPool.empty.Inv deps := ⟨.empty, .empty⟩

/-- A graph call of a process is for the owner of its run, and what it creates is private. -/
theorem Attends.onGraph {w : Fleet} {k : FleetTask} {past : List (Event Call Call.Answer Exn)}
    {c : GraphCall} {f : Except Exn c.Answer → Coroutine Unit}
    (attends : Attends deps w ⟨k, past, .call (.graph c) f⟩) :
    c.Private ∧ ∃ runId, w.Owns c.ownerId runId ∧ k.On runId c.ownerId := by
  rcases attends.call with first | ⟨id, P, owners, inside, priv⟩
  · cases k <;> cases first
  · exact ⟨priv, id, owners _ inside⟩

/-- A step of the vault is one of its runs, or does not touch them. -/
theorem VaultStep.fleet (step : VaultStep deps jsonb pool a pool') :
    pool'.fleet = pool.fleet ∨ ∃ a', FleetStep deps jsonb pool.fleet a' pool'.fleet := by
  cases step with
  | runs moved =>
      exact .inr ⟨_, Pool.Step.through Vault.fleet moved (fun _ _ _ _ answer => answer.1)
        fun _ _ _ spawned => spawned.1⟩
  | graph _ _ => exact .inl rfl

theorem VaultPool.Inv.contained (inv : pool.Inv deps) (step : VaultStep deps jsonb pool a pool') :
    Contained ⟨pool, a, pool'⟩ := by
  have wf := inv.graph.inv.wf
  have same : ∀ {w w' : Vault} {ps ps' : List FleetProcess} {a}, Reachable w.graph →
      w'.graph = w.graph → Contained ⟨⟨w, ps⟩, .runs a, ⟨w', ps'⟩⟩ := by
    intro w w' ps ps' a reachable kept
    refine ⟨kept ▸ reachable, fun v _ => ?_, fun _ _ => .inl kept⟩
    dsimp only
    rw [kept]
    exact .refl reachable.inv.wf
  cases step with
  | graph clock fresh =>
      exact ⟨inv.graph.call clock _ _ fresh,
        fun v other => .of_run wf fresh fun mine => other (congrArg some mine.symm),
        fun _ label => by cases label⟩
  | runs moved =>
      cases moved with
      | start spawned => exact same inv.graph spawned.2
      | @call w w' before after k past c f r answer =>
          cases c with
          | graph c =>
              have attends := inv.attended.processes ⟨k, past, .call (.graph c) f⟩
                (List.mem_append_right _ List.mem_cons_self)
              obtain ⟨priv, runId, owns, on⟩ := attends.onGraph
              rcases onGraph_op answer.2 priv with kept | ⟨op, clock, adds, fresh, done⟩
              · exact same inv.graph kept
              · have added : Added c.ownerId w.graph (op.run w.graph clock c.ownerId).1 :=
                  adds.added wf fresh
                have reachable := inv.graph.call clock c.ownerId op fresh
                have spared : ∀ v, v ≠ c.ownerId → Spared v w.graph (op.run w.graph clock c.ownerId).1 :=
                  fun v other => .of_run wf fresh other
                rw [← done] at added reachable spared
                refine ⟨reachable, fun v other => spared v fun mine => other (congrArg some mine.symm),
                  fun a label => ?_⟩
                cases label
                exact .inr ⟨k, past, c, r, runId, rfl, owns, on, added⟩
          | _ => exact same inv.graph (onGraph_other answer.2 fun _ other => by cases other)

theorem VaultPool.Inv.next (inv : pool.Inv deps) (step : VaultStep deps jsonb pool a pool') :
    pool'.Inv deps := by
  refine ⟨?_, (inv.contained step).reachable⟩
  rcases step.fleet with same | ⟨a', moved⟩
  · rw [same]
    exact inv.attended
  · exact inv.attended.next moved

/-- **The graph is shared safely.**  In every interleaving of all users' graph requests with all
users' run requests and all jobs, call by call: the graph stays one that the graph service alone
could have made, so that all that holds of those graphs holds of it; every step leaves the
entities of everybody but the one it is done for as they are; and a job does nothing but add
private records of the owner of its run. -/
theorem vault_contained (history : History (VaultStep deps jsonb) VaultPool.empty tr pool) :
    ∀ x ∈ tr, Contained x := by
  have each : ∀ x ∈ tr, (fun _ => True) x := fun _ _ => trivial
  have start : VaultPool.empty.Inv deps := .empty
  have visits := history.visits each start fun _ _ _ inv _ step => inv.next step
  intro x mem
  obtain ⟨inv, step, -⟩ := visits x mem
  exact inv.contained step

theorem vault_contained_committing : ∃ (tr : List VaultTransition) (pool : VaultPool),
    History (VaultStep quietDeps id) VaultPool.empty tr pool ∧ pool.size = (2, 1) ∧
      ∀ x ∈ tr, Contained x := by
  have committed : (VaultPool.empty.play (fun _ => true) (publishing ++ committingRun)).map
      VaultPool.size = some (2, 1) := by decide
  obtain ⟨pool, played, size⟩ := Option.map_eq_some_iff.mp committed
  obtain ⟨tr, history, -⟩ := VaultPool.play_history played
  exact ⟨tr, pool, history, size, vault_contained history⟩

/-- **Nobody is disturbed by the others.**  From any moment on, as long as nothing is done for a
user, this user's entities stay exactly as they are, sources and embeddings included; and as
long as the others send no graph requests of their own, whatever their runs do, the user is
shown the same entities and edges, but for the sources. -/
theorem vault_private {v : UUID} {before rest : List VaultTransition} {later : VaultPool}
    (history : History (VaultStep deps jsonb) VaultPool.empty before pool)
    (others : History (VaultStep deps jsonb) pool rest later)
    (quiet : ∀ x ∈ rest, x.label.actor ≠ some v) :
    Spared v pool.world.graph later.world.graph ∧
      ((∀ x ∈ rest, ∀ u op, x.label ≠ .graph u op) →
        (Service.listGraph later.world.graph v).unsourced =
          (Service.listGraph pool.world.graph v).unsourced) := by
  have each : ∀ x ∈ before, (fun _ => True) x := fun _ _ => trivial
  have start : VaultPool.empty.Inv deps := .empty
  have inv := history.invariant each start fun _ _ _ inv _ step => inv.next step
  have all : ∀ x ∈ rest, (fun _ => True) x := fun _ _ => trivial
  have visits := others.visits all inv fun _ _ _ inv _ step => inv.next step
  clear each start all
  induction others with
  | start => exact ⟨.refl inv.graph.inv.wf, fun _ => rfl⟩
  | @next tr t u a _ step ih =>
      rw [forall_mem_snoc] at quiet visits
      obtain ⟨spared, shown⟩ := ih quiet.1 visits.1
      have contained := visits.2.1.contained step
      refine ⟨spared.trans (contained.spared v quiet.2), fun runs => ?_⟩
      rw [forall_mem_snoc] at runs
      refine Eq.trans ?_ (shown runs.1)
      cases a with
      | graph userId op => exact absurd rfl (runs.2 userId op)
      | runs a =>
          rcases contained.added a rfl with kept | ⟨k, past, c, r, _, rfl, -, -, added⟩
          · rw [kept]
          · exact added.listGraph fun mine => quiet.2 (congrArg some mine.symm)

/-- The second user's graph stays as it is while the first user's run is committed. -/
def VaultTransition.apart (x : VaultTransition) : Bool :=
  match x.label with
  | .runs _ => x.label.actor ≠ some 2
  | .graph _ _ => false

theorem vault_private_committing : ∃ (before rest : List VaultTransition) (pool later : VaultPool),
    History (VaultStep quietDeps id) VaultPool.empty before pool ∧
      History (VaultStep quietDeps id) pool rest later ∧ pool.size = (1, 0) ∧ later.size = (2, 1) ∧
      Spared 2 pool.world.graph later.world.graph ∧
      (Service.listGraph later.world.graph 2).unsourced =
        (Service.listGraph pool.world.graph 2).unsourced := by
  have published : (VaultPool.empty.play (fun _ => true) publishing).map VaultPool.size =
      some (1, 0) := by decide
  obtain ⟨pool, played, size⟩ := Option.map_eq_some_iff.mp published
  obtain ⟨before, history, -⟩ := VaultPool.play_history played
  have committed : (VaultPool.empty.play (fun _ => true) publishing).bind (fun pool =>
      (pool.play VaultTransition.apart committingRun).map VaultPool.size) = some (2, 1) := by decide
  rw [played, Option.bind_some] at committed
  obtain ⟨later, done, grown⟩ := Option.map_eq_some_iff.mp committed
  obtain ⟨rest, others, apart⟩ := VaultPool.play_history done
  have quiet : ∀ x ∈ rest, x.label.actor ≠ some 2 := by
    intro x mem acts
    have passed := apart x mem
    rw [VaultTransition.apart] at passed
    split at passed
    · exact of_decide_eq_true passed acts
    · cases passed
  have silent : ∀ x ∈ rest, ∀ u op, x.label ≠ .graph u op := by
    intro x mem u op asked
    have passed := apart x mem
    rw [VaultTransition.apart, asked] at passed
    cases passed
  obtain ⟨spared, shown⟩ := vault_private history others quiet
  exact ⟨before, rest, pool, later, history, others, size, grown, spared, shown silent⟩

end Runs

end Intellivault.Agent
