import Intellivault.Lib.Logs
import Intellivault.Agent.Enrichment

/-!
# What a commit conserves

`commit_node` keeps two records side by side: the lists it returns, and the appends to the row.
A `Tally` counts both on the log of calls: what the graph service created, and what was
appended.  Draft by draft they stay in step, and `enrich_node` goes on with the same lists.
-/

namespace Intellivault.Agent

open Lib Prog

/-! ## The tally of a log -/

/-- An entity the graph service created, with the parameters it was created from. -/
structure Creation where
  ownerId : UUID
  visibility : Visibility
  name : String
  kind : String
  attributes : Attributes
  entity : Entity

namespace Creation

def id (c : Creation) : UUID := c.entity.id

def digest (c : Creation) : DigestEntity := ⟨c.entity.id, c.entity.name, c.entity.kind⟩

end Creation

/-- What was created, and what was appended to the record of the run. -/
@[ext] structure Tally where
  created : List Creation := []
  edges : List UUID := []
  entityAppends : List UUID := []
  edgeAppends : List UUID := []

instance : Append Tally where
  append t u :=
    ⟨t.created ++ u.created, t.edges ++ u.edges, t.entityAppends ++ u.entityAppends,
      t.edgeAppends ++ u.edgeAppends⟩

section

variable (t u : Tally)

@[simp] theorem tally_append_created : (t ++ u).created = t.created ++ u.created := rfl

@[simp] theorem tally_append_edges : (t ++ u).edges = t.edges ++ u.edges := rfl

@[simp] theorem tally_append_entityAppends :
    (t ++ u).entityAppends = t.entityAppends ++ u.entityAppends := rfl

@[simp] theorem tally_append_edgeAppends : (t ++ u).edgeAppends = t.edgeAppends ++ u.edgeAppends := rfl

@[simp] theorem tally_append_none : t ++ ({} : Tally) = t := by ext1 <;> simp

@[simp] theorem tally_none_append : ({} : Tally) ++ t = t := rfl

end

def tallyOf : Event Call Call.Answer Exn → Tally
  | ⟨.graph (.createEntity ownerId visibility name kind attributes), .ok entity⟩ =>
      { created := [⟨ownerId, visibility, name, kind, attributes, entity⟩] }
  | ⟨.graph (.createRelationship _ _), .ok rel⟩ => { edges := [rel.id] }
  | ⟨.sql (.appendCommittedEntity _ id), _⟩ => { entityAppends := [id] }
  | ⟨.sql (.appendCommittedRelationship _ id), _⟩ => { edgeAppends := [id] }
  | _ => {}

def tally : CallLog → Tally
  | [] => {}
  | e :: log => tallyOf e ++ tally log

@[simp] theorem tally_nil : tally [] = {} := rfl

@[simp] theorem tally_cons (e : Event Call Call.Answer Exn) (log : CallLog) :
    tally (e :: log) = tallyOf e ++ tally log := rfl

@[simp] theorem tally_append (log log' : CallLog) : tally (log ++ log') = tally log ++ tally log' := by
  induction log with
  | nil => rfl
  | cons e log ih =>
      rw [List.cons_append, tally_cons, tally_cons, ih]
      ext1 <;> simp

/-- An append is to the row of the run, and takes place. -/
def Recorded (runId : UUID) : Event Call Call.Answer Exn → Prop
  | ⟨.sql (.appendCommittedEntity id _), r⟩ => id = runId ∧ r = .ok ()
  | ⟨.sql (.appendCommittedRelationship id _), r⟩ => id = runId ∧ r = .ok ()
  | _ => True

/-- A call that creates and appends nothing. -/
def Call.Silent : Call → Prop
  | .graph (.createEntity _ _ _ _ _) | .graph (.createRelationship _ _)
  | .sql (.appendCommittedEntity _ _) | .sql (.appendCommittedRelationship _ _) => False
  | _ => True

theorem Call.Research.silent {c : Call} (h : c.Research) : c.Silent := by
  cases c with
  | graph c => cases c <;> first | trivial | exact (h trivial).elim
  | sql q => exact h.elim
  | _ => trivial

theorem silent_event {c : Call} (silent : c.Silent) (r : Except Exn c.Answer) (runId : UUID) :
    tallyOf ⟨c, r⟩ = {} ∧ Recorded runId ⟨c, r⟩ := by
  cases c with
  | graph c => cases c <;> first | exact ⟨rfl, trivial⟩ | exact silent.elim
  | sql q => cases q <;> first | exact ⟨rfl, trivial⟩ | exact silent.elim
  | _ => exact ⟨rfl, trivial⟩

theorem silent_log {log : CallLog} (runId : UUID) (silent : ∀ e ∈ log, e.1.Silent) :
    tally log = {} ∧ ∀ e ∈ log, Recorded runId e := by
  induction log with
  | nil => exact ⟨rfl, List.forall_mem_nil _⟩
  | cons e log ih =>
      obtain ⟨here, later⟩ := List.forall_mem_cons.mp silent
      obtain ⟨none, recorded⟩ := silent_event here e.2 runId
      obtain ⟨none', recorded'⟩ := ih later
      exact ⟨by rw [tally_cons, none, none', tally_append_none],
        List.forall_mem_cons.mpr ⟨recorded, recorded'⟩⟩

/-! ## The drafts, one by one -/

/-- The graph creates each entity and records each append; an edge it may reject; everything
else may raise, short of a cancellation. -/
def CommitAnswer : Event Call Call.Answer Exn → Prop
  | ⟨.graph (.createEntity _ _ _ _ _), r⟩ => ∃ entity, r = .ok entity
  | ⟨.graph (.createRelationship _ _), r⟩ => ∀ x, r = .error x → x.isHttp
  | ⟨.sql (.appendCommittedEntity _ _), r⟩ => r = .ok ()
  | ⟨.sql (.appendCommittedRelationship _ _), r⟩ => r = .ok ()
  | e => Uncancelled e

/-- The entity was created privately, with the draft's name, kind and attributes. -/
def MadeFrom (ownerId : UUID) (draft : DraftEntity) (c : Creation) : Prop :=
  c.ownerId = ownerId ∧ c.visibility = .priv ∧ c.name = draft.name.val ∧ c.kind = draft.kind.val ∧
    c.attributes = Json.sortKeysObj draft.attributes

/-- The drafts that name no entity. -/
def unlinked (drafts : List DraftEntity) : List DraftEntity := drafts.filter (·.existingId = none)

/-- The drafts that name no entity are those that were created, in their order; each creation
was appended to the row and to the list. -/
structure EntitiesKept (ownerId : UUID) (drafts : List DraftEntity) (loop loop' : EntityLoop)
    (t : Tally) : Prop where
  made : List.Forall₂ (MadeFrom ownerId) (unlinked drafts) t.created
  edges : t.edges = [] ∧ t.edgeAppends = []
  appends : t.entityAppends = t.created.map (·.id)
  committed : loop'.committed = loop.committed ++ t.created.map (·.id)
  digests : loop'.created = loop.created ++ t.created.map (·.digest)
  notes : ∃ notes, loop'.skipped = loop.skipped ++ notes

/-- How one of the loops ends: with its account of the tally, or because some call was not
answered as a commit expects. -/
def LoopDone (runId : UUID) {σ : Type} (account : σ → Tally → Prop) (log : CallLog) :
    Except Exn σ → Prop
  | .ok loop' => (∀ e ∈ log, Recorded runId e) ∧ account loop' (tally log)
  | .error _ => ∃ e ∈ log, ¬CommitAnswer e

section LoopDone

variable {runId : UUID} {σ τ : Type} {P P' : σ → Tally → Prop} {Q : τ → Tally → Prop}

theorem LoopDone.ret {a : σ} (holds : P a {}) : LoopDone runId P [] (.ok a) :=
  ⟨List.forall_mem_nil _, holds⟩

theorem LoopDone.mono {log : CallLog} {r : Except Exn σ} (weaken : ∀ a t, P a t → P' a t)
    (done : LoopDone runId P log r) : LoopDone runId P' log r := by
  cases r with
  | ok a => exact ⟨done.1, weaken a _ done.2⟩
  | error x => exact done

/-- A call that answers, as a commit expects. -/
theorem loopDone_call {c : Call} (expected : ∀ x, ¬CommitAnswer ⟨c, .error x⟩)
    (recorded : ∀ a, Recorded runId ⟨c, .ok a⟩) :
    (call c).Logs (fun _ => True) (LoopDone runId fun a t => t = tallyOf ⟨c, .ok a⟩) := by
  refine logs_perform.mpr fun r _ => ?_
  cases r with
  | ok a =>
      refine ⟨List.forall_mem_singleton.mpr (recorded a), ?_⟩
      rw [tally_cons, tally_nil, tally_append_none]
  | error x => exact ⟨_, List.mem_singleton_self _, expected x⟩

/-- The rule of sequential composition. -/
theorem loopDone_bind {p : Coroutine σ} {f : σ → Coroutine τ}
    (first : p.Logs (fun _ => True) (LoopDone runId P))
    (rest : ∀ a t, P a t → (f a).Logs (fun _ => True) (LoopDone runId fun b u => Q b (t ++ u))) :
    (p >>= f).Logs (fun _ => True) (LoopDone runId Q) := by
  refine logs_bind.mpr (first.mono fun log r done => ?_)
  cases r with
  | error x => exact done
  | ok a =>
      obtain ⟨recorded, here⟩ := done
      refine (rest a _ here).mono fun log' r done => ?_
      cases r with
      | error x =>
          obtain ⟨e, mem, unexpected⟩ := done
          exact ⟨e, List.mem_append_right _ mem, unexpected⟩
      | ok b =>
          obtain ⟨recorded', there⟩ := done
          refine ⟨List.forall_mem_append.mpr ⟨recorded, recorded'⟩, ?_⟩
          rwa [tally_append]

end LoopDone

section Entities

variable {ownerId runId entityId : UUID} {urls skipped : List String} {draft : DraftEntity}
  {loop loop' loop'' : EntityLoop} {t u : Tally}

theorem EntitiesKept.append {drafts drafts' : List DraftEntity}
    (first : EntitiesKept ownerId drafts loop loop' t)
    (second : EntitiesKept ownerId drafts' loop' loop'' u) :
    EntitiesKept ownerId (drafts ++ drafts') loop loop'' (t ++ u) := by
  obtain ⟨notes, before⟩ := first.notes
  obtain ⟨notes', after⟩ := second.notes
  constructor
  · rw [unlinked, List.filter_append]
    exact List.rel_append first.made second.made
  · simp [first.edges, second.edges]
  · simp [first.appends, second.appends]
  · simp [second.committed, first.committed]
  · simp [second.digests, first.digests]
  · exact ⟨notes ++ notes', by rw [after, before, List.append_assoc]⟩

/-- A call that may fail: what it raises is caught, and noted. -/
theorem noted_logs {p : Coroutine (List String)} {note : Exn → String}
    (calls : p.Logs (fun _ => True) fun log r => (∀ e ∈ log, e.1.Silent) ∧ match r with
      | .ok skipped' => skipped' = skipped
      | .error x => x.isException ∨ ∃ e ∈ log, ¬CommitAnswer e) :
    (tryExcept Exn.isException p fun x => return skipped ++ [note x]).Logs (fun _ => True)
      (LoopDone runId fun skipped' t => t = {} ∧ ∃ notes, skipped' = skipped ++ notes) := by
  refine logs_handle.mpr (calls.mono fun log r ⟨silent, ended⟩ => ?_)
  obtain ⟨none, recorded⟩ := silent_log runId silent
  cases r with
  | ok skipped' => exact ⟨recorded, none, [], by rw [ended, List.append_nil]⟩
  | error x =>
      dsimp only
      split
      · refine ⟨?_, ?_, [note x], rfl⟩
        · rwa [List.append_nil]
        · rwa [List.append_nil]
      · rename_i escapes
        obtain ⟨e, mem, unexpected⟩ := ended.resolve_left escapes
        exact ⟨e, List.mem_append_left _ mem, unexpected⟩

theorem attachSources_logs (runId : UUID) :
    (attachSources ownerId entityId urls skipped).Logs (fun _ => True)
      (LoopDone runId fun skipped' t => t = {} ∧ ∃ notes, skipped' = skipped ++ notes) := by
  refine noted_logs (logs_bind.mpr (logs_perform.mpr fun r _ => ?_))
  cases r with
  | ok u => exact ⟨List.forall_mem_singleton.mpr trivial, rfl⟩
  | error x =>
      refine ⟨List.forall_mem_singleton.mpr trivial, or_iff_not_imp_left.mpr fun escapes => ?_⟩
      exact ⟨_, List.mem_singleton_self _, fun answer => escapes (answer x rfl)⟩

theorem embedEntity_logs (runId : UUID) :
    (embedEntity ownerId entityId draft skipped).Logs (fun _ => True)
      (LoopDone runId fun skipped' t => t = {} ∧ ∃ notes, skipped' = skipped ++ notes) := by
  refine noted_logs (logs_bind.mpr (logs_perform.mpr fun r _ => ?_))
  cases r with
  | error x =>
      refine ⟨List.forall_mem_singleton.mpr trivial, or_iff_not_imp_left.mpr fun escapes => ?_⟩
      exact ⟨_, List.mem_singleton_self _, fun answer => escapes (answer x rfl)⟩
  | ok vector =>
      refine logs_bind.mpr (logs_perform.mpr fun r _ => ?_)
      have silent : ∀ e ∈ [(⟨.embed (embedText draft), .ok vector⟩ : Event Call Call.Answer Exn),
          ⟨.graph (.setEntityEmbedding ownerId entityId vector), r⟩], e.1.Silent := by
        simp [Call.Silent]
      cases r with
      | error x =>
          refine ⟨silent, or_iff_not_imp_left.mpr fun escapes => ?_⟩
          exact ⟨_, List.mem_cons_of_mem _ (List.mem_singleton_self _),
            fun answer => escapes (answer x rfl)⟩
      | ok u => exact ⟨silent, rfl⟩

/-- **One draft.**  It is created, appended and listed, unless it names an entity. -/
theorem commitEntity_logs :
    (commitEntity ownerId runId urls draft loop).Logs (fun _ => True)
      (LoopDone runId (EntitiesKept ownerId [draft] loop)) := by
  unfold commitEntity
  split
  · rename_i id linked
    have none : unlinked [draft] = [] := by simp [unlinked, linked]
    refine .ret ⟨?_, ⟨rfl, rfl⟩, rfl, ?_, ?_, [], ?_⟩
    · rw [none]
      exact .nil
    all_goals exact (List.append_nil _).symm
  · rename_i unnamed
    have one : unlinked [draft] = [draft] := by simp [unlinked, unnamed]
    refine loopDone_bind (loopDone_call nofun fun _ => trivial) fun entity t created => ?_
    refine loopDone_bind (loopDone_call nofun fun _ => ⟨rfl, rfl⟩) fun _ u appended => ?_
    have attached : (if urls ≠ [] then attachSources ownerId entity.id urls loop.skipped
        else pure loop.skipped).Logs (fun _ => True)
        (LoopDone runId fun skipped' t => t = {} ∧ ∃ notes, skipped' = loop.skipped ++ notes) := by
      split
      · exact attachSources_logs runId
      · exact .ret ⟨rfl, [], (List.append_nil _).symm⟩
    refine loopDone_bind attached fun skipped v ⟨silent, notes, before⟩ => ?_
    refine loopDone_bind (embedEntity_logs runId) fun skipped' w ⟨silent', notes', after⟩ => ?_
    subst created appended silent silent'
    refine .ret ⟨?_, ⟨rfl, rfl⟩, rfl, rfl, rfl, notes ++ notes', ?_⟩
    · rw [one]
      exact .cons ⟨rfl, rfl, rfl, rfl, rfl⟩ .nil
    · rw [after, before, List.append_assoc]

theorem commitEntities_logs (drafts : List DraftEntity) :
    (commitEntities ownerId runId urls drafts loop).Logs (fun _ => True)
      (LoopDone runId (EntitiesKept ownerId drafts loop)) := by
  induction drafts generalizing loop with
  | nil =>
      refine .ret ⟨.nil, ⟨rfl, rfl⟩, rfl, ?_, ?_, [], ?_⟩
      all_goals exact (List.append_nil _).symm
  | cons draft rest ih =>
      exact loopDone_bind commitEntity_logs fun loop' t kept =>
        ih.mono fun log r done => done.mono fun loop'' u kept' => kept.append kept'

end Entities

/-! ## The edges, one by one -/

/-- What became of an edge: its id, or a note. -/
abbrev Outcome := UUID ⊕ String

def outcomeIds (outcomes : List Outcome) : List UUID := outcomes.filterMap Sum.getLeft?

def outcomeNotes (outcomes : List Outcome) : List String := outcomes.filterMap Sum.getRight?

/-- Each outcome is in one of the loop's lists, in order; the ids are those of the edges that
were created and appended. -/
structure EdgesKept (loop loop' : EdgeLoop) (t : Tally) (outcomes : List Outcome) : Prop where
  entities : t.created = [] ∧ t.entityAppends = []
  edges : t.edges = outcomeIds outcomes
  appends : t.edgeAppends = outcomeIds outcomes
  committed : loop'.committed = loop.committed ++ outcomeIds outcomes
  skipped : loop'.skipped = loop.skipped ++ outcomeNotes outcomes

/-- A note on the edge says which edge it is about. -/
def IsOutcome (label : String) : Outcome → Prop
  | .inl _ => True
  | .inr note => ∃ reason, note = label ++ ": " ++ reason

/-- `relationship <from>-><to>` -/
def DraftRelationship.label (edge : DraftRelationship) : String :=
  "relationship " ++ edge.fromRef ++ "->" ++ edge.toRef

section Edges

variable {ownerId runId fromId toId : UUID} {kind : Kind} {label : String} {idMap : IdMap}
  {loop loop' loop'' : EdgeLoop} {t u : Tally}

theorem EdgesKept.none : EdgesKept loop loop {} [] :=
  ⟨⟨rfl, rfl⟩, rfl, rfl, (List.append_nil _).symm, (List.append_nil _).symm⟩

theorem EdgesKept.append {outcomes outcomes' : List Outcome}
    (first : EdgesKept loop loop' t outcomes) (second : EdgesKept loop' loop'' u outcomes') :
    EdgesKept loop loop'' (t ++ u) (outcomes ++ outcomes') := by
  constructor
  · simp [first.entities, second.entities]
  · simp [outcomeIds, first.edges, second.edges]
  · simp [outcomeIds, first.appends, second.appends]
  · simp [outcomeIds, second.committed, first.committed]
  · simp [outcomeNotes, second.skipped, first.skipped]

/-- **One edge.**  It is created, appended and listed, or it is noted. -/
theorem commitEdge_logs :
    (commitEdge ownerId runId fromId toId kind label loop).Logs (fun _ => True)
      (LoopDone runId fun loop' t => ∃ outcome, EdgesKept loop loop' t [outcome] ∧
        IsOutcome label outcome) := by
  refine logs_bind.mpr (logs_handle.mpr (logs_bind.mpr (logs_perform.mpr fun r _ => ?_)))
  cases r with
  | error x =>
      dsimp only
      split
      · rename_i http
        cases x with
        | http x =>
            exact ⟨List.forall_mem_singleton.mpr trivial, .inr (label ++ ": " ++ x.detail),
              ⟨⟨rfl, rfl⟩, rfl, rfl, (List.append_nil _).symm, rfl⟩, _, rfl⟩
        | _ => cases http
      · rename_i foreign
        exact ⟨_, List.mem_singleton_self _, fun answer => foreign (answer x rfl)⟩
  | ok rel =>
      refine logs_bind.mpr (logs_perform.mpr fun r _ => ?_)
      cases r with
      | error x =>
          exact ⟨_, List.mem_cons_of_mem _ (List.mem_singleton_self _), fun same => by cases same⟩
      | ok u =>
          have recorded : ∀ e ∈ [(⟨.graph (.createRelationship ownerId ⟨fromId, toId, kind, .priv⟩),
              .ok rel⟩ : Event Call Call.Answer Exn),
              ⟨.sql (.appendCommittedRelationship runId (RelatedTo.id rel)), .ok u⟩],
              Recorded runId e :=
            List.forall_mem_cons.mpr ⟨trivial, List.forall_mem_singleton.mpr ⟨rfl, rfl⟩⟩
          exact ⟨recorded, .inl (RelatedTo.id rel),
            ⟨⟨rfl, rfl⟩, rfl, rfl, rfl, (List.append_nil _).symm⟩, trivial⟩

theorem commitRelationship_logs {edge : DraftRelationship} :
    (commitRelationship ownerId runId idMap edge loop).Logs (fun _ => True)
      (LoopDone runId fun loop' t => ∃ outcome, EdgesKept loop loop' t [outcome] ∧
        IsOutcome edge.label outcome) := by
  unfold commitRelationship
  dsimp only
  split
  · exact commitEdge_logs
  · exact .ret ⟨.inr (edge.label ++ ": unresolved endpoint"),
      ⟨⟨rfl, rfl⟩, rfl, rfl, (List.append_nil _).symm, rfl⟩, "unresolved endpoint",
      by rw [String.append_assoc]; rfl⟩

theorem commitRelationships_logs (edges : List DraftRelationship) :
    (commitRelationships ownerId runId idMap edges loop).Logs (fun _ => True)
      (LoopDone runId fun loop' t => ∃ outcomes, EdgesKept loop loop' t outcomes ∧
        List.Forall₂ (fun edge => IsOutcome edge.label) edges outcomes) := by
  induction edges generalizing loop with
  | nil => exact .ret ⟨[], .none, .nil⟩
  | cons edge rest ih =>
      exact loopDone_bind commitRelationship_logs fun loop' t ⟨outcome, kept, about⟩ =>
        ih.mono fun log r done => done.mono fun loop'' u ⟨outcomes, kept', others⟩ =>
          ⟨outcome :: outcomes, kept.append kept', .cons about others⟩

end Edges

/-! ## `commit_node` -/

/-- What `commit_node` returns, next to the tally of its calls. -/
structure CommitKept (state : AgentState) (update : Update) (t : Tally) (outcomes : List Outcome) :
    Prop where
  made : List.Forall₂ (MadeFrom state.ownerId) (unlinked (state.structured.getD {}).entities) t.created
  entityIds : update.committedEntityIds = some (state.committedEntityIds ++ t.created.map (·.id))
  entities : update.committedEntities = some (t.created.map (·.digest))
  about : List.Forall₂ (fun edge => IsOutcome edge.label) (state.structured.getD {}).relationships
    outcomes
  edges : t.edges = outcomeIds outcomes
  edgeIds : update.committedRelationshipIds = some (state.committedRelationshipIds ++ outcomeIds outcomes)
  skipped : ∃ remarks, update.skipped = some (state.skipped ++ remarks ++ outcomeNotes outcomes)
  appends : t.entityAppends = t.created.map (·.id) ∧ t.edgeAppends = t.edges

theorem commitNode_logs (state : AgentState) :
    (commitNode state).Logs (fun _ => True)
      (LoopDone state.runId fun update t => ∃ outcomes, CommitKept state update t outcomes) := by
  refine loopDone_bind (commitEntities_logs _) fun entities t kept => ?_
  refine loopDone_bind (commitRelationships_logs _) fun edges u ⟨outcomes, kept', about⟩ => ?_
  obtain ⟨remarks, skipped⟩ := kept.notes
  refine .ret ⟨outcomes, ?_⟩
  rw [tally_append_none]
  constructor
  · simpa [kept'.entities] using kept.made
  · simp [kept.committed, kept'.entities]
  · simp [kept.digests, kept'.entities]
  · exact about
  · simp [kept.edges, kept'.edges]
  · simp [kept'.committed]
  · exact ⟨remarks, by simp [skipped, kept'.skipped]⟩
  · simp [kept.appends, kept.edges, kept'.appends, kept'.edges, kept'.entities]

end Intellivault.Agent
