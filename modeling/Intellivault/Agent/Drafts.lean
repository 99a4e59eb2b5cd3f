import Intellivault.Lib.Rounds
import Intellivault.Agent.Additive
import Intellivault.Agent.Lookup
import Intellivault.Agent.System

/-!
# What becomes of a draft

A draft of the model's reply passes `structure_node`, `critique_node`, `lookup_node` and
`commit_node`.  A `Pass` is such a way, and its rounds are those of `_commit_entities`, one
for each draft; `Accounted` says that the draft was created, linked or noted.
-/

namespace Intellivault.Agent

open Lib Prog

/-! ## `structure` -/

/-- The entity a draft is linked to: the one the reply names, or else the one of the digest
with the same name and kind. -/
def linkTarget (py : Py) (digest : Option GraphDigest) (draft : DraftEntity) : Option UUID :=
  draft.existingId <|> digest.bind fun digest => digestMatch py digest draft

def deduped (py : Py) (digest : Option GraphDigest) (draft : DraftEntity) : DraftEntity :=
  { draft with existingId := linkTarget py digest draft }

theorem dedupe_entities (py : Py) (result : StructuredResult) (digest : Option GraphDigest) :
    (dedupeAgainstExisting py result digest).entities =
      result.entities.map (deduped py digest) := by
  cases digest with
  | none =>
      have same : ∀ d : DraftEntity, deduped py none d = d := by
        intro d
        cases d with
        | mk tempId name kind attributes existingId => cases existingId <;> rfl
      rw [dedupeAgainstExisting, List.map_congr_left fun d _ => same d, List.map_id']
  | some digest =>
      apply List.map_congr_left
      intro d _
      cases d with
      | mk tempId name kind attributes existingId => cases existingId <;> rfl

section

variable {S : Type} {H : Handler Call Call.Answer Exn S} {s s' : S}
  {tr : List (Event Call Call.Answer Exn)} {schema : Schema} {messages asked : List Message}

theorem ask_replied {r : Except Exn schema.Model} {reply : schema.Model}
    (run : Runs H (call (Call.ask schema messages)) s tr (ended r) s')
    (replied : ⟨Call.ask schema asked, .ok reply⟩ ∈ tr) : r = .ok reply := by
  obtain ⟨rfl, -⟩ := Runs.perform (c := Call.ask schema messages) run
  cases List.mem_singleton.mp replied
  rfl

/-- `structured` returns the reply that was accepted. -/
theorem structured_replied {r : Except Exn schema.Model} {reply : schema.Model}
    (run : Runs H (structured schema messages) s tr (ended r) s')
    (replied : ⟨Call.ask schema asked, .ok reply⟩ ∈ tr) : r = .ok reply := by
  rcases Runs.handle run with ⟨a, rfl, first⟩ | ⟨x, t, tr₁, tr₂, first, retried, rfl⟩
  · exact ask_replied first replied
  · rcases List.mem_append.mp replied with early | late
    · cases ask_replied first early
    · split at retried
      · rcases Runs.handle retried with ⟨a, rfl, second⟩ | ⟨y, u, tr₃, tr₄, second, gaveUp, rfl⟩
        · exact ask_replied second late
        · rcases List.mem_append.mp late with early | late
          · cases ask_replied second early
          · split at gaveUp <;>
            · obtain ⟨-, rfl, -⟩ := Runs.raise gaveUp
              cases late
      · obtain ⟨-, rfl, -⟩ := Runs.raise retried
        cases late

/-- What `structure_node` makes of the drafts of a reply. -/
theorem structureNode_drafts {deps : Deps} {state : AgentState} {u : Update}
    {result : StructuredResult}
    (run : Runs H (structureNode deps state) s tr (ended (.ok u)) s')
    (replied : ⟨Call.ask .structuredResult asked, .ok result⟩ ∈ tr) :
    ∃ drafts, u.structured = some drafts ∧
      drafts.entities = result.entities.map (deduped deps.py state.existingGraph) := by
  unfold structureNode at run
  rcases Runs.handle run with ⟨v, same, body⟩ | ⟨x, t, tr₁, tr₂, raised, handled, rfl⟩
  · obtain rfl := Except.ok.inj same
    obtain ⟨reply, t, tr₁, tr₂, asked, rest, rfl⟩ := Runs.bind_ok body
    obtain ⟨returned, rfl, -⟩ := Runs.ret rest
    rw [List.append_nil] at replied
    obtain rfl := Except.ok.inj (structured_replied asked replied)
    obtain rfl := Except.ok.inj returned
    exact ⟨_, rfl, dedupe_entities deps.py reply state.existingGraph⟩
  · have quietly : tr₂ = [] := by
      split at handled
      · exact (Runs.ret handled).2.1
      · exact (Runs.raise handled).2.1
    rw [quietly, List.append_nil] at replied
    rcases Runs.bind raised with ⟨_, -, failed⟩ | ⟨reply, v, tr₃, tr₄, _, rest, rfl⟩
    · cases structured_replied failed replied
    · cases (Runs.ret rest).1

end

/-! ## `critique` -/

theorem critiqueNode_keepsDrafts (state : AgentState) :
    (critiqueNode state).Returns fun u => u.structured = none := by
  unfold critiqueNode
  dsimp only
  split
  · rfl
  · apply Prog.Returns.bind
    intro verdict
    split <;> rfl

/-! ## `commit` -/

/-- Every entity of `g` is in `g'`, as far as its owner named it. -/
def Stands (g g' : Graph) : Prop :=
  ∀ e ∈ g.entities, ∃ e' ∈ g'.entities, e'.id = e.id ∧ e'.ownerId = e.ownerId ∧
    e'.visibility = e.visibility ∧ e'.name = e.name ∧ e'.kind = e.kind

namespace Stands

variable {g g' g'' : Graph}

theorem of_entities (same : g'.entities = g.entities) : Stands g g' := by
  intro e mem
  rw [← same] at mem
  exact ⟨e, mem, rfl, rfl, rfl, rfl, rfl⟩

theorem refl (g : Graph) : Stands g g := of_entities rfl

theorem trans (first : Stands g g') (second : Stands g' g'') : Stands g g'' := by
  intro e mem
  obtain ⟨e', mem', id, owner, visibility, name, kind⟩ := first e mem
  obtain ⟨e'', mem'', id', owner', visibility', name', kind'⟩ := second e' mem'
  exact ⟨e'', mem'', id'.trans id, owner'.trans owner, visibility'.trans visibility,
    name'.trans name, kind'.trans kind⟩

theorem has (stands : Stands g g') {id : UUID} (has : g.Has id) : g'.Has id := by
  obtain ⟨e, mem, same⟩ := has
  obtain ⟨e', mem', id', _⟩ := stands e mem
  exact ⟨e', mem', id'.trans same⟩

end Stands

section

variable {u : UUID} {g g' : Graph}

theorem GraphCall.Effect.stands {c : GraphCall} {r : Except Exn c.Answer}
    (effect : c.Effect g r g') : Stands g g' := by
  cases c with
  | createEntity ownerId visibility name kind attributes =>
      obtain ⟨now, id, -, -, rfl⟩ := effect
      exact fun e mem => ⟨e, List.mem_append_left _ mem, rfl, rfl, rfl, rfl, rfl⟩
  | attachSources ownerId entityId urls =>
      obtain ⟨clock, -, rfl⟩ := effect
      apply Stands.of_entities
      unfold Service.attachSources
      split
      · rfl
      · exact Cypher.attachSources_entities
  | createRelationship ownerId data =>
      obtain ⟨clock, id, -, -, rfl⟩ := effect
      apply Stands.of_entities
      unfold Service.createRelationship
      dsimp only
      split <;> rfl
  | setEntityEmbedding ownerId entityId embedding =>
      obtain ⟨-, rfl⟩ := effect
      intro e mem
      refine ⟨_, List.mem_map_of_mem mem, ?_⟩
      split <;> exact ⟨rfl, rfl, rfl, rfl, rfl⟩
  | searchEntitiesByVector | listGraph | listVisibleRelationshipsAmong =>
      exact .of_entities (congrArg Graph.entities effect)

theorem around_stands {c : Call} {r : Except Exn c.Answer} (answered : around u c g r g') :
    Stands g g' := by
  cases c with
  | graph c =>
      rcases answered with effect | ⟨_, same | ⟨_, effect⟩⟩
      · exact effect.stands
      · exact .of_entities (congrArg Graph.entities same)
      · exact effect.stands
  | sql q => cases q <;> first
      | exact .of_entities (congrArg Graph.entities answered)
      | exact .of_entities (congrArg Graph.entities answered.1)
  | _ => exact .of_entities (congrArg Graph.entities answered)

theorem runs_stands {α : Type} {p p' : Coroutine α} {tr : List (Event Call Call.Answer Exn)}
    (run : Runs (around u) p g tr p' g') : Stands g g' :=
  run.kept (fun _ _ _ _ stands answered => stands.trans (around_stands answered)) (.refl g)

/-- A private entity of the run's owner, as the draft says, that was not there before. -/
def Created (u : UUID) (draft : DraftEntity) (before g : Graph) (id : UUID) : Prop :=
  ¬before.Has id ∧ ∃ e ∈ g.entities, e.id = id ∧ e.ownerId = u ∧ e.visibility = .priv ∧
    e.name = draft.name.val ∧ e.kind = draft.kind.val

theorem Created.stands {draft : DraftEntity} {before : Graph} {id : UUID}
    (created : Created u draft before g id) (stands : Stands g g') :
    Created u draft before g' id := by
  obtain ⟨new, e, mem, rfl, own, priv, name, kind⟩ := created
  obtain ⟨e', mem', id', own', priv', name', kind'⟩ := stands e mem
  exact ⟨new, e', mem', id', own'.trans own, priv'.trans priv, name'.trans name, kind'.trans kind⟩

/-- **One round of `_commit_entities`**: a link is taken as it is, and the rest is created. -/
theorem commitEntity_cases {runId : UUID} {urls : List String} {draft : DraftEntity}
    {loop loop' : EntityLoop} {tr : List (Event Call Call.Answer Exn)}
    (run : Runs (around u) (commitEntity u runId urls draft loop) g tr (ended (.ok loop')) g') :
    (draft.existingId ≠ none ∧ loop'.committed = loop.committed ∧
      loop'.skipped = loop.skipped) ∨
    (draft.existingId = none ∧ ∃ id, loop'.committed = loop.committed ++ [id] ∧
      Created u draft g g' id) := by
  unfold commitEntity at run
  split at run
  · rename_i link
    obtain ⟨⟨⟩, -, -⟩ := run.ret
    exact Or.inl ⟨by rw [link]; nofun, rfl, rfl⟩
  · rename_i unlinked
    obtain ⟨entity, g₁, tr₁, tr₂, creates, rest, -⟩ := run.bind_ok
    obtain ⟨-, answered⟩ := Runs.perform creates
    rcases answered with ⟨now, id, fresh, same, made⟩ | ⟨⟨_, ⟨⟩⟩, _⟩
    have identity : entity.id = id := congrArg Entity.id (Except.ok.inj same)
    have stands := runs_stands rest
    obtain ⟨_, _, _, _, _, rest, -⟩ := rest.bind_ok
    obtain ⟨_, _, _, _, _, rest, -⟩ := rest.bind_ok
    obtain ⟨_, _, _, _, _, rest, -⟩ := rest.bind_ok
    obtain ⟨⟨⟩, -, -⟩ := rest.ret
    refine Or.inr ⟨unlinked, entity.id, rfl, ?_⟩
    have created : Created u draft g g₁ entity.id := by
      rw [identity, made]
      constructor
      · rintro ⟨e, mem, old⟩
        exact fresh e mem old
      · exact ⟨_, List.mem_append_right _ (List.mem_singleton_self _), rfl, rfl, rfl, rfl, rfl⟩
    exact created.stands stands

end

/-! ## The way of the drafts -/

/-- The drafts of a reply on their way through the four nodes.  The first three do not write
to the graph; `g` is the one that `commit_node` finds, and leaves as `g'`. -/
structure Pass (deps : Deps) (state : AgentState) (result : StructuredResult) (g g' : Graph) where
  drafted : Update
  reviewed : Update
  lookedUp : Update
  committed : Update
  structuring : ∃ before after asked tr,
    Runs (around state.ownerId) (structureNode deps state) before tr (ended (.ok drafted)) after ∧
      ⟨Call.ask .structuredResult asked, .ok result⟩ ∈ tr
  critique : (critiqueNode (state.merge drafted)).Ends (.ok reviewed)
  lookup : (lookupNode deps ((state.merge drafted).merge reviewed)).Ends (.ok lookedUp)
  commit : ∃ tr, Runs (around state.ownerId)
    (commitNode (((state.merge drafted).merge reviewed).merge lookedUp)) g tr
    (ended (.ok committed)) g'

namespace Pass

variable {deps : Deps} {state : AgentState} {result : StructuredResult} {g g' : Graph}

/-- The state that `commit_node` gets. -/
def found (pass : Pass deps state result g g') : AgentState :=
  ((state.merge pass.drafted).merge pass.reviewed).merge pass.lookedUp

/-- The state after `commit_node`. -/
def last (pass : Pass deps state result g g') : AgentState := pass.found.merge pass.committed

end Pass

/-- A round of `_commit_entities`, with the way its draft came. -/
abbrev CommitRound := Transition (EntityLoop × Graph) Passage

/-- The rounds of `_commit_entities`. -/
abbrev CommitRounds (u runId : UUID) (urls : List String) :=
  History (Round (around u) fun p : Passage => commitEntity u runId urls p.enriched)

section

variable {u runId : UUID} {urls : List String} {g g' t : Graph} {a b : EntityLoop}
  {rounds : List CommitRound}

theorem CommitRounds.stands {s : EntityLoop × Graph}
    (history : CommitRounds u runId urls (a, g) rounds s) : Stands g s.2 := by
  induction history with
  | start => exact .refl g
  | next _ step ih =>
      obtain ⟨_, run⟩ := step
      exact ih.trans (runs_stands run)

/-- What a round found, and what it left is there in the end. -/
theorem CommitRounds.kept {s : EntityLoop × Graph}
    (history : CommitRounds u runId urls (a, g) rounds s) :
    ∀ x ∈ rounds, Stands g x.source.2 ∧ Stands x.target.2 s.2 ∧
      x.target.1.committed ⊆ s.1.committed := by
  induction history with
  | start => nofun
  | @next _ t t' p before step ih =>
      obtain ⟨_, run⟩ := step
      have further : t.1.committed ⊆ t'.1.committed := by
        rcases commitEntity_cases run with ⟨-, same, -⟩ | ⟨-, id, more, -⟩
        · rw [same]
          exact List.Subset.refl _
        · rw [more]
          exact List.subset_append_left _ _
      rw [forall_mem_snoc]
      constructor
      · intro x mem
        obtain ⟨found, left, recorded⟩ := ih x mem
        exact ⟨found, left.trans (runs_stands run), List.Subset.trans recorded further⟩
      · exact ⟨CommitRounds.stands before, .refl _, List.Subset.refl _⟩

/-- **`commit_node`, draft by draft.** -/
theorem commitNode_rounds {state : AgentState} {update : Update} {ps : List Passage}
    {tr : List (Event Call Call.Answer Exn)}
    (drafts : (state.structured.getD {}).entities = ps.map (·.enriched))
    (run : Runs (around u) (commitNode state) g tr (ended (.ok update)) g')
    (owner : state.ownerId = u) :
    ∃ rounds loop t,
      CommitRounds u state.runId (state.documents.map (·.url))
        ({ committed := state.committedEntityIds }, g) rounds (loop, t) ∧
      rounds.map (·.label) = ps ∧ Stands t g' ∧
      (state.merge update).committedEntityIds = loop.committed := by
  subst owner
  obtain ⟨loop, t, _, _, commits, rest, -⟩ := run.bind_ok
  have stands := runs_stands rest
  obtain ⟨_, _, _, _, _, rest, -⟩ := rest.bind_ok
  obtain ⟨⟨⟩, -, -⟩ := rest.ret
  rw [drafts] at commits
  obtain ⟨rounds, history, labels⟩ := Runs.rounds
    (fun p : Passage => commitEntity state.ownerId state.runId
      (state.documents.map (·.url)) p.enriched)
    (fun ps => commitEntities state.ownerId state.runId
      (state.documents.map (·.url)) (ps.map (·.enriched)))
    (fun _ => rfl) (fun _ _ _ => rfl) .start commits
  exact ⟨rounds, loop, t, history, labels, stands, rfl⟩

end

namespace Pass

variable {deps : Deps} {state : AgentState} {result : StructuredResult} {g g' : Graph}

/-- The rounds of `_commit_entities`, one for each draft of the reply, with the ways of the
drafts through `lookup_node`. -/
structure Rounds (pass : Pass deps state result g g') (rounds : List CommitRound) : Prop where
  drafts : rounds.map (·.label.draft) = result.entities.map (deduped deps.py state.existingGraph)
  possible : ∀ x ∈ rounds, x.label.Possible deps
  noted : pass.found.skipped = ((state.merge pass.drafted).merge pass.reviewed).skipped ++
    lookupRemarks deps (result.entities.map (deduped deps.py state.existingGraph)) ++
      rounds.flatMap (·.label.notes)
  commits : ∃ loop t,
    CommitRounds state.ownerId state.runId (pass.found.documents.map (·.url))
      ({ committed := pass.found.committedEntityIds }, g) rounds (loop, t) ∧
    Stands t g' ∧ pass.last.committedEntityIds = loop.committed

theorem rounds_exist (pass : Pass deps state result g g') : ∃ rounds, pass.Rounds rounds := by
  obtain ⟨_, _, _, _, drafted, replied⟩ := pass.structuring
  obtain ⟨drafts, set, entities⟩ := structureNode_drafts drafted replied
  have reviewed : ((state.merge pass.drafted).merge pass.reviewed).structured = some drafts := by
    change (pass.reviewed.structured <|> (pass.drafted.structured <|> state.structured)) = _
    rw [(critiqueNode_keepsDrafts _).of_ends pass.critique, set]
    rfl
  obtain ⟨log, looked⟩ := (lookupNode_logs deps _).ends pass.lookup
  obtain ⟨ps, heard, same, -, enriched, -, noted⟩ := looked _ rfl
  have possible := heard.possible
  rw [reviewed] at same noted
  obtain ⟨_, run⟩ := pass.commit
  obtain ⟨rounds, loop, t, history, rfl, stands, committed⟩ := commitNode_rounds enriched run rfl
  refine ⟨rounds, ?_, ?_, ?_, loop, t, history, stands, committed⟩
  · rw [List.map_map] at same
    exact same.trans entities
  · exact fun x mem => possible _ (List.mem_map_of_mem mem)
  · rw [← entities]
    rw [List.flatMap_map] at noted
    exact noted

/-- The draft was created by this run and recorded, or it is linked to an entity its owner
sees, or `commit_node` made a note of it. -/
def Accounted (pass : Pass deps state result g g') (x : CommitRound) : Prop :=
  (∃ id, x.target.1.committed = x.source.1.committed ++ [id] ∧
    id ∈ pass.last.committedEntityIds ∧ Created state.ownerId x.label.draft g g' id) ∨
  (∃ id, x.label.draft.existingId = some id ∧ g.Sees state.ownerId id) ∨
  ∃ note ∈ pass.last.skipped, note ∈ x.target.1.skipped.drop x.source.1.skipped.length

theorem accounted_iff {pass : Pass deps state result g g'} {rounds : List CommitRound}
    (all : pass.Rounds rounds) {x : CommitRound} (mem : x ∈ rounds) :
    pass.Accounted x ↔
      ∀ id, x.label.draft.existingId = some id → g.Sees state.ownerId id := by
  obtain ⟨loop, t, history, stands, committed⟩ := all.commits
  obtain ⟨found, left, recorded⟩ := history.kept x mem
  obtain ⟨_, run⟩ := history.step_of_mem x mem
  obtain ⟨link, name, kind⟩ := x.label.enriched_same
  have round := commitEntity_cases run
  rw [link] at round
  constructor
  · intro accounted id linked
    rcases round with ⟨-, same, silent⟩ | ⟨unlinked, -⟩
    · rcases accounted with ⟨id', more, -⟩ | ⟨id', linked', sees⟩ | ⟨note, -, about⟩
      · simp [same] at more
      · obtain rfl := Option.some.inj (linked.symm.trans linked')
        exact sees
      · rw [silent, List.drop_length] at about
        exact (List.not_mem_nil about).elim
    · rw [unlinked] at linked
      cases linked
  · intro accounts
    rcases round with ⟨linked, -, -⟩ | ⟨-, id, more, new, e, here, rest⟩
    · obtain ⟨id, linked⟩ := Option.ne_none_iff_exists'.mp linked
      exact Or.inr (Or.inl ⟨id, linked, accounts id linked⟩)
    · refine Or.inl ⟨id, more, ?_, ?_⟩
      · rw [committed]
        apply recorded
        rw [more]
        exact List.mem_append_right _ (List.mem_singleton_self _)
      · have created : Created state.ownerId x.label.draft g x.target.2 id := by
          rw [name, kind] at rest
          exact ⟨fun old => new (found.has old), e, here, rest⟩
        exact created.stands (left.trans stands)

end Pass

section

variable {deps : Deps} {state : AgentState} {result : StructuredResult} {g g' : Graph}

/-- **When a draft is accounted for.**  Whatever the reply, the digest and the graph, the
draft at position `i` was created, linked to an entity the owner sees, or noted, just when
the entity it is linked to (if any) is one the owner sees. -/
theorem draft_accounted_iff (pass : Pass deps state result g g') :
    ∃ rounds, pass.Rounds rounds ∧ rounds.length = result.entities.length ∧
      ∀ (i : Nat) (draft : DraftEntity) (x : CommitRound),
        result.entities[i]? = some draft → rounds[i]? = some x →
          (pass.Accounted x ↔
            ∀ id, linkTarget deps.py state.existingGraph draft = some id → g.Sees state.ownerId id) := by
  obtain ⟨rounds, all⟩ := pass.rounds_exist
  refine ⟨rounds, all, ?_, ?_⟩
  · simpa using congrArg List.length all.drafts
  · intro i draft x drafted reached
    have same : some x.label.draft = some (deduped deps.py state.existingGraph draft) := by
      have at_ := congrArg (·[i]?) all.drafts
      simpa [drafted, reached] using at_
    have link : x.label.draft.existingId = linkTarget deps.py state.existingGraph draft :=
      congrArg DraftEntity.existingId (Option.some.inj same)
    rw [← link]
    exact pass.accounted_iff all (List.mem_of_getElem? reached)

end

section Example

/-- The encyclopedia is there. -/
def wikiDeps : Deps := { quietDeps with wikipediaTools := wikiTools }

/-- A reply with one draft, which names the entity 99. -/
def strayDraft : StructuredResult :=
  { entities :=
      [{ tempId := "t1", name := .of "draft" (Eq.refl true), kind := .of "text" (Eq.refl true)
         existingId := some 99 }] }

/-- The draft passes, and no entity 99 is there. -/
def strayPass : Pass wikiDeps (initialState "notes" 1 7) strayDraft .twoUsers .twoUsers where
  drafted := { structured := some strayDraft, skipped := some [] }
  reviewed := { critique := some none, critiqueAttempts := some 1 }
  lookedUp := { structured := some strayDraft, skipped := some [] }
  committed :=
    { committedEntityIds := some [], committedRelationshipIds := some []
      committedEntities := some [], skipped := some [] }
  structuring := ⟨.twoUsers, .twoUsers, _, _, .step (r := .ok strayDraft) rfl .refl,
    List.mem_singleton_self _⟩
  critique := ⟨.ok ⟨.ok, ""⟩, rfl⟩
  lookup := ⟨.ok .null, .ok .null, .ok .null, rfl⟩
  commit := ⟨[], .refl⟩

/-- It is not created, not linked to anything and not noted. -/
theorem draft_lost : strayPass.last.committedEntityIds = [] ∧ strayPass.last.skipped = [] ∧
    ∃ rounds, strayPass.Rounds rounds ∧ rounds.length = 1 ∧ ∀ x ∈ rounds, ¬strayPass.Accounted x := by
  obtain ⟨rounds, all⟩ := strayPass.rounds_exist
  refine ⟨rfl, rfl, rounds, all, ?_, ?_⟩
  · simpa [strayDraft] using congrArg List.length all.drafts
  · intro x mem accounted
    have named : x.label.draft.existingId = some 99 := by
      have drafted : x.label.draft ∈ rounds.map (·.label.draft) := List.mem_map_of_mem mem
      rw [all.drafts] at drafted
      rw [List.mem_singleton.mp drafted]
      rfl
    have sees := (strayPass.accounted_iff all mem).mp accounted 99 named
    exact absurd sees (by decide)

/-- A new note, and one that the digest knows as user 2's public note. -/
def digestDrafts : StructuredResult :=
  { entities :=
      [{ tempId := "t1", name := .of "draft" (Eq.refl true), kind := .of "text" (Eq.refl true) },
       { tempId := "t2", name := .of "paper" (Eq.refl true), kind := .of "text" (Eq.refl true) }] }

def digestState : AgentState :=
  { initialState "notes" 1 7 with existingGraph := some { entities := [⟨20, "paper", "text"⟩] } }

def digestPass : Pass quietDeps digestState digestDrafts .twoUsers
    (Cypher.createEntity .twoUsers 5 40 1 .priv "draft" "text" []).1 where
  drafted :=
    { structured := some {
        entities := digestDrafts.entities.map (deduped quietDeps.py digestState.existingGraph) }
      skipped := some [] }
  reviewed := { critique := some none, critiqueAttempts := some 1 }
  lookedUp := { skipped := some ["lookup: Wikipedia MCP unavailable — skipped"] }
  committed :=
    { committedEntityIds := some [40], committedRelationshipIds := some []
      committedEntities := some [⟨40, "draft", "text"⟩]
      skipped := some ["lookup: Wikipedia MCP unavailable — skipped", "embed draft: "] }
  structuring := ⟨.twoUsers, .twoUsers, _, _, .step (r := .ok digestDrafts) rfl .refl,
    List.mem_singleton_self _⟩
  critique := ⟨.ok ⟨.ok, ""⟩, rfl⟩
  lookup := rfl
  commit := ⟨_, .step (.inl ⟨5, 40, by decide, rfl, rfl⟩) (.step (r := .ok ()) rfl
    (.step (r := .error .timeout) rfl .refl))⟩

/-- One is created and the other is linked. -/
theorem draft_accounted_iff_digest :
    ∃ rounds, digestPass.Rounds rounds ∧ rounds.length = 2 ∧
      ∀ x ∈ rounds, digestPass.Accounted x := by
  obtain ⟨rounds, all, length, accounted⟩ := draft_accounted_iff digestPass
  refine ⟨rounds, all, length, fun x mem => ?_⟩
  obtain ⟨i, short, rfl⟩ := List.getElem_of_mem mem
  have reached : rounds[i]? = some rounds[i] := List.getElem?_eq_getElem short
  have position : i = 0 ∨ i = 1 := by
    have two : rounds.length = 2 := length
    omega
  rcases position with rfl | rfl
  · refine (accounted 0 _ _ rfl reached).mpr fun id linked => ?_
    cases linked
  · refine (accounted 1 _ _ rfl reached).mpr fun id linked => ?_
    cases linked
    decide

end Example

end Intellivault.Agent
