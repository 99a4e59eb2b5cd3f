import Intellivault.Lib.History
import Intellivault.Graph.Transactions

/-!
# `create_relationship` and changes to private, interleaved

Any number of calls run at once against a database with read-committed isolation.  A
`create_relationship` reads its `MATCH` and `WHERE` off the committed graph and creates the
edge afterwards, on whatever the committed graph is by then; a change to private is the
transaction of `Intellivault/Graph/Transactions.lean`, whose writes show when it commits.

`Timely` is what a `CREATE` must find for the rule to survive: the conditions it has read
still hold, and no open transaction is past the clean-up that would have caught the edge.
`Guarded` is what an open transaction has made sure of; a timely step keeps it
(`Db.Step.inv`), and at the commit it is all the rule needs (`Guarded.safe_commit`).
-/

namespace Intellivault

/-- No edge is more visible than its ends, and none leads to a private entity of somebody
else than its owner. -/
def Graph.Safe (g : Graph) : Prop :=
  ∀ r ∈ g.relationships, ∀ e ∈ g.entities, r.Touches [e.id] →
    (r.visibility = .pub → e.visibility = .pub) ∧
      (e.visibility = .priv → e.ownerId = r.ownerId)

instance (g : Graph) : Decidable g.Safe :=
  inferInstanceAs (Decidable (∀ r ∈ g.relationships, ∀ e ∈ g.entities, _ → _))

/-- The clean-up of the open transaction has come too early for the edge. -/
def Tx.Misses (tx : Tx) (r : RelatedTo) : Prop :=
  match tx.stage with
  | .removeForeignEdges ids _ =>
      (r.ownerId = tx.ownerId ∧ r.visibility = .pub) ∧ r.Touches ids
  | .commit ids _ => (r.ownerId = tx.ownerId → r.visibility = .pub) ∧ r.Touches ids
  | _ => False

instance (r : RelatedTo) : (tx : Tx) → Decidable (tx.Misses r)
  | ⟨_, _, .removeForeignEdges _ _, _⟩ => inferInstanceAs (Decidable ((_ ∧ _) ∧ _))
  | ⟨_, _, .commit _ _, _⟩ => inferInstanceAs (Decidable ((_ → _) ∧ _))
  | ⟨_, _, .setEntityVisibility, _⟩ | ⟨_, _, .ownedEntityExists, _⟩
  | ⟨_, _, .ownedNeighbours _ _, _⟩ | ⟨_, _, .flipEntities _, _⟩
  | ⟨_, _, .flipRelationships _ _, _⟩ | ⟨_, _, .syncEntitySources _ _, _⟩
  | ⟨_, _, .demoteOwnedEdges _ _, _⟩ | ⟨_, _, .returned _, _⟩ | ⟨_, _, .raised _, _⟩ =>
      inferInstanceAs (Decidable False)

/-! ## What an open transaction has made sure of -/

/-- The ids the transaction is about, once it knows them. -/
def TxStage.ids : TxStage → List UUID
  | .setEntityVisibility | .ownedEntityExists | .returned _ | .raised _ => []
  | .ownedNeighbours seen _ => seen
  | .flipEntities ids => ids
  | .flipRelationships ids _ | .syncEntitySources ids _ | .demoteOwnedEdges ids _
  | .removeForeignEdges ids _ | .commit ids _ => ids

/-- The pending writes leave nothing of the edge to others. -/
def Tx.Covers (tx : Tx) (r : RelatedTo) : Prop :=
  r.id ∈ tx.pending.flatMap (·.removes) ∨
    r.ownerId = tx.ownerId ∧ (r.visibility = .priv ∨ r.id ∈ tx.pending.flatMap (·.hidesEdges))

/-- The transaction hides own entities only, and covers the edges its clean-up is over for. -/
structure Tx.Guarded (tx : Tx) (g : Graph) : Prop where
  own : ∀ x ∈ tx.stage.ids, g.Owns tx.ownerId x
  hides : ∀ x ∈ tx.pending.flatMap (·.hidesEntities), x ∈ tx.stage.ids
  clean : ∀ r ∈ g.relationships, tx.Misses r → tx.Covers r

namespace Tx

variable {tx tx' : Tx} {g : Graph} {now : Time} {u id : UUID} {ids changed : List UUID}
  {ws : List Write} {w : Write} {r r' : RelatedTo}

theorem ids_sources : (sources ids changed).ids = ids := by
  unfold sources
  split <;> rfl

theorem guarded_start {cascade : Bool} : (start u id cascade).Guarded g := by
  cases cascade with
  | false => exact ⟨by rintro x ⟨⟩, by rintro x ⟨⟩, fun _ _ missed => missed.elim⟩
  | true => exact ⟨by rintro x ⟨⟩, by rintro x ⟨⟩, fun _ _ missed => missed.elim⟩

theorem not_misses_sources : ¬(tx.wrote w (sources ids changed)).Misses r := by
  intro missed
  by_cases none : changed = []
  · rw [wrote, sources, if_pos none] at missed
    exact missed
  · rw [wrote, sources, if_neg none] at missed
    exact missed

/-- More writes cover more. -/
theorem Covers.wrote {next : TxStage} (h : tx.Covers r) : (tx.wrote w next).Covers r := by
  unfold Covers Tx.wrote
  rw [List.flatMap_append, List.flatMap_append]
  rcases h with gone | ⟨own, hidden | hidden⟩
  · exact Or.inl (List.mem_append_left _ gone)
  · exact Or.inr ⟨own, Or.inl hidden⟩
  · exact Or.inr ⟨own, Or.inr (List.mem_append_left _ hidden)⟩

theorem owns_of_mem_ownedNeighbours {x : UUID} (mem : x ∈ Cypher.ownedNeighbours g u ids) :
    g.Owns u x := by
  simp only [Cypher.ownedNeighbours, List.mem_dedup, List.mem_map, List.mem_filter,
    decide_eq_true_eq] at mem
  obtain ⟨e, ⟨he, own, -⟩, hid⟩ := mem
  exact ⟨e, he, hid, own⟩

/-- Changing what is hidden only inside the ids keeps the guard of a stage without clean-up. -/
theorem Guarded.writes (before : tx.Guarded g) {next : TxStage} (same : next.ids = tx.stage.ids)
    (inside : ∀ x ∈ w.hidesEntities, x ∈ tx.stage.ids)
    (clean : ∀ r ∈ g.relationships, (tx.wrote w next).Misses r → (tx.wrote w next).Covers r) :
    (tx.wrote w next).Guarded g := by
  refine ⟨?_, ?_, clean⟩
  · intro x mem
    exact before.own x (same ▸ mem)
  · intro x mem
    unfold wrote at mem ⊢
    rw [List.flatMap_append, List.mem_append, List.flatMap_singleton] at mem
    dsimp only
    rw [same]
    exact mem.elim (before.hides x) (inside x)

/-- The demotion covers the caller's own public edges. -/
theorem guarded_demote (before : tx.Guarded g) (here : tx.stage = .demoteOwnedEdges ids changed) :
    (tx.wrote (.hideEdges ((Cypher.ownedEdges (g.under tx.pending) ids tx.ownerId).map (·.id)) now)
      (.removeForeignEdges ids changed)).Guarded g := by
  refine before.writes (by rw [here]; rfl) (by rintro x ⟨⟩) fun r hr missed => ?_
  obtain ⟨⟨own, hpub⟩, touches⟩ := missed
  unfold Covers wrote
  rw [List.flatMap_append, List.flatMap_append]
  by_cases gone : r.id ∈ tx.pending.flatMap (·.removes)
  · exact Or.inl (List.mem_append_left _ gone)
  · refine Or.inr ⟨own, Or.inr (List.mem_append.mpr ?_)⟩
    by_cases hidden : r.id ∈ tx.pending.flatMap (·.hidesEdges)
    · exact Or.inl hidden
    · obtain ⟨r', hr', same, vis⟩ := Graph.relationships_under.1 r hr gone
      rw [if_neg hidden] at vis
      have row : r' ∈ Cypher.ownedEdges (g.under tx.pending) ids tx.ownerId :=
        List.mem_filter.mpr ⟨hr', decide_eq_true
          ⟨⟨same.2.1.trans own, vis.trans hpub⟩, same.touches_iff.mpr touches⟩⟩
      refine Or.inr ?_
      rw [List.flatMap_singleton, ← same.1]
      exact List.mem_map_of_mem row

/-- The removal covers everybody else's edges, after the demotion. -/
theorem guarded_remove (before : tx.Guarded g) (here : tx.stage = .removeForeignEdges ids changed) :
    (tx.wrote (.removeEdges ((Cypher.foreignEdges (g.under tx.pending) ids tx.ownerId).map (·.id)))
      (.commit ids changed)).Guarded g := by
  refine before.writes (by rw [here]; rfl) (by rintro x ⟨⟩) fun r hr missed => ?_
  obtain ⟨pub, touches⟩ := missed
  by_cases own : r.ownerId = tx.ownerId
  · have missedBefore : tx.Misses r := by
      rw [Misses, here]
      exact ⟨⟨own, pub own⟩, touches⟩
    exact (before.clean r hr missedBefore).wrote
  · refine Or.inl ?_
    unfold wrote
    rw [List.flatMap_append, List.mem_append, List.flatMap_singleton]
    by_cases gone : r.id ∈ tx.pending.flatMap (·.removes)
    · exact Or.inl gone
    · obtain ⟨r', hr', same, -⟩ := Graph.relationships_under.1 r hr gone
      have row : r' ∈ Cypher.foreignEdges (g.under tx.pending) ids tx.ownerId :=
        List.mem_filter.mpr ⟨hr', decide_eq_true
          ⟨fun mine => own (same.2.1.symm.trans mine), same.touches_iff.mpr touches⟩⟩
      refine Or.inr ?_
      rw [← same.1]
      exact List.mem_map_of_mem row

/-- Nothing is hidden before the ids are known. -/
theorem Guarded.unhidden (before : tx.Guarded g) (none : tx.stage.ids = []) {x : UUID} :
    x ∉ tx.pending.flatMap (·.hidesEntities) := by
  intro mem
  have inside := before.hides x mem
  rw [none] at inside
  exact List.not_mem_nil inside

theorem guarded_raised (before : tx.Guarded g) (none : tx.stage.ids = []) {x : HTTPException} :
    { tx with stage := .raised x }.Guarded g :=
  ⟨by rintro y ⟨⟩, fun _ mem => absurd mem (before.unhidden none), fun _ _ missed => missed.elim⟩

theorem owns_of_matched (found : Cypher.matchOwned (g.under ws) id u ≠ []) : g.Owns u id := by
  by_contra foreign
  exact found (Cypher.matchOwned_eq_nil_iff.mpr fun own => foreign (Graph.owns_under.mp own))

theorem guarded_single (before : tx.Guarded g) (here : tx.stage = .setEntityVisibility)
    (found : Cypher.matchOwned (g.under tx.pending) tx.entityId tx.ownerId ≠ []) :
    (tx.wrote (.hideEntities (Service.flipped (g.under tx.pending) [tx.entityId] tx.ownerId .priv) now)
      (sources [tx.entityId] changed)).Guarded g := by
  have none : tx.stage.ids = [] := by rw [here]; rfl
  refine ⟨?_, ?_, fun r _ missed => (not_misses_sources missed).elim⟩
  · intro x mem
    rw [wrote, ids_sources, List.mem_singleton] at mem
    rw [mem]
    exact owns_of_matched found
  · intro x mem
    rw [wrote, ids_sources]
    rw [wrote, List.flatMap_append, List.mem_append, List.flatMap_singleton] at mem
    obtain ⟨e, -, ⟨inside, -⟩, rfl⟩ :=
      Service.mem_flipped.mp (mem.resolve_left (before.unhidden none))
    exact inside

/-- A round of the walk adds own entities only. -/
theorem guarded_walk {seen new : List UUID} {next : TxStage} (before : tx.Guarded g)
    (here : tx.stage.ids = seen) (there : next.ids = seen ++ new)
    (mine : ∀ x ∈ new, g.Owns tx.ownerId x) (unclean : ∀ r, ¬{ tx with stage := next }.Misses r) :
    { tx with stage := next }.Guarded g := by
  refine ⟨?_, ?_, fun r _ missed => (unclean r missed).elim⟩
  · intro x mem
    dsimp only at mem
    rw [there, List.mem_append] at mem
    rcases mem with old | isNew
    · exact before.own x (here ▸ old)
    · exact mine x isNew
  · intro x mem
    dsimp only
    rw [there]
    exact List.mem_append_left _ (here ▸ before.hides x mem)

/-- **A statement keeps the guard**, whatever was committed since the one before. -/
theorem guarded_execute (before : tx.Guarded g)
    (executed : tx.execute (g.under tx.pending) now = some tx') : tx'.Guarded g := by
  unfold execute at executed
  split at executed
  · rename_i here
    have none : tx.stage.ids = [] := by rw [here]; rfl
    split at executed
    · cases executed
      exact guarded_raised before none
    · rename_i id changed rest rows
      cases executed
      refine guarded_single before here fun empty => ?_
      rw [Cypher.setEntityVisibility_eq, empty] at rows
      cases rows
  · rename_i here
    have none : tx.stage.ids = [] := by rw [here]; rfl
    split at executed
    · cases executed
      exact guarded_raised before none
    · rename_i found
      cases executed
      have owns : g.Owns tx.ownerId tx.entityId :=
        owns_of_matched fun empty => found (by rw [Cypher.ownedEntityExists, empty]; rfl)
      refine guarded_walk before none rfl (fun x mem => ?_) fun _ missed => missed
      rw [List.mem_singleton.mp mem]
      exact owns
  · rename_i seen frontier here
    have ids : tx.stage.ids = seen := by rw [here]; rfl
    cases executed
    have mine : ∀ x ∈ Lib.found (Cypher.ownedNeighbours (g.under tx.pending) tx.ownerId) frontier
        seen, g.Owns tx.ownerId x := fun x mem =>
      Graph.owns_under.mp (owns_of_mem_ownedNeighbours (Lib.mem_found.mp mem).1)
    split
    · rename_i stop
      exact guarded_walk before ids (List.append_nil seen).symm (by rintro x ⟨⟩) fun _ missed => missed
    · exact guarded_walk before ids rfl mine fun _ missed => missed
  · rename_i ids here
    cases executed
    refine before.writes (by rw [here]; rfl) (fun x mem => ?_) fun _ _ missed => missed.elim
    obtain ⟨e, -, ⟨inside, -⟩, rfl⟩ := Service.mem_flipped.mp mem
    rwa [here]
  · rename_i ids changed here
    cases executed
    exact before.writes (by rw [here, ids_sources]; rfl) (by rintro x ⟨⟩)
      fun _ _ missed => (not_misses_sources missed).elim
  · rename_i ids changed here
    cases executed
    exact before.writes (by rw [here]; rfl) (by rintro x ⟨⟩) fun _ _ missed => missed.elim
  · rename_i ids changed here
    cases executed
    exact guarded_demote before here
  · rename_i ids changed here
    cases executed
    exact guarded_remove before here
  all_goals cases executed

/-! ### Commits and creations of others -/

theorem Misses.of_under (same : r.Same r') (shown : r'.visibility = .pub → r.visibility = .pub)
    (missed : tx.Misses r') : tx.Misses r := by
  have owner : r'.ownerId = r.ownerId := same.2.1
  unfold Misses at missed ⊢
  split at missed
  · obtain ⟨⟨own, hpub⟩, touches⟩ := missed
    exact ⟨⟨owner.symm.trans own, shown hpub⟩, same.touches_iff.mp touches⟩
  · obtain ⟨pub, touches⟩ := missed
    exact ⟨fun own => shown (pub (owner.trans own)), same.touches_iff.mp touches⟩
  · exact missed

/-- Another transaction's commit takes nothing back. -/
theorem Guarded.under (before : tx.Guarded g) : tx.Guarded (g.under ws) := by
  refine ⟨fun x mem => Graph.owns_under.mpr (before.own x mem), before.hides, ?_⟩
  intro r' hr' missed
  obtain ⟨r, hr, same, -, vis⟩ := Graph.relationships_under.2 r' hr'
  have shown : r'.visibility = .pub → r.visibility = .pub := by
    intro hpub
    rw [vis] at hpub
    split at hpub
    · cases hpub
    · exact hpub
  have hidden : r.visibility = .priv → r'.visibility = .priv := by
    intro hpriv
    rw [vis, hpriv, ite_self]
  unfold Covers
  rw [same.1, same.2.1]
  exact (before.clean r hr (missed.of_under same shown)).imp_right
    (And.imp_right (Or.imp_left hidden))

theorem Guarded.create {rows : List RelatedTo} (before : tx.Guarded g)
    (timely : ∀ r ∈ rows, ¬tx.Misses r) :
    tx.Guarded { g with relationships := g.relationships ++ rows } := by
  refine ⟨before.own, before.hides, fun r hr missed => ?_⟩
  rcases List.mem_append.mp hr with old | new
  · exact before.clean r old missed
  · exact absurd missed (timely r new)

/-- **The guard is what a commit needs.** -/
theorem Guarded.safe_commit (before : tx.Guarded g) (here : tx.stage = .commit ids changed)
    (unique : (g.entities.map (·.id)).Nodup) (safe : g.Safe) : (g.under tx.pending).Safe := by
  intro r' hr' e' he' touches'
  obtain ⟨r, hr, same, kept, vis⟩ := Graph.relationships_under.2 r' hr'
  obtain ⟨e, he, hid, howner, evis⟩ := Graph.entities_under.2 e' he'
  have touches : r.Touches [e.id] := by
    rw [← hid]
    exact same.touches_iff.mp touches'
  obtain ⟨shows, sees⟩ := safe r hr e he touches
  by_cases hidden : e.id ∈ tx.pending.flatMap (·.hidesEntities)
  · have mem := before.hides _ hidden
    obtain ⟨o, ho, hoid, own⟩ := before.own _ mem
    have mine : e.ownerId = tx.ownerId := by
      rw [← List.inj_on_of_nodup_map unique ho he hoid]
      exact own
    rw [here] at mem
    -- the edge has been dealt with: it is the caller's and private, or becomes so
    have settled : r.ownerId = tx.ownerId ∧
        (r.visibility = .priv ∨ r.id ∈ tx.pending.flatMap (·.hidesEdges)) := by
      by_cases missed : tx.Misses r
      · exact (before.clean r hr missed).resolve_left kept
      · rw [Misses, here] at missed
        have notPub : ¬(r.ownerId = tx.ownerId → r.visibility = .pub) := fun pub =>
          missed ⟨pub, touches.of_mem mem⟩
        obtain ⟨own, notPub⟩ := Classical.not_imp.mp notPub
        refine ⟨own, Or.inl ?_⟩
        cases hv : r.visibility with
        | priv => rfl
        | pub => exact absurd hv notPub
    have hpriv : r'.visibility = .priv := by
      rcases settled.2 with already | now
      · rw [vis, already, ite_self]
      · rw [vis, if_pos now]
    refine ⟨fun hpub => ?_, fun _ => ?_⟩
    · rw [hpriv] at hpub
      cases hpub
    · rw [howner, mine, same.2.1, settled.1]
  · rw [if_neg hidden] at evis
    rw [evis, howner, same.2.1]
    refine ⟨fun hpub => shows ?_, sees⟩
    rw [vis] at hpub
    split at hpub
    · cases hpub
    · exact hpub

end Tx

/-- What a linkable pair of ends makes of a new edge. -/
theorem Graph.Linkable.safe {g : Graph} (unique : (g.entities.map (·.id)).Nodup) {r : RelatedTo}
    (h : g.Linkable r.ownerId r.fromId r.toId r.visibility) {e : EntityNode} (he : e ∈ g.entities)
    (touches : r.Touches [e.id]) :
    (r.visibility = .pub → e.visibility = .pub) ∧ (e.visibility = .priv → e.ownerId = r.ownerId) := by
  obtain ⟨⟨sfrom, sto⟩, -, vis⟩ := h
  have sees : g.Sees r.ownerId e.id := by
    rcases touches with hfrom | hto
    · exact List.mem_singleton.mp hfrom ▸ sfrom
    · exact List.mem_singleton.mp hto ▸ sto
  constructor
  · intro hpub
    have ends := vis.resolve_left fun hpriv => by
      rw [hpub] at hpriv
      cases hpriv
    have shown : g.Public e.id := by
      rcases touches with hfrom | hto
      · exact List.mem_singleton.mp hfrom ▸ ends.1
      · exact List.mem_singleton.mp hto ▸ ends.2
    obtain ⟨o, ho, hid, hpub⟩ := shown
    rwa [List.inj_on_of_nodup_map unique ho he hid] at hpub
  · intro hpriv
    obtain ⟨o, ho, hid, visible⟩ := sees
    rw [List.inj_on_of_nodup_map unique ho he hid] at visible
    refine visible.resolve_left fun shown => ?_
    rw [hpriv] at shown
    cases shown

/-! ## Interleavings -/

namespace Isolation

open Lib

/-- A `create_relationship` before its read, between its read and its write, and after. -/
inductive CreateStage where
  | asked
  | matched (rows : List RelatedTo)
  | created (rows : List RelatedTo)
deriving DecidableEq

/-- A call with its session. -/
inductive Session where
  | create (ownerId id : UUID) (data : RelationshipInput) (stage : CreateStage)
  | change (tx : Tx)
deriving DecidableEq

/-- The committed graph and the calls. -/
structure Db where
  graph : Graph
  sessions : List Session
deriving DecidableEq

inductive Event where
  | matched
  | created (rows : List RelatedTo)
  | executed
  | committed
deriving DecidableEq

/-- The next step of a call, with the committed graph after it. -/
def Session.advance (g : Graph) (now : Time) : Session → Option (Event × Graph × Session)
  | .create u id data .asked =>
      let rows := (Cypher.createRelationship g now id u data.fromId data.toId data.kind.val
        data.visibility).2
      some (.matched, g, .create u id data (.matched rows))
  | .create u id data (.matched rows) =>
      some (.created rows, { g with relationships := g.relationships ++ rows },
        .create u id data (.created rows))
  | .create _ _ _ (.created _) => none
  | .change tx =>
      match tx.stage with
      | .commit _ changed =>
          some (.committed, g.under tx.pending,
            .change { tx with stage := .returned ⟨changed⟩, pending := [] })
      | _ => (tx.execute (g.under tx.pending) now).map fun tx' => (.executed, g, .change tx')

/-- The call at a position takes its next step. -/
def Db.advance (s : Db) (i : Nat) (now : Time) : Option (Event × Db) :=
  s.sessions[i]?.bind fun c =>
    (c.advance s.graph now).map fun (event, g, c') => (event, ⟨g, s.sessions.set i c'⟩)

/-- Any call may be next, at any time. -/
def Db.Step (s : Db) (event : Event) (s' : Db) : Prop :=
  ∃ i now, s.advance i now = some (event, s')

/-- What a client asks for. -/
inductive Request where
  | createRelationship (ownerId id : UUID) (data : RelationshipInput)
  | makePrivate (ownerId entityId : UUID) (cascade : Bool)

def Request.session : Request → Session
  | .createRelationship u id data => .create u id data .asked
  | .makePrivate u entityId cascade => .change (Tx.start u entityId cascade)

/-- The calls have been made, and none has done anything yet. -/
def Db.start (g : Graph) (requests : List Request) : Db := ⟨g, requests.map Request.session⟩

/-- The call has returned or raised. -/
def Session.finished : Session → Bool
  | .create _ _ _ (.created _) => true
  | .create _ _ _ _ => false
  | .change tx =>
      match tx.stage with
      | .returned _ | .raised _ => true
      | _ => false

def Session.Misses : Session → RelatedTo → Prop
  | .create _ _ _ _, _ => False
  | .change tx, r => tx.Misses r

instance (r : RelatedTo) : (c : Session) → Decidable (c.Misses r)
  | .create _ _ _ _ => inferInstanceAs (Decidable False)
  | .change tx => inferInstanceAs (Decidable (tx.Misses r))

/-- A `CREATE` that finds its conditions still met, and no transaction that misses it. -/
def Timely (x : Transition Db Event) : Prop :=
  match x.label with
  | .created rows => ∀ r ∈ rows,
      x.source.graph.Linkable r.ownerId r.fromId r.toId r.visibility ∧
        ∀ c ∈ x.source.sessions, ¬c.Misses r
  | _ => True

instance : (x : Transition Db Event) → Decidable (Timely x)
  | ⟨_, .created rows, _⟩ => inferInstanceAs (Decidable (∀ r ∈ rows, _ ∧ _))
  | ⟨_, .matched, _⟩ | ⟨_, .executed, _⟩ | ⟨_, .committed, _⟩ => isTrue trivial

/-! ## Runs -/

variable {s s' : Db} {event : Event}

/-- The invariant of a run whose steps are timely. -/
structure Db.Inv (s : Db) : Prop where
  unique : (s.graph.entities.map (·.id)).Nodup
  safe : s.graph.Safe
  guarded : ∀ tx, .change tx ∈ s.sessions → tx.Guarded s.graph

theorem Db.inv_start {g : Graph} (wf : g.Wf) (safe : g.Safe) (requests : List Request) :
    (Db.start g requests).Inv := by
  refine ⟨wf.entityIds, safe, fun tx mem => ?_⟩
  obtain ⟨request, -, same⟩ := List.mem_map.mp mem
  cases request with
  | createRelationship u id data => cases same
  | makePrivate u entityId cascade =>
      cases same
      exact Tx.guarded_start

/-- What the step of one call can be. -/
theorem Session.advance_cases {g g' : Graph} {now : Time} {c c' : Session}
    (advanced : c.advance g now = some (event, g', c')) :
    (event = .matched ∧ g' = g ∧ ∀ tx, c' ≠ .change tx) ∨
    (∃ rows, event = .created rows ∧ g' = { g with relationships := g.relationships ++ rows } ∧
      ∀ tx, c' ≠ .change tx) ∨
    (∃ tx tx', event = .executed ∧ g' = g ∧ c = .change tx ∧ c' = .change tx' ∧
      tx.execute (g.under tx.pending) now = some tx') ∨
    ∃ tx ids changed, event = .committed ∧ g' = g.under tx.pending ∧ c = .change tx ∧
      tx.stage = .commit ids changed ∧
      c' = .change { tx with stage := .returned ⟨changed⟩, pending := [] } := by
  unfold advance at advanced
  split at advanced
  · cases advanced
    exact Or.inl ⟨rfl, rfl, by rintro tx ⟨⟩⟩
  · cases advanced
    exact Or.inr (Or.inl ⟨_, rfl, rfl, by rintro tx ⟨⟩⟩)
  · cases advanced
  · rename_i tx
    split at advanced
    · rename_i ids changed here
      cases advanced
      exact Or.inr (Or.inr (Or.inr ⟨tx, ids, changed, rfl, rfl, rfl, here, rfl⟩))
    · obtain ⟨tx', executed, same⟩ := Option.map_eq_some_iff.mp advanced
      cases same
      exact Or.inr (Or.inr (Or.inl ⟨tx, tx', rfl, rfl, rfl, rfl, executed⟩))

/-- **The step lemma.** -/
theorem Db.Step.inv (step : s.Step event s') (timely : Timely ⟨s, event, s'⟩) (inv : s.Inv) :
    s'.Inv := by
  obtain ⟨i, now, advanced⟩ := step
  obtain ⟨c, at_i, moved⟩ := Option.bind_eq_some_iff.mp advanced
  obtain ⟨⟨event, g', c'⟩, step, same⟩ := Option.map_eq_some_iff.mp moved
  cases same
  have here : c ∈ s.sessions := List.mem_of_getElem? at_i
  have sessions : ∀ d ∈ s.sessions.set i c', d = c' ∨ d ∈ s.sessions := fun d mem =>
    (List.mem_or_eq_of_mem_set mem).symm
  rcases Session.advance_cases step with ⟨rfl, rfl, other⟩ | ⟨rows, rfl, rfl, other⟩ |
    ⟨tx, tx', rfl, rfl, rfl, rfl, executed⟩ | ⟨tx, ids, changed, rfl, rfl, rfl, commits, rfl⟩
  · refine ⟨inv.unique, inv.safe, fun tx mem => ?_⟩
    rcases sessions _ mem with new | old
    · exact absurd new.symm (other tx)
    · exact inv.guarded tx old
  · refine ⟨inv.unique, ?_, fun tx mem => ?_⟩
    · intro r hr e he touches
      rcases List.mem_append.mp hr with old | new
      · exact inv.safe r old e he touches
      · exact (timely r new).1.safe inv.unique he touches
    · rcases sessions _ mem with new | old
      · exact absurd new.symm (other tx)
      · exact (inv.guarded tx old).create fun r hr => (timely r hr).2 _ old
  · refine ⟨inv.unique, inv.safe, fun tx'' mem => ?_⟩
    rcases sessions _ mem with new | old
    · cases new
      exact Tx.guarded_execute (inv.guarded tx here) executed
    · exact inv.guarded tx'' old
  · have unique : ((s.graph.under tx.pending).entities.map (·.id)).Nodup := by
      rw [Graph.ids_under]
      exact inv.unique
    refine ⟨unique, (inv.guarded tx here).safe_commit commits inv.unique inv.safe,
      fun tx'' mem => ?_⟩
    rcases sessions _ mem with new | old
    · cases new
      exact ⟨by rintro x ⟨⟩, by rintro x ⟨⟩, fun _ _ missed => missed.elim⟩
    · exact (inv.guarded tx'' old).under

/-- **The rule survives** every interleaving in which each `CREATE` is timely. -/
theorem rule_survives {g : Graph} (wf : g.Wf) (safe : g.Safe) (requests : List Request)
    {tr : List (Transition Db Event)} (run : History Db.Step (Db.start g requests) tr s)
    (timely : ∀ x ∈ tr, Timely x) : s.graph.Safe := by
  have inv : s.Inv := run.invariant timely (Db.inv_start wf safe requests)
    fun _ _ _ inv met step => step.inv met inv
  exact inv.safe

/-! ## A note is linked while it is made private -/

/-- The calls at the positions step in turn, as long as the steps pass the check. -/
def Db.play (check : Transition Db Event → Bool) (s : Db) : List Nat → Option Db
  | [] => some s
  | i :: rest =>
      (s.advance i 9).bind fun (event, s') =>
        if check ⟨s, event, s'⟩ then s'.play check rest else none

theorem Db.play_history {check : Transition Db Event → Bool} {moves : List Nat} {start : Db}
    {tr : List (Transition Db Event)} (before : History Db.Step start tr s)
    (passed : ∀ x ∈ tr, check x = true) (played : s.play check moves = some s') :
    ∃ more, History Db.Step start more s' ∧ ∀ x ∈ more, check x = true := by
  induction moves generalizing s tr with
  | nil =>
      cases played
      exact ⟨tr, before, passed⟩
  | cons i rest ih =>
      simp only [play, Option.bind_eq_some_iff, Option.ite_none_right_eq_some] at played
      obtain ⟨⟨event, next⟩, advanced, checked, played⟩ := played
      exact ih (before.next ⟨i, 9, advanced⟩) (forall_mem_snoc.mpr ⟨passed, checked⟩) played

/-- The users 1 and 2 each have a public note. -/
def publicNotes : Graph :=
  let g := (Op.run .empty (fun _ => 1) 1 (.createEntity 10 publicNote)).1
  (Op.run g (fun _ => 2) 2 (.createEntity 20 publicNote)).1

theorem reachable_publicNotes : Reachable publicNotes :=
  (Reachable.empty.call (fun _ => 1) 1 (.createEntity 10 publicNote) (by decide)).call
    (fun _ => 2) 2 (.createEntity 20 publicNote) (by decide)

/-- User 2 links the note of user 1, who makes it private. -/
def linkAndHide : List Request :=
  [.createRelationship 2 30 citesNote, .makePrivate 1 10 false]

/-- One call after the other. -/
theorem rule_survives_inTurn : ∃ (tr : List (Transition Db Event)) (s : Db),
    History Db.Step (Db.start publicNotes linkAndHide) tr s ∧
      s.sessions.all Session.finished = true ∧ s.graph.Safe := by
  have ended : (Db.play (fun x => Timely x) (Db.start publicNotes linkAndHide)
      [0, 0, 1, 1, 1, 1, 1]).map (fun s => s.sessions.all Session.finished) = some true := by
    decide +kernel
  obtain ⟨s, played, finished⟩ := Option.map_eq_some_iff.mp ended
  obtain ⟨tr, history, timely⟩ := Db.play_history .start (List.forall_mem_nil _) played
  exact ⟨tr, s, history, finished, rule_survives reachable_publicNotes.inv.wf (by decide) linkAndHide
    history fun x mem => of_decide_eq_true (timely x mem)⟩

/-- The edge is created after the note has been made private, on what was read before. -/
theorem stale_create : ∃ (tr : List (Transition Db Event)) (s : Db), publicNotes.Wf ∧
    publicNotes.Safe ∧ History Db.Step (Db.start publicNotes linkAndHide) tr s ∧
      s.sessions.all Session.finished = true ∧ ¬s.graph.Safe := by
  have ended : (Db.play (fun _ => true) (Db.start publicNotes linkAndHide)
      [0, 1, 1, 1, 1, 1, 0]).map (fun s => (s.sessions.all Session.finished, decide s.graph.Safe)) =
        some (true, false) := by
    decide +kernel
  obtain ⟨s, played, both⟩ := Option.map_eq_some_iff.mp ended
  obtain ⟨finished, broken⟩ := Prod.mk.inj both
  obtain ⟨tr, history, -⟩ := Db.play_history .start (List.forall_mem_nil _) played
  exact ⟨tr, s, reachable_publicNotes.inv.wf, by decide, history, finished,
    of_decide_eq_false broken⟩

end Isolation

end Intellivault
