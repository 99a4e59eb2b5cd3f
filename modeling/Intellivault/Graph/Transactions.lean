import Intellivault.Graph.Invariant

/-!
# The transactions of a change to private

`_single_visibility_tx` and `_cascade_tx`, one statement at a time, for `private`.  A
statement reads the committed graph under the transaction's own writes and leaves its
writes pending; they are kept by the ids of the records they are about, since the
committed graph can be another one by the time they are applied.

The section on statements shows that the write of a statement does to a well-formed graph
what the statement does (`Cypher.flipEntities_write` and its siblings).
-/

namespace Intellivault

open Lib

/-! ## Pending writes -/

/-- What a statement writes. -/
inductive Write where
  | hideEntities (ids : List UUID) (now : Time)
  | hideEdges (ids : List UUID) (now : Time)
  | removeEdges (ids : List UUID)
  | stampCitations (marks : List (UUID × Visibility))
deriving DecidableEq

namespace Write

def onEntity : Write → EntityNode → EntityNode
  | .hideEntities ids now, e =>
      if e.id ∈ ids then { e with visibility := .priv, updatedAt := now } else e
  | _, e => e

def onEdge : Write → RelatedTo → Option RelatedTo
  | .hideEdges ids now, r =>
      some (if r.id ∈ ids then { r with visibility := .priv, updatedAt := now } else r)
  | .removeEdges ids, r => if r.id ∈ ids then none else some r
  | _, r => some r

def onCitation : Write → SourcedFrom → SourcedFrom
  | .stampCitations marks, r =>
      match marks.find? fun m => r.entityId = m.1 with
      | some m => { r with visibility := m.2 }
      | none => r
  | _, r => r

section

variable {ids : List UUID} {now : Time} {marks : List (UUID × Visibility)}

@[simp] theorem onEdge_hideEntities : (hideEntities ids now).onEdge = some := rfl
@[simp] theorem onCitation_hideEntities : (hideEntities ids now).onCitation = id := rfl
@[simp] theorem onEntity_hideEdges : (hideEdges ids now).onEntity = id := rfl
@[simp] theorem onCitation_hideEdges : (hideEdges ids now).onCitation = id := rfl
@[simp] theorem onEntity_removeEdges : (removeEdges ids).onEntity = id := rfl
@[simp] theorem onCitation_removeEdges : (removeEdges ids).onCitation = id := rfl
@[simp] theorem onEntity_stampCitations : (stampCitations marks).onEntity = id := rfl
@[simp] theorem onEdge_stampCitations : (stampCitations marks).onEdge = some := rfl

end

def apply (g : Graph) (w : Write) : Graph :=
  { g with
    entities := g.entities.map w.onEntity
    relationships := g.relationships.filterMap w.onEdge
    sourcedFrom := g.sourcedFrom.map w.onCitation }

end Write

/-- The graph under the writes. -/
def Graph.under (g : Graph) (pending : List Write) : Graph := pending.foldl Write.apply g

/-! ## Records under pending writes -/

namespace Write

def hidesEntities : Write → List UUID
  | .hideEntities ids _ => ids
  | _ => []

def hidesEdges : Write → List UUID
  | .hideEdges ids _ => ids
  | _ => []

def removes : Write → List UUID
  | .removeEdges ids => ids
  | _ => []

variable {w : Write} {ws : List Write} {e : EntityNode} {r r' : RelatedTo}

theorem onEntity_keeps : (w.onEntity e).id = e.id ∧ (w.onEntity e).ownerId = e.ownerId ∧
    (w.onEntity e).visibility = if e.id ∈ w.hidesEntities then .priv else e.visibility := by
  cases w with
  | hideEntities ids now =>
      by_cases hidden : e.id ∈ ids <;> simp [onEntity, hidesEntities, hidden]
  | hideEdges ids now => exact ⟨rfl, rfl, (if_neg List.not_mem_nil).symm⟩
  | removeEdges ids => exact ⟨rfl, rfl, (if_neg List.not_mem_nil).symm⟩
  | stampCitations marks => exact ⟨rfl, rfl, (if_neg List.not_mem_nil).symm⟩

theorem onEdge_eq_none_iff : w.onEdge r = none ↔ r.id ∈ w.removes := by
  cases w <;> simp [onEdge, removes]

theorem onEdge_keeps (kept : w.onEdge r = some r') :
    r.Same r' ∧ r'.visibility = if r.id ∈ w.hidesEdges then .priv else r.visibility := by
  cases w with
  | hideEntities ids now =>
      cases kept
      exact ⟨RelatedTo.Same.rfl, (if_neg List.not_mem_nil).symm⟩
  | hideEdges ids now =>
      simp only [onEdge, Option.some.injEq] at kept
      subst kept
      by_cases hidden : r.id ∈ ids <;> simp [hidesEdges, hidden, RelatedTo.Same]
  | removeEdges ids =>
      simp only [onEdge, Option.ite_none_left_eq_some, Option.some.injEq] at kept
      rw [← kept.2]
      exact ⟨RelatedTo.Same.rfl, (if_neg List.not_mem_nil).symm⟩
  | stampCitations marks =>
      cases kept
      exact ⟨RelatedTo.Same.rfl, (if_neg List.not_mem_nil).symm⟩

end Write

namespace Graph

variable {g : Graph} {ws : List Write} {x : UUID}

/-- Every entity is still there under the writes, private if one of them hides it. -/
theorem entities_under :
    (∀ e ∈ g.entities, ∃ e' ∈ (g.under ws).entities, e'.id = e.id ∧ e'.ownerId = e.ownerId) ∧
      ∀ e' ∈ (g.under ws).entities, ∃ e ∈ g.entities, e'.id = e.id ∧ e'.ownerId = e.ownerId ∧
        e'.visibility = if e.id ∈ ws.flatMap (·.hidesEntities) then .priv else e.visibility := by
  induction ws generalizing g with
  | nil => exact ⟨fun e he => ⟨e, he, rfl, rfl⟩, fun e he => ⟨e, he, rfl, rfl, by simp⟩⟩
  | cons w ws ih =>
      obtain ⟨kept, back⟩ := ih (g := w.apply g)
      constructor
      · intro e he
        obtain ⟨e', he', hid, howner⟩ := kept _ (List.mem_map_of_mem he)
        obtain ⟨wid, wowner, -⟩ := Write.onEntity_keeps (w := w) (e := e)
        exact ⟨e', he', hid.trans wid, howner.trans wowner⟩
      · intro e' he'
        obtain ⟨s, hs, hid, howner, hvis⟩ := back e' he'
        obtain ⟨e, he, rfl⟩ := List.mem_map.mp hs
        obtain ⟨wid, wowner, wvis⟩ := Write.onEntity_keeps (w := w) (e := e)
        refine ⟨e, he, hid.trans wid, howner.trans wowner, ?_⟩
        rw [hvis, wid, wvis, List.flatMap_cons]
        by_cases now : e.id ∈ w.hidesEntities <;> simp [now]

/-- Every edge is still there unless one of them removes it, private if one hides it. -/
theorem relationships_under :
    (∀ r ∈ g.relationships, r.id ∉ ws.flatMap (·.removes) →
      ∃ r' ∈ (g.under ws).relationships, r.Same r' ∧
        r'.visibility = if r.id ∈ ws.flatMap (·.hidesEdges) then .priv else r.visibility) ∧
      ∀ r' ∈ (g.under ws).relationships, ∃ r ∈ g.relationships, r.Same r' ∧
        r.id ∉ ws.flatMap (·.removes) ∧
        r'.visibility = if r.id ∈ ws.flatMap (·.hidesEdges) then .priv else r.visibility := by
  induction ws generalizing g with
  | nil =>
      exact ⟨fun r hr _ => ⟨r, hr, RelatedTo.Same.rfl, by simp⟩,
        fun r hr => ⟨r, hr, RelatedTo.Same.rfl, by simp, by simp⟩⟩
  | cons w ws ih =>
      obtain ⟨kept, back⟩ := ih (g := w.apply g)
      simp only [List.flatMap_cons, List.mem_append, not_or]
      constructor
      · intro r hr ⟨notNow, notLater⟩
        obtain ⟨s, hs⟩ := Option.ne_none_iff_exists'.mp (mt Write.onEdge_eq_none_iff.mp notNow)
        obtain ⟨same, vis⟩ := Write.onEdge_keeps hs
        rw [← same.1] at notLater
        obtain ⟨r', hr', same', vis'⟩ := kept s (List.mem_filterMap.mpr ⟨r, hr, hs⟩) notLater
        refine ⟨r', hr', same.trans same', ?_⟩
        rw [vis', same.1, vis]
        by_cases now : r.id ∈ w.hidesEdges <;> simp [now]
      · intro r' hr'
        obtain ⟨s, hs, same', notLater, vis'⟩ := back r' hr'
        obtain ⟨r, hr, hrs⟩ := List.mem_filterMap.mp hs
        obtain ⟨same, vis⟩ := Write.onEdge_keeps hrs
        rw [same.1] at notLater
        have notNow : r.id ∉ w.removes := fun gone => by
          rw [Write.onEdge_eq_none_iff.mpr gone] at hrs
          cases hrs
        refine ⟨r, hr, same.trans same', ⟨notNow, notLater⟩, ?_⟩
        rw [vis', same.1, vis]
        by_cases now : r.id ∈ w.hidesEdges <;> simp [now]

theorem owns_under {u : UUID} : (g.under ws).Owns u x ↔ g.Owns u x := by
  constructor
  · intro ⟨e', he', hid, own⟩
    obtain ⟨e, he, same, howner, -⟩ := entities_under.2 e' he'
    exact ⟨e, he, same.symm.trans hid, howner.symm.trans own⟩
  · intro ⟨e, he, hid, own⟩
    obtain ⟨e', he', same, howner⟩ := entities_under.1 e he
    exact ⟨e', he', same.trans hid, howner.trans own⟩

theorem ids_under : (g.under ws).entities.map (·.id) = g.entities.map (·.id) := by
  induction ws generalizing g with
  | nil => rfl
  | cons w ws ih =>
      refine (ih (g := w.apply g)).trans ?_
      rw [Write.apply, List.map_map]
      exact List.map_congr_left fun e _ => Write.onEntity_keeps.1

end Graph

/-! ## The statements and their writes -/

namespace Cypher

variable {g : Graph} {now : Time} {ids : List UUID} {id u : UUID}

/-- The edges `flip_relationships.cypher` matches. -/
def innerEdges (g : Graph) (ids : List UUID) (u : UUID) : List RelatedTo :=
  g.relationships.filter fun r => (r.ownerId = u ∧ r.visibility ≠ .priv) ∧ r.Within ids

/-- The edges `demote_owned_edges.cypher` matches. -/
def ownedEdges (g : Graph) (ids : List UUID) (u : UUID) : List RelatedTo :=
  g.relationships.filter fun r => (r.ownerId = u ∧ r.visibility = .pub) ∧ r.Touches ids

/-- The edges `remove_foreign_edges.cypher` matches. -/
def foreignEdges (g : Graph) (ids : List UUID) (u : UUID) : List RelatedTo :=
  g.relationships.filter fun r => r.ownerId ≠ u ∧ r.Touches ids

/-- The entities `sync_entity_sources.cypher` matches. -/
def citingEntities (g : Graph) (ids : List UUID) (u : UUID) : List EntityNode :=
  g.entities.filter fun e => e.id ∈ ids ∧ e.ownerId = u

/-- Matching by the ids of matched records matches these records. -/
theorem id_mem_matched {α : Type} {key : α → UUID} {l : List α} {p : α → Bool} {x : α}
    (unique : (l.map key).Nodup) (hx : x ∈ l) : key x ∈ (l.filter p).map key ↔ p x = true := by
  constructor
  · intro mem
    obtain ⟨y, hy, same⟩ := List.mem_map.mp mem
    obtain ⟨inside, py⟩ := List.mem_filter.mp hy
    rwa [List.inj_on_of_nodup_map unique inside hx same] at py
  · exact fun px => List.mem_map_of_mem (List.mem_filter.mpr ⟨hx, px⟩)

theorem flipEntities_write (wf : g.Wf) :
    Write.apply g (.hideEntities (Service.flipped g ids u .priv) now) =
      (flipEntities g now ids u .priv).1 := by
  have entities : g.entities.map (Write.hideEntities (Service.flipped g ids u .priv) now).onEntity =
      g.entities.map (·.flip now ids u .priv) := by
    apply List.map_congr_left
    intro e he
    simp only [Write.onEntity, Service.flipped, id_mem_matched wf.entityIds he, decide_eq_true_eq]
    rfl
  rw [flipEntities_eq, Write.apply, entities]
  simp

theorem setEntityVisibility_write (wf : g.Wf) :
    Write.apply g (.hideEntities (Service.flipped g [id] u .priv) now) =
      (setEntityVisibility g now id u .priv).1 := by
  rw [flipEntities_write wf, setEntityVisibility_eq]
  rfl

/-- Hiding the edges a pattern matches. -/
theorem hideEdges_matched (wf : g.Wf) (p : RelatedTo → Bool) :
    Write.apply g (.hideEdges ((g.relationships.filter p).map (·.id)) now) =
      { g with
        relationships := g.relationships.map fun r =>
          if p r then { r with visibility := .priv, updatedAt := now } else r } := by
  have edges : g.relationships.filterMap
      (Write.hideEdges ((g.relationships.filter p).map (·.id)) now).onEdge =
      g.relationships.filterMap fun r =>
        some (if p r then { r with visibility := .priv, updatedAt := now } else r) := by
    apply List.filterMap_congr
    intro r hr
    simp only [Write.onEdge, id_mem_matched wf.edgeIds hr]
  rw [Write.apply, edges, List.filterMap_eq_map']
  simp

theorem flipRelationships_write (wf : g.Wf) :
    Write.apply g (.hideEdges ((innerEdges g ids u).map (·.id)) now) =
      flipRelationships g now ids u .priv := by
  rw [flipRelationships_eq wf.endpoints, innerEdges, hideEdges_matched wf]
  simp only [decide_eq_true_eq]
  rfl

theorem demoteOwnedEdges_write (wf : g.Wf) :
    Write.apply g (.hideEdges ((ownedEdges g ids u).map (·.id)) now) =
      demoteOwnedEdges g now ids u := by
  rw [demoteOwnedEdges_eq wf.endpoints, ownedEdges, hideEdges_matched wf]
  simp only [decide_eq_true_eq]
  rfl

theorem removeForeignEdges_write (wf : g.Wf) :
    Write.apply g (.removeEdges ((foreignEdges g ids u).map (·.id))) =
      removeForeignEdges g ids u := by
  have edges : g.relationships.filterMap
      (Write.removeEdges ((foreignEdges g ids u).map (·.id))).onEdge =
      g.relationships.filter fun r => ¬(r.ownerId ≠ u ∧ r.Touches ids) := by
    rw [filter_not_eq_filterMap]
    apply List.filterMap_congr
    intro r hr
    simp only [Write.onEdge, foreignEdges, id_mem_matched wf.edgeIds hr, decide_eq_true_eq]
  rw [removeForeignEdges_eq wf.endpoints, Write.apply, edges]
  simp

theorem syncEntitySources_write :
    Write.apply g (.stampCitations ((citingEntities g ids u).map fun e => (e.id, e.visibility))) =
      syncEntitySources g ids u := by
  have citations : g.sourcedFrom.map (Write.stampCitations
      ((citingEntities g ids u).map fun e => (e.id, e.visibility))).onCitation =
      (syncEntitySources g ids u).sourcedFrom := by
    apply List.map_congr_left
    intro r _
    have rows : ((citingEntities g ids u).map fun e => (e.id, e.visibility)).find?
        (fun m => r.entityId = m.1) =
        (g.entities.find? fun e => r.entityId = e.id ∧ e.id ∈ ids ∧ e.ownerId = u).map
          fun e => (e.id, e.visibility) := by
      rw [List.find?_map, citingEntities, List.find?_filter]
      congr 2
      funext e
      simp [and_comm]
    simp only [Write.onCitation, rows]
    cases g.entities.find? fun e => r.entityId = e.id ∧ e.id ∈ ids ∧ e.ownerId = u <;> rfl
  rw [Write.apply, citations]
  simp [syncEntitySources]

end Cypher

/-! ## The transaction functions -/

/-- Where a transaction function is: the statement it runs next, with the ids it holds. -/
inductive TxStage where
  | setEntityVisibility
  | ownedEntityExists
  | ownedNeighbours (seen frontier : List UUID)
  | flipEntities (ids : List UUID)
  | flipRelationships (ids changed : List UUID)
  | syncEntitySources (ids changed : List UUID)
  | demoteOwnedEdges (ids changed : List UUID)
  | removeForeignEdges (ids changed : List UUID)
  | commit (ids changed : List UUID)
  | returned (result : VisibilityChangeResult)
  | raised (x : HTTPException)
deriving DecidableEq

/-- An `execute_write` of one of the two functions. -/
structure Tx where
  ownerId : UUID
  entityId : UUID
  stage : TxStage
  pending : List Write
deriving DecidableEq

namespace Tx

/-- `change_visibility` picks the function by the cascade flag. -/
def start (ownerId entityId : UUID) (cascade : Bool) : Tx :=
  { ownerId, entityId, pending := []
    stage := if cascade then .ownedEntityExists else .setEntityVisibility }

/-- The statement made the write. -/
def wrote (tx : Tx) (w : Write) (next : TxStage) : Tx :=
  { tx with pending := tx.pending ++ [w], stage := next }

/-- `_sync_sources` issues nothing for no ids. -/
def sources (ids changed : List UUID) : TxStage :=
  if changed = [] then .demoteOwnedEdges ids changed else .syncEntitySources ids changed

/-- The next statement, on the graph the transaction sees. -/
def execute (tx : Tx) (view : Graph) (now : Time) : Option Tx :=
  match tx.stage with
  | .setEntityVisibility =>
      match (Cypher.setEntityVisibility view now tx.entityId tx.ownerId .priv).2 with
      | [] => some { tx with stage := .raised ⟨Service.notFound, "Entity not found"⟩ }
      | (id, changed) :: _ => some (tx.wrote
          (.hideEntities (Service.flipped view [tx.entityId] tx.ownerId .priv) now)
          (sources [tx.entityId] (if changed then [id] else [])))
  | .ownedEntityExists =>
      if Cypher.ownedEntityExists view tx.entityId tx.ownerId = [] then
        some { tx with stage := .raised ⟨Service.notFound, "Entity not found"⟩ }
      else some { tx with stage := .ownedNeighbours [tx.entityId] [tx.entityId] }
  | .ownedNeighbours seen frontier =>
      let new := found (Cypher.ownedNeighbours view tx.ownerId) frontier seen
      some { tx with stage :=
        if new = [] then .flipEntities seen else .ownedNeighbours (seen ++ new) new }
  | .flipEntities ids =>
      let changed := Service.flipped view ids tx.ownerId .priv
      some (tx.wrote (.hideEntities changed now) (.flipRelationships ids changed))
  | .flipRelationships ids changed =>
      some (tx.wrote (.hideEdges ((Cypher.innerEdges view ids tx.ownerId).map (·.id)) now)
        (sources ids changed))
  | .syncEntitySources ids changed =>
      some (tx.wrote (.stampCitations ((Cypher.citingEntities view changed tx.ownerId).map
        fun e => (e.id, e.visibility))) (.demoteOwnedEdges ids changed))
  | .demoteOwnedEdges ids changed =>
      some (tx.wrote (.hideEdges ((Cypher.ownedEdges view ids tx.ownerId).map (·.id)) now)
        (.removeForeignEdges ids changed))
  | .removeForeignEdges ids changed =>
      some (tx.wrote (.removeEdges ((Cypher.foreignEdges view ids tx.ownerId).map (·.id)))
        (.commit ids changed))
  | .commit _ _ | .returned _ | .raised _ => none

end Tx

end Intellivault
