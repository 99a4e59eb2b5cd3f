import Mathlib.Algebra.Ring.Rat
import Mathlib.Algebra.Order.Ring.Unbundled.Rat
import Intellivault.Lib.Nearest
import Intellivault.Graph.Invariant

/-!
# Vector search

The index behind `search_entities_by_vector` covers the entities of every user.  It is asked
for `k` nodes, and the statement's `WHERE` clause drops the ones the caller must not see
afterwards, so what is returned are the nearest visible entities only as long as the others
stay out of the way.
-/

namespace Intellivault

open Lib

/-- `db.index.vector.queryNodes('entity_embedding', k, embedding)`: the nodes with their scores. -/
abbrev QueryNodes := Nat → Embedding → List (EntityNode × Rat)

/-- `search_entities_by_vector` -/
def Service.searchEntitiesByVector (g : Graph) (queryNodes : QueryNodes) (ownerId : UUID)
    (embedding : Embedding) (k : Nat) : List Entity :=
  (Cypher.searchEntitiesByVector g ownerId (queryNodes k embedding)).map fun row =>
    entity row.1 row.2

/-- The nodes in the index: those with an embedding. -/
def Graph.indexed (g : Graph) : List EntityNode :=
  g.entities.filter (·.embedding.isSome)

/-- How similar a node is to a vector, by the similarity function of the index. -/
def EntityNode.score (sim : Embedding → Embedding → Rat) (v : Embedding) (e : EntityNode) : Rat :=
  match e.embedding with
  | some embedding => sim embedding v
  | none => 0

/-- The index answers with the `k` nodes most similar to the vector, and with their scores. -/
structure QueryNodes.Exact (queryNodes : QueryNodes) (sim : Embedding → Embedding → Rat)
    (g : Graph) : Prop where
  nearest : ∀ k v, 1 ≤ k → Nearest (·.score sim v) g.indexed k ((queryNodes k v).map (·.1))
  scores : ∀ k v, ∀ p ∈ queryNodes k v, p.2 = p.1.score sim v

/-- What a search of `u` is to return: the `k` entities most similar to the vector among the
embedded ones `u` sees, in the order of their similarity. -/
def SearchComplete (sim : Embedding → Embedding → Rat) (g : Graph) (u : UUID) (v : Embedding)
    (k : Nat) (result : List Entity) : Prop :=
  ∃ es, result = es.map (fun e => Service.entity e (Cypher.sourceUrls g e.id)) ∧
    Nearest (·.score sim v) (g.indexed.filter (·.VisibleTo u)) k es ∧
    es.Pairwise fun a b => b.score sim v ≤ a.score sim v

section Proofs

variable {g : Graph} {sim : Embedding → Embedding → Rat} {queryNodes : QueryNodes} {u : UUID}
  {v : Embedding} {k : Nat}

/-- The nodes behind the rows of the statement, in their order. -/
def Cypher.hits (u : UUID) (yielded : List (EntityNode × Rat)) : List EntityNode :=
  ((yielded.filter fun p => p.1.VisibleTo u).insertionSort fun a b => b.2 ≤ a.2).map (·.1)

theorem Service.searchEntitiesByVector_eq :
    searchEntitiesByVector g queryNodes u v k =
      (Cypher.hits u (queryNodes k v)).map fun e => entity e (Cypher.sourceUrls g e.id) := by
  simp only [searchEntitiesByVector, Cypher.searchEntitiesByVector, Cypher.hits, List.map_map]
  rfl

theorem Cypher.hits_perm (yielded : List (EntityNode × Rat)) :
    ((yielded.map (·.1)).filter (·.VisibleTo u)).Perm (hits u yielded) := by
  rw [List.filter_map, hits]
  exact ((List.perm_insertionSort _ _).map _).symm

theorem Cypher.hits_sorted (exact : queryNodes.Exact sim g) :
    (hits u (queryNodes k v)).Pairwise fun a b => b.score sim v ≤ a.score sim v := by
  have sorted := List.pairwise_insertionSort (fun a b : EntityNode × Rat => b.2 ≤ a.2)
    ((queryNodes k v).filter fun p => p.1.VisibleTo u)
  refine List.pairwise_map.mpr (sorted.imp_of_mem fun {a b} ha hb below => ?_)
  have score : ∀ p ∈ ((queryNodes k v).filter fun p => p.1.VisibleTo u).insertionSort
      fun a b => b.2 ≤ a.2, p.2 = p.1.score sim v := by
    intro p hp
    rw [List.mem_insertionSort] at hp
    exact exact.scores k v p (List.mem_of_mem_filter hp)
  rw [score a ha, score b hb] at below
  exact below

theorem Graph.Wf.indexed_nodup (wf : g.Wf) : g.indexed.Nodup :=
  (List.Nodup.of_map _ wf.entityIds).filter _

/-- A stored entity is known by what is returned of it. -/
theorem Graph.Wf.perm_of_entities (wf : g.Wf) {es es' : List EntityNode}
    (stored : es ⊆ g.entities) (stored' : es' ⊆ g.entities) (nodup : es.Nodup)
    (nodup' : es'.Nodup) {f : EntityNode → List String}
    (same : es.map (fun e => Service.entity e (f e)) = es'.map fun e => Service.entity e (f e)) :
    es.Perm es' := by
  have half : ∀ {xs ys : List EntityNode}, xs ⊆ g.entities → ys ⊆ g.entities →
      xs.map (fun e => Service.entity e (f e)) = ys.map (fun e => Service.entity e (f e)) →
      xs ⊆ ys := by
    intro xs ys inside inside' same x hx
    have shown : Service.entity x (f x) ∈ ys.map fun e => Service.entity e (f e) :=
      same ▸ List.mem_map_of_mem hx
    obtain ⟨y, hy, eq⟩ := List.mem_map.mp shown
    have id : y.id = x.id := congrArg Entity.id eq
    rwa [← wf.eq_of_id (inside' hy) (inside hx) id]
  exact (List.perm_ext_iff_of_nodup nodup nodup').mpr fun x =>
    ⟨fun hx => half stored stored' same hx, fun hx => half stored' stored same.symm hx⟩

/-- The search is complete when what it lists is a selection. -/
theorem Service.searchComplete_iff (wf : g.Wf) (exact : queryNodes.Exact sim g) (pos : 1 ≤ k) :
    SearchComplete sim g u v k (searchEntitiesByVector g queryNodes u v k) ↔
      Nearest (·.score sim v) (g.indexed.filter (·.VisibleTo u)) k
        (((queryNodes k v).map (·.1)).filter (·.VisibleTo u)) := by
  have perm := Cypher.hits_perm (u := u) (queryNodes k v)
  have near := exact.nearest k v pos
  have stored : g.indexed ⊆ g.entities := List.filter_subset_self _
  rw [SearchComplete, searchEntitiesByVector_eq]
  constructor
  · rintro ⟨es, same, selected, -⟩
    have listed : Cypher.hits u (queryNodes k v) ⊆ g.entities := by
      intro e he
      exact stored (near.subset (List.mem_of_mem_filter (perm.mem_iff.mpr he)))
    have found : es ⊆ g.entities :=
      fun e he => stored (List.mem_of_mem_filter (selected.subset he))
    have unique : (Cypher.hits u (queryNodes k v)).Nodup :=
      perm.nodup_iff.mp (near.nodup.filter _)
    have together := wf.perm_of_entities listed found unique selected.nodup same
    exact selected.perm (perm.trans together).symm
  · intro selected
    exact ⟨_, rfl, selected.perm perm, Cypher.hits_sorted exact⟩

/-- An index that sorts all its nodes by their scores and cuts. -/
def QueryNodes.sorting (sim : Embedding → Embedding → Rat) (g : Graph) : QueryNodes := fun k v =>
  (nearest (·.score sim v) g.indexed k).map fun e => (e, e.score sim v)

theorem QueryNodes.sorting_exact (wf : g.Wf) : (sorting sim g).Exact sim g := by
  refine ⟨fun k v _ => ?_, fun k v p hp => ?_⟩
  · rw [sorting, List.map_map]
    exact (List.map_id _).symm ▸ nearest_spec wf.indexed_nodup
  · obtain ⟨e, -, rfl⟩ := List.mem_map.mp hp
    rfl

end Proofs

/-! ## Two users' notes in one index -/

/-- The dot product, as the similarity of two vectors. -/
def dot (a b : Embedding) : Rat := (List.zipWith (· * ·) a b).sum

/-- A private note. -/
def privateNote : EntityInput := { publicNote with visibility := .priv }

/-- The users 1 and 2 each have an embedded private note. -/
def Graph.twoNotes : Graph :=
  let g := (Op.run .empty (fun _ => 1) 1 (.createEntity 10 privateNote)).1
  let g := (Op.run g (fun _ => 2) 1 (.setEntityEmbedding 10 [2])).1
  let g := (Op.run g (fun _ => 3) 2 (.createEntity 20 privateNote)).1
  (Op.run g (fun _ => 4) 2 (.setEntityEmbedding 20 [1])).1

theorem reachable_twoNotes : Reachable .twoNotes := by
  have first := Reachable.empty.call (fun _ => 1) 1 (.createEntity 10 privateNote) (by decide)
  have second := first.call (fun _ => 2) 1 (.setEntityEmbedding 10 [2]) (by decide)
  have third := second.call (fun _ => 3) 2 (.createEntity 20 privateNote) (by decide)
  exact third.call (fun _ => 4) 2 (.setEntityEmbedding 20 [1]) (by decide)

theorem sorting_twoNotes : (QueryNodes.sorting dot .twoNotes).Exact dot .twoNotes :=
  QueryNodes.sorting_exact reachable_twoNotes.inv.wf

/-- **When the search is complete**: when the `k` nodes nearest to the vector are all visible to
the caller, or every embedded entity visible to the caller is one of them. -/
theorem Reachable.search_complete_iff {g : Graph} (h : Reachable g)
    {sim : Embedding → Embedding → Rat} {queryNodes : QueryNodes}
    (exact : queryNodes.Exact sim g) (u : UUID) (v : Embedding) {k : Nat} (pos : 1 ≤ k) :
    SearchComplete sim g u v k (Service.searchEntitiesByVector g queryNodes u v k) ↔
      (∀ p ∈ queryNodes k v, p.1.VisibleTo u) ∨
        ∀ e ∈ g.indexed, e.VisibleTo u → e ∈ (queryNodes k v).map (·.1) := by
  have wf := h.inv.wf
  rw [Service.searchComplete_iff wf exact pos,
    Nearest.filter_iff wf.indexed_nodup (exact.nearest k v pos)]
  simp only [decide_eq_true_eq, List.forall_mem_map]

/-- Asked for two entities, user 2 finds the one there is to find. -/
theorem search_complete_twoNotes :
    SearchComplete dot .twoNotes 2 [1] 2
        (Service.searchEntitiesByVector .twoNotes (.sorting dot .twoNotes) 2 [1] 2) ↔
      (∀ p ∈ QueryNodes.sorting dot .twoNotes 2 [1], p.1.VisibleTo 2) ∨
        ∀ e ∈ Graph.twoNotes.indexed, e.VisibleTo 2 →
          e ∈ (QueryNodes.sorting dot .twoNotes 2 [1]).map (·.1) :=
  reachable_twoNotes.search_complete_iff sorting_twoNotes 2 [1] (by decide)

/-- Asked for one, the index answers with user 1's private note, and user 2's own note is not
found. -/
theorem search_incomplete :
    ¬∀ (g : Graph) (_ : Reachable g) (sim : Embedding → Embedding → Rat) (queryNodes : QueryNodes)
      (_ : queryNodes.Exact sim g) (u : UUID) (v : Embedding) (k : Nat), 1 ≤ k →
        SearchComplete sim g u v k (Service.searchEntitiesByVector g queryNodes u v k) := by
  intro complete
  obtain ⟨es, same, selected, -⟩ := complete .twoNotes reachable_twoNotes dot
    (.sorting dot .twoNotes) sorting_twoNotes 2 [1] 1 (by decide)
  have nothing : Service.searchEntitiesByVector .twoNotes (.sorting dot .twoNotes) 2 [1] 1 = [] := by
    decide +kernel
  have visible : (Graph.twoNotes.indexed.filter (·.VisibleTo 2)).length = 1 := by decide +kernel
  have empty : es = [] := List.map_eq_nil_iff.mp (same.symm.trans nothing)
  have length := selected.length
  rw [empty, visible] at length
  exact absurd length (by decide)

end Intellivault
