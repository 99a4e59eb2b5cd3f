import Intellivault.Graph.NonInterference

/-!
# Visibility changes by different owners commute

`Graph.revise` is a change of visibility once its scope and the entities it flips are
known.  Neither is touched by another owner's change: the walk of one user follows that
user's edges between that user's entities, and the other deletes none of these
(`Service.mem_scope_revise`).  On each record two such revisions commute: an entity and its
citations are only rewritten for their owner, and whether an edge goes with a foreign
scope is read off its ends (`RelatedTo.revise_comm`).

Time stamps are set aside with `Graph.untimed`, over which a change of visibility factors.
-/

namespace Intellivault

open Lib

/-! ## Leaving time stamps out -/

def EntityNode.untimed (e : EntityNode) : EntityNode := { e with updatedAt := 0 }

def RelatedTo.untimed (r : RelatedTo) : RelatedTo := { r with updatedAt := 0 }

/-- The graph but for `updated_at`. -/
def Graph.untimed (g : Graph) : Graph :=
  { g with
    entities := g.entities.map (·.untimed)
    relationships := g.relationships.map (·.untimed) }

/-- The clock of the untimed graph. -/
def noClock : Clock := fun _ => 0

namespace EntityNode

variable {t s : Time} {ids js : List UUID} {u w : UUID} {a b : Visibility} {e : EntityNode}

theorem flip_untimed : (e.flip t ids u a).untimed = e.untimed.flip 0 ids u a := by
  unfold flip
  rw [apply_ite untimed]
  rfl

/-- Flips by different owners commute. -/
theorem flip_comm (other : u ≠ w) :
    (e.flip t ids u a).flip s js w b = (e.flip s js w b).flip t ids u a := by
  by_cases own : e.ownerId = u
  · have foreign : e.ownerId ≠ w := fun same => other (own.symm.trans same)
    have foreign' : (e.flip t ids u a).ownerId ≠ w := by rwa [flip_ownerId]
    rw [flip_of_foreign foreign, flip_of_foreign foreign']
  · have foreign' : (e.flip s js w b).ownerId ≠ u := by rwa [flip_ownerId]
    rw [flip_of_foreign own, flip_of_foreign foreign']

end EntityNode

namespace RelatedTo

variable {clock later : Clock} {t : Time} {c d : Bool} {ids js : List UUID} {u w : UUID}
  {a b : Visibility} {r r' : RelatedTo}

theorem flip_untimed : (r.flip t ids u a).untimed = r.untimed.flip 0 ids u a := by
  unfold flip
  rw [apply_ite untimed]
  rfl

theorem demote_untimed : (r.demote t ids u).untimed = r.untimed.demote 0 ids u := by
  unfold demote
  rw [apply_ite untimed]
  rfl

theorem clean_untimed : (r.clean t ids u).map (·.untimed) = r.untimed.clean 0 ids u := by
  unfold clean
  rw [apply_ite (Option.map _), Option.map_some, demote_untimed]
  rfl

theorem revise_untimed :
    (r.revise clock c ids u a).map (·.untimed) = r.untimed.revise noClock c ids u a := by
  have flipped : (if c then r.flip (clock 1) ids u a else r).untimed =
      if c then r.untimed.flip 0 ids u a else r.untimed := by
    cases c with
    | false => rfl
    | true => exact flip_untimed
  unfold revise
  cases a with
  | priv => exact clean_untimed.trans (congrArg (clean 0 ids u) flipped)
  | pub => exact congrArg some flipped

/-- A revision and one by somebody else than the edge's owner. -/
theorem revise_comm_of_foreign (foreign : r.ownerId ≠ w) :
    (r.revise clock c ids u a).bind (·.revise later d js w b) =
      (r.revise later d js w b).bind (·.revise clock c ids u a) := by
  rw [revise_of_foreign_eq foreign]
  cases revised : r.revise clock c ids u a with
  | none =>
      split
      · rfl
      · exact revised.symm
  | some r' =>
      have same := same_revise revised
      have foreign' : r'.ownerId ≠ w := by rwa [same.2.1]
      have touches : r'.Touches js ↔ r.Touches js := same.touches_iff
      simp only [Option.bind_some, revise_of_foreign_eq foreign', touches]
      split
      · rfl
      · exact revised.symm

/-- **Revisions by different owners commute** on every edge, whoever owns it. -/
theorem revise_comm (other : u ≠ w) :
    (r.revise clock c ids u a).bind (·.revise later d js w b) =
      (r.revise later d js w b).bind (·.revise clock c ids u a) := by
  by_cases own : r.ownerId = w
  · have foreign : r.ownerId ≠ u := fun same => other (same.symm.trans own)
    exact (revise_comm_of_foreign foreign).symm
  · exact revise_comm_of_foreign own

end RelatedTo

/-- Citations of different entities are restamped apart. -/
theorem SourcedFrom.restamp_comm {ids js : List UUID} {a b : Visibility} {r : SourcedFrom}
    (apart : ∀ x ∈ ids, x ∉ js) :
    (r.restamp ids a).restamp js b = (r.restamp js b).restamp ids a := by
  unfold restamp
  by_cases mem : r.entityId ∈ ids
  · have away := apart _ mem
    simp [mem, away]
  · by_cases mem' : r.entityId ∈ js <;> simp [mem, mem']

/-! ## A change of visibility as a revision -/

namespace Graph

variable {g : Graph} {clock later : Clock} {u w : UUID} {ids js xs ys : List UUID}
  {c d : VisibilityChange}

/-- The change to the entities `ids`, of which it flips the ones in `changed`. -/
def revise (g : Graph) (clock : Clock) (u : UUID) (ids changed : List UUID)
    (c : VisibilityChange) : Graph :=
  { entities := g.entities.map (·.flip (clock 0) ids u c.visibility)
    relationships := g.relationships.filterMap (·.revise clock c.cascade ids u c.visibility)
    sources := g.sources
    sourcedFrom := g.sourcedFrom.map (SourcedFrom.restamp changed c.visibility) }

theorem revise_congr (same : ∀ x, x ∈ ids ↔ x ∈ js) :
    g.revise clock u ids xs c = g.revise clock u js xs c := by
  simp only [revise, EntityNode.flip_congr same, RelatedTo.revise_congr same]

theorem revise_comm (other : u ≠ w) (apart : ∀ x ∈ xs, x ∉ ys) :
    (g.revise clock u ids xs c).revise later w js ys d =
      (g.revise later w js ys d).revise clock u ids xs c := by
  simp only [revise, List.map_map, mk.injEq, true_and]
  refine ⟨?_, ?_, ?_⟩
  · exact List.map_congr_left fun e _ => EntityNode.flip_comm other
  · exact filterMap_comm fun r => RelatedTo.revise_comm other
  · exact List.map_congr_left fun r _ => SourcedFrom.restamp_comm apart

theorem revise_untimed :
    (g.revise clock u ids xs c).untimed = g.untimed.revise noClock u ids xs c := by
  simp only [revise, untimed, List.map_map, List.filterMap_map, List.map_filterMap, mk.injEq,
    and_true]
  constructor
  · exact List.map_congr_left fun e _ => EntityNode.flip_untimed
  · congr 1
    funext r
    exact RelatedTo.revise_untimed

end Graph

/-! ## What one owner's change reads -/

namespace Graph

variable {g g' : Graph} {clock : Clock} {u w x : UUID} {ids xs : List UUID}
  {c : VisibilityChange}

theorem owns_revise : (g.revise clock w ids xs c).Owns u x ↔ g.Owns u x := by
  simp [revise, Owns]

theorem owns_untimed : g.untimed.Owns u x ↔ g.Owns u x := by
  simp [untimed, EntityNode.untimed, Owns]

/-- The walk of the user from an own entity goes by what the user owns. -/
theorem reaches_of_hops
    (hops : ∀ a b, g.Owns u a → Cypher.OwnedHop g u a b → Cypher.OwnedHop g' u a b)
    (own : g.Owns u x) {y : UUID} (path : Relation.ReflTransGen (Cypher.OwnedHop g u) x y) :
    Relation.ReflTransGen (Cypher.OwnedHop g' u) x y := by
  suffices walked : g.Owns u y ∧ Relation.ReflTransGen (Cypher.OwnedHop g' u) x y from walked.2
  induction path with
  | refl => exact ⟨own, .refl⟩
  | tail _ hop ih => exact ⟨hop.1, ih.2.tail (hops _ _ ih.1 hop)⟩

end Graph

namespace Service

variable {g : Graph} {clock : Clock} {u w x id : UUID} {ids xs : List UUID} {a : Visibility}
  {c : VisibilityChange} {cascade : Bool}

/-- Between the user's own entities no one else's change touches an edge of the user's. -/
theorem ownedHop_revise (wf : g.Wf) (other : u ≠ w) (foreign : ∀ y ∈ ids, g.Owns w y)
    {p q : UUID} (own : g.Owns u p) :
    Cypher.OwnedHop (g.revise clock w ids xs c) u p q ↔ Cypher.OwnedHop g u p q := by
  unfold Cypher.OwnedHop
  rw [Graph.owns_revise]
  apply and_congr_right
  intro own'
  constructor
  · intro ⟨r', hr', mine, ends⟩
    obtain ⟨r, hr, revised⟩ := List.mem_filterMap.mp hr'
    obtain ⟨-, howner, hfrom, hto, -⟩ := RelatedTo.same_revise revised
    rw [howner] at mine
    rw [hfrom, hto] at ends
    exact ⟨r, hr, mine, ends⟩
  · intro ⟨r, hr, mine, ends⟩
    have notOwner : r.ownerId ≠ w := fun same => other (mine.symm.trans same)
    have away : ∀ y, g.Owns u y → y ∉ ids := fun y hy mem =>
      other (wf.owner_unique hy (foreign y mem))
    have untouched : ¬r.Touches ids := by
      rcases ends with ⟨hfrom, hto⟩ | ⟨hfrom, hto⟩
      · rw [RelatedTo.Touches, hfrom, hto]
        exact not_or.mpr ⟨away p own, away q own'⟩
      · rw [RelatedTo.Touches, hfrom, hto]
        exact not_or.mpr ⟨away q own', away p own⟩
    refine ⟨r, List.mem_filterMap.mpr ⟨r, hr, ?_⟩, mine, ends⟩
    rw [RelatedTo.revise_of_foreign_eq notOwner, if_neg fun h => untouched h.2]

theorem wf_revise (wf : g.Wf) (foreign : g.Owns w id) :
    (g.revise clock w (scope g w id c.cascade)
      (flipped g (scope g w id c.cascade) w c.visibility) c).Wf := by
  have run : (Op.run g clock w (.changeVisibility id c)).1.Wf := Op.wf_run wf trivial
  rwa [Op.run, changeVisibility_eq clock c wf foreign] at run

/-- The scope is the same wherever the user owns the same and walks the same. -/
theorem mem_scope_congr {g' : Graph} (wf : g.Wf) (wf' : g'.Wf) (own : g.Owns u id)
    (owns : ∀ y, g'.Owns u y ↔ g.Owns u y)
    (hops : ∀ p q, g.Owns u p → (Cypher.OwnedHop g' u p q ↔ Cypher.OwnedHop g u p q)) :
    x ∈ scope g' u id cascade ↔ x ∈ scope g u id cascade := by
  cases cascade with
  | false => exact Iff.rfl
  | true =>
      simp only [scope, if_true, mem_ownedComponent wf, mem_ownedComponent wf']
      constructor
      · refine Graph.reaches_of_hops (fun p q mine hop => ?_) ((owns id).mpr own)
        exact (hops p q ((owns p).mp mine)).mp hop
      · exact Graph.reaches_of_hops (fun p q mine hop => (hops p q mine).mpr hop) own

theorem mem_scope_revise (wf : g.Wf) (wf' : (g.revise clock w ids xs c).Wf) (other : u ≠ w)
    (own : g.Owns u id) (foreign : ∀ y ∈ ids, g.Owns w y) :
    x ∈ scope (g.revise clock w ids xs c) u id cascade ↔ x ∈ scope g u id cascade :=
  mem_scope_congr wf wf' own (fun _ => Graph.owns_revise) fun _ _ mine =>
    ownedHop_revise wf other foreign mine

theorem flipped_congr {js : List UUID} (same : ∀ y, y ∈ ids ↔ y ∈ js) :
    flipped g ids u a = flipped g js u a := by
  simp only [flipped, same]

theorem flipped_revise (other : u ≠ w) {js : List UUID} :
    flipped (g.revise clock w ids xs c) js u a = flipped g js u a := by
  unfold flipped Graph.revise
  congr 1
  apply filter_map_of_fixed
  · intro e
    by_cases mine : e.ownerId = w
    · simp [mine, other.symm]
    · rw [EntityNode.flip_of_foreign mine]
  · intro e hit
    obtain ⟨-, own, -⟩ := of_decide_eq_true hit
    exact EntityNode.flip_of_foreign fun mine => other (own.symm.trans mine)

/-- **What a user's change does is settled before another owner's change.** -/
theorem changeVisibility_revise (wf : g.Wf) (wf' : (g.revise clock w ids xs c).Wf) (other : u ≠ w)
    (own : g.Owns u id) (foreign : ∀ y ∈ ids, g.Owns w y) (later : Clock) (d : VisibilityChange) :
    changeVisibility (g.revise clock w ids xs c) later u id d =
      ((g.revise clock w ids xs c).revise later u (scope g u id d.cascade)
        (flipped g (scope g u id d.cascade) u d.visibility) d,
        .ok ⟨flipped g (scope g u id d.cascade) u d.visibility⟩) := by
  have same : ∀ y, y ∈ scope (g.revise clock w ids xs c) u id d.cascade ↔
      y ∈ scope g u id d.cascade := fun y => mem_scope_revise wf wf' other own foreign
  rw [changeVisibility_eq later d wf' (Graph.owns_revise.mpr own), flipped_revise other,
    flipped_congr same]
  exact congrArg (·, _) (Graph.revise_congr same)

theorem owns_changeVisibility (wf : g.Wf) :
    (changeVisibility g clock w id c).1.Owns u x ↔ g.Owns u x := by
  by_cases own : g.Owns w id
  · rw [changeVisibility_eq clock c wf own]
    exact Graph.owns_revise
  · rw [changeVisibility_of_not_owns own]

/-- On one clock the two orders even agree on the time stamps. -/
theorem changeVisibility_comm (wf : g.Wf) (other : u ≠ w) (t s : Clock) (e f : UUID)
    (c d : VisibilityChange) :
    (changeVisibility (changeVisibility g t u e c).1 s w f d).1 =
        (changeVisibility (changeVisibility g s w f d).1 t u e c).1 ∧
      (changeVisibility (changeVisibility g s w f d).1 t u e c).2 =
        (changeVisibility g t u e c).2 ∧
      (changeVisibility (changeVisibility g t u e c).1 s w f d).2 =
        (changeVisibility g s w f d).2 := by
  by_cases own : g.Owns u e
  · by_cases own' : g.Owns w f
    · have mine : ∀ y ∈ scope g u e c.cascade, g.Owns u y := fun _ => owns_of_mem_scope wf own
      have theirs : ∀ y ∈ scope g w f d.cascade, g.Owns w y := fun _ => owns_of_mem_scope wf own'
      have apart : ∀ y ∈ flipped g (scope g u e c.cascade) u c.visibility,
          y ∉ flipped g (scope g w f d.cascade) w d.visibility := fun y hy hy' =>
        other (wf.owner_unique (owns_of_mem_flipped hy) (owns_of_mem_flipped hy'))
      have first : changeVisibility g t u e c = (g.revise t u (scope g u e c.cascade)
          (flipped g (scope g u e c.cascade) u c.visibility) c, _) := changeVisibility_eq t c wf own
      have second : changeVisibility g s w f d = (g.revise s w (scope g w f d.cascade)
          (flipped g (scope g w f d.cascade) w d.visibility) d, _) := changeVisibility_eq s d wf own'
      rw [first, second, changeVisibility_revise wf (wf_revise wf own) other.symm own' mine,
        changeVisibility_revise wf (wf_revise wf own') other own theirs]
      exact ⟨Graph.revise_comm other apart, rfl, rfl⟩
    · have foreign : ¬(changeVisibility g t u e c).1.Owns w f :=
        fun has => own' ((owns_changeVisibility wf).mp has)
      rw [changeVisibility_of_not_owns own', changeVisibility_of_not_owns foreign]
      exact ⟨rfl, rfl, rfl⟩
  · have foreign : ¬(changeVisibility g s w f d).1.Owns u e :=
      fun has => own ((owns_changeVisibility wf).mp has)
    rw [changeVisibility_of_not_owns own, changeVisibility_of_not_owns foreign]
    exact ⟨rfl, rfl, rfl⟩

/-! ## Over the untimed graph -/

theorem wf_untimed (wf : g.Wf) : g.untimed.Wf := by
  have ids : g.untimed.entities.map (·.id) = g.entities.map (·.id) := List.map_map
  have edgeIds : g.untimed.relationships.map (·.id) = g.relationships.map (·.id) := List.map_map
  constructor
  · rw [ids]
    exact wf.entityIds
  · rw [edgeIds]
    exact wf.edgeIds
  · intro r' hr'
    obtain ⟨r, hr, rfl⟩ := List.mem_map.mp hr'
    exact ⟨(wf.endpoints r hr).1.of_ids ids, (wf.endpoints r hr).2.of_ids ids⟩
  · exact fun r hr => (wf.citing r hr).of_ids ids

theorem ownedHop_untimed {p q : UUID} :
    Cypher.OwnedHop g.untimed u p q ↔ Cypher.OwnedHop g u p q := by
  unfold Cypher.OwnedHop
  rw [Graph.owns_untimed]
  simp [Graph.untimed, RelatedTo.untimed]

theorem flipped_untimed : flipped g.untimed ids u a = flipped g ids u a := by
  unfold flipped Graph.untimed
  rw [List.filter_map, List.map_map]
  rfl

/-- The clock only goes into time stamps. -/
theorem changeVisibility_untimed (wf : g.Wf) :
    (changeVisibility g clock u id c).1.untimed =
        (changeVisibility g.untimed noClock u id c).1 ∧
      (changeVisibility g clock u id c).2 = (changeVisibility g.untimed noClock u id c).2 := by
  by_cases own : g.Owns u id
  · have own' : g.untimed.Owns u id := Graph.owns_untimed.mpr own
    have same : ∀ y, y ∈ scope g.untimed u id c.cascade ↔ y ∈ scope g u id c.cascade := fun y =>
      mem_scope_congr wf (wf_untimed wf) own (fun _ => Graph.owns_untimed) fun _ _ _ =>
        ownedHop_untimed
    have timed : changeVisibility g clock u id c = (g.revise clock u (scope g u id c.cascade)
      (flipped g (scope g u id c.cascade) u c.visibility) c, _) := changeVisibility_eq clock c wf own
    rw [timed, changeVisibility_eq noClock c (wf_untimed wf) own', Graph.revise_untimed,
      flipped_untimed, flipped_congr same]
    exact ⟨(Graph.revise_congr same).symm, rfl⟩
  · have foreign : ¬g.untimed.Owns u id := fun has => own (Graph.owns_untimed.mp has)
    rw [changeVisibility_of_not_owns own, changeVisibility_of_not_owns foreign]
    exact ⟨rfl, rfl⟩

theorem changeVisibility_answer (wf : g.Wf) (t s : Clock) :
    (changeVisibility g t u id c).2 = (changeVisibility g s u id c).2 :=
  (changeVisibility_untimed wf).2.trans (changeVisibility_untimed wf).2.symm

/-- Two changes in a row, over the untimed graph. -/
theorem changeVisibility_twice_untimed (wf : g.Wf) (t s : Clock) (e f : UUID)
    (c d : VisibilityChange) :
    (changeVisibility (changeVisibility g t u e c).1 s w f d).1.untimed =
      (changeVisibility (changeVisibility g.untimed noClock u e c).1 noClock w f d).1 := by
  have run : (Op.run g t u (.changeVisibility e c)).1.Wf := Op.wf_run wf trivial
  have between : (changeVisibility g t u e c).1.Wf := run
  rw [(changeVisibility_untimed between).1, (changeVisibility_untimed wf).1]

end Service

/-- **Visibility changes by different owners commute.**  In either order, at whatever times,
the graphs differ in `updated_at` at most and each call gets the same answer. -/
theorem Reachable.changes_commute {g : Graph} (h : Reachable g) {u w : UUID} (other : u ≠ w)
    (e f : UUID) (c d : VisibilityChange) (t₁ t₂ s₁ s₂ : Clock) :
    let first := Service.changeVisibility g t₁ u e c
    let second := Service.changeVisibility first.1 s₁ w f d
    let first' := Service.changeVisibility g s₂ w f d
    let second' := Service.changeVisibility first'.1 t₂ u e c
    second.1.untimed = second'.1.untimed ∧
      Answer.Same (.of .affected first.2) (.of .affected second'.2) ∧
      Answer.Same (.of .affected second.2) (.of .affected first'.2) := by
  have wf := h.inv.wf
  dsimp only
  obtain ⟨graphs, -, -⟩ :=
    Service.changeVisibility_comm (Service.wf_untimed wf) other noClock noClock e f c d
  obtain ⟨-, answer, -⟩ := Service.changeVisibility_comm wf other t₂ s₂ e f c d
  obtain ⟨-, -, answer'⟩ := Service.changeVisibility_comm wf other t₁ s₁ e f c d
  refine ⟨?_, ?_, ?_⟩
  · rw [Service.changeVisibility_twice_untimed wf, graphs,
      Service.changeVisibility_twice_untimed wf]
  · rw [answer, Service.changeVisibility_answer wf t₁ t₂]
    exact .of_eq rfl
  · rw [answer', Service.changeVisibility_answer wf s₁ s₂]
    exact .of_eq rfl

/-- User 1 takes the note 10 back while user 2 takes back the note 20 and the edge between:
the edge goes, whoever comes first. -/
theorem changes_commute_twoUsers :
    (Service.changeVisibility (Service.changeVisibility .twoUsers (fun _ => 4) 1 10 ⟨.priv, false⟩).1
        (fun _ => 5) 2 20 ⟨.priv, true⟩).1.untimed =
      (Service.changeVisibility (Service.changeVisibility .twoUsers (fun _ => 4) 2 20 ⟨.priv, true⟩).1
        (fun _ => 5) 1 10 ⟨.priv, false⟩).1.untimed :=
  (reachable_twoUsers.changes_commute (show (1 : UUID) ≠ 2 by decide) 10 20 ⟨.priv, false⟩
    ⟨.priv, true⟩ (fun _ => 4) (fun _ => 5) (fun _ => 5) (fun _ => 4)).1

end Intellivault
