import Intellivault.Graph.Commute
import Intellivault.Graph.Provenance

/-!
# Visibility changes in a row

A change of visibility by the owner keeps every edge the walk of `_owned_component` goes by,
so the next change has the same scope (`Service.mem_scope_own`).  On each record of that scope
a second change to the same visibility has nothing to do, and a change to private leaves
nothing of a change to public before it.
-/

namespace Intellivault

open Lib

/-! ## One record -/

namespace EntityNode

variable {t s : Time} {ids : List UUID} {u : UUID} {a v : Visibility} {e : EntityNode}

theorem flip_settled (settled : e.id ∈ ids → e.ownerId = u → e.visibility = v) :
    e.flip t ids u v = e :=
  if_neg fun h => h.2.2 (settled h.1 h.2.1)

theorem flip_flip : (e.flip t ids u v).flip s ids u v = e.flip t ids u v := by
  refine flip_settled fun mem own => ?_
  rw [flip_id] at mem
  rw [flip_ownerId] at own
  exact flip_visibility mem own

theorem flip_mine (mem : e.id ∈ ids) (own : e.ownerId = u) (stamped : e.updatedAt = t) :
    e.flip t ids u v = { e with visibility := v } := by
  by_cases same : e.visibility = v
  · rw [flip_settled fun _ _ => same, ← same]
  · rw [flip, if_pos ⟨mem, own, same⟩, ← stamped]

/-- Of two flips at one time the last decides. -/
theorem flip_last (stamped : e.updatedAt = t) :
    (e.flip t ids u a).flip t ids u v = e.flip t ids u v := by
  by_cases mine : e.id ∈ ids ∧ e.ownerId = u
  · have between : e.flip t ids u a = { e with visibility := a } :=
      flip_mine mine.1 mine.2 stamped
    rw [between, flip_mine mine.1 mine.2 stamped]
    exact flip_mine (e := { e with visibility := a }) mine.1 mine.2 stamped
  · rw [flip_settled (v := a) fun mem own => absurd ⟨mem, own⟩ mine]

end EntityNode

namespace RelatedTo

variable {clock later : Clock} {t : Time} {cascade : Bool} {ids : List UUID} {u : UUID}
  {a v : Visibility} {r r' : RelatedTo}

theorem Within.touches (within : r.Within ids) : r.Touches ids := Or.inl within.1

theorem Same.within_iff (same : r.Same r') : r'.Within ids ↔ r.Within ids := by
  unfold Within
  rw [same.2.2.1, same.2.2.2.1]

theorem flip_settled (settled : r.ownerId = u → r.Within ids → r.visibility = v) :
    r.flip t ids u v = r :=
  if_neg fun h => h.1.2 (settled h.1.1 h.2)

theorem demote_settled (settled : r.ownerId = u → r.Touches ids → r.visibility = .priv) :
    r.demote t ids u = r := by
  refine if_neg fun h => ?_
  have shown := h.1.2
  rw [settled h.1.1 h.2] at shown
  cases shown

theorem flip_mine (own : r.ownerId = u) (within : r.Within ids) (stamped : r.updatedAt = t) :
    r.flip t ids u v = { r with visibility := v } := by
  by_cases same : r.visibility = v
  · rw [flip_settled fun _ _ => same, ← same]
  · rw [flip, if_pos ⟨⟨own, same⟩, within⟩, ← stamped]

theorem flip_last (stamped : r.updatedAt = t) :
    (r.flip t ids u a).flip t ids u v = r.flip t ids u v := by
  by_cases mine : r.ownerId = u ∧ r.Within ids
  · have between : r.flip t ids u a = { r with visibility := a } :=
      flip_mine mine.1 mine.2 stamped
    rw [between, flip_mine mine.1 mine.2 stamped]
    exact flip_mine (r := { r with visibility := a }) mine.1 mine.2 stamped
  · rw [flip_settled (v := a) fun own within => absurd ⟨own, within⟩ mine]

theorem flip_visibility (own : r.ownerId = u) (within : r.Within ids) :
    (r.flip t ids u v).visibility = v := by
  unfold flip
  split
  · rfl
  · rename_i h
    by_contra other
    exact h ⟨⟨own, other⟩, within⟩

/-- No change of the owner's takes an edge of the owner's away. -/
theorem revise_own (own : r.ownerId = u) : ∃ r', r.revise clock cascade ids u v = some r' := by
  have flipped : (if cascade then r.flip (clock 1) ids u v else r).ownerId = u := by
    cases cascade with
    | false => exact own
    | true => exact same_flip.2.1.trans own
  cases v with
  | pub => exact ⟨_, rfl⟩
  | priv =>
      have kept : ¬(RelatedTo.ownerId (if cascade then r.flip (clock 1) ids u .priv else r) ≠ u ∧
        (if cascade then r.flip (clock 1) ids u .priv else r).Touches ids) :=
        fun foreign => foreign.1 flipped
      exact ⟨_, if_neg kept⟩

/-- A change that finds the edge as it would leave it. -/
theorem revise_of_settled
    (inside : cascade = true → r.ownerId = u → r.Within ids → r.visibility = v)
    (hidden : v = .priv → r.Touches ids → r.ownerId = u ∧ r.visibility = .priv) :
    r.revise clock cascade ids u v = some r := by
  have unflipped : (if cascade then r.flip (clock 1) ids u v else r) = r := by
    cases cascade with
    | false => rfl
    | true => exact flip_settled (inside rfl)
  unfold revise
  rw [unflipped]
  cases v with
  | pub => rfl
  | priv =>
      have kept : ¬(r.ownerId ≠ u ∧ r.Touches ids) := fun foreign =>
        foreign.1 (hidden rfl foreign.2).1
      have demoted : r.demote (clock (if cascade then 2 else 1)) ids u = r :=
        demote_settled fun _ touches => (hidden rfl touches).2
      exact (if_neg kept).trans (congrArg some demoted)

/-- After a change the same change finds nothing to do on the edge. -/
theorem revise_settled (revised : r.revise clock cascade ids u v = some r') :
    r'.revise later cascade ids u v = some r' := by
  have same := same_revise revised
  refine revise_of_settled (fun cascades own within => ?_) fun target touches => ?_
  · cases v with
    | priv => exact (revise_hides revised (same.touches_iff.mp within.touches)).2
    | pub =>
        have flipped : r.flip (clock 1) ids u .pub = r' := by
          rw [cascades] at revised
          exact Option.some.inj revised
        rw [← flipped] at own within ⊢
        exact flip_visibility (same_flip.2.1.symm.trans own) (same_flip.within_iff.mp within)
  · rw [target] at revised
    have hides := revise_hides revised (same.touches_iff.mp touches)
    exact ⟨same.2.1.trans hides.1, hides.2⟩

/-- A change to public before a change to private leaves no trace on the edge. -/
theorem revise_last (stamped : r.updatedAt = 0) :
    (r.revise noClock cascade ids u .pub).bind (·.revise noClock cascade ids u .priv) =
      r.revise noClock cascade ids u .priv := by
  cases cascade with
  | false => rfl
  | true => exact congrArg (clean 0 ids u) (flip_last stamped)

end RelatedTo

namespace SourcedFrom

variable {ids js ks : List UUID} {a v : Visibility} {r : SourcedFrom}

theorem restamp_nil : restamp [] v r = r := if_neg List.not_mem_nil

/-- Restamping the entities `ids` and then the entities `js` is restamping the entities `ks`
alone, if `js` covers both and what it has beyond `ks` is stamped so already. -/
theorem restamp_last (first : r.entityId ∈ ids → r.entityId ∈ js)
    (alone : r.entityId ∈ ks → r.entityId ∈ js)
    (stamped : r.entityId ∈ js → r.entityId ∉ ks → r.visibility = v) :
    (r.restamp ids a).restamp js v = r.restamp ks v := by
  have same : (r.restamp ids a).entityId = r.entityId := by
    unfold restamp
    split <;> rfl
  by_cases mem : r.entityId ∈ js
  · have twice : (r.restamp ids a).restamp js v = { r with visibility := v } := by
      rw [restamp, if_pos (same ▸ mem)]
      unfold restamp
      split <;> rfl
    rw [twice, restamp]
    split
    · rfl
    · rename_i absent
      rw [← stamped mem absent]
  · have apart : r.entityId ∉ ids := fun mem' => mem (first mem')
    have apart' : r.entityId ∉ ks := fun mem' => mem (alone mem')
    rw [restamp, if_neg (same ▸ mem), restamp, if_neg apart, restamp, if_neg apart']

end SourcedFrom

/-! ## The graph -/

namespace Service

variable {g : Graph} {clock later : Clock} {u id x : UUID} {ids xs : List UUID}
  {a v : Visibility} {c : VisibilityChange} {cascade : Bool}

theorem ownedHop_own {p q : UUID} :
    Cypher.OwnedHop (g.revise clock u ids xs c) u p q ↔ Cypher.OwnedHop g u p q := by
  unfold Cypher.OwnedHop
  rw [Graph.owns_revise]
  apply and_congr_right
  intro _
  constructor
  · intro ⟨r', hr', mine, ends⟩
    obtain ⟨r, hr, revised⟩ := List.mem_filterMap.mp hr'
    obtain ⟨-, howner, hfrom, hto, -⟩ := RelatedTo.same_revise revised
    rw [howner] at mine
    rw [hfrom, hto] at ends
    exact ⟨r, hr, mine, ends⟩
  · intro ⟨r, hr, mine, ends⟩
    obtain ⟨r', revised⟩ : ∃ r', r.revise clock c.cascade ids u c.visibility = some r' :=
      RelatedTo.revise_own mine
    obtain ⟨-, howner, hfrom, hto, -⟩ := RelatedTo.same_revise revised
    refine ⟨r', List.mem_filterMap.mpr ⟨r, hr, revised⟩, howner.trans mine, ?_⟩
    rwa [hfrom, hto]

/-- The walk is the same after a change of the owner's own. -/
theorem mem_scope_own (wf : g.Wf) (wf' : (g.revise clock u ids xs c).Wf) (own : g.Owns u id) :
    x ∈ scope (g.revise clock u ids xs c) u id cascade ↔ x ∈ scope g u id cascade :=
  mem_scope_congr wf wf' own (fun _ => Graph.owns_revise) fun _ _ _ => ownedHop_own

/-- A second change by the owner, over the scope of the first. -/
theorem changeVisibility_own (wf : g.Wf) (wf' : (g.revise clock u ids xs c).Wf)
    (own : g.Owns u id) (d : VisibilityChange) :
    changeVisibility (g.revise clock u ids xs c) later u id d =
      ((g.revise clock u ids xs c).revise later u (scope g u id d.cascade)
        (flipped (g.revise clock u ids xs c) (scope g u id d.cascade) u d.visibility) d,
        .ok ⟨flipped (g.revise clock u ids xs c) (scope g u id d.cascade) u d.visibility⟩) := by
  have same : ∀ y, y ∈ scope (g.revise clock u ids xs c) u id d.cascade ↔
      y ∈ scope g u id d.cascade := fun y => mem_scope_own wf wf' own
  rw [changeVisibility_eq later d wf' (Graph.owns_revise.mpr own), flipped_congr same]
  exact congrArg (·, _) (Graph.revise_congr same)

theorem flipped_settled :
    flipped (g.revise clock u ids xs c) ids u c.visibility = [] := by
  rw [List.eq_nil_iff_forall_not_mem]
  intro x mem
  obtain ⟨e', he', ⟨hid, own, other⟩, -⟩ := mem_flipped.mp mem
  obtain ⟨e, -, rfl⟩ := List.mem_map.mp he'
  rw [EntityNode.flip_id] at hid
  rw [EntityNode.flip_ownerId] at own
  exact other (EntityNode.flip_visibility hid own)

theorem revise_settled :
    (g.revise clock u ids xs c).revise later u ids [] c = g.revise clock u ids xs c := by
  have entities : ∀ e : EntityNode,
      (e.flip (clock 0) ids u c.visibility).flip (later 0) ids u c.visibility =
        e.flip (clock 0) ids u c.visibility := fun _ => EntityNode.flip_flip
  have edges : ∀ r : RelatedTo, (r.revise clock c.cascade ids u c.visibility).bind
      (·.revise later c.cascade ids u c.visibility) =
        r.revise clock c.cascade ids u c.visibility := by
    intro r
    cases revised : r.revise clock c.cascade ids u c.visibility with
    | none => rfl
    | some r' => exact RelatedTo.revise_settled revised
  have citations : SourcedFrom.restamp [] c.visibility = fun r => r :=
    funext fun _ => SourcedFrom.restamp_nil
  simp only [Graph.revise, List.map_map, List.filterMap_filterMap, Function.comp_def, entities,
    edges, citations]

/-- The same change again changes nothing and answers that nothing is affected. -/
theorem changeVisibility_again (wf : g.Wf) (own : g.Owns u id) :
    changeVisibility (changeVisibility g clock u id c).1 later u id c =
      ((changeVisibility g clock u id c).1, .ok ⟨[]⟩) := by
  have first : changeVisibility g clock u id c = (g.revise clock u (scope g u id c.cascade)
    (flipped g (scope g u id c.cascade) u c.visibility) c, _) := changeVisibility_eq clock c wf own
  rw [first, changeVisibility_own wf (wf_revise wf own) own c, flipped_settled, revise_settled]

/-! ## Public, then private -/

theorem mem_flipped_revise (other : c.visibility ≠ v) (owner : ∀ y ∈ ids, g.Owns u y) :
    x ∈ flipped (g.revise clock u ids xs c) ids u v ↔ x ∈ ids := by
  constructor
  · intro mem
    obtain ⟨e', -, ⟨hid, -⟩, rfl⟩ := mem_flipped.mp mem
    exact hid
  · intro mem
    obtain ⟨e, he, hid, own⟩ := owner x mem
    have mem' : e.id ∈ ids := hid ▸ mem
    refine mem_flipped.mpr ⟨_, List.mem_map_of_mem he, ?_, EntityNode.flip_id.trans hid⟩
    rw [EntityNode.flip_id, EntityNode.flip_ownerId, EntityNode.flip_visibility mem' own]
    exact ⟨mem', own, other⟩

theorem mem_of_mem_flipped (mem : x ∈ flipped g ids u v) : x ∈ ids := by
  obtain ⟨e, -, ⟨hid, -⟩, rfl⟩ := mem_flipped.mp mem
  exact hid

/-- A citation of an entity that a change leaves as it is has the target visibility already. -/
theorem stamped_of_not_flipped (mirrored : g.Mirrored)
    (owner : ∀ y ∈ ids, g.Owns u y) {r : SourcedFrom} (cited : r ∈ g.sourcedFrom)
    (mem : r.entityId ∈ ids) (unflipped : r.entityId ∉ flipped g ids u v) : r.visibility = v := by
  obtain ⟨e, he, hid, own⟩ := owner _ mem
  rw [mirrored.mirror r cited e he hid]
  by_contra other
  exact unflipped (mem_flipped.mpr ⟨e, he, ⟨hid.symm ▸ mem, own, other⟩, hid⟩)

theorem revise_last (mirrored : g.Mirrored) (owner : ∀ y ∈ ids, g.Owns u y)
    (clock later alone : Clock) :
    ((g.revise clock u ids (flipped g ids u .pub) ⟨.pub, cascade⟩).revise later u ids
      (flipped (g.revise clock u ids (flipped g ids u .pub) ⟨.pub, cascade⟩) ids u .priv)
        ⟨.priv, cascade⟩).untimed =
      (g.revise alone u ids (flipped g ids u .priv) ⟨.priv, cascade⟩).untimed := by
  have covers : ∀ y, y ∈ flipped (g.revise clock u ids (flipped g ids u .pub) ⟨.pub, cascade⟩)
      ids u .priv ↔ y ∈ ids := fun y =>
    mem_flipped_revise (show Visibility.pub ≠ .priv by decide) owner
  have entities : ∀ e : EntityNode, (e.untimed.flip (noClock 0) ids u .pub).flip (noClock 0) ids u
      .priv = e.untimed.flip (noClock 0) ids u .priv := fun e => EntityNode.flip_last rfl
  have edges : ∀ r : RelatedTo, (r.untimed.revise noClock cascade ids u .pub).bind
      (·.revise noClock cascade ids u .priv) = r.untimed.revise noClock cascade ids u .priv :=
    fun r => RelatedTo.revise_last rfl
  rw [Graph.revise_untimed, Graph.revise_untimed, Graph.revise_untimed]
  simp only [Graph.revise, Graph.untimed, List.map_map, List.filterMap_map,
    List.filterMap_filterMap, Function.comp_def, entities, edges, Graph.mk.injEq, true_and]
  refine List.map_congr_left fun r cited => SourcedFrom.restamp_last ?_ ?_ ?_
  · exact fun mem => (covers _).mpr (mem_of_mem_flipped mem)
  · exact fun mem => (covers _).mpr (mem_of_mem_flipped mem)
  · exact fun mem unflipped =>
      stamped_of_not_flipped mirrored owner cited ((covers _).mp mem) unflipped

/-- Nothing but time stamps tells a change to private from the two changes. -/
theorem changeVisibility_last (wf : g.Wf) (mirrored : g.Mirrored) (own : g.Owns u id)
    (clock later alone : Clock) :
    (changeVisibility (changeVisibility g clock u id ⟨.pub, cascade⟩).1 later u id
      ⟨.priv, cascade⟩).1.untimed =
        (changeVisibility g alone u id ⟨.priv, cascade⟩).1.untimed := by
  have owner : ∀ y ∈ scope g u id cascade, g.Owns u y := fun _ => owns_of_mem_scope wf own
  have first : changeVisibility g clock u id ⟨.pub, cascade⟩ =
      (g.revise clock u (scope g u id cascade) (flipped g (scope g u id cascade) u .pub)
        ⟨.pub, cascade⟩, _) := changeVisibility_eq clock ⟨.pub, cascade⟩ wf own
  have only : changeVisibility g alone u id ⟨.priv, cascade⟩ =
      (g.revise alone u (scope g u id cascade) (flipped g (scope g u id cascade) u .priv)
        ⟨.priv, cascade⟩, _) := changeVisibility_eq alone ⟨.priv, cascade⟩ wf own
  have wf' : (g.revise clock u (scope g u id cascade) (flipped g (scope g u id cascade) u .pub)
      ⟨.pub, cascade⟩).Wf := wf_revise (c := ⟨.pub, cascade⟩) wf own
  rw [first, only, changeVisibility_own wf wf' own]
  exact revise_last mirrored owner clock later alone

end Service

theorem Reachable.mirrored {g : Graph} (h : Reachable g) : g.Mirrored := by
  induction h with
  | refl => exact Graph.mirrored_empty
  | tail before step ih =>
      cases step with
      | call clock u op fresh => exact Op.mirrored_run (Reachable.inv before).wf ih fresh

/-- **Visibility toggles.**  The owner's change applied again gives the very same graph and an
answer without ids; and making public and then private is making private, but for
`updated_at`, whenever each call is made. -/
theorem Reachable.toggles {g : Graph} (h : Reachable g) {u e : UUID} (own : g.Owns u e)
    (w : Visibility) (cascade : Bool) (first again alone : Clock) :
    let once := (Service.changeVisibility g first u e ⟨w, cascade⟩).1
    let shown := (Service.changeVisibility g first u e ⟨.pub, cascade⟩).1
    Service.changeVisibility once again u e ⟨w, cascade⟩ = (once, .ok ⟨[]⟩) ∧
      (Service.changeVisibility shown again u e ⟨.priv, cascade⟩).1.untimed =
        (Service.changeVisibility g alone u e ⟨.priv, cascade⟩).1.untimed :=
  ⟨Service.changeVisibility_again h.inv.wf own,
    Service.changeVisibility_last h.inv.wf h.mirrored own first again alone⟩

/-- User 2 withdraws the note 20 and with it the edge to the other note, twice over, and the
other way by publishing it first. -/
theorem toggles_twoUsers :
    let once := (Service.changeVisibility .twoUsers (fun _ => 4) 2 20 ⟨.priv, true⟩).1
    let shown := (Service.changeVisibility .twoUsers (fun _ => 4) 2 20 ⟨.pub, true⟩).1
    Service.changeVisibility once (fun _ => 5) 2 20 ⟨.priv, true⟩ = (once, .ok ⟨[]⟩) ∧
      (Service.changeVisibility shown (fun _ => 5) 2 20 ⟨.priv, true⟩).1.untimed =
        (Service.changeVisibility .twoUsers (fun _ => 6) 2 20 ⟨.priv, true⟩).1.untimed :=
  reachable_twoUsers.toggles (show Graph.Owns .twoUsers 2 20 by decide) .priv true (fun _ => 4)
    (fun _ => 5) (fun _ => 6)

end Intellivault
