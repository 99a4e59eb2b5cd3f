import Intellivault.Graph.Change

/-!
# The visibility invariant

Every edge of a reachable graph obeys `RelatedTo.Rule`: a public edge has public ends, its
owner sees both ends, and owns one of them.  A sound change preserves the rule
(`Change.Sound.rule`), hence so does every call by every user.
-/

namespace Intellivault

open Lib

/-- What an edge may join. -/
def RelatedTo.Rule (r : RelatedTo) (a b : EntityNode) : Prop :=
  (r.visibility = .pub → a.visibility = .pub ∧ b.visibility = .pub) ∧
    (a.VisibleTo r.ownerId ∧ b.VisibleTo r.ownerId) ∧
    (a.ownerId = r.ownerId ∨ b.ownerId = r.ownerId)

namespace Graph

/-- The invariant of the graph. -/
structure Inv (g : Graph) : Prop where
  wf : g.Wf
  rule : ∀ r ∈ g.relationships, ∃ a ∈ g.entities, ∃ b ∈ g.entities, r.Links a b ∧ r.Rule a b

theorem inv_empty : Inv .empty where
  wf :=
    { entityIds := List.nodup_nil
      edgeIds := List.nodup_nil
      endpoints := by rintro r ⟨⟩
      citing := by rintro r ⟨⟩ }
  rule := by rintro r ⟨⟩

/-- What makes two entities linkable makes the rule hold of the new edge. -/
theorem Linkable.rule {g : Graph} (wf : g.Wf) {r : RelatedTo}
    (h : g.Linkable r.ownerId r.fromId r.toId r.visibility) :
    ∃ a ∈ g.entities, ∃ b ∈ g.entities, r.Links a b ∧ r.Rule a b := by
  obtain ⟨⟨⟨a, ha, hfrom, va⟩, b, hb, hto, vb⟩, own, vis⟩ := h
  refine ⟨a, ha, b, hb, ⟨hfrom.symm, hto.symm⟩, ?_, ⟨va, vb⟩, ?_⟩
  · intro hpub
    rcases vis with hpriv | ⟨⟨c, hc, hcid, cpub⟩, d, hd, hdid, dpub⟩
    · rw [hpub] at hpriv
      cases hpriv
    · rw [wf.eq_of_id hc ha (hcid.trans hfrom.symm)] at cpub
      rw [wf.eq_of_id hd hb (hdid.trans hto.symm)] at dpub
      exact ⟨cpub, dpub⟩
  · rcases own with ⟨c, hc, hcid, own⟩ | ⟨c, hc, hcid, own⟩
    · rw [wf.eq_of_id hc ha (hcid.trans hfrom.symm)] at own
      exact Or.inl own
    · rw [wf.eq_of_id hc hb (hcid.trans hto.symm)] at own
      exact Or.inr own

end Graph

/-! ## One change -/

namespace Change.Sound

variable {c : Change} {g : Graph} {u : UUID}

/-- An edge that is kept keeps its ends. -/
theorem end_kept (s : c.Sound g u) {e : EntityNode} {r r' : RelatedTo} (he : e ∈ g.entities)
    (touches : r.Touches [e.id]) (hr : c.onEdge r = some r') : ∃ e', c.onEntity e = some e' := by
  cases h : c.onEntity e with
  | none =>
      rw [(s.removed e he h).1 r touches] at hr
      cases hr
  | some e' => exact ⟨e', rfl⟩

/-- The rule at one end of an edge that is kept. -/
theorem end_rule (s : c.Sound g u) {e e' : EntityNode} {r r' : RelatedTo} (he : e ∈ g.entities)
    (touches : r.Touches [e.id]) (hr : c.onEdge r = some r') (he' : c.onEntity e = some e')
    (sees : e.VisibleTo r.ownerId) (shows : r.visibility = .pub → e.visibility = .pub) :
    e'.VisibleTo r.ownerId ∧ (r'.visibility = .pub → e'.visibility = .pub) := by
  obtain ⟨-, howner⟩ := s.entity e e' he'
  cases hv : e'.visibility with
  | pub => exact ⟨Or.inl hv, fun _ => rfl⟩
  | priv =>
      constructor
      · rcases sees with epub | own
        · -- the entity has just been made private, so it is the user's, and so is the edge
          have mine : e.ownerId = u := by
            by_contra foreign
            rw [s.foreignEntity e foreign] at he'
            rw [Option.some.inj he', hv] at epub
            cases epub
          have edge := (s.hidden e he e' he' epub hv r r' touches hr).1
          exact Or.inr (howner.trans (mine.trans edge.symm))
        · exact Or.inr (howner.trans own)
      · intro hpub
        rcases s.shown r r' hr hpub with already | shown
        · have hpriv := (s.hidden e he e' he' (shows already) hv r r' touches hr).2
          rw [hpub] at hpriv
          cases hpriv
        · exact hv.symm.trans (shown e he touches e' he')

/-- **The step lemma**: an edge that is kept obeys the rule at its kept ends. -/
theorem rule (s : c.Sound g u) {a b : EntityNode} {r r' : RelatedTo} (ha : a ∈ g.entities)
    (hb : b ∈ g.entities) (links : r.Links a b) (hr : c.onEdge r = some r') (h : r.Rule a b) :
    ∃ a' b', c.onEntity a = some a' ∧ c.onEntity b = some b' ∧ r'.Links a' b' ∧ r'.Rule a' b' := by
  have ta : r.Touches [a.id] := Or.inl (List.mem_singleton.mpr links.1)
  have tb : r.Touches [b.id] := Or.inr (List.mem_singleton.mpr links.2)
  obtain ⟨a', ha'⟩ := s.end_kept ha ta hr
  obtain ⟨b', hb'⟩ := s.end_kept hb tb hr
  obtain ⟨-, howner, hfrom, hto, -⟩ := s.edge r r' hr
  obtain ⟨aid, aowner⟩ := s.entity a a' ha'
  obtain ⟨bid, bowner⟩ := s.entity b b' hb'
  obtain ⟨vis, ⟨sa, sb⟩, own⟩ := h
  obtain ⟨sa', pa⟩ := s.end_rule ha ta hr ha' sa fun hpub => (vis hpub).1
  obtain ⟨sb', pb⟩ := s.end_rule hb tb hr hb' sb fun hpub => (vis hpub).2
  refine ⟨a', b', ha', hb', ⟨?_, ?_⟩, fun hpub => ⟨pa hpub, pb hpub⟩, ?_, ?_⟩
  · rw [hfrom, aid, links.1]
  · rw [hto, bid, links.2]
  · rw [howner]
    exact ⟨sa', sb'⟩
  · rw [howner, aowner, bowner]
    exact own

end Change.Sound

/-! ## One call -/

namespace Op

variable {g : Graph} {clock : Clock} {u : UUID} {op : Op}

theorem mem_run_entities (wf : g.Wf) {e' : EntityNode} :
    e' ∈ (op.run g clock u).1.entities ↔
      (∃ e ∈ g.entities, (op.change g clock u).onEntity e = some e') ∨
        e' ∈ (op.change g clock u).newEntities := by
  rw [(run_records wf).1, List.mem_append, List.mem_filterMap]

theorem mem_run_relationships (wf : g.Wf) {r' : RelatedTo} :
    r' ∈ (op.run g clock u).1.relationships ↔
      (∃ r ∈ g.relationships, (op.change g clock u).onEdge r = some r') ∨
        r' ∈ (op.change g clock u).newEdges := by
  rw [(run_records wf).2, List.mem_append, List.mem_filterMap]

/-- A call keeps the graph well-formed. -/
theorem wf_run (wf : g.Wf) (fresh : op.Fresh g) : (op.run g clock u).1.Wf := by
  have s := change_sound clock u wf fresh
  have has : ∀ {x}, g.Has x →
      (∀ e ∈ g.entities, e.id = x → (op.change g clock u).onEntity e ≠ none) →
      (op.run g clock u).1.Has x := by
    rintro x ⟨e, he, rfl⟩ kept
    obtain ⟨e', he'⟩ := Option.ne_none_iff_exists'.mp (kept e he rfl)
    exact ⟨e', (mem_run_entities wf).mpr (Or.inl ⟨e, he, he'⟩), (s.entity e e' he').1⟩
  constructor
  · rw [(run_records wf).1]
    exact nodup_map_filterMap_append wf.entityIds (fun e e' h => (s.entity e e' h).1)
      s.newEntityIds fun e he x hx same => (s.newEntity e he).2 ⟨x, hx, same⟩
  · rw [(run_records wf).2]
    exact nodup_map_filterMap_append wf.edgeIds (fun r r' h => (s.edge r r' h).1)
      s.newEdgeIds fun r hr => (s.newEdge r hr).2.2.1
  · intro r' hr'
    rcases (mem_run_relationships wf).mp hr' with ⟨r, hr, hrr⟩ | isNew
    · obtain ⟨-, -, hfrom, hto, -⟩ := s.edge r r' hrr
      rw [hfrom, hto]
      have kept : ∀ e ∈ g.entities, r.Touches [e.id] →
          (op.change g clock u).onEntity e ≠ none := by
        intro e he touches none
        rw [(s.removed e he none).1 r touches] at hrr
        cases hrr
      refine ⟨has (wf.endpoints r hr).1 fun e he same => kept e he (Or.inl ?_),
        has (wf.endpoints r hr).2 fun e he same => kept e he (Or.inr ?_)⟩
      · exact List.mem_singleton.mpr same.symm
      · exact List.mem_singleton.mpr same.symm
    · obtain ⟨-, ⟨⟨⟨a, ha, haid, -⟩, b, hb, hbid, -⟩, -⟩, -, keeps⟩ := s.newEdge r' isNew
      refine ⟨has ⟨a, ha, haid⟩ fun e _ _ => ?_, has ⟨b, hb, hbid⟩ fun e _ _ => ?_⟩
      · rw [keeps e]
        exact Option.some_ne_none e
      · rw [keeps e]
        exact Option.some_ne_none e
  · intro r hr
    rcases (run_cites wf).mp ⟨r, hr, rfl, rfl⟩ with ⟨⟨q, hq, hid, -⟩, kept⟩ | cited
    · rw [← hid] at kept ⊢
      refine has (wf.citing q hq) fun e he same none => kept ?_
      rw [← same]
      exact (s.removed e he none).2
    · obtain ⟨own, keeps⟩ := s.newCite _ _ cited
      refine has own.has fun e _ _ => ?_
      rw [keeps e]
      exact Option.some_ne_none e

/-- A call keeps the invariant. -/
theorem inv_run (inv : g.Inv) (fresh : op.Fresh g) : (op.run g clock u).1.Inv := by
  have s := change_sound clock u inv.wf fresh
  refine ⟨wf_run inv.wf fresh, fun r' hr' => ?_⟩
  rcases (mem_run_relationships inv.wf).mp hr' with ⟨r, hr, hrr⟩ | isNew
  · obtain ⟨a, ha, b, hb, links, rule⟩ := inv.rule r hr
    obtain ⟨a', b', ha', hb', links', rule'⟩ := s.rule ha hb links hrr rule
    exact ⟨a', (mem_run_entities inv.wf).mpr (Or.inl ⟨a, ha, ha'⟩),
      b', (mem_run_entities inv.wf).mpr (Or.inl ⟨b, hb, hb'⟩), links', rule'⟩
  · obtain ⟨rfl, linkable, -, keeps⟩ := s.newEdge r' isNew
    obtain ⟨a, ha, b, hb, links, rule⟩ := linkable.rule inv.wf
    exact ⟨a, (mem_run_entities inv.wf).mpr (Or.inl ⟨a, ha, keeps a⟩),
      b, (mem_run_entities inv.wf).mpr (Or.inl ⟨b, hb, keeps b⟩), links, rule⟩

end Op

/-! ## Every run -/

theorem Reachable.inv {g : Graph} (h : Reachable g) : g.Inv := by
  induction h with
  | refl => exact Graph.inv_empty
  | tail _ step ih =>
      cases step with
      | call clock u op fresh => exact Op.inv_run ih fresh

/-! ## After a change to private -/

/-- No other user sees an entity that a change to private was about. -/
theorem Service.not_sees_of_private {g g' : Graph} (wf : g.Wf) {clock : Clock} {u id : UUID}
    {cascade : Bool} {result : VisibilityChangeResult}
    (made : changeVisibility g clock u id ⟨.priv, cascade⟩ = (g', .ok result)) {v x : UUID}
    (other : v ≠ u) (about : x = id ∨ x ∈ result.affectedIds) : ¬g'.Sees v x := by
  by_cases own : g.Owns u id
  · obtain ⟨f, -, heq⟩ :=
      changeVisibility_of_owns clock ⟨.priv, cascade⟩ wf own
    rw [heq] at made
    obtain ⟨rfl, hresult⟩ := Prod.mk.inj made
    have mem : x ∈ scope g u id cascade := by
      rcases about with rfl | affected
      · exact mem_scope_self wf
      · rw [← Except.ok.inj hresult] at affected
        obtain ⟨e, he, rfl⟩ := List.mem_map.mp affected
        exact (of_decide_eq_true (List.mem_filter.mp he).2).1
    intro ⟨e', he', hid, visible⟩
    obtain ⟨e, he, rfl⟩ := List.mem_map.mp he'
    rw [EntityNode.flip_id] at hid
    obtain ⟨o, ho, hoid, howner⟩ := owns_of_mem_scope wf own mem
    rw [wf.eq_of_id ho he (hoid.trans hid.symm)] at howner
    rw [← hid] at mem
    rcases visible with hpub | hown
    · rw [EntityNode.flip_visibility mem howner] at hpub
      cases hpub
    · rw [EntityNode.flip_ownerId, howner] at hown
      exact other hown.symm
  · rw [changeVisibility_of_not_owns own] at made
    cases made

/-- **The visibility invariant.**  In every reachable graph each edge has its two ends and
obeys the rule at them, and after a change to private no other user's graph lists an entity
the change was about or an edge at one. -/
theorem Reachable.visibility_invariant {g : Graph} (h : Reachable g) :
    (∀ r ∈ g.relationships, (∃ a ∈ g.entities, ∃ b ∈ g.entities, r.Links a b) ∧
      ∀ a ∈ g.entities, ∀ b ∈ g.entities, r.Links a b →
        (r.visibility = .pub → a.visibility = .pub ∧ b.visibility = .pub) ∧
        (a.VisibleTo r.ownerId ∧ b.VisibleTo r.ownerId) ∧
        (a.ownerId = r.ownerId ∨ b.ownerId = r.ownerId)) ∧
    ∀ (clock : Clock) (u id : UUID) (cascade : Bool) (g' : Graph) (result : VisibilityChangeResult),
      Service.changeVisibility g clock u id ⟨.priv, cascade⟩ = (g', .ok result) →
      ∀ v, v ≠ u → ∀ x, x = id ∨ x ∈ result.affectedIds →
        (∀ e ∈ (Service.listGraph g' v).entities, e.id ≠ x) ∧
        ∀ r ∈ (Service.listGraph g' v).relationships, r.fromId ≠ x ∧ r.toId ≠ x := by
  have inv := h.inv
  constructor
  · intro r hr
    obtain ⟨a, ha, b, hb, links, rule⟩ := inv.rule r hr
    refine ⟨⟨a, ha, b, hb, links⟩, fun a' ha' b' hb' links' => ?_⟩
    rw [inv.wf.eq_of_id ha' ha (links'.1.symm.trans links.1),
      inv.wf.eq_of_id hb' hb (links'.2.symm.trans links.2)]
    exact rule
  · intro clock u id cascade g' result made v other x about
    exact Service.listGraph_of_not_sees (Service.not_sees_of_private inv.wf made other about)

/-- User 1 makes the note 10 private: user 2, whose edge led to it, no longer sees either. -/
theorem visibility_invariant_twoUsers :
    (∀ r ∈ Graph.twoUsers.relationships,
      ∃ a ∈ Graph.twoUsers.entities, ∃ b ∈ Graph.twoUsers.entities, r.Links a b) ∧
    ∀ r ∈ (Service.listGraph
        (Service.changeVisibility .twoUsers (fun _ => 4) 1 10 ⟨.priv, true⟩).1 2).relationships,
      r.fromId ≠ 10 ∧ r.toId ≠ 10 := by
  have h := Reachable.visibility_invariant reachable_twoUsers
  refine ⟨fun r hr => (h.1 r hr).1, ?_⟩
  exact (h.2 (fun _ => 4) 1 10 true _ ⟨[10]⟩ (by decide) 2 (by decide) 10 (Or.inl rfl)).2

end Intellivault
