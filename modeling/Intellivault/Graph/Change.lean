import Intellivault.Graph.Citations

/-!
# What a call does to the graph

`Op.change` says what a call does to each stored entity, edge and citation, record by
record.  `Op.run_entities`, `Op.run_relationships`, `Op.run_cites` and `Op.run_rows` show
that running the call comes to exactly that, and `Op.change_sound` collects what every
change respects.  Everything later about a step is derived from these.
-/

namespace Intellivault

open Lib

/-- A change to the graph: records are kept, rewritten or removed one by one, and new ones
are added. -/
structure Change where
  onEntity : EntityNode → Option EntityNode := some
  onEdge : RelatedTo → Option RelatedTo := some
  newEntities : List EntityNode := []
  newEdges : List RelatedTo := []
  /-- The entity with the id loses its citations. -/
  uncites : UUID → Prop := fun _ => False
  /-- The entity with the id comes to cite the URL. -/
  newCites : UUID → String → Prop := fun _ _ => False

namespace Op

/-- What a call by the user does. -/
def change (g : Graph) (clock : Clock) (u : UUID) : Op → Change
  | .createEntity id data =>
      { newEntities :=
          [{ id, ownerId := u, visibility := data.visibility, name := data.name.val
             kind := data.kind.val, attributes := Json.sortKeysObj data.attributes
             embedding := none, createdAt := clock 0, updatedAt := clock 0 }] }
  | .createRelationship id data =>
      { newEdges :=
          if g.Linkable u data.fromId data.toId data.visibility then
            [{ id, ownerId := u, fromId := data.fromId, toId := data.toId, kind := data.kind.val
               visibility := data.visibility, createdAt := clock 0, updatedAt := clock 0 }]
          else [] }
  | .changeVisibility id change =>
      if g.Owns u id then
        let ids := Service.scope g u id change.cascade
        { onEntity := fun e => some (e.flip (clock 0) ids u change.visibility)
          onEdge := fun r => r.revise clock change.cascade ids u change.visibility }
      else {}
  | .deleteEntity id =>
      { onEntity := fun e => if e.id = id ∧ e.ownerId = u then none else some e
        onEdge := fun r => if g.Owns u id ∧ r.Touches [id] then none else some r
        uncites := fun x => x = id ∧ g.Owns u id }
  | .deleteRelationship id =>
      { onEdge := fun r => if r.id = id ∧ r.Detachable g u then none else some r }
  | .attachSources id urls => { newCites := fun x url => (x = id ∧ url ∈ urls) ∧ g.Owns u id }
  | .setEntityEmbedding id embedding =>
      { onEntity := fun e => some
          (if e.id = id ∧ e.ownerId = u then { e with embedding := some embedding } else e) }

variable {g : Graph} {clock : Clock} {u : UUID} {op : Op}

/-! ## The call makes the change -/

theorem touches_of_gone {id : UUID} {r : RelatedTo} :
    (∃ e ∈ Cypher.matchOwned g id u, r.fromId = e.id ∨ r.toId = e.id) ↔
      g.Owns u id ∧ r.Touches [id] := by
  simp only [Cypher.mem_matchOwned, RelatedTo.Touches, List.mem_singleton]
  constructor
  · rintro ⟨e, ⟨he, hid, own⟩, touches⟩
    rw [hid] at touches
    exact ⟨⟨e, he, hid, own⟩, touches⟩
  · rintro ⟨⟨e, he, hid, own⟩, touches⟩
    rw [← hid] at touches
    exact ⟨e, ⟨he, hid, own⟩, touches⟩

/-- The rows of `attach_sources` come from the one entity matched, if any. -/
theorem attachSources_eq (clock : Clock) (u id : UUID) (urls : List String) (wf : g.Wf) :
    Service.attachSources g clock u id urls = g ∧ (¬g.Owns u id ∨ urls = []) ∨
      ∃ e ∈ g.entities, e.id = id ∧ e.ownerId = u ∧
        Service.attachSources g clock u id urls = Cypher.citeAll (clock 0) e g urls := by
  unfold Service.attachSources
  split
  · rename_i none
    exact Or.inl ⟨rfl, Or.inr none⟩
  · by_cases own : g.Owns u id
    · obtain ⟨e, he, rfl, hown⟩ := own
      have row : Cypher.matchOwned g e.id u = [e] :=
        filter_eq_singleton wf.entityIds he (by simp [hown]) fun y _ hy => (of_decide_eq_true hy).1
      refine Or.inr ⟨e, he, rfl, hown, ?_⟩
      rw [Cypher.attachSources, row]
      rfl
    · rw [Cypher.attachSources, Cypher.matchOwned_eq_nil_iff.mpr own]
      exact Or.inl ⟨rfl, Or.inl own⟩

/-- `create_relationship` adds the edge and answers with it, or diagnoses and adds nothing. -/
theorem createRelationship_eq (wf : g.Wf) {id : UUID} {data : RelationshipInput} :
    Service.createRelationship g clock u id data =
      let created := (change g clock u (.createRelationship id data)).newEdges
      ({ g with relationships := g.relationships ++ created },
        match created with
        | r :: _ => .ok r
        | [] => .error (Service.rejectRelationship g u data)) := by
  have rows := Cypher.createRelationship_rows wf (clock 0) id u data.fromId data.toId
    data.kind.val data.visibility
  have created : Cypher.createRelationship g (clock 0) id u data.fromId data.toId data.kind.val
      data.visibility = ({ g with relationships := g.relationships ++
        (change g clock u (.createRelationship id data)).newEdges },
        (change g clock u (.createRelationship id data)).newEdges) := by
    dsimp only [change]
    rw [← rows]
    rfl
  rw [Service.createRelationship, created]
  dsimp only
  cases (change g clock u (.createRelationship id data)).newEdges with
  | nil => rfl
  | cons r rest => rfl

theorem deleteEntity_eq {id : UUID} :
    Service.deleteEntity g u id =
      ({ g with
          entities := g.entities.filter fun e => ¬(e.id = id ∧ e.ownerId = u)
          relationships := g.relationships.filter fun r => ¬(g.Owns u id ∧ r.Touches [id])
          sourcedFrom := g.sourcedFrom.filter fun r => ¬(g.Owns u id ∧ r.entityId = id) },
        if g.Owns u id then .ok () else .error ⟨Service.notFound, "Entity not found"⟩) := by
  have gone : ∀ r : SourcedFrom, (∃ e ∈ Cypher.matchOwned g id u, r.entityId = e.id) ↔
      g.Owns u id ∧ r.entityId = id := by
    intro r
    simp only [Cypher.mem_matchOwned]
    constructor
    · rintro ⟨e, ⟨he, hid, own⟩, cites⟩
      exact ⟨⟨e, he, hid, own⟩, cites.trans hid⟩
    · rintro ⟨⟨e, he, hid, own⟩, cites⟩
      exact ⟨e, ⟨he, hid, own⟩, cites.trans hid.symm⟩
  simp only [Service.deleteEntity, Cypher.deleteEntity, touches_of_gone, gone,
    List.map_eq_nil_iff, Cypher.matchOwned_eq_nil_iff, ite_not]

theorem deleteRelationship_eq (closed : g.Closed) {id : UUID} :
    Service.deleteRelationship g u id =
      ({ g with relationships := g.relationships.filter fun r => ¬(r.id = id ∧ r.Detachable g u) },
        if ∃ r ∈ g.relationships, r.id = id ∧ r.Detachable g u then .ok ()
        else .error ⟨Service.notFound, "Relationship not found"⟩) := by
  have kept : g.relationships.filter (fun r => ¬(r.id = id ∧ ∃ a ∈ g.entities, ∃ b ∈ g.entities,
        r.Joins a b ∧ (r.ownerId = u ∨ a.ownerId = u ∨ b.ownerId = u))) =
      g.relationships.filter fun r => ¬(r.id = id ∧ r.Detachable g u) :=
    List.filter_congr fun r hr => by simp only [RelatedTo.joins_detachable (closed r hr)]
  have gone : g.relationships.filter (fun r => r.id = id ∧ ∃ a ∈ g.entities, ∃ b ∈ g.entities,
        r.Joins a b ∧ (r.ownerId = u ∨ a.ownerId = u ∨ b.ownerId = u)) =
      g.relationships.filter fun r => r.id = id ∧ r.Detachable g u :=
    List.filter_congr fun r hr => by simp only [RelatedTo.joins_detachable (closed r hr)]
  have rows : (g.relationships.filter fun r => r.id = id ∧ r.Detachable g u) = [] ↔
      ¬∃ r ∈ g.relationships, r.id = id ∧ r.Detachable g u := by
    simp [List.filter_eq_nil_iff]
  unfold Service.deleteRelationship Cypher.deleteRelationship
  dsimp only
  rw [kept, gone]
  simp only [List.map_eq_nil_iff, rows, ite_not]

/-- **The call makes the change** to the entities and the edges. -/
theorem run_records (wf : g.Wf) :
    (op.run g clock u).1.entities =
        g.entities.filterMap (op.change g clock u).onEntity ++ (op.change g clock u).newEntities ∧
      (op.run g clock u).1.relationships =
        g.relationships.filterMap (op.change g clock u).onEdge ++ (op.change g clock u).newEdges := by
  cases op with
  | createEntity id data => simp [run, change, Service.createEntity, Cypher.createEntity]
  | createRelationship id data => simp [run, change, createRelationship_eq wf]
  | changeVisibility id target =>
      by_cases own : g.Owns u id
      · obtain ⟨f, -, heq⟩ := Service.changeVisibility_of_owns clock target wf own
        simp [run, change, heq, own]
      · simp [run, change, Service.changeVisibility_of_not_owns own, own]
  | deleteEntity id =>
      simp only [run, change, deleteEntity_eq, filter_not_eq_filterMap, List.append_nil, and_self]
  | deleteRelationship id =>
      simp only [run, change, deleteRelationship_eq wf.endpoints, filter_not_eq_filterMap,
        List.append_nil, List.filterMap_some, and_self]
  | attachSources id urls =>
      have frame : (Service.attachSources g clock u id urls).entities = g.entities ∧
          (Service.attachSources g clock u id urls).relationships = g.relationships := by
        rcases attachSources_eq clock u id urls wf with
          ⟨heq, -⟩ | ⟨e, -, -, -, heq⟩
        · rw [heq]
          exact ⟨rfl, rfl⟩
        · rw [heq]
          exact Cypher.citeAll_frame
      simp [run, change, frame.1, frame.2]
  | setEntityEmbedding id embedding =>
      simp [run, change, Service.setEntityEmbedding, Cypher.setEntityEmbedding]

/-- ... and to what is cited. -/
theorem run_cites (wf : g.Wf) {x : UUID} {url : String} :
    (op.run g clock u).1.Cites x url ↔
      g.Cites x url ∧ ¬(op.change g clock u).uncites x ∨ (op.change g clock u).newCites x url := by
  cases op with
  | createEntity id data =>
      simp [run, change, Service.createEntity, Cypher.createEntity, Graph.Cites]
  | createRelationship id data => simp [run, change, createRelationship_eq wf, Graph.Cites]
  | changeVisibility id target =>
      by_cases own : g.Owns u id
      · obtain ⟨f, hf, heq⟩ :=
          Service.changeVisibility_of_owns clock target wf own
        simp [run, change, heq, own, Graph.Cites, hf.entityId, hf.url]
      · simp [run, change, Service.changeVisibility_of_not_owns own, own]
  | deleteEntity id =>
      simp only [run, change, deleteEntity_eq, Graph.Cites, List.mem_filter, decide_eq_true_eq,
        or_false]
      constructor
      · intro ⟨r, ⟨hr, kept⟩, hid, hurl⟩
        exact ⟨⟨r, hr, hid, hurl⟩, fun gone => kept ⟨gone.2, hid.trans gone.1⟩⟩
      · intro ⟨⟨r, hr, hid, hurl⟩, kept⟩
        exact ⟨r, ⟨hr, fun gone => kept ⟨hid.symm.trans gone.2, gone.1⟩⟩, hid, hurl⟩
  | deleteRelationship id => simp [run, change, deleteRelationship_eq wf.endpoints, Graph.Cites]
  | attachSources id urls =>
      rcases attachSources_eq clock u id urls wf with
        ⟨heq, none⟩ | ⟨e, he, rfl, own, heq⟩
      · have idle : ¬((x = id ∧ url ∈ urls) ∧ g.Owns u id) := by
          rintro ⟨⟨-, mem⟩, own⟩
          rcases none with foreign | rfl
          · exact foreign own
          · cases mem
        simp only [run, change, heq, not_false_eq_true, and_true, idle, or_false]
      · have owns : g.Owns u e.id := ⟨e, he, rfl, own⟩
        simp only [run, change, heq, Cypher.citeAll_cites, not_false_eq_true, and_true, owns]
  | setEntityEmbedding id embedding =>
      simp [run, change, Service.setEntityEmbedding, Cypher.setEntityEmbedding, Graph.Cites]

/-- The citations of an entity that is not the caller's keep their rows as they are. -/
theorem run_rows (wf : g.Wf) {x : UUID} (foreign : ¬g.Owns u x) :
    (op.run g clock u).1.sourcedFrom.filter (fun r => r.entityId = x) =
      g.sourcedFrom.filter fun r => r.entityId = x := by
  cases op with
  | createEntity id data => rfl
  | createRelationship id data => simp [run, createRelationship_eq wf]
  | changeVisibility id target =>
      by_cases own : g.Owns u id
      · obtain ⟨f, hf, heq⟩ :=
          Service.changeVisibility_of_owns clock target wf own
        simp only [run, heq]
        apply filter_map_of_fixed
        · intro r
          rw [hf.entityId]
        · intro r hit
          rw [← of_decide_eq_true hit] at foreign
          exact hf.foreign r foreign
      · simp [run, Service.changeVisibility_of_not_owns own]
  | deleteEntity id =>
      simp only [run, deleteEntity_eq, List.filter_filter]
      apply List.filter_congr
      intro r _
      by_cases hit : r.entityId = x
      · have kept : g.Owns u id → x ≠ id := fun own same => foreign (same ▸ own)
        simpa [hit] using not_or_of_imp kept
      · simp [hit]
  | deleteRelationship id => simp [run, deleteRelationship_eq wf.endpoints]
  | attachSources id urls =>
      rcases attachSources_eq clock u id urls wf with
        ⟨heq, -⟩ | ⟨e, he, rfl, own, heq⟩
      · simp only [run, heq]
      · simp only [run, heq]
        exact Cypher.citeAll_rows fun same => foreign (same ▸ ⟨e, he, rfl, own⟩)
  | setEntityEmbedding id embedding => rfl

end Op

/-! ## What every change respects -/

/-- A change by the user `u` to the graph `g` respects keys, owners, ends and visibility. -/
structure Change.Sound (c : Change) (g : Graph) (u : UUID) : Prop where
  /-- An entity keeps its id and its owner. -/
  entity : ∀ e e', c.onEntity e = some e' → e'.id = e.id ∧ e'.ownerId = e.ownerId
  foreignEntity : ∀ e, e.ownerId ≠ u → c.onEntity e = some e
  /-- An edge keeps its id, its owner and its ends. -/
  edge : ∀ r r', c.onEdge r = some r' → r.Same r'
  /-- A foreign edge is kept as it is, or removed at an entity of the user's. -/
  foreignEdge : ∀ r, r.ownerId ≠ u →
    c.onEdge r = some r ∨ c.onEdge r = none ∧ (g.Owns u r.fromId ∨ g.Owns u r.toId)
  /-- An entity goes with its edges and its citations. -/
  removed : ∀ e ∈ g.entities, c.onEntity e = none →
    (∀ r, r.Touches [e.id] → c.onEdge r = none) ∧ c.uncites e.id
  /-- The edges left at an entity that is made private are the user's own, and private. -/
  hidden : ∀ e ∈ g.entities, ∀ e', c.onEntity e = some e' → e.visibility = .pub →
    e'.visibility = .priv → ∀ r r', r.Touches [e.id] → c.onEdge r = some r' →
      r.ownerId = u ∧ r'.visibility = .priv
  /-- An edge that is made public has public ends. -/
  shown : ∀ r r', c.onEdge r = some r' → r'.visibility = .pub → r.visibility = .pub ∨
    ∀ e ∈ g.entities, r.Touches [e.id] → ∀ e', c.onEntity e = some e' → e'.visibility = .pub
  /-- A new entity is the user's, under an id not in use. -/
  newEntity : ∀ e ∈ c.newEntities, e.ownerId = u ∧ ¬g.Has e.id
  newEntityIds : (c.newEntities.map (·.id)).Nodup
  /-- A new edge is the user's, links entities the user may link, and has an id not in use. -/
  newEdge : ∀ r ∈ c.newEdges, r.ownerId = u ∧ g.Linkable u r.fromId r.toId r.visibility ∧
    (∀ s ∈ g.relationships, s.id ≠ r.id) ∧ ∀ e, c.onEntity e = some e
  newEdgeIds : (c.newEdges.map (·.id)).Nodup
  /-- A new citation is one of the user's entity. -/
  newCite : ∀ x url, c.newCites x url → g.Owns u x ∧ ∀ e, c.onEntity e = some e

namespace Op

variable {g : Graph} {clock : Clock} {u : UUID} {op : Op}

theorem idle_sound : Change.Sound {} g u where
  entity e e' h := by
    cases h
    exact ⟨rfl, rfl⟩
  foreignEntity _ _ := rfl
  edge r r' h := by
    cases h
    exact RelatedTo.Same.rfl
  foreignEdge _ _ := Or.inl rfl
  removed e _ h := by cases h
  hidden e _ e' h hpub hpriv := by
    cases h
    rw [hpub] at hpriv
    cases hpriv
  shown r r' h hpub := by
    cases h
    exact Or.inl hpub
  newEntity e he := by cases he
  newEntityIds := List.nodup_nil
  newEdge r hr := by cases hr
  newEdgeIds := List.nodup_nil
  newCite x url h := h.elim

theorem changeVisibility_sound (wf : g.Wf) {id : UUID} {target : VisibilityChange} :
    (change g clock u (.changeVisibility id target)).Sound g u := by
  by_cases own : g.Owns u id
  · have mine : ∀ {x}, x ∈ Service.scope g u id target.cascade → g.Owns u x :=
      Service.owns_of_mem_scope wf own
    have owned : ∀ e ∈ g.entities, e.id ∈ Service.scope g u id target.cascade → e.ownerId = u := by
      intro e he mem
      obtain ⟨e', he', same, own'⟩ := mine mem
      rw [← wf.eq_of_id he' he same]
      exact own'
    simp only [change, if_pos own]
    exact { idle_sound with
      entity := by
        rintro e _ ⟨⟩
        exact ⟨EntityNode.flip_id, EntityNode.flip_ownerId⟩
      foreignEntity := fun e foreign => congrArg some (EntityNode.flip_of_foreign foreign)
      edge := fun r r' h => RelatedTo.same_revise h
      foreignEdge := fun r foreign => by
        rcases RelatedTo.revise_of_foreign foreign with kept | ⟨gone, touches⟩
        · exact Or.inl kept
        · exact Or.inr ⟨gone, touches.imp mine mine⟩
      removed := by rintro e he ⟨⟩
      hidden := by
        rintro e he _ ⟨⟩ hpub hpriv r r' touches h
        have changed : (e.flip (clock 0) (Service.scope g u id target.cascade) u
            target.visibility).visibility ≠ e.visibility := by
          rw [hpub, hpriv]
          decide
        obtain ⟨mem, own⟩ := EntityNode.flip_visibility_ne changed
        rw [EntityNode.flip_visibility mem own] at hpriv
        rw [hpriv] at h
        exact RelatedTo.revise_hides h (touches.of_mem mem)
      shown := by
        intro r r' h hpub
        rcases RelatedTo.revise_shows h hpub with already | ⟨hv, within⟩
        · exact Or.inl already
        · refine Or.inr ?_
          rintro e he touches _ ⟨⟩
          have mem := within.mem touches
          rw [EntityNode.flip_visibility mem (owned e he mem)]
          exact hv
      newEdge := by rintro r ⟨⟩
      newCite := by rintro x url ⟨⟩ }
  · simp only [change, if_neg own]
    exact idle_sound

theorem deleteEntity_sound {id : UUID} : (change g clock u (.deleteEntity id)).Sound g u := by
  have kept : ∀ e e', (change g clock u (.deleteEntity id)).onEntity e = some e' → e' = e := by
    intro e e' h
    simp only [change] at h
    split at h
    · cases h
    · exact (Option.some.inj h).symm
  have keptEdge : ∀ r r', (change g clock u (.deleteEntity id)).onEdge r = some r' → r' = r := by
    intro r r' h
    simp only [change] at h
    split at h
    · cases h
    · exact (Option.some.inj h).symm
  exact { idle_sound with
    entity := fun e e' h => by
      rw [kept e e' h]
      exact ⟨rfl, rfl⟩
    foreignEntity := fun e foreign => if_neg fun gone => foreign gone.2
    edge := fun r r' h => by
      rw [keptEdge r r' h]
      exact RelatedTo.Same.rfl
    foreignEdge := fun r _ => by
      by_cases gone : g.Owns u id ∧ r.Touches [id]
      · refine Or.inr ⟨if_pos gone, ?_⟩
        obtain ⟨own, touches⟩ := gone
        rcases touches with hfrom | hto
        · exact Or.inl (List.mem_singleton.mp hfrom ▸ own)
        · exact Or.inr (List.mem_singleton.mp hto ▸ own)
      · exact Or.inl (if_neg gone)
    removed := fun e he h => by
      simp only [change] at h
      split at h
      · rename_i gone
        obtain ⟨rfl, own⟩ := gone
        have owns : g.Owns u e.id := ⟨e, he, rfl, own⟩
        exact ⟨fun r touches => if_pos ⟨owns, touches⟩, rfl, owns⟩
      · cases h
    hidden := fun e he e' h hpub hpriv => by
      rw [kept e e' h, hpub] at hpriv
      cases hpriv
    shown := fun r r' h hpub => by
      rw [keptEdge r r' h] at hpub
      exact Or.inl hpub
    newEdge := by rintro r ⟨⟩
    newCite := fun x url h => h.elim }

theorem deleteRelationship_sound {id : UUID} :
    (change g clock u (.deleteRelationship id)).Sound g u := by
  have kept : ∀ r r', (change g clock u (.deleteRelationship id)).onEdge r = some r' → r' = r := by
    intro r r' h
    simp only [change] at h
    split at h
    · cases h
    · exact (Option.some.inj h).symm
  exact { idle_sound with
    edge := fun r r' h => by
      rw [kept r r' h]
      exact RelatedTo.Same.rfl
    foreignEdge := fun r foreign => by
      by_cases gone : r.id = id ∧ r.Detachable g u
      · exact Or.inr ⟨if_pos gone, gone.2.resolve_left foreign⟩
      · exact Or.inl (if_neg gone)
    removed := by rintro e he ⟨⟩
    hidden := fun e he e' h hpub hpriv => by
      cases h
      rw [hpub] at hpriv
      cases hpriv
    shown := fun r r' h hpub => by
      rw [kept r r' h] at hpub
      exact Or.inl hpub }

/-- Every call makes a sound change. -/
theorem change_sound (clock : Clock) (u : UUID) (wf : g.Wf) (fresh : op.Fresh g) :
    (op.change g clock u).Sound g u := by
  cases op with
  | createEntity id data =>
      exact { idle_sound with
        newEntity := fun e he => by
          obtain rfl := List.mem_singleton.mp he
          exact ⟨rfl, fun ⟨x, hx, same⟩ => fresh x hx same⟩
        newEntityIds := List.nodup_singleton _ }
  | createRelationship id data =>
      simp only [change]
      split
      · rename_i linkable
        exact { idle_sound with
          newEdge := fun r hr => by
            obtain rfl := List.mem_singleton.mp hr
            exact ⟨rfl, linkable, fresh, fun _ => rfl⟩
          newEdgeIds := List.nodup_singleton _ }
      · exact idle_sound
  | changeVisibility id target => exact changeVisibility_sound wf
  | deleteEntity id => exact deleteEntity_sound
  | deleteRelationship id => exact deleteRelationship_sound
  | attachSources id urls =>
      exact { idle_sound with
        newCite := by
          rintro x url ⟨⟨rfl, -⟩, own⟩
          exact ⟨own, fun _ => rfl⟩ }
  | setEntityEmbedding id embedding =>
      have same : ∀ e e', (change g clock u (.setEntityEmbedding id embedding)).onEntity e = some e' →
          e'.id = e.id ∧ e'.ownerId = e.ownerId ∧ e'.visibility = e.visibility := by
        rintro e _ ⟨⟩
        split <;> exact ⟨rfl, rfl, rfl⟩
      exact { idle_sound with
        entity := fun e e' h => ⟨(same e e' h).1, (same e e' h).2.1⟩
        foreignEntity := fun e foreign => by
          simp only [change, if_neg fun h : e.id = id ∧ e.ownerId = u => foreign h.2]
        removed := by rintro e he ⟨⟩
        hidden := fun e he e' h hpub hpriv => by
          rw [(same e e' h).2.2, hpub] at hpriv
          cases hpriv
        shown := fun r r' h hpub => by
          cases h
          exact Or.inl hpub
        newEdge := by rintro r ⟨⟩
        newCite := fun x url h => h.elim }

end Op

end Intellivault
