import Intellivault.Lib.Unwinding
import Intellivault.Graph.Invariant

/-!
# Non-interference

What a user gets to see of a graph is `Graph.Equiv`'s three parts: the visible entities,
what they cite, and the edges that are listed or that meet an entity of the user's.  Calls
by the user give the same answers on two graphs that agree on these, and leave graphs that
agree on them: the two graphs even undergo the very same change (`Op.change_eq`).
-/

namespace Intellivault

open Lib

/-! ## Agreement on what a user sees -/

/-- The edge is listed for the user, or meets an entity of the user's. -/
def Graph.Shows (g : Graph) (u : UUID) (r : RelatedTo) : Prop :=
  r ∈ g.relationships ∧
    ((g.Sees u r.fromId ∧ g.Sees u r.toId) ∧ r.VisibleTo u ∨
      g.Owns u r.fromId ∨ g.Owns u r.toId)

/-- The two graphs agree on all the user sees of them. -/
structure Graph.Equiv (u : UUID) (g₁ g₂ : Graph) : Prop where
  entities : ∀ e : EntityNode, e.VisibleTo u → (e ∈ g₁.entities ↔ e ∈ g₂.entities)
  cites : ∀ x, g₁.Sees u x → ∀ url, g₁.Cites x url ↔ g₂.Cites x url
  edges : ∀ r, g₁.Shows u r ↔ g₂.Shows u r

namespace Graph.Equiv

variable {u x : UUID} {g₁ g₂ : Graph}

theorem sees_iff (h : Equiv u g₁ g₂) : g₁.Sees u x ↔ g₂.Sees u x := by
  constructor
  · intro ⟨e, he, hid, visible⟩
    exact ⟨e, (h.entities e visible).mp he, hid, visible⟩
  · intro ⟨e, he, hid, visible⟩
    exact ⟨e, (h.entities e visible).mpr he, hid, visible⟩

theorem owns_iff (h : Equiv u g₁ g₂) : g₁.Owns u x ↔ g₂.Owns u x := by
  constructor
  · intro ⟨e, he, hid, own⟩
    exact ⟨e, (h.entities e (Or.inr own)).mp he, hid, own⟩
  · intro ⟨e, he, hid, own⟩
    exact ⟨e, (h.entities e (Or.inr own)).mpr he, hid, own⟩

theorem public_iff (h : Equiv u g₁ g₂) : g₁.Public x ↔ g₂.Public x := by
  constructor
  · intro ⟨e, he, hid, hpub⟩
    exact ⟨e, (h.entities e (Or.inl hpub)).mp he, hid, hpub⟩
  · intro ⟨e, he, hid, hpub⟩
    exact ⟨e, (h.entities e (Or.inl hpub)).mpr he, hid, hpub⟩

theorem symm (h : Equiv u g₁ g₂) : Equiv u g₂ g₁ where
  entities e visible := (h.entities e visible).symm
  cites x sees url := (h.cites x (h.sees_iff.mpr sees) url).symm
  edges r := (h.edges r).symm

theorem linkable_iff (h : Equiv u g₁ g₂) {fromId toId : UUID} {v : Visibility} :
    g₁.Linkable u fromId toId v ↔ g₂.Linkable u fromId toId v := by
  unfold Graph.Linkable
  rw [h.sees_iff, h.sees_iff, h.owns_iff, h.owns_iff, h.public_iff, h.public_iff]

theorem detachable_iff (h : Equiv u g₁ g₂) {r : RelatedTo} :
    r.Detachable g₁ u ↔ r.Detachable g₂ u := by
  unfold RelatedTo.Detachable
  rw [h.owns_iff, h.owns_iff]

theorem matchVisible_eq (h : Equiv u g₁ g₂) (wf₁ : g₁.Wf) (wf₂ : g₂.Wf) :
    Cypher.matchVisible g₁ x u = Cypher.matchVisible g₂ x u :=
  filter_eq_of_agree wf₁.entityIds wf₂.entityIds (fun _ hit => (of_decide_eq_true hit).1)
    fun e hit => h.entities e (of_decide_eq_true hit).2

/-- Graphs with the same edges and citations agree if they have the same visible entities. -/
theorem of_entities (entities : ∀ e : EntityNode, e.VisibleTo u → (e ∈ g₁.entities ↔ e ∈ g₂.entities))
    (edges : g₁.relationships = g₂.relationships) (cites : g₁.sourcedFrom = g₂.sourcedFrom) :
    Equiv u g₁ g₂ := by
  have sees : ∀ x, g₁.Sees u x ↔ g₂.Sees u x := by
    intro x
    apply exists_congr
    intro e
    constructor
    · exact fun ⟨he, hid, visible⟩ => ⟨(entities e visible).mp he, hid, visible⟩
    · exact fun ⟨he, hid, visible⟩ => ⟨(entities e visible).mpr he, hid, visible⟩
  have owns : ∀ x, g₁.Owns u x ↔ g₂.Owns u x := by
    intro x
    apply exists_congr
    intro e
    constructor
    · exact fun ⟨he, hid, own⟩ => ⟨(entities e (Or.inr own)).mp he, hid, own⟩
    · exact fun ⟨he, hid, own⟩ => ⟨(entities e (Or.inr own)).mpr he, hid, own⟩
  constructor
  · exact entities
  · intro x _ url
    simp only [Graph.Cites, cites]
  · intro r
    simp only [Graph.Shows, edges, sees, owns]

/-- Another user's new private entity does not show. -/
theorem createEntity_private {v id : UUID} {data : EntityInput} {clock : Clock} (other : v ≠ u)
    (hpriv : data.visibility = .priv) :
    Equiv u g₁ (Op.run g₁ clock v (.createEntity id data)).1 := by
  apply of_entities
  · intro e visible
    rw [show (Op.run g₁ clock v (.createEntity id data)).1.entities = g₁.entities ++
      [(Cypher.createEntity g₁ (clock 0) id v data.visibility data.name.val data.kind.val
        (Json.sortKeysObj data.attributes)).2] from rfl, List.mem_append, List.mem_singleton]
    constructor
    · exact Or.inl
    · rintro (old | rfl)
      · exact old
      · rcases visible with hpub | own
        · cases hpriv.symm.trans hpub
        · exact absurd own other
  · rfl
  · rfl

end Graph.Equiv

/-- The user's own edges, and the edges at the user's entities, show. -/
theorem Graph.Inv.shows_of_detachable {g : Graph} (inv : g.Inv) {u : UUID} {r : RelatedTo}
    (hr : r ∈ g.relationships) (detach : r.Detachable g u) : g.Shows u r := by
  refine ⟨hr, Or.inr ?_⟩
  rcases detach with own | ends
  · obtain ⟨a, ha, b, hb, links, -, -, rule⟩ := inv.rule r hr
    rw [own] at rule
    exact rule.imp (fun own => ⟨a, ha, links.1.symm, own⟩) fun own => ⟨b, hb, links.2.symm, own⟩
  · exact ends

/-! ## The same change -/

section

variable {clock : Clock} {cascade : Bool} {ids ids' : List UUID} {u : UUID} {v : Visibility}

theorem EntityNode.flip_congr (same : ∀ x, x ∈ ids ↔ x ∈ ids') (now : Time) (e : EntityNode) :
    e.flip now ids u v = e.flip now ids' u v := by
  simp only [EntityNode.flip, same]

theorem RelatedTo.revise_congr (same : ∀ x, x ∈ ids ↔ x ∈ ids') (r : RelatedTo) :
    r.revise clock cascade ids u v = r.revise clock cascade ids' u v := by
  have touches : ∀ s : RelatedTo, s.Touches ids ↔ s.Touches ids' := fun s =>
    or_congr (same s.fromId) (same s.toId)
  have within : ∀ s : RelatedTo, s.Within ids ↔ s.Within ids' := fun s =>
    and_congr (same s.fromId) (same s.toId)
  have flip : ∀ now, r.flip now ids u v = r.flip now ids' u v := by
    intro now
    simp only [RelatedTo.flip, within]
  have clean : ∀ now (s : RelatedTo), s.clean now ids u = s.clean now ids' u := by
    intro now s
    simp only [RelatedTo.clean, RelatedTo.demote, touches]
  simp only [RelatedTo.revise, flip, clean]

end

section

variable {g₁ g₂ : Graph} {clock : Clock} {u : UUID} {op : Op}

theorem Graph.Equiv.ownedHop_iff (h : Equiv u g₁ g₂) (inv₁ : g₁.Inv) (inv₂ : g₂.Inv) {a b : UUID} :
    Cypher.OwnedHop g₁ u a b ↔ Cypher.OwnedHop g₂ u a b := by
  unfold Cypher.OwnedHop
  rw [h.owns_iff]
  apply and_congr_right
  intro _
  constructor
  · intro ⟨r, hr, own, ends⟩
    exact ⟨r, ((h.edges r).mp (inv₁.shows_of_detachable hr (Or.inl own))).1, own, ends⟩
  · intro ⟨r, hr, own, ends⟩
    exact ⟨r, ((h.edges r).mpr (inv₂.shows_of_detachable hr (Or.inl own))).1, own, ends⟩

theorem Graph.Equiv.mem_scope_iff (h : Equiv u g₁ g₂) (inv₁ : g₁.Inv) (inv₂ : g₂.Inv)
    (id : UUID) (cascade : Bool) (x : UUID) :
    x ∈ Service.scope g₁ u id cascade ↔ x ∈ Service.scope g₂ u id cascade := by
  cases cascade with
  | false => rfl
  | true =>
      have hops : Cypher.OwnedHop g₁ u = Cypher.OwnedHop g₂ u := by
        funext a b
        exact propext (h.ownedHop_iff inv₁ inv₂)
      simp only [Service.scope, if_true, Service.mem_ownedComponent inv₁.wf,
        Service.mem_ownedComponent inv₂.wf, hops]

/-- **A call makes the same change** to two graphs that agree on what the caller sees. -/
theorem Op.change_eq (h : Graph.Equiv u g₁ g₂) (inv₁ : g₁.Inv) (inv₂ : g₂.Inv) :
    op.change g₁ clock u = op.change g₂ clock u := by
  cases op with
  | createEntity id data => rfl
  | createRelationship id data => simp only [change, h.linkable_iff]
  | changeVisibility id target =>
      have scope := h.mem_scope_iff inv₁ inv₂ id target.cascade
      simp only [change, h.owns_iff, EntityNode.flip_congr scope, RelatedTo.revise_congr scope]
  | deleteEntity id => simp only [change, h.owns_iff]
  | deleteRelationship id => simp only [change, h.detachable_iff]
  | attachSources id urls => simp only [change, h.owns_iff]
  | setEntityEmbedding id embedding => rfl

/-! ## Agreement afterwards -/

namespace Op

/-- What the caller owns or sees afterwards and was there before, the caller owned or saw. -/
theorem owns_of_run {g : Graph} (wf : g.Wf) (fresh : op.Fresh g) {x : UUID} (has : g.Has x)
    (own : (op.run g clock u).1.Owns u x) : g.Owns u x := by
  have s := change_sound clock u wf fresh
  obtain ⟨e', he', rfl, own⟩ := own
  rcases (mem_run_entities wf).mp he' with ⟨e, he, hee⟩ | isNew
  · obtain ⟨hid, howner⟩ := s.entity e e' hee
    exact ⟨e, he, hid.symm, howner.symm.trans own⟩
  · exact absurd has (s.newEntity e' isNew).2

theorem visible_of_onEntity {g : Graph} (wf : g.Wf) (fresh : op.Fresh g) {e e' : EntityNode}
    (hee : (op.change g clock u).onEntity e = some e') (visible : e'.VisibleTo u) :
    e.VisibleTo u := by
  have s := change_sound clock u wf fresh
  by_cases own : e.ownerId = u
  · exact Or.inr own
  · rw [s.foreignEntity e own] at hee
    rw [Option.some.inj hee]
    exact visible

theorem sees_of_run {g : Graph} (wf : g.Wf) (fresh : op.Fresh g) {x : UUID} (has : g.Has x)
    (sees : (op.run g clock u).1.Sees u x) : g.Sees u x := by
  have s := change_sound clock u wf fresh
  obtain ⟨e', he', rfl, visible⟩ := sees
  rcases (mem_run_entities wf).mp he' with ⟨e, he, hee⟩ | isNew
  · exact ⟨e, he, (s.entity e e' hee).1.symm, visible_of_onEntity wf fresh hee visible⟩
  · exact absurd has (s.newEntity e' isNew).2

/-- What shows afterwards and was there before, showed before. -/
theorem shows_of_run {g : Graph} (wf : g.Wf) (fresh : op.Fresh g) {r r' : RelatedTo}
    (hr : r ∈ g.relationships) (hrr : (op.change g clock u).onEdge r = some r')
    (shows : (op.run g clock u).1.Shows u r') : g.Shows u r := by
  have s := change_sound clock u wf fresh
  obtain ⟨hasFrom, hasTo⟩ := wf.endpoints r hr
  obtain ⟨-, -, hfrom, hto, -⟩ := s.edge r r' hrr
  refine ⟨hr, ?_⟩
  have ends := shows.2
  rw [hfrom, hto] at ends
  rcases ends with ⟨⟨sf, st⟩, visible⟩ | own
  · refine Or.inl ⟨⟨sees_of_run wf fresh hasFrom sf, sees_of_run wf fresh hasTo st⟩, ?_⟩
    by_cases mine : r.ownerId = u
    · exact Or.inr mine
    · rcases s.foreignEdge r mine with kept | ⟨gone, -⟩
      · rw [kept] at hrr
        rw [Option.some.inj hrr]
        exact visible
      · rw [gone] at hrr
        cases hrr
  · exact Or.inr (own.imp (owns_of_run wf fresh hasFrom) (owns_of_run wf fresh hasTo))

variable (h : Graph.Equiv u g₁ g₂) (inv₁ : g₁.Inv) (inv₂ : g₂.Inv) (fresh₁ : op.Fresh g₁)
  (fresh₂ : op.Fresh g₂)

include h inv₁ inv₂ fresh₁

theorem entities_run (e' : EntityNode) (visible : e'.VisibleTo u)
    (he' : e' ∈ (op.run g₁ clock u).1.entities) : e' ∈ (op.run g₂ clock u).1.entities := by
  rw [mem_run_entities inv₂.wf, ← change_eq h inv₁ inv₂]
  rcases (mem_run_entities inv₁.wf).mp he' with ⟨e, he, hee⟩ | isNew
  · exact Or.inl ⟨e, (h.entities e (visible_of_onEntity inv₁.wf fresh₁ hee visible)).mp he, hee⟩
  · exact Or.inr isNew

theorem edges_run {r' : RelatedTo} (shows : (op.run g₁ clock u).1.Shows u r') :
    (op.run g₂ clock u).1.Shows u r' := by
  have keep : ∀ e : EntityNode, e.VisibleTo u → e ∈ (op.run g₁ clock u).1.entities →
      e ∈ (op.run g₂ clock u).1.entities := entities_run h inv₁ inv₂ fresh₁
  refine ⟨?_, ?_⟩
  · rw [mem_run_relationships inv₂.wf, ← change_eq h inv₁ inv₂]
    rcases (mem_run_relationships inv₁.wf).mp shows.1 with ⟨r, hr, hrr⟩ | isNew
    · exact Or.inl ⟨r, ((h.edges r).mp (shows_of_run inv₁.wf fresh₁ hr hrr shows)).1, hrr⟩
    · exact Or.inr isNew
  · have sees : ∀ {x}, (op.run g₁ clock u).1.Sees u x → (op.run g₂ clock u).1.Sees u x :=
      fun ⟨e, he, hid, visible⟩ => ⟨e, keep e visible he, hid, visible⟩
    have owns : ∀ {x}, (op.run g₁ clock u).1.Owns u x → (op.run g₂ clock u).1.Owns u x :=
      fun ⟨e, he, hid, own⟩ => ⟨e, keep e (Or.inr own) he, hid, own⟩
    exact shows.2.imp (And.imp_left (And.imp sees sees)) (Or.imp owns owns)

include fresh₂

/-- **A call by the user keeps the agreement.** -/
theorem equiv_run : Graph.Equiv u (op.run g₁ clock u).1 (op.run g₂ clock u).1 where
  entities e' visible :=
    ⟨entities_run h inv₁ inv₂ fresh₁ e' visible, entities_run h.symm inv₂ inv₁ fresh₂ e' visible⟩
  edges r' := ⟨edges_run h inv₁ inv₂ fresh₁, edges_run h.symm inv₂ inv₁ fresh₂⟩
  cites x sees url := by
    rw [run_cites inv₁.wf, run_cites inv₂.wf, change_eq h inv₁ inv₂]
    have before : g₁.Cites x url ↔ g₂.Cites x url := by
      obtain ⟨e', he', rfl, visible⟩ := sees
      rcases (mem_run_entities inv₁.wf).mp he' with ⟨e, he, hee⟩ | isNew
      · have hid := ((change_sound clock u inv₁.wf fresh₁).entity e e' hee).1
        exact h.cites _ ⟨e, he, hid.symm, visible_of_onEntity inv₁.wf fresh₁ hee visible⟩ url
      · -- a new entity cites nothing yet
        have new₁ := ((change_sound clock u inv₁.wf fresh₁).newEntity e' isNew).2
        rw [change_eq h inv₁ inv₂] at isNew
        have new₂ := ((change_sound clock u inv₂.wf fresh₂).newEntity e' isNew).2
        exact ⟨fun ⟨s, hs, hid, _⟩ => absurd (hid ▸ inv₁.wf.citing s hs) new₁,
          fun ⟨s, hs, hid, _⟩ => absurd (hid ▸ inv₂.wf.citing s hs) new₂⟩
    rw [before]

end Op

end

/-! ## The same answers -/

/-- The entities differ in the order of their sources at most. -/
def Entity.Same (a b : Entity) : Prop :=
  { a with sources := [] } = { b with sources := [] } ∧ ∀ url, url ∈ a.sources ↔ url ∈ b.sources

/-- The answers are the same, lists being compared as sets. -/
def Answer.Same : Answer → Answer → Prop
  | .entity a, .entity b => a.Same b
  | .relationship a, .relationship b => a = b
  | .affected a, .affected b => ∀ x, x ∈ a.affectedIds ↔ x ∈ b.affectedIds
  | .done, .done => True
  | .graph a, .graph b =>
      (∀ x ∈ a.entities, ∃ y ∈ b.entities, x.Same y) ∧
        (∀ y ∈ b.entities, ∃ x ∈ a.entities, x.Same y) ∧
        ∀ r, r ∈ a.relationships ↔ r ∈ b.relationships
  | .relationships a, .relationships b => ∀ r, r ∈ a ↔ r ∈ b
  | .error x, .error y => x = y
  | _, _ => False

theorem Answer.Same.of_eq {a b : Answer} (h : a = b) : a.Same b := by
  subst h
  cases a with
  | entity e => exact ⟨rfl, fun _ => Iff.rfl⟩
  | relationship r => exact rfl
  | affected result => exact fun _ => Iff.rfl
  | done => exact trivial
  | graph view =>
      have same : ∀ x : Entity, x.Same x := fun _ => ⟨rfl, fun _ => Iff.rfl⟩
      exact ⟨fun x hx => ⟨x, hx, same x⟩, fun x hx => ⟨x, hx, same x⟩, fun _ => Iff.rfl⟩
  | relationships rs => exact fun _ => Iff.rfl
  | error x => exact rfl

section

variable {u : UUID} {g₁ g₂ : Graph} (h : Graph.Equiv u g₁ g₂) (inv₁ : g₁.Inv) (inv₂ : g₂.Inv)

include h inv₁ inv₂

/-- A writing call is answered alike. -/
theorem Op.answer_same (clock : Clock) (op : Op) :
    Answer.Same (op.run g₁ clock u).2 (op.run g₂ clock u).2 := by
  cases op with
  | createEntity id data => exact .of_eq rfl
  | createRelationship id data =>
      apply Answer.Same.of_eq
      have reject : Service.rejectRelationship g₁ u data = Service.rejectRelationship g₂ u data := by
        simp only [Service.rejectRelationship, Cypher.relationshipEndpoints,
          h.matchVisible_eq inv₁.wf inv₂.wf]
      simp only [run, createRelationship_eq inv₁.wf, createRelationship_eq inv₂.wf,
        change_eq h inv₁ inv₂, reject]
  | changeVisibility id target =>
      by_cases own : g₁.Owns u id
      · obtain ⟨f₁, -, heq₁⟩ :=
          Service.changeVisibility_of_owns clock target inv₁.wf own
        obtain ⟨f₂, -, heq₂⟩ :=
          Service.changeVisibility_of_owns clock target inv₂.wf
            (h.owns_iff.mp own)
        simp only [run, heq₁, heq₂, Answer.of, Answer.Same, List.mem_map, List.mem_filter,
          decide_eq_true_eq, h.mem_scope_iff inv₁ inv₂]
        intro x
        constructor
        · rintro ⟨e, ⟨he, hit⟩, hid⟩
          exact ⟨e, ⟨(h.entities e (Or.inr hit.2.1)).mp he, hit⟩, hid⟩
        · rintro ⟨e, ⟨he, hit⟩, hid⟩
          exact ⟨e, ⟨(h.entities e (Or.inr hit.2.1)).mpr he, hit⟩, hid⟩
      · have own₂ : ¬g₂.Owns u id := fun own₂ => own (h.owns_iff.mpr own₂)
        apply Answer.Same.of_eq
        simp only [run, Service.changeVisibility_of_not_owns own,
          Service.changeVisibility_of_not_owns own₂]
  | deleteEntity id =>
      apply Answer.Same.of_eq
      simp only [run, deleteEntity_eq, h.owns_iff]
  | deleteRelationship id =>
      apply Answer.Same.of_eq
      have found : (∃ r ∈ g₁.relationships, r.id = id ∧ r.Detachable g₁ u) ↔
          ∃ r ∈ g₂.relationships, r.id = id ∧ r.Detachable g₂ u := by
        constructor
        · rintro ⟨r, hr, hid, detach⟩
          exact ⟨r, ((h.edges r).mp (inv₁.shows_of_detachable hr detach)).1, hid,
            h.detachable_iff.mp detach⟩
        · rintro ⟨r, hr, hid, detach⟩
          exact ⟨r, ((h.edges r).mpr (inv₂.shows_of_detachable hr detach)).1, hid,
            h.detachable_iff.mpr detach⟩
      simp only [run, deleteRelationship_eq inv₁.wf.endpoints,
        deleteRelationship_eq inv₂.wf.endpoints, found]
  | attachSources id urls => exact trivial
  | setEntityEmbedding id embedding =>
      apply Answer.Same.of_eq
      have rows : ∀ g : Graph, (Cypher.setEntityEmbedding g id u embedding).2 = [] ↔
          ¬g.Owns u id := fun g => List.map_eq_nil_iff.trans Cypher.matchOwned_eq_nil_iff
      simp only [run, Service.setEntityEmbedding, rows, h.owns_iff]

omit inv₁ inv₂ in
/-- A listed entity is listed on the other side. -/
theorem Service.listed_same {x : Entity} (hx : x ∈ (listGraph g₁ u).entities) :
    ∃ y ∈ (listGraph g₂ u).entities, x.Same y := by
  obtain ⟨e, he, visible, rfl⟩ := mem_listGraph_entities.mp hx
  refine ⟨_, mem_listGraph_entities.mpr ⟨e, (h.entities e visible).mp he, visible, rfl⟩, rfl, ?_⟩
  intro url
  simp only [entity, Cypher.mem_sourceUrls]
  exact h.cites e.id ⟨e, he, rfl, visible⟩ url

omit inv₁ inv₂ in
theorem Query.answer_same (q : Query) : Answer.Same (q.run g₁ u) (q.run g₂ u) := by
  have listed : ∀ r : RelatedTo, r ∈ g₁.relationships ∧ (g₁.Sees u r.fromId ∧ g₁.Sees u r.toId) ∧
      r.VisibleTo u ↔ r ∈ g₂.relationships ∧ (g₂.Sees u r.fromId ∧ g₂.Sees u r.toId) ∧
      r.VisibleTo u := by
    intro r
    constructor
    · rintro ⟨hr, shows⟩
      have shows₂ := (h.edges r).mp ⟨hr, Or.inl shows⟩
      rw [h.sees_iff, h.sees_iff] at shows
      exact ⟨shows₂.1, shows⟩
    · rintro ⟨hr, shows⟩
      have shows₁ := (h.edges r).mpr ⟨hr, Or.inl shows⟩
      rw [← h.sees_iff, ← h.sees_iff] at shows
      exact ⟨shows₁.1, shows⟩
  cases q with
  | listGraph =>
      refine ⟨fun x hx => Service.listed_same h hx, fun y hy => ?_, fun r => ?_⟩
      · obtain ⟨x, hx, same⟩ := Service.listed_same h.symm hy
        exact ⟨x, hx, same.1.symm, fun url => (same.2 url).symm⟩
      · rw [Service.mem_listGraph_relationships, Service.mem_listGraph_relationships]
        exact listed r
  | listVisibleRelationshipsAmong ids =>
      intro r
      rw [Service.mem_listVisibleRelationshipsAmong, Service.mem_listVisibleRelationshipsAmong]
      have := listed r
      tauto

end

/-! ## Any sequence of calls -/

/-- A service call, writing at the times of a clock or reading. -/
inductive Call where
  | write (clock : Clock) (op : Op)
  | read (q : Query)

namespace Call

def run (u : UUID) (g : Graph) : Call → Graph × Answer
  | .write clock op => op.run g clock u
  | .read q => (g, q.run g u)

def Fresh (g : Graph) : Call → Prop
  | .write _ op => op.Fresh g
  | .read _ => True

instance (g : Graph) : (call : Call) → Decidable (call.Fresh g)
  | .write _ op => inferInstanceAs (Decidable (op.Fresh g))
  | .read _ => inferInstanceAs (Decidable True)

theorem reachable_run {u : UUID} {g : Graph} {call : Call} (h : Reachable g)
    (fresh : call.Fresh g) : Reachable (call.run u g).1 := by
  cases call with
  | write clock op => exact h.call clock u op fresh
  | read q => exact h

/-- The unwinding condition. -/
theorem unwinds (u : UUID) :
    Unwinds (run u) Fresh (fun g₁ g₂ => (Reachable g₁ ∧ Reachable g₂) ∧ Graph.Equiv u g₁ g₂)
      Answer.Same := by
  intro g₁ g₂ call ⟨⟨r₁, r₂⟩, h⟩ fresh₁ fresh₂
  have next := And.intro (reachable_run (u := u) r₁ fresh₁) (reachable_run (u := u) r₂ fresh₂)
  cases call with
  | write clock op =>
      exact ⟨op.answer_same h r₁.inv r₂.inv clock, next, op.equiv_run h r₁.inv r₂.inv fresh₁ fresh₂⟩
  | read q => exact ⟨q.answer_same h, next, h⟩

end Call

/-- **Non-interference.**  On two reachable graphs that agree on what the user sees, every
call by the user gets the same answer and keeps the agreement, and so does every sequence
of calls. -/
theorem Graph.Equiv.noninterference {u : UUID} {g₁ g₂ : Graph} (r₁ : Reachable g₁)
    (r₂ : Reachable g₂) (h : Graph.Equiv u g₁ g₂) :
    (∀ call : Call, call.Fresh g₁ → call.Fresh g₂ →
      Answer.Same (call.run u g₁).2 (call.run u g₂).2 ∧
        Graph.Equiv u (call.run u g₁).1 (call.run u g₂).1) ∧
    ∀ calls : List Call, Admitted (Call.run u) Call.Fresh g₁ calls →
      Admitted (Call.run u) Call.Fresh g₂ calls →
      List.Forall₂ Answer.Same (runAll (Call.run u) g₁ calls).2 (runAll (Call.run u) g₂ calls).2 ∧
        Graph.Equiv u (runAll (Call.run u) g₁ calls).1 (runAll (Call.run u) g₂ calls).1 := by
  constructor
  · intro call fresh₁ fresh₂
    obtain ⟨same, -, next⟩ := Call.unwinds u g₁ g₂ call ⟨⟨r₁, r₂⟩, h⟩ fresh₁ fresh₂
    exact ⟨same, next⟩
  · intro calls admitted₁ admitted₂
    obtain ⟨same, -, last⟩ := (Call.unwinds u).runAll ⟨⟨r₁, r₂⟩, h⟩ admitted₁ admitted₂
    exact ⟨same, last⟩

/-- User 2 adds a private note.  User 1, who guesses its id and tries to link to it, gets the
answer there would be without it. -/
theorem noninterference_privateNote :
    Answer.Same
      (Call.run 1 .twoUsers (.write (fun _ => 5) (.createRelationship 50
        { fromId := 10, toId := 40, kind := ⟨"cites", by decide⟩ }))).2
      (Call.run 1 (Op.run .twoUsers (fun _ => 4) 2 (.createEntity 40
          { publicNote with visibility := .priv })).1
        (.write (fun _ => 5) (.createRelationship 50
          { fromId := 10, toId := 40, kind := ⟨"cites", by decide⟩ }))).2 :=
  ((Graph.Equiv.noninterference reachable_twoUsers
    (reachable_twoUsers.call (fun _ => 4) 2 (.createEntity 40
      { publicNote with visibility := .priv }) (by decide))
    (Graph.Equiv.createEntity_private (by decide) rfl)).1 _ (by decide) (by decide)).1

end Intellivault
