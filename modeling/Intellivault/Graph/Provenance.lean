import Intellivault.Lib.History
import Intellivault.Graph.Invariant

/-!
# Where an entity comes from

`attach_sources.cypher` merges `:Source` nodes and `SOURCED_FROM` edges, and every change of
visibility restamps the edges of the entities it reports as changed.  `Graph.Mirrored` is what
the two keep between them; `Attached` reads off a history which URLs the owner of an entity
has attached to it.
-/

namespace Intellivault

open Lib

/-! ## The invariant -/

/-- The pair a `SOURCED_FROM` edge is merged by. -/
def SourcedFrom.key (r : SourcedFrom) : UUID × String := (r.entityId, r.url)

/-- One source for a URL, one edge for an entity and a URL, and every edge as visible as its
entity. -/
structure Graph.Mirrored (g : Graph) : Prop where
  urls : (g.sources.map (·.url)).Nodup
  keys : (g.sourcedFrom.map SourcedFrom.key).Nodup
  ends : ∀ r ∈ g.sourcedFrom, ∃ s ∈ g.sources, s.url = r.url
  mirror : ∀ r ∈ g.sourcedFrom, ∀ e ∈ g.entities, e.id = r.entityId → r.visibility = e.visibility

theorem Graph.mirrored_empty : Graph.Mirrored .empty where
  urls := List.nodup_nil
  keys := List.nodup_nil
  ends := nofun
  mirror := nofun

namespace Cypher

variable {g : Graph} {now : Time} {e : EntityNode} {url : String} {urls : List String}

/-! ### Attaching sources -/

/-- After the `MERGE` there is a source for the URL. -/
theorem mergeSource_found : ∃ s ∈ (mergeSource now g url).sources, s.url = url := by
  unfold mergeSource
  split
  · assumption
  · exact ⟨⟨url, now⟩, List.mem_append_right _ (List.mem_singleton_self _), rfl⟩

theorem mergeSource_mirrored (mirrored : g.Mirrored) : (mergeSource now g url).Mirrored := by
  unfold mergeSource
  split
  · exact mirrored
  · rename_i absent
    have fresh : url ∉ g.sources.map (·.url) := by
      intro mem
      obtain ⟨s, found, same⟩ := List.mem_map.mp mem
      exact absent ⟨s, found, same⟩
    refine ⟨?_, mirrored.keys, fun r mem => ?_, mirrored.mirror⟩
    · rw [List.map_append, List.nodup_append']
      refine ⟨mirrored.urls, List.nodup_singleton _, ?_⟩
      rw [List.map_singleton, List.disjoint_singleton]
      exact fresh
    · obtain ⟨s, found, same⟩ := mirrored.ends r mem
      exact ⟨s, List.mem_append_left _ found, same⟩

theorem mergeSource_entities : (mergeSource now g url).entities = g.entities := by
  unfold mergeSource
  split <;> rfl

/-- Merging the edge of a stored entity to a stored source. -/
theorem mergeSourcedFrom_mirrored (mirrored : g.Mirrored)
    (only : ∀ a ∈ g.entities, a.id = e.id → a = e)
    (found : ∃ s ∈ g.sources, s.url = url) : (mergeSourcedFrom e g url).Mirrored := by
  unfold mergeSourcedFrom
  split
  · have kept : ∀ r : SourcedFrom, SourcedFrom.key (if r.entityId = e.id ∧ r.url = url then
        { r with visibility := e.visibility } else r) = r.key := by
      intro r
      split <;> rfl
    refine ⟨mirrored.urls, ?_, ?_, ?_⟩
    · rw [List.map_map, show SourcedFrom.key ∘ _ = SourcedFrom.key from funext kept]
      exact mirrored.keys
    · intro r mem
      obtain ⟨s, old, rfl⟩ := List.mem_map.mp mem
      rw [show (ite _ _ _ : SourcedFrom).url = s.url from congrArg Prod.snd (kept s)]
      exact mirrored.ends s old
    · intro r mem e' he' same
      obtain ⟨s, old, rfl⟩ := List.mem_map.mp mem
      rw [show (ite _ _ _ : SourcedFrom).entityId = s.entityId from congrArg Prod.fst (kept s)] at same
      split
      · rename_i hit
        rw [only e' he' (same.trans hit.1)]
      · exact mirrored.mirror s old e' he' same
  · rename_i absent
    have fresh : (e.id, url) ∉ g.sourcedFrom.map SourcedFrom.key := by
      intro mem
      obtain ⟨r, old, same⟩ := List.mem_map.mp mem
      exact absent ⟨r, old, congrArg Prod.fst same, congrArg Prod.snd same⟩
    refine ⟨mirrored.urls, ?_, ?_, ?_⟩
    · rw [List.map_append, List.nodup_append']
      refine ⟨mirrored.keys, List.nodup_singleton _, ?_⟩
      rw [List.map_singleton, List.disjoint_singleton]
      exact fresh
    · intro r mem
      rcases List.mem_append.mp mem with old | new
      · exact mirrored.ends r old
      · rw [List.mem_singleton.mp new]
        exact found
    · intro r mem e' he' same
      rcases List.mem_append.mp mem with old | new
      · exact mirrored.mirror r old e' he' same
      · rw [List.mem_singleton.mp new] at same ⊢
        rw [only e' he' same]

theorem citeAll_mirrored (mirrored : g.Mirrored) (only : ∀ a ∈ g.entities, a.id = e.id → a = e) :
    (citeAll now e g urls).Mirrored := by
  unfold citeAll
  induction urls generalizing g with
  | nil => exact mirrored
  | cons url urls ih =>
      rw [List.foldl_cons]
      refine ih ?_ ?_
      · refine mergeSourcedFrom_mirrored (mergeSource_mirrored mirrored) ?_ mergeSource_found
        rw [mergeSource_entities]
        exact only
      · rw [merge_frame.1]
        exact only

end Cypher

namespace Graph.Mirrored

variable {g g' : Graph} {u : UUID}

/-- What keeps entities, up to their other fields, and citations keeps the mirror. -/
theorem of_frame (mirrored : g.Mirrored) (sources : g'.sources = g.sources)
    (citing : g'.sourcedFrom = g.sourcedFrom)
    (entities : ∀ e' ∈ g'.entities, ∀ r ∈ g.sourcedFrom, e'.id = r.entityId →
      ∃ e ∈ g.entities, e.id = e'.id ∧ e.visibility = e'.visibility) : g'.Mirrored := by
  refine ⟨?_, ?_, ?_, ?_⟩
  · rw [sources]
    exact mirrored.urls
  · rw [citing]
    exact mirrored.keys
  · rw [citing, sources]
    exact mirrored.ends
  · intro r mem e' he' same
    rw [citing] at mem
    obtain ⟨e, he, hid, visible⟩ := entities e' he' r mem same
    rw [← visible]
    exact mirrored.mirror r mem e he (hid.trans same)

/-- A change of visibility restamps the edges of what it flips. -/
theorem restamp (mirrored : g.Mirrored) {now : Time} {ids : List UUID} {v : Visibility}
    {edges : List RelatedTo} (wf : g.Wf) :
    Graph.Mirrored
      { entities := g.entities.map (·.flip now ids u v)
        relationships := edges
        sources := g.sources
        sourcedFrom :=
          g.sourcedFrom.map (SourcedFrom.restamp (Service.flipped g ids u v) v) } := by
  have kept : ∀ r, (SourcedFrom.restamp (Service.flipped g ids u v) v r).key = r.key := by
    intro r
    unfold SourcedFrom.restamp
    split <;> rfl
  refine ⟨mirrored.urls, ?_, ?_, ?_⟩
  · rw [List.map_map, show SourcedFrom.key ∘ _ = SourcedFrom.key from funext kept]
    exact mirrored.keys
  · intro r mem
    obtain ⟨s, old, rfl⟩ := List.mem_map.mp mem
    rw [show (SourcedFrom.restamp _ v s).url = s.url from congrArg Prod.snd (kept s)]
    exact mirrored.ends s old
  · intro r mem e' he' same
    obtain ⟨s, old, rfl⟩ := List.mem_map.mp mem
    obtain ⟨e, he, rfl⟩ := List.mem_map.mp he'
    rw [show (SourcedFrom.restamp _ v s).entityId = s.entityId from congrArg Prod.fst (kept s),
      EntityNode.flip_id] at same
    have before := mirrored.mirror s old e he same
    unfold SourcedFrom.restamp EntityNode.flip
    by_cases flips : e.id ∈ ids ∧ e.ownerId = u ∧ e.visibility ≠ v
    · rw [if_pos flips, if_pos (Service.mem_flipped.mpr ⟨e, he, flips, same⟩)]
    · rw [if_neg flips, if_neg ?_, before]
      intro mem
      obtain ⟨x, hx, hit, hid⟩ := Service.mem_flipped.mp mem
      rw [wf.eq_of_id hx he (hid.trans same.symm)] at hit
      exact flips hit

end Graph.Mirrored

/-- **Every call keeps the mirror.** -/
theorem Op.mirrored_run {g : Graph} {clock : Clock} {u : UUID} {op : Op} (wf : g.Wf)
    (mirrored : g.Mirrored) (fresh : op.Fresh g) : (op.run g clock u).1.Mirrored := by
  cases op with
  | createEntity id data =>
      refine mirrored.of_frame rfl rfl fun e' he' r mem same => ?_
      rcases List.mem_append.mp he' with old | new
      · exact ⟨e', old, rfl, rfl⟩
      · -- nothing cites an id that was not in use
        obtain ⟨e, he, hid⟩ := wf.citing r mem
        rw [List.mem_singleton.mp new] at same
        exact (fresh e he (hid.trans same.symm)).elim
  | createRelationship id data =>
      rw [run, createRelationship_eq wf]
      exact mirrored.of_frame rfl rfl fun e' he' _ _ _ => ⟨e', he', rfl, rfl⟩
  | changeVisibility id target =>
      rw [run]
      by_cases own : g.Owns u id
      · rw [Service.changeVisibility_eq clock target wf own]
        exact mirrored.restamp wf
      · rw [Service.changeVisibility_of_not_owns own]
        exact mirrored
  | deleteEntity id =>
      rw [run, deleteEntity_eq]
      refine ⟨mirrored.urls, ?_, ?_, ?_⟩
      · exact mirrored.keys.sublist (List.filter_sublist.map _)
      · exact fun r mem => mirrored.ends r (List.mem_of_mem_filter mem)
      · exact fun r mem e he => mirrored.mirror r (List.mem_of_mem_filter mem) e
          (List.mem_of_mem_filter he)
  | deleteRelationship id =>
      rw [run, deleteRelationship_eq wf.endpoints]
      exact mirrored.of_frame rfl rfl fun e' he' _ _ _ => ⟨e', he', rfl, rfl⟩
  | attachSources id urls =>
      rw [run]
      rcases attachSources_eq clock u id urls wf with ⟨heq, -⟩ | ⟨e, he, -, -, heq⟩
      · rw [heq]
        exact mirrored
      · rw [heq]
        exact Cypher.citeAll_mirrored mirrored fun a ha same => wf.eq_of_id ha he same
  | setEntityEmbedding id embedding =>
      refine mirrored.of_frame rfl rfl fun e' he' r mem same => ?_
      obtain ⟨e, he, rfl⟩ := List.mem_map.mp he'
      refine ⟨e, he, ?_, ?_⟩
      · split <;> rfl
      · split <;> rfl

/-! ## Histories of calls -/

/-- A call and the user who makes it. -/
structure UserCall where
  user : UUID
  op : Op

/-- One call, as a step that shows who called what. -/
inductive CallStep : Graph → UserCall → Graph → Prop
  | call {g : Graph} {c : UserCall} (clock : Clock) (fresh : c.op.Fresh g) :
      CallStep g c (c.op.run g clock c.user).1

/-- The user has attached the URL to the entity, which has been there ever since. -/
def Attached (tr : List (Transition Graph UserCall)) (u id : UUID) (url : String) : Prop :=
  ∃ before x after urls, tr = before ++ x :: after ∧ x.label = ⟨u, .attachSources id urls⟩ ∧
    url ∈ urls ∧ ∀ y ∈ x :: after, y.target.Has id

section Runs

variable {g g' : Graph} {c : UserCall} {tr : List (Transition Graph UserCall)} {u id : UUID}
  {url : String}

theorem attached_nil : ¬Attached [] u id url := by
  rintro ⟨before, x, after, _, split, -⟩
  exact List.append_ne_nil_of_right_ne_nil before (List.cons_ne_nil x after) split.symm

/-- What is attached after one more call. -/
theorem attached_snoc {x : Transition Graph UserCall} :
    Attached (tr ++ [x]) u id url ↔ x.target.Has id ∧
      (Attached tr u id url ∨ ∃ urls, x.label = ⟨u, .attachSources id urls⟩ ∧ url ∈ urls) := by
  constructor
  · rintro ⟨before, y, after, urls, split, label, mem, present⟩
    rcases snoc_eq_append_cons split with ⟨-, rfl, -⟩ | ⟨rest, rfl, same⟩
    · exact ⟨present _ List.mem_cons_self, .inr ⟨urls, label, mem⟩⟩
    · rw [← List.cons_append, forall_mem_snoc] at present
      exact ⟨present.2, .inl ⟨before, y, rest, urls, same, label, mem, present.1⟩⟩
  · rintro ⟨present, ⟨before, y, after, urls, rfl, label, mem, since⟩ | ⟨urls, label, mem⟩⟩
    · refine ⟨before, y, after ++ [x], urls, by simp, label, mem, ?_⟩
      rw [← List.cons_append, forall_mem_snoc]
      exact ⟨since, present⟩
    · exact ⟨tr, x, [], urls, rfl, label, mem, by simpa using present⟩

/-- Where an entity comes from that is there after a call. -/
theorem CallStep.entity (step : CallStep g c g') (wf : g.Wf) {e' : EntityNode}
    (he' : e' ∈ g'.entities) :
    (∃ e ∈ g.entities, e.id = e'.id ∧ e.ownerId = e'.ownerId) ∨ ¬g.Has e'.id := by
  cases step with
  | call clock fresh =>
      have sound := Op.change_sound clock c.user wf fresh
      rcases (Op.mem_run_entities wf).mp he' with ⟨e, he, kept⟩ | new
      · obtain ⟨hid, howner⟩ := sound.entity e e' kept
        exact .inl ⟨e, he, hid.symm, howner.symm⟩
      · exact .inr (sound.newEntity e' new).2

/-- An entity that loses its citations goes with them. -/
theorem Op.kept_of_mem {clock : Clock} {op : Op} (wf : g.Wf) {e' : EntityNode}
    (he' : e' ∈ (op.run g clock u).1.entities) : ¬(op.change g clock u).uncites e'.id := by
  cases op with
  | deleteEntity id =>
      rintro ⟨same, e, he, hid, own⟩
      rw [run, deleteEntity_eq] at he'
      obtain ⟨old, kept⟩ := List.mem_filter.mp he'
      have mine := wf.eq_of_id he old (hid.trans same.symm)
      rw [mine] at own
      exact of_decide_eq_true kept ⟨same, own⟩
  | changeVisibility id target =>
      simp only [change]
      split <;> exact not_false
  | _ => exact not_false

/-- What a call makes an entity cite. -/
theorem Op.newCites_iff {clock : Clock} {op : Op} :
    (op.change g clock u).newCites id url ↔
      ∃ urls, op = .attachSources id urls ∧ url ∈ urls ∧ g.Owns u id := by
  cases op with
  | attachSources id' urls =>
      constructor
      · rintro ⟨⟨rfl, mem⟩, own⟩
        exact ⟨urls, rfl, mem, own⟩
      · rintro ⟨_, ⟨⟩, mem, own⟩
        exact ⟨⟨rfl, mem⟩, own⟩
  | changeVisibility id' target =>
      simp only [change]
      split <;> simp
  | _ => simp [change]

/-- **One call**: an entity cites what it cited, and what its owner attaches. -/
theorem CallStep.cites (step : CallStep g c g') (wf : g.Wf) {e' : EntityNode}
    (he' : e' ∈ g'.entities) :
    g'.Cites e'.id url ↔ g.Cites e'.id url ∨
      ∃ urls, c = ⟨e'.ownerId, .attachSources e'.id urls⟩ ∧ url ∈ urls := by
  have origin := step.entity wf he'
  cases step with
  | call clock fresh =>
      obtain ⟨v, op⟩ := c
      rw [Op.run_cites wf, Op.newCites_iff]
      refine or_congr (and_iff_left (Op.kept_of_mem wf he')) ?_
      constructor
      · rintro ⟨urls, rfl, mem, own⟩
        obtain ⟨e, he, hid, howner⟩ := origin.resolve_right fun absent => absent own.has
        have same : v = e'.ownerId := wf.owner_unique own ⟨e, he, hid, howner⟩
        exact ⟨urls, by rw [same], mem⟩
      · rintro ⟨urls, ⟨⟩, mem⟩
        -- attaching adds no entity
        rcases (Op.mem_run_entities wf).mp he' with ⟨e, he, ⟨⟩⟩ | ⟨⟨⟩⟩
        exact ⟨urls, rfl, mem, _, he, rfl, rfl⟩

/-- An attached URL is one of an entity that is there. -/
theorem Attached.has (history : History CallStep g tr g') (attached : Attached tr u id url) :
    g'.Has id := by
  cases history with
  | start => exact (attached_nil attached).elim
  | next _ _ => exact (attached_snoc.mp attached).1

/-- What every call keeps: the graph is mirrored, and its citations are what was attached. -/
theorem cited_iff_attached (history : History CallStep .empty tr g) :
    g.Wf ∧ g.Mirrored ∧
      ∀ e ∈ g.entities, ∀ url, g.Cites e.id url ↔ Attached tr e.ownerId e.id url := by
  induction history with
  | start => exact ⟨Graph.inv_empty.wf, Graph.mirrored_empty, nofun⟩
  | @next tr t g c before step ih =>
      obtain ⟨wf, mirrored, cited⟩ := ih
      refine ⟨?_, ?_, fun e he url => ?_⟩
      · cases step with
        | call clock fresh => exact Op.wf_run wf fresh
      · cases step with
        | call clock fresh => exact Op.mirrored_run wf mirrored fresh
      rw [step.cites wf he, attached_snoc, and_iff_right ⟨e, he, rfl⟩]
      have old : t.Cites e.id url ↔ Attached tr e.ownerId e.id url := by
        rcases step.entity wf he with ⟨e₀, he₀, hid, howner⟩ | absent
        · rw [← hid, ← howner]
          exact cited e₀ he₀ url
        · refine iff_of_false ?_ fun attached => absent (attached.has before)
          rintro ⟨r, mem, hid, -⟩
          exact absent (hid ▸ wf.citing r mem)
      exact or_congr old Iff.rfl

/-- **The provenance of every entity.**  After any calls by any users there is one source for
each URL and one edge for each entity and URL, every edge is as visible as its entity now is,
and an entity cites just the URLs its owner attached to it. -/
theorem provenance (history : History CallStep .empty tr g) :
    (g.sources.map (·.url)).Nodup ∧
      (g.sourcedFrom.map fun r => (r.entityId, r.url)).Nodup ∧
      (∀ r ∈ g.sourcedFrom, ∃ e ∈ g.entities, e.id = r.entityId ∧ r.visibility = e.visibility) ∧
      ∀ e ∈ g.entities, ∀ url, g.Cites e.id url ↔ Attached tr e.ownerId e.id url := by
  obtain ⟨wf, mirrored, cited⟩ := cited_iff_attached history
  refine ⟨mirrored.urls, mirrored.keys, fun r mem => ?_, cited⟩
  obtain ⟨e, he, hid⟩ := wf.citing r mem
  exact ⟨e, he, hid, mirrored.mirror r mem e he hid⟩

/-- User 1 keeps a note with two sources, one of them attached twice, and then publishes it;
user 2 attaches nothing to it. -/
theorem provenance_published : ∃ (tr : List (Transition Graph UserCall)) (g : Graph),
    History CallStep .empty tr g ∧
      g.sourcedFrom = [⟨10, "https://a", .pub⟩, ⟨10, "https://b", .pub⟩] ∧
      (g.sources.map (·.url)).Nodup ∧
      (g.sourcedFrom.map fun r => (r.entityId, r.url)).Nodup ∧
      (∀ r ∈ g.sourcedFrom, ∃ e ∈ g.entities, e.id = r.entityId ∧ r.visibility = e.visibility) ∧
      ∀ e ∈ g.entities, ∀ url, g.Cites e.id url ↔ Attached tr e.ownerId e.id url := by
  let note : EntityInput := { publicNote with visibility := .priv }
  have created : History CallStep .empty _ _ :=
    History.start.next (.call (c := ⟨1, .createEntity 10 note⟩) (fun _ => 1) (by decide))
  have attached := created.next
    (.call (c := ⟨1, .attachSources 10 ["https://a", "https://b", "https://a"]⟩)
    (fun _ => 2) trivial)
  have foreign := attached.next
    (.call (c := ⟨2, .attachSources 10 ["https://c"]⟩) (fun _ => 3) trivial)
  have published := foreign.next
    (.call (c := ⟨1, .changeVisibility 10 ⟨.pub, true⟩⟩) (fun _ => 4) trivial)
  exact ⟨_, _, published, by decide, provenance published⟩

end Runs

end Intellivault
