import Intellivault.Lib.Rounds
import Intellivault.Graph.Increments
import Intellivault.Frontend.Outdated
import Intellivault.Frontend.Api

/-!
# Loading the sample graph

`seedSampleGraph` makes its calls one by one, while others call the service too; a call or its
answer may get lost.  `Holding` is what has been loaded so far: everybody else's calls keep it,
and so does every call of the loader, answered or not.  A call of the service is one atomic step,
which idealizes what `ReadCommitted` shows.
-/

namespace Intellivault.Frontend

open Lib Lib.Prog

/-! ## The backend and the network -/

/-- A call of somebody else's, or one of the user's runs that adds private records. -/
inductive OtherStep (u : UUID) : Graph → Graph → Prop
  | call {g : Graph} (clock : Clock) (v : UUID) (op : Op) :
      v ≠ u ∨ op.Adds .empty → op.Fresh g → OtherStep u g (op.run g clock v).1

def Others (u : UUID) : Graph → Graph → Prop := Relation.ReflTransGen (OtherStep u)

/-- The service carries the call out and answers it. -/
inductive Served (u : UUID) (g : Graph) : (call : ApiCall) → Fetched call.Data → Graph → Prop
  | entity (clock : Clock) (id : UUID) (input : EntityInput) :
      (Op.createEntity id input).Fresh g →
      Served u g (.createEntity input)
        (.response 201 (some (.inl (Service.createEntity g clock u id input).2)))
        (Service.createEntity g clock u id input).1
  | relationship (clock : Clock) (id fromId toId : UUID) (kind : Kind) (visibility : Visibility) :
      (Op.createRelationship id ⟨fromId, toId, kind, visibility⟩).Fresh g →
      Served u g (.createRelationship (some fromId) (some toId) kind visibility)
        (match (Service.createRelationship g clock u id ⟨fromId, toId, kind, visibility⟩).2 with
          | .ok created => .response 201 (some (.inl created))
          | .error x => .response x.statusCode (some (.inr (some x.detail))))
        (Service.createRelationship g clock u id ⟨fromId, toId, kind, visibility⟩).1
  /-- The validation misses an id. -/
  | invalid (fromId toId : Option UUID) (kind : Kind) (visibility : Visibility) :
      fromId = none ∨ toId = none →
      Served u g (.createRelationship fromId toId kind visibility)
        (.response 422 (some (.inr none))) g

/-- What the page gets if something between it and the service fails. -/
def Fetched.Fails {T : Type} : Fetched T → Prop
  | .thrown _ => True
  | .response status json => status ≠ 204 ∧ (json = none ∨ responseOk status = false)

/-- The service answers, or the call fails, whether or not it has reached the service.  Others
are served before. -/
def network (u : UUID) (lossy : Prop) : Handler ApiCall (fun call => Fetched call.Data) Empty Graph :=
  fun call g answer g' => ∃ g₁ fetched, Others u g g₁ ∧ answer = .ok fetched ∧
    (Served u g₁ call fetched g' ∨
      lossy ∧ fetched.Fails ∧ (g' = g₁ ∨ ∃ lost, Served u g₁ call lost g'))

/-! ## What is loaded -/

/-- The entity as it was sent, and the user's. -/
structure Loads (u : UUID) (input : EntityInput) (e : EntityNode) : Prop where
  owner : e.ownerId = u
  name : e.name = input.name.val
  kind : e.kind = input.kind.val
  visibility : e.visibility = input.visibility
  attributes : e.attributes = Json.sortKeysObj input.attributes

/-- The relationship as it was sent, and the user's. -/
structure Connects (u : UUID) (ids : List UUID) (link : SampleLink) (r : RelatedTo) : Prop where
  owner : r.ownerId = u
  fromId : ids[link.fromIndex]? = some r.fromId
  toId : ids[link.toIndex]? = some r.toId
  kind : r.kind = link.kind.val
  visibility : r.visibility = link.visibility

structure Holding (u : UUID) (ids : List UUID) (inputs : List EntityInput)
    (links : List SampleLink) (g : Graph) : Prop where
  inv : g.Inv
  distinct : ids.Nodup
  nodes : List.Forall₂ (fun id input => ∃ e ∈ g.entities, e.id = id ∧ Loads u input e) ids inputs
  edges : ∀ link ∈ links, ∃ r ∈ g.relationships, Connects u ids link r

/-- A step that leaves the user all entities, but for the embeddings, and the edges between
them. -/
structure Leaves (u : UUID) (g g' : Graph) : Prop where
  inv : g'.Inv
  nodes : ∀ e ∈ g.entities, e.ownerId = u →
    ∃ embedding, { e with embedding := embedding } ∈ g'.entities
  edges : ∀ r ∈ g.relationships, r.ownerId = u → g.Owns u r.fromId → g.Owns u r.toId →
    r ∈ g'.relationships

section Steps

variable {g g' : Graph} {u x : UUID} {ids : List UUID} {inputs : List EntityInput}
  {links : List SampleLink}

theorem OtherStep.leaves (step : OtherStep u g g') (inv : g.Inv) : Leaves u g g' := by
  obtain ⟨clock, v, op, gently, fresh⟩ := step
  have wf := inv.wf
  have sound := Op.change_sound clock v wf fresh
  rcases gently with other | adds
  · refine ⟨Op.inv_run inv fresh, fun e mem own => ⟨e.embedding, ?_⟩,
      fun r mem own ownsFrom ownsTo => ?_⟩
    · have kept := sound.foreignEntity e fun mine => other (mine.symm.trans own)
      exact (Op.mem_run_entities wf).mpr (.inl ⟨e, mem, kept⟩)
    · have others : ∀ y, g.Owns u y → ¬g.Owns v y := by
        intro y ⟨a, memA, isA, ownA⟩ ⟨b, memB, isB, ownB⟩
        rw [wf.eq_of_id memB memA (isB.trans isA.symm)] at ownB
        exact other (ownB.symm.trans ownA)
      rcases sound.foreignEdge r fun mine => other (mine.symm.trans own) with kept | ⟨-, ends⟩
      · exact (Op.mem_run_relationships wf).mpr (.inl ⟨r, mem, kept⟩)
      · exact (ends.elim (others _ ownsFrom) (others _ ownsTo)).elim
  · obtain ⟨embedded, onEntity, -⟩ := adds.embeds g clock v
    refine ⟨Op.inv_run inv fresh, fun e mem own => ⟨embedded e, ?_⟩, fun r mem _ _ _ => ?_⟩
    · exact (Op.mem_run_entities wf).mpr (.inl ⟨e, mem, by rw [onEntity]⟩)
    · exact (Op.mem_run_relationships wf).mpr (.inl ⟨r, mem, by rw [adds.onEdge]⟩)

/-- The loader's calls only add. -/
theorem Served.leaves {call : ApiCall} {fetched : Fetched call.Data}
    (served : Served u g call fetched g') (inv : g.Inv) : Leaves u g g' := by
  cases served with
  | entity clock id input fresh =>
      exact ⟨Op.inv_run inv fresh, fun e mem _ => ⟨e.embedding, List.mem_append_left _ mem⟩,
        fun r mem _ _ _ => mem⟩
  | relationship clock id fromId toId kind visibility fresh =>
      refine ⟨Op.inv_run inv fresh, fun e mem _ => ⟨e.embedding, ?_⟩, fun r mem _ _ _ => ?_⟩
      · rw [Op.createRelationship_eq inv.wf]
        exact mem
      · rw [Op.createRelationship_eq inv.wf]
        exact List.mem_append_left _ mem
  | invalid _ _ _ _ _ => exact ⟨inv, fun e mem _ => ⟨e.embedding, mem⟩, fun r mem _ _ _ => mem⟩

namespace Holding

theorem owns (holding : Holding u ids inputs links g) (mem : x ∈ ids) : g.Owns u x := by
  obtain ⟨i, inside, rfl⟩ := List.getElem_of_mem mem
  have shorter : i < inputs.length := by
    have := holding.nodes.length_eq
    omega
  obtain ⟨e, stored, isX, loads⟩ := holding.nodes.get inside shorter
  exact ⟨e, stored, isX, loads.owner⟩

theorem kept (holding : Holding u ids inputs links g) (leaves : Leaves u g g') :
    Holding u ids inputs links g' := by
  refine ⟨leaves.inv, holding.distinct, holding.nodes.imp fun id input held => ?_,
    fun link mem => ?_⟩
  · obtain ⟨e, stored, rfl, loads⟩ := held
    obtain ⟨embedding, stored'⟩ := leaves.nodes e stored loads.owner
    exact ⟨_, stored', rfl, loads.owner, loads.name, loads.kind, loads.visibility,
      loads.attributes⟩
  · obtain ⟨r, stored, connects⟩ := holding.edges link mem
    have ownsFrom := holding.owns (List.mem_of_getElem? connects.fromId)
    have ownsTo := holding.owns (List.mem_of_getElem? connects.toId)
    exact ⟨r, leaves.edges r stored connects.owner ownsFrom ownsTo, connects⟩

theorem others (holding : Holding u ids inputs links g) (others : Others u g g') :
    Holding u ids inputs links g' := by
  induction others with
  | refl => exact holding
  | tail _ step ih => exact ih.kept (step.leaves ih.inv)

/-- The entity that a call has created is the next one. -/
theorem entity (holding : Holding u ids inputs [] g) (clock : Clock) {id : UUID}
    {input : EntityInput} (fresh : (Op.createEntity id input).Fresh g) :
    Holding u (ids ++ [id]) (inputs ++ [input]) []
      (Service.createEntity g clock u id input).1 := by
  have after := holding.kept ((Served.entity clock id input fresh).leaves holding.inv)
  have unused : id ∉ ids := fun mem => by
    obtain ⟨e, stored, same, -⟩ := holding.owns mem
    exact fresh e stored same
  refine ⟨after.inv, ?_, List.rel_append after.nodes (.cons ?_ .nil), List.forall_mem_nil _⟩
  · rw [← List.concat_eq_append]
    exact holding.distinct.concat unused
  · exact ⟨_, List.mem_append_right _ List.mem_cons_self, rfl, rfl, rfl, rfl, rfl, rfl⟩

end Holding

/-- The link has two ends in the sample, public ones if it is public. -/
def SampleLink.Sound (inputs : List EntityInput) (link : SampleLink) : Prop :=
  link.fromIndex < inputs.length ∧ link.toIndex < inputs.length ∧
    (link.visibility = .priv ∨
      inputs[link.fromIndex]?.map (·.visibility) = some .pub ∧
        inputs[link.toIndex]?.map (·.visibility) = some .pub)

instance (inputs : List EntityInput) (link : SampleLink) : Decidable (link.Sound inputs) :=
  inferInstanceAs (Decidable (_ ∧ _))

namespace Holding

/-- The entity with an index of the sample. -/
theorem at_index (holding : Holding u ids inputs links g) {i : Nat} (inside : i < inputs.length) :
    ∃ x, ids[i]? = some x ∧ g.Owns u x ∧
      (inputs[i]?.map (·.visibility) = some .pub → g.Public x) := by
  have shorter : i < ids.length := by
    have := holding.nodes.length_eq
    omega
  obtain ⟨e, stored, isX, loads⟩ := holding.nodes.get shorter inside
  refine ⟨ids[i], List.getElem?_eq_getElem shorter, ⟨e, stored, isX, loads.owner⟩, ?_⟩
  intro isPublic
  rw [List.getElem?_eq_getElem inside, Option.map_some, Option.some.injEq] at isPublic
  exact ⟨e, stored, isX, loads.visibility.trans isPublic⟩

theorem linkable (holding : Holding u ids inputs links g) {link : SampleLink}
    (sound : link.Sound inputs) :
    ∃ fromId toId, ids[link.fromIndex]? = some fromId ∧ ids[link.toIndex]? = some toId ∧
      g.Linkable u fromId toId link.visibility := by
  obtain ⟨insideFrom, insideTo, visibility⟩ := sound
  obtain ⟨fromId, isFrom, ownsFrom, publicFrom⟩ := holding.at_index insideFrom
  obtain ⟨toId, isTo, ownsTo, publicTo⟩ := holding.at_index insideTo
  refine ⟨fromId, toId, isFrom, isTo, ⟨ownsFrom.sees, ownsTo.sees⟩, .inl ownsFrom, ?_⟩
  exact visibility.imp_right fun both => ⟨publicFrom both.1, publicTo both.2⟩

/-- What may be linked is linked. -/
theorem relationship (holding : Holding u ids inputs links g) (clock : Clock) (id : UUID)
    {link : SampleLink} {fromId toId : UUID} (isFrom : ids[link.fromIndex]? = some fromId)
    (isTo : ids[link.toIndex]? = some toId)
    (linkable : g.Linkable u fromId toId link.visibility) :
    ∃ edge, Service.createRelationship g clock u id ⟨fromId, toId, link.kind, link.visibility⟩ =
      ({ g with relationships := g.relationships ++ [edge] }, .ok edge) ∧
        Connects u ids link edge := by
  refine ⟨⟨id, u, fromId, toId, link.kind.val, link.visibility, clock 0, clock 0⟩, ?_, rfl, isFrom,
    isTo, rfl, rfl⟩
  rw [Op.createRelationship_eq holding.inv.wf]
  simp only [Op.change, if_pos linkable]

end Holding

/-! ## One call -/

section Calls

variable {lossy : Prop} {done : List EntityInput}

theorem Fetched.Fails.not_ok {T : Type} {fetched : Fetched T} (fails : fetched.Fails) :
    (toResult (requestJson fetched)).ok = false := by
  have never : ∀ raw : RawResponse T, raw.ok = false → (toResult raw).ok = false := by
    intro raw notOk
    rw [toResult]
    split
    · rfl
    · rw [if_neg (by rw [notOk]; decide)]
      split <;> rfl
  apply never
  cases fetched with
  | thrown message => rfl
  | response status json =>
      obtain ⟨content, why⟩ := fails
      cases json with
      | none => simp only [requestJson, if_neg content]
      | some body =>
          simp only [requestJson, if_neg content]
          exact why.resolve_left nofun

theorem network.entity {input : EntityInput}
    {fetched : Fetched (ApiCall.createEntity input).Data}
    (answered : network u lossy (.createEntity input) g (.ok fetched) g')
    (holding : Holding u ids inputs [] g) :
    (∃ data : Entity, (toResult (requestJson fetched)).ok = true ∧
      (toResult (requestJson fetched)).data = some data ∧
      Holding u (ids ++ [data.id]) (inputs ++ [input]) [] g') ∨
      (toResult (requestJson fetched)).ok = false ∧ lossy ∧ Holding u ids inputs [] g' := by
  obtain ⟨g₁, fetched, before, ⟨⟩, served | ⟨lossy, fails, after⟩⟩ := answered
  · cases served with
    | entity clock id input fresh => exact .inl ⟨_, rfl, rfl, (holding.others before).entity clock fresh⟩
  · refine .inr ⟨fails.not_ok, lossy, ?_⟩
    rcases after with rfl | ⟨lost, served⟩
    · exact holding.others before
    · exact (holding.others before).kept (served.leaves (holding.others before).inv)

theorem network.relationship {link : SampleLink}
    {fetched : Fetched (ApiCall.createRelationship ids[link.fromIndex]? ids[link.toIndex]?
      link.kind link.visibility).Data}
    (answered : network u lossy (.createRelationship ids[link.fromIndex]? ids[link.toIndex]?
      link.kind link.visibility) g (.ok fetched) g')
    (sound : link.Sound inputs) (holding : Holding u ids inputs links g) :
    (toResult (requestJson fetched)).ok = true ∧ Holding u ids inputs (links ++ [link]) g' ∨
      (toResult (requestJson fetched)).ok = false ∧ lossy ∧ Holding u ids inputs links g' := by
  obtain ⟨g₁, fetched, before, ⟨⟩, served | ⟨lossy, fails, after⟩⟩ := answered
  · have holding := holding.others before
    obtain ⟨fromId, toId, isFrom, isTo, linkable⟩ := holding.linkable sound
    have kept := holding.kept (served.leaves holding.inv)
    rw [isFrom, isTo] at served
    cases served with
    | relationship clock id fromId toId kind visibility fresh =>
        obtain ⟨edge, created, connects⟩ :=
          holding.relationship clock id isFrom isTo linkable
        rw [created] at kept ⊢
        refine .inl ⟨rfl, kept.inv, kept.distinct, kept.nodes, fun other mem => ?_⟩
        rcases List.mem_append.mp mem with old | new
        · exact kept.edges other old
        · rw [List.mem_singleton.mp new]
          exact ⟨edge, List.mem_append_right _ List.mem_cons_self, connects⟩
    | invalid _ _ _ _ missing => rcases missing with missing | missing <;> cases missing
  · refine .inr ⟨fails.not_ok, lossy, ?_⟩
    rcases after with rfl | ⟨lost, served⟩
    · exact holding.others before
    · exact (holding.others before).kept (served.leaves (holding.others before).inv)

end Calls

/-! ## The loops -/

section Loops

variable {lossy : Prop} {done : List EntityInput} {tr : List (Event ApiCall _ Empty)}

/-- A call is answered before the rest of the program. -/
theorem apiFetch_run {H : Handler ApiCall (fun call => Fetched call.Data) Empty Graph} {T : Type}
    {call : ApiCall} {rest : ApiResult call.Data → Client T} {r : Except Empty T}
    (run : Runs H (apiFetch call >>= rest) g tr (ended r) g') :
    ∃ fetched g₁ tr', H call g (.ok fetched) g₁ ∧
      Runs H (rest (toResult (requestJson fetched))) g₁ tr' (ended r) g' ∧
      tr = ⟨call, .ok fetched⟩ :: tr' := by
  obtain ⟨answer, g₁, tr', answered, rest, rfl⟩ := run.call
  cases answer with
  | ok fetched => exact ⟨fetched, g₁, tr', answered, rest, rfl⟩
  | error x => exact x.elim

/-- Either all entities are loaded, or a call fails and the loader stops there. -/
theorem seedEntities_run {rest : List EntityInput} {r : Except Empty (ApiResult Unit ⊕ List UUID)}
    (run : Runs (network u lossy) (seedEntities ids rest) g tr (ended r) g')
    (holding : Holding u ids done [] g) :
    (∃ ids, r = .ok (.inr ids) ∧ tr.length = rest.length ∧ Holding u ids (done ++ rest) [] g') ∨
      ∃ result ids n, r = .ok (.inl result) ∧ result.ok = false ∧ lossy ∧ n < rest.length ∧
        tr.length = n + 1 ∧ Holding u ids (done ++ rest.take n) [] g' := by
  induction rest generalizing ids done g tr with
  | nil =>
      obtain ⟨rfl, rfl, rfl⟩ := run.ret
      exact .inl ⟨ids, rfl, rfl, by rwa [List.append_nil]⟩
  | cons input rest ih =>
      obtain ⟨fetched, g₁, tr, answered, after, rfl⟩ := apiFetch_run run
      rcases network.entity answered holding with
        ⟨data, ok, hasData, loaded⟩ | ⟨failed, lossy, unchanged⟩
      · simp only [ok, hasData] at after
        rcases ih after loaded with ⟨ids, rfl, length, all⟩ |
          ⟨result, ids, n, rfl, failed, lossy, less, length, some⟩
        · refine .inl ⟨ids, rfl, by rw [List.length_cons, List.length_cons, length], ?_⟩
          rwa [List.append_assoc] at all
        · refine .inr ⟨result, ids, n + 1, rfl, failed, lossy, ?_, ?_, ?_⟩
          · exact Nat.succ_lt_succ less
          · rw [List.length_cons, length]
          · rwa [List.append_assoc] at some
      · simp only [failed] at after
        obtain ⟨rfl, rfl, rfl⟩ := after.ret
        refine .inr ⟨_, ids, 0, rfl, failed, lossy, Nat.succ_pos _, rfl, ?_⟩
        rwa [List.take_zero, List.append_nil]

theorem seedLinks_run {rest : List SampleLink} {r : Except Empty (ApiResult Unit)}
    (run : Runs (network u lossy) (seedLinks ids rest) g tr (ended r) g')
    (sound : ∀ link ∈ rest, link.Sound inputs) (holding : Holding u ids inputs links g) :
    (∃ result, r = .ok result ∧ result.ok = true ∧ tr.length = rest.length ∧
      Holding u ids inputs (links ++ rest) g') ∨
      ∃ result n, r = .ok result ∧ result.ok = false ∧ lossy ∧ n < rest.length ∧
        tr.length = n + 1 ∧ Holding u ids inputs (links ++ rest.take n) g' := by
  induction rest generalizing links g tr with
  | nil =>
      obtain ⟨rfl, rfl, rfl⟩ := run.ret
      exact .inl ⟨_, rfl, rfl, rfl, by rwa [List.append_nil]⟩
  | cons link rest ih =>
      obtain ⟨fetched, g₁, tr, answered, after, rfl⟩ := apiFetch_run run
      obtain ⟨soundLink, soundRest⟩ := List.forall_mem_cons.mp sound
      rcases network.relationship answered soundLink holding with
        ⟨ok, loaded⟩ | ⟨failed, lossy, unchanged⟩
      · rw [if_pos ok] at after
        rcases ih after soundRest loaded with
          ⟨result, rfl, ok, length, all⟩ | ⟨result, n, rfl, failed, lossy, less, length, some⟩
        · refine .inl ⟨result, rfl, ok, by rw [List.length_cons, List.length_cons, length], ?_⟩
          rwa [List.append_assoc] at all
        · refine .inr ⟨result, n + 1, rfl, failed, lossy, ?_, ?_, ?_⟩
          · exact Nat.succ_lt_succ less
          · rw [List.length_cons, length]
          · rwa [List.append_assoc] at some
      · rw [if_neg (by rw [failed]; decide)] at after
        obtain ⟨rfl, rfl, rfl⟩ := after.ret
        refine .inr ⟨_, 0, rfl, failed, lossy, Nat.succ_pos _, rfl, ?_⟩
        rwa [List.take_zero, List.append_nil]

end Loops

/-! ## The page afterwards -/

/-- The entity as the page shows it. -/
structure Appears (u : UUID) (input : EntityInput) (entity : Entity) : Prop where
  owner : entity.ownerId = u
  name : entity.name = input.name.val
  kind : entity.kind = input.kind.val
  visibility : entity.visibility = input.visibility
  attributes : entity.attributes = Json.sortKeysObj input.attributes

structure Shows (u : UUID) (inputs : List EntityInput) (links : List SampleLink)
    (view : GraphView) (ids : List UUID) : Prop where
  distinct : ids.Nodup
  entities : List.Forall₂
    (fun id input => ∃ entity ∈ view.entities, entity.id = id ∧ Appears u input entity) ids inputs
  relationships : ∀ link ∈ links, ∃ rel ∈ view.relationships, Connects u ids link rel

theorem Holding.shows (holding : Holding u ids inputs links g) :
    Shows u inputs links (Service.listGraph g u) ids := by
  refine ⟨holding.distinct, holding.nodes.imp fun id input held => ?_, fun link mem => ?_⟩
  · obtain ⟨e, stored, rfl, loads⟩ := held
    exact ⟨_, Service.mem_listGraph_entities.mpr ⟨e, stored, .inr loads.owner, rfl⟩, rfl,
      loads.owner, loads.name, loads.kind, loads.visibility, loads.attributes⟩
  · obtain ⟨r, stored, connects⟩ := holding.edges link mem
    have ownsFrom := holding.owns (List.mem_of_getElem? connects.fromId)
    have ownsTo := holding.owns (List.mem_of_getElem? connects.toId)
    exact ⟨r, Service.mem_listGraph_relationships.mpr
      ⟨stored, ⟨ownsFrom.sees, ownsTo.sees⟩, .inr connects.owner⟩, connects⟩

end Steps

theorem sampleLinks_sound : ∀ link ∈ sampleLinks, link.Sound sampleEntities := by decide

/-- **Loading the sample graph.**  Whatever others do and whatever gets lost, the loader
reports success if and only if all calls have been answered, the page then shows the whole
sample, and otherwise what the answered calls have created; and it fails only over a network that
loses something. -/
theorem seed_loads {g₀ : Graph} (reachable : Reachable g₀) (u : UUID) (lossy : Prop)
    (tr : List (Event ApiCall _ Empty)) (r : Except Empty (ApiResult Unit)) (g₁ g : Graph)
    (run : Runs (network u lossy) seedSampleGraph g₀ tr (ended r) g₁) (later : Others u g₁ g) :
    ∃ result n m, r = .ok result ∧
      (∃ ids, Shows u (sampleEntities.take n) (sampleLinks.take m) (Service.listGraph g u) ids) ∧
      if result.ok then n = sampleEntities.length ∧ m = sampleLinks.length ∧ tr.length = n + m
      else lossy ∧ (m = 0 ∧ n < sampleEntities.length ∨
        n = sampleEntities.length ∧ m < sampleLinks.length) ∧ tr.length = n + m + 1 := by
  have start : Holding u [] [] [] g₀ :=
    ⟨reachable.inv, List.nodup_nil, .nil, List.forall_mem_nil _⟩
  obtain ⟨part, g₂, tr₁, tr₂, first, second, rfl⟩ := run.bind.resolve_left fun ⟨x, _⟩ => x.elim
  rcases seedEntities_run first start with
    ⟨ids, ⟨⟩, length₁, all⟩ | ⟨result, ids, n, ⟨⟩, failed, lossy, less, length, some⟩
  · rw [List.nil_append] at all
    rcases seedLinks_run second sampleLinks_sound all with
      ⟨result, rfl, ok, length₂, all⟩ | ⟨result, m, rfl, failed, lossy, less, length₂, some⟩
    · refine ⟨result, sampleEntities.length, sampleLinks.length, rfl, ⟨ids, ?_⟩, ?_⟩
      · rw [List.take_length, List.take_length]
        exact (all.others later).shows
      · rw [if_pos ok, List.length_append, length₁, length₂]
        exact ⟨rfl, rfl, rfl⟩
    · refine ⟨result, sampleEntities.length, m, rfl, ⟨ids, ?_⟩, ?_⟩
      · rw [List.take_length]
        exact (some.others later).shows
      · rw [if_neg (by rw [failed]; decide), List.length_append, length₁, length₂]
        exact ⟨lossy, .inr ⟨rfl, less⟩, rfl⟩
  · obtain ⟨rfl, rfl, rfl⟩ := second.ret
    refine ⟨result, n, 0, rfl, ⟨ids, (some.others later).shows⟩, ?_⟩
    rw [if_neg (by rw [failed]; decide), List.append_nil, length]
    exact ⟨lossy, .inl ⟨rfl, less⟩, rfl⟩

/-- The first entity is created, the second call throws. -/
theorem seed_loads_offline :
    ∃ result n m, (Except.ok ⟨false, 0, none, some "Failed to fetch"⟩ :
        Except Empty (ApiResult Unit)) = .ok result ∧
      (∃ ids, Shows 1 (sampleEntities.take n) (sampleLinks.take m)
        (Service.listGraph (Service.createEntity .empty (fun _ => 1) 1 10 sampleEntities[0]).1 1)
        ids) ∧
      if result.ok then n = sampleEntities.length ∧ m = sampleLinks.length ∧ 2 = n + m
      else True ∧ (m = 0 ∧ n < sampleEntities.length ∨
        n = sampleEntities.length ∧ m < sampleLinks.length) ∧ 2 = n + m + 1 := by
  have fresh : (Op.createEntity 10 sampleEntities[0]).Fresh .empty := nofun
  have created : network 1 True (.createEntity sampleEntities[0]) .empty (.ok _) _ :=
    ⟨_, _, .refl, rfl, .inl (.entity (fun _ => 1) 10 _ fresh)⟩
  have offline : network 1 True (.createEntity sampleEntities[1])
      (Service.createEntity .empty (fun _ => 1) 1 10 sampleEntities[0]).1
      (.ok (.thrown "Failed to fetch")) _ := ⟨_, _, .refl, rfl, .inr ⟨trivial, trivial, .inl rfl⟩⟩
  exact seed_loads .empty 1 True _ (.ok ⟨false, 0, none, some "Failed to fetch"⟩) _ _
    (.step created (.step offline .refl)) .refl

end Intellivault.Frontend
