import Intellivault.Lib.Logs
import Intellivault.Lib.Rounds
import Intellivault.Agent.Body

/-!
# What `lookup_node` makes of the drafts

A `Passage` is a draft with what its encyclopedia lookup said.  `lookup_node` hands on the
drafts in order, each as its passage says, and adds the edges between them that the related
topics suggest.
-/

namespace Intellivault.Agent

open Lib Prog

/-! ## One draft -/

/-- The edge `_enrich_one` draws for a related name, if it is the name of another draft. -/
def crossLink (py : Py) (drafts : List DraftEntity) (draft : DraftEntity) (name : String) :
    Option DraftRelationship :=
  match tempIdByName py drafts (py.lower name) with
  | some ref => if ref ≠ draft.tempId then some ⟨draft.tempId, ref, relatedKind⟩ else none
  | none => none

/-- A draft, and how its encyclopedia lookup went if there was one. -/
structure Passage where
  draft : DraftEntity
  article : Option (Except Exn (String × List String)) := none

namespace Passage

/-- The draft as `lookup_node` hands it on. -/
def enriched (p : Passage) : DraftEntity :=
  match p.article with
  | some (.ok (summary, _)) =>
      { p.draft with
        attributes :=
          if summary ≠ "" then
            setField p.draft.attributes "wikipedia_summary"
              (.str (String.ofList (summary.toList.take 600)))
          else p.draft.attributes }
  | _ => p.draft

/-- What `lookup_node` notes about the draft. -/
def notes (p : Passage) : List String :=
  match p.article with
  | some (.error exc) => ["lookup " ++ p.draft.name.val ++ ": " ++ exc.str]
  | _ => []

/-- The lookup can go so. -/
def Possible (deps : Deps) (p : Passage) : Prop :=
  ∀ r, p.article = some r → (lookupArticle deps p.draft).Ends r

/-- The related topics. -/
def names (p : Passage) : List String :=
  match p.article with
  | some (.ok (_, related)) => related
  | _ => []

def edges (py : Py) (drafts : List DraftEntity) (p : Passage) : List DraftRelationship :=
  p.names.filterMap (crossLink py drafts p.draft)

/-- The calls of the lookup, answered so. -/
def Heard (deps : Deps) (p : Passage) (calls : CallLog) : Prop :=
  match p.article with
  | some r => (lookupArticle deps p.draft).Logged calls r
  | none => calls = []

@[simp] theorem enriched_none (d : DraftEntity) : enriched ⟨d, none⟩ = d := rfl

@[simp] theorem notes_none (d : DraftEntity) : notes ⟨d, none⟩ = [] := rfl

/-- The lookup only adds an attribute. -/
theorem enriched_same (p : Passage) : p.enriched.existingId = p.draft.existingId ∧
    p.enriched.name = p.draft.name ∧ p.enriched.kind = p.draft.kind := by
  unfold enriched
  split <;> exact ⟨rfl, rfl, rfl⟩

end Passage

def Call.isTool : Call → Bool
  | .tool _ _ => true
  | _ => false

theorem lookupArticle_logs (deps : Deps) (draft : DraftEntity) :
    (lookupArticle deps draft).Logs (fun _ => True) fun log r =>
      (lookupArticle deps draft).Logged log r ∧ log.filter (·.1.isTool) = log := by
  have tools : (lookupArticle deps draft).Calls fun c => c.isTool = true :=
    (calls_call (by rfl)).bind fun _ => (calls_call (by rfl)).bind fun _ =>
      (calls_call (by rfl)).bind fun _ => trivial
  exact (logs_logged.and tools.logs).mono fun log r ⟨logged, calls⟩ =>
    ⟨logged, List.filter_eq_self.mpr fun e mem => (calls e mem).1⟩

theorem enrichOne_logs (deps : Deps) (drafts : List DraftEntity) (draft : DraftEntity)
    (skipped : List String) :
    (enrichOne deps drafts draft skipped).Logs (fun _ => True) fun log r =>
      ∀ draft' edges skipped', r = .ok (draft', edges, skipped') →
        ∃ p : Passage, p.draft = draft ∧ p.article ≠ none ∧
          p.Heard deps (log.filter (·.1.isTool)) ∧ draft' = p.enriched ∧
          edges = p.edges deps.py drafts ∧ skipped' = skipped ++ p.notes := by
  refine logs_handle.mpr (logs_bind.mpr ((lookupArticle_logs deps draft).mono
    fun log r ⟨logged, tools⟩ => ?_))
  cases r with
  | error exc =>
      dsimp only
      split
      · rintro _ _ _ ⟨⟩
        rw [List.append_nil, tools]
        exact ⟨⟨draft, some (.error exc)⟩, rfl, nofun, logged, rfl, rfl, rfl⟩
      · exact fun _ _ _ => of_error_eq_ok
  | ok article =>
      obtain ⟨summary, related⟩ := article
      rintro _ _ _ ⟨⟩
      rw [List.append_nil, tools]
      exact ⟨⟨draft, some (.ok (summary, related))⟩, rfl, nofun, logged, rfl, rfl,
        (List.append_nil _).symm⟩

/-! ## All drafts -/

/-- The tool calls of the log are those of the passages, one after the other. -/
def HeardAll (deps : Deps) (ps : List Passage) (log : CallLog) : Prop :=
  ∃ pieces, List.Forall₂ (fun p calls => p.Heard deps calls) ps pieces ∧
    log.filter (·.1.isTool) = pieces.flatten

theorem HeardAll.possible {deps : Deps} {ps : List Passage} {log : CallLog}
    (heard : HeardAll deps ps log) : ∀ p ∈ ps, p.Possible deps := by
  obtain ⟨pieces, all, -⟩ := heard
  induction all with
  | nil => exact List.forall_mem_nil _
  | cons heard _ ih =>
      refine List.forall_mem_cons.mpr ⟨fun r looked => ?_, ih⟩
      rw [Passage.Heard, looked] at heard
      exact Runs.ends heard

/-- What the loop over `todo` hands on. -/
def AllLooked (deps : Deps) (drafts todo : List DraftEntity) (skipped : List String) (log : CallLog)
    (r : Except Exn (List DraftEntity × List DraftRelationship × List String)) : Prop :=
  ∀ entities extra skipped', r = .ok (entities, extra, skipped') →
    ∃ ps : List Passage, ps.map (·.draft) = todo ∧ (∀ p ∈ ps, p.article ≠ none) ∧
      HeardAll deps ps log ∧ entities = ps.map (·.enriched) ∧
      extra = ps.flatMap (·.edges deps.py drafts) ∧ skipped' = skipped ++ ps.flatMap (·.notes)

theorem enrichAll_logs (deps : Deps) (drafts todo : List DraftEntity) (first : Bool)
    (skipped : List String) :
    (enrichAll deps drafts first todo skipped).Logs (fun _ => True)
      (AllLooked deps drafts todo skipped) := by
  induction todo generalizing first skipped with
  | nil =>
      rintro _ _ _ ⟨⟩
      exact ⟨[], rfl, List.forall_mem_nil _, ⟨[], .nil, rfl⟩, rfl, rfl, (List.append_nil _).symm⟩
  | cons draft rest ih =>
      have paused : ∀ p : Coroutine PUnit, p.Calls (fun c => c.isTool = false) →
          (p >>= fun _ => enrichAll deps drafts true (draft :: rest) skipped).Logs (fun _ => True)
            (AllLooked deps drafts (draft :: rest) skipped) := by
        intro p idle
        rw [enrichAll, if_neg (fun later => later.1 rfl)]
        refine logs_bind.mpr (idle.logs.mono fun log₀ r calls => ?_)
        have quiet : log₀.filter (·.1.isTool) = [] :=
          List.filter_eq_nil_iff.mpr fun e mem => by simp [(calls e mem).1]
        cases r with
        | error exc => exact fun _ _ _ => of_error_eq_ok
        | ok _ =>
            refine logs_bind.mpr ((enrichOne_logs deps drafts draft skipped).mono fun log r one => ?_)
            cases r with
            | error exc => exact fun _ _ _ => of_error_eq_ok
            | ok looked =>
                obtain ⟨draft', edges, noted⟩ := looked
                obtain ⟨p, rfl, asked, heard, rfl, rfl, rfl⟩ := one _ _ _ rfl
                refine logs_bind.mpr ((ih false _).mono fun log' r others => ?_)
                cases r with
                | error exc => exact fun _ _ _ => of_error_eq_ok
                | ok looked =>
                    obtain ⟨entities, extra, noted⟩ := looked
                    obtain ⟨ps, rfl, asked', ⟨pieces, all, calls⟩, rfl, rfl, rfl⟩ := others _ _ _ rfl
                    rintro _ _ _ ⟨⟩
                    refine ⟨p :: ps, rfl, List.forall_mem_cons.mpr ⟨asked, asked'⟩,
                      ⟨_ :: pieces, .cons heard all, ?_⟩, rfl, rfl, ?_⟩
                    · simp [quiet, calls]
                    · simp
      rw [enrichAll]
      split
      · exact paused _ (calls_call (by rfl))
      · exact paused (pure ()) trivial

/-- Drafts that are not looked up pass as they are. -/
theorem unchanged_passages (deps : Deps) (drafts : List DraftEntity) :
    ∃ ps : List Passage, ps.map (·.draft) = drafts ∧ (∀ p ∈ ps, p.article = none) ∧
      HeardAll deps ps [] ∧
      drafts = ps.map (·.enriched) ∧ (∀ py all, ps.flatMap (·.edges py all) = []) ∧
      ps.flatMap (·.notes) = [] := by
  refine ⟨drafts.map fun d => ⟨d, none⟩, ?_, ?_, ⟨drafts.map fun _ => [], ?_, ?_⟩, ?_,
    fun py all => ?_, ?_⟩
  · rw [List.map_map]
    exact List.map_id' drafts
  · simp
  · induction drafts with
    | nil => exact .nil
    | cons d drafts ih => exact .cons rfl ih
  · simp
  · rw [List.map_map]
    exact (List.map_id' drafts).symm
  · simp [Passage.edges, Passage.names]
  · simp

/-- What `lookup_node` notes about no draft in particular. -/
def lookupRemarks (deps : Deps) (drafts : List DraftEntity) : List String :=
  if drafts = [] then []
  else if wikiTools.any fun name => name ∉ deps.wikipediaTools then
    ["lookup: Wikipedia MCP unavailable — skipped"]
  else if drafts.drop deps.settings.lookupMaxEntities ≠ [] then
    ["lookup: enriched " ++ toString (drafts.take deps.settings.lookupMaxEntities).length ++
      " of " ++ toString drafts.length ++ " entities (cap)"]
  else []

/-- How many drafts are looked up. -/
def lookups (deps : Deps) : Nat :=
  if wikiTools.any fun name => name ∉ deps.wikipediaTools then 0
  else deps.settings.lookupMaxEntities

/-- What `lookup_node` hands on. -/
structure LookedUp (deps : Deps) (state : AgentState) (u : Update) (ps : List Passage) : Prop where
  drafts : ps.map (·.draft) = (state.structured.getD {}).entities
  asked : (∀ p ∈ ps.take (lookups deps), p.article ≠ none) ∧
    ∀ p ∈ ps.drop (lookups deps), p.article = none
  entities : ((state.merge u).structured.getD {}).entities = ps.map (·.enriched)
  relationships : ((state.merge u).structured.getD {}).relationships =
    (state.structured.getD {}).relationships ++
      (ps.flatMap (·.edges deps.py (state.structured.getD {}).entities)).filter fun r =>
        r ∉ (state.structured.getD {}).relationships
  skipped : (state.merge u).skipped = state.skipped ++
    lookupRemarks deps (state.structured.getD {}).entities ++ ps.flatMap (·.notes)

/-- The drafts that are looked up are the first ones. -/
theorem split_asked {ps qs : List Passage} {n : Nat} (asked : ∀ p ∈ ps, p.article ≠ none)
    (silent : ∀ p ∈ qs, p.article = none) (cut : ps.length = n ∨ ps.length < n ∧ qs.length = 0) :
    (∀ p ∈ (ps ++ qs).take n, p.article ≠ none) ∧ ∀ p ∈ (ps ++ qs).drop n, p.article = none := by
  rcases cut with rfl | ⟨short, none⟩
  · rw [List.take_left, List.drop_left]
    exact ⟨asked, silent⟩
  · obtain rfl := List.length_eq_zero_iff.mp none
    rw [List.append_nil, List.take_of_length_le short.le, List.drop_of_length_le short.le]
    exact ⟨asked, List.forall_mem_nil _⟩

/-- Where nothing is looked up, the drafts stay and only the remark is noted. -/
theorem lookedUp_nothing {deps : Deps} {state : AgentState} {u : Update}
    (structured : (state.merge u).structured = state.structured)
    (skipped : (state.merge u).skipped =
      state.skipped ++ lookupRemarks deps (state.structured.getD {}).entities)
    (nothing : (state.structured.getD {}).entities = [] ∨ lookups deps = 0) :
    ∃ ps, HeardAll deps ps [] ∧ LookedUp deps state u ps := by
  obtain ⟨ps, drafts, silent, heard, unchanged, noEdges, noNotes⟩ :=
    unchanged_passages deps (state.structured.getD {}).entities
  refine ⟨ps, heard, drafts, ?_, ?_, ?_, ?_⟩
  · rcases nothing with empty | none
    · obtain rfl : ps = [] := List.map_eq_nil_iff.mp (drafts.trans empty)
      simp
    · rw [none, List.take_zero, List.drop_zero]
      exact ⟨List.forall_mem_nil _, silent⟩
  · rw [structured]
    exact unchanged
  · rw [structured, noEdges]
    exact (List.append_nil _).symm
  · rw [skipped, noNotes, List.append_nil]

/-- **`lookup_node`, draft by draft.** -/
theorem lookupNode_logs (deps : Deps) (state : AgentState) :
    (lookupNode deps state).Logs (fun _ => True) fun log r => ∀ u, r = .ok u →
      ∃ ps, HeardAll deps ps log ∧ LookedUp deps state u ps := by
  unfold lookupNode
  dsimp only
  split
  · rename_i empty
    rintro _ ⟨⟩
    refine lookedUp_nothing rfl ?_ (.inl empty)
    rw [lookupRemarks, if_pos empty, List.append_nil]
    rfl
  · rename_i some
    split
    · rename_i missing
      rintro _ ⟨⟩
      refine lookedUp_nothing rfl ?_ (.inr (if_pos missing))
      rw [lookupRemarks, if_neg some, if_pos missing]
      rfl
    · rename_i tools
      refine logs_bind.mpr ((enrichAll_logs deps _ _ _ _).mono fun log r looked => ?_)
      cases r with
      | error exc => exact fun _ => of_error_eq_ok
      | ok result =>
          obtain ⟨entities, extra, skipped⟩ := result
          obtain ⟨ps, first, asked, heard, rfl, rfl, rfl⟩ := looked _ _ _ rfl
          obtain ⟨qs, rest, silent, ⟨more, others, none⟩, kept, noEdges, quiet⟩ :=
            unchanged_passages deps
              ((state.structured.getD {}).entities.drop deps.settings.lookupMaxEntities)
          obtain ⟨pieces, all, calls⟩ := heard
          rintro _ ⟨⟩
          refine ⟨ps ++ qs, ⟨pieces ++ more, List.rel_append all others, ?_⟩, ?_, ?_, ?_, ?_, ?_⟩
          · rw [List.append_nil, calls, List.flatten_append, ← none]
            exact (List.append_nil _).symm
          · rw [List.map_append, first, rest, List.take_append_drop]
          · rw [lookups, if_neg tools]
            have short : ps.length = min deps.settings.lookupMaxEntities
                (state.structured.getD {}).entities.length := by
              rw [← List.length_take, ← first, List.length_map]
            have long : qs.length = (state.structured.getD {}).entities.length -
                deps.settings.lookupMaxEntities := by
              rw [← List.length_drop, ← rest, List.length_map]
            exact split_asked asked silent (by omega)
          · rw [List.map_append, ← kept]
            rfl
          · rw [List.flatMap_append, noEdges, List.append_nil]
            rfl
          · rw [lookupRemarks, if_neg some, if_neg tools, List.flatMap_append, quiet, List.append_nil]
            change (if _ then _ else _) ++ _ = _
            split <;> simp

/-! ## The added edges -/

/-- A related topic of a draft. -/
abbrev Mention := DraftEntity × String

def mentions (ps : List Passage) : List Mention := ps.flatMap fun p => p.names.map (p.draft, ·)

/-- The edge that is added for a mention, if any. -/
def addedFor (py : Py) (result : StructuredResult) (m : Mention) : Option DraftRelationship :=
  (crossLink py result.entities m.1 m.2).filter fun r => r ∉ result.relationships

theorem addedFor_eq_some {py : Py} {result : StructuredResult} {m : Mention}
    {r : DraftRelationship} : addedFor py result m = some r ↔
      ∃ ref, tempIdByName py result.entities (py.lower m.2) = some ref ∧ ref ≠ m.1.tempId ∧
        r = ⟨m.1.tempId, ref, relatedKind⟩ ∧ r ∉ result.relationships := by
  rw [addedFor, Option.filter_eq_some_iff, crossLink]
  split
  · rename_i ref found
    by_cases own : ref = m.1.tempId
    · simp [found, own]
    · simp only [found, own, ne_eq, not_false_eq_true, if_true, Option.some.injEq, decide_eq_true_eq]
      constructor
      · rintro ⟨rfl, new⟩
        exact ⟨ref, rfl, own, rfl, new⟩
      · rintro ⟨_, rfl, -, rfl, new⟩
        exact ⟨rfl, new⟩
  · rename_i unknown
    simp [unknown]

theorem added_eq (py : Py) (result : StructuredResult) (ps : List Passage) :
    (ps.flatMap (·.edges py result.entities)).filter (fun r => r ∉ result.relationships) =
      (mentions ps).filterMap (addedFor py result) := by
  induction ps with
  | nil => rfl
  | cons p ps ih =>
      rw [mentions, List.flatMap_cons, List.filter_append, ih, List.flatMap_cons,
        List.filterMap_append, List.filterMap_map, Passage.edges, List.filter_filterMap]
      rfl

/-- Two related topics that ask for one new edge. -/
def Clash (py : Py) (result : StructuredResult) (a b : Mention) : Prop :=
  a.1.tempId = b.1.tempId ∧ ∃ ref, tempIdByName py result.entities (py.lower a.2) = some ref ∧
    tempIdByName py result.entities (py.lower b.2) = some ref ∧ ref ≠ a.1.tempId ∧
    ⟨a.1.tempId, ref, relatedKind⟩ ∉ result.relationships

theorem clash_iff {py : Py} {result : StructuredResult} {a b : Mention} :
    Clash py result a b ↔ ∃ r, addedFor py result a = some r ∧ addedFor py result b = some r := by
  simp only [addedFor_eq_some]
  constructor
  · rintro ⟨same, ref, here, there, other, new⟩
    exact ⟨_, ⟨ref, here, other, rfl, new⟩, ref, there, same ▸ other, same ▸ rfl, new⟩
  · rintro ⟨_, ⟨ref, here, other, rfl, new⟩, ref', there, -, same, -⟩
    injection same with own target
    exact ⟨own, ref, here, target ▸ there, other, new⟩

theorem nodup_added_iff (py : Py) (result : StructuredResult) (ps : List Passage) :
    ((mentions ps).filterMap (addedFor py result)).Nodup ↔
      (mentions ps).Pairwise fun a b => ¬Clash py result a b := by
  rw [List.Nodup, List.pairwise_filterMap]
  refine List.Pairwise.iff fun a b => ?_
  rw [clash_iff]
  constructor
  · rintro apart ⟨r, here, there⟩
    exact apart r here r there rfl
  · rintro apart r here _ there rfl
    exact apart ⟨r, here, there⟩

theorem tempIdByName_mem {py : Py} {drafts : List DraftEntity} {name ref : String}
    (named : tempIdByName py drafts name = some ref) : ref ∈ drafts.map (·.tempId) := by
  obtain ⟨d, found, rfl⟩ := Option.map_eq_some_iff.mp named
  exact List.mem_map_of_mem (List.mem_reverse.mp (List.mem_of_find?_eq_some found))

/-- The draft as it was, but for the summary. -/
def Summarised (before after : DraftEntity) : Prop :=
  after.tempId = before.tempId ∧ after.name = before.name ∧ after.kind = before.kind ∧
    after.existingId = before.existingId ∧
    after.attributes.filter (fun f => f.1 ≠ "wikipedia_summary") =
      before.attributes.filter fun f => f.1 ≠ "wikipedia_summary"

theorem setField_others (fields : List (String × Json)) (key : String) (value : Json) :
    (setField fields key value).filter (fun f => f.1 ≠ key) = fields.filter fun f => f.1 ≠ key := by
  have replaced : (fields.map fun f => if f.1 = key then (key, value) else f).filter
      (fun f => f.1 ≠ key) = fields.filter fun f => f.1 ≠ key := by
    induction fields with
    | nil => rfl
    | cons f fields ih =>
        rw [List.map_cons]
        by_cases here : f.1 = key
        · simpa [here] using ih
        · simpa [here] using ih
  unfold setField
  split
  · exact replaced
  · simp

theorem Passage.summarised (p : Passage) : Summarised p.draft p.enriched := by
  unfold Passage.enriched
  split
  · refine ⟨rfl, rfl, rfl, rfl, ?_⟩
    dsimp only
    split
    · exact setField_others _ _ _
    · rfl
  · exact ⟨rfl, rfl, rfl, rfl, rfl⟩

/-- Edges are added between drafts, each one once, and the drafts stay. -/
def Clean (before after : StructuredResult) : Prop :=
  List.Forall₂ Summarised before.entities after.entities ∧
    ∃ added, after.relationships = before.relationships ++ added ∧ added.Nodup ∧
      ∀ r ∈ added, r ∉ before.relationships ∧ r.fromRef ≠ r.toRef ∧
        r.fromRef ∈ before.entities.map (·.tempId) ∧ r.toRef ∈ before.entities.map (·.tempId)

/-- **When lookup adds each edge once**: exactly if no two related topics clash. -/
theorem lookup_clean_iff {deps : Deps} {state : AgentState} {u : Update} {S : Type}
    {H : Handler Call Call.Answer Exn S} {s s' : S} {log : CallLog}
    (run : Runs H (lookupNode deps state) s log (ended (.ok u)) s') :
    ∃ ps, HeardAll deps ps log ∧ LookedUp deps state u ps ∧
      (Clean (state.structured.getD {}) ((state.merge u).structured.getD {}) ↔
        (mentions ps).Pairwise fun a b => ¬Clash deps.py (state.structured.getD {}) a b) := by
  obtain ⟨ps, heard, looked⟩ := run.logs (fun _ _ _ _ _ => trivial) (lookupNode_logs deps state) u rfl
  refine ⟨ps, heard, looked, ?_⟩
  have once := nodup_added_iff deps.py (state.structured.getD {}) ps
  have relationships := looked.relationships
  rw [added_eq] at relationships
  constructor
  · rintro ⟨-, added, same, nodup, -⟩
    rw [same] at relationships
    exact once.mp (List.append_cancel_left relationships ▸ nodup)
  · intro apart
    refine ⟨?_, _, relationships, once.mpr apart, fun r mem => ?_⟩
    · rw [← looked.drafts, looked.entities]
      exact List.forall₂_map_left_iff.mpr (List.forall₂_map_right_iff.mpr
        (List.forall₂_same.mpr fun p _ => p.summarised))
    · obtain ⟨m, mentioned, added⟩ := List.mem_filterMap.mp mem
      obtain ⟨ref, named, other, rfl, new⟩ := addedFor_eq_some.mp added
      obtain ⟨p, passed, inside⟩ := List.mem_flatMap.mp mentioned
      obtain ⟨name, -, rfl⟩ := List.mem_map.mp inside
      refine ⟨new, other.symm, ?_, ?_⟩
      · rw [← looked.drafts, List.map_map]
        exact List.mem_map_of_mem passed
      · exact tempIdByName_mem named

/-! ## A topic that is named twice -/

/-- The encyclopedia is there. -/
def topicDeps : Deps :=
  { settings := { recursionLimit := 25, lookupPaceSeconds := 0 }, searchTool := false
    wikipediaTools := wikiTools
    py := { lower := id, loads := fun _ => none, strOf := fun _ => "" } }

/-- Two notes. -/
def topicState : AgentState :=
  { initialState "notes" 1 7 with
    structured := some { entities :=
      [{ tempId := "t1", name := ⟨"alpha", by decide⟩, kind := .of "text" (Eq.refl true) },
       { tempId := "t2", name := ⟨"beta", by decide⟩, kind := .of "text" (Eq.refl true) }] } }

/-- Every article has these related topics, and no summary. -/
def topicAnswers (related : List String) : (c : Call) → Unit → Except Exn c.Answer × Unit
  | .tool name _, u =>
      (.ok (if name = "get_related_topics" then .arr (related.map .str) else .null), u)
  | .sleep _, u => (.ok (), u)
  | _, u => (.error .timeout, u)

/-- Named once, it becomes one edge. -/
theorem lookup_clean_iff_topic : ∃ u ps, LookedUp topicDeps topicState u ps ∧
    (u.structured.getD {}).relationships = [⟨"t1", "t2", relatedKind⟩] ∧
    (mentions ps).Pairwise fun a b => ¬Clash topicDeps.py (topicState.structured.getD {}) a b := by
  obtain ⟨ps, -, looked, clean⟩ :=
    lookup_clean_iff (logged_run (topicAnswers ["beta"]) (lookupNode topicDeps topicState))
  refine ⟨_, ps, looked, rfl, clean.mp ⟨?_, _, rfl, ?_, ?_⟩⟩
  · exact .cons ⟨rfl, rfl, rfl, rfl, rfl⟩ (.cons ⟨rfl, rfl, rfl, rfl, rfl⟩ .nil)
  · decide
  · decide

/-- Named twice, it becomes two. -/
theorem lookup_doubles_edge : ¬∀ (deps : Deps) (state : AgentState) (u : Update) (log : CallLog),
    Runs (fun _ _ _ _ => True) (lookupNode deps state) () log (ended (.ok u)) () →
      Clean (state.structured.getD {}) ((state.merge u).structured.getD {}) := by
  intro always
  obtain ⟨-, added, same, nodup, -⟩ :=
    always topicDeps topicState _ _ (logged_run (topicAnswers ["beta", "beta"]) _)
  have doubled : added = [⟨"t1", "t2", relatedKind⟩, ⟨"t1", "t2", relatedKind⟩] := same.symm
  rw [doubled] at nodup
  exact absurd nodup (by decide)

end Intellivault.Agent
