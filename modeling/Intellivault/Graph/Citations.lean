import Intellivault.Graph.Writes

/-!
# Citations

Which entity cites which URL, and how `attach_sources.cypher` adds to it.
-/

namespace Intellivault

open Lib

/-- The entity with the id cites the source with the URL. -/
def Graph.Cites (g : Graph) (id : UUID) (url : String) : Prop :=
  ∃ r ∈ g.sourcedFrom, r.entityId = id ∧ r.url = url

namespace Cypher

variable {g : Graph} {now : Time} {e : EntityNode} {u id x : UUID} {url w : String}
  {urls : List String}

theorem mem_sourceUrls : url ∈ sourceUrls g id ↔ g.Cites id url := by
  simp [sourceUrls, Graph.Cites, and_assoc]

@[simp] theorem mergeSource_sourcedFrom :
    (mergeSource now g url).sourcedFrom = g.sourcedFrom := by
  unfold mergeSource
  split <;> rfl

theorem mergeSourcedFrom_cites :
    (mergeSourcedFrom e g url).Cites x w ↔ g.Cites x w ∨ (x = e.id ∧ w = url) := by
  unfold mergeSourcedFrom
  split
  · rename_i merged
    obtain ⟨s, hs, hsid, hsurl⟩ := merged
    constructor
    · rintro ⟨r, hr, hid, hurl⟩
      obtain ⟨q, hq, rfl⟩ := List.mem_map.mp hr
      refine Or.inl ⟨q, hq, ?_⟩
      split at hid <;> rename_i hit
      · rw [if_pos hit] at hurl
        exact ⟨hid, hurl⟩
      · rw [if_neg hit] at hurl
        exact ⟨hid, hurl⟩
    · have keep : ∀ q ∈ g.sourcedFrom, q.entityId = x → q.url = w →
          Graph.Cites { g with
            sourcedFrom := g.sourcedFrom.map fun r =>
              if r.entityId = e.id ∧ r.url = url then { r with visibility := e.visibility }
              else r } x w := by
        intro q hq hid hurl
        refine ⟨_, List.mem_map_of_mem hq, ?_⟩
        split <;> exact ⟨hid, hurl⟩
      rintro (⟨q, hq, hid, hurl⟩ | ⟨rfl, rfl⟩)
      · exact keep q hq hid hurl
      · exact keep s hs hsid hsurl
  · simp only [Graph.Cites, List.mem_append, List.mem_singleton]
    constructor
    · rintro ⟨r, hr | rfl, hid, hurl⟩
      · exact Or.inl ⟨r, hr, hid, hurl⟩
      · exact Or.inr ⟨hid.symm, hurl.symm⟩
    · rintro (⟨r, hr, hid, hurl⟩ | ⟨rfl, rfl⟩)
      · exact ⟨r, Or.inl hr, hid, hurl⟩
      · exact ⟨_, Or.inr rfl, rfl, rfl⟩

/-- Citing for one entity leaves the citations of the others alone. -/
theorem mergeSourcedFrom_rows (other : e.id ≠ x) :
    (mergeSourcedFrom e g url).sourcedFrom.filter (fun r => r.entityId = x) =
      g.sourcedFrom.filter fun r => r.entityId = x := by
  unfold mergeSourcedFrom
  split
  · apply filter_map_of_fixed
    · intro r
      split <;> rfl
    · intro r hit
      have hid := of_decide_eq_true hit
      exact if_neg fun h => other (h.1.symm.trans hid)
  · simp [List.filter_append, other]

/-- The statement for one matched entity. -/
def citeAll (now : Time) (e : EntityNode) (g : Graph) (urls : List String) : Graph :=
  urls.foldl (fun g url => mergeSourcedFrom e (mergeSource now g url) url) g

theorem citeAll_cites :
    (citeAll now e g urls).Cites x w ↔ g.Cites x w ∨ (x = e.id ∧ w ∈ urls) := by
  unfold citeAll
  induction urls generalizing g with
  | nil => simp
  | cons url urls ih =>
      rw [List.foldl_cons, ih, mergeSourcedFrom_cites]
      simp only [Graph.Cites, mergeSource_sourcedFrom, List.mem_cons, or_assoc, and_or_left]

theorem citeAll_rows (other : e.id ≠ x) :
    (citeAll now e g urls).sourcedFrom.filter (fun r => r.entityId = x) =
      g.sourcedFrom.filter fun r => r.entityId = x := by
  unfold citeAll
  induction urls generalizing g with
  | nil => rfl
  | cons url urls ih => rw [List.foldl_cons, ih, mergeSourcedFrom_rows other,
      mergeSource_sourcedFrom]

/-- The two `MERGE`s leave entities and relationships alone. -/
theorem merge_frame :
    (mergeSourcedFrom e (mergeSource now g url) url).entities = g.entities ∧
      (mergeSourcedFrom e (mergeSource now g url) url).relationships = g.relationships := by
  unfold mergeSourcedFrom mergeSource
  split <;> split <;> exact ⟨rfl, rfl⟩

theorem citeAll_frame :
    (citeAll now e g urls).entities = g.entities ∧
      (citeAll now e g urls).relationships = g.relationships := by
  unfold citeAll
  induction urls generalizing g with
  | nil => exact ⟨rfl, rfl⟩
  | cons url urls ih =>
      rw [List.foldl_cons]
      exact ⟨ih.1.trans merge_frame.1, ih.2.trans merge_frame.2⟩

theorem attachSources_entities {u id : UUID} :
    (attachSources g now u id urls).entities = g.entities := by
  unfold attachSources
  generalize matchOwned g id u = rows
  induction rows generalizing g with
  | nil => rfl
  | cons e rows ih => exact ih.trans citeAll_frame.1

theorem attachSources_relationships {u id : UUID} :
    (attachSources g now u id urls).relationships = g.relationships := by
  unfold attachSources
  generalize matchOwned g id u = rows
  induction rows generalizing g with
  | nil => rfl
  | cons e rows ih => exact ih.trans citeAll_frame.2

end Cypher

end Intellivault
