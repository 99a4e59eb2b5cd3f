import Intellivault.Agent.Supersteps

/-!
# The rounds of the research graph

Both cycles are bounded by counters of the state.  `Due` says how the counters and the
lists of the state stand to what has run, for each node that can be due; `Due.step` is its
step lemma and `reached` its run lemma.
-/

namespace Intellivault.Agent

open Lib

/-! ## The order of the nodes -/

namespace Node

/-- The nodes in order; the two cycles stay at their height. -/
def phase : Node → Nat
  | .plan => 0
  | .surveyGraph => 1
  | .search | .broadenQueries => 2
  | .fetch => 3
  | .analyzeOne => 4
  | .synthesize => 5
  | .struct | .critique => 6
  | .lookup => 7
  | .commit => 8
  | .enrich => 9

/-- The nodes on a cycle. -/
def cycles : Node → Bool
  | .search | .broadenQueries | .struct | .critique => true
  | _ => false

end Node

/-- Where `build_graph`'s edges can lead. -/
def edges : List (Node × Node) :=
  [(.plan, .surveyGraph), (.surveyGraph, .search), (.search, .broadenQueries), (.search, .fetch),
    (.broadenQueries, .search), (.fetch, .analyzeOne), (.fetch, .synthesize),
    (.analyzeOne, .synthesize), (.synthesize, .struct), (.struct, .critique),
    (.critique, .struct), (.critique, .lookup), (.lookup, .commit), (.commit, .enrich)]

theorem mem_edges {deps : Deps} {review : Bool} {node node' : Node} {state : AgentState}
    (edge : next deps review node state = some node') : (node, node') ∈ edges := by
  cases node <;> simp only [next, Option.some.injEq] at edge
  case search =>
    unfold routeAfterSearch at edge
    split at edge <;> subst edge <;> decide
  case fetch =>
    unfold fanOutAnalyze at edge
    split at edge <;> subst edge <;> decide
  case critique =>
    unfold routeAfterCritique at edge
    split at edge <;> subst edge <;> decide
  case lookup =>
    cases review with
    | true => cases edge
    | false =>
        obtain rfl := Option.some.inj edge
        decide
  case enrich => cases edge
  all_goals
    subst edge
    decide

/-- An edge leads on, or around a cycle. -/
theorem phase_edges : ∀ p ∈ edges,
    p.1.phase ≤ p.2.phase ∧ (p.1.cycles = false → p.1.phase < p.2.phase) := by
  decide

/-! ## What is due, and what has run -/

/-- The rounds of the search cycle. -/
def SearchCounts (deps : Deps) (tr : List Ran) (state : AgentState) : Node → Prop
  | .plan | .surveyGraph =>
      ran .search tr = 0 ∧ ran .broadenQueries tr = 0 ∧ state.searchAttempts = 0
  | .search =>
      ran .search tr = ran .broadenQueries tr ∧
        ran .broadenQueries tr ≤ deps.settings.searchRetries ∧
        state.searchAttempts = ran .broadenQueries tr
  | .broadenQueries =>
      ran .search tr = ran .broadenQueries tr + 1 ∧
        ran .broadenQueries tr < deps.settings.searchRetries ∧
        state.searchAttempts = ran .broadenQueries tr
  | _ =>
      ran .search tr = ran .broadenQueries tr + 1 ∧
        ran .broadenQueries tr ≤ deps.settings.searchRetries

/-- The rounds of the critique cycle. -/
def CritiqueCounts (deps : Deps) (tr : List Ran) (state : AgentState) : Node → Prop
  | .struct =>
      ran .struct tr = ran .critique tr ∧ ran .critique tr ≤ deps.settings.critiqueRetries ∧
        bounces tr = ran .critique tr ∧ state.critiqueAttempts = ran .critique tr
  | .critique =>
      ran .struct tr = ran .critique tr + 1 ∧ ran .critique tr ≤ deps.settings.critiqueRetries ∧
        bounces tr = ran .critique tr ∧ state.critiqueAttempts = ran .critique tr
  | .lookup | .commit | .enrich =>
      ran .struct tr = ran .critique tr ∧ ran .critique tr ≤ deps.settings.critiqueRetries + 1
  | _ =>
      ran .struct tr = 0 ∧ ran .critique tr = 0 ∧ bounces tr = 0 ∧ state.critiqueAttempts = 0

/-- The supersteps before the node, apart from the rounds of the cycles. -/
def Node.depth : Node → Nat
  | .plan => 0
  | .surveyGraph => 1
  | .search => 2
  | .broadenQueries | .fetch => 3
  | .analyzeOne => 4
  | .synthesize => 5
  | .struct | .lookup => 6
  | .critique | .commit => 7
  | .enrich => 8

theorem depth_edges : ∀ p ∈ edges, p.1.depth + 1 ≤
    p.2.depth + 2 * (if p.1 = .broadenQueries then 1 else 0) +
      2 * (if p.1 = .critique then 1 else 0) := by
  decide

/-- How the state stands to what has run when the node is due. -/
structure Due (deps : Deps) (tr : List Ran) (node : Node) (state : AgentState) : Prop where
  once : ∀ n : Node, n.cycles = false → ran n tr ≤ 1 ∧ (ran n tr = 1 → n.phase < node.phase)
  planned : 0 < node.phase → state.plan.isSome = true
  searches : SearchCounts deps tr state node
  hits : node = .fetch → state.searchHits.length ≤ deps.settings.maxSources
  documents : 4 ≤ node.phase → state.documents.length ≤ deps.settings.maxSources
  analyses : analyzed tr = if node.phase ≤ 4 then [] else state.documents
  critiques : CritiqueCounts deps tr state node
  length : tr.length ≤ node.depth + 2 * ran .broadenQueries tr + 2 * ran .critique tr

theorem Due.start (deps : Deps) (topic : String) (ownerId runId : UUID) :
    Due deps [] .plan (initialState topic ownerId runId) := by
  constructor
  · exact fun n _ => ⟨Nat.zero_le _, nofun⟩
  · nofun
  · exact ⟨rfl, rfl, rfl⟩
  · nofun
  · nofun
  · rfl
  · exact ⟨rfl, rfl, rfl, rfl⟩
  · exact Nat.zero_le _

section

variable {deps : Deps} {review : Bool} {tr : List Ran} {node node' : Node}
  {state state' : AgentState} {label : Except Exn (List Update)}

/-- The counts after one more superstep, of a node. -/
theorem ran_next {n : Node} {target : Config} :
    ran n (tr ++ [⟨⟨some node, state⟩, label, target⟩]) =
      ran n tr + if node = n then 1 else 0 := by
  simp [ran_snoc]

theorem SearchCounts.step {target : Config} (before : SearchCounts deps tr state node)
    (came : Came deps node state state') (edge : next deps review node state' = some node') :
    SearchCounts deps (tr ++ [⟨⟨some node, state⟩, label, target⟩]) state' node' := by
  have attempts := came.searchAttempts
  cases node <;> simp only [next, Option.some.injEq] at edge <;>
    simp only [SearchCounts, reduceCtorEq, if_true, if_false] at before attempts
  case search =>
    unfold routeAfterSearch at edge
    split at edge
    · subst edge
      simp only [SearchCounts, ran_next, reduceCtorEq, if_true, if_false]
      omega
    · rename_i again
      subst edge
      simp only [SearchCounts, ran_next, reduceCtorEq, if_true, if_false]
      cases tool : deps.searchTool <;> simp [tool] at attempts again <;> omega
  case broadenQueries =>
    subst edge
    simp only [SearchCounts, ran_next, reduceCtorEq, if_true, if_false]
    omega
  case fetch =>
    unfold fanOutAnalyze at edge
    split at edge <;> subst edge <;>
      simpa only [SearchCounts, ran_next, reduceCtorEq, if_false, Nat.add_zero] using before
  case critique =>
    unfold routeAfterCritique at edge
    split at edge <;> subst edge <;>
      simpa only [SearchCounts, ran_next, reduceCtorEq, if_false, Nat.add_zero] using before
  case lookup =>
    cases review with
    | true => cases edge
    | false =>
        obtain rfl := Option.some.inj edge
        simpa only [SearchCounts, ran_next, reduceCtorEq, if_false, Nat.add_zero] using before
  case enrich => cases edge
  all_goals
    subst edge
    simp only [SearchCounts, ran_next, reduceCtorEq, if_false, Nat.add_zero]
    omega

theorem bounces_next : bounces (tr ++ [⟨⟨some node, state⟩, label, ⟨some node', state'⟩⟩]) =
    bounces tr + if node = .critique ∧ node' = .struct then 1 else 0 := by
  simp [bounces_snoc]

theorem CritiqueCounts.step (before : CritiqueCounts deps tr state node)
    (came : Came deps node state state') (edge : next deps review node state' = some node') :
    CritiqueCounts deps (tr ++ [⟨⟨some node, state⟩, label, ⟨some node', state'⟩⟩]) state' node' := by
  have attempts := came.critiqueAttempts
  cases node <;> simp only [next, Option.some.injEq] at edge <;>
    simp only [CritiqueCounts, reduceCtorEq, if_true, if_false] at before attempts
  case search =>
    unfold routeAfterSearch at edge
    split at edge <;> subst edge <;>
      simpa [CritiqueCounts, ran_next, bounces_next, attempts] using before
  case fetch =>
    unfold fanOutAnalyze at edge
    split at edge <;> subst edge <;>
      simpa [CritiqueCounts, ran_next, bounces_next, attempts] using before
  case critique =>
    unfold routeAfterCritique at edge
    split at edge
    · subst edge
      simp only [CritiqueCounts, ran_next, reduceCtorEq, if_true, if_false]
      omega
    · rename_i again
      have few := Nat.le_of_not_lt (not_or.mp again).2
      subst edge
      simp only [CritiqueCounts, ran_next, bounces_next, reduceCtorEq, and_self, if_true, if_false]
      omega
  case lookup =>
    cases review with
    | true => cases edge
    | false =>
        obtain rfl := Option.some.inj edge
        simpa only [CritiqueCounts, ran_next, reduceCtorEq, if_false, Nat.add_zero] using before
  case enrich => cases edge
  all_goals
    subst edge
    simp only [CritiqueCounts, ran_next, bounces_next, reduceCtorEq, false_and, if_true, if_false]
    omega

theorem Due.once_next (due : Due deps tr node state)
    (edge : next deps review node state' = some node') {target : Config} (n : Node)
    (straight : n.cycles = false) :
    ran n (tr ++ [⟨⟨some node, state⟩, label, target⟩]) ≤ 1 ∧
      (ran n (tr ++ [⟨⟨some node, state⟩, label, target⟩]) = 1 → n.phase < node'.phase) := by
  obtain ⟨few, earlier⟩ := due.once n straight
  obtain ⟨onward, further⟩ := phase_edges _ (mem_edges edge)
  rw [ran_next]
  by_cases same : node = n
  · subst same
    have onward := further straight
    have first : ran node tr = 0 := by
      by_contra before
      have again := earlier (by omega)
      omega
    rw [first, if_pos rfl]
    exact ⟨Nat.le_refl 1, fun _ => onward⟩
  · rw [if_neg same]
    refine ⟨few, fun once => ?_⟩
    exact Nat.lt_of_lt_of_le (earlier once) onward

theorem fetch_edges : ∀ p ∈ edges, p.2 = .fetch → p.1 = .search := by decide

/-- The documents are there from `fetch` on, and analysed before `synthesize`. -/
theorem documents_edges : ∀ p ∈ edges,
    (4 ≤ p.2.phase ↔ p.1 = .fetch ∨ 4 ≤ p.1.phase) ∧
      (p.1 ≠ .fetch → (p.2.phase ≤ 4 ↔ p.1.phase ≤ 4 ∧ p.1 ≠ .analyzeOne)) := by
  decide

theorem Due.documents_next (due : Due deps tr node state) (came : Came deps node state state')
    (edge : next deps review node state' = some node') (fetched : 4 ≤ node'.phase) :
    state'.documents.length ≤ deps.settings.maxSources := by
  have documents := came.documents
  split at documents
  · rename_i isFetch
    exact Nat.le_trans documents (due.hits isFetch)
  · rename_i notFetch
    rw [documents]
    exact due.documents (((documents_edges _ (mem_edges edge)).1.mp fetched).resolve_left notFetch)

theorem Due.analyses_next (due : Due deps tr node state) (came : Came deps node state state')
    (edge : next deps review node state' = some node') {target : Config} :
    analyzed (tr ++ [⟨⟨some node, state⟩, label, target⟩]) =
      if node'.phase ≤ 4 then [] else state'.documents := by
  have documents := came.documents
  rw [analyzed_snoc, due.analyses]
  by_cases isFetch : node = .fetch
  · subst isFetch
    obtain rfl := Option.some.inj edge
    by_cases empty : state'.documents = [] <;> simp [Node.phase, fanOutAnalyze, empty]
  · rw [if_neg isFetch] at documents
    have early := (documents_edges _ (mem_edges edge)).2 isFetch
    by_cases branches : node = .analyzeOne
    · subst branches
      obtain rfl := Option.some.inj edge
      simp [Node.phase, documents]
    · simp only [Option.some.injEq, branches, if_false, List.append_nil, documents, early,
        ne_eq, not_false_eq_true, and_true]

/-- **The step lemma**: how the state stands to what has run, one superstep later. -/
theorem Due.step (due : Due deps tr node state) (came : Came deps node state state')
    (edge : next deps review node state' = some node') (label : Except Exn (List Update)) :
    Due deps (tr ++ [⟨⟨some node, state⟩, label, ⟨some node', state'⟩⟩]) node' state' := by
  constructor
  · exact due.once_next edge
  · intro _
    apply came.plan
    cases node with
    | plan => exact Or.inr rfl
    | _ => exact Or.inl (due.planned (by decide))
  · exact due.searches.step came edge
  · intro isFetch
    exact came.searchHits (fetch_edges _ (mem_edges edge) isFetch)
  · exact due.documents_next came edge
  · exact due.analyses_next came edge
  · exact due.critiques.step came edge
  · have deeper := depth_edges _ (mem_edges edge)
    have before := due.length
    dsimp only at deeper
    rw [List.length_append, List.length_singleton, ran_next, ran_next]
    omega

end

/-! ## Whole executions -/

section

variable {deps : Deps} {review : Bool} {topic : String} {ownerId runId : UUID} {tr : List Ran}
  {s : Config}

/-- What holds of everything that has run, due to what was due last. -/
structure Bounded (deps : Deps) (tr : List Ran) (s : Config) : Prop where
  length : tr.length ≤
    11 + 2 * deps.settings.searchRetries + 2 * deps.settings.critiqueRetries
  search : ran .search tr ≤ deps.settings.searchRetries + 1
  broadenQueries : ran .broadenQueries tr ≤ deps.settings.searchRetries
  struct : ran .struct tr ≤ deps.settings.critiqueRetries + 1
  critique : ran .critique tr ≤ ran .struct tr ∧ ran .struct tr ≤ ran .critique tr + 1
  analyzed : analyzed tr = [] ∨ analyzed tr = s.state.documents
  maxSources : (Agent.analyzed tr).length ≤ deps.settings.maxSources
  once : ∀ n : Node, n.cycles = false → ran n tr ≤ 1

theorem Due.bounded {node : Node} {state : AgentState} (due : Due deps tr node state) :
    Bounded deps tr ⟨some node, state⟩ := by
  have searches := due.searches
  have critiques := due.critiques
  have length := due.length
  have analyses := due.analyses
  constructor
  · cases node <;>
      simp only [SearchCounts, CritiqueCounts, Node.depth] at searches critiques length <;> omega
  · cases node <;> simp only [SearchCounts] at searches <;> omega
  · cases node <;> simp only [SearchCounts] at searches <;> omega
  · cases node <;> simp only [CritiqueCounts] at critiques <;> omega
  · cases node <;> simp only [CritiqueCounts] at critiques <;> omega
  · split at analyses
    · exact Or.inl analyses
    · exact Or.inr analyses
  · rw [analyses]
    split
    · exact Nat.zero_le _
    · exact due.documents (by omega)
  · exact fun n straight => (due.once n straight).1

/-- The last superstep of an execution keeps the bounds, however it ends. -/
theorem Due.ended {node : Node} {state state' : AgentState} {label : Except Exn (List Update)}
    (due : Due deps tr node state) (same : state'.documents = state.documents) :
    Bounded deps (tr ++ [⟨⟨some node, state⟩, label, ⟨none, state'⟩⟩]) ⟨none, state'⟩ := by
  have searches := due.searches
  have critiques := due.critiques
  have length := due.length
  have analysesAfter : analyzed (tr ++ [⟨⟨some node, state⟩, label, ⟨none, state'⟩⟩]) = [] ∨
      analyzed (tr ++ [⟨⟨some node, state⟩, label, ⟨none, state'⟩⟩]) = state'.documents ∧
        state.documents.length ≤ deps.settings.maxSources := by
    rw [analyzed_snoc, due.analyses, same]
    by_cases branches : node = .analyzeOne
    · subst branches
      exact Or.inr ⟨by simp [Node.phase], due.documents (by decide)⟩
    · simp only [Option.some.injEq, branches, if_false, List.append_nil]
      split
      · exact Or.inl rfl
      · exact Or.inr ⟨rfl, due.documents (by omega)⟩
  constructor
  · rw [List.length_append, List.length_singleton]
    cases node <;>
      simp only [SearchCounts, CritiqueCounts, Node.depth] at searches critiques length <;> omega
  · rw [ran_next]
    cases node <;> simp [SearchCounts] at searches ⊢ <;> omega
  · rw [ran_next]
    cases node <;> simp [SearchCounts] at searches ⊢ <;> omega
  · rw [ran_next]
    cases node <;> simp [CritiqueCounts] at critiques ⊢ <;> omega
  · rw [ran_next, ran_next]
    cases node <;> simp [CritiqueCounts] at critiques ⊢ <;> omega
  · exact analysesAfter.imp_right And.left
  · rcases analysesAfter with none | ⟨all, few⟩
    · rw [none]
      exact Nat.zero_le _
    · rw [all, same]
      exact few
  · intro n straight
    obtain ⟨few, earlier⟩ := due.once n straight
    rw [ran_next]
    by_cases here : node = n
    · subst here
      have first : ran node tr = 0 := by
        by_contra before
        exact absurd (earlier (by omega)) (Nat.lt_irrefl _)
      rw [first, if_pos rfl]
    · rw [if_neg here]
      exact few

/-- What is reached: the bounds, and the node that is due or how it all ended. -/
structure Reached (deps : Deps) (tr : List Ran) (s : Config) : Prop where
  bounded : Bounded deps tr s
  due : ∀ node, s.node = some node → Due deps tr node s.state
  finished : s.node = none → (∀ x ∈ tr, ∃ updates, x.label = .ok updates) →
    ran .struct tr = ran .critique tr ∧ analyzed tr = s.state.documents

/-- An execution leaves the graph from its last node. -/
theorem last_node {node : Node} {state : AgentState} (ends : next deps review node state = none) :
    node = .lookup ∨ node = .enrich := by
  cases node <;> simp [next] at ends ⊢

/-- **The run lemma.** -/
theorem reached (run : History (Superstep deps review) (Config.start topic ownerId runId) tr s) :
    Reached deps tr s := by
  induction run with
  | start =>
      have due := Due.start deps topic ownerId runId
      refine ⟨due.bounded, fun node here => ?_, nofun⟩
      obtain rfl := Option.some.inj here
      exact due
  | next _ step ih =>
      cases step with
      | @returned node state updates ends =>
          have due := ih.due node rfl
          have change := came (fun search => due.planned (by rw [search]; decide)) ends
          cases edge : next deps review node (updates.foldl AgentState.merge state) with
          | some node' =>
              have due' := due.step change edge (.ok updates)
              refine ⟨due'.bounded, fun n here => ?_, nofun⟩
              obtain rfl := Option.some.inj here
              exact due'
          | none =>
              have last := last_node edge
              have kept : (updates.foldl AgentState.merge state).documents = state.documents := by
                have documents := change.documents
                rcases last with rfl | rfl <;> exact documents
              refine ⟨due.ended kept, nofun, fun _ _ => ?_⟩
              have critiques := due.critiques
              have analyses := due.analyses
              rw [ran_next, ran_next, analyzed_snoc, analyses, kept]
              rcases last with rfl | rfl <;>
                simpa [CritiqueCounts, Node.phase] using critiques.1
      | @raised node state exc ends =>
          refine ⟨(ih.due node rfl).ended rfl, nofun, fun _ all => ?_⟩
          obtain ⟨updates, returned⟩ := all _ (List.mem_append_right _ (List.mem_singleton_self _))
          cases returned

/-! ## An execution can go on until it is over -/

theorem branches_end (topic : String) (docs : List FetchedDoc) :
    (∃ updates, List.Forall₂ (fun doc update =>
      (analyzeOneNode topic doc).Ends (.ok update)) docs updates) ∨
      ∃ doc ∈ docs, ∃ exc, (analyzeOneNode topic doc).Ends (.error exc) := by
  induction docs with
  | nil => exact Or.inl ⟨[], .nil⟩
  | cons doc docs ih =>
      obtain ⟨r, ends⟩ := Prog.exists_ends .timeout (analyzeOneNode topic doc)
      cases r with
      | error exc => exact Or.inr ⟨doc, List.mem_cons_self, exc, ends⟩
      | ok update =>
          rcases ih with ⟨updates, all⟩ | ⟨other, mem, exc, raises⟩
          · exact Or.inl ⟨update :: updates, .cons ends all⟩
          · exact Or.inr ⟨other, List.mem_cons_of_mem doc mem, exc, raises⟩

theorem superstep_exists {node : Node} {state : AgentState} :
    ∃ label s', Superstep deps review ⟨some node, state⟩ label s' := by
  by_cases branches : node = .analyzeOne
  · subst branches
    rcases branches_end state.topic state.documents with
      ⟨updates, all⟩ | ⟨doc, mem, exc, raises⟩
    · exact ⟨.ok updates, _, .returned (by simpa [StepEnds] using all)⟩
    · exact ⟨.error exc, _, .raised (by simpa [StepEnds] using ⟨doc, mem, raises⟩)⟩
  · obtain ⟨r, ends⟩ := Prog.exists_ends .timeout (runNode deps node state)
    cases r with
    | ok update =>
        exact ⟨.ok [update], _, .returned (by simpa [StepEnds, branches] using ends)⟩
    | error exc => exact ⟨.error exc, _, .raised (by simpa [StepEnds, branches] using ends)⟩

/-! ## When the cycles go round -/

/-- A configured search has just found nothing, with a broadening left. -/
def Broadens (deps : Deps) (before : List Ran) (x : Ran) : Prop :=
  x.source.node = some .search ∧ deps.searchTool = true ∧
    (∃ update, x.label = .ok [update] ∧ update.searchHits = some []) ∧
    ran .broadenQueries before < deps.settings.searchRetries

/-- `critique` has just answered `revise` on a draft that is not empty, with a bounce left. -/
def SentBack (deps : Deps) (before : List Ran) (x : Ran) : Prop :=
  x.source.node = some .critique ∧
    (∃ update, x.label = .ok [update] ∧ Revised x.source.state update) ∧
    bounces before < deps.settings.critiqueRetries

theorem broadens_iff {state : AgentState} {updates : List Update}
    (due : Due deps tr .search state) (ends : StepEnds deps .search state (.ok updates)) :
    next deps review .search (updates.foldl AgentState.merge state) = some .broadenQueries ↔
      deps.searchTool = true ∧ (∃ update, updates = [update] ∧ update.searchHits = some []) ∧
        ran .broadenQueries tr < deps.settings.searchRetries := by
  obtain ⟨-, -, counted⟩ := due.searches
  have attempts := (came (fun _ => due.planned (by decide)) ends).searchAttempts
  rw [if_pos rfl, counted] at attempts
  simp only [StepEnds, reduceCtorEq, if_false] at ends
  obtain ⟨update, rfl, ends⟩ := ends
  obtain ⟨hits, found, -⟩ := (searchNode_returns.of_ends ends).hits
  simp only [List.foldl_cons, List.foldl_nil, merge_searchAttempts] at attempts
  simp only [next, Option.some.injEq, routeAfterSearch, List.foldl_cons, List.foldl_nil,
    merge_searchHits, merge_searchAttempts, attempts, found, Option.getD_some]
  cases tool : deps.searchTool <;> simp [found]

theorem bounces_iff {state : AgentState} {updates : List Update}
    (due : Due deps tr .critique state) (ends : StepEnds deps .critique state (.ok updates)) :
    next deps review .critique (updates.foldl AgentState.merge state) = some .struct ↔
      (∃ update, updates = [update] ∧ Revised state update) ∧
        bounces tr < deps.settings.critiqueRetries := by
  obtain ⟨-, -, bounced, counted⟩ := due.critiques
  have attempts := (came (fun _ => due.planned (by decide)) ends).critiqueAttempts
  rw [if_pos rfl, counted, ← bounced] at attempts
  simp only [StepEnds, reduceCtorEq, if_false] at ends
  obtain ⟨update, rfl, ends⟩ := ends
  obtain ⟨-, verdict, -⟩ := critiqueNode_returns ends
  have revised : (state.merge update).critique = none ↔ ¬Revised state update := by
    rcases verdict with accepted | revised
    · have notRevised : ¬Revised state update := by
        rintro ⟨_, _, _, _, notes⟩
        rw [accepted] at notes
        cases notes
      simp [accepted, notRevised]
    · obtain ⟨_, _, _, _, notes⟩ := id revised
      simp [notes, revised]
  change (state.merge update).critiqueAttempts = bounces tr + 1 at attempts
  change some (routeAfterCritique deps (state.merge update)) = some .struct ↔ _
  rw [Option.some.injEq]
  unfold routeAfterCritique
  split
  · rename_i onward
    constructor
    · intro same
      cases same
    · rintro ⟨⟨_, same, sent⟩, room⟩
      obtain rfl := List.singleton_inj.mp same
      rcases onward with accepted | many
      · exact absurd sent (revised.mp accepted)
      · omega
  · rename_i again
    obtain ⟨sent, few⟩ := not_or.mp again
    have back : Revised state update := by
      by_contra other
      exact sent (revised.mpr other)
    have room : bounces tr < deps.settings.critiqueRetries := by omega
    exact ⟨fun _ => ⟨⟨update, rfl, back⟩, room⟩, fun _ => rfl⟩

theorem broadenQueries_edges : ∀ p ∈ edges, p.2 = .broadenQueries → p.1 = .search := by decide

theorem struct_edges : ∀ p ∈ edges, p.2 = .struct → p.1 = .synthesize ∨ p.1 = .critique := by
  decide

theorem Reached.broadens {x : Ran} (reached : Reached deps tr x.source)
    (step : Superstep deps review x.source x.label x.target) :
    x.target.node = some .broadenQueries ↔ Broadens deps tr x := by
  obtain ⟨source, label, target⟩ := x
  cases step with
  | raised => simp [Broadens]
  | @returned node state updates ends =>
      by_cases search : node = .search
      · subst search
        simpa [Broadens] using broadens_iff (reached.due _ rfl) ends
      · constructor
        · intro edge
          exact absurd (broadenQueries_edges _ (mem_edges edge) rfl) search
        · intro ⟨here, _⟩
          exact absurd (Option.some.inj here) search

theorem Reached.sentBack {x : Ran} (reached : Reached deps tr x.source)
    (step : Superstep deps review x.source x.label x.target) :
    x.target.node = some .struct ↔
      (x.source.node = some .synthesize ∧ ∃ updates, x.label = .ok updates) ∨
        SentBack deps tr x := by
  obtain ⟨source, label, target⟩ := x
  cases step with
  | raised => simp [SentBack]
  | @returned node state updates ends =>
      by_cases critique : node = .critique
      · subst critique
        simpa [SentBack] using bounces_iff (reached.due _ rfl) ends
      · constructor
        · intro edge
          have from_ := (struct_edges _ (mem_edges edge) rfl).resolve_right critique
          exact Or.inl ⟨congrArg some from_, updates, rfl⟩
        · rintro (⟨here, _⟩ | ⟨here, _⟩)
          · obtain rfl := Option.some.inj here
            rfl
          · exact absurd (Option.some.inj here) critique

/-- **The research graph ends, with exact retry bounds.**  Whatever the model and the tools
do, an execution has `11 + 2 * R + 2 * C` supersteps at most, and it can go on until no node
is due.  `Bounded` counts the runs of the nodes; a search is broadened and a draft is sent
back just when `Broadens` and `SentBack` say so.  LangGraph's own limit, `Settings.recursionLimit`
in `drive`, is not part of a `Superstep`. -/
theorem retries_bounded
    (run : History (Superstep deps review) (Config.start topic ownerId runId) tr s) :
    Bounded deps tr s ∧
      (s.node ≠ none → ∃ label s', Superstep deps review s label s') ∧
      (s.node = none → (∀ x ∈ tr, ∃ updates, x.label = .ok updates) →
        ran .struct tr = ran .critique tr ∧ analyzed tr = s.state.documents) ∧
      ∀ before x after, tr = before ++ x :: after →
        (x.target.node = some .broadenQueries ↔ Broadens deps before x) ∧
        (x.target.node = some .struct ↔
          (x.source.node = some .synthesize ∧ ∃ updates, x.label = .ok updates) ∨
            SentBack deps before x) := by
  have here := reached run
  refine ⟨here.bounded, ?_, here.finished, ?_⟩
  · intro due
    obtain ⟨node, state⟩ := s
    cases node with
    | none => exact absurd rfl due
    | some node => exact superstep_exists
  · intro before x after split
    obtain ⟨earlier, step⟩ := run.upTo split
    have there := reached earlier
    exact ⟨there.broadens step, there.sentBack step⟩

end

/-- A superstep of a node that runs once. -/
theorem Superstep.one {deps : Deps} {review : Bool} {node : Node} {state : AgentState}
    {update : Update} (single : node ≠ .analyzeOne)
    (ends : (runNode deps node state).Ends (.ok update)) :
    Superstep deps review ⟨some node, state⟩ (.ok [update])
      ⟨next deps review node (state.merge update), state.merge update⟩ := by
  have step : StepEnds deps node state (.ok [update]) := by
    simp only [StepEnds, single, if_false]
    exact ⟨update, rfl, ends⟩
  exact .returned step

/-- One retry of each kind, and a search that never finds anything. -/
def searchingDeps : Deps :=
  { settings := { recursionLimit := 25 }, searchTool := true, wikipediaTools := []
    py := { lower := id, loads := fun _ => none, strOf := fun _ => "" } }

/-- The search is broadened once; `critique` rejects both drafts, without a note. -/
theorem retries_bounded_bothCycles : ∃ tr s,
    History (Superstep searchingDeps true) (Config.start "notes" 1 7) tr s ∧ s.node = none ∧
      ran .broadenQueries tr = 1 ∧ ran .critique tr = 2 ∧ bounces tr = 1 ∧
      Bounded searchingDeps tr s := by
  let plan : Plan := ⟨"", ["notes"], by decide⟩
  let drafts : StructuredResult :=
    { entities := [{ tempId := "t1", name := ⟨"notes", by decide⟩, kind := ⟨"note", by decide⟩ }] }
  have fresh : History (Superstep searchingDeps true) (Config.start "notes" 1 7) [] _ := .start
  have planned := fresh.next (.one (by decide) ⟨.ok plan, rfl⟩)
  have surveyed := planned.next (.one (by decide) ⟨.error .timeout, .ok ⟨[], []⟩, rfl⟩)
  have searched := surveyed.next (.one (by decide) ⟨.error .timeout, rfl⟩)
  have broadened := searched.next (.one (by decide) ⟨.ok plan, rfl⟩)
  have searchedAgain := broadened.next (.one (by decide) ⟨.error .timeout, rfl⟩)
  have fetched := searchedAgain.next (.one (by decide) rfl)
  have synthesized := fetched.next (.one (by decide) rfl)
  have drafted := synthesized.next (.one (by decide) ⟨.ok drafts, rfl⟩)
  have rejected := drafted.next (.one (by decide) ⟨.ok ⟨.revise, ""⟩, rfl⟩)
  have redrafted := rejected.next (.one (by decide) ⟨.ok drafts, rfl⟩)
  have rejectedAgain := redrafted.next (.one (by decide) ⟨.ok ⟨.revise, ""⟩, rfl⟩)
  have finished := rejectedAgain.next (.one (by decide) rfl)
  exact ⟨_, _, finished, rfl, rfl, rfl, rfl, (retries_bounded finished).1⟩

end Intellivault.Agent
