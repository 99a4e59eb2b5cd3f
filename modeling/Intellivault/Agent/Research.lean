import Mathlib.Data.List.Sort
import Mathlib.Data.List.Dedup
import Intellivault.Agent.Service

/-!
# The research nodes

`app/agent/nodes/`, from `plan` to `lookup`: one definition for each function, each node a
coroutine from the state to its partial update.
-/

namespace Intellivault.Agent

open Lib

/-- What the nodes use of Python on free-form text. -/
structure Py where
  /-- `text.lower()` -/
  lower : String → String
  /-- `json.loads(text)`; `none` is its `ValueError`.  The `RecursionError` of a text that is nested
  too deep is left out. -/
  loads : String → Option Json
  /-- `str(value)`, for a value that is not a string. -/
  strOf : Json → String

/-- `Settings`, as far as the agent reads them. -/
structure Settings where
  /-- `agent_run_timeout`, as `:g` prints it. -/
  runTimeout : String := "2400"
  reviewRequired : Bool := true
  searchRetries : Nat := 1
  critiqueRetries : Nat := 1
  maxSources : Nat := 5
  lookupMaxEntities : Nat := 20
  lookupPaceSeconds : Rat := 3 / 10
  surveyMaxEntities : Nat := 150
  /-- LangGraph's bound on the steps of one run. -/
  recursionLimit : Nat

/-- `AgentDeps`: besides the clients, which are behind the calls, what a node looks at. -/
structure Deps where
  settings : Settings
  /-- Whether the web-search tool is there. -/
  searchTool : Bool
  /-- The names in `wikipedia_tools`. -/
  wikipediaTools : List String
  py : Py

def Py.str (py : Py) : Json → String
  | .str s => s
  | v => py.strOf v

/-- The digits among the characters, read as one number. -/
def digitsValue (cs : List Char) : Nat :=
  (cs.filter Char.isDigit).foldl (fun n c => 10 * n + (c.toNat - 48)) 0

/-- `bool(number)`, of the number that `json.loads` makes of its literal.  `NaN` and the infinities
are true; a float is false when it is rounded to zero, up to half of the least one, 2^-1074. -/
def truthyNumber (literal : String) : Bool :=
  let cs := literal.toList
  let mantissa := cs.takeWhile fun c => c ≠ 'e' ∧ c ≠ 'E'
  let exponent := cs.drop mantissa.length
  let digits := digitsValue mantissa
  let places := (mantissa.dropWhile (· ≠ '.')).drop 1
  let scale : Int := if '-' ∈ exponent then -digitsValue exponent else digitsValue exponent
  let power := scale - places.length
  cs.all (fun c => ¬c.isDigit) ∨
    digits ≠ 0 ∧ (0 ≤ power ∨ 10 ^ power.natAbs < digits * 2 ^ 1075)

/-- `bool(value)` -/
def truthy : Json → Bool
  | .null => false
  | .bool b => b
  | .num n => truthyNumber n
  | .str s => s ≠ ""
  | .arr xs => ¬xs.isEmpty
  | .obj fs => ¬fs.isEmpty

/-- `d.get(k1) or d.get(k2) or ..`; `none` if no value is truthy. -/
def getFirst (fields : List (String × Json)) (keys : List String) : Option Json :=
  (keys.filterMap fun k => fields.lookup k).find? truthy

/-! ## `nodes/_common.py` -/

def isTextBlock : Json → Bool
  | .obj fs => fs.lookup "type" = some (.str "text")
  | _ => false

/-- `_is_text_blocks`. -/
def isTextBlocks : Json → Bool
  | .arr xs => ¬xs.isEmpty ∧ xs.all isTextBlock
  | _ => false

/-- The texts of content blocks, joined. -/
def joinBlocks (py : Py) : Json → String
  | .arr xs => String.join (xs.map fun
      | .obj fs => py.str ((fs.lookup "text").getD (.str ""))
      | _ => "")
  | _ => ""

/-- Content blocks are replaced by their joined text. -/
def unwrapBlocks (py : Py) (raw : Json) : Json :=
  if isTextBlocks raw then .str (joinBlocks py raw) else raw

def coerceMcp (py : Py) (raw : Json) : Json :=
  match unwrapBlocks py raw with
  | .str s => (py.loads s).getD (.str s)
  | v => v

def isTokenChar (c : Char) : Bool := ('a' ≤ c ∧ c ≤ 'z') ∨ ('0' ≤ c ∧ c ≤ '9')

def tokens (py : Py) (text : String) : List String :=
  ((((py.lower text).toList.splitOnP fun c => ¬isTokenChar c).filter fun t => 2 < t.length).map
    String.ofList).dedup

def textOf : Content → String
  | .text s => s
  | .parts ps => " ".intercalate ps
  | .other s => s

def formatDocuments (docs : List FetchedDoc) : String :=
  if docs = [] then "(no sources were fetched)"
  else "\n\n".intercalate (docs.zipIdx.map fun (d, i) =>
    "SOURCE " ++ toString (i + 1) ++ " <" ++ d.url ++ ">\n" ++ d.text)

def formatDigest : Option GraphDigest → String
  | none => "(the existing graph is empty)"
  | some digest =>
      if digest.entities = [] then "(the existing graph is empty)"
      else "\n".intercalate (digest.entities.map fun e =>
        "- " ++ e.name ++ " [" ++ e.kind ++ "] id=" ++ uuidStr e.id)

/-! ## `plan` -/

def planNode (state : AgentState) : Coroutine Update := do
  let plan : Plan ← structured .plan [.system "plan_system", .human ("Topic: " ++ state.topic)]
  return { plan := some plan }

/-! ## `survey_graph` -/

/-- The topic and the queries, in one text. -/
def surveyQueryText (state : AgentState) : String :=
  " ".intercalate (state.topic :: (match state.plan with
    | some plan => plan.queries
    | none => []))

def rankEntities (py : Py) (entities : List Entity) (topicTokens : List String) (limit : Nat) :
    List Entity :=
  let overlap (e : Entity) : Nat :=
    ((tokens py (e.name ++ " " ++ e.kind)).filter (· ∈ topicTokens)).length
  (entities.insertionSort fun a b =>
    overlap b < overlap a ∨ overlap b = overlap a ∧ b.createdAt ≤ a.createdAt).take limit

def vectorSurvey (state : AgentState) (limit : Nat) : Coroutine (List Entity) :=
  tryExcept Exn.isException
    (do
      let vector ← aembedQuery (surveyQueryText state)
      GraphService.searchEntitiesByVector state.ownerId vector limit)
    fun _ => return []

def lexicalSurvey (deps : Deps) (state : AgentState) (limit : Nat) :
    Coroutine (List Entity × List Relationship × List String) := do
  let view ← GraphService.listGraph state.ownerId
  let kept := rankEntities deps.py view.entities (tokens deps.py (surveyQueryText state)) limit
  let notes :=
    if view.entities.length > kept.length then
      ["survey: showing " ++ toString kept.length ++ " of " ++ toString view.entities.length ++
        " visible entities"]
    else []
  return (kept, view.relationships, notes)

def survey (deps : Deps) (state : AgentState) (limit : Nat) :
    Coroutine (List Entity × List Relationship × List String) := do
  let hits ← vectorSurvey state limit
  if hits ≠ [] then
    let rels ← GraphService.listVisibleRelationshipsAmong state.ownerId (hits.map (·.id))
    let notes :=
      if hits.length ≥ limit then
        ["survey: " ++ toString limit ++ " nearest entities (there may be more)"]
      else []
    return (hits, rels, notes)
  else lexicalSurvey deps state limit

def surveyGraphNode (deps : Deps) (state : AgentState) : Coroutine Update := do
  let (kept, rels, notes) ← survey deps state deps.settings.surveyMaxEntities
  let keptIds := kept.map (·.id)
  let edges := rels.filter fun r => r.fromId ∈ keptIds ∧ r.toId ∈ keptIds
  return {
    existingGraph := some {
      entities := kept.map fun e => ⟨e.id, e.name, e.kind⟩
      relationships := edges.map fun r => ⟨r.fromId, r.toId, r.kind⟩ }
    skipped := some (state.skipped ++ notes) }

/-! ## `search`, `broaden_queries` and `fetch` -/

def asItems (py : Py) (raw : Json) : List Json :=
  let value := match unwrapBlocks py raw with
    | .str s => py.loads s
    | v => some v
  let items := match value with
    | some (.obj fs) => getFirst fs ["results", "items"]
    | v => v
  match items with
  | some (.arr xs) => xs
  | _ => []

def hitFromItem (py : Py) : Json → Option SearchHit
  | .obj fs =>
      (getFirst fs ["url", "link"]).map fun url =>
        { url := py.str url
          title := ((getFirst fs ["title"]).map py.str).getD ""
          snippet := ((getFirst fs ["content", "snippet"]).map py.str).getD "" }
  | _ => none

def parseSearchResult (py : Py) (raw : Json) : List SearchHit := (asItems py raw).filterMap (hitFromItem py)

/-- The local variables of `search_node`'s loops. -/
structure SearchLoop where
  seen : List String := []
  hits : List SearchHit := []
  skipped : List String

/-- The inner loop: the hits of one query. -/
def searchHits (limit : Nat) : List SearchHit → SearchLoop → Coroutine SearchLoop
  | [], loop => return loop
  | hit :: rest, loop =>
      if hit.url ∈ loop.seen ∨ limit ≤ loop.hits.length then searchHits limit rest loop
      else do
        let loop := { loop with seen := hit.url :: loop.seen }
        let loop ← tryExcept Exn.isSsrf
          (do
            let _ ← guardUrl hit.url
            return { loop with hits := loop.hits ++ [hit] })
          fun exc => return { loop with
            skipped := loop.skipped ++ ["search: " ++ hit.url ++ " (" ++ exc.str ++ ")"] }
        searchHits limit rest loop

/-- The outer loop: one tool call for each query. -/
def searchQueries (deps : Deps) : List String → SearchLoop → Coroutine SearchLoop
  | [], loop => return loop
  | query :: rest, loop => do
      let raw ← returnException (callTool "search"
        [("query", .str query), ("response_format", .str "json"), ("result_detail", .str "compact")])
      match raw with
      | .error exc =>
          searchQueries deps rest { loop with
            skipped := loop.skipped ++ ["search: " ++ pyRepr query ++ " (" ++ exc.str ++ ")"] }
      | .ok raw =>
          let loop ← searchHits deps.settings.maxSources (parseSearchResult deps.py raw) loop
          searchQueries deps rest loop

def searchNode (deps : Deps) (state : AgentState) : Coroutine Update :=
  match state.plan with
  | none => return { searchHits := some [], skipped := some state.skipped }
  | some plan =>
      if ¬deps.searchTool then
        return {
          searchHits := some []
          searchAttempts := some deps.settings.searchRetries
          skipped := some (state.skipped ++ ["search: web-search MCP unavailable — skipped"]) }
      else do
        let loop ← searchQueries deps plan.queries { skipped := state.skipped }
        return { searchHits := some loop.hits, skipped := some loop.skipped }

def broadenQueriesNode (state : AgentState) : Coroutine Update := do
  let tried := match state.plan with
    | some plan => plan.queries
    | none => []
  let attempt := state.searchAttempts + 1
  let round := "search: round " ++ toString attempt ++ " — "
  tryExcept Exn.isStructuredOutput
    (do
      let revised : Plan ← structured .plan [.system "broaden_system",
        .human ("Topic: " ++ state.topic ++ "\n\nQueries that failed:\n" ++ "\n".intercalate tried)]
      let plan := match state.plan with
        | none => revised
        | some plan => { plan with queries := revised.queries, bounds := revised.bounds }
      return {
        plan := some plan
        searchAttempts := some attempt
        skipped := some (state.skipped ++ [round ++ "broadened queries"]) })
    fun exc => return {
      searchAttempts := some attempt
      skipped := some (state.skipped ++ [round ++ "could not broaden (" ++ exc.str ++ ")"]) }

/-- The fetches of `fetch_node`, with the documents and the notes so far. -/
def fetchAll : List SearchHit → List FetchedDoc → List String →
    Coroutine (List FetchedDoc × List String)
  | [], docs, skipped => return (docs, skipped)
  | hit :: rest, docs, skipped => do
      match ← returnException (fetchText hit.url) with
      | .ok doc => fetchAll rest (docs ++ [doc]) skipped
      | .error exc =>
          fetchAll rest docs (skipped ++ ["fetch: " ++ hit.url ++ " (" ++ exc.str ++ ")"])

def fetchNode (state : AgentState) : Coroutine Update := do
  let (docs, skipped) ← fetchAll state.searchHits [] state.skipped
  return { documents := some docs, skipped := some skipped }

/-! ## `analyze_one` and `synthesize` -/

def analyzeOneNode (topic : String) (doc : FetchedDoc) : Coroutine Update :=
  tryExcept Exn.isException
    (do
      let content ← ainvoke [.system "analyze_system",
        .human ("Topic: " ++ topic ++ "\n\nSource <" ++ doc.url ++ ">:\n" ++ doc.text)]
      return { sourceNotes := some ["<" ++ doc.url ++ "> " ++ textOf content] })
    fun _ => return { sourceNotes := some [] }

def synthesizeNode (state : AgentState) : Coroutine Update :=
  if state.sourceNotes = [] then return { analysis := some "(no sources were analysed)" }
  else do
    let content ← ainvoke [.system "synthesize_system",
      .human ("Topic: " ++ state.topic ++ "\n\nExisting graph:\n" ++
        formatDigest state.existingGraph ++ "\n\nPer-source notes:\n" ++
        "\n\n".intercalate state.sourceNotes)]
    return { analysis := some (textOf content) }

/-! ## `structure` and `critique` -/

/-- The entry of `by_key` for a draft; a later entity of the digest wins. -/
def digestMatch (py : Py) (digest : GraphDigest) (d : DraftEntity) : Option UUID :=
  (digest.entities.reverse.find? fun e =>
    py.lower e.name = py.lower d.name.val ∧ py.lower e.kind = py.lower d.kind.val).map (·.id)

def dedupeAgainstExisting (py : Py) (result : StructuredResult) (digest : Option GraphDigest) :
    StructuredResult :=
  match digest with
  | none => result
  | some digest =>
      { result with
        entities := result.entities.map fun d =>
          match d.existingId with
          | none => { d with existingId := digestMatch py digest d }
          | some _ => d }

/-- The references `_prune_dangling_edges` knows. -/
def knownRefs (result : StructuredResult) : List String :=
  result.entities.map (·.tempId) ++ result.entities.filterMap fun e => e.existingId.map uuidStr

def pruneDanglingEdges (result : StructuredResult) : StructuredResult × Nat :=
  let ok (ref : String) : Bool := ref ∈ knownRefs result ∨ (parseUuid ref).isSome
  let kept := result.relationships.filter fun r => ok r.fromRef ∧ ok r.toRef
  ({ result with relationships := kept }, result.relationships.length - kept.length)

def structureNode (deps : Deps) (state : AgentState) : Coroutine Update := do
  let revision := match state.critique with
    | some critique =>
        if critique ≠ "" then "\n\nA previous attempt was rejected: " ++ critique else ""
    | none => ""
  let analysis := match state.analysis with
    | some analysis => if analysis ≠ "" then analysis else "(none)"
    | none => "(none)"
  tryExcept Exn.isStructuredOutput
    (do
      let result : StructuredResult ← structured .structuredResult [.system "structure_system",
        .human ("Topic: " ++ state.topic ++ "\n\nExisting graph:\n" ++
          formatDigest state.existingGraph ++ "\n\nAnalysis:\n" ++ analysis ++ revision)]
      let (result, dropped) :=
        pruneDanglingEdges (dedupeAgainstExisting deps.py result state.existingGraph)
      let skipped :=
        if dropped ≠ 0 then
          state.skipped ++ ["structure: dropped " ++ toString dropped ++
            " relationship(s) with no matching entity"]
        else state.skipped
      return { structured := some result, skipped := some skipped })
    fun exc => return {
      structured := some {}
      skipped := some (state.skipped ++ ["structure: " ++ exc.str]) }

def orNone (s : String) : String := if s = "" then "(none)" else s

def formatDrafts (result : StructuredResult) : String :=
  let entities := "\n".intercalate (result.entities.map fun e =>
    "- " ++ e.tempId ++ ": " ++ e.name.val ++ " [" ++ e.kind.val ++ "]")
  let edges := "\n".intercalate (result.relationships.map fun r =>
    "- " ++ r.fromRef ++ " -" ++ r.kind.val ++ "-> " ++ r.toRef)
  "Entities:\n" ++ orNone entities ++ "\n\nRelationships:\n" ++ orNone edges

def critiqueNode (state : AgentState) : Coroutine Update := do
  let result := state.structured.getD {}
  let attempts := state.critiqueAttempts + 1
  if result.entities = [] then
    return { critique := some none, critiqueAttempts := some attempts }
  else
    let verdict : Critique ← tryExcept Exn.isStructuredOutput
      (structured .critique [.system "critique_system",
        .human ("Topic: " ++ state.topic ++ "\n\nSources:\n" ++ formatDocuments state.documents ++
          "\n\nDraft:\n" ++ formatDrafts result)])
      fun _ => return { verdict := .ok }
    if verdict.verdict = .revise then
      return {
        critique := some (some verdict.notes)
        critiqueAttempts := some attempts
        skipped := some (state.skipped ++
          ["critique (round " ++ toString attempts ++ "): " ++ verdict.notes]) }
    else return { critique := some none, critiqueAttempts := some attempts }

/-! ## `lookup` -/

def wikiTools : List String := ["search_wikipedia", "get_summary", "get_related_topics"]

def firstTitle (py : Py) (raw : Json) (fallback : String) : String :=
  let items := match coerceMcp py raw with
    | .obj fs => (getFirst fs ["results", "pages"]).getD (.arr [])
    | v => v
  match items with
  | .arr xs =>
      let title (item : Json) : Option Json :=
        match item with
        | .obj fs => getFirst fs ["title"]
        | v => if truthy v then some v else none
      ((xs.filterMap title).head?.map py.str).getD fallback
  | _ => fallback

def summaryText (py : Py) (raw : Json) : String :=
  match coerceMcp py raw with
  | .obj fs => ((getFirst fs ["summary", "extract", "text"]).map py.str).getD ""
  | v => if truthy v then py.str v else ""

def relatedNames (py : Py) (raw : Json) : List String :=
  let values := match coerceMcp py raw with
    | .obj fs => (getFirst fs ["related", "topics", "links"]).getD (.arr [])
    | v => v
  match values with
  | .arr xs =>
      let name (item : Json) : Option Json :=
        match item with
        | .obj fs => getFirst fs ["title", "name"]
        | v => if truthy v then some v else none
      (xs.filterMap name).map py.str
  | _ => []

/-- `d[key] = value` on the fields of an object. -/
def setField (fields : List (String × Json)) (key : String) (value : Json) : List (String × Json) :=
  if fields.any fun f => f.1 = key then
    fields.map fun f => if f.1 = key then (key, value) else f
  else fields ++ [(key, value)]

/-- `by_name`: a later draft of the same name wins. -/
def tempIdByName (py : Py) (entities : List DraftEntity) (name : String) : Option String :=
  (entities.reverse.find? fun e => py.lower e.name.val = name).map (·.tempId)

def relatedKind : Kind := ⟨"related_to", by decide⟩

/-- The three tool calls of `_enrich_one`: the summary and the related names. -/
def lookupArticle (deps : Deps) (draft : DraftEntity) : Coroutine (String × List String) := do
  let found ← callTool "search_wikipedia" [("query", .str draft.name.val)]
  let title := firstTitle deps.py found draft.name.val
  let summary ← callTool "get_summary" [("title", .str title)]
  let related ← callTool "get_related_topics" [("title", .str title)]
  return (summaryText deps.py summary, relatedNames deps.py related)

/-- `_enrich_one`: the draft, its extra edges, and the notes after it. -/
def enrichOne (deps : Deps) (drafts : List DraftEntity) (draft : DraftEntity)
    (skipped : List String) :
    Coroutine (DraftEntity × List DraftRelationship × List String) :=
  tryExcept Exn.isException
    (do
      let (summary, related) ← lookupArticle deps draft
      let attributes :=
        if summary ≠ "" then
          setField draft.attributes "wikipedia_summary" (.str (String.ofList (summary.toList.take 600)))
        else draft.attributes
      let edges := related.filterMap fun name =>
        match tempIdByName deps.py drafts (deps.py.lower name) with
        | some ref =>
            if ref ≠ draft.tempId then some ⟨draft.tempId, ref, relatedKind⟩ else none
        | none => none
      return ({ draft with attributes }, edges, skipped))
    fun exc => return (draft, [], skipped ++ ["lookup " ++ draft.name.val ++ ": " ++ exc.str])

/-- The loop of `lookup_node` over the drafts it enriches. -/
def enrichAll (deps : Deps) (drafts : List DraftEntity) : (first : Bool) → List DraftEntity →
    List String → Coroutine (List DraftEntity × List DraftRelationship × List String)
  | _, [], skipped => return ([], [], skipped)
  | first, draft :: rest, skipped => do
      if ¬first ∧ 0 < deps.settings.lookupPaceSeconds then
        let _ ← call (.sleep deps.settings.lookupPaceSeconds)
      let (enriched, edges, skipped) ← enrichOne deps drafts draft skipped
      let (entities, extra, skipped) ← enrichAll deps drafts false rest skipped
      return (enriched :: entities, edges ++ extra, skipped)

def lookupNode (deps : Deps) (state : AgentState) : Coroutine Update :=
  let result := state.structured.getD {}
  if result.entities = [] then return {}
  else if wikiTools.any fun name => name ∉ deps.wikipediaTools then
    return { skipped := some (state.skipped ++ ["lookup: Wikipedia MCP unavailable — skipped"]) }
  else do
    let toEnrich := result.entities.take deps.settings.lookupMaxEntities
    let rest := result.entities.drop deps.settings.lookupMaxEntities
    let skipped :=
      if rest ≠ [] then
        state.skipped ++ ["lookup: enriched " ++ toString toEnrich.length ++ " of " ++
          toString result.entities.length ++ " entities (cap)"]
      else state.skipped
    let (entities, extra, skipped) ← enrichAll deps result.entities true toEnrich skipped
    let newEdges := extra.filter fun r => r ∉ result.relationships
    return {
      structured := some {
        entities := entities ++ rest, relationships := result.relationships ++ newEdges }
      skipped := some skipped }

end Intellivault.Agent
