import Intellivault.Lib.Prog
import Intellivault.Graph.Ops

/-!
# Calls of the backend

`src/lib/api.ts` of the frontend, and of `src/lib/graph.ts` what loads the sample graph.
-/

namespace Intellivault.Frontend

open Lib

/-! ## `api.ts` -/

/-- `ApiResult<T>` -/
structure ApiResult (T : Type) where
  ok : Bool
  status : Nat
  data : Option T := none
  error : Option String := none

/-- The result as one of `ApiResult<unknown>`. -/
def ApiResult.unknown {T : Type} (result : ApiResult T) : ApiResult Unit :=
  { ok := result.ok, status := result.status, data := result.data.map fun _ => ()
    error := result.error }

/-- What `fetch` does: it throws, or gives a status with a JSON body.  The body is the model
of the endpoint, or has a `detail`, which may be a string. -/
inductive Fetched (T : Type) where
  | thrown (message : String)
  | response (status : Nat) (json : Option (T ⊕ Option String))

structure RawResponse (T : Type) where
  status : Nat
  ok : Bool
  body : Option (T ⊕ Option String) := none
  error : Option String := none

/-- `Response.ok` -/
def responseOk (status : Nat) : Bool := 200 ≤ status ∧ status ≤ 299

def requestJson {T : Type} : Fetched T → RawResponse T
  | .thrown message => { status := 0, ok := false, error := some message }
  | .response status json =>
      if status = 204 then { status := 204, ok := responseOk status }
      else
        match json with
        | some body => { status := status, ok := responseOk status, body := some body }
        | none =>
            { status := status, ok := false, error := some s!"Backend responded {status}" }

/-- An empty message counts as none. -/
def RawResponse.failed {T : Type} (raw : RawResponse T) : Bool :=
  match raw.error with
  | some message => message ≠ ""
  | none => false

def toResult {T : Type} (raw : RawResponse T) : ApiResult T :=
  if raw.failed then { ok := false, status := raw.status, error := raw.error }
  else if raw.ok then { ok := true, status := raw.status, data := raw.body.bind Sum.getLeft? }
  else
    match raw.body with
    | some (.inr (some detail)) => { ok := false, status := raw.status, error := some detail }
    | _ =>
        { ok := false, status := raw.status, error := some s!"Request failed ({raw.status})" }

/-! ## `graph.ts` -/

/-- The calls that load the sample graph.  An id that is `undefined` is not sent. -/
inductive ApiCall where
  | createEntity (input : EntityInput)
  | createRelationship (fromId toId : Option UUID) (kind : Kind) (visibility : Visibility)

def ApiCall.Data : ApiCall → Type
  | .createEntity _ => Entity
  | .createRelationship _ _ _ _ => Relationship

/-- A program that calls the backend.  Nothing in it throws. -/
abbrev Client (T : Type) := Prog ApiCall (fun call => Fetched call.Data) Empty T

def apiFetch (call : ApiCall) : Client (ApiResult call.Data) := do
  let fetched ← Prog.perform call
  return toResult (requestJson fetched)

/-- An entry of `SAMPLE_LINKS`. -/
structure SampleLink where
  fromIndex : Nat
  toIndex : Nat
  kind : Kind
  visibility : Visibility

def sampleEntities : List EntityInput :=
  [{ name := ⟨"Acme Corp", by decide⟩, kind := ⟨"organization", by decide⟩, visibility := .pub },
   { name := ⟨"Project Atlas", by decide⟩, kind := ⟨"project", by decide⟩, visibility := .priv },
   { name := ⟨"Jane Doe", by decide⟩, kind := ⟨"person", by decide⟩, visibility := .priv },
   { name := ⟨"OpenAI", by decide⟩, kind := ⟨"organization", by decide⟩, visibility := .pub },
   { name := ⟨"GPT-4", by decide⟩, kind := ⟨"model", by decide⟩, visibility := .pub }]

def sampleLinks : List SampleLink :=
  [⟨0, 1, ⟨"sponsors", by decide⟩, .priv⟩, ⟨2, 1, ⟨"works_on", by decide⟩, .priv⟩,
   ⟨0, 2, ⟨"employs", by decide⟩, .priv⟩, ⟨3, 4, ⟨"develops", by decide⟩, .pub⟩,
   ⟨1, 4, ⟨"uses", by decide⟩, .priv⟩]

/-- The first loop of `seedSampleGraph`: the result it returns with, or the ids. -/
def seedEntities (ids : List UUID) : List EntityInput → Client (ApiResult Unit ⊕ List UUID)
  | [] => return .inr ids
  | entity :: rest => do
      let result ← apiFetch (.createEntity entity)
      match result.ok, result.data with
      | true, some (data : Entity) => seedEntities (ids ++ [data.id]) rest
      | _, _ => return .inl result.unknown

/-- The second loop. -/
def seedLinks (ids : List UUID) : List SampleLink → Client (ApiResult Unit)
  | [] => return { ok := true, status := 200 }
  | link :: rest => do
      let result ← apiFetch
        (.createRelationship ids[link.fromIndex]? ids[link.toIndex]? link.kind link.visibility)
      if result.ok then seedLinks ids rest else return result.unknown

def seedSampleGraph : Client (ApiResult Unit) := do
  match ← seedEntities [] sampleEntities with
  | .inl result => return result
  | .inr ids => seedLinks ids sampleLinks

end Intellivault.Frontend
