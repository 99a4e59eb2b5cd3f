import Mathlib.Data.List.Sort
import Mathlib.Data.String.Basic
import Intellivault.Lib.Prog
import Intellivault.Lib.Ensure
import Intellivault.Agent.Text

/-!
# The graph migrations

`app/graph/migrations.py`: the loader, the step that runs a migration's statements with its
bookkeeping, and the two runners.  The database is behind the calls of a session; what a
statement does to it is a parameter.
-/

namespace Intellivault.Migrations

open Lib
open Agent (dropBoth isSpace)

/-! ## Statements -/

/-- Where `str.splitlines` breaks. -/
def isLineBreak (c : Char) : Bool :=
  c.toNat ∈ [0x0A, 0x0B, 0x0C, 0x0D, 0x1C, 0x1D, 0x1E, 0x85, 0x2028, 0x2029]

/-- `text.splitlines()`, with the line read so far. -/
def splitLines : (line : List Char) → List Char → List (List Char)
  | line, [] => if line = [] then [] else [line]
  | line, '\r' :: '\n' :: cs => line :: splitLines [] cs
  | line, c :: cs => if isLineBreak c then line :: splitLines [] cs else splitLines (line ++ [c]) cs

/-- `line.strip().startswith("//")` -/
def isComment (line : List Char) : Bool := ['/', '/'].isPrefixOf (dropBoth isSpace line)

/-- `_split_statements` -/
def splitStatements (text : String) : List String :=
  let body := ['\n'].intercalate ((splitLines [] text.toList).filter fun line => ¬isComment line)
  ((((body.splitOn ';').map (dropBoth isSpace)).filter (· ≠ [])).map String.ofList)

/-! ## `_SCHEMA_STATEMENT` -/

/-- A letter of the pattern, ignoring case as `re` does. -/
def isLetter (letter c : Char) : Bool :=
  c.toLower = letter ∨ letter = 'i' ∧ (c.toNat = 0x130 ∨ c.toNat = 0x131) ∨
    letter = 's' ∧ c.toNat = 0x17F ∨ letter = 'k' ∧ c.toNat = 0x212A

/-- What follows the word; `none` if the text does not begin with it. -/
def afterWord : List Char → List Char → Option (List Char)
  | [], cs => some cs
  | _ :: _, [] => none
  | letter :: word, c :: cs => if isLetter letter c then afterWord word cs else none

/-- `\s+` -/
def afterSpaces : List Char → Option (List Char)
  | [] => none
  | c :: cs => if isSpace c then some (cs.dropWhile isSpace) else none

/-- `(CONSTRAINT|INDEX)\b`, where `isWord` says what `\w` matches. -/
def isSchemaObject (isWord : Char → Bool) (cs : List Char) : Bool :=
  match afterWord "constraint".toList cs <|> afterWord "index".toList cs with
  | some (c :: _) => ¬isWord c
  | some [] => true
  | none => false

def indexTypes : List String := ["vector", "fulltext", "text", "point", "range", "lookup"]

/-- `_SCHEMA_STATEMENT.match(statement)` -/
def isSchemaStatement (isWord : Char → Bool) (statement : String) : Bool :=
  let cs := statement.toList.dropWhile isSpace
  match (afterWord "create".toList cs <|> afterWord "drop".toList cs).bind afterSpaces with
  | none => false
  | some cs =>
      indexTypes.any (fun type => match (afterWord type.toList cs).bind afterSpaces with
        | some cs => isSchemaObject isWord cs
        | none => false) || isSchemaObject isWord cs

/-- `_is_schema_only` -/
def isSchemaOnly (isWord : Char → Bool) (statements : List String) : Bool :=
  ¬statements.isEmpty ∧ statements.all (isSchemaStatement isWord)

/-! ## The loader -/

structure File where
  name : String
  text : String
deriving DecidableEq

/-- A directory of files `NNNN.description.cypher`: names are distinct, and what is before
`.cypher` is not empty. -/
structure Directory where
  files : List File
  distinct : (files.map File.name).Nodup
  described : ∀ f ∈ files, f.name ≠ ".cypher"

def hasSuffix (suffix name : String) : Bool := suffix.toList.isSuffixOf name.toList

/-- `path.stem`, of a path that ends in `.cypher`. -/
def stem (name : String) : String :=
  if name.toList.length ≤ 7 then name else String.ofList (name.toList.take (name.toList.length - 7))

/-- `GraphMigration` -/
structure GraphMigration where
  id : String
  statements : List String
  rollback : List String

namespace Directory

variable (dir : Directory)

/-- `rollback_path.read_text()`, if the file is there. -/
def rollbackText (id : String) : Option String :=
  (dir.files.find? fun f => f.name = id ++ ".rollback.cypher").map File.text

/-- The files of forward migrations, in name order. -/
def forward : List File :=
  (dir.files.filter fun f =>
    hasSuffix ".cypher" f.name ∧ ¬hasSuffix ".rollback.cypher" f.name).insertionSort
    fun f g => f.name ≤ g.name

/-- The migration of a file. -/
def migration (f : File) : GraphMigration where
  id := stem f.name
  statements := splitStatements f.text
  rollback := match dir.rollbackText (stem f.name) with
    | some text => splitStatements text
    | none => []

/-- `load_graph_migrations` -/
def loadGraphMigrations : List GraphMigration := dir.forward.map dir.migration

end Directory

theorem name_eq {name : String} (suffix : hasSuffix ".cypher" name) (described : name ≠ ".cypher") :
    name = stem name ++ ".cypher" := by
  obtain ⟨before, split⟩ := List.isSuffixOf_iff_suffix.mp suffix
  have seven : ".cypher".toList.length = 7 := rfl
  have nonempty : before ≠ [] := by
    rintro rfl
    exact described (String.toList_inj.mp split.symm)
  have length : name.toList.length = before.length + 7 := by
    rw [← split, List.length_append, seven]
  have long := List.length_pos_iff.mpr nonempty
  rw [stem, if_neg (by omega), length, Nat.add_sub_cancel]
  refine String.toList_inj.mp ?_
  rw [String.toList_append, String.toList_ofList, ← split, List.take_left]

namespace Directory

variable (dir : Directory)

theorem mem_forward {f : File} (mem : f ∈ dir.forward) :
    f ∈ dir.files ∧ f.name = stem f.name ++ ".cypher" := by
  obtain ⟨inside, kept⟩ := List.mem_filter.mp ((List.mem_insertionSort _).mp mem)
  exact ⟨inside, name_eq (of_decide_eq_true kept).1 (dir.described f inside)⟩

theorem load_names :
    dir.loadGraphMigrations.map (fun m => m.id ++ ".cypher") = dir.forward.map File.name := by
  rw [loadGraphMigrations, List.map_map]
  exact List.map_congr_left fun f mem => (dir.mem_forward mem).2.symm

/-- No two migrations share an id. -/
theorem load_nodup : (dir.loadGraphMigrations.map GraphMigration.id).Nodup := by
  have names : (dir.forward.map File.name).Nodup := by
    refine (((List.perm_insertionSort _ _).map File.name).nodup_iff).mpr ?_
    exact dir.distinct.sublist (List.filter_sublist.map _)
  rw [← load_names] at names
  refine List.Nodup.of_map (fun id => id ++ ".cypher") ?_
  rwa [List.map_map]

/-- They are in the order of their files' names. -/
theorem load_sorted :
    dir.loadGraphMigrations.Pairwise fun m n => m.id ++ ".cypher" ≤ n.id ++ ".cypher" := by
  have total : Std.Total fun f g : File => f.name ≤ g.name := ⟨fun f g => le_total f.name g.name⟩
  have trans : IsTrans File fun f g => f.name ≤ g.name := ⟨fun f g h => le_trans⟩
  have names : (dir.forward.map File.name).Pairwise (· ≤ ·) :=
    List.pairwise_map.mpr (List.pairwise_insertionSort _ _)
  rw [← load_names] at names
  exact List.pairwise_map.mp names

end Directory

/-! ## The runners -/

/-- The two bookkeeping statements. -/
inductive Bookkeeping where
  /-- `_RECORD` -/
  | record
  /-- `_UNRECORD` -/
  | unrecord
deriving DecidableEq

/-- The calls of a session.  `run` and `executeWrite` show the migration they are made for. -/
inductive Call where
  /-- `_applied_ids(session)` -/
  | appliedIds
  /-- `session.run(Query(statement))` -/
  | run (b : Bookkeeping) (id statement : String)
  /-- `session.run(Query(bookkeeping), id=id)` -/
  | bookkeep (b : Bookkeeping) (id : String)
  /-- `session.execute_write(_run_steps_then_bookkeeping, statements, bookkeeping, id)` -/
  | executeWrite (b : Bookkeeping) (id : String) (statements : List String)

def Call.Answer : Call → Type
  | .appliedIds => List String
  | _ => Unit

/-- An exception, which no function here catches. -/
abbrev Exn := String

abbrev Coroutine (α : Type) : Type := Prog Call Call.Answer Exn α

def call (c : Call) : Coroutine c.Answer := Prog.perform c

/-- `for statement in statements: await session.run(Query(statement))`. -/
def runEach (b : Bookkeeping) (id : String) : List String → Coroutine Unit
  | [] => return ()
  | statement :: rest => do
      let _ ← call (.run b id statement)
      runEach b id rest

/-- `_apply_step` -/
def applyStep (isWord : Char → Bool) (statements : List String) (b : Bookkeeping) (id : String) :
    Coroutine Unit :=
  if isSchemaOnly isWord statements then do
    let _ ← runEach b id statements
    call (.bookkeep b id)
  else call (.executeWrite b id statements)

section Step

variable {isWord : Char → Bool} {statements : List String} {b : Bookkeeping} {id : String}

theorem applyStep_schema (mode : isSchemaOnly isWord statements = true) :
    applyStep isWord statements b id = runEach b id statements >>= fun _ => call (.bookkeep b id) :=
  if_pos mode

theorem applyStep_plain (mode : isSchemaOnly isWord statements = false) :
    applyStep isWord statements b id = call (.executeWrite b id statements) :=
  if_neg (Bool.not_eq_true _ ▸ mode)

end Step

/-- The loop of `apply_graph_migrations`, with the ids in `newly`. -/
def applyEach (isWord : Char → Bool) (done : List String) :
    List GraphMigration → List String → Coroutine (List String)
  | [], newly => return newly
  | m :: rest, newly =>
      if m.id ∈ done then applyEach isWord done rest newly
      else do
        let _ ← applyStep isWord m.statements .record m.id
        applyEach isWord done rest (newly ++ [m.id])

/-- `apply_graph_migrations` -/
def applyGraphMigrations (isWord : Char → Bool) (dir : Directory) : Coroutine (List String) := do
  let done : List String ← call .appliedIds
  applyEach isWord done dir.loadGraphMigrations []

/-- The loop of `rollback_graph_migrations`, with the ids in `undone`. -/
def rollbackEach (isWord : Char → Bool) (done : List String) :
    List GraphMigration → List String → Coroutine (List String)
  | [], undone => return undone
  | m :: rest, undone =>
      if m.id ∉ done then rollbackEach isWord done rest undone
      else do
        let _ ← applyStep isWord m.rollback .unrecord m.id
        rollbackEach isWord done rest (undone ++ [m.id])

/-- `rollback_graph_migrations` -/
def rollbackGraphMigrations (isWord : Char → Bool) (dir : Directory) : Coroutine (List String) := do
  let done : List String ← call .appliedIds
  rollbackEach isWord done dir.loadGraphMigrations.reverse []

/-! ## The database -/

/-- The schema's objects by their keys, and everything else but the records. -/
structure Db (K V Data : Type) where
  schema : K → Option V
  data : Data

/-- What has been committed, in one piece. -/
inductive Commit where
  | statement (b : Bookkeeping) (id statement : String)
  | bookkeeping (b : Bookkeeping) (id : String)
  /-- The statements and the bookkeeping of a transaction. -/
  | transaction (b : Bookkeeping) (id : String) (statements : List String)
deriving DecidableEq

/-- The database, the ids of its `:_GraphMigration` nodes, and all that was committed. -/
structure World (D : Type) where
  db : D
  records : List String
  commits : List Commit := []

variable {D : Type} (exec : String → D → D)

/-- The statements' effects, one after the other. -/
def execAll (statements : List String) (db : D) : D := statements.foldl (fun db s => exec s db) db

theorem execAll_append (first rest : List String) (db : D) :
    execAll exec (first ++ rest) db = execAll exec rest (execAll exec first db) :=
  List.foldl_append

def Bookkeeping.apply : Bookkeeping → String → List String → List String
  | .record, id, records => records ++ [id]
  | .unrecord, id, records => records.filter (· ≠ id)

/-- What a call does, if it takes effect: `session.run` commits its statement alone,
`execute_write` all that it ran at once. -/
def effect : Call → World D → World D
  | .appliedIds, w => w
  | .run b id statement, w =>
      { w with db := exec statement w.db, commits := w.commits ++ [.statement b id statement] }
  | .bookkeep b id, w =>
      { w with records := b.apply id w.records, commits := w.commits ++ [.bookkeeping b id] }
  | .executeWrite b id statements, w =>
      { db := execAll exec statements w.db, records := b.apply id w.records
        commits := w.commits ++ [.transaction b id statements] }

def answer : (c : Call) → World D → c.Answer
  | .appliedIds, w => w.records
  | .run _ _ _, _ | .bookkeep _ _, _ | .executeWrite _ _ _, _ => ()

/-- A call is answered after it took effect, or raises, with or without effect. -/
def Neo4j : Prog.Handler Call Call.Answer Exn (World D) :=
  fun c w r w' => (r = .ok (answer c w) ∧ w' = effect exec c w) ∨
    ∃ x, r = .error x ∧ (w' = w ∨ w' = effect exec c w)

variable {exec} {c : Call} {w w' : World D}

theorem Neo4j.of_ok {a : c.Answer} (answered : Neo4j exec c w (.ok a) w') :
    a = answer c w ∧ w' = effect exec c w := by
  rcases answered with ⟨same, took⟩ | ⟨x, wrong, -⟩
  · exact ⟨Except.ok.inj same, took⟩
  · cases wrong

/-- Nothing happened, or the call took effect. -/
theorem Neo4j.cases {r : Except Exn c.Answer} (answered : Neo4j exec c w r w') :
    w' = w ∨ w' = effect exec c w := by
  rcases answered with ⟨-, took⟩ | ⟨x, -, same⟩
  · exact .inr took
  · exact same

end Intellivault.Migrations
