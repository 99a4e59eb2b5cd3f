import Intellivault.Lib.Guarded
import Intellivault.Graph.Migrations

/-!
# Applying migrations, with crashes

Any number of `apply_graph_migrations` invocations, each stopped anywhere or failing at any
call.  Between two of them the database is as if the recorded migrations had run once each, but
for part of the next one's schema commands, which running it again makes up for.
-/

namespace Intellivault.Migrations

open Lib

section Databases

variable {K V Data : Type} [DecidableEq K]

/-- `CREATE … IF NOT EXISTS` or `DROP … IF EXISTS`, of a constraint or an index. -/
def IsSchemaCommand (exec : String → Db K V Data → Db K V Data) (statement : String) : Prop :=
  ∃ c : Ensure K V, ∀ db, exec statement db = { db with schema := Ensure.run db.schema c }

variable {exec : String → Db K V Data → Db K V Data}

theorem execAll_commands {statements : List String}
    (commands : ∀ s ∈ statements, IsSchemaCommand exec s) :
    ∃ cs : List (Ensure K V), ∀ db, execAll exec statements db =
      { db with schema := Ensure.runAll cs db.schema } := by
  induction statements with
  | nil => exact ⟨[], fun db => rfl⟩
  | cons s rest ih =>
      obtain ⟨c, first⟩ := commands s List.mem_cons_self
      obtain ⟨cs, later⟩ := ih fun s mem => commands s (List.mem_cons_of_mem _ mem)
      refine ⟨c :: cs, fun db => ?_⟩
      rw [execAll, List.foldl_cons, first]
      exact later _

/-- A schema migration that was broken off is made up for by running it again. -/
theorem execAll_replay {first rest : List String}
    (commands : ∀ s ∈ first ++ rest, IsSchemaCommand exec s) (db : Db K V Data) :
    execAll exec (first ++ rest) (execAll exec first db) = execAll exec (first ++ rest) db := by
  obtain ⟨cs, done⟩ := execAll_commands fun s mem => commands s (List.mem_append_left _ mem)
  rw [execAll_append, execAll_append, done, done, Ensure.runAll_runAll]

end Databases

/-! ## Where a sequence of invocations stands -/

/-- The migrations an invocation finds unrecorded, in file-name order. -/
def pending (dir : Directory) (records : List String) : List GraphMigration :=
  dir.loadGraphMigrations.filter fun m => m.id ∉ records

/-- The statements of the migrations, each once. -/
def migrate {D : Type} (exec : String → D → D) (ms : List GraphMigration) (db : D) : D :=
  ms.foldl (fun db m => execAll exec m.statements db) db

def Commit.id : Commit → String
  | .statement _ id _ | .bookkeeping _ id | .transaction _ id _ => id

/-- The migration whose statements a call runs. -/
def Call.target : Call → Option String
  | .run _ id _ | .executeWrite _ id _ => some id
  | .appliedIds | .bookkeep _ _ => none

/-- No statement of a recorded migration is run. -/
def RunsUnrecorded {D : Type} (c : Call) (w : World D) : Prop :=
  ∀ id, c.target = some id → id ∉ w.records

/-- The migrations `applied` since `w₀` are recorded, and those among them that are not
schema-only were committed in one transaction each. -/
structure Recorded {D : Type} (isWord : Char → Bool) (dir : Directory) (w₀ : World D)
    (applied : List GraphMigration) (w : World D) : Prop where
  records : w.records = w₀.records ++ applied.map GraphMigration.id
  commits : ∀ m ∈ dir.loadGraphMigrations, isSchemaOnly isWord m.statements = false →
    w.commits.filter (fun c => c.id = m.id) = if m.id ∈ applied.map GraphMigration.id then
      [.transaction .record m.id m.statements] else []
  fresh : ∀ c ∈ w.commits, c.id ∉ w₀.records

/-- The database is as the applied migrations leave it, or the next one, run now, leaves it as
if it had been run once. -/
def Settled {D : Type} (exec : String → D → D) (w₀ : World D) (applied left : List GraphMigration)
    (w : World D) : Prop :=
  w.db = migrate exec applied w₀.db ∨
    ∃ m rest, left = m :: rest ∧
      execAll exec m.statements w.db = migrate exec (applied ++ [m]) w₀.db

/-- At every moment: the migrations to apply are `applied`, beginning with `first`, and the rest. -/
def Underway {D : Type} (isWord : Char → Bool) (exec : String → D → D) (dir : Directory)
    (w₀ : World D) (first : List GraphMigration) (w : World D) : Prop :=
  ∃ applied left, pending dir w₀.records = applied ++ left ∧ first <+: applied ∧
    Recorded isWord dir w₀ applied w ∧ Settled exec w₀ applied left w

section Invocation

variable {D : Type} {isWord : Char → Bool} {exec : String → D → D} {dir : Directory}
  {w₀ w : World D} {first applied left : List GraphMigration} {m : GraphMigration}

theorem migrate_snoc (db : D) :
    migrate exec (applied ++ [m]) db = execAll exec m.statements (migrate exec applied db) :=
  List.foldl_append

/-- The next migration turns what is settled into what it leaves. -/
theorem Settled.owed (settled : Settled exec w₀ applied (m :: left) w) :
    execAll exec m.statements w.db = migrate exec (applied ++ [m]) w₀.db := by
  rcases settled with same | ⟨m', rest, next, owed⟩
  · rw [same, migrate_snoc]
  · obtain ⟨rfl, rfl⟩ := List.cons.inj next
    exact owed

theorem pending_nodup (dir : Directory) (records : List String) :
    ((pending dir records).map GraphMigration.id).Nodup :=
  dir.load_nodup.sublist (List.filter_sublist.map _)

theorem mem_pending {records : List String} :
    m ∈ pending dir records ↔ m ∈ dir.loadGraphMigrations ∧ m.id ∉ records := by
  rw [pending, List.mem_filter, decide_eq_true_eq]

/-- What is still pending is what is left. -/
theorem Recorded.pending_eq (recorded : Recorded isWord dir w₀ applied w)
    (split : pending dir w₀.records = applied ++ left) : pending dir w.records = left := by
  have nodup := pending_nodup dir w₀.records
  rw [split, List.map_append, List.nodup_append] at nodup
  have both : pending dir w.records =
      (pending dir w₀.records).filter fun m => m.id ∉ applied.map GraphMigration.id := by
    rw [pending, pending, List.filter_filter]
    refine List.filter_congr fun m _ => ?_
    rw [recorded.records, ← Bool.decide_and]
    exact decide_eq_decide.mpr (by rw [List.mem_append, not_or, and_comm])
  rw [both, split, List.filter_append, List.filter_eq_nil_iff.mpr, List.nil_append,
    List.filter_eq_self]
  · intro m mem
    rw [decide_eq_true_eq]
    exact fun earlier => nodup.2.2 m.id earlier m.id (List.mem_map_of_mem mem) rfl
  · intro m mem
    rw [decide_eq_true_eq, not_not]
    exact List.mem_map_of_mem mem

/-- The next migration is not recorded. -/
theorem Recorded.next_not_mem (recorded : Recorded isWord dir w₀ applied w)
    (split : pending dir w₀.records = applied ++ m :: left) : m.id ∉ w.records := by
  have next := recorded.pending_eq split
  have mem : m ∈ pending dir w.records := next ▸ List.mem_cons_self
  exact (mem_pending.mp mem).2

theorem next_pending (split : pending dir w₀.records = applied ++ m :: left) :
    m ∈ dir.loadGraphMigrations ∧ m.id ∉ w₀.records :=
  mem_pending.mp (split ▸ List.mem_append_right _ List.mem_cons_self)

theorem Recorded.start (untouched : w₀.commits = []) : Recorded isWord dir w₀ [] w₀ where
  records := (List.append_nil _).symm
  commits := fun m _ _ => by
    rw [untouched, List.map_nil, if_neg List.not_mem_nil]
    rfl
  fresh := by
    rw [untouched]
    exact List.forall_mem_nil _

/-- A commit for one migration is none of another. -/
theorem filter_foreign {commits : List Commit} {c : Commit} {m' : GraphMigration}
    (own : c.id = m.id) (mem : m ∈ dir.loadGraphMigrations) (mem' : m' ∈ dir.loadGraphMigrations)
    (other : m' ≠ m) :
    (commits ++ [c]).filter (fun c => c.id = m'.id) = commits.filter fun c => c.id = m'.id := by
  have different : c.id ≠ m'.id := by
    rw [own]
    exact fun same => other (List.inj_on_of_nodup_map dir.load_nodup mem' mem same.symm)
  rw [List.filter_append, List.filter_singleton, decide_eq_false different]
  exact List.append_nil _

/-- A statement of a schema-only migration that is next leaves the account as it is. -/
theorem Recorded.run {s : String} (recorded : Recorded isWord dir w₀ applied w)
    (split : pending dir w₀.records = applied ++ m :: left)
    (mode : isSchemaOnly isWord m.statements = true) :
    Recorded isWord dir w₀ applied (effect exec (.run .record m.id s) w) where
  records := recorded.records
  commits := fun m' mem' plain => by
    have other : m' ≠ m := by
      rintro rfl
      rw [plain] at mode
      cases mode
    exact (filter_foreign rfl (next_pending split).1 mem' other).trans
      (recorded.commits m' mem' plain)
  fresh := by
    refine List.forall_mem_append.mpr ⟨recorded.fresh, ?_⟩
    exact List.forall_mem_singleton.mpr (next_pending split).2

/-- The next migration's record. -/
theorem Recorded.snoc {w' : World D} {c : Commit} (recorded : Recorded isWord dir w₀ applied w)
    (split : pending dir w₀.records = applied ++ m :: left)
    (records : w'.records = w.records ++ [m.id]) (commits : w'.commits = w.commits ++ [c])
    (own : c.id = m.id)
    (whole : isSchemaOnly isWord m.statements = false →
      c = .transaction .record m.id m.statements) :
    Recorded isWord dir w₀ (applied ++ [m]) w' where
  records := by
    rw [records, recorded.records, List.map_append, List.append_assoc]
    rfl
  commits := fun m' mem' plain => by
    have before := recorded.commits m' mem' plain
    rw [commits]
    by_cases same : m' = m
    · subst same
      have unrecorded : m'.id ∉ applied.map GraphMigration.id := by
        have := recorded.next_not_mem split
        rw [recorded.records, List.mem_append, not_or] at this
        exact this.2
      rw [if_neg unrecorded] at before
      rw [List.filter_append, before, List.filter_singleton, decide_eq_true own, whole plain,
        if_pos]
      · rfl
      · rw [List.map_append]
        exact List.mem_append_right _ (List.mem_singleton_self _)
    · rw [filter_foreign own (next_pending split).1 mem' same, before]
      refine if_congr ?_ rfl rfl
      have different : m'.id ≠ m.id :=
        fun equal =>
          same (List.inj_on_of_nodup_map dir.load_nodup mem' (next_pending split).1 equal)
      rw [List.map_append, List.mem_append, List.map_singleton, List.mem_singleton]
      exact (or_iff_left different).symm
  fresh := by
    rw [commits]
    refine List.forall_mem_append.mpr ⟨recorded.fresh, List.forall_mem_singleton.mpr ?_⟩
    rw [own]
    exact (next_pending split).2

theorem applyEach_done {done newly : List String} {rest : List GraphMigration}
    (all : ∀ m ∈ rest, m.id ∈ done) : applyEach isWord done rest newly = .ret newly := by
  induction rest with
  | nil => rfl
  | cons m rest ih =>
      rw [applyEach, if_pos (all m List.mem_cons_self)]
      exact ih fun m mem => all m (List.mem_cons_of_mem _ mem)

/-- Only the records are read. -/
def ReadsRecords {D : Type} (c : Call) (_ : World D) : Prop := c = .appliedIds

/-- With nothing pending, an invocation only reads the records. -/
theorem applyGraphMigrations_idle (idle : pending dir w.records = []) :
    (applyGraphMigrations isWord dir).Guarded (Neo4j exec) ReadsRecords (fun w' => w' = w)
      (fun r _ => ∀ ids, r = .ok ids → ids = []) w := by
  have all : ∀ m ∈ dir.loadGraphMigrations, m.id ∈ w.records := by
    intro m mem
    by_contra absent
    have pends := mem_pending.mpr ⟨mem, absent⟩
    rw [idle] at pends
    cases pends
  rw [applyGraphMigrations]
  refine Prog.guarded_bind.mpr ?_
  refine Prog.guarded_perform.mpr ⟨rfl, fun r w' answered => ?_⟩
  have same : w' = w := answered.cases.elim id id
  subst same
  refine ⟨rfl, ?_⟩
  cases r with
  | error x => exact nofun
  | ok done =>
      obtain ⟨rfl, -⟩ := answered.of_ok
      show (applyEach isWord w'.records dir.loadGraphMigrations []).Guarded _ _ _ _ w'
      rw [applyEach_done all]
      rintro ids ⟨⟩
      rfl

end Invocation

/-! ## One invocation -/

section Guards

variable {K V Data : Type} [DecidableEq K] {isWord : Char → Bool}
  {exec : String → Db K V Data → Db K V Data} {dir : Directory} {w₀ w : World (Db K V Data)}
  {first applied left : List GraphMigration} {m : GraphMigration}

/-- The commands of a schema-only migration, from any of them on. -/
theorem runEach_guarded {start : Db K V Data} {done rest : List String}
    (statements : m.statements = done ++ rest)
    (commands : ∀ s ∈ m.statements, IsSchemaCommand exec s)
    (mode : isSchemaOnly isWord m.statements = true)
    (split : pending dir w₀.records = applied ++ m :: left) (started : first <+: applied)
    (owed : execAll exec m.statements start = migrate exec (applied ++ [m]) w₀.db)
    (recorded : Recorded isWord dir w₀ applied w) (progress : w.db = execAll exec done start) :
    (runEach .record m.id rest).Guarded (Neo4j exec) RunsUnrecorded
      (Underway isWord exec dir w₀ first)
      (fun r w' => ∀ u, r = .ok u →
        Recorded isWord dir w₀ applied w' ∧ w'.db = migrate exec (applied ++ [m]) w₀.db) w := by
  induction rest generalizing done w with
  | nil =>
      rintro u -
      rw [List.append_nil] at statements
      exact ⟨recorded, by rw [progress, ← statements, owed]⟩
  | cons s rest ih =>
      rw [runEach, Prog.guarded_bind]
      refine Prog.guarded_perform.mpr ⟨fun id own => ?_, fun r w' answered => ?_⟩
      · obtain rfl := Option.some.inj own
        exact recorded.next_not_mem split
      -- broken off after any of the commands, the migration is run again from the start
      have settled : ∀ done rest, m.statements = done ++ rest → ∀ w : World (Db K V Data),
          w.db = execAll exec done start → Settled exec w₀ applied (m :: left) w := by
        intro done rest statements w progress
        refine .inr ⟨m, left, rfl, ?_⟩
        rw [progress, ← owed, statements]
        exact execAll_replay (statements ▸ commands) start
      have further :
          (effect exec (.run .record m.id s) w).db = execAll exec (done ++ [s]) start := by
        rw [execAll_append, ← progress]
        rfl
      have statements' : m.statements = (done ++ [s]) ++ rest := by
        rw [statements, List.append_assoc]
        rfl
      refine ⟨?_, ?_⟩
      · rcases answered.cases with rfl | rfl
        · exact ⟨applied, m :: left, split, started, recorded, settled _ _ statements _ progress⟩
        · exact ⟨applied, m :: left, split, started, recorded.run split mode,
            settled _ _ statements' _ further⟩
      · cases r with
        | error x => exact nofun
        | ok a =>
            obtain ⟨-, rfl⟩ := answered.of_ok
            exact ih statements' (recorded.run split mode) further

/-- Each migration is schema-only, and then made of schema commands, or has no statement the
pattern matches. -/
def Uniform (isWord : Char → Bool) (exec : String → Db K V Data → Db K V Data)
    (m : GraphMigration) : Prop :=
  (∀ s ∈ m.statements, IsSchemaCommand exec s) ∨
    ∀ s ∈ m.statements, isSchemaStatement isWord s = false

theorem Uniform.commands (uniform : Uniform isWord exec m)
    (mode : isSchemaOnly isWord m.statements = true) :
    ∀ s ∈ m.statements, IsSchemaCommand exec s := by
  rcases uniform with commands | plain
  · exact commands
  · obtain ⟨some, all⟩ := of_decide_eq_true mode
    intro s mem
    have matched := List.all_eq_true.mp all s mem
    rw [plain s mem] at matched
    cases matched

/-- The next migration: it is recorded at the end, and not before. -/
theorem applyStep_guarded (uniform : Uniform isWord exec m)
    (split : pending dir w₀.records = applied ++ m :: left) (started : first <+: applied)
    (recorded : Recorded isWord dir w₀ applied w)
    (settled : Settled exec w₀ applied (m :: left) w) :
    (applyStep isWord m.statements .record m.id).Guarded (Neo4j exec) RunsUnrecorded
      (Underway isWord exec dir w₀ first)
      (fun r w' => ∀ u, r = .ok u →
        Recorded isWord dir w₀ (applied ++ [m]) w' ∧
          w'.db = migrate exec (applied ++ [m]) w₀.db) w := by
  have split' : pending dir w₀.records = (applied ++ [m]) ++ left := by
    rw [split, List.append_assoc]
    rfl
  have started' : first <+: applied ++ [m] := started.trans (List.prefix_append _ _)
  have owed := settled.owed
  cases mode : isSchemaOnly isWord m.statements with
  | true =>
    rw [applyStep_schema mode]
    refine Prog.guarded_bind.mpr ((runEach_guarded (List.nil_append _).symm (uniform.commands mode) mode
      split started owed recorded rfl).mono fun r w' ran => ?_)
    cases r with
    | error x => exact nofun
    | ok u =>
        obtain ⟨recorded', migrated⟩ := ran u rfl
        have done :
            Recorded isWord dir w₀ (applied ++ [m]) (effect exec (.bookkeep .record m.id) w') :=
          recorded'.snoc split rfl rfl rfl fun plain => by rw [plain] at mode; cases mode
        refine Prog.guarded_perform.mpr ⟨nofun, fun r w'' answered => ⟨?_, ?_⟩⟩
        · rcases answered.cases with rfl | rfl
          · refine ⟨applied, m :: left, split, started, recorded', .inr ⟨m, left, rfl, ?_⟩⟩
            -- the commands have run, and run again they change nothing
            rw [migrated, ← owed]
            have again : execAll exec (m.statements ++ []) (execAll exec m.statements w.db) = _ :=
              execAll_replay (by rw [List.append_nil]; exact uniform.commands mode) w.db
            rwa [List.append_nil] at again
          · exact ⟨applied ++ [m], left, split', started', done, .inl migrated⟩
        · rintro u rfl
          obtain ⟨-, rfl⟩ := answered.of_ok
          exact ⟨done, migrated⟩
  | false =>
    rw [applyStep_plain mode]
    have done : Recorded isWord dir w₀ (applied ++ [m])
        (effect exec (.executeWrite .record m.id m.statements) w) :=
      recorded.snoc split rfl rfl rfl fun _ => rfl
    refine Prog.guarded_perform.mpr ⟨fun id own => ?_, fun r w' answered => ⟨?_, ?_⟩⟩
    · obtain rfl := Option.some.inj own
      exact recorded.next_not_mem split
    · rcases answered.cases with rfl | rfl
      · exact ⟨applied, m :: left, split, started, recorded, settled⟩
      · exact ⟨applied ++ [m], left, split', started', done, .inl owed⟩
    · rintro u rfl
      obtain ⟨-, rfl⟩ := answered.of_ok
      exact ⟨done, owed⟩

theorem applyEach_guarded {done : List String} {rest : List GraphMigration} (newly : List String)
    (uniform : ∀ m ∈ rest, Uniform isWord exec m)
    (split : pending dir w₀.records = applied ++ left) (started : first <+: applied)
    (todo : rest.filter (fun m => m.id ∉ done) = left)
    (recorded : Recorded isWord dir w₀ applied w) (settled : Settled exec w₀ applied left w) :
    (applyEach isWord done rest newly).Guarded (Neo4j exec) RunsUnrecorded
      (Underway isWord exec dir w₀ first)
      (fun r w' => ∀ ids, r = .ok ids → ids = newly ++ left.map GraphMigration.id ∧
        Recorded isWord dir w₀ (applied ++ left) w' ∧
          w'.db = migrate exec (applied ++ left) w₀.db) w := by
  induction rest generalizing applied left newly w with
  | nil =>
      rintro ids ⟨⟩
      obtain rfl : [] = left := todo
      rw [List.map_nil, List.append_nil, List.append_nil]
      rcases settled with same | ⟨m, rest, wrong, -⟩
      · exact ⟨rfl, recorded, same⟩
      · cases wrong
  | cons m rest ih =>
      have uniform' : ∀ m ∈ rest, Uniform isWord exec m :=
        fun m mem => uniform m (List.mem_cons_of_mem _ mem)
      rw [applyEach]
      split
      · rename_i skipped
        rw [List.filter_cons_of_neg (by simpa using skipped)] at todo
        exact ih newly uniform' split started todo recorded settled
      · rename_i unrecorded
        rw [List.filter_cons_of_pos (by simpa using unrecorded)] at todo
        subst todo
        refine Prog.guarded_bind.mpr ((applyStep_guarded (uniform m List.mem_cons_self) split started
          recorded settled).mono fun r w' ran => ?_)
        cases r with
        | error x => exact nofun
        | ok u =>
            obtain ⟨recorded', migrated⟩ := ran u rfl
            refine (ih _ uniform' ?_ (started.trans (List.prefix_append _ _)) rfl recorded'
              (.inl migrated)).mono fun r w'' ended ids ok => ?_
            · rw [split, List.append_assoc]
              rfl
            · rw [List.append_assoc applied, List.append_assoc newly] at ended
              exact ended ids ok

/-- One invocation, from anywhere in the sequence. -/
theorem applyGraphMigrations_guarded
    (uniform : ∀ m ∈ dir.loadGraphMigrations, Uniform isWord exec m)
    (split : pending dir w₀.records = applied ++ left) (recorded : Recorded isWord dir w₀ applied w)
    (settled : Settled exec w₀ applied left w) :
    (applyGraphMigrations isWord dir).Guarded (Neo4j exec) RunsUnrecorded
      (Underway isWord exec dir w₀ applied)
      (fun r w' => ∀ ids, r = .ok ids → ids = left.map GraphMigration.id ∧
        Recorded isWord dir w₀ (applied ++ left) w' ∧
          w'.db = migrate exec (applied ++ left) w₀.db) w := by
  rw [applyGraphMigrations]
  refine Prog.guarded_bind.mpr (Prog.guarded_perform.mpr ⟨nofun, fun r w' answered => ?_⟩)
  have same : w' = w := answered.cases.elim id id
  subst same
  refine ⟨⟨applied, left, split, List.prefix_rfl, recorded, settled⟩, ?_⟩
  cases r with
  | error x => exact nofun
  | ok done =>
      obtain ⟨rfl, -⟩ := answered.of_ok
      exact applyEach_guarded [] uniform split List.prefix_rfl (recorded.pending_eq split) recorded
        settled

/-! ## All of them -/

/-- Invocations, one after the other, each run to the end or stopped before it. -/
inductive Invocations (isWord : Char → Bool) (exec : String → Db K V Data → Db K V Data)
    (dir : Directory)
    (w₀ : World (Db K V Data)) : World (Db K V Data) → Prop
  | none : Invocations isWord exec dir w₀ w₀
  | next {w w' tr p} (before : Invocations isWord exec dir w₀ w)
      (run : Prog.Runs (Neo4j exec) (applyGraphMigrations isWord dir) w tr p w') :
      Invocations isWord exec dir w₀ w'

theorem Invocations.underway (uniform : ∀ m ∈ dir.loadGraphMigrations, Uniform isWord exec m)
    (untouched : w₀.commits = []) (invocations : Invocations isWord exec dir w₀ w) :
    Underway isWord exec dir w₀ [] w := by
  induction invocations with
  | none => exact ⟨[], _, rfl, List.nil_prefix, .start untouched, .inl rfl⟩
  | next before run ih =>
      obtain ⟨applied, left, split, -, recorded, settled⟩ := ih
      obtain ⟨applied', left', split', -, now⟩ := (run.guarded
        ⟨applied, left, split, List.prefix_rfl, recorded, settled⟩
        (applyGraphMigrations_guarded uniform split recorded settled)).1
      exact ⟨applied', left', split', List.nil_prefix, now⟩

end Guards

/-- **Migrations survive crashes.**  Whatever was stopped before, at every moment of an
invocation the ids recorded by it are a prefix, in file-name order, of those pending at its
start; a migration that is not schema-only is recorded exactly if all of its statements were
committed, once and together, and otherwise none was; what was recorded at first is never run,
and what is recorded is not run again.  When an invocation returns, the database and the
records are those of a single invocation, and a further one runs nothing and returns `[]`. -/
theorem apply_crash_safe {K V Data : Type} [DecidableEq K] (isWord : Char → Bool)
    (exec : String → Db K V Data → Db K V Data) (dir : Directory)
    (uniform : ∀ m ∈ dir.loadGraphMigrations, Uniform isWord exec m) {w₀ w w' : World (Db K V Data)}
    (untouched : w₀.commits = []) (earlier : Invocations isWord exec dir w₀ w)
    {tr : List (Prog.Event Call Call.Answer Exn)} {p : Coroutine (List String)}
    (run : Prog.Runs (Neo4j exec) (applyGraphMigrations isWord dir) w tr p w') :
    (∃ n, w'.records = w.records ++ ((pending dir w.records).take n).map GraphMigration.id) ∧
      (∀ m ∈ dir.loadGraphMigrations, isSchemaOnly isWord m.statements = false → m.id ∉ w₀.records →
        w'.commits.filter (fun c => c.id = m.id) = if m.id ∈ w'.records then
          [.transaction .record m.id m.statements] else []) ∧
      (∀ c ∈ w'.commits, c.id ∉ w₀.records) ∧
      (∀ c k, p = .call c k → RunsUnrecorded c w') ∧
      ∀ ids, p = Prog.ended (.ok ids) →
        (∀ tr₁ ids₁ w₁, Prog.Runs (Neo4j exec) (applyGraphMigrations isWord dir) w₀ tr₁
          (Prog.ended (.ok ids₁)) w₁ → w'.db = w₁.db ∧ w'.records = w₁.records) ∧
        w'.db = migrate exec (pending dir w₀.records) w₀.db ∧
        ∀ tr₂ p₂ w₂, Prog.Runs (Neo4j exec) (applyGraphMigrations isWord dir) w' tr₂ p₂ w₂ →
          w₂ = w' ∧ (∀ e ∈ tr₂, e.1 = .appliedIds) ∧
            ∀ ids₂, p₂ = Prog.ended (.ok ids₂) → ids₂ = [] := by
  obtain ⟨applied, left, split, -, recorded, settled⟩ := earlier.underway uniform untouched
  have guarded := applyGraphMigrations_guarded uniform split recorded settled
  obtain ⟨⟨applied', left', split', ⟨more, rfl⟩, recorded', -⟩, rest⟩ :=
    run.guarded ⟨applied, left, split, List.prefix_rfl, recorded, settled⟩ guarded
  refine ⟨⟨more.length, ?_⟩, fun m mem plain absent => ?_, recorded'.fresh, ?_, ?_⟩
  · have next : left = more ++ left' := by
      rw [List.append_assoc] at split'
      exact List.append_cancel_left (split.symm.trans split')
    rw [recorded.pending_eq split, next, List.take_left, recorded'.records, recorded.records,
      List.map_append, List.append_assoc]
  · rw [recorded'.commits m mem plain, recorded'.records]
    refine if_congr ?_ rfl rfl
    rw [List.mem_append, or_iff_right absent]
  · rintro c k rfl
    exact rest.1
  · rintro ids rfl
    obtain ⟨-, done, migrated⟩ := rest ids rfl
    rw [← split] at done migrated
    refine ⟨fun tr₁ ids₁ w₁ single => ?_, migrated, fun tr₂ p₂ w₂ again => ?_⟩
    · have start : pending dir w₀.records = [] ++ pending dir w₀.records := rfl
      have alone := applyGraphMigrations_guarded uniform start (Recorded.start untouched) (.inl rfl)
      obtain ⟨-, done₁, migrated₁⟩ := (single.guarded ⟨[], _, rfl, List.prefix_rfl, .start untouched,
        .inl rfl⟩ alone).2 ids₁ rfl
      rw [List.nil_append] at done₁ migrated₁
      exact ⟨migrated.trans migrated₁.symm, done.records.trans done₁.records.symm⟩
    · have idle : (applyGraphMigrations isWord dir).Guarded (Neo4j exec) ReadsRecords
          (fun w => w = w') (fun r _ => ∀ ids, r = .ok ids → ids = []) w' :=
        applyGraphMigrations_idle (done.pending_eq (List.append_nil _).symm)
      obtain ⟨same, still⟩ := again.guarded (I := fun w => w = w') rfl idle
      refine ⟨same, fun e mem => (again.guarded_calls idle e mem).choose_spec, ?_⟩
      rintro ids₂ rfl
      exact still ids₂ rfl

/-! ## A backfill -/

def asciiWord (c : Char) : Bool := c.isAlphanum ∨ c = '_'

/-- One data migration, without a rollback. -/
def backfill : Directory where
  files := [⟨"0002.backfill.cypher", "MATCH (e:Entity) SET e.tag = 'x';"⟩]
  distinct := by decide
  described := by decide

/-- The backfill's transaction. -/
def backfilled : Commit := .transaction .record "0002.backfill" ["MATCH (e:Entity) SET e.tag = 'x'"]

/-- Every statement counts. -/
def countExec (_ : String) (db : Db String Unit Nat) : Db String Unit Nat :=
  { db with data := db.data + 1 }

def emptyWorld : World (Db String Unit Nat) where
  db := ⟨fun _ => none, 0⟩
  records := []

def migratedWorld : World (Db String Unit Nat) where
  db := ⟨fun _ => none, 1⟩
  records := ["0002.backfill"]
  commits := [backfilled]

theorem backfill_load : backfill.loadGraphMigrations =
    [⟨"0002.backfill", ["MATCH (e:Entity) SET e.tag = 'x'"], []⟩] := rfl

/-- The first invocation fails at the transaction, the second goes through. -/
theorem apply_crash_safe_backfill :
    (∃ n, migratedWorld.records = [] ++ ((pending backfill []).take n).map GraphMigration.id) ∧
      migratedWorld.db = migrate countExec (pending backfill []) emptyWorld.db := by
  have uniform : ∀ m ∈ backfill.loadGraphMigrations, Uniform asciiWord countExec m := by
    rw [backfill_load]
    exact List.forall_mem_singleton.mpr (.inr (List.forall_mem_singleton.mpr (by decide)))
  have crash : Prog.Runs (Neo4j countExec) (applyGraphMigrations asciiWord backfill) emptyWorld
      [⟨.appliedIds, .ok []⟩,
        ⟨.executeWrite .record "0002.backfill" _, .error "ServiceUnavailable"⟩]
      (Prog.ended (.error "ServiceUnavailable")) emptyWorld :=
    .step (.inl ⟨rfl, rfl⟩) (.step (.inr ⟨_, rfl, .inl rfl⟩) .refl)
  have whole : Prog.Runs (Neo4j countExec) (applyGraphMigrations asciiWord backfill) emptyWorld
      [⟨.appliedIds, .ok []⟩, ⟨.executeWrite .record "0002.backfill" _, .ok ()⟩]
      (Prog.ended (.ok ["0002.backfill"])) migratedWorld :=
    .step (.inl ⟨rfl, rfl⟩) (.step (.inl ⟨rfl, rfl⟩) .refl)
  obtain ⟨recorded, -, -, -, returned⟩ := apply_crash_safe asciiWord countExec backfill uniform rfl
    (.next .none crash) whole
  exact ⟨recorded, (returned _ rfl).2.1⟩

end Intellivault.Migrations
