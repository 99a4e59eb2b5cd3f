import Intellivault.Lib.Rounds
import Intellivault.Graph.MigrationRuns

/-!
# Rolling migrations back

Completed `apply_graph_migrations` and `rollback_graph_migrations` invocations, one after the
other.  `Undone` says of all that was committed that no record is removed without its
migration being rolled back, and no data migration committed again without that.
-/

namespace Intellivault.Migrations

open Lib

/-! ## What commits do -/

/-- It commits statements of the migration's rollback. -/
def Commit.rollsBack (id : String) : Commit → Prop
  | .statement .unrecord id' _ => id' = id
  | .transaction .unrecord id' statements => id' = id ∧ statements ≠ []
  | _ => False

/-- It commits forward statements of the migration. -/
def Commit.forwards (id : String) : Commit → Prop
  | .statement .record id' _ => id' = id
  | .transaction .record id' statements => id' = id ∧ statements ≠ []
  | _ => False

/-- It removes the migration's record. -/
def Commit.removes (id : String) : Commit → Prop
  | .bookkeeping .unrecord id' | .transaction .unrecord id' _ => id' = id
  | _ => False

/-- It records the migration. -/
def Commit.recordsAs (id : String) : Commit → Prop
  | .bookkeeping .record id' | .transaction .record id' _ => id' = id
  | _ => False

/-- What a commit needs of those before it: if it removes a record, there are statements of the
rollback since the migration was last recorded; if it runs a data migration forward again, a
rollback of it since. -/
structure Earned (isWord : Char → Bool) (dir : Directory) (before : List Commit) (c : Commit) :
    Prop where
  removed : ∀ id, c.removes id → ∃ earlier since, before = earlier ++ since ∧
    (∀ x ∈ since, ¬x.recordsAs id) ∧ ∃ x ∈ since ++ [c], x.rollsBack id
  once : ∀ m ∈ dir.loadGraphMigrations, isSchemaOnly isWord m.statements = false → c.forwards m.id →
    ∀ earlier c' since, before = earlier ++ c' :: since → c'.forwards m.id →
      ∃ x ∈ since, x.rollsBack m.id

/-- Every commit was earned. -/
def Undone (isWord : Char → Bool) (dir : Directory) (commits : List Commit) : Prop :=
  ∀ before c after, commits = before ++ c :: after → Earned isWord dir before c

/-- Between two commits: besides that, a data migration that is not recorded has been rolled
back since it was last run. -/
structure Balanced (isWord : Char → Bool) (dir : Directory) (records : List String)
    (commits : List Commit) : Prop where
  undone : Undone isWord dir commits
  settled : ∀ m ∈ dir.loadGraphMigrations, isSchemaOnly isWord m.statements = false → m.id ∉ records →
    ∀ earlier c since, commits = earlier ++ c :: since → c.forwards m.id →
      ∃ x ∈ since, x.rollsBack m.id

section Commits

variable {isWord : Char → Bool} {dir : Directory} {records : List String} {commits : List Commit}
  {c : Commit} {m : GraphMigration}

theorem Balanced.start : Balanced isWord dir records [] where
  undone := fun before c after nothing => by cases before <;> cases nothing
  settled := fun m mem plain absent earlier c since nothing => by cases earlier <;> cases nothing

theorem Undone.snoc (undone : Undone isWord dir commits) (earned : Earned isWord dir commits c) :
    Undone isWord dir (commits ++ [c]) := by
  intro before x after split
  rcases snoc_eq_append_cons split with ⟨rfl, rfl, -⟩ | ⟨rest, -, same⟩
  · exact earned
  · exact undone before x rest same

/-- With more records less is owed. -/
theorem Balanced.record {id : String} (balanced : Balanced isWord dir records commits) :
    Balanced isWord dir (records ++ [id]) commits where
  undone := balanced.undone
  settled := fun m mem plain absent => balanced.settled m mem plain fun inside =>
    absent (List.mem_append_left _ inside)

/-- What was rolled back stays so. -/
theorem Balanced.snoc (balanced : Balanced isWord dir records commits)
    (earned : Earned isWord dir commits c)
    (forward : ∀ m ∈ dir.loadGraphMigrations, isSchemaOnly isWord m.statements = false →
      c.forwards m.id → m.id ∈ records) :
    Balanced isWord dir records (commits ++ [c]) where
  undone := balanced.undone.snoc earned
  settled := fun m mem plain absent earlier x since split forwards => by
    rcases snoc_eq_append_cons split with ⟨-, rfl, -⟩ | ⟨rest, rfl, same⟩
    · exact (absent (forward m mem plain forwards)).elim
    · obtain ⟨y, inside, back⟩ := balanced.settled m mem plain absent earlier x rest same forwards
      exact ⟨y, List.mem_append_left _ inside, back⟩

/-- Statements committed alone need nothing, if they are not of a data migration. -/
theorem Balanced.statements {b : Bookkeeping} {id : String} {statements : List String}
    (balanced : Balanced isWord dir records commits)
    (schema : b = .record → ∀ m ∈ dir.loadGraphMigrations, m.id = id →
      isSchemaOnly isWord m.statements = true) :
    Balanced isWord dir records (commits ++ statements.map (.statement b id)) := by
  have plain : ∀ s, ∀ m ∈ dir.loadGraphMigrations, isSchemaOnly isWord m.statements = false →
      ¬(Commit.statement b id s).forwards m.id := by
    intro s m mem mode forwards
    cases b with
    | record =>
        rw [schema rfl m mem forwards.symm] at mode
        cases mode
    | unrecord => exact forwards
  induction statements generalizing commits with
  | nil => rwa [List.map_nil, List.append_nil]
  | cons s rest ih =>
      rw [List.map_cons, List.append_cons]
      exact ih (balanced.snoc
        { removed := nofun
          once := fun m mem mode forwards => (plain s m mem mode forwards).elim }
        fun m mem mode forwards => (plain s m mem mode forwards).elim)

/-! ## What a step commits -/

/-- What `_apply_step` commits. -/
def stepCommits (isWord : Char → Bool) (statements : List String) (b : Bookkeeping) (id : String) :
    List Commit :=
  if isSchemaOnly isWord statements then statements.map (.statement b id) ++ [.bookkeeping b id]
  else [.transaction b id statements]

theorem Balanced.forward (balanced : Balanced isWord dir records commits)
    (mem : m ∈ dir.loadGraphMigrations) (absent : m.id ∉ records) :
    Balanced isWord dir (records ++ [m.id])
      (commits ++ stepCommits isWord m.statements .record m.id) := by
  have same : ∀ m' ∈ dir.loadGraphMigrations, m'.id = m.id → m' = m :=
    fun m' mem' equal => List.inj_on_of_nodup_map dir.load_nodup mem' mem equal
  rw [stepCommits]
  split
  · rename_i mode
    rw [← List.append_assoc]
    have ran : Balanced isWord dir (records ++ [m.id])
        (commits ++ m.statements.map (.statement .record m.id)) :=
      balanced.record.statements fun _ m' mem' equal => same m' mem' equal ▸ mode
    exact ran.snoc { removed := nofun, once := fun _ _ _ forwards => False.elim forwards }
      fun _ _ _ forwards => False.elim forwards
  · refine balanced.record.snoc { removed := nofun, once := fun m' mem' plain forwards => ?_ }
      fun m' _ _ forwards => ?_
    · obtain rfl := same m' mem' forwards.1.symm
      exact balanced.settled m' mem' plain absent
    · rw [← forwards.1]
      exact List.mem_append_right _ (List.mem_singleton_self _)

/-- A record may go with commits that roll its migration back. -/
theorem Balanced.unrecord {id : String} {tail : List Commit}
    (balanced : Balanced isWord dir records (commits ++ tail)) (back : ∃ x ∈ tail, x.rollsBack id)
    (backward : ∀ x ∈ tail, ∀ id', ¬x.forwards id') :
    Balanced isWord dir (records.filter (· ≠ id)) (commits ++ tail) where
  undone := balanced.undone
  settled := fun m mem plain absent earlier c since split forwards => by
    by_cases inside : m.id ∈ records
    · have own : m.id = id := by
        by_contra other
        exact absent (List.mem_filter.mpr ⟨inside, decide_eq_true other⟩)
      obtain ⟨x, member, back⟩ := back
      rcases List.append_eq_append_iff.mp split with ⟨rest, -, split⟩ | ⟨rest, -, split⟩
      · exact (backward c (split ▸ List.mem_append_right _ List.mem_cons_self) m.id forwards).elim
      · cases rest with
        | nil =>
            rw [List.nil_append] at split
            exact (backward c (split ▸ List.mem_cons_self) m.id forwards).elim
        | cons c' rest =>
            obtain ⟨-, rfl⟩ := List.cons.inj split
            exact ⟨x, List.mem_append_right _ member, own ▸ back⟩
    · exact balanced.settled m mem plain inside earlier c since split forwards

theorem Balanced.backward {statements : List String} {id : String}
    (balanced : Balanced isWord dir records commits) (some : statements ≠ []) :
    Balanced isWord dir (records.filter (· ≠ id))
      (commits ++ stepCommits isWord statements .unrecord id) := by
  rw [stepCommits]
  split
  · obtain ⟨s, rest, rfl⟩ := List.exists_cons_of_ne_nil some
    refine Balanced.unrecord ?_
      ⟨_, List.mem_append_left _ (List.mem_map_of_mem List.mem_cons_self), rfl⟩
      fun x mem id' => ?_
    · have ran :
          Balanced isWord dir records (commits ++ (s :: rest).map (.statement .unrecord id)) :=
        balanced.statements fun wrong => by cases wrong
      rw [← List.append_assoc]
      refine ran.snoc
        { removed := fun id' own => ⟨commits, _, rfl, fun x mem => ?_, ?_⟩
          once := fun _ _ _ forwards => False.elim forwards }
        fun _ _ _ forwards => False.elim forwards
      · obtain ⟨s, -, rfl⟩ := List.mem_map.mp mem
        exact fun records => records
      · exact ⟨_, List.mem_append_left _ (List.mem_map_of_mem List.mem_cons_self), own⟩
    · rcases List.mem_append.mp mem with one | last
      · obtain ⟨s, -, rfl⟩ := List.mem_map.mp one
        exact fun forwards => forwards
      · obtain rfl := List.mem_singleton.mp last
        exact fun forwards => forwards
  · refine Balanced.unrecord ?_ ⟨_, List.mem_singleton_self _, rfl, some⟩ fun x mem id' => ?_
    · refine balanced.snoc
        { removed := fun id' own => ⟨commits, [], (List.append_nil _).symm, List.forall_mem_nil _,
            _, List.mem_singleton_self _, own, some⟩
          once := fun _ _ _ forwards => False.elim forwards }
        fun _ _ _ forwards => False.elim forwards
    · obtain rfl := List.mem_singleton.mp mem
      exact fun forwards => forwards

end Commits

/-! ## Completed invocations -/

section Runs

variable {D : Type} {isWord : Char → Bool} {exec : String → D → D} {dir : Directory}
  {w w' : World D}
  {tr : List (Prog.Event Call Call.Answer Exn)}

theorem runEach_ran {b : Bookkeeping} {id : String} {statements : List String}
    (run : Prog.Runs (Neo4j exec) (runEach b id statements) w tr (Prog.ended (.ok ())) w') :
    w'.records = w.records ∧ w'.commits = w.commits ++ statements.map (.statement b id) := by
  induction statements generalizing w tr with
  | nil =>
      obtain ⟨-, -, rfl⟩ := Prog.Runs.ret run
      exact ⟨rfl, (List.append_nil _).symm⟩
  | cons s rest ih =>
      obtain ⟨u, t, tr₁, tr₂, first, later, rfl⟩ := Prog.Runs.bind_ok run
      obtain ⟨-, answered⟩ := Prog.Runs.perform first
      obtain ⟨-, rfl⟩ := answered.of_ok
      obtain ⟨records, commits⟩ := ih later
      exact ⟨records, commits.trans (List.append_assoc _ _ _)⟩

theorem applyStep_ran {statements : List String} {b : Bookkeeping} {id : String}
    (run : Prog.Runs (Neo4j exec) (applyStep isWord statements b id) w tr (Prog.ended (.ok ()))
      w') :
    w'.records = b.apply id w.records ∧
      w'.commits = w.commits ++ stepCommits isWord statements b id := by
  cases mode : isSchemaOnly isWord statements with
  | true =>
      rw [applyStep_schema mode] at run
      rw [stepCommits, if_pos mode]
      obtain ⟨u, t, tr₁, tr₂, first, last, rfl⟩ := Prog.Runs.bind_ok run
      obtain ⟨-, answered⟩ := Prog.Runs.perform last
      obtain ⟨-, rfl⟩ := answered.of_ok
      obtain ⟨records, commits⟩ := runEach_ran first
      refine ⟨congrArg (b.apply id) records, ?_⟩
      show t.commits ++ [_] = _
      rw [commits, List.append_assoc]
  | false =>
      rw [applyStep_plain mode] at run
      rw [stepCommits, if_neg (by rw [mode]; exact Bool.false_ne_true)]
      obtain ⟨-, answered⟩ := Prog.Runs.perform run
      obtain ⟨-, rfl⟩ := answered.of_ok
      exact ⟨rfl, rfl⟩

theorem applyEach_balanced {done newly ids : List String} {rest : List GraphMigration}
    (run : Prog.Runs (Neo4j exec) (applyEach isWord done rest newly) w tr (Prog.ended (.ok ids)) w')
    (loaded : ∀ m ∈ rest, m ∈ dir.loadGraphMigrations) (nodup : (rest.map GraphMigration.id).Nodup)
    (absent : ∀ m ∈ rest, m.id ∉ done → m.id ∉ w.records)
    (balanced : Balanced isWord dir w.records w.commits) :
    Balanced isWord dir w'.records w'.commits := by
  induction rest generalizing newly w tr with
  | nil =>
      obtain ⟨-, -, rfl⟩ := Prog.Runs.ret run
      exact balanced
  | cons m rest ih =>
      rw [List.map_cons, List.nodup_cons] at nodup
      have loaded' : ∀ m ∈ rest, m ∈ dir.loadGraphMigrations :=
        fun m mem => loaded m (List.mem_cons_of_mem _ mem)
      rw [applyEach] at run
      split at run
      · exact ih run loaded' nodup.2 (fun m mem => absent m (List.mem_cons_of_mem _ mem)) balanced
      · rename_i unrecorded
        obtain ⟨u, t, tr₁, tr₂, first, later, rfl⟩ := Prog.Runs.bind_ok run
        obtain ⟨records, commits⟩ := applyStep_ran first
        refine ih later loaded' nodup.2 (fun m' mem fresh inside => ?_) ?_
        · rw [records] at inside
          rcases List.mem_append.mp inside with old | new
          · exact absent m' (List.mem_cons_of_mem _ mem) fresh old
          · exact nodup.1 (List.mem_singleton.mp new ▸ List.mem_map_of_mem mem)
        · rw [records, commits]
          exact balanced.forward (loaded m List.mem_cons_self)
            (absent m List.mem_cons_self unrecorded)

theorem rollbackEach_balanced {done undone ids : List String} {rest : List GraphMigration}
    (run : Prog.Runs (Neo4j exec) (rollbackEach isWord done rest undone) w tr
      (Prog.ended (.ok ids)) w')
    (reversible : ∀ m ∈ rest, m.id ∈ done → m.rollback ≠ [])
    (balanced : Balanced isWord dir w.records w.commits) :
    Balanced isWord dir w'.records w'.commits := by
  induction rest generalizing undone w tr with
  | nil =>
      obtain ⟨-, -, rfl⟩ := Prog.Runs.ret run
      exact balanced
  | cons m rest ih =>
      have reversible' : ∀ m ∈ rest, m.id ∈ done → m.rollback ≠ [] :=
        fun m mem => reversible m (List.mem_cons_of_mem _ mem)
      rw [rollbackEach] at run
      split at run
      · exact ih run reversible' balanced
      · rename_i recorded
        obtain ⟨u, t, tr₁, tr₂, first, later, rfl⟩ := Prog.Runs.bind_ok run
        obtain ⟨records, commits⟩ := applyStep_ran first
        refine ih later reversible' ?_
        rw [records, commits]
        exact balanced.backward (reversible m List.mem_cons_self (not_not.mp recorded))

/-- What an operator runs. -/
inductive Invocation where
  | apply
  | rollback
deriving DecidableEq

/-- The invocation returned. -/
def Completed (isWord : Char → Bool) (exec : String → D → D) (dir : Directory) (w : World D) :
    Invocation → World D → Prop
  | .apply, w' => ∃ tr ids,
      Prog.Runs (Neo4j exec) (applyGraphMigrations isWord dir) w tr (Prog.ended (.ok ids)) w'
  | .rollback, w' => ∃ tr ids,
      Prog.Runs (Neo4j exec) (rollbackGraphMigrations isWord dir) w tr (Prog.ended (.ok ids)) w'

/-- Every migration that is recorded when it is rolled back has rollback statements. -/
def Reversible (dir : Directory) (x : Transition (World D) Invocation) : Prop :=
  x.label = .rollback → ∀ m ∈ dir.loadGraphMigrations, m.id ∈ x.source.records → m.rollback ≠ []

theorem Completed.balanced {invocation : Invocation}
    (completed : Completed isWord exec dir w invocation w')
    (reversible : Reversible dir ⟨w, invocation, w'⟩)
    (balanced : Balanced isWord dir w.records w.commits) :
    Balanced isWord dir w'.records w'.commits := by
  cases invocation with
  | apply =>
      obtain ⟨tr, ids, run⟩ := completed
      obtain ⟨done, t, tr₁, tr₂, first, later, rfl⟩ := Prog.Runs.bind_ok run
      obtain ⟨-, answered⟩ := Prog.Runs.perform first
      obtain ⟨rfl, rfl⟩ := answered.of_ok
      exact applyEach_balanced later (fun _ mem => mem) dir.load_nodup (fun _ _ absent => absent)
        balanced
  | rollback =>
      obtain ⟨tr, ids, run⟩ := completed
      obtain ⟨done, t, tr₁, tr₂, first, later, rfl⟩ := Prog.Runs.bind_ok run
      obtain ⟨-, answered⟩ := Prog.Runs.perform first
      obtain ⟨rfl, rfl⟩ := answered.of_ok
      exact rollbackEach_balanced later
        (fun m mem => reversible rfl m (List.mem_reverse.mp mem)) balanced

end Runs

/-- **Rollbacks undo what they unrecord**, in every history in which all that is recorded when a
rollback starts has rollback statements. -/
theorem rollback_undoes {D : Type} (isWord : Char → Bool) (exec : String → D → D) (dir : Directory)
    {w₀ w : World D} {tr : List (Transition (World D) Invocation)} (untouched : w₀.commits = [])
    (history : History (Completed isWord exec dir) w₀ tr w)
    (reversible : ∀ x ∈ tr, Reversible dir x) :
    Undone isWord dir w.commits := by
  have start : Balanced isWord dir w₀.records w₀.commits := by
    rw [untouched]
    exact .start
  have final : Balanced isWord dir w.records w.commits :=
    history.invariant reversible start fun t l u balanced met completed =>
      completed.balanced met balanced
  exact final.undone

/-- The backfill with a rollback. -/
def revertible : Directory where
  files := [⟨"0002.backfill.cypher", "MATCH (e:Entity) SET e.tag = 'x';"⟩,
    ⟨"0002.backfill.rollback.cypher", "MATCH (e:Entity) REMOVE e.tag;"⟩]
  distinct := by decide
  described := by decide

/-- The rollback's transaction. -/
def reverted (statements : List String) : Commit :=
  .transaction .unrecord "0002.backfill" statements

theorem revertible_load : revertible.loadGraphMigrations =
    [⟨"0002.backfill", ["MATCH (e:Entity) SET e.tag = 'x'"],
      ["MATCH (e:Entity) REMOVE e.tag"]⟩] := rfl

/-- Applied, rolled back and applied again. -/
theorem rollback_undoes_revertible :
    Undone asciiWord revertible
      [backfilled, reverted ["MATCH (e:Entity) REMOVE e.tag"], backfilled] := by
  have first : Completed asciiWord countExec revertible emptyWorld .apply migratedWorld :=
    ⟨_, _, .step (.inl ⟨rfl, rfl⟩) (.step (.inl ⟨rfl, rfl⟩) .refl)⟩
  have back : Completed asciiWord countExec revertible migratedWorld .rollback
      ⟨⟨fun _ => none, 2⟩, [], [backfilled, reverted ["MATCH (e:Entity) REMOVE e.tag"]]⟩ :=
    ⟨_, _, .step (.inl ⟨rfl, rfl⟩) (.step (.inl ⟨rfl, rfl⟩) .refl)⟩
  have again : Completed asciiWord countExec revertible
      ⟨⟨fun _ => none, 2⟩, [], [backfilled, reverted ["MATCH (e:Entity) REMOVE e.tag"]]⟩ .apply
      ⟨⟨fun _ => none, 3⟩, ["0002.backfill"],
        [backfilled, reverted ["MATCH (e:Entity) REMOVE e.tag"], backfilled]⟩ :=
    ⟨_, _, .step (.inl ⟨rfl, rfl⟩) (.step (.inl ⟨rfl, rfl⟩) .refl)⟩
  refine rollback_undoes asciiWord countExec revertible rfl
    (.next (.next (.next .start first) back) again)
    fun x _ _ m mem _ => ?_
  rw [revertible_load] at mem
  obtain rfl := List.mem_singleton.mp mem
  exact List.cons_ne_nil _ _

/-- Without a rollback file the record is removed all the same, and the backfill runs twice. -/
theorem rollback_forgets : ∃ tr w,
    History (Completed asciiWord countExec backfill) emptyWorld tr w ∧
    tr.map Transition.label = [.apply, .rollback, .apply] ∧ w.commits.count backfilled = 2 ∧
      ¬Undone asciiWord backfill w.commits := by
  have first : Completed asciiWord countExec backfill emptyWorld .apply migratedWorld :=
    ⟨_, _, .step (.inl ⟨rfl, rfl⟩) (.step (.inl ⟨rfl, rfl⟩) .refl)⟩
  have back : Completed asciiWord countExec backfill migratedWorld .rollback
      ⟨⟨fun _ => none, 1⟩, [], [backfilled, reverted []]⟩ :=
    ⟨_, _, .step (.inl ⟨rfl, rfl⟩) (.step (.inl ⟨rfl, rfl⟩) .refl)⟩
  have again : Completed asciiWord countExec backfill
      ⟨⟨fun _ => none, 1⟩, [], [backfilled, reverted []]⟩ .apply
      ⟨⟨fun _ => none, 2⟩, ["0002.backfill"], [backfilled, reverted [], backfilled]⟩ :=
    ⟨_, _, .step (.inl ⟨rfl, rfl⟩) (.step (.inl ⟨rfl, rfl⟩) .refl)⟩
  refine ⟨_, _, .next (.next (.next .start first) back) again, rfl, by decide, fun undone => ?_⟩
  obtain ⟨earlier, since, split, -, x, mem, back⟩ :=
    (undone [backfilled] (reverted []) [backfilled] rfl).removed "0002.backfill" rfl
  rcases List.mem_append.mp mem with old | new
  · obtain rfl : x = backfilled := by
      have inside : x ∈ earlier ++ since := List.mem_append_right _ old
      rw [← split] at inside
      exact List.mem_singleton.mp inside
    exact back
  · obtain rfl := List.mem_singleton.mp new
    exact back.2 rfl

end Intellivault.Migrations
