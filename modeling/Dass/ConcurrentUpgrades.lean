/-
# `Dass.ConcurrentUpgrades` — replicas that start at once

`backend/entrypoint.sh` has `alembic upgrade head` before the server, and `backend/alembic/env.py`
has that take an advisory lock of PostgreSQL for the one transaction it does everything in.  Any
number of replicas start, and may stop at any point, while other clients write:

    start      a replica starts, and its transaction begins
    lock       it gets the lock, and reads `alembic_version`
    ddl        it runs the next operation, and locks its tables
    stamp      it writes the version it has come to
    commit     it commits, and goes on to the server
    rollback   an operation is refused, or the replica stops in its transaction
    stop       a replica stops elsewhere
    write      another client writes to a table that is not locked

The comment in `env.py` says that the schema is upgraded exactly once, and `upgraded_once` that it
is: what the transaction has done, with the tables it has locked, is always what the upgrades do
to the committed database of the moment.
-/
import Dass.Lib.DdlLocks
import Dass.Lib.Run
import Dass.Migrations

namespace Dass

open Ddl Lts

/-! ## `alembic upgrade head` -/

/-- The upgrades in the order of their revisions. -/
def upgrades (now : Cell) : List (List (Operation Cell)) :=
  [upgrade_0001 now, upgrade_0002 now, upgrade_0003 now, upgrade_0004]

/-- The tables that PostgreSQL locks for each operation, those a foreign key refers to too. -/
def locks : List (List (List String)) :=
  [[["jobs"], ["tasks", "jobs"], ["jobs"], ["jobs"], ["tasks"], ["tasks"], ["tasks"], ["jobs"],
      ["jobs"], ["jobs"], ["jobs"]],
    [["jobs"]],
    [["jobs"], ["jobs"], ["jobs"], ["tasks"]],
    [["job_dependencies", "jobs"], ["jobs"], ["jobs"]]]

/-- The revision at the head; a version is how many upgrades there have been. -/
def head_version : Nat := 4

/-- The upgrades up to a version; the time of an upgrade of no rows is no matter. -/
def revision (version : Nat) : List (Operation Cell) :=
  ((upgrades (.time 0)).take version).flatten

inductive Statement where
  | ddl (tables : List String) (op : Operation Cell)
  /-- the row of `alembic_version` -/
  | stamp (version : Nat)

/-- Migrations after a version, each with its version behind it. -/
def script : Nat → List (List Statement) → List Statement
  | _, [] => []
  | version, migration :: migrations =>
      migration ++ .stamp (version + 1) :: script (version + 1) migrations

/-- The upgrades with their locks. -/
def migrations (now : Cell) : List (List Statement) :=
  List.zipWith (List.zipWith Statement.ddl) locks (upgrades now)

/-- What `alembic upgrade head` does to a database at a version. -/
def upgrade_head (now : Cell) (version : Nat) : List Statement :=
  script version ((migrations now).drop version)

def Statement.op : Statement → Option (Operation Cell)
  | .ddl _ op => some op
  | .stamp _ => none

def Statement.version : Statement → Option Nat
  | .ddl _ _ => none
  | .stamp version => some version

/-! ## The replicas -/

abbrev Replica := Nat

/-- The transaction of the replica that has the lock. -/
structure Transaction where
  replica : Replica
  stamped : List Nat
  todo : List Statement
  locked : List String
  /-- the locked tables, as it has changed them -/
  own : Database Cell

/-- The database as the transaction sees it. -/
def Transaction.sees (txn : Transaction) (db : Database Cell) : Database Cell :=
  overlay txn.locked txn.own db

inductive Startup where
  /-- … for the lock, in a transaction that has begun -/
  | waiting (now : Cell)
  | upgrading
  | serving

structure Deployment where
  db : Database Cell
  /-- the row of `alembic_version` -/
  version : Nat
  lock : Option Transaction
  replicas : Replica → Option Startup
  /-- the versions that have been committed, the first of them first -/
  upgraded : List Nat

/-- A database, and no replica yet. -/
def Deployment.start (db : Database Cell) (version : Nat) : Deployment where
  db := db
  version := version
  lock := none
  replicas _ := none
  upgraded := []

inductive Deployment.Label where
  | start (replica : Replica)
  | lock (replica : Replica)
  | ddl
  | stamp
  | commit
  | rollback
  | stop (replica : Replica)
  | write (table : String)

open Function in
inductive Deployment.Step : Deployment → Deployment.Label → Deployment → Prop
  | start {s : Deployment} {p} (now : Cell) : s.replicas p = none →
      Deployment.Step s (.start p)
        { s with replicas := update s.replicas p (some (.waiting now)) }
  | lock {s : Deployment} {p now} : s.replicas p = some (.waiting now) → s.lock = none →
      Deployment.Step s (.lock p) { s with
        lock := some ⟨p, [], upgrade_head now s.version, [], s.db⟩
        replicas := update s.replicas p (some .upgrading) }
  | ddl {s : Deployment} {txn tables op todo own} : s.lock = some txn →
      txn.todo = .ddl tables op :: todo → op (txn.sees s.db) = .ok own →
      Deployment.Step s .ddl { s with
        lock := some { txn with todo := todo, locked := txn.locked ++ tables, own := own } }
  | stamp {s : Deployment} {txn version todo} : s.lock = some txn →
      txn.todo = .stamp version :: todo →
      Deployment.Step s .stamp { s with
        lock := some { txn with todo := todo, stamped := txn.stamped ++ [version] } }
  | commit {s : Deployment} {txn} : s.lock = some txn → txn.todo = [] →
      Deployment.Step s .commit { s with
        db := txn.sees s.db
        version := txn.stamped.getLast?.getD s.version
        lock := none
        replicas := update s.replicas txn.replica (some .serving)
        upgraded := s.upgraded ++ txn.stamped }
  | rollback {s : Deployment} {txn} : s.lock = some txn →
      Deployment.Step s .rollback { s with
        lock := none, replicas := update s.replicas txn.replica none }
  | stop {s : Deployment} {p} : s.replicas p ≠ some .upgrading →
      Deployment.Step s (.stop p) { s with replicas := update s.replicas p none }
  | write {s : Deployment} {table rel rel'} : s.db table = some rel →
      rel'.schema = rel.schema → (∀ txn, s.lock = some txn → table ∉ txn.locked) →
      Deployment.Step s (.write table) { s with db := update s.db table (some rel') }

/-! ## The upgrades from a version on -/

/-- An operation reads and changes the tables it locks. -/
def Statement.Locks : Statement → Prop
  | .ddl tables op => On tables op
  | .stamp _ => True

theorem migrations_lock (now : Cell) : ∀ migration ∈ migrations now,
    ∀ statement ∈ migration, statement.Locks := by
  simp only [migrations, locks, upgrades, upgrade_0001, upgrade_0002, upgrade_0003, upgrade_0004,
    List.zipWith_cons_cons, List.zipWith_nil_left, List.forall_mem_cons]
  refine ⟨⟨create_table_on _ _, (create_table_on _ _).mono (by simp), alter_on _, alter_on _,
    alter_on _, alter_on _, alter_on _, alter_on _, alter_on _, alter_on _, alter_on _, ?_⟩,
    ⟨alter_on _, ?_⟩,
    ⟨alter_on _, alter_on _, (create_foreign_key_on _ _ _ _).mono (by simp), alter_on _, ?_⟩,
    ⟨(create_table_on _ _).mono (by simp), alter_on _, alter_on _, ?_⟩, ?_⟩ <;>
  · intro _ h
    cases h

theorem script_lock {version : Nat} {migrations : List (List Statement)}
    (h : ∀ migration ∈ migrations, ∀ statement ∈ migration, statement.Locks) :
    ∀ statement ∈ script version migrations, statement.Locks := by
  induction migrations generalizing version with
  | nil =>
      intro _ hmem
      cases hmem
  | cons migration migrations ih =>
      obtain ⟨hfirst, hrest⟩ := List.forall_mem_cons.mp h
      intro statement hmem
      rcases List.mem_append.mp hmem with hmem | hmem
      · exact hfirst statement hmem
      · rcases List.mem_cons.mp hmem with rfl | hmem
        · trivial
        · exact ih hrest statement hmem

theorem upgrade_head_lock (now : Cell) (version : Nat) :
    ∀ statement ∈ upgrade_head now version, statement.Locks :=
  script_lock fun migration h => migrations_lock now migration (List.mem_of_mem_drop h)

theorem upgrade_head_ops (now : Cell) {version : Nat} (h : version ≤ head_version) :
    (upgrade_head now version).filterMap Statement.op =
      ((upgrades now).drop version).flatten := by
  match version, h with
  | 0, _ | 1, _ | 2, _ | 3, _ | 4, _ => rfl

theorem upgrade_head_versions (now : Cell) {version : Nat} (h : version ≤ head_version) :
    (upgrade_head now version).filterMap Statement.version =
      List.range' (version + 1) (head_version - version) := by
  match version, h with
  | 0, _ | 1, _ | 2, _ | 3, _ | 4, _ => rfl

/-- The time of an upgrade makes no other schema. -/
theorem upgrades_sameSchemas (now now' : Cell) :
    List.Forall₂ (List.Forall₂ SameSchemas) (upgrades now) (upgrades now') := by
  have table : ∀ {table columns constraints}, SameSchemas
      (create_table table columns constraints : Operation Cell)
      (create_table table columns constraints) := create_table_sameSchemas _ _
  have index : ∀ {name table columns}, SameSchemas
      (create_index name table columns : Operation Cell) (create_index name table columns) :=
    create_index_sameSchemas _ _
  have column : ∀ {table col}, SameSchemas (add_column now table col) (add_column now' table col) :=
    add_column_sameSchemas _ _ _
  have nullable : ∀ {table column}, SameSchemas
      (set_nullable table column : Operation Cell) (set_nullable table column) :=
    set_nullable_sameSchemas _
  refine .cons ?_ (.cons (.cons column .nil) (.cons ?_ (.cons ?_ .nil)))
  · exact .cons table (.cons table (.cons index (.cons index (.cons index (.cons index
      (.cons index (.cons column (.cons nullable (.cons nullable (.cons index .nil))))))))))
  · exact .cons column (.cons (drop_index_sameSchemas _)
      (.cons (create_foreign_key_sameSchemas _ _ _ _) (.cons column .nil)))
  · exact .cons table (.cons (drop_constraint_sameSchemas _)
      (.cons (drop_column_sameSchemas _) .nil))

/-- The upgrades up to a version succeed without rows. -/
theorem run_revision (version : Nat) : (run (revision version) fun _ => none).toBool = true := by
  have hall : (run ((upgrades (.time 0)).flatten) fun _ => none).toBool = true := by
    decide +kernel
  rw [← List.take_append_drop version (upgrades (.time 0)), List.flatten_append, run_append] at hall
  change (run ((upgrades (.time 0)).take version).flatten fun _ => none).toBool = true
  cases hrun : run ((upgrades (.time 0)).take version).flatten fun _ => none with
  | ok _ => rfl
  | error e =>
      rw [hrun] at hall
      cases hall

/-- Upgrades take a database at a revision to a later one. -/
theorem AtRevision.upgrade {now : Cell} {version : Nat} (count : Nat) {db db' : Database Cell}
    (h : AtRevision (revision version) db)
    (hrun : run (((upgrades now).drop version).take count).flatten db = .ok db') :
    AtRevision (revision (version + count)) db' := by
  have hsplit : revision (version + count) =
      revision version ++ (((upgrades (.time 0)).drop version).take count).flatten := by
    rw [revision, revision, ← List.flatten_append, List.take_add]
  have hmade := run_revision (version + count)
  rw [hsplit] at hmade ⊢
  refine AtRevision.run h (List.rel_flatten ?_) hmade hrun
  exact List.forall₂_take count (List.forall₂_drop version (upgrades_sameSchemas _ _))

/-! ## When they succeed -/

def HasTask (db : Database Cell) : Prop := ∃ tasks, db "tasks" = some tasks ∧ tasks.rows ≠ []

theorem run_0003_ok_iff (now : Cell) {db : Database Cell} (h : AtRevision revision_0002 db) :
    (∃ db', run (upgrade_0003 now) db = .ok db') ↔ ¬ HasTask db := by
  constructor
  · rintro ⟨db', hok⟩ ⟨tasks, htasks, hrows⟩
    obtain ⟨jobs, hrun, -⟩ := run_0003 now h
    obtain ⟨rel, hrel, hnew⟩ := AtRevision.tasks_0002 h
    obtain rfl := Option.some.inj (htasks.symm.trans hrel)
    have htasks' : Function.update db "jobs" (some jobs) "tasks" = some tasks := by
      rw [Function.update_of_ne (by decide), htasks]
    rw [hrun, run_cons_error (add_column_error now _ htasks' hnew rfl rfl hrows)] at hok
    cases hok
  · intro hnone
    obtain ⟨db', hok, -⟩ := (upgrades_0003_iff now h).mpr fun tasks htasks => by
      by_contra hrows
      exact hnone ⟨tasks, htasks, hrows⟩
    exact ⟨db', hok⟩

/-- `0002` adds a column that may be `NULL`, and does not touch `tasks`. -/
theorem run_0002 (now : Cell) {db : Database Cell} (h : AtRevision (revision 1) db) :
    ∃ db', run (upgrade_0002 now) db = .ok db' ∧ db' "tasks" = db "tasks" := by
  have hjobs : ((created_by (revision 1) "jobs").map Relation.schema).any (fun schema =>
      decide (schema.has "runtime_spec" = false)) = true := by
    decide +kernel
  obtain ⟨jobs, hrel, hnew⟩ := h.relation hjobs
  obtain ⟨added, hadd, -, -⟩ := add_column_ok now ⟨"runtime_spec", "JSONB", true, none⟩ hrel
    (of_decide_eq_true hnew) (.inl rfl)
  exact ⟨_, run_cons_ok hadd, Function.update_of_ne (by decide) _ _⟩

/-- The upgrades from a version on succeed. -/
def Upgradable (now : Cell) (version : Nat) (db : Database Cell) : Prop :=
  ∃ db', run ((upgrades now).drop version).flatten db = .ok db'

/-- One upgrade, and those behind it. -/
theorem upgradable_iff {now : Cell} {version : Nat} {db : Database Cell}
    {first : List (Operation Cell)} (hfirst : (upgrades now)[version]? = some first) :
    Upgradable now version db ↔
      ∃ mid, run first db = .ok mid ∧ Upgradable now (version + 1) mid := by
  obtain ⟨hlt, hget⟩ := List.getElem?_eq_some_iff.mp hfirst
  have hflat : ((upgrades now).drop version).flatten =
      first ++ ((upgrades now).drop (version + 1)).flatten := by
    rw [List.drop_eq_getElem_cons hlt, hget, List.flatten_cons]
  unfold Upgradable
  rw [hflat, run_append]
  cases run first db with
  | error e =>
      refine iff_of_false ?_ ?_
      · rintro ⟨_, h⟩
        cases h
      · rintro ⟨_, h, -⟩
        cases h
  | ok mid =>
      constructor
      · exact fun h => ⟨mid, rfl, h⟩
      · rintro ⟨_, h, hrest⟩
        cases h
        exact hrest

theorem upgradable_3 (now : Cell) {db : Database Cell} (h : AtRevision (revision 3) db) :
    Upgradable now 3 db := by
  obtain ⟨db', hok, -⟩ := run_0004 h
  exact ⟨db', hok⟩

theorem upgradable_2_iff (now : Cell) {db : Database Cell} (h : AtRevision (revision 2) db) :
    Upgradable now 2 db ↔ ¬ HasTask db := by
  rw [← run_0003_ok_iff now h, upgradable_iff rfl]
  constructor
  · rintro ⟨mid, hmid, -⟩
    exact ⟨mid, hmid⟩
  · rintro ⟨mid, hmid⟩
    exact ⟨mid, hmid, upgradable_3 now (AtRevision.upgrade 1 h hmid)⟩

/-- The upgrades to the head succeed if and only if `0003` is behind, or there is no task. -/
theorem upgradable_iff_no_task (now : Cell) {version : Nat} (hversion : version ≤ head_version)
    {db : Database Cell} (h : AtRevision (revision version) db) :
    Upgradable now version db ↔ ¬ (version ≤ 2 ∧ HasTask db) := by
  match version, hversion with
  | 0, _ =>
      obtain rfl : db = fun _ => none := funext fun table => Option.map_eq_none_iff.mp (h table)
      refine iff_of_true ?_ ?_
      · exact ⟨_, rfl⟩
      · rintro ⟨-, tasks, htasks, -⟩
        cases htasks
  | 1, _ =>
      obtain ⟨mid, hmid, htasks⟩ := run_0002 now h
      have hsecond := upgradable_2_iff now (AtRevision.upgrade 1 h hmid)
      have htask : HasTask mid ↔ HasTask db := by rw [HasTask, HasTask, htasks]
      rw [upgradable_iff rfl, ← htask]
      constructor
      · rintro ⟨mid', hmid', hrest⟩ ⟨-, hhas⟩
        obtain rfl := Except.ok.inj (hmid.symm.trans hmid')
        exact hsecond.mp hrest hhas
      · intro hnone
        exact ⟨mid, hmid, hsecond.mpr fun hhas => hnone ⟨by decide, hhas⟩⟩
  | 2, _ =>
      rw [upgradable_2_iff now h]
      exact not_congr (iff_and_self.mpr fun _ => Nat.le_refl 2)
  | 3, _ => exact iff_of_true (upgradable_3 now h) fun hboth => absurd hboth.1 (by decide)
  | 4, _ => exact iff_of_true ⟨db, rfl⟩ fun hboth => absurd hboth.1 (by decide)

/-! ## The transaction -/

/-- What the transaction has done is what it would do to the database now. -/
structure Transaction.Good (txn : Transaction) (s : Deployment) : Prop where
  run : ∃ now done, upgrade_head now s.version = done ++ txn.todo ∧
    txn.stamped = done.filterMap Statement.version ∧
    (∀ op ∈ done.filterMap Statement.op, On txn.locked op) ∧
    Ddl.run (done.filterMap Statement.op) s.db = .ok (txn.sees s.db)

/-- What holds of replicas that began at a version. -/
structure Deployment.Good (version : Nat) (s : Deployment) : Prop where
  revision : AtRevision (revision s.version) s.db
  once : s.upgraded = [] ∧ s.version = version ∨
    s.upgraded = List.range' (version + 1) (head_version - version) ∧ s.version = head_version
  transaction : ∀ txn, s.lock = some txn → txn.Good s
  serving : ∀ p, s.replicas p = some .serving → s.version = head_version

theorem Deployment.start_good {version : Nat} {db : Database Cell}
    (h : AtRevision (Dass.revision version) db) : (Deployment.start db version).Good version where
  revision := h
  once := .inl ⟨rfl, rfl⟩
  transaction _ h := by cases h
  serving _ h := by cases h

section Steps

variable {s : Deployment} {txn : Transaction} {version : Nat}

theorem Transaction.Good.ddl {tables : List String} {op : Operation Cell} {todo : List Statement}
    {own : Database Cell} (h : txn.Good s) (htodo : txn.todo = .ddl tables op :: todo)
    (hok : op (txn.sees s.db) = .ok own) :
    Transaction.Good { txn with todo := todo, locked := txn.locked ++ tables, own := own }
      { s with lock := some { txn with
          todo := todo, locked := txn.locked ++ tables, own := own } } := by
  obtain ⟨now, done, hall, hstamped, hlocked, hrun⟩ := h.run
  rw [htodo] at hall
  have hop : On tables op :=
    upgrade_head_lock now s.version (.ddl tables op) (by rw [hall]; simp)
  have hops : (done ++ [Statement.ddl tables op]).filterMap Statement.op =
      done.filterMap Statement.op ++ [op] := by
    rw [List.filterMap_append]
    rfl
  refine ⟨now, done ++ [.ddl tables op], ?_, ?_, ?_, ?_⟩
  · rw [List.append_assoc]
    exact hall
  · rw [List.filterMap_append]
    exact hstamped.trans (List.append_nil _).symm
  · intro o ho
    rw [hops] at ho
    rcases List.mem_append.mp ho with ho | ho
    · exact (hlocked o ho).mono (List.subset_append_left _ _)
    · exact List.mem_singleton.mp ho ▸ hop.mono (List.subset_append_right _ _)
  · rw [hops]
    exact run_snoc hlocked hop hrun hok

theorem Transaction.Good.stamp {todo : List Statement} (h : txn.Good s)
    (htodo : txn.todo = .stamp version :: todo) :
    Transaction.Good { txn with todo := todo, stamped := txn.stamped ++ [version] }
      { s with lock := some { txn with
          todo := todo, stamped := txn.stamped ++ [version] } } := by
  obtain ⟨now, done, hall, hstamped, hlocked, hrun⟩ := h.run
  rw [htodo] at hall
  have hops : (done ++ [Statement.stamp version]).filterMap Statement.op =
      done.filterMap Statement.op := by
    rw [List.filterMap_append]
    exact List.append_nil _
  refine ⟨now, done ++ [.stamp version], ?_, ?_, ?_, ?_⟩
  · rw [List.append_assoc]
    exact hall
  · rw [List.filterMap_append, ← hstamped]
    rfl
  · rw [hops]
    exact hlocked
  · rw [hops]
    exact hrun

/-- Other clients write to the tables that are not locked. -/
theorem Transaction.Good.write {db : Database Cell} (h : txn.Good s)
    (hsame : ∀ table ∈ txn.locked, db table = s.db table) : txn.Good { s with db := db } := by
  obtain ⟨now, done, hall, hstamped, hlocked, hrun⟩ := h.run
  exact ⟨now, done, hall, hstamped, hlocked, run_beside hlocked hrun hsame⟩

/-- At its end all upgrades have been run, and all versions written. -/
theorem Transaction.Good.complete (h : txn.Good s) (hversion : s.version ≤ head_version)
    (htodo : txn.todo = []) :
    txn.stamped = List.range' (s.version + 1) (head_version - s.version) ∧
    ∃ now, Ddl.run ((upgrades now).drop s.version).flatten s.db = .ok (txn.sees s.db) := by
  obtain ⟨now, done, hall, hstamped, -, hrun⟩ := h.run
  rw [htodo, List.append_nil] at hall
  subst hall
  rw [upgrade_head_versions now hversion] at hstamped
  rw [upgrade_head_ops now hversion] at hrun
  exact ⟨hstamped, now, hrun⟩

/-- An operation is refused where the upgrades cannot be run. -/
theorem Transaction.Good.refused {tables : List String} {op : Operation Cell}
    {todo : List Statement} {error : Error} (h : txn.Good s) (hversion : s.version ≤ head_version)
    (htodo : txn.todo = .ddl tables op :: todo) (hop : op (txn.sees s.db) = .error error) :
    ∃ now, ¬ Upgradable now s.version s.db := by
  obtain ⟨now, done, hall, -, -, hrun⟩ := h.run
  refine ⟨now, ?_⟩
  rintro ⟨db', hok⟩
  rw [← upgrade_head_ops now hversion, hall, htodo, List.filterMap_append, run_append, hrun] at hok
  have herror : Ddl.run (op :: todo.filterMap Statement.op) (txn.sees s.db) = .error error :=
    run_cons_error hop
  rw [show (Except.ok (txn.sees s.db)).bind _ = Ddl.run (op :: todo.filterMap Statement.op)
    (txn.sees s.db) from rfl, herror] at hok
  cases hok

end Steps

theorem Deployment.Good.le {version : Nat} {s : Deployment} (hversion : version ≤ head_version)
    (h : s.Good version) : s.version ≤ head_version := by
  rcases h.once with ⟨-, hv⟩ | ⟨-, hv⟩
  · exact hv ▸ hversion
  · exact Nat.le_of_eq hv

/-- The last version that is written. -/
theorem last_version {version : Nat} (h : version ≤ head_version) :
    (List.range' (version + 1) (head_version - version)).getLast?.getD version = head_version := by
  match version, h with
  | 0, _ | 1, _ | 2, _ | 3, _ | 4, _ => rfl

/-- The commit is that of all upgrades at once. -/
theorem Deployment.Good.commit {version : Nat} (hversion : version ≤ head_version)
    {s : Deployment} {txn : Transaction} (h : s.Good version) (hlock : s.lock = some txn)
    (htodo : txn.todo = []) :
    AtRevision (Dass.revision head_version) (txn.sees s.db) ∧
      txn.stamped.getLast?.getD s.version = head_version ∧
      s.upgraded ++ txn.stamped = List.range' (version + 1) (head_version - version) := by
  have hle := h.le hversion
  obtain ⟨hstamped, now, hrun⟩ := (h.transaction txn hlock).complete hle htodo
  refine ⟨?_, ?_, ?_⟩
  · have htake : ((upgrades now).drop s.version).take (head_version - s.version) =
        (upgrades now).drop s.version :=
      List.take_of_length_le (by rw [List.length_drop]; exact Nat.le_refl _)
    rw [← htake] at hrun
    have hrevision := AtRevision.upgrade (head_version - s.version) h.revision hrun
    rwa [Nat.add_sub_cancel' hle] at hrevision
  · rw [hstamped]
    exact last_version hle
  · rcases h.once with ⟨hnone, hv⟩ | ⟨hall, hv⟩
    · rw [hnone, hstamped, hv, List.nil_append]
    · rw [hall, hstamped, hv, Nat.sub_self, List.range'_zero, List.append_nil]

theorem Deployment.Good.step {version : Nat} (hversion : version ≤ head_version) {s s' : Deployment}
    {l : Deployment.Label} (h : s.Good version) (hstep : Deployment.Step s l s') :
    s'.Good version := by
  -- a replica that does not serve
  have other : ∀ {p : Replica} {phase : Option Startup}, phase ≠ some .serving →
      ∀ q, Function.update s.replicas p phase q = some .serving → s.version = head_version := by
    intro p phase hphase q hq
    by_cases hqp : q = p
    · rw [hqp, Function.update_self] at hq
      exact absurd hq hphase
    · rw [Function.update_of_ne hqp] at hq
      exact h.serving q hq
  cases hstep with
  | start => exact ⟨h.revision, h.once, fun txn ht => ⟨(h.transaction txn ht).run⟩, other nofun⟩
  | @lock p now =>
      refine ⟨h.revision, h.once, ?_, other nofun⟩
      rintro txn ⟨⟩
      exact ⟨now, [], rfl, rfl, fun _ ho => absurd ho List.not_mem_nil,
        congrArg Except.ok overlay_self.symm⟩
  | ddl hlock htodo hok =>
      refine ⟨h.revision, h.once, ?_, h.serving⟩
      rintro txn ⟨⟩
      exact (h.transaction _ hlock).ddl htodo hok
  | stamp hlock htodo =>
      refine ⟨h.revision, h.once, ?_, h.serving⟩
      rintro txn ⟨⟩
      exact (h.transaction _ hlock).stamp htodo
  | commit hlock htodo =>
      obtain ⟨hrevision, hlast, hall⟩ := h.commit hversion hlock htodo
      refine ⟨?_, .inr ⟨hall, hlast⟩, nofun, fun _ _ => hlast⟩
      dsimp only
      rwa [hlast]
  | rollback => exact ⟨h.revision, h.once, nofun, other nofun⟩
  | stop => exact ⟨h.revision, h.once, fun txn ht => ⟨(h.transaction txn ht).run⟩, other nofun⟩
  | @write table rel rel' hrel hschema hfree =>
      refine ⟨?_, h.once, fun txn ht => ?_, h.serving⟩
      · exact AtRevision.write h.revision hrel hschema
      · refine (h.transaction txn ht).write fun t hmem => Function.update_of_ne ?_ _ _
        rintro rfl
        exact hfree txn ht hmem

theorem Deployment.Good.run {version : Nat} (hversion : version ≤ head_version) {s s' : Deployment}
    (h : Run Deployment.Step Any s s') (hs : s.Good version) : s'.Good version :=
  h.invariant (fun hgood _ hstep => hgood.step hversion hstep) hs

/-! ## Exactly once -/

/-- The replica that has the lock comes to the server, if it is left to itself. -/
theorem Transaction.Good.finishes {s : Deployment} {txn : Transaction} (hlock : s.lock = some txn)
    (h : txn.Good s) (hversion : s.version ≤ head_version)
    (hup : ∀ now, Upgradable now s.version s.db) :
    ∃ t, Run Deployment.Step Any s t ∧ t.replicas txn.replica = some .serving := by
  induction htodo : txn.todo generalizing s txn with
  | nil => exact ⟨_, .single trivial (.commit hlock htodo), Function.update_self _ _ _⟩
  | cons statement todo ih =>
      cases statement with
      | stamp version =>
          obtain ⟨t, hrun, hserving⟩ := ih rfl (h.stamp htodo) hversion hup rfl
          exact ⟨t, (Run.single trivial (.stamp hlock htodo)).trans hrun, hserving⟩
      | ddl tables op =>
          cases hop : op (txn.sees s.db) with
          | error e =>
              obtain ⟨now, hnot⟩ := h.refused hversion htodo hop
              exact absurd (hup now) hnot
          | ok own =>
              obtain ⟨t, hrun, hserving⟩ := ih rfl (h.ddl htodo hop) hversion hup rfl
              exact ⟨t, (Run.single trivial (.ddl hlock htodo hop)).trans hrun, hserving⟩

/-- What is so of replicas that began at a version. -/
structure Deployment.UpgradedOnce (version : Nat) (s : Deployment) : Prop where
  /-- the schema is that of the version -/
  schema : AtRevision (Dass.revision s.version) s.db
  /-- no upgrade has been committed, or each has once and in order -/
  once : s.upgraded = [] ∧ s.version = version ∨
    s.upgraded = List.range' (version + 1) (head_version - version) ∧ s.version = head_version
  /-- a replica serves at the head alone -/
  serving : ∀ p, s.replicas p = some .serving → s.version = head_version
  /-- the rows are those that the upgrades make of the rows of the moment -/
  serial : ∀ t, Deployment.Step s .commit t →
    ∃ now, run ((upgrades now).drop s.version).flatten s.db = .ok t.db
  /-- an operation is refused where `0003` is ahead and there is a task, and there alone -/
  refused : ∀ txn tables op todo error, s.lock = some txn → txn.todo = .ddl tables op :: todo →
    op (txn.sees s.db) = .error error → s.version ≤ 2 ∧ HasTask s.db
  /-- … where nothing is committed -/
  blocked : s.version ≤ 2 → HasTask s.db → ∀ t, ¬ Deployment.Step s .commit t
  /-- elsewhere the replica that has the lock can come to the server -/
  finishes : ∀ txn, s.lock = some txn → ¬ (s.version ≤ 2 ∧ HasTask s.db) →
    ∃ t, Run Deployment.Step Any s t ∧ t.replicas txn.replica = some .serving

/-- **Replicas that start at once upgrade the schema once.**  For every database at a revision,
in every run of any number of replicas that start, upgrade and stop at any point, with other clients
writing rows: the schema is that of its version, which is the one at the beginning or the head;
every upgrade is committed at most once, all of them in one commit; what is committed is what the
upgrades make of the rows of that moment; and a replica serves after that alone.  An operation is
refused only where `0003` is ahead and there is a task, and while that is so no replica can commit;
elsewhere the one with the lock comes to the server, if it is left to itself. -/
theorem upgraded_once {version : Nat} (hversion : version ≤ head_version) {db : Database Cell}
    (hdb : AtRevision (revision version) db) {s : Deployment}
    (h : Run Deployment.Step Any (Deployment.start db version) s) :
    s.UpgradedOnce version := by
  have hgood := (Deployment.start_good hdb).run hversion h
  have hle := hgood.le hversion
  have hup : ∀ now, Upgradable now s.version s.db ↔ ¬ (s.version ≤ 2 ∧ HasTask s.db) :=
    fun now => upgradable_iff_no_task now hle hgood.revision
  have serial : ∀ t, Deployment.Step s .commit t →
      ∃ now, run ((upgrades now).drop s.version).flatten s.db = .ok t.db := by
    rintro t ⟨⟩
    next txn hlock htodo => exact ((hgood.transaction txn hlock).complete hle htodo).2
  refine ⟨hgood.revision, hgood.once, hgood.serving, serial, ?_, ?_, ?_⟩
  · intro txn tables op todo error hlock htodo hop
    obtain ⟨now, hnot⟩ := (hgood.transaction txn hlock).refused hle htodo hop
    exact not_not.mp fun hfree => hnot ((hup now).mpr hfree)
  · intro hv htask t hstep
    obtain ⟨now, hrun⟩ := serial t hstep
    exact (hup now).mp ⟨t.db, hrun⟩ ⟨hv, htask⟩
  · intro txn hlock hfree
    exact (hgood.transaction txn hlock).finishes hlock hle fun now => (hup now).mpr hfree

/-- Two replicas start before `0004`, and the one that gets the lock comes to the server. -/
theorem upgraded_once_of_two : ∃ s, Deployment.UpgradedOnce 3 s ∧
    s.replicas 0 = some .serving ∧ s.version = 4 ∧ s.upgraded = [4] := by
  have hdb : AtRevision (revision 3) example_0003 :=
    AtRevision.insert (AtRevision.insert (fun _ => rfl) _ _) _ _
  have hfirst : Deployment.Step (.start example_0003 3) (.start 0) _ := .start (.time 0) rfl
  have hlock := ((Run.single (C := Any) trivial hfirst).snoc (l := Deployment.Label.start 1) trivial
    (Deployment.Step.start (.time 1) rfl)).snoc (l := Deployment.Label.lock 0) trivial
      (Deployment.Step.lock rfl rfl)
  have hgood := (Deployment.start_good hdb).run (by decide) hlock
  obtain ⟨s, hrun, hserving⟩ := (hgood.transaction _ rfl).finishes rfl (by decide) fun now =>
    upgradable_3 now hdb
  have honce := upgraded_once (by decide) hdb (hlock.trans hrun)
  have hversion := honce.serving 0 hserving
  refine ⟨s, honce, hserving, hversion, ?_⟩
  rcases honce.once with ⟨-, hv⟩ | ⟨hall, -⟩
  · exact absurd (hv.symm.trans hversion) (by decide)
  · exact hall

end Dass
