/-
# `Dass.Migrations` — from `next_job_id` to `job_dependencies`

The upgrades under `backend/alembic/versions`, each a list of operations as its `upgrade` makes
them.  A database at a revision has the tables that the upgrades up to it make, and any rows.

`0003` adds `tasks.processed_for_chaining`, which must have a value and has no default, and `0004`
puts the table `job_dependencies` in the place of `jobs.next_job_id`, and copies nothing.  So the
one succeeds where there are no tasks, and the other keeps the dependencies where there are none
(`upgrades_iff`).  The jobs and the tasks themselves are kept by both.
-/
import Dass.Lib.Ddl
import Dass.Models

namespace Dass

open Ddl

/-! ## The upgrades -/

/-- A value in a column. -/
inductive Cell where
  | text (value : String)
  | int (value : Int)
  | bool (value : Bool)
  | time (value : Int)
  | json (value : Json)
deriving DecidableEq

/-- `0001_initial`. -/
def upgrade_0001 (now : Cell) : List (Operation Cell) :=
  [create_table "jobs"
    [⟨"id", "VARCHAR(36)", false, none⟩,
      ⟨"name", "VARCHAR(255)", false, none⟩,
      ⟨"cron_expression", "VARCHAR(255)", false, none⟩,
      ⟨"action_type", "VARCHAR(32)", false, none⟩,
      ⟨"action_config", "JSONB", false, none⟩,
      ⟨"enabled", "BOOLEAN", false, some (.const (.bool true))⟩,
      ⟨"concurrency_policy", "VARCHAR(32)", false, none⟩,
      ⟨"max_retries", "INTEGER", false, some (.const (.int 0))⟩,
      ⟨"next_fire_at", "TIMESTAMP WITH TIME ZONE", false, none⟩,
      ⟨"created_at", "TIMESTAMP WITH TIME ZONE", false, some .now⟩,
      ⟨"updated_at", "TIMESTAMP WITH TIME ZONE", false, some .now⟩]
    [("jobs_pkey", .primary_key ["id"]), ("uq_jobs_name", .unique ["name"])],
  create_table "tasks"
    [⟨"id", "VARCHAR(36)", false, none⟩,
      ⟨"job_id", "VARCHAR(36)", false, none⟩,
      ⟨"status", "VARCHAR(32)", false, none⟩,
      ⟨"trigger_type", "VARCHAR(32)", false, none⟩,
      ⟨"retry_count", "INTEGER", false, some (.const (.int 0))⟩,
      ⟨"locked_by", "VARCHAR(255)", true, none⟩,
      ⟨"locked_until", "TIMESTAMP WITH TIME ZONE", true, none⟩,
      ⟨"started_at", "TIMESTAMP WITH TIME ZONE", true, none⟩,
      ⟨"finished_at", "TIMESTAMP WITH TIME ZONE", true, none⟩,
      ⟨"stdout", "TEXT", true, none⟩,
      ⟨"stderr", "TEXT", true, none⟩,
      ⟨"created_at", "TIMESTAMP WITH TIME ZONE", false, some .now⟩]
    [("tasks_pkey", .primary_key ["id"]),
      ("tasks_job_id_fkey", .foreign_key "job_id" "jobs" "id" "CASCADE")],
  create_index "ix_jobs_next_fire_at" "jobs" ["next_fire_at"],
  create_index "ix_jobs_enabled" "jobs" ["enabled"],
  create_index "ix_tasks_job_id" "tasks" ["job_id"],
  create_index "ix_tasks_status" "tasks" ["status"],
  create_index "ix_tasks_locked_until_running" "tasks" ["locked_until"],
  add_column now "jobs" ⟨"job_type", "VARCHAR(32)", false, none⟩,
  set_nullable "jobs" "cron_expression",
  set_nullable "jobs" "next_fire_at",
  create_index "ix_jobs_job_type" "jobs" ["job_type"]]

/-- `0002_job_runtime_spec`. -/
def upgrade_0002 (now : Cell) : List (Operation Cell) :=
  [add_column now "jobs" ⟨"runtime_spec", "JSONB", true, none⟩]

/-- `abbdadda1485`. -/
def upgrade_0003 (now : Cell) : List (Operation Cell) :=
  [add_column now "jobs" ⟨"next_job_id", "VARCHAR(36)", true, none⟩,
  drop_index "ix_jobs_enabled" "jobs",
  create_foreign_key "jobs" "jobs" "next_job_id" "id" "SET NULL",
  add_column now "tasks" ⟨"processed_for_chaining", "BOOLEAN", false, none⟩]

/-- `447fbff8c51d`. -/
def upgrade_0004 : List (Operation Cell) :=
  [create_table "job_dependencies"
    [⟨"upstream_job_id", "VARCHAR(36)", false, none⟩,
      ⟨"downstream_job_id", "VARCHAR(36)", false, none⟩]
    [("job_dependencies_downstream_job_id_fkey",
        .foreign_key "downstream_job_id" "jobs" "id" "CASCADE"),
      ("job_dependencies_upstream_job_id_fkey",
        .foreign_key "upstream_job_id" "jobs" "id" "CASCADE"),
      ("job_dependencies_pkey", .primary_key ["upstream_job_id", "downstream_job_id"])],
  drop_constraint "jobs_next_job_id_fkey" "jobs",
  drop_column "jobs" "next_job_id"]

/-- The upgrades up to `0002_job_runtime_spec`; the time of an upgrade of no rows is no matter. -/
def revision_0002 : List (Operation Cell) := upgrade_0001 (.time 0) ++ upgrade_0002 (.time 0)

/-- The upgrades up to `abbdadda1485`. -/
def revision_0003 : List (Operation Cell) := revision_0002 ++ upgrade_0003 (.time 0)

/-! ## What is kept -/

/-- The upgrade to `abbdadda1485` succeeds and keeps the jobs and the tasks. -/
def Upgrades (now : Cell) (db : Database Cell) : Prop :=
  ∃ db', run (upgrade_0003 now) db = .ok db' ∧ KeepsRows "jobs" db db' ∧ KeepsRows "tasks" db db'

/-- `jobs.next_job_id` of a job. -/
def HasNext (db : Database Cell) (job next : Cell) : Prop :=
  ∃ jobs, db "jobs" = some jobs ∧
    ∃ row ∈ jobs.rows, row "id" = some job ∧ row "next_job_id" = some next

/-- A row of `job_dependencies`. -/
def DependencyRow (db : Database Cell) (upstream downstream : Cell) : Prop :=
  ∃ edges, db "job_dependencies" = some edges ∧
    ∃ row ∈ edges.rows, row "upstream_job_id" = some upstream ∧
      row "downstream_job_id" = some downstream

/-- The upgrade to `447fbff8c51d` succeeds, keeps the jobs and the tasks, and makes an edge of every
`next_job_id`, and no others. -/
def UpgradesChains (db : Database Cell) : Prop :=
  ∃ db', run upgrade_0004 db = .ok db' ∧ KeepsRows "jobs" db db' ∧ KeepsRows "tasks" db db' ∧
    ∀ job next, DependencyRow db' job next ↔ HasNext db job next

/-! ## `0003` -/

/-- `jobs` with the column that `0003` adds. -/
def with_next_job_id (schema : Schema Cell) : Schema Cell :=
  { schema with columns := schema.columns ++ [⟨"next_job_id", "VARCHAR(36)", true, none⟩] }

/-- What `0003` finds of `jobs`. -/
structure Jobs0002 (schema : Schema Cell) : Prop where
  not_chained : schema.has "next_job_id" = false
  index : schema.indexes.any (fun i => i.1 = "ix_jobs_enabled") = true
  column : (with_next_job_id schema).type_of "next_job_id" = some "VARCHAR(36)"
  key : (with_next_job_id schema).type_of "id" = some "VARCHAR(36)"

theorem AtRevision.jobs_0002 {db : Database Cell} (h : AtRevision revision_0002 db) :
    ∃ jobs, db "jobs" = some jobs ∧ Jobs0002 jobs.schema := by
  have hschema : ((created_by revision_0002 "jobs").map Relation.schema).any (fun schema =>
      decide (schema.has "next_job_id" = false) &&
        (schema.indexes.any (fun i => i.1 = "ix_jobs_enabled") &&
          (decide ((with_next_job_id schema).type_of "next_job_id" = some "VARCHAR(36)") &&
            decide ((with_next_job_id schema).type_of "id" = some "VARCHAR(36)")))) = true := by
    decide +kernel
  obtain ⟨jobs, hjobs, hp⟩ := h.relation hschema
  simp only [Bool.and_eq_true, decide_eq_true_eq] at hp
  exact ⟨jobs, hjobs, hp.1, hp.2.1, hp.2.2.1, hp.2.2.2⟩

theorem AtRevision.tasks_0002 {db : Database Cell} (h : AtRevision revision_0002 db) :
    ∃ tasks, db "tasks" = some tasks ∧ tasks.schema.has "processed_for_chaining" = false := by
  have hschema : ((created_by revision_0002 "tasks").map Relation.schema).any (fun schema =>
      decide (schema.has "processed_for_chaining" = false)) = true := by
    decide +kernel
  obtain ⟨tasks, htasks, hp⟩ := h.relation hschema
  exact ⟨tasks, htasks, of_decide_eq_true hp⟩

/-- What `0003` does before its last operation. -/
theorem run_0003 (now : Cell) {db : Database Cell} (h : AtRevision revision_0002 db) :
    ∃ jobs, run (upgrade_0003 now) db =
        run [add_column now "tasks" ⟨"processed_for_chaining", "BOOLEAN", false, none⟩]
          (Function.update db "jobs" (some jobs)) ∧
      ∀ db' : Database Cell, db' "jobs" = some jobs → KeepsRows "jobs" db db' := by
  obtain ⟨jobs, hjobs, hschema⟩ := AtRevision.jobs_0002 h
  obtain ⟨added, hadd, hadded, haddrows⟩ := add_column_ok now
    ⟨"next_job_id", "VARCHAR(36)", true, none⟩ hjobs hschema.not_chained (.inl rfl)
  have hindexes : added.schema.indexes = jobs.schema.indexes := by rw [hadded]
  obtain ⟨dropped, hdrop, hdropcols, hdroprows⟩ := drop_index_ok
    (Function.update_self "jobs" (some added) db) (hindexes.symm ▸ hschema.index)
  have hcolumns : dropped.schema.columns = (with_next_job_id jobs.schema).columns :=
    hdropcols.trans (congrArg Schema.columns hadded)
  have htype : ∀ column, dropped.schema.type_of column =
      (with_next_job_id jobs.schema).type_of column := by
    intro column
    rw [Schema.type_of, Schema.type_of, hcolumns]
  have hnull : ∀ row ∈ dropped.rows, row "next_job_id" = none := by
    intro row hrow
    rw [hdroprows, haddrows] at hrow
    obtain ⟨old, -, rfl⟩ := List.mem_map.mp hrow
    exact Function.update_self _ _ _
  have hdropped : Function.update (Function.update db "jobs" (some added)) "jobs" (some dropped)
      "jobs" = some dropped := Function.update_self _ _ _
  obtain ⟨keyed, hkey, -, hkeyrows⟩ := create_foreign_key_ok "SET NULL" hdropped hdropped
    ((htype _).trans hschema.column) ((htype _).trans hschema.key) hnull
  refine ⟨keyed, ?_, fun db' hdb' => ?_⟩
  · rw [upgrade_0003, run_cons_ok hadd, run_cons_ok hdrop, run_cons_ok hkey,
      Function.update_idem, Function.update_idem]
  · exact keepsRows_of_update hjobs hdb' (.inl hschema.not_chained)
      (hkeyrows.trans (hdroprows.trans haddrows))

/-- `0003` succeeds if and only if there are no tasks. -/
theorem upgrades_0003_iff (now : Cell) {db : Database Cell} (h : AtRevision revision_0002 db) :
    Upgrades now db ↔ ∀ tasks, db "tasks" = some tasks → tasks.rows = [] := by
  obtain ⟨jobs, hrun, hkeeps⟩ := run_0003 now h
  obtain ⟨tasks, htasks, hnew⟩ := AtRevision.tasks_0002 h
  have htasks' : Function.update db "jobs" (some jobs) "tasks" = some tasks := by
    rw [Function.update_of_ne (by decide), htasks]
  constructor
  · rintro ⟨db', hok, -, -⟩ rel hrel
    obtain rfl := Option.some.inj (htasks.symm.trans hrel)
    by_contra hrows
    rw [hrun, run_cons_error (add_column_error now _ htasks' hnew rfl rfl hrows)] at hok
    cases hok
  · intro hempty
    obtain ⟨added, hadd, -, haddrows⟩ := add_column_ok now
      ⟨"processed_for_chaining", "BOOLEAN", false, none⟩ htasks' hnew
      (.inr (.inr (List.isEmpty_iff.mpr (hempty tasks htasks))))
    refine ⟨_, hrun.trans (run_cons_ok hadd), hkeeps _ ?_, ?_⟩
    · rw [Function.update_of_ne (by decide), Function.update_self]
    · exact keepsRows_of_update htasks (Function.update_self _ _ _) (.inl hnew) haddrows

/-! ## `0004` -/

/-- What `0004` finds of `jobs`. -/
structure Jobs0003 (schema : Schema Cell) : Prop where
  chained : schema.has "next_job_id" = true
  constraint : schema.constraints.any (fun c => c.1 = "jobs_next_job_id_fkey") = true
  key : schema.columns.any (fun col => col.name = "id" && !col.nullable) = true

theorem AtRevision.jobs_0003 {db : Database Cell} (h : AtRevision revision_0003 db) :
    ∃ jobs, db "jobs" = some jobs ∧ Jobs0003 jobs.schema := by
  have hschema : ((created_by revision_0003 "jobs").map Relation.schema).any (fun schema =>
      schema.has "next_job_id" &&
        (schema.constraints.any (fun c => c.1 = "jobs_next_job_id_fkey") &&
          schema.columns.any (fun col => col.name = "id" && !col.nullable))) = true := by
    decide +kernel
  obtain ⟨jobs, hjobs, hp⟩ := h.relation hschema
  simp only [Bool.and_eq_true] at hp
  exact ⟨jobs, hjobs, hp.1, hp.2.1, by simpa using hp.2.2⟩

theorem AtRevision.others_0003 {db : Database Cell} (h : AtRevision revision_0003 db) :
    db "job_dependencies" = none ∧ ∃ tasks, db "tasks" = some tasks := by
  constructor
  · have hnone : created_by revision_0003 "job_dependencies" = none := by
      rw [← Option.isNone_iff_eq_none]
      decide +kernel
    have hschema := h "job_dependencies"
    rw [hnone] at hschema
    exact Option.map_eq_none_iff.mp hschema
  · have htable : ((created_by revision_0003 "tasks").map Relation.schema).any
        (fun _ => true) = true := by
      decide +kernel
    obtain ⟨tasks, htasks, -⟩ := h.relation htable
    exact ⟨tasks, htasks⟩

/-- `0004` succeeds, keeps the rows, and makes no edges. -/
theorem run_0004 {db : Database Cell} (h : AtRevision revision_0003 db) :
    ∃ db', run upgrade_0004 db = .ok db' ∧ KeepsRows "jobs" db db' ∧ KeepsRows "tasks" db db' ∧
      ∀ job next, ¬ DependencyRow db' job next := by
  obtain ⟨jobs, hjobs, hschema⟩ := AtRevision.jobs_0003 h
  obtain ⟨hnew, tasks, htasks⟩ := AtRevision.others_0003 h
  obtain ⟨edges, hcreate, hedges⟩ := create_table_ok
    [⟨"upstream_job_id", "VARCHAR(36)", false, none⟩,
      ⟨"downstream_job_id", "VARCHAR(36)", false, none⟩]
    [("job_dependencies_downstream_job_id_fkey",
        .foreign_key "downstream_job_id" "jobs" "id" "CASCADE"),
      ("job_dependencies_upstream_job_id_fkey",
        .foreign_key "upstream_job_id" "jobs" "id" "CASCADE"),
      ("job_dependencies_pkey", .primary_key ["upstream_job_id", "downstream_job_id"])] hnew
  have hjobs' : Function.update db "job_dependencies" (some edges) "jobs" = some jobs := by
    rw [Function.update_of_ne (by decide), hjobs]
  obtain ⟨free, hfree, hfreecols, hfreerows⟩ := drop_constraint_ok hjobs' hschema.constraint
  have hhas : free.schema.has "next_job_id" = true := by
    rw [Schema.has, hfreecols]
    exact hschema.chained
  have hfree' : Function.update (Function.update db "job_dependencies" (some edges)) "jobs"
      (some free) "jobs" = some free := Function.update_self _ _ _
  obtain ⟨dropped, hdrop, hdropcols, hdroprows⟩ := drop_column_ok hfree' hhas
  refine ⟨_, (run_cons_ok hcreate).trans ((run_cons_ok hfree).trans (run_cons_ok hdrop)), ?_, ?_,
    ?_⟩
  · rw [hfreerows] at hdroprows
    refine keepsRows_of_update hjobs (Function.update_self _ _ _) (.inr ?_) hdroprows
    rw [Schema.has, hdropcols, List.any_eq_false]
    intro col hcol hname
    exact of_decide_eq_true (List.mem_filter.mp hcol).2 (of_decide_eq_true hname)
  · refine keepsRows_of_rows htasks ?_ rfl
    rw [Function.update_of_ne (by decide), Function.update_of_ne (by decide),
      Function.update_of_ne (by decide), htasks]
  · rintro job next ⟨rel, hrel, row, hrow, -⟩
    rw [Function.update_of_ne (by decide), Function.update_of_ne (by decide),
      Function.update_self] at hrel
    obtain rfl := Option.some.inj hrel
    rw [hedges] at hrow
    exact List.not_mem_nil hrow

/-- `0004` makes the edges if and only if there are none to make. -/
theorem upgrades_0004_iff {db : Database Cell} (h : AtRevision revision_0003 db) :
    UpgradesChains db ↔ ∀ jobs, db "jobs" = some jobs →
      ∀ row ∈ jobs.rows, row "next_job_id" = none := by
  obtain ⟨db', hrun, hjobs, htasks, hnone⟩ := run_0004 h
  constructor
  · rintro ⟨db'', hrun', -, -, hedges⟩ jobs hjobs row hrow
    obtain rfl := Except.ok.inj (hrun.symm.trans hrun')
    obtain ⟨rel, hrel, hschema⟩ := AtRevision.jobs_0003 h
    obtain rfl := Option.some.inj (hrel.symm.trans hjobs)
    -- the key of a job has a value
    obtain ⟨col, hcol, hid⟩ := List.any_eq_true.mp hschema.key
    obtain ⟨hname, hnullable⟩ := Bool.and_eq_true_iff.mp hid
    obtain ⟨job, hjob⟩ := Option.ne_none_iff_exists'.mp
      (rel.not_null row hrow col hcol (by simpa using hnullable))
    rw [of_decide_eq_true hname] at hjob
    refine Option.eq_none_iff_forall_ne_some.mpr fun next hnext => hnone job next ?_
    exact (hedges job next).mpr ⟨rel, hrel, row, hrow, hjob, hnext⟩
  · intro hempty
    refine ⟨db', hrun, hjobs, htasks, fun job next => iff_of_false (hnone job next) ?_⟩
    rintro ⟨jobs, hjobs, row, hrow, -, hnext⟩
    rw [hempty jobs hjobs row hrow] at hnext
    cases hnext

/-- **When the upgrades keep what there is.**  For every database at `0002_job_runtime_spec`, the
upgrade to `abbdadda1485` succeeds and keeps the jobs and the tasks if and only if there are no
tasks.  For every one at `abbdadda1485`, the upgrade to `447fbff8c51d` succeeds, keeps the jobs and
the tasks, and makes the edge of every `next_job_id` and no others, if and only if no job has
one. -/
theorem upgrades_iff (now : Cell) :
    (∀ db, AtRevision revision_0002 db →
      (Upgrades now db ↔ ∀ tasks, db "tasks" = some tasks → tasks.rows = [])) ∧
    (∀ db, AtRevision revision_0003 db →
      (UpgradesChains db ↔ ∀ jobs, db "jobs" = some jobs →
        ∀ row ∈ jobs.rows, row "next_job_id" = none)) :=
  ⟨fun _ h => upgrades_0003_iff now h, fun _ h => upgrades_0004_iff h⟩

/-- A job, with the `next_job_id` given. -/
def example_job (id name : String) (next_job_id : Option Cell) : Row Cell := fun column =>
  if column = "next_job_id" then next_job_id else
    [("id", Cell.text id), ("name", .text name), ("cron_expression", .text "0 3 * * *"),
      ("action_type", .text "shell"), ("action_config", .json (.obj .nil)),
      ("enabled", .bool true), ("concurrency_policy", .text "allow"), ("max_retries", .int 0),
      ("created_at", .time 0), ("updated_at", .time 0), ("job_type", .text "scheduled")].lookup
    column

/-- A task of a job that succeeded. -/
def example_task (id job_id : String) : Row Cell := fun column =>
  [("id", Cell.text id), ("job_id", .text job_id), ("status", .text "success"),
    ("trigger_type", .text "scheduled"), ("retry_count", .int 0), ("created_at", .time 0)].lookup
  column

/-- Two jobs that have not run, before `0003`. -/
def example_not_run : Database Cell :=
  ((created_by revision_0002).insert "jobs" (example_job "b" "load" none)).insert "jobs"
    (example_job "a" "extract" none)

/-- Two jobs with a task each and no next job, before `0004`. -/
def example_not_chained : Database Cell :=
  ((((created_by revision_0003).insert "jobs" (example_job "b" "load" none)).insert "jobs"
    (example_job "a" "extract" none)).insert "tasks"
      (Function.update (example_task "u" "b") "processed_for_chaining" (some (.bool true)))).insert
    "tasks" (Function.update (example_task "t" "a") "processed_for_chaining" (some (.bool true)))

/-- The upgrades of the two. -/
theorem upgrades_of_populated :
    ((example_not_run "jobs").any fun jobs => jobs.rows.length = 2) = true ∧
    Upgrades (.time 0) example_not_run ∧
    ((example_not_chained "jobs").any fun jobs => jobs.rows.length = 2) = true ∧
    ((example_not_chained "tasks").any fun tasks => tasks.rows.length = 2) = true ∧
    UpgradesChains example_not_chained := by
  have hat : AtRevision revision_0002 example_not_run :=
    AtRevision.insert (AtRevision.insert (fun _ => rfl) _ _) _ _
  have hat' : AtRevision revision_0003 example_not_chained :=
    AtRevision.insert (AtRevision.insert (AtRevision.insert
      (AtRevision.insert (fun _ => rfl) _ _) _ _) _ _) _ _
  refine ⟨by decide +kernel, ((upgrades_iff (.time 0)).1 _ hat).mpr fun tasks htasks => ?_,
    by decide +kernel, by decide +kernel,
    ((upgrades_iff (.time 0)).2 _ hat').mpr fun jobs hjobs row hrow => ?_⟩
  · have hrows : ((example_not_run "tasks").map Relation.rows).all List.isEmpty = true := by
      decide +kernel
    rw [htasks] at hrows
    exact List.isEmpty_iff.mp hrows
  · have hrows : ((example_not_chained "jobs").map Relation.rows).all (fun rows =>
        rows.all fun row => (row "next_job_id").isNone) = true := by
      decide +kernel
    rw [hjobs] at hrows
    exact Option.isNone_iff_eq_none.mp (List.all_eq_true.mp hrows row hrow)

/-- A job with a task, before `0003`. -/
def example_0002 : Database Cell :=
  ((created_by revision_0002).insert "jobs" (example_job "a" "extract" none)).insert "tasks"
    (example_task "t" "a")

/-- A job and the next one, before `0004`. -/
def example_0003 : Database Cell :=
  ((created_by revision_0003).insert "jobs" (example_job "b" "load" none)).insert "jobs"
    (example_job "a" "extract" (some (.text "b")))

/-- The one upgrade fails, and the other loses the dependency. -/
theorem upgrades_of_rows :
    (¬ ∀ db, AtRevision revision_0002 db → Upgrades (.time 0) db) ∧
      ¬ ∀ db, AtRevision revision_0003 db → UpgradesChains db := by
  constructor
  · intro hall
    obtain ⟨db', hrun, -⟩ := hall example_0002
      (AtRevision.insert (AtRevision.insert (fun _ => rfl) _ _) _ _)
    have herror : (run (upgrade_0003 (.time 0)) example_0002).toBool = false := by
      decide +kernel
    rw [hrun] at herror
    cases herror
  · intro hall
    have hjobs : ((example_0003 "jobs").map Relation.rows).any (fun rows =>
        rows.any fun row => decide (row "next_job_id" = some (.text "b"))) = true := by
      decide +kernel
    have hat : AtRevision revision_0003 example_0003 :=
      AtRevision.insert (AtRevision.insert (fun _ => rfl) _ _) _ _
    obtain ⟨jobs, hrel, -⟩ := AtRevision.jobs_0003 hat
    rw [hrel] at hjobs
    obtain ⟨row, hrow, hnext⟩ := List.any_eq_true.mp hjobs
    have hnone := (upgrades_0004_iff hat).mp (hall example_0003 hat) jobs hrel row hrow
    rw [of_decide_eq_true hnext] at hnone
    cases hnone

end Dass
