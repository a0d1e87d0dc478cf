/-
# `Dass.Downgrades` — there and back

The `downgrade` of each file under `backend/alembic/versions`, beside its `upgrade`.  A command
takes the database to another revision, in one transaction, over those between:

    migrate    `alembic upgrade` or `alembic downgrade` to a version
    refused    … where an operation is refused, and nothing is done
    write      a client writes to a table

Two of the downgrades undo their upgrade, up to what was in the columns and tables it has made.
The other two never go through: that of `abbdadda1485` drops a constraint by the name `None`, and
that of `0001_initial` drops its tables, and then an index of one of them.  So no way goes further
back than `abbdadda1485`, and each way between the last two revisions loses all dependencies
(`there_and_back`).
-/
import Dass.ConcurrentUpgrades
import Dass.Lib.DdlChanges

namespace Dass

open Ddl Lts

/-! ## The downgrades -/

/-- The tables that the upgrades make. -/
def made_tables : List String := ["jobs", "tasks", "job_dependencies"]

/-- `0001_initial`. -/
def downgrade_0001 : List (Operation Cell) :=
  [drop_index "ix_tasks_locked_until_running" "tasks",
  drop_index "ix_tasks_status" "tasks",
  drop_index "ix_tasks_job_id" "tasks",
  drop_index "ix_jobs_enabled" "jobs",
  drop_index "ix_jobs_next_fire_at" "jobs",
  drop_table made_tables "tasks",
  drop_table made_tables "jobs",
  drop_index "ix_jobs_job_type" "jobs",
  set_not_null "jobs" "next_fire_at",
  set_not_null "jobs" "cron_expression",
  drop_column "jobs" "job_type"]

/-- `0002_job_runtime_spec`. -/
def downgrade_0002 : List (Operation Cell) := [drop_column "jobs" "runtime_spec"]

/-- `abbdadda1485`. -/
def downgrade_0003 : List (Operation Cell) :=
  [drop_column "tasks" "processed_for_chaining",
  drop_unnamed_constraint "jobs",
  create_index "ix_jobs_enabled" "jobs" ["enabled"],
  drop_column "jobs" "next_job_id"]

/-- `447fbff8c51d`; the foreign key has the name that the server gives it. -/
def downgrade_0004 (now : Cell) : List (Operation Cell) :=
  [add_column now "jobs" ⟨"next_job_id", "VARCHAR(36)", true, none⟩,
  create_foreign_key "jobs" "jobs" "next_job_id" "id" "SET NULL",
  drop_table made_tables "job_dependencies"]

/-- The downgrades in the order of their revisions. -/
def downgrades (now : Cell) : List (List (Operation Cell)) :=
  [downgrade_0001, downgrade_0002, downgrade_0003, downgrade_0004 now]

/-- What `alembic upgrade` or `alembic downgrade` runs to come from a version to another one. -/
def alembic (now : Cell) (version target : Nat) : List (Operation Cell) :=
  if version ≤ target then (((upgrades now).drop version).take (target - version)).flatten
  else (((downgrades now).take version).drop target).reverse.flatten

/-! ## Commands -/

/-- A database, and the row of `alembic_version`. -/
structure Migrated where
  db : Database Cell
  version : Nat

inductive Migrated.Label where
  | migrate (target : Nat)
  | refused (target : Nat)
  | write (table : String)

inductive Migrated.Step : Migrated → Migrated.Label → Migrated → Prop
  | migrate {s : Migrated} {now target db'} : target ≤ head_version →
      run (alembic now s.version target) s.db = .ok db' →
      Migrated.Step s (.migrate target) ⟨db', target⟩
  | refused {s : Migrated} {now target error} : target ≤ head_version →
      run (alembic now s.version target) s.db = .error error →
      Migrated.Step s (.refused target) s
  | write {s : Migrated} {table rel rel'} : s.db table = some rel → rel'.schema = rel.schema →
      Migrated.Step s (.write table) { s with db := Function.update s.db table (some rel') }

/-- The ways between versions that there are, from a database. -/
def Migratable (version target : Nat) (db : Database Cell) : Prop :=
  version ≤ target ∧ ¬ (version ≤ 2 ∧ 3 ≤ target ∧ HasTask db) ∨
    version = 2 ∧ target = 1 ∨ version = 4 ∧ target = 3

/-! ## Ways up -/

section Up

variable {now : Cell} {version target : Nat} {db db' : Database Cell}

/-- The way to the head goes over the versions between. -/
theorem upgrades_split (h : version ≤ target) :
    ((upgrades now).drop version).flatten =
      (((upgrades now).drop version).take (target - version)).flatten ++
        ((upgrades now).drop target).flatten := by
  have hdrop : ((upgrades now).drop version).drop (target - version) =
      (upgrades now).drop target := by
    rw [List.drop_drop, Nat.add_sub_cancel' h]
  rw [← List.flatten_append, ← hdrop, List.take_append_drop]

theorem AtRevision.upgrade_to (hle : version ≤ target) (h : AtRevision (revision version) db)
    (hrun : run (((upgrades now).drop version).take (target - version)).flatten db = .ok db') :
    AtRevision (revision target) db' := by
  have hcount := AtRevision.upgrade (target - version) h hrun
  rwa [Nat.add_sub_cancel' hle] at hcount

/-- Up to `0002` there is always a way. -/
theorem upgrades_to_0002 (hle : version ≤ target) (htarget : target ≤ 2)
    (h : AtRevision (revision version) db) :
    ∃ db', run (((upgrades now).drop version).take (target - version)).flatten db = .ok db' := by
  match target, htarget, version, hle with
  | 0, _, 0, _ | 1, _, 1, _ | 2, _, 2, _ => exact ⟨db, rfl⟩
  | 1, _, 0, _ | 2, _, 0, _ =>
      obtain rfl : db = fun _ => none := funext fun table => Option.map_eq_none_iff.mp (h table)
      exact ⟨_, rfl⟩
  | 2, _, 1, _ =>
      obtain ⟨db', hrun, -⟩ := run_0002 now h
      refine ⟨db', ?_⟩
      change run (upgrade_0002 now ++ []) db = .ok db'
      rw [List.append_nil, hrun]

theorem upgrades_to_iff (hle : version ≤ target) (htarget : target ≤ head_version)
    (h : AtRevision (revision version) db) :
    (∃ db', run (((upgrades now).drop version).take (target - version)).flatten db = .ok db') ↔
      ¬ (version ≤ 2 ∧ 3 ≤ target ∧ HasTask db) := by
  have hhead := upgradable_iff_no_task now (Nat.le_trans hle htarget) h
  rw [Upgradable, upgrades_split hle, run_append] at hhead
  constructor
  · rintro ⟨db', hrun⟩ ⟨hversion, hthree, htask⟩
    have hrest : Upgradable now target db' :=
      (upgradable_iff_no_task now htarget (AtRevision.upgrade_to hle h hrun)).mpr fun hfew => by
        omega
    rw [hrun] at hhead
    exact hhead.mp hrest ⟨hversion, htask⟩
  · intro hfree
    by_cases hthree : 3 ≤ target
    · obtain ⟨db', hall⟩ := hhead.mpr fun hfew => hfree ⟨hfew.1, hthree, hfew.2⟩
      cases hrun : run (((upgrades now).drop version).take (target - version)).flatten db with
      | ok mid => exact ⟨mid, rfl⟩
      | error e =>
          rw [hrun] at hall
          cases hall
    · exact upgrades_to_0002 hle (by omega) h

end Up

/-! ## Ways down -/

section Down

variable {now : Cell} {version target : Nat} {db db' : Database Cell}

/-- A table that has been dropped has no index to drop. -/
theorem downgrade_0001_refused (before : List (Operation Cell)) (db : Database Cell) :
    (run (before ++ downgrade_0001) db).toBool = false := by
  have hdropped : downgrade_0001 = downgrade_0001.take 7 ++
      drop_index "ix_jobs_job_type" "jobs" :: downgrade_0001.drop 8 := rfl
  rw [hdropped, ← List.append_assoc]
  refine run_refused (fun db db' hrun => ?_) db
  have htake : downgrade_0001.take 7 = downgrade_0001.take 6 ++ [drop_table made_tables "jobs"] :=
    rfl
  rw [htake, ← List.append_assoc, run_append] at hrun
  cases hmid : run (before ++ downgrade_0001.take 6) db with
  | error e =>
      rw [hmid] at hrun
      cases hrun
  | ok mid =>
      rw [hmid] at hrun
      change (drop_table made_tables "jobs" mid).bind (run []) = .ok db' at hrun
      cases hdrop : drop_table made_tables "jobs" mid with
      | error e =>
          rw [hdrop] at hrun
          cases hrun
      | ok rest =>
          rw [hdrop] at hrun
          obtain rfl : rest = db' := Except.ok.inj hrun
          rw [drop_table_eq_ok hdrop, drop_index, alter, Function.update_self]
          rfl

theorem downgrade_0003_refused (before after : List (Operation Cell)) (db : Database Cell) :
    (run (before ++ downgrade_0003 ++ after) db).toBool = false := by
  have hunnamed : before ++ downgrade_0003 ++ after =
      (before ++ [drop_column "tasks" "processed_for_chaining"]) ++
        drop_unnamed_constraint "jobs" :: (downgrade_0003.drop 2 ++ after) := by
    simp [downgrade_0003]
  rw [hunnamed]
  exact run_refused (fun _ _ _ => rfl) db

/-- From `0002` the column goes. -/
theorem run_downgrade_0002 (h : AtRevision (revision 2) db) :
    ∃ db', run downgrade_0002 db = .ok db' := by
  have hjobs : ((created_by (revision 2) "jobs").map Relation.schema).any (fun schema =>
      schema.has "runtime_spec") = true := by
    decide +kernel
  obtain ⟨jobs, hrel, hhas⟩ := h.relation hjobs
  obtain ⟨dropped, hdrop, -⟩ := drop_column_ok hrel hhas
  exact ⟨_, run_cons_ok hdrop⟩

/-- What the downgrade of `447fbff8c51d` finds of `jobs`. -/
structure Jobs0004 (schema : Schema Cell) : Prop where
  not_chained : schema.has "next_job_id" = false
  column : (with_next_job_id schema).type_of "next_job_id" = some "VARCHAR(36)"
  key : (with_next_job_id schema).type_of "id" = some "VARCHAR(36)"

theorem AtRevision.jobs_0004 (h : AtRevision (revision 4) db) :
    ∃ jobs, db "jobs" = some jobs ∧ Jobs0004 jobs.schema := by
  have hschema : ((created_by (revision 4) "jobs").map Relation.schema).any (fun schema =>
      decide (schema.has "next_job_id" = false) &&
        (decide ((with_next_job_id schema).type_of "next_job_id" = some "VARCHAR(36)") &&
          decide ((with_next_job_id schema).type_of "id" = some "VARCHAR(36)"))) = true := by
    decide +kernel
  obtain ⟨jobs, hjobs, hp⟩ := h.relation hschema
  simp only [Bool.and_eq_true, decide_eq_true_eq] at hp
  exact ⟨jobs, hjobs, hp.1, hp.2.1, hp.2.2⟩

/-- From the head the edges go, and the column comes back. -/
theorem run_downgrade_0004 (now : Cell) (h : AtRevision (revision 4) db) :
    ∃ db', run (downgrade_0004 now) db = .ok db' := by
  obtain ⟨jobs, hjobs, hschema⟩ := AtRevision.jobs_0004 h
  obtain ⟨added, hadd, hadded, haddrows⟩ := add_column_ok now
    ⟨"next_job_id", "VARCHAR(36)", true, none⟩ hjobs hschema.not_chained (.inl rfl)
  have hnull : ∀ row ∈ added.rows, row "next_job_id" = none := by
    intro row hrow
    rw [haddrows] at hrow
    obtain ⟨old, -, rfl⟩ := List.mem_map.mp hrow
    exact Function.update_self _ _ _
  have hadded' : Function.update db "jobs" (some added) "jobs" = some added :=
    Function.update_self _ _ _
  have htype : ∀ column, added.schema.type_of column =
      (with_next_job_id jobs.schema).type_of column := by
    intro column
    rw [hadded]
    rfl
  obtain ⟨keyed, hkey, -, -⟩ := create_foreign_key_ok "SET NULL" hadded' hadded'
    ((htype _).trans hschema.column) ((htype _).trans hschema.key) hnull
  -- the tables are now those of a revision, and none of them refers to the edges
  have hmid : AtRevision (revision 4 ++ (downgrade_0004 (.time 0)).take 2)
      (Function.update (Function.update db "jobs" (some added)) "jobs" (some keyed)) :=
    AtRevision.run h (.cons (add_column_sameSchemas now _ _)
      (.cons (create_foreign_key_sameSchemas _ _ _ _) .nil)) (by decide +kernel)
      ((run_cons_ok hadd).trans (run_cons_ok hkey))
  have hedges : ((created_by (revision 4 ++ (downgrade_0004 (.time 0)).take 2)
      "job_dependencies").map Relation.schema).any (fun _ => true) = true := by
    decide +kernel
  obtain ⟨edges, hrel, -⟩ := hmid.relation hedges
  have hfree := hmid.referred.trans (show referred made_tables
    (created_by (revision 4 ++ (downgrade_0004 (.time 0)).take 2)) "job_dependencies" = false by
      decide +kernel)
  exact ⟨_, (run_cons_ok hadd).trans ((run_cons_ok hkey).trans
    (run_cons_ok (drop_table_ok hrel hfree)))⟩

variable (now) in
/-- A way down that goes over another downgrade is refused. -/
theorem alembic_down_refused (hversion : version ≤ head_version) (hlt : target < version)
    (hfar : ¬ (version = 2 ∧ target = 1 ∨ version = 4 ∧ target = 3)) (db : Database Cell) :
    (run (alembic now version target) db).toBool = false := by
  match version, hversion, target, hlt with
  | 1, _, 0, _ => exact downgrade_0001_refused [] db
  | 2, _, 0, _ => exact downgrade_0001_refused downgrade_0002 db
  | 2, _, 1, _ => exact absurd (.inl ⟨rfl, rfl⟩) hfar
  | 3, _, 0, _ => exact downgrade_0003_refused [] (downgrade_0002 ++ downgrade_0001) db
  | 3, _, 1, _ => exact downgrade_0003_refused [] downgrade_0002 db
  | 3, _, 2, _ => exact downgrade_0003_refused [] [] db
  | 4, _, 0, _ =>
      exact downgrade_0003_refused (downgrade_0004 now) (downgrade_0002 ++ downgrade_0001) db
  | 4, _, 1, _ => exact downgrade_0003_refused (downgrade_0004 now) downgrade_0002 db
  | 4, _, 2, _ => exact downgrade_0003_refused (downgrade_0004 now) [] db
  | 4, _, 3, _ => exact absurd (.inr ⟨rfl, rfl⟩) hfar

variable (now) in
/-- There is a way exactly where it says so. -/
theorem alembic_iff (hversion : version ≤ head_version) (htarget : target ≤ head_version)
    (h : AtRevision (revision version) db) :
    (∃ db', run (alembic now version target) db = .ok db') ↔ Migratable version target db := by
  by_cases hle : version ≤ target
  · rw [alembic, if_pos hle, upgrades_to_iff hle htarget h]
    constructor
    · exact fun hfree => .inl ⟨hle, hfree⟩
    · rintro (⟨-, hfree⟩ | hdown | hdown)
      · exact hfree
      · omega
      · omega
  · by_cases hnear : version = 2 ∧ target = 1 ∨ version = 4 ∧ target = 3
    · refine iff_of_true ?_ (.inr hnear)
      rcases hnear with ⟨rfl, rfl⟩ | ⟨rfl, rfl⟩
      · obtain ⟨db', hrun⟩ := run_downgrade_0002 h
        exact ⟨db', hrun⟩
      · obtain ⟨db', hrun⟩ := run_downgrade_0004 now h
        exact ⟨db', hrun⟩
    · refine iff_of_false ?_ ?_
      · rintro ⟨db', hrun⟩
        have hrefused := alembic_down_refused now hversion (Nat.lt_of_not_le hle) hnear db
        rw [hrun] at hrefused
        cases hrefused
      · rintro (⟨hup, -⟩ | hdown)
        · exact hle hup
        · exact hnear hdown

end Down

/-! ## The schema is that of the version -/

section Schema

variable {now : Cell} {version target : Nat} {db db' : Database Cell}

/-- The operations are on the tables of the application alone. -/
theorem upgrades_on (now : Cell) :
    ∀ migration ∈ upgrades now, ∀ op ∈ migration, On made_tables op := by
  have jobs : ∀ {change}, On made_tables (alter "jobs" change : Operation Cell) :=
    (alter_on _).mono (by decide)
  have tasks : ∀ {change}, On made_tables (alter "tasks" change : Operation Cell) :=
    (alter_on _).mono (by decide)
  have table : ∀ {name columns constraints}, name ∈ made_tables →
      On made_tables (create_table name columns constraints : Operation Cell) :=
    fun h => (create_table_on _ _).mono fun _ hmem => List.mem_singleton.mp hmem ▸ h
  simp only [upgrades, upgrade_0001, upgrade_0002, upgrade_0003, upgrade_0004,
    List.forall_mem_cons]
  refine ⟨⟨table (by decide), table (by decide), jobs, jobs, tasks, tasks, tasks, jobs, jobs, jobs,
      jobs, ?_⟩,
    ⟨jobs, ?_⟩,
    ⟨jobs, jobs, (create_foreign_key_on _ _ _ _).mono (by decide), tasks, ?_⟩,
    ⟨table (by decide), jobs, jobs, ?_⟩, ?_⟩ <;>
  · intro _ h
    cases h

theorem revision_on (version : Nat) : ∀ op ∈ revision version, On made_tables op := by
  intro op hop
  obtain ⟨migration, hmigration, hmem⟩ := List.mem_flatten.mp hop
  exact upgrades_on _ migration (List.mem_of_mem_take hmigration) op hmem

theorem AtRevision.downgrade_0002 (h : AtRevision (revision 2) db)
    (hrun : run Dass.downgrade_0002 db = .ok db') : AtRevision (revision 1) db' := by
  have hboth : AtRevision (revision 2 ++ Dass.downgrade_0002) db' :=
    AtRevision.run h (.cons (drop_column_sameSchemas _) .nil) (by decide +kernel) hrun
  refine hboth.congr ?_ (revision_on 1) (by decide +kernel)
  intro op hop
  rcases List.mem_append.mp hop with hop | hop
  · exact revision_on 2 op hop
  · obtain rfl := List.mem_singleton.mp hop
    exact (alter_on _).mono (by decide)

theorem AtRevision.downgrade_0004 (h : AtRevision (revision 4) db)
    (hrun : run (Dass.downgrade_0004 now) db = .ok db') : AtRevision (revision 3) db' := by
  have hboth : AtRevision (revision 4 ++ Dass.downgrade_0004 (.time 0)) db' :=
    AtRevision.run h (.cons (add_column_sameSchemas now _ _)
      (.cons (create_foreign_key_sameSchemas _ _ _ _) (.cons drop_table_sameSchemas .nil)))
      (by decide +kernel) hrun
  refine hboth.congr ?_ (revision_on 3) (by decide +kernel)
  intro op hop
  rcases List.mem_append.mp hop with hop | hop
  · exact revision_on 4 op hop
  · simp only [Dass.downgrade_0004, List.mem_cons, List.not_mem_nil, or_false] at hop
    rcases hop with rfl | rfl | rfl
    · exact (alter_on _).mono (by decide)
    · exact (create_foreign_key_on _ _ _ _).mono (by decide)
    · exact drop_table_on (by decide)

theorem AtRevision.alembic (hversion : version ≤ head_version) (htarget : target ≤ head_version)
    (h : AtRevision (revision version) db)
    (hrun : run (Dass.alembic now version target) db = .ok db') :
    AtRevision (revision target) db' := by
  rcases (alembic_iff now hversion htarget h).mp ⟨db', hrun⟩ with ⟨hle, -⟩ | ⟨rfl, rfl⟩ | ⟨rfl, rfl⟩
  · rw [Dass.alembic, if_pos hle] at hrun
    exact AtRevision.upgrade_to hle h hrun
  · exact AtRevision.downgrade_0002 h hrun
  · exact AtRevision.downgrade_0004 h hrun

end Schema

/-! ## What is kept -/

/-- The columns that the migrations add or drop, the other way back. -/
def changed_columns : List (List (String × String)) :=
  [[("jobs", "job_type")], [("jobs", "runtime_spec")],
    [("jobs", "next_job_id"), ("tasks", "processed_for_chaining")], [("jobs", "next_job_id")]]

/-- … on a way. -/
def changed_between (version target : Nat) : List (String × String) :=
  ((changed_columns.drop (min version target)).take
    (max version target - min version target)).flatten

/-- A revision has a column. -/
def revision_has (version : Nat) (table column : String) : Bool :=
  ((created_by (revision version) table).map Relation.schema).any (·.has column)

section Kept

variable {now : Cell} {version target : Nat} {table : String} {db db' : Database Cell}

theorem upgrades_changes (now : Cell) (dropped : List String) :
    List.Forall₂ (fun ops columns => ∀ op ∈ ops, Changes dropped columns op) (upgrades now)
      changed_columns := by
  simp only [upgrades, upgrade_0001, upgrade_0002, upgrade_0003, upgrade_0004, changed_columns,
    List.forall₂_cons, List.forall_mem_cons]
  have hnil : ∀ columns, ∀ op ∈ ([] : List (Operation Cell)), Changes dropped columns op :=
    fun _ _ h => absurd h List.not_mem_nil
  refine ⟨⟨create_table_changes _ _, create_table_changes _ _, create_index_changes _ _,
    create_index_changes _ _, create_index_changes _ _, create_index_changes _ _,
    create_index_changes _ _, add_column_changes _ (by decide), set_nullable_changes,
    set_nullable_changes, create_index_changes _ _, hnil _⟩,
    ⟨add_column_changes _ (by decide), hnil _⟩,
    ⟨add_column_changes _ (by decide), drop_index_changes _, create_foreign_key_changes _ _ _,
      add_column_changes _ (by decide), hnil _⟩,
    ⟨create_table_changes _ _, drop_constraint_changes _, drop_column_changes (by decide), hnil _⟩,
    .nil⟩

/-- A way changes the columns that its migrations do, and drops the edges at most. -/
theorem alembic_changes (hway : version ≤ target ∨ version = 2 ∧ target = 1 ∨
      version = 4 ∧ target = 3) :
    ∀ op ∈ alembic now version target,
      Changes ["job_dependencies"] (changed_between version target) op := by
  rcases hway with hle | ⟨rfl, rfl⟩ | ⟨rfl, rfl⟩
  · rw [alembic, if_pos hle, changed_between, Nat.min_eq_left hle, Nat.max_eq_right hle]
    exact flatten_changes (List.forall₂_take _ (List.forall₂_drop _ (upgrades_changes now _)))
  · intro op hop
    obtain rfl := List.mem_singleton.mp hop
    exact drop_column_changes (by decide)
  · intro op hop
    have hops : alembic now 4 3 = downgrade_0004 now := rfl
    simp only [hops, downgrade_0004, List.mem_cons, List.not_mem_nil, or_false] at hop
    rcases hop with rfl | rfl | rfl
    · exact add_column_changes _ (by decide)
    · exact create_foreign_key_changes _ _ _
    · exact drop_table_changes (by decide)

/-- What is changed on a way is not at one of its ends. -/
theorem changed_between_fresh : ∀ version ≤ head_version, ∀ target ≤ head_version,
    ∀ p ∈ changed_between version target,
      revision_has version p.1 p.2 = true → revision_has target p.1 p.2 = false := by
  decide +kernel

/-- The jobs and the tasks are kept. -/
theorem alembic_keeps (hversion : version ≤ head_version) (htarget : target ≤ head_version)
    (hmade : 1 ≤ version) (h : AtRevision (revision version) db)
    (hrun : run (alembic now version target) db = .ok db') (htable : table ∈ ["jobs", "tasks"]) :
    KeepsRows table db db' := by
  have hway := (alembic_iff now hversion htarget h).mp ⟨db', hrun⟩
  have hafter := AtRevision.alembic hversion htarget h hrun
  have hthere : ∀ version ≤ head_version, 1 ≤ version → ∀ table ∈ ["jobs", "tasks"],
      ((created_by (revision version) table).map Relation.schema).any (fun _ => true) = true := by
    decide +kernel
  obtain ⟨rel, hrel, -⟩ := h.relation (hthere version hversion hmade table htable)
  have hkept : ∀ table ∈ ["jobs", "tasks"], table ∉ ["job_dependencies"] := by decide
  refine keepsRows_of_changes (run_changes (alembic_changes (hway.imp_left And.left))) hrun
    (hkept table htable) hrel fun column hmem hhas rel' hrel' => ?_
  rw [← hafter.has hrel']
  exact changed_between_fresh version hversion target htarget (table, column) hmem
    ((h.has hrel column).trans hhas)

end Kept

/-! ## What is lost -/

section Lost

variable {now : Cell} {version : Nat} {db db' : Database Cell}

/-- Both ways to `abbdadda1485` add `next_job_id` at their end. -/
theorem alembic_3_adds (hversion : version ≤ head_version) (hother : version ≠ 3)
    (h : AtRevision (revision version) db)
    (hrun : run (alembic now version 3) db = .ok db') :
    ∃ mid ops, run (add_column now "jobs" ⟨"next_job_id", "VARCHAR(36)", true, none⟩ :: ops) mid =
        .ok db' ∧
      ∀ op ∈ ops, Changes ["job_dependencies"] [("tasks", "processed_for_chaining")] op := by
  have hnil : ∀ op ∈ ([] : List (Operation Cell)),
      Changes ["job_dependencies"] [("tasks", "processed_for_chaining")] op :=
    fun _ h => absurd h List.not_mem_nil
  by_cases hle : version ≤ 3
  · have hsplit : alembic now version 3 = alembic now version 2 ++ upgrade_0003 now := by
      match version, hle, hother with
      | 0, _, _ | 1, _, _ | 2, _, _ => rfl
      | 3, _, hother => exact absurd rfl hother
    rw [hsplit, run_append] at hrun
    cases hmid : run (alembic now version 2) db with
    | error e =>
        rw [hmid] at hrun
        cases hrun
    | ok mid =>
        rw [hmid] at hrun
        refine ⟨mid, (upgrade_0003 now).drop 1, hrun, ?_⟩
        simp only [upgrade_0003, List.drop_succ_cons, List.drop_zero, List.forall_mem_cons]
        exact ⟨drop_index_changes _, create_foreign_key_changes _ _ _,
          add_column_changes _ (by decide), hnil⟩
  · obtain rfl : version = 4 := by
      have hhead : version ≤ 4 := hversion
      omega
    refine ⟨db, (downgrade_0004 now).drop 1, hrun, ?_⟩
    simp only [downgrade_0004, List.drop_succ_cons, List.drop_zero, List.forall_mem_cons]
    exact ⟨create_foreign_key_changes _ _ _, drop_table_changes (by decide), hnil⟩

/-- No job has a next one after. -/
theorem alembic_3_loses (hversion : version ≤ head_version) (hother : version ≠ 3)
    (h : AtRevision (revision version) db) (hrun : run (alembic now version 3) db = .ok db')
    (job next : Cell) : ¬ DependencyRow db' job next ∧ ¬ HasNext db' job next := by
  obtain ⟨mid, ops, hadds, hchanges⟩ := alembic_3_adds hversion hother h hrun
  constructor
  · rintro ⟨edges, hedges, -⟩
    have hnone := (AtRevision.others_0003 (AtRevision.alembic hversion (by decide) h hrun)).1
    rw [hnone] at hedges
    cases hedges
  · rintro ⟨jobs, hjobs, row, hrow, -, hnext⟩
    have hnull := null_of_added rfl hchanges (by decide) (by decide) hadds jobs hjobs row hrow
    rw [hnull] at hnext
    cases hnext

/-- No job has an upstream after. -/
theorem alembic_4_loses (hversion : version ≤ head_version) (hother : version ≠ 4)
    (h : AtRevision (revision version) db) (hrun : run (alembic now version 4) db = .ok db')
    (job next : Cell) : ¬ DependencyRow db' job next := by
  have hle : version ≤ 3 := by
    have hhead : version ≤ 4 := hversion
    omega
  have hsplit : alembic now version 4 = alembic now version 3 ++ upgrade_0004 := by
    match version, hle with
    | 0, _ | 1, _ | 2, _ | 3, _ => rfl
  rw [hsplit, run_append] at hrun
  cases hmid : run (alembic now version 3) db with
  | error e =>
      rw [hmid] at hrun
      cases hrun
  | ok mid =>
      rw [hmid] at hrun
      obtain ⟨last, hlast, -, -, hnone⟩ :=
        run_0004 (AtRevision.alembic hversion (by decide) h hmid)
      obtain rfl := Except.ok.inj (hlast.symm.trans hrun)
      exact hnone job next

end Lost

/-! ## There and back -/

/-- What is so of a database that was at a version. -/
structure Migrated.ThereAndBack (start : Nat) (s : Migrated) : Prop where
  version : s.version ≤ head_version
  /-- the schema is that of the version, however it has come to it -/
  schema : AtRevision (revision s.version) s.db
  /-- there is no way back over `0001_initial` or `abbdadda1485` -/
  floor : ∀ version ∈ [1, 3], version ≤ start → version ≤ s.version
  /-- the commands that go through -/
  goes : ∀ target ≤ head_version,
    (∃ t, Migrated.Step s (.migrate target) t) ↔ Migratable s.version target s.db
  /-- the jobs and the tasks stay, with what they had in the columns of both versions -/
  keeps : ∀ target t, Migrated.Step s (.migrate target) t → 1 ≤ s.version →
    KeepsRows "jobs" s.db t.db ∧ KeepsRows "tasks" s.db t.db
  /-- the dependencies go, on the way to each of the versions that have any -/
  loses : ∀ target t, Migrated.Step s (.migrate target) t → s.version ≠ target →
    (target = 3 → ∀ job next, ¬ HasNext t.db job next) ∧
      (target = 4 → ∀ job next, ¬ DependencyRow t.db job next)

/-- A database at a revision, no further back than there is a way. -/
structure Migrated.Good (start : Nat) (s : Migrated) : Prop where
  version : s.version ≤ head_version
  schema : AtRevision (revision s.version) s.db
  floor : ∀ version ∈ [1, 3], version ≤ start → version ≤ s.version

section Runs

variable {start : Nat} {s s' : Migrated} {l : Migrated.Label}

/-- No way goes down over the two. -/
theorem Migratable.floor {version target : Nat} {db : Database Cell}
    (h : Migratable version target db) : ∀ v ∈ [1, 3], v ≤ version → v ≤ target := by
  intro v hv hle
  simp only [List.mem_cons, List.not_mem_nil, or_false] at hv
  rcases h with ⟨hup, -⟩ | hdown | hdown
  · exact Nat.le_trans hle hup
  · omega
  · omega

theorem Migrated.Good.step (h : s.Good start) (hstep : Migrated.Step s l s') : s'.Good start := by
  cases hstep with
  | @migrate now target db' htarget hrun =>
      have hway := (alembic_iff now h.version htarget h.schema).mp ⟨db', hrun⟩
      refine ⟨htarget, AtRevision.alembic h.version htarget h.schema hrun, ?_⟩
      exact fun version hv hle => hway.floor version hv (h.floor version hv hle)
  | refused => exact h
  | write hrel hschema => exact ⟨h.version, AtRevision.write h.schema hrel hschema, h.floor⟩

theorem Migrated.Good.run (h : Run Migrated.Step Any s s') (hs : s.Good start) : s'.Good start :=
  h.invariant (fun hi _ hstep => hi.step hstep) hs

end Runs

/-- **What ways there are between the revisions.**  For every database at a revision, in every run
of commands that take it to others, up and down, with rows written between them: the schema is
always that of the version it is at.  It never comes back over `0001_initial` or `abbdadda1485`.  A
command goes through if and only if it goes up, and not with tasks over `abbdadda1485`, or goes
down by one from `0002_job_runtime_spec` or `447fbff8c51d`.  The jobs and the tasks are kept by each
of them, and the dependencies by none that comes from another version to one of the last two. -/
theorem there_and_back {version : Nat} (hversion : version ≤ head_version) {db : Database Cell}
    (hdb : AtRevision (revision version) db) {s : Migrated}
    (h : Run Migrated.Step Any ⟨db, version⟩ s) : s.ThereAndBack version := by
  have hgood : s.Good version :=
    Migrated.Good.run h ⟨hversion, hdb, fun _ _ hle => hle⟩
  refine ⟨hgood.version, hgood.schema, hgood.floor, fun target htarget => ?_, ?_, ?_⟩
  · constructor
    · rintro ⟨_, ⟨_, hrun⟩⟩
      exact (alembic_iff _ hgood.version htarget hgood.schema).mp ⟨_, hrun⟩
    · intro hway
      obtain ⟨db', hrun⟩ :=
        (alembic_iff (.time 0) hgood.version htarget hgood.schema).mpr hway
      exact ⟨_, .migrate htarget hrun⟩
  · rintro target _ ⟨htarget, hrun⟩ hmade
    exact ⟨alembic_keeps hgood.version htarget hmade hgood.schema hrun (by decide),
      alembic_keeps hgood.version htarget hmade hgood.schema hrun (by decide)⟩
  · rintro target _ ⟨htarget, hrun⟩ hother
    constructor
    · rintro rfl job next
      exact (alembic_3_loses hgood.version hother hgood.schema hrun job next).2
    · rintro rfl job next
      exact alembic_4_loses hgood.version hother hgood.schema hrun job next

/-- A job and the next one, to the head and back. -/
theorem there_and_back_chain : ∃ s, Migrated.ThereAndBack 3 s ∧ s.version = 3 ∧
    (∃ job next, HasNext example_0003 job next) ∧ ∀ job next, ¬ HasNext s.db job next := by
  have hdb : AtRevision (revision 3) example_0003 :=
    AtRevision.insert (AtRevision.insert (fun _ => rfl) _ _) _ _
  have hstart : Migrated.ThereAndBack 3 ⟨example_0003, 3⟩ := there_and_back (by decide) hdb .refl
  obtain ⟨t, ht⟩ := (hstart.goes 4 (by decide)).mpr
    (.inl ⟨by decide, fun h => absurd h.1 (by decide)⟩)
  have hhead : t.version = 4 := by
    cases ht
    rfl
  have hup := there_and_back (by decide) hdb (.single trivial ht)
  obtain ⟨s, hs⟩ := (hup.goes 3 (by decide)).mpr (.inr (.inr ⟨hhead, rfl⟩))
  have hback : s.version = 3 := by
    cases hs
    rfl
  have hboth := there_and_back (by decide) hdb ((Run.single (C := Any) trivial ht).snoc trivial hs)
  refine ⟨s, hboth, hback, ?_, (hup.loses 3 s hs (by rw [hhead]; decide)).1 rfl⟩
  have hjobs : ((example_0003 "jobs").map Relation.rows).any (fun rows => rows.any fun row =>
      decide (row "id" = some (.text "a") ∧ row "next_job_id" = some (.text "b"))) = true := by
    decide +kernel
  obtain ⟨jobs, hrel, -⟩ := AtRevision.jobs_0003 hdb
  rw [hrel] at hjobs
  obtain ⟨row, hrow, hvalues⟩ := List.any_eq_true.mp hjobs
  obtain ⟨hid, hnext⟩ := of_decide_eq_true hvalues
  exact ⟨_, _, jobs, hrel, row, hrow, hid, hnext⟩

end Dass
