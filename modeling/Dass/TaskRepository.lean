/-
# `Dass.TaskRepository` — reads and writes of the `tasks` table

`backend/app/repositories/task_repository.py`.  Every write of the repository is
one transaction, so each is a function from the table to the table it commits;
`none` is the exception the database or the session raises instead.

`_finish`, `mark_running_expired_pending` and `mark_processed_for_chaining`
assign to an object that was loaded earlier and flush it: the `UPDATE` is by
primary key alone and sends the columns whose value differs from the loaded one
(`Task.flush`).  Nothing in it looks at what the row holds by then.
-/
import Dass.Models
import Dass.Lib.Newest
import Dass.Lib.Orm
import Mathlib.Data.List.Sort

namespace Dass

open Orm

/-! ## Flushing a loaded row -/

/-- The row after a flush of `assigned`, loaded as `loaded`, onto `stored`.  The columns
no statement updates are the row's own. -/
def Task.flush (loaded assigned stored : Task) : Task :=
  { stored with
    status := emit loaded.status assigned.status stored.status
    locked_by := emit loaded.locked_by assigned.locked_by stored.locked_by
    locked_until := emit loaded.locked_until assigned.locked_until stored.locked_until
    started_at := emit loaded.started_at assigned.started_at stored.started_at
    finished_at := emit loaded.finished_at assigned.finished_at stored.finished_at
    stdout := emit loaded.stdout assigned.stdout stored.stdout
    stderr := emit loaded.stderr assigned.stderr stored.stderr
    processed_for_chaining := emit loaded.processed_for_chaining
      assigned.processed_for_chaining stored.processed_for_chaining }

@[simp] theorem Task.flush_id (loaded assigned stored : Task) :
    (Task.flush loaded assigned stored).id = stored.id := rfl

@[simp] theorem Task.flush_job_id (loaded assigned stored : Task) :
    (Task.flush loaded assigned stored).job_id = stored.job_id := rfl

/-- What `_finish` assigns. -/
def Task._finish (task : Task) (status : TaskStatus) (stdout stderr : Option String)
    (now : Int) : Task :=
  { task with
    status := status
    stdout := stdout
    stderr := stderr
    locked_by := none
    locked_until := none
    finished_at := some now }

/-- `mark_success`. -/
def Task.mark_success (task : Task) (stdout stderr : Option String) (now : Int) : Task :=
  task._finish .success stdout stderr now

/-- `mark_failed`. -/
def Task.mark_failed (task : Task) (stdout stderr : Option String) (final : Bool)
    (now : Int) : Task :=
  task._finish (if final then .final_failed else .failed) stdout stderr now

/-- What `mark_running_expired_pending` assigns. -/
def Task.mark_running_expired_pending (task : Task) : Task :=
  { task with status := .pending, locked_by := none, locked_until := none, started_at := none }

/-- What `mark_processed_for_chaining` assigns. -/
def Task.mark_processed_for_chaining (task : Task) : Task :=
  { task with processed_for_chaining := true }

namespace TaskRepository

variable {tasks tasks' : Table Task} {task loaded assigned : Task}

/-! ## Writes -/

/-- `create`. -/
def create (tasks : Table Task) (task : Task) : Option (Table Task) :=
  if tasks.get task.id = none then some (tasks.add task) else none

/-- The commit of an object loaded as `loaded` and assigned `assigned`. -/
def flush (tasks : Table Task) (loaded assigned : Task) : Option (Table Task) :=
  (tasks.get loaded.id).map fun stored => tasks.set (.flush loaded assigned stored)

theorem get_create (h : create tasks task = some tasks') :
    tasks.get task.id = none ∧
      ∀ id, tasks'.get id = if task.id = id then some task else tasks.get id := by
  unfold create at h
  split at h
  · next hnone =>
      cases h
      exact ⟨hnone, fun id => Table.get_add hnone id⟩
  · cases h

/-- A row updated in place: one key, and what `get` answers afterwards. -/
theorem get_set_row {row : Task} {id : TaskId} (h : tasks.get id = some row) {row' : Task}
    (hid : row'.id = row.id) (id' : TaskId) :
    (tasks.set row').get id' = if id = id' then some row' else tasks.get id' := by
  have hrow : row.id = id := Table.key_of_get h
  rw [Table.get_set, key_task, hid, hrow]
  split
  · next heq => rw [← heq, h, Option.map_some]
  · rfl

theorem get_flush (h : flush tasks loaded assigned = some tasks') :
    ∃ stored, tasks.get loaded.id = some stored ∧
      ∀ id, tasks'.get id =
        if loaded.id = id then some (.flush loaded assigned stored) else tasks.get id := by
  obtain ⟨stored, hstored, rfl⟩ := Option.map_eq_some_iff.mp h
  exact ⟨stored, hstored, get_set_row hstored rfl⟩

/-! ## Reads -/

/-- The running tasks of a job, as `count_running_for_job` selects them. -/
def running_for_job (tasks : Table Task) (job_id : JobId) : List Task :=
  tasks.rows.filter fun task => task.job_id = job_id ∧ task.status = .running

/-- `count_running_for_job`. -/
def count_running_for_job (tasks : Table Task) (job_id : JobId) : Nat :=
  (running_for_job tasks job_id).length

/-- The lock on a running row has run out. -/
def expired (now : Int) (task : Task) : Bool :=
  task.status = .running ∧ ∃ deadline ∈ task.locked_until, deadline < now

/-- `list_expired_running`. -/
def list_expired_running (tasks : Table Task) (now : Int) : List Task :=
  tasks.rows.filter (expired now)

theorem mem_list_expired_running {now : Int} :
    task ∈ list_expired_running tasks now ↔
      tasks.get task.id = some task ∧ expired now task = true := by
  rw [list_expired_running, List.mem_filter, Table.get_eq_some]
  simp

/-- `get_unprocessed_successful_tasks`. -/
def get_unprocessed_successful_tasks (tasks : Table Task) (limit : Nat) : List Task :=
  ((tasks.rows.filter fun task => task.status = .success ∧ task.processed_for_chaining = false)
    |>.insertionSort fun a b => a.created_at ≤ b.created_at).take limit

/-- The row of rank 1 in the partition of a job: one with the greatest `created_at`. -/
def latest_task (tasks : Table Task) (job_id : JobId) : Option Task :=
  (tasks.rows.filter fun task => task.job_id = job_id).newest Task.created_at

/-- `latest_task_per_job`. -/
def latest_task_per_job (tasks : Table Task) (job_ids : List JobId) (job_id : JobId) :
    Option Task :=
  if job_id ∈ job_ids then latest_task tasks job_id else none

theorem of_mem_get_unprocessed {limit : Nat}
    (h : task ∈ get_unprocessed_successful_tasks tasks limit) :
    task ∈ tasks.rows ∧ task.status = .success ∧ task.processed_for_chaining = false := by
  have hmem := (List.mem_insertionSort _).mp (List.mem_of_mem_take h)
  rw [List.mem_filter, decide_eq_true_iff] at hmem
  exact hmem

theorem latest_task_mem {job_id : JobId} (h : latest_task tasks job_id = some task) :
    task ∈ tasks.rows ∧ task.job_id = job_id := by
  have hmem := List.newest_mem h
  rw [List.mem_filter, decide_eq_true_iff] at hmem
  exact hmem

/-- No task of the job is newer than its latest. -/
theorem created_at_le_latest {job_id : JobId} (h : latest_task tasks job_id = some task)
    {row : Task} (hrow : row ∈ tasks.rows) (hjob : row.job_id = job_id) :
    row.created_at ≤ task.created_at :=
  List.le_newest h (List.mem_filter.mpr ⟨hrow, decide_eq_true hjob⟩)

theorem latest_task_eq_none {job_id : JobId} :
    latest_task tasks job_id = none ↔ ∀ row ∈ tasks.rows, row.job_id ≠ job_id := by
  rw [latest_task, List.newest_eq_none, List.filter_eq_nil_iff]
  simp only [decide_eq_true_eq, ne_eq]

/-- Rows updated in place, their job and age kept, and rows of other jobs appended: the
latest is the same row. -/
theorem latest_task_grow {g : Task → Task} (hjob : ∀ x, (g x).job_id = x.job_id)
    (hage : ∀ x, (g x).created_at = x.created_at) {added : List Task} {job_id : JobId}
    (hnone : ∀ x ∈ added, x.job_id ≠ job_id) (h : tasks'.rows = tasks.rows.map g ++ added) :
    latest_task tasks' job_id = (latest_task tasks job_id).map g := by
  rw [latest_task, latest_task, h]
  refine List.newest_filter_grow hage (fun x => ?_) (fun x hx => ?_) _
  · simp only [hjob]
  · exact decide_eq_false (hnone x hx)

end TaskRepository

end Dass
