/-
# `Dass.DependencyRuns` — what happens to `tasks` between two passes

Passes of `trigger_dependent_jobs` among everything else that writes `tasks`: any
insert, a worker's claim, heartbeat and result, a recovery's reset.  Whatever the
step, the rows that are there are updated in place, keeping what says which run
they are, and new ones are appended (`Grows`); of a success nothing changes but
its mark (`Kept`).  So what is counted by job, age, trigger and retries only
grows, and a latest task stays the latest until its job gets another.
-/
import Dass.DependencyScheduler
import Dass.WorkerService

namespace Dass

open TaskRepository (latest_task)

/-! ## The steps -/

/-- What a worker or `recover_orphans` commits to a row. -/
inductive RowEvent where
  | claim (service : WorkerService)
  | heartbeat (service : WorkerService)
  | success (stdout stderr : Option String)
  | failed (stdout stderr : Option String) (final : Bool)
  | expire

/-- The status the row is in before. -/
def RowEvent.before : RowEvent → TaskStatus
  | .claim _ => .pending
  | _ => .running

/-- The row after the commit. -/
def RowEvent.row (now : Int) : RowEvent → Task → Task
  | .claim service, task => service.claimed task now
  | .heartbeat service, task => service.extended task now
  | .success stdout stderr, task => task.mark_success stdout stderr now
  | .failed stdout stderr final, task => task.mark_failed stdout stderr final now
  | .expire, task => task.mark_running_expired_pending

inductive Chain.Label where
  | tick (d : Int)
  /-- anything but a pass inserts a task -/
  | create (id : TaskId) (job_id : JobId) (trigger_type : TriggerType) (retry_count : Nat)
  | event (id : TaskId) (e : RowEvent)
  | pass (ids : JobId → TaskId)

inductive Chain.Step : Chain → Chain.Label → Chain → Prop
  | tick {db : Chain} {d} : 0 ≤ d → Chain.Step db (.tick d) { db with now := db.now + d }
  | create {db : Chain} {id job_id trigger_type retry_count tasks} :
      TaskRepository.create db.tasks (.fresh id job_id trigger_type retry_count db.now)
        = some tasks →
      Chain.Step db (.create id job_id trigger_type retry_count) { db with tasks := tasks }
  | event {db : Chain} {id e row} : db.tasks.get id = some row → row.status = e.before →
      Chain.Step db (.event id e) { db with tasks := db.tasks.set (e.row db.now row) }
  | pass {db db' : Chain} {ids n} : db.trigger_dependent_jobs ids = some (db', n) →
      Chain.Step db (.pass ids) db'

/-- The step a label stands for. -/
def Chain.exec (db : Chain) : Chain.Label → Option Chain
  | .tick d => if 0 ≤ d then some { db with now := db.now + d } else none
  | .create id job_id trigger_type retry_count =>
      (TaskRepository.create db.tasks (.fresh id job_id trigger_type retry_count db.now)).map
        fun tasks => { db with tasks := tasks }
  | .event id e => (db.tasks.get id).bind fun row =>
      if row.status = e.before then some { db with tasks := db.tasks.set (e.row db.now row) }
      else none
  | .pass ids => (db.trigger_dependent_jobs ids).map Prod.fst

theorem Chain.step_of_exec {db db' : Chain} {l : Chain.Label} (h : db.exec l = some db') :
    db.Step l db' := by
  cases l with
  | tick d =>
      simp only [Chain.exec] at h
      split at h
      · next hd => cases h; exact .tick hd
      · cases h
  | create id job_id trigger_type retry_count =>
      obtain ⟨tasks, hcreate, rfl⟩ := Option.map_eq_some_iff.mp h
      exact .create hcreate
  | event id e =>
      obtain ⟨row, hrow, h⟩ := Option.bind_eq_some_iff.mp h
      split at h
      · next hs => cases h; exact .event hrow hs
      · cases h
  | pass ids =>
      obtain ⟨⟨_, n⟩, hpass, rfl⟩ := Option.map_eq_some_iff.mp h
      exact .pass hpass

/-! ## The rows of a job -/

namespace Chain

/-- The tasks of a job. -/
def tasks_of (db : Chain) (job_id : JobId) : List Task :=
  db.tasks.rows.filter fun task => task.job_id = job_id

/-- The tasks of a job that are no older than `b`. -/
def given (db : Chain) (b : Int) (job_id : JobId) : List Task :=
  db.tasks.rows.filter fun task => task.job_id = job_id ∧ b ≤ task.created_at

/-- How often a pass has dispatched a job: its dependency tasks that are no retries. -/
def dependency_runs (db : Chain) (job_id : JobId) : Nat :=
  (db.tasks.rows.filter fun task =>
    task.job_id = job_id ∧ task.trigger_type = .dependency ∧ task.retry_count = 0).length

variable {db : Chain} {b : Int} {j : JobId} {x : Task}

theorem mem_tasks_of :
    x ∈ db.tasks_of j ↔ x ∈ db.tasks.rows ∧ x.job_id = j := by
  simp [tasks_of]

theorem mem_given :
    x ∈ db.given b j ↔ x ∈ db.tasks_of j ∧ b ≤ x.created_at := by
  simp [given, mem_tasks_of, and_assoc]

end Chain

/-! ## What a step does to the rows -/

/-- What a step may do to a row that is there: nothing to a success but mark it. -/
structure Kept (now : Int) (x x' : Task) : Prop where
  success : x.status = .success → x'.status = .success ∧ x'.finished_at = x.finished_at ∧
    (x.processed_for_chaining = true → x'.processed_for_chaining = true)
  marked : x.status ≠ .success → x'.processed_for_chaining = x.processed_for_chaining
  stamp : x'.finished_at = x.finished_at ∨ x'.finished_at = some now
  result : x'.status = .success → x.status = .success ∨ x'.finished_at = some now

/-- A step updates rows in place and appends new ones. -/
structure Grows (now : Int) (rows rows' : List Task) (g : Task → Task) (added : List Task) :
    Prop where
  eq : rows' = rows.map g ++ added
  job_id : ∀ x, (g x).job_id = x.job_id
  created_at : ∀ x, (g x).created_at = x.created_at
  trigger_type : ∀ x, (g x).trigger_type = x.trigger_type
  retry_count : ∀ x, (g x).retry_count = x.retry_count
  kept : ∀ x ∈ rows, Kept now x (g x)
  fresh : ∀ x ∈ added, ∃ id job_id trigger_type retry_count,
    x = .fresh id job_id trigger_type retry_count now

theorem Kept.refl (now : Int) (x : Task) : Kept now x x :=
  ⟨fun h => ⟨h, rfl, id⟩, fun _ => rfl, .inl rfl, .inl⟩

theorem Kept.chained (now : Int) {observed : List TaskId} {x : Task}
    (h : x.id ∈ observed → x.status = .success) : Kept now x (x.chained observed) where
  success hx := by
    refine ⟨by rw [Task.chained_status, hx], Task.chained_finished_at _ _, fun hp => ?_⟩
    unfold Task.chained
    split
    · rfl
    · exact hp
  marked hx := by
    unfold Task.chained
    split
    · next hmem => exact absurd (h hmem) hx
    · rfl
  stamp := .inl (Task.chained_finished_at _ _)
  result hx := .inl (by rwa [Task.chained_status] at hx)

theorem Kept.event (now : Int) {e : RowEvent} {x : Task} (h : x.status = e.before) :
    Kept now x (e.row now x) where
  success hx := by
    rw [hx] at h
    cases e <;> cases h
  marked _ := by
    cases e <;> rfl
  stamp := by
    cases e with
    | claim | heartbeat | expire => exact .inl rfl
    | success | failed => exact .inr rfl
  result hx := by
    cases e with
    | heartbeat => exact .inl hx
    | claim | expire => cases hx
    | success | failed => exact .inr rfl

section Grows

variable {now : Int} {rows rows' added : List Task} {g : Task → Task}

/-- How many rows meet a condition on what never changes. -/
theorem Grows.length_filter (h : Grows now rows rows' g added) {p : Task → Bool}
    (hp : ∀ x, p (g x) = p x) :
    (rows'.filter p).length = (rows.filter p).length + (added.filter p).length := by
  rw [h.eq, List.filter_append, List.filter_map, List.length_append, List.length_map]
  congr 2
  exact List.filter_congr fun x _ => hp x

/-- A row is an old one, updated, or a new one. -/
theorem Grows.mem (h : Grows now rows rows' g added) {x' : Task} :
    x' ∈ rows' ↔ (∃ x ∈ rows, g x = x') ∨ x' ∈ added := by
  rw [h.eq, List.mem_append, List.mem_map]

/-- A job that gets no new row keeps its latest task, updated. -/
theorem Grows.latest_task {tasks tasks' : Table Task} (h : Grows now tasks.rows tasks'.rows g added)
    {job_id : JobId} (hnone : ∀ x ∈ added, x.job_id ≠ job_id) :
    latest_task tasks' job_id = (latest_task tasks job_id).map g :=
  TaskRepository.latest_task_grow h.job_id h.created_at hnone h.eq

end Grows

section Counting

variable {b : Int} {db db' : Chain} {g : Task → Task} {added : List Task}

theorem Grows.completed {now : Int} {rows rows' : List Task}
    (h : Grows now rows rows' g added) {x : Task} (hx : x ∈ rows) (hs : x.status = .success) :
    _completed_at (g x) = _completed_at x := by
  rw [_completed_at, _completed_at, ((h.kept x hx).success hs).2.1, h.created_at]

theorem Grows.length_tasks_of (h : Grows db.now db.tasks.rows db'.tasks.rows g added)
    (j : JobId) : (db'.tasks_of j).length
      = (db.tasks_of j).length + (added.filter fun task => task.job_id = j).length :=
  h.length_filter fun x => by simp only [h.job_id]

/-- A new row is one of this round. -/
theorem Grows.length_given (h : Grows db.now db.tasks.rows db'.tasks.rows g added)
    (hb : b ≤ db.now) (j : JobId) : (db'.given b j).length
      = (db.given b j).length + (added.filter fun task => task.job_id = j).length := by
  have hlen := h.length_filter (p := fun task => task.job_id = j ∧ b ≤ task.created_at)
    (fun x => by simp only [h.job_id, h.created_at])
  rw [Chain.given, hlen, Chain.given]
  congr 2
  refine List.filter_congr fun x hx => ?_
  obtain ⟨_, _, _, _, rfl⟩ := h.fresh x hx
  exact decide_eq_decide.mpr (and_iff_left hb)

theorem Grows.mem_tasks_of (h : Grows db.now db.tasks.rows db'.tasks.rows g added)
    {j : JobId} {x' : Task} (hx : x' ∈ db'.tasks_of j) :
    (∃ x ∈ db.tasks_of j, g x = x') ∨ x' ∈ added ∧ x'.job_id = j := by
  obtain ⟨hmem, hjob⟩ := Chain.mem_tasks_of.mp hx
  rcases h.mem.mp hmem with ⟨x, hrow, rfl⟩ | hnew
  · exact .inl ⟨x, Chain.mem_tasks_of.mpr ⟨hrow, (h.job_id x).symm.trans hjob⟩, rfl⟩
  · exact .inr ⟨hnew, hjob⟩

/-- The successes among the tasks of this round come from rows that were there. -/
theorem Grows.mem_given (h : Grows db.now db.tasks.rows db'.tasks.rows g added)
    {j : JobId} {x' : Task} (hx : x' ∈ db'.given b j) (hs : x'.status = .success) :
    ∃ x ∈ db.given b j, g x = x' := by
  obtain ⟨hof, hb⟩ := Chain.mem_given.mp hx
  rcases h.mem_tasks_of hof with ⟨x, hold, rfl⟩ | ⟨hnew, _⟩
  · exact ⟨x, Chain.mem_given.mpr ⟨hold, h.created_at x ▸ hb⟩, rfl⟩
  · obtain ⟨_, _, _, _, rfl⟩ := h.fresh x' hnew
    cases hs

theorem Grows.given_of_mem (h : Grows db.now db.tasks.rows db'.tasks.rows g added)
    {j : JobId} {x : Task} (hx : x ∈ db.given b j) : g x ∈ db'.given b j := by
  obtain ⟨hof, hb⟩ := Chain.mem_given.mp hx
  obtain ⟨hrow, hjob⟩ := Chain.mem_tasks_of.mp hof
  refine Chain.mem_given.mpr ⟨Chain.mem_tasks_of.mpr ⟨h.mem.mpr (.inl ⟨x, hrow, rfl⟩), ?_⟩, ?_⟩
  · rw [h.job_id, hjob]
  · rw [h.created_at]
    exact hb

end Counting

/-! ## The steps, one by one -/

section Steps

variable {now : Int} {tasks tasks' : Table Task} {db db' : Chain} {ids : JobId → TaskId}

@[simp] theorem RowEvent.row_id (e : RowEvent) (x : Task) : (e.row now x).id = x.id := by
  cases e <;> rfl

@[simp] theorem RowEvent.row_job_id (e : RowEvent) (x : Task) :
    (e.row now x).job_id = x.job_id := by
  cases e <;> rfl

@[simp] theorem RowEvent.row_created_at (e : RowEvent) (x : Task) :
    (e.row now x).created_at = x.created_at := by
  cases e <;> rfl

@[simp] theorem RowEvent.row_trigger_type (e : RowEvent) (x : Task) :
    (e.row now x).trigger_type = x.trigger_type := by
  cases e <;> rfl

@[simp] theorem RowEvent.row_retry_count (e : RowEvent) (x : Task) :
    (e.row now x).retry_count = x.retry_count := by
  cases e <;> rfl

@[simp] theorem RowEvent.row_processed (e : RowEvent) (x : Task) :
    (e.row now x).processed_for_chaining = x.processed_for_chaining := by
  cases e <;> rfl

/-- One row updated. -/
def RowEvent.at_ (e : RowEvent) (now : Int) (id : TaskId) (x : Task) : Task :=
  if x.id = id then e.row now x else x

/-- A field no event writes. -/
theorem RowEvent.at_field {α : Type} (f : Task → α) {e : RowEvent}
    (hf : ∀ x, f (e.row now x) = f x) (id : TaskId) (x : Task) : f (e.at_ now id x) = f x := by
  unfold RowEvent.at_
  split
  · exact hf x
  · rfl

theorem grows_refl (now : Int) (rows : List Task) : Grows now rows rows id [] where
  eq := by rw [List.map_id, List.append_nil]
  job_id _ := rfl
  created_at _ := rfl
  trigger_type _ := rfl
  retry_count _ := rfl
  kept x _ := .refl now x
  fresh := by intro x hx; cases hx

theorem grows_create {id : TaskId} {job_id : JobId} {trigger_type : TriggerType}
    {retry_count : Nat}
    (h : TaskRepository.create tasks (.fresh id job_id trigger_type retry_count now)
      = some tasks') :
    Grows now tasks.rows tasks'.rows (fun x => x)
      [.fresh id job_id trigger_type retry_count now] where
  eq := by
    unfold TaskRepository.create at h
    split at h
    · next hnone =>
        cases h
        rw [Table.rows_add hnone, List.map_id']
    · cases h
  job_id _ := rfl
  created_at _ := rfl
  trigger_type _ := rfl
  retry_count _ := rfl
  kept x _ := .refl now x
  fresh := by
    intro x hx
    exact ⟨id, job_id, trigger_type, retry_count, List.mem_singleton.mp hx⟩

theorem grows_event {id : TaskId} {e : RowEvent} {row : Task} (hrow : tasks.get id = some row)
    (hs : row.status = e.before) :
    Grows now tasks.rows (tasks.set (e.row now row)).rows (e.at_ now id) [] where
  eq := by
    rw [List.append_nil]
    refine List.map_congr_left fun x hx => ?_
    have hid : row.id = id := Table.key_of_get hrow
    simp only [key_task, RowEvent.row_id, hid, RowEvent.at_]
    split
    · next heq => rw [Table.eq_of_get hrow hx heq]
    · rfl
  job_id := RowEvent.at_field Task.job_id e.row_job_id id
  created_at := RowEvent.at_field Task.created_at e.row_created_at id
  trigger_type := RowEvent.at_field Task.trigger_type e.row_trigger_type id
  retry_count := RowEvent.at_field Task.retry_count e.row_retry_count id
  kept := by
    intro x hx
    unfold RowEvent.at_
    split
    · next heq =>
        obtain rfl : x = row := Table.eq_of_get hrow hx heq
        exact .event now hs
    · exact .refl now x
  fresh := by intro x hx; cases hx

/-- A pass updates rows in place and appends new ones. -/
theorem Chain.Passed.grows (h : db.Passed ids db') :
    Grows db.now db.tasks.rows db'.tasks.rows (Task.chained (db.observed.map Task.id))
      (db.dispatched.map fun job => .fresh (ids job.id) job.id .dependency 0 db.now) where
  eq := h.tasks
  job_id := Task.chained_job_id _
  created_at := Task.chained_created_at _
  trigger_type := Task.chained_trigger_type _
  retry_count := Task.chained_retry_count _
  kept := by
    intro x hx
    refine Kept.chained _ fun hmem => ?_
    obtain ⟨task, htask, hid⟩ := List.mem_map.mp hmem
    obtain ⟨hrow, hs, _⟩ := TaskRepository.of_mem_get_unprocessed htask
    obtain rfl : task = x := Table.eq_of_key hrow hx hid
    exact hs
  fresh := by
    intro x hx
    obtain ⟨job, _, rfl⟩ := List.mem_map.mp hx
    exact ⟨_, _, _, _, rfl⟩

/-- The job is dispatched by the pass. -/
def Chain.Dispatched (db : Chain) (c : JobId) : Prop := ∃ job ∈ db.dispatched, job.id = c

theorem Chain.mem_dispatched {db : Chain} {job : Job} (h : job ∈ db.dispatched) :
    job ∈ db.candidates db.observed ∧ db.ready (latest_task db.tasks) job.id = true :=
  List.mem_filter.mp h

/-- Of the candidates of a pass, a job is one at most. -/
theorem Chain.candidates_once {db : Chain} {observed : List Task} {fired : List Job}
    (h : fired.Sublist (db.candidates observed)) (c : JobId) :
    (fired.filter fun job => job.id = c).length ≤ 1 := by
  have hnodup : (fired.filter fun job => job.id = c).Nodup :=
    ((Chain.candidates_nodup _).sublist h).filter _
  have hone : ∀ a ∈ fired.filter (fun job => job.id = c),
      ∀ a' ∈ fired.filter (fun job => job.id = c), a = a' := by
    intro a ha a' ha'
    obtain ⟨hmem, hid⟩ := List.mem_filter.mp ha
    obtain ⟨hmem', hid'⟩ := List.mem_filter.mp ha'
    have hrow := (Chain.mem_candidates.mp (h.subset hmem)).1
    have hrow' := (Chain.mem_candidates.mp (h.subset hmem')).1
    exact Table.eq_of_key hrow hrow'
      ((of_decide_eq_true hid).trans (of_decide_eq_true hid').symm)
  exact hnodup.length_le_one hone

/-- A pass dispatches a job once at most. -/
theorem Chain.length_dispatched_le_one (db : Chain) (c : JobId) :
    (db.dispatched.filter fun job => job.id = c).length ≤ 1 :=
  Chain.candidates_once List.filter_sublist c

/-- What a pass adds to the runs of a job. -/
theorem Chain.Passed.dependency_runs (h : db.Passed ids db') (c : JobId) :
    db'.dependency_runs c = db.dependency_runs c +
      (db.dispatched.filter fun job => job.id = c).length := by
  have hlen := h.grows.length_filter
    (p := fun task => task.job_id = c ∧ task.trigger_type = .dependency ∧ task.retry_count = 0)
    (fun x => by simp only [h.grows.job_id, h.grows.trigger_type, h.grows.retry_count])
  rw [Chain.dependency_runs, hlen, Chain.dependency_runs, List.filter_map, List.length_map]
  congr 2
  refine List.filter_congr fun job _ => ?_
  exact decide_eq_decide.mpr (and_iff_left ⟨rfl, rfl⟩)

end Steps

end Dass
