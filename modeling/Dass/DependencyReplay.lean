/-
# `Dass.DependencyReplay` — passes that observe completions again

The read a pass begins with is a plain `SELECT` of a fresh session, so it may be answered by
a replica that lags: successes that are marked already come back, and others are missing.
Everything after it is read from the primary, but a row that has been loaded stays in the
session as it was loaded, also where the primary has it otherwise by now
(`Task.loaded_as`).

Here passes follow each other, each on whatever a replica shows it, while no upstream of a
job gets a task or changes the status of one.  Between them its own tasks are claimed,
finished, retried and recovered.  The first pass that dispatches the job inserts a task no
older than any completion there is, and from then on the job's latest task counts as
completed after all of them: the job is not dispatched again (`replay_fires_once`).  One thing
must not happen: `_finish` writes by primary key, so a worker that has lost its claim can
record a second result on an upstream's task.  The status stays what it was and the
completion moves (`late_result_fires_again`).
-/
import Dass.DependencyRuns
import Dass.JobService
import Dass.Lib.Run

namespace Dass

open Lts
open TaskRepository (latest_task)

/-! ## A pass behind a replica -/

/-- The row as the session has it: one that it has observed as it was then, marked. -/
def Task.loaded_as (observed : List Task) (row : Task) : Task :=
  match observed.find? fun task => task.id = row.id with
  | none => row
  | some task => task.mark_processed_for_chaining

namespace Chain

/-- `trigger_dependent_jobs`, where the replica has answered its read with `observed`. -/
def pass_on (db : Chain) (ids : JobId → TaskId) (observed : List Task) : Option (Chain × Nat) :=
  if observed = [] then some (db, 0) else
    let candidates := db.candidates observed
    (mark_processed db.tasks observed).bind fun tasks =>
      let db := { db with tasks := tasks }
      if candidates = [] then some (db, 0) else
        let latest := fun job_id =>
          (TaskRepository.latest_task_per_job tasks (db.looked_at candidates) job_id).map
            (Task.loaded_as observed)
        db.dispatch_ready latest ids candidates 0

/-- The latest tasks a pass goes by, in terms of the tables before it. -/
def latest_loaded (db : Chain) (observed : List Task) (job_id : JobId) : Option Task :=
  (latest_task db.tasks job_id).map (Task.loaded_as observed)

/-- The jobs such a pass dispatches. -/
def dispatched_on (db : Chain) (observed : List Task) : List Job :=
  (db.candidates observed).filter fun job => db.ready (db.latest_loaded observed) job.id

end Chain

/-! ### The row a session has -/

section LoadedAs

variable {observed : List Task} {row : Task}

theorem Task.loaded_as_cases (observed : List Task) (row : Task) :
    (row.loaded_as observed = row ∧ row.id ∉ observed.map Task.id) ∨
    ∃ task ∈ observed, task.id = row.id ∧
      row.loaded_as observed = task.mark_processed_for_chaining := by
  unfold Task.loaded_as
  split
  · next hnone =>
      refine .inl ⟨rfl, fun hmem => ?_⟩
      obtain ⟨task, htask, hid⟩ := List.mem_map.mp hmem
      simpa [hid] using List.find?_eq_none.mp hnone task htask
  · next task hsome =>
      exact .inr ⟨task, List.mem_of_find?_eq_some hsome, by simpa using List.find?_some hsome, rfl⟩

/-- The mark does not show in it. -/
theorem Task.loaded_as_chained :
    (row.chained (observed.map Task.id)).loaded_as observed = row.loaded_as observed := by
  rcases Task.loaded_as_cases observed row with ⟨_, hnot⟩ | ⟨task, htask, hid, _⟩
  · rw [Task.chained, if_neg hnot]
  · unfold Task.loaded_as
    rw [Task.chained_id]
    split
    · next hnone =>
        have hnot := List.find?_eq_none.mp hnone task htask
        simp [hid] at hnot
    · rfl

/-- A session that has observed the rows there are has each as it is, marked. -/
theorem Task.loaded_as_present {tasks : Table Task} (hobs : ∀ task ∈ observed, task ∈ tasks.rows)
    (hrow : row ∈ tasks.rows) : row.loaded_as observed = row.chained (observed.map Task.id) := by
  rcases Task.loaded_as_cases observed row with ⟨hsame, hnot⟩ | ⟨task, htask, hid, hmark⟩
  · rw [hsame, Task.chained, if_neg hnot]
  · obtain rfl : task = row := Table.eq_of_key (hobs task htask) hrow hid
    rw [hmark, Task.chained, if_pos (List.mem_map_of_mem htask)]

end LoadedAs

/-! ### What the pass does -/

namespace Chain

variable {db db' : Chain} {ids : JobId → TaskId} {observed : List Task}

/-- The snapshot after the marks is the one before them. -/
theorem latest_loaded_marked {tasks : Table Task}
    (hrows : tasks.rows = db.tasks.rows.map (Task.chained (observed.map Task.id)))
    (job_id : JobId) :
    (latest_task tasks job_id).map (Task.loaded_as observed) =
      db.latest_loaded observed job_id := by
  have hlatest : latest_task tasks job_id
      = (latest_task db.tasks job_id).map (Task.chained (observed.map Task.id)) :=
    TaskRepository.latest_task_grow (Task.chained_job_id _) (Task.chained_created_at _)
      (fun x hx => absurd hx List.not_mem_nil) (hrows.trans (List.append_nil _).symm)
  rw [hlatest, Option.map_map, latest_loaded]
  congr 1
  funext row
  exact Task.loaded_as_chained

/-- **What a pass does behind a replica**: it marks what it was shown, and dispatches the
candidates that are ready by the tasks as its session has them. -/
theorem pass_on_eq {n : Nat} (hp : ∀ task ∈ observed, task.processed_for_chaining = false)
    (h : db.pass_on ids observed = some (db', n)) :
    db.PassedBy ids observed (db.dispatched_on observed) db' := by
  unfold pass_on at h
  split at h
  · next hobs =>
      cases h
      have hnone : db.candidates observed = [] := by
        refine List.eq_nil_iff_forall_not_mem.mpr fun job hjob => ?_
        obtain ⟨_, _, _, _, task, htask, _⟩ := mem_candidates.mp hjob
        rw [hobs] at htask
        cases htask
      rw [dispatched_on, hnone, hobs]
      exact passedBy_marks (List.map_id'' (fun x => Task.chained_nil x) _).symm
  · obtain ⟨marked, hmark, h⟩ := Option.bind_eq_some_iff.mp h
    have hrows := mark_processed_rows hp hmark
    split at h
    · next hcands =>
        cases h
        rw [dispatched_on, hcands]
        exact passedBy_marks hrows
    · obtain ⟨hd, _⟩ := dispatch_ready_eq h
      -- the snapshot holds what the readiness of a candidate depends on
      have hready : ∀ job ∈ db.candidates observed,
          Chain.ready { db with tasks := marked } (fun job_id =>
            (TaskRepository.latest_task_per_job marked
              (Chain.looked_at { db with tasks := marked } (db.candidates observed)) job_id).map
              (Task.loaded_as observed)) job.id = db.ready (db.latest_loaded observed) job.id := by
        intro job hjob
        refine ready_snapshot (g := id) (fun _ => rfl) (fun _ => rfl) ?_ fun up hup => ?_
        · rw [TaskRepository.latest_task_per_job, if_pos, latest_loaded_marked hrows, Option.map_id]
          · rfl
          · exact List.mem_append_left _ (List.mem_map_of_mem hjob)
        · rw [TaskRepository.latest_task_per_job, if_pos, latest_loaded_marked hrows, Option.map_id]
          · rfl
          · exact List.mem_append_right _ (List.mem_flatMap.mpr ⟨job, hjob, List.mem_map_of_mem hup⟩)
      rw [List.filter_congr hready] at hd
      refine ⟨hd.now, hd.jobs, hd.job_dependencies, ?_, hd.normal_queue⟩
      rw [hd.tasks]
      exact congrArg (· ++ _) hrows

/-- Where the replica does not lag, this is the pass. -/
theorem pass_on_present (db : Chain) (ids : JobId → TaskId) :
    db.pass_on ids db.observed = db.trigger_dependent_jobs ids := by
  have hobs := fun task (htask : task ∈ db.observed) =>
    TaskRepository.of_mem_get_unprocessed htask
  rw [trigger_dependent_jobs_eq]
  unfold pass_on pass_in_order
  split
  · rfl
  · refine Option.bind_congr fun tasks hmark => ?_
    have hrows := mark_processed_rows (fun task htask => (hobs task htask).2.2) hmark
    have hsame : ∀ job_ids, (fun job_id =>
        (TaskRepository.latest_task_per_job tasks job_ids job_id).map (Task.loaded_as db.observed))
        = TaskRepository.latest_task_per_job tasks job_ids := by
      intro job_ids
      funext job_id
      unfold TaskRepository.latest_task_per_job
      split
      · cases hlatest : latest_task tasks job_id with
        | none => rfl
        | some row =>
            have hmem := (TaskRepository.latest_task_mem hlatest).1
            rw [hrows] at hmem
            obtain ⟨x, hx, rfl⟩ := List.mem_map.mp hmem
            rw [Option.map_some, Task.loaded_as_chained,
              Task.loaded_as_present (fun task htask => (hobs task htask).1) hx]
      · rfl
    simp only [hsame]

end Chain

/-! ## The runs -/

/-- The database, and every version a row of `tasks` has had: what a replica may still show. -/
structure Replay where
  db : Chain
  past : List Task

/-- The rows there are by now are versions as well. -/
def Replay.next (s : Replay) (db : Chain) : Replay := ⟨db, db.tasks.rows ++ s.past⟩

inductive Replay.Label where
  | tick (d : Int)
  | create (id : TaskId) (job_id : JobId) (trigger_type : TriggerType) (retry_count : Nat)
  | claim (service : WorkerService) (id : TaskId)
  | heartbeat (service : WorkerService) (id : TaskId)
  /-- a worker records a result on the row it has loaded, whatever has become of the row -/
  | finish (loaded : Task) (status : TaskStatus) (stdout stderr : Option String)
  /-- `recover_orphans`, on a row it has listed -/
  | reset (loaded : Task)
  | pass (ids : JobId → TaskId) (observed : List Task)

/-- What a replica may answer the read of a pass with: unprocessed successes, as the rows are
or were. -/
def Replay.Shows (s : Replay) (observed : List Task) : Prop :=
  ∀ task ∈ observed, task ∈ s.past ∧ task.status = .success ∧ task.processed_for_chaining = false

inductive Replay.Step : Replay → Replay.Label → Replay → Prop
  | tick {s : Replay} {d} : 0 ≤ d → Replay.Step s (.tick d) (s.next { s.db with now := s.db.now + d })
  /-- dependency tasks that are no retries come from passes alone -/
  | create {s : Replay} {id job_id trigger_type retry_count tasks} :
      ¬ (trigger_type = .dependency ∧ retry_count = 0) →
      TaskRepository.create s.db.tasks (.fresh id job_id trigger_type retry_count s.db.now)
        = some tasks →
      Replay.Step s (.create id job_id trigger_type retry_count) (s.next { s.db with tasks := tasks })
  | claim {s : Replay} {service id row} : s.db.tasks.get id = some row → row.status = .pending →
      Replay.Step s (.claim service id)
        (s.next { s.db with tasks := s.db.tasks.set (service.claimed row s.db.now) })
  | heartbeat {s : Replay} {service id row} : s.db.tasks.get id = some row →
      row.locked_by = some service.worker_id →
      Replay.Step s (.heartbeat service id)
        (s.next { s.db with tasks := s.db.tasks.set (service.extended row s.db.now) })
  | finish {s : Replay} {loaded status stdout stderr tasks} : loaded ∈ s.past →
      loaded.status = .running → status.terminal = true →
      TaskRepository.flush s.db.tasks loaded (loaded._finish status stdout stderr s.db.now)
        = some tasks →
      Replay.Step s (.finish loaded status stdout stderr) (s.next { s.db with tasks := tasks })
  | reset {s : Replay} {loaded tasks} : loaded ∈ s.past → loaded.status = .running →
      TaskRepository.flush s.db.tasks loaded loaded.mark_running_expired_pending = some tasks →
      Replay.Step s (.reset loaded) (s.next { s.db with tasks := tasks })
  | pass {s : Replay} {ids observed db n} : s.Shows observed →
      s.db.pass_on ids observed = some (db, n) →
      Replay.Step s (.pass ids observed) (s.next db)

/-- No upstream of the job gets a task, and none of theirs changes its status. -/
def Replay.Undisturbed (c : JobId) (s s' : Replay) : Prop :=
  ∀ up ∈ s.db.upstream_jobs c, ∀ row ∈ s'.db.tasks.rows, row.job_id = up.id →
    ∃ old ∈ s.db.tasks.rows, old.id = row.id ∧ old.status = row.status

/-- A step that leaves the upstreams of the job alone. -/
def Replay.Between (c : JobId) (s : Replay) (l : Replay.Label) (s' : Replay) : Prop :=
  Replay.Step s l s' ∧ s.Undisturbed c s'

/-- A result is recorded on an upstream's task while that is running. -/
def Replay.OwnResults (c : JobId) (s : Replay) : Replay.Label → Prop
  | .finish loaded _ _ _ => ∀ up ∈ s.db.upstream_jobs c, ∀ row ∈ s.db.tasks.get loaded.id,
      row.job_id = up.id → row.status = .running
  | _ => True

/-- The stamps come from one clock, and a replica shows rows that are there. -/
structure Replay.Clocked (s : Replay) : Prop where
  present : ∀ x ∈ s.db.tasks.rows, x ∈ s.past
  completed : ∀ x ∈ s.past, x.created_at ≤ _completed_at x ∧ _completed_at x ≤ s.db.now
  there : ∀ x ∈ s.past, ∃ row ∈ s.db.tasks.rows,
    row.id = x.id ∧ row.job_id = x.job_id ∧ row.created_at = x.created_at

/-! ## What a step does to the rows -/

/-- What every write to a row keeps; a stamp it sets is the clock's. -/
structure Writes (now : Int) (f : Task → Task) : Prop where
  id : ∀ x, (f x).id = x.id
  job_id : ∀ x, (f x).job_id = x.job_id
  trigger_type : ∀ x, (f x).trigger_type = x.trigger_type
  retry_count : ∀ x, (f x).retry_count = x.retry_count
  created_at : ∀ x, (f x).created_at = x.created_at
  finished_at : ∀ x, (f x).finished_at = x.finished_at ∨ (f x).finished_at = some now

/-- One row is written. -/
def Task.written (id : TaskId) (f : Task → Task) (x : Task) : Task := if x.id = id then f x else x

theorem Task.written_field {α : Type} (field : Task → α) {f : Task → Task}
    (hf : ∀ x, field (f x) = field x) (id : TaskId) (x : Task) :
    field (x.written id f) = field x := by
  unfold Task.written
  split
  · exact hf x
  · rfl

theorem Writes.written {now : Int} {f : Task → Task} (h : Writes now f) (id : TaskId) :
    Writes now (Task.written id f) where
  id := Task.written_field Task.id h.id id
  job_id := Task.written_field Task.job_id h.job_id id
  trigger_type := Task.written_field Task.trigger_type h.trigger_type id
  retry_count := Task.written_field Task.retry_count h.retry_count id
  created_at := Task.written_field Task.created_at h.created_at id
  finished_at x := by
    unfold Task.written
    split
    · exact h.finished_at x
    · exact .inl rfl

theorem writes_chained (now : Int) (observed : List TaskId) :
    Writes now (Task.chained observed) where
  id := Task.chained_id _
  job_id := Task.chained_job_id _
  trigger_type := Task.chained_trigger_type _
  retry_count := Task.chained_retry_count _
  created_at := Task.chained_created_at _
  finished_at x := .inl (Task.chained_finished_at _ x)

theorem writes_flush {now : Int} {loaded assigned : Task}
    (h : assigned.finished_at = loaded.finished_at ∨ assigned.finished_at = some now) :
    Writes now (Task.flush loaded assigned) where
  id _ := rfl
  job_id _ := rfl
  trigger_type _ := rfl
  retry_count _ := rfl
  created_at _ := rfl
  finished_at x := by
    simp only [Task.flush, Orm.emit]
    split
    · exact .inl rfl
    · next hne => exact .inr (h.resolve_left hne)

theorem writes_id (now : Int) : Writes now id :=
  ⟨fun _ => rfl, fun _ => rfl, fun _ => rfl, fun _ => rfl, fun _ => rfl, fun _ => .inl rfl⟩

theorem writes_event (now : Int) (e : RowEvent) : Writes now (e.row now) where
  id := RowEvent.row_id e
  job_id := RowEvent.row_job_id e
  trigger_type := RowEvent.row_trigger_type e
  retry_count := RowEvent.row_retry_count e
  created_at := RowEvent.row_created_at e
  finished_at x := by
    cases e with
    | claim | heartbeat | expire => exact .inl rfl
    | success | failed => exact .inr rfl

/-- An update by key is a write of the row with that id. -/
theorem Table.rows_set_written {tasks : Table Task} {id : TaskId} {row : Task}
    (hrow : tasks.get id = some row) {f : Task → Task} (hid : (f row).id = row.id) :
    (tasks.set (f row)).rows = tasks.rows.map (Task.written id f) := by
  have hkey : row.id = id := Table.key_of_get hrow
  refine List.map_congr_left fun x hx => ?_
  simp only [key_task, hid, hkey, Task.written]
  split
  · next heq => rw [Table.eq_of_get hrow hx heq]
  · rfl

/-- The step records a result on the row. -/
def Replay.Label.Finishes (l : Replay.Label) (x x' : Task) : Prop :=
  ∃ loaded status stdout stderr, l = .finish loaded status stdout stderr ∧ loaded.id = x.id ∧
    x'.status.terminal = true

/-- What a step leaves: rows written in place, and new ones. -/
structure Replay.Leaves (s : Replay) (l : Replay.Label) (f : Task → Task) (added : List Task)
    (s' : Replay) : Prop where
  past : s'.past = s'.db.tasks.rows ++ s.past
  now : s.db.now ≤ s'.db.now
  upstream_jobs : s'.db.upstream_jobs = s.db.upstream_jobs
  rows : s'.db.tasks.rows = s.db.tasks.rows.map f ++ added
  writes : Writes s.db.now f
  kept : ∀ x, (f x).finished_at = x.finished_at ∨ l.Finishes x (f x)
  fresh : ∀ x ∈ added, ∃ id job_id trigger_type retry_count,
    x = .fresh id job_id trigger_type retry_count s.db.now
  fired : ∀ x ∈ added, x.trigger_type = .dependency ∧ x.retry_count = 0 →
    ∃ ids observed, l = .pass ids observed

section Leaves

variable {s s' : Replay} {l : Replay.Label}

/-- A commit to one row. -/
theorem Replay.leaves_written {tasks : Table Task} {id : TaskId} {f : Task → Task}
    (hf : Writes s.db.now f) (hrows : tasks.rows = s.db.tasks.rows.map (Task.written id f))
    (hkept : ∀ x, x.id = id → (f x).finished_at = x.finished_at ∨ l.Finishes x (f x)) :
    s.Leaves l (Task.written id f) [] (s.next { s.db with tasks := tasks }) where
  past := rfl
  now := le_rfl
  upstream_jobs := rfl
  rows := hrows.trans (List.append_nil _).symm
  writes := hf.written id
  kept x := by
    unfold Task.written
    split
    · next hid => exact hkept x hid
    · exact .inl rfl
  fresh := by intro x hx; cases hx
  fired := by intro x hx; cases hx

/-- A commit of an object that was loaded. -/
theorem Replay.leaves_flush {tasks : Table Task} {loaded assigned : Task}
    (hstamp : assigned.finished_at = loaded.finished_at ∨ assigned.finished_at = some s.db.now)
    (hflush : TaskRepository.flush s.db.tasks loaded assigned = some tasks)
    (hkept : ∀ x, x.id = loaded.id → (Task.flush loaded assigned x).finished_at = x.finished_at ∨
      l.Finishes x (Task.flush loaded assigned x)) :
    s.Leaves l (Task.written loaded.id (Task.flush loaded assigned)) []
      (s.next { s.db with tasks := tasks }) := by
  obtain ⟨stored, hstored, rfl⟩ := Option.map_eq_some_iff.mp hflush
  exact leaves_written (writes_flush hstamp) (Table.rows_set_written hstored rfl) hkept

/-- What a pass leaves. -/
theorem Replay.leaves_pass {ids : JobId → TaskId} {observed : List Task} {fired : List Job}
    {db : Chain} (h : s.db.PassedBy ids observed fired db) :
    s.Leaves (.pass ids observed) (Task.chained (observed.map Task.id))
      (fired.map fun job => .fresh (ids job.id) job.id .dependency 0 s.db.now) (s.next db) where
  past := rfl
  now := h.now.ge
  upstream_jobs := Chain.upstream_jobs_congr h.jobs h.job_dependencies
  rows := h.tasks
  writes := writes_chained _ _
  kept x := .inl (Task.chained_finished_at _ x)
  fresh := by
    intro x hx
    obtain ⟨job, _, rfl⟩ := List.mem_map.mp hx
    exact ⟨_, _, _, _, rfl⟩
  fired _ _ _ := ⟨ids, observed, rfl⟩

theorem Replay.Step.leaves (h : Replay.Step s l s') : ∃ f added, s.Leaves l f added s' := by
  cases h with
  | tick hd =>
      refine ⟨id, [], rfl, Int.le_add_of_nonneg_right hd, rfl, ?_, writes_id _,
        fun _ => .inl rfl, ?_, ?_⟩
      · rw [List.map_id, List.append_nil]
        rfl
      · intro x hx
        cases hx
      · intro x hx
        cases hx
  | create hnot hcreate =>
      have hg := grows_create hcreate
      refine ⟨id, _, rfl, le_rfl, rfl, hg.eq, writes_id _, fun _ => .inl rfl, hg.fresh, ?_⟩
      intro x hx hdep
      obtain rfl := List.mem_singleton.mp hx
      exact absurd hdep hnot
  | @claim service id row hrow _ =>
      have hf := writes_event s.db.now (.claim service)
      exact ⟨_, _, leaves_written hf (Table.rows_set_written hrow (hf.id row)) fun _ _ => .inl rfl⟩
  | @heartbeat service id row hrow _ =>
      have hf := writes_event s.db.now (.heartbeat service)
      exact ⟨_, _, leaves_written hf (Table.rows_set_written hrow (hf.id row)) fun _ _ => .inl rfl⟩
  | @finish loaded status stdout stderr tasks _ hrunning hterm hflush =>
      refine ⟨_, _, leaves_flush (.inr rfl) hflush fun x hid => .inr ⟨_, _, _, _, rfl, hid.symm, ?_⟩⟩
      -- the status differs from the loaded one, so it is sent
      have hdirty : status ≠ loaded.status := by
        rintro rfl
        rw [hrunning] at hterm
        cases hterm
      have hsent : (Task.flush loaded (loaded._finish status stdout stderr s.db.now) x).status
          = status := Orm.emit_dirty hdirty
      rw [hsent]
      exact hterm
  | @reset loaded tasks _ _ hflush =>
      have hclean : loaded.mark_running_expired_pending.finished_at = loaded.finished_at := rfl
      refine ⟨_, _, leaves_flush (.inl hclean) hflush fun x _ => .inl ?_⟩
      exact Orm.emit_clean loaded.finished_at x.finished_at
  | pass hshows hpass =>
      exact ⟨_, _, leaves_pass (Chain.pass_on_eq (fun task htask => (hshows task htask).2.2) hpass)⟩

/-- What a step adds to the runs of a job. -/
theorem Replay.Leaves.dependency_runs {f : Task → Task} {added : List Task}
    (h : s.Leaves l f added s') (c : JobId) : s'.db.dependency_runs c = s.db.dependency_runs c +
      (added.filter fun task =>
        task.job_id = c ∧ task.trigger_type = .dependency ∧ task.retry_count = 0).length := by
  have hf := h.writes
  rw [Chain.dependency_runs, Chain.dependency_runs, h.rows, List.filter_append, List.filter_map,
    List.length_append, List.length_map]
  congr 2
  refine List.filter_congr fun x _ => ?_
  simp only [Function.comp_apply, hf.job_id, hf.trigger_type, hf.retry_count]

end Leaves

/-! ## The invariant -/

/-- The job has a task that was created no earlier than any completion of its upstreams. -/
def Replay.Absorbed (c : JobId) (s : Replay) : Prop :=
  ∃ own ∈ s.db.tasks.rows, own.job_id = c ∧
    ∀ up ∈ s.db.upstream_jobs c, ∀ x ∈ s.past, x.job_id = up.id → _completed_at x ≤ own.created_at

/-- Where the job has been dispatched, that was once, and it is not due again. -/
structure ReplayInv (c : JobId) (n : Nat) (s : Replay) : Prop where
  clocked : s.Clocked
  fired : s.db.dependency_runs c = n ∨ s.db.dependency_runs c = n + 1 ∧ s.Absorbed c

section Step

variable {s s' : Replay} {l : Replay.Label} {f : Task → Task} {added : List Task} {c : JobId}

theorem Replay.Leaves.mem (h : s.Leaves l f added s') {x' : Task} :
    x' ∈ s'.db.tasks.rows ↔ (∃ x ∈ s.db.tasks.rows, f x = x') ∨ x' ∈ added := by
  rw [h.rows, List.mem_append, List.mem_map]

theorem Replay.Clocked.step (hi : s.Clocked) (h : s.Leaves l f added s') : s'.Clocked where
  present x hx := by
    rw [h.past]
    exact List.mem_append_left _ hx
  completed x hx := by
    rw [h.past] at hx
    rcases List.mem_append.mp hx with hrow | hpast
    · rcases h.mem.mp hrow with ⟨y, hy, rfl⟩ | hnew
      · obtain ⟨hcreated, hdone⟩ := hi.completed y (hi.present y hy)
        have hcompleted : _completed_at (f y) = _completed_at y ∨ _completed_at (f y) = s.db.now := by
          unfold _completed_at
          rw [h.writes.created_at]
          rcases h.writes.finished_at y with hsame | hnow
          · exact .inl (by rw [hsame])
          · exact .inr (by rw [hnow]; rfl)
        have hnow := h.now
        rw [h.writes.created_at]
        rcases hcompleted with heq | heq <;> rw [heq] <;> omega
      · obtain ⟨_, _, _, _, rfl⟩ := h.fresh x hnew
        exact ⟨le_rfl, h.now⟩
    · obtain ⟨hcreated, hdone⟩ := hi.completed x hpast
      exact ⟨hcreated, hdone.trans h.now⟩
  there x hx := by
    rw [h.past] at hx
    rcases List.mem_append.mp hx with hrow | hpast
    · exact ⟨x, hrow, rfl, rfl, rfl⟩
    · obtain ⟨row, hrow, hid, hjob, hcreated⟩ := hi.there x hpast
      exact ⟨f row, h.mem.mpr (.inl ⟨row, hrow, rfl⟩), (h.writes.id row).trans hid,
        (h.writes.job_id row).trans hjob, (h.writes.created_at row).trans hcreated⟩

/-- The completions of the upstreams stand still. -/
theorem Replay.Leaves.completions (h : s.Leaves l f added s') (hquiet : s.Undisturbed c s')
    (hown : s.OwnResults c l) {up : Job} (hup : up ∈ s.db.upstream_jobs c) {x' : Task}
    (hx' : x' ∈ s'.db.tasks.rows) (hjob : x'.job_id = up.id) :
    ∃ x ∈ s.db.tasks.rows, x.job_id = up.id ∧ _completed_at x' = _completed_at x := by
  obtain ⟨x, hx, hid, hstatus⟩ := hquiet up hup x' hx' hjob
  obtain rfl : f x = x' :=
    Table.eq_of_key (h.mem.mpr (.inl ⟨x, hx, rfl⟩)) hx' ((h.writes.id x).trans hid)
  rw [h.writes.job_id] at hjob
  refine ⟨x, hx, hjob, ?_⟩
  rcases h.kept x with hsame | ⟨loaded, status, stdout, stderr, rfl, hloaded, hterm⟩
  · rw [_completed_at, hsame, h.writes.created_at]
    rfl
  · -- a result on a running row would have changed its status
    have hrunning := hown up hup x (hloaded ▸ Table.get_of_mem hx) hjob
    rw [← hstatus, hrunning] at hterm
    cases hterm

theorem Replay.Absorbed.step (hi : s.Clocked) (ha : s.Absorbed c) (h : s.Leaves l f added s')
    (hquiet : s.Undisturbed c s') (hown : s.OwnResults c l) : s'.Absorbed c := by
  obtain ⟨own, hmem, hjob, hle⟩ := ha
  refine ⟨f own, h.mem.mpr (.inl ⟨own, hmem, rfl⟩), (h.writes.job_id own).trans hjob, ?_⟩
  rw [h.upstream_jobs, h.writes.created_at]
  intro up hup x hx hxjob
  rw [h.past] at hx
  rcases List.mem_append.mp hx with hrow | hpast
  · obtain ⟨y, hy, hyjob, heq⟩ := h.completions hquiet hown hup hrow hxjob
    rw [heq]
    exact hle up hup y (hi.present y hy) hyjob
  · exact hle up hup x hpast hxjob

/-- What a pass takes for a row: a version of that row, marked or not. -/
theorem Replay.Clocked.loaded (hi : s.Clocked) {observed : List Task} (hobs : s.Shows observed)
    {row : Task} (hrow : row ∈ s.db.tasks.rows) :
    ∃ x ∈ s.past, x.job_id = row.job_id ∧ x.created_at = row.created_at ∧
      _completed_at (row.loaded_as observed) = _completed_at x := by
  rcases Task.loaded_as_cases observed row with ⟨hsame, _⟩ | ⟨task, htask, hid, hmark⟩
  · exact ⟨row, hi.present row hrow, rfl, rfl, by rw [hsame]⟩
  · have hpast := (hobs task htask).1
    obtain ⟨other, hother, hid', hjob, hcreated⟩ := hi.there task hpast
    obtain rfl : other = row := Table.eq_of_key hother hrow (hid'.trans hid)
    exact ⟨task, hpast, hjob.symm, hcreated.symm, by rw [hmark]; rfl⟩

/-- **The guard absorbs what is observed again.** -/
theorem Replay.Absorbed.not_ready (hi : s.Clocked) (ha : s.Absorbed c) {observed : List Task}
    (hobs : s.Shows observed) : s.db.ready (s.db.latest_loaded observed) c = false := by
  rw [Bool.eq_false_iff]
  intro hready
  obtain ⟨_, _, hbefore⟩ := Chain.ready_iff.mp hready
  obtain ⟨own, hmem, hjob, hle⟩ := ha
  cases hlatest : latest_task s.db.tasks c with
  | none => exact TaskRepository.latest_task_eq_none.mp hlatest own hmem hjob
  | some row =>
      -- the latest task is no older than the one that absorbs the completions
      have hnewer : own.created_at ≤ row.created_at :=
        TaskRepository.created_at_le_latest hlatest hmem hjob
      obtain ⟨x, hx, _, hcreated, hcompleted⟩ :=
        hi.loaded hobs (TaskRepository.latest_task_mem hlatest).1
      have hage := (hi.completed x hx).1
      obtain ⟨up, hup, task, htask, hlt⟩ := hbefore (row.loaded_as observed) (by
        rw [Chain.latest_loaded, hlatest]
        rfl)
      obtain ⟨up_row, hup_row, rfl⟩ := Option.map_eq_some_iff.mp htask
      obtain ⟨hup_mem, hup_job⟩ := TaskRepository.latest_task_mem hup_row
      obtain ⟨y, hy, hyjob, _, hycompleted⟩ := hi.loaded hobs hup_mem
      have hdone := hle up hup y hy (hyjob.trans hup_job)
      omega

/-- A step dispatches the job once or not at all, and a pass that does finds it ready. -/
theorem Replay.Step.fires (h : Replay.Step s l s') (c : JobId) :
    s'.db.dependency_runs c = s.db.dependency_runs c ∨
    s'.db.dependency_runs c = s.db.dependency_runs c + 1 ∧ s'.db.now = s.db.now ∧
      (∃ own ∈ s'.db.tasks.rows, own.job_id = c ∧ own.created_at = s.db.now) ∧
      ∃ observed, s.Shows observed ∧ s.db.ready (s.db.latest_loaded observed) c = true := by
  by_cases hpass : ∃ ids observed, l = .pass ids observed
  · obtain ⟨ids, observed, rfl⟩ := hpass
    cases h with
    | @pass _ _ db n hshows hpass =>
        have hby := Chain.pass_on_eq (fun task htask => (hshows task htask).2.2) hpass
        have hruns := (leaves_pass hby).dependency_runs c
        rw [List.filter_map, List.length_map] at hruns
        have hfired : ((s.db.dispatched_on observed).filter fun job => job.id = c).length ≤ 1 :=
          Chain.candidates_once List.filter_sublist c
        have hsame : (s.db.dispatched_on observed).filter ((fun task : Task =>
            decide (task.job_id = c ∧ task.trigger_type = .dependency ∧ task.retry_count = 0)) ∘
            fun job => .fresh (ids job.id) job.id .dependency 0 s.db.now)
            = (s.db.dispatched_on observed).filter fun job => job.id = c :=
          List.filter_congr fun job _ => decide_eq_decide.mpr (and_iff_left ⟨rfl, rfl⟩)
        rw [hsame] at hruns
        cases hlist : (s.db.dispatched_on observed).filter fun job => job.id = c with
        | nil =>
            rw [hlist] at hruns
            exact .inl hruns
        | cons job rest =>
            have hmem : job ∈ (s.db.dispatched_on observed).filter fun job => job.id = c :=
              hlist ▸ List.mem_cons_self
            obtain ⟨hdisp, hid⟩ := List.mem_filter.mp hmem
            obtain rfl : job.id = c := of_decide_eq_true hid
            refine .inr ⟨?_, hby.now, ⟨Task.fresh (ids job.id) job.id .dependency 0 s.db.now, ?_,
              rfl, rfl⟩, observed, hshows, ?_⟩
            · rw [hlist, List.length_cons] at hfired hruns
              omega
            · refine hby.tasks.symm ▸ ?_
              exact List.mem_append_right _ (List.mem_map_of_mem (f := fun job : Job =>
                Task.fresh (ids job.id) job.id .dependency 0 s.db.now) hdisp)
            · exact (List.mem_filter.mp hdisp).2
  · obtain ⟨f, added, hleaves⟩ := h.leaves
    have hruns := hleaves.dependency_runs c
    have hnone : added.filter (fun task =>
        task.job_id = c ∧ task.trigger_type = .dependency ∧ task.retry_count = 0) = [] := by
      refine List.filter_eq_nil_iff.mpr fun x hx hc => hpass ?_
      exact hleaves.fired x hx (of_decide_eq_true hc).2
    rw [hnone] at hruns
    exact .inl hruns

/-- **The step lemma.** -/
theorem replayInv_step {n : Nat} (hi : ReplayInv c n s) (hown : s.OwnResults c l)
    (h : s.Between c l s') : ReplayInv c n s' := by
  obtain ⟨hstep, hquiet⟩ := h
  obtain ⟨f, added, hleaves⟩ := hstep.leaves
  have hclocked := hi.clocked.step hleaves
  refine ⟨hclocked, ?_⟩
  rcases hstep.fires c with hsame | ⟨hone, hnow, ⟨own, hmem, hjob, hcreated⟩, observed, hobs, hready⟩
  · rw [hsame]
    exact hi.fired.imp_right fun hdone =>
      ⟨hdone.1, hdone.2.step hi.clocked hleaves hquiet hown⟩
  · rcases hi.fired with hn | ⟨_, habsorbed⟩
    · -- every completion there is lies behind the task the pass has made
      refine .inr ⟨by rw [hone, hn], own, hmem, hjob, fun up _ x hx _ => ?_⟩
      rw [hcreated, ← hnow]
      exact (hclocked.completed x hx).2
    · rw [habsorbed.not_ready hi.clocked hobs] at hready
      cases hready

end Step

/-! ## Running it -/

section Decide

instance (s : Replay) (observed : List Task) : Decidable (s.Shows observed) :=
  inferInstanceAs (Decidable (∀ task ∈ observed, _ ∧ _ ∧ _))

instance (c : JobId) (s s' : Replay) : Decidable (s.Undisturbed c s') :=
  inferInstanceAs (Decidable (∀ up ∈ s.db.upstream_jobs c, ∀ row ∈ s'.db.tasks.rows, _ →
    ∃ old ∈ s.db.tasks.rows, _ ∧ _))

instance (c : JobId) (s : Replay) : (l : Replay.Label) → Decidable (s.OwnResults c l)
  | .finish loaded _ _ _ => inferInstanceAs (Decidable (∀ up ∈ s.db.upstream_jobs c,
      ∀ row ∈ s.db.tasks.get loaded.id, _ → _))
  | .tick _ | .create _ _ _ _ | .claim _ _ | .heartbeat _ _ | .reset _ | .pass _ _ => isTrue trivial

/-- The database a label leads to. -/
def Replay.apply (s : Replay) : Replay.Label → Option Chain
  | .tick d => if 0 ≤ d then some { s.db with now := s.db.now + d } else none
  | .create id job_id trigger_type retry_count =>
      if trigger_type = .dependency ∧ retry_count = 0 then none else
        (TaskRepository.create s.db.tasks (.fresh id job_id trigger_type retry_count s.db.now)).map
          fun tasks => { s.db with tasks := tasks }
  | .claim service id => (s.db.tasks.get id).bind fun row =>
      if row.status = .pending then
        some { s.db with tasks := s.db.tasks.set (service.claimed row s.db.now) }
      else none
  | .heartbeat service id => (s.db.tasks.get id).bind fun row =>
      if row.locked_by = some service.worker_id then
        some { s.db with tasks := s.db.tasks.set (service.extended row s.db.now) }
      else none
  | .finish loaded status stdout stderr =>
      if loaded ∈ s.past ∧ loaded.status = .running ∧ status.terminal = true then
        (TaskRepository.flush s.db.tasks loaded (loaded._finish status stdout stderr s.db.now)).map
          fun tasks => { s.db with tasks := tasks }
      else none
  | .reset loaded =>
      if loaded ∈ s.past ∧ loaded.status = .running then
        (TaskRepository.flush s.db.tasks loaded loaded.mark_running_expired_pending).map
          fun tasks => { s.db with tasks := tasks }
      else none
  | .pass ids observed =>
      if s.Shows observed then (s.db.pass_on ids observed).map Prod.fst else none

theorem Replay.step_of_apply {s : Replay} {l : Replay.Label} {db : Chain}
    (h : s.apply l = some db) :
    Replay.Step s l (s.next db) := by
  cases l with
  | tick d =>
      simp only [Replay.apply] at h
      split at h
      · next hd => cases h; exact .tick hd
      · cases h
  | create id job_id trigger_type retry_count =>
      simp only [Replay.apply] at h
      split at h
      · cases h
      · next hnot =>
          obtain ⟨tasks, hcreate, rfl⟩ := Option.map_eq_some_iff.mp h
          exact .create hnot hcreate
  | claim service id =>
      obtain ⟨row, hrow, h⟩ := Option.bind_eq_some_iff.mp h
      split at h
      · next hpending => cases h; exact .claim hrow hpending
      · cases h
  | heartbeat service id =>
      obtain ⟨row, hrow, h⟩ := Option.bind_eq_some_iff.mp h
      split at h
      · next hlock => cases h; exact .heartbeat hrow hlock
      · cases h
  | finish loaded status stdout stderr =>
      simp only [Replay.apply] at h
      split at h
      · next hc =>
          obtain ⟨tasks, hflush, rfl⟩ := Option.map_eq_some_iff.mp h
          exact .finish hc.1 hc.2.1 hc.2.2 hflush
      · cases h
  | reset loaded =>
      simp only [Replay.apply] at h
      split at h
      · next hc =>
          obtain ⟨tasks, hflush, rfl⟩ := Option.map_eq_some_iff.mp h
          exact .reset hc.1 hc.2 hflush
      · cases h
  | pass ids observed =>
      simp only [Replay.apply] at h
      split at h
      · next hshows =>
          obtain ⟨⟨_, n⟩, hpass, rfl⟩ := Option.map_eq_some_iff.mp h
          exact .pass hshows hpass
      · cases h

/-- The step a label stands for, if it leaves the upstreams of the job alone. -/
def Replay.exec (c : JobId) (s : Replay) (l : Replay.Label) : Option Replay :=
  (s.apply l).bind fun db => if s.Undisturbed c (s.next db) then some (s.next db) else none

theorem Replay.between_of_exec {c : JobId} {s s' : Replay} {l : Replay.Label}
    (h : s.exec c l = some s') : s.Between c l s' := by
  obtain ⟨db, hdb, h⟩ := Option.bind_eq_some_iff.mp h
  split at h
  · next hquiet =>
      cases h
      exact ⟨Replay.step_of_apply hdb, hquiet⟩
  · cases h

end Decide

/-- **What is observed again fires nothing again.**  In every run in which no upstream of a job
gets a task or changes the status of one, and no second result is recorded on one, passes
dispatch the job at most once, whatever successes a replica shows them and whatever becomes
of the job's own tasks. -/
theorem replay_fires_once {c : JobId} {s t : Replay} (hs : s.Clocked)
    (hrun : Run (Replay.Between c) (Replay.OwnResults c) s t) :
    t.db.dependency_runs c ≤ s.db.dependency_runs c + 1 := by
  have hi : ReplayInv c (s.db.dependency_runs c) t :=
    hrun.invariant (fun hi hown h => replayInv_step hi hown h) ⟨hs, .inl rfl⟩
  rcases hi.fired with heq | ⟨heq, _⟩
  · rw [heq]
    exact Nat.le_succ _
  · exact heq.le

/-- A task that a worker has claimed, and the same task done at second 10. -/
def example_claimed_task (id : TaskId) (job_id : JobId) : Task :=
  example_worker.claimed (.fresh id job_id .manual 0 0) (seconds 1)

def example_succeeded (id : TaskId) (job_id : JobId) : Task :=
  (example_claimed_task id job_id).mark_success none none (seconds 10)

/-- Jobs 1 and 2, the upstreams of job 3, have run once each; a worker has loaded the task of
job 1 as it was. -/
def example_replay : Replay where
  db :=
    { now := seconds 11
      jobs := example_trio
      job_dependencies := [(1, 3), (2, 3)]
      tasks := ([example_succeeded 1 1, example_succeeded 2 2].foldlM TaskRepository.create
        .empty).getD .empty
      normal_queue := [] }
  past := [example_succeeded 1 1, example_succeeded 2 2, example_claimed_task 1 1,
    example_claimed_task 2 2]

theorem example_replay_clocked : example_replay.Clocked :=
  ⟨by decide, by decide, by decide⟩

/-- The task of job 3 that the first pass makes, in the hands of a worker. -/
def example_own : Task :=
  example_worker.claimed (.fresh 3 3 .dependency 0 (seconds 11)) (seconds 11)

/-- A pass is shown one of the two successes; the job runs. -/
def example_first_run : List Replay.Label :=
  [.pass (fun _ => 3) [example_succeeded 1 1], .claim example_worker 3, .tick (seconds 4),
    .finish example_own .success none none, .tick (seconds 5)]

/-- Later passes are shown both successes again, and fire nothing. -/
theorem replay_fires_once_again : ∃ t,
    Run (Replay.Between 3) (Replay.OwnResults 3) example_replay t ∧
      t.db.dependency_runs 3 ≤ example_replay.db.dependency_runs 3 + 1 ∧
      t.db.dependency_runs 3 = 1 := by
  obtain ⟨t, ht, h⟩ := (Option.any_eq_true _ _).mp
    (show (exec (Replay.exec 3) (Replay.OwnResults 3) example_replay
      (example_first_run ++ [.pass (fun _ => 4) [example_succeeded 2 2],
        .pass (fun _ => 5) [example_succeeded 1 1, example_succeeded 2 2]])).any (fun t =>
        t.db.dependency_runs 3 = 1) = true by decide +kernel)
  have hrun := Run.of_exec Replay.between_of_exec ht
  exact ⟨t, hrun, replay_fires_once example_replay_clocked hrun, of_decide_eq_true h⟩

/-- A worker that has lost its claim records the success of job 1 once more, after job 3 has
run.  The next pass, shown the other success, takes the new stamp for a new completion. -/
theorem late_result_fires_again : ∃ t,
    example_replay.Clocked ∧ Run (Replay.Between 3) Any example_replay t ∧
      example_replay.db.dependency_runs 3 = 0 ∧ t.db.dependency_runs 3 = 2 := by
  obtain ⟨t, ht, h⟩ := (Option.any_eq_true _ _).mp
    (show (exec (Replay.exec 3) Any example_replay
      (example_first_run ++ [.finish (example_claimed_task 1 1) .success none none,
        .pass (fun _ => 4) [example_succeeded 2 2]])).any (fun t =>
        t.db.dependency_runs 3 = 2) = true by decide +kernel)
  exact ⟨t, example_replay_clocked, Run.of_exec Replay.between_of_exec ht, rfl,
    of_decide_eq_true h⟩

end Dass
