/-
# `Dass.DependencyGuard` — which completions the idempotency guard swallows

A pass that observes an upstream's success and finds every upstream successful
still skips the job when its own latest task *completed* at or after the newest
upstream did, whenever that task *started*.  While the job's run is unfinished
its `created_at` stands in for its completion and the guard decides rightly; once
the run has finished after the upstream's completion, the guard takes it for a
run of that completion although it started before (`chain_fires_iff`).
-/
import Dass.DependencyScheduler
import Dass.JobService

namespace Dass

open TaskRepository (latest_task)

namespace Chain

/-- The pass has inserted a dependency task for the job. -/
def Creates (db db' : Chain) (job_id : JobId) : Prop :=
  ∃ task ∈ db'.tasks.rows, db.tasks.get task.id = none ∧ task.job_id = job_id ∧
    task.trigger_type = .dependency ∧ task.retry_count = 0

/-- The state before a pass that has a completion to hand on to the job: the newest
upstream completion is later than the start of the job's latest task. -/
structure Awaits (db : Chain) (job : Job) : Prop where
  row : db.jobs.get job.id = some job
  enabled : job.enabled = true
  succeeded : db.UpstreamsSucceeded (latest_task db.tasks) job.id
  observed : ∃ up ∈ db.upstream_jobs job.id, ∃ task ∈ db.observed, task.job_id = up.id
  newer : ∀ own ∈ latest_task db.tasks job.id,
    db.BeforeCompletion (latest_task db.tasks) job.id own.created_at

/-- The latest task of the job, if it has finished, finished before the newest upstream
completion. -/
def FinishedBefore (db : Chain) (job_id : JobId) : Prop :=
  ∀ own ∈ latest_task db.tasks job_id, ∀ t ∈ own.finished_at,
    db.BeforeCompletion (latest_task db.tasks) job_id t

instance (db : Chain) (job_id : JobId) : Decidable (db.FinishedBefore job_id) :=
  inferInstanceAs (Decidable (∀ own ∈ latest_task db.tasks job_id, ∀ t ∈ own.finished_at, _))

variable {db db' : Chain} {ids : JobId → TaskId}

/-- The new rows of a pass are those of the jobs it dispatches. -/
theorem Passed.creates_iff (h : db.Passed ids db') (job_id : JobId) :
    db.Creates db' job_id ↔ ∃ job ∈ db.dispatched, job.id = job_id := by
  have hnodup := db'.tasks.nodup
  rw [h.tasks, List.map_append, List.nodup_append] at hnodup
  constructor
  · rintro ⟨task, hmem, hnew, hjob, _⟩
    rw [h.tasks] at hmem
    rcases List.mem_append.mp hmem with hold | hins
    · obtain ⟨row, hrow, rfl⟩ := List.mem_map.mp hold
      have hget := Table.get_of_mem hrow
      rw [key_task, ← Task.chained_id (db.observed.map Task.id) row, hnew] at hget
      cases hget
    · obtain ⟨job, hdisp, rfl⟩ := List.mem_map.mp hins
      exact ⟨job, hdisp, hjob⟩
  · rintro ⟨job, hdisp, rfl⟩
    have hmem := List.mem_map_of_mem (f := fun job : Job =>
      Task.fresh (ids job.id) job.id .dependency 0 db.now) hdisp
    refine ⟨_, by rw [h.tasks]; exact List.mem_append_right _ hmem, ?_, rfl, rfl, rfl⟩
    refine Table.get_eq_none.mpr fun row hrow heq => ?_
    -- its id is not one of the rows that were there
    refine hnodup.2.2 row.id ?_ (ids job.id) (List.mem_map.mpr ⟨_, hmem, rfl⟩) heq
    exact List.mem_map.mpr ⟨_, List.mem_map_of_mem hrow, Task.chained_id _ row⟩

/-- A job whose upstream was observed is a candidate. -/
theorem Awaits.candidate {job : Job} (h : db.Awaits job) : job ∈ db.candidates db.observed := by
  obtain ⟨up, hup, task, htask, hid⟩ := h.observed
  exact mem_candidates.mpr ⟨Table.mem_of_get h.row, h.enabled, up, hup, task, htask, hid⟩

/-- **A completion is handed on unless a run that started before it finished after it.**
Where a pass has a completion to hand on to a job, it creates a task for the job if and
only if the job's latest task is unfinished or finished before that completion. -/
theorem chain_fires_iff {job : Job} {n : Nat}
    (hpass : db.trigger_dependent_jobs ids = some (db', n)) (h : db.Awaits job) :
    db.Creates db' job.id ↔ db.FinishedBefore job.id := by
  rw [(pass_eq hpass).1.creates_iff]
  have hne : db.upstream_jobs job.id ≠ [] := by
    obtain ⟨up, hup, _⟩ := h.observed
    exact List.ne_nil_of_mem hup
  have hready : job ∈ db.dispatched ↔ db.FinishedBefore job.id := by
    rw [dispatched, List.mem_filter, and_iff_right h.candidate, ready_iff, and_iff_right hne,
      and_iff_right h.succeeded]
    refine forall₂_congr fun own hown => ?_
    cases hf : own.finished_at with
    | none =>
        -- an unfinished run counts as completed when it was created
        refine iff_of_true ?_ (by intro t ht; cases ht)
        simpa only [_completed_at, hf, Option.getD_none] using h.newer own hown
    | some t => simp only [_completed_at, hf, Option.getD_some, Option.mem_some_iff, forall_eq']
  rw [← hready]
  constructor
  · rintro ⟨other, hother, hid⟩
    have hrow := (mem_candidates.mp (List.mem_filter.mp hother).1).1
    obtain rfl : other = job := Table.eq_of_get h.row hrow hid
    exact hother
  · intro hmem
    exact ⟨job, hmem, rfl⟩

/-- Job 3 depends on job 1 and runs since second 11; job 1 has completed again at second
30.  `own` is the row of the run by now. -/
def example_late (own : Task → Task) : Chain where
  now := seconds 50
  jobs := example_trio
  job_dependencies := [(1, 3)]
  tasks :=
    ([{ Task.fresh 1 1 .manual 0 0 with processed_for_chaining := true }.mark_success none none
        (seconds 10),
      own (Task.fresh 2 3 .dependency 0 (seconds 11)),
      (Task.fresh 3 1 .manual 0 (seconds 20)).mark_success none none (seconds 30)].foldlM
        TaskRepository.create .empty).getD .empty
  normal_queue := []

/-- The run is under way. -/
def example_running : Chain :=
  example_late fun own => { own with status := .running, started_at := some (seconds 11) }

/-- The run has succeeded at second 40. -/
def example_finished : Chain :=
  example_late fun own => own.mark_success none none (seconds 40)

/-- While the run is under way, the pass hands the completion on. -/
theorem chain_fires_past_running : ∃ db' n job,
    example_running.trigger_dependent_jobs (fun _ => 4) = some (db', n) ∧
      example_running.Awaits job ∧ example_running.Creates db' job.id := by
  have hwaits : example_running.Awaits ((example_trio.get 3).get (by decide)) :=
    ⟨by decide, by decide, by decide, by decide, by decide⟩
  obtain ⟨⟨db', n⟩, hpass⟩ := Option.isSome_iff_exists.mp
    (show (example_running.trigger_dependent_jobs fun _ => 4).isSome by decide)
  exact ⟨db', n, _, hpass, hwaits, (chain_fires_iff hpass hwaits).mpr (by decide)⟩

/-- Once it has finished, the pass swallows the completion: the success is marked, and
nothing is created. -/
theorem chain_swallows_completion : ∃ db' n job,
    example_finished.trigger_dependent_jobs (fun _ => 4) = some (db', n) ∧
      example_finished.Awaits job ∧ ¬ example_finished.Creates db' job.id ∧
      ∀ task ∈ db'.tasks.rows, task.job_id = 1 → task.processed_for_chaining = true := by
  have hwaits : example_finished.Awaits ((example_trio.get 3).get (by decide)) :=
    ⟨by decide, by decide, by decide, by decide, by decide⟩
  obtain ⟨⟨db', n⟩, hpass⟩ := Option.isSome_iff_exists.mp
    (show (example_finished.trigger_dependent_jobs fun _ => 4).isSome by decide)
  have hp := (pass_eq hpass).1
  refine ⟨db', n, _, hpass, hwaits, ?_, ?_⟩
  · rw [hp.creates_iff]
    decide
  · rw [hp.tasks]
    decide

end Chain

end Dass
