/-
# `Dass.FirstGeneration` — every job of a graph runs once

No job has run.  Each job without upstreams gets one initial task; a task that
fails gets its retry, and a task that gets neither succeeds; passes come at any
time, and anything else may happen between two calls of a pass.  Then no job is
dispatched twice, and when all is settled every job that has upstreams has been
dispatched (`first_generation`), if the tasks of a pass are stamped after what they
follow (`Stamped`).

They need not be.  The first one bears the instant at which the transaction of the
query for the latest tasks was opened, and that query may already see an upstream
that finished after it.  The next pass observes that success, finds the job's task
older than it, and dispatches the job again (`first_generation_twice`).

Every step takes time, so no two commits share an instant.  The tasks of a job are
one run and its retries (`LineInv`): all but the last have failed, and nothing
follows a success.  So there is one success of a job at most, it is the job's latest
task, and what a pass reads in its snapshot stays true.  The rest is what becomes of
a job whose upstreams are all done and that has not run (`Unstarted`): a success of
one of them is still to be observed, or the pass in progress has the job in hand.
-/
import Dass.DependencyPass
import Dass.DependencyRuns
import Dass.JobService
import Dass.Lib.Graph

namespace Dass

open Lts
open TaskRepository (latest_task)

/-! ## The runs -/

/-- No task yet, and no pass. -/
def Flow.start (jobs : Table Job) (job_dependencies : List (JobId × JobId)) (now : Int) :
    Flow where
  db := ⟨now, jobs, job_dependencies, .empty, []⟩
  pc := .idle

namespace Generation

/-- What may happen besides passes: a job without upstreams gets its one initial task, a
failed task gets its one retry, and no task fails for good. -/
def Admits (db : Chain) : Chain.Label → Prop
  | .create _ job_id trigger_type retry_count =>
      (db.jobs.get job_id ≠ none ∧ db.upstream_jobs job_id = [] ∧ db.tasks_of job_id = [] ∧
        retry_count = 0) ∨
      ∃ task ∈ db.tasks_of job_id, task.status = .failed ∧
        trigger_type = task.trigger_type ∧ retry_count = task.retry_count + 1 ∧
        ∀ other ∈ db.tasks_of job_id, other.retry_count ≠ retry_count
  | .event _ (.failed _ _ final) => final = false
  | .event _ _ => True
  | .tick _ | .pass _ => False

inductive Label where
  | act (d : Int) (l : Chain.Label)
  | pass (d : Int) (a : PassAct)

/-- A step, `d` after the one before it. -/
inductive Step : Flow → Label → Flow → Prop
  | act {s : Flow} {d l db'} : 0 < d → Admits s.db l → (s.db.later d).Step l db' →
      Step s (.act d l) ⟨db', s.pc⟩
  | pass {s s' : Flow} {d a} : 0 < d → FaultFree s a → PassStep ⟨s.db.later d, s.pc⟩ a s' →
      Step s (.pass d a) s'

/-- Every task has succeeded, or has failed and been retried. -/
def Settled (db : Chain) : Prop :=
  ∀ task ∈ db.tasks.rows, task.status = .success ∨ task.status = .failed ∧
    ∃ retry ∈ db.tasks_of task.job_id, retry.retry_count = task.retry_count + 1

/-- No success is unprocessed. -/
def Observed (db : Chain) : Prop :=
  ∀ task ∈ db.tasks.rows, task.status = .success → task.processed_for_chaining = true

/-- Every job without upstreams has its initial task. -/
def Given (db : Chain) : Prop :=
  ∀ job ∈ db.jobs.rows, db.upstream_jobs job.id = [] → db.tasks_of job.id ≠ []

/-- The transaction the pass is in was opened no earlier than the upstreams of its next
candidate have finished. -/
def OpenedAfter (db : Chain) : PassPc → Prop
  | .dispatching (some since) _ (job :: _) =>
      ∀ up ∈ db.upstream_jobs job.id, ∀ x ∈ db.tasks_of up.id, x.status = .success →
        _completed_at x ≤ since
  | _ => True

/-- A pass inserts no task in a transaction older than what the task follows. -/
def Stamped (s : Flow) : Label → Prop
  | .pass _ (.create _) => OpenedAfter s.db s.pc
  | _ => True

end Generation

/-! ## One run and its retries -/

/-- A task of the job has succeeded. -/
def Chain.Done (db : Chain) (j : JobId) : Prop := ∃ x ∈ db.tasks_of j, x.status = .success

/-- What holds of the rows. -/
structure LineInv (db : Chain) : Prop where
  stamps : ∀ x ∈ db.tasks.rows, x.created_at ≤ db.now ∧
    ∀ t ∈ x.finished_at, x.created_at ≤ t ∧ t ≤ db.now
  marked : ∀ x ∈ db.tasks.rows, x.processed_for_chaining = true → x.status = .success
  unique : ∀ j, ∀ x ∈ db.tasks_of j, ∀ y ∈ db.tasks_of j,
    x.retry_count = y.retry_count → x = y
  order : ∀ j, ∀ x ∈ db.tasks_of j, ∀ y ∈ db.tasks_of j, x.retry_count < y.retry_count →
    x.status = .failed ∧ x.created_at < y.created_at
  retried : ∀ j, ∀ y ∈ db.tasks_of j, ∀ n, y.retry_count = n + 1 →
    ∃ x ∈ db.tasks_of j, x.retry_count = n
  dependency : ∀ j, db.upstream_jobs j ≠ [] → ∀ y ∈ db.tasks_of j, y.trigger_type = .dependency
  after : ∀ j, ∀ y ∈ db.tasks_of j, ∀ up ∈ db.upstream_jobs j,
    ∃ x ∈ db.tasks_of up.id, x.status = .success ∧ _completed_at x ≤ y.created_at

theorem lineInv_start (jobs : Table Job) (deps : List (JobId × JobId)) (now : Int) :
    LineInv (Flow.start jobs deps now).db where
  stamps := by intro x hx; cases hx
  marked := by intro x hx; cases hx
  unique := by intro j x hx; cases hx
  order := by intro j x hx; cases hx
  retried := by intro j y hy; cases hy
  dependency := by intro j _ y hy; cases hy
  after := by intro j y hy; cases hy

section Facts

variable {db : Chain} {j : JobId}

theorem LineInv.completed_le (h : LineInv db) {x : Task} (hx : x ∈ db.tasks.rows) :
    x.created_at ≤ _completed_at x ∧ _completed_at x ≤ db.now := by
  obtain ⟨hcreated, hfinished⟩ := h.stamps x hx
  unfold _completed_at
  cases hf : x.finished_at with
  | none => exact ⟨le_rfl, hcreated⟩
  | some t => exact hfinished t hf

/-- A job has one task of each retry count up to its last. -/
theorem LineInv.attempt (h : LineInv db) {y : Task} (hy : y ∈ db.tasks_of j) {n : Nat}
    (hn : n ≤ y.retry_count) : ∃ x ∈ db.tasks_of j, x.retry_count = n := by
  obtain ⟨k, hk⟩ := Nat.exists_eq_add_of_le hn
  induction k generalizing y with
  | zero => exact ⟨y, hy, hk⟩
  | succ k ih =>
      obtain ⟨z, hz, hzn⟩ := h.retried j y hy (n + k) (by omega)
      exact ih hz (by omega) hzn

/-- **A success is the latest task of its job.** -/
theorem LineInv.latest (h : LineInv db) {x : Task} (hx : x ∈ db.tasks_of j)
    (hs : x.status = .success) : latest_task db.tasks j = some x := by
  obtain ⟨hrow, hjob⟩ := Chain.mem_tasks_of.mp hx
  cases hl : latest_task db.tasks j with
  | none => exact absurd hjob (TaskRepository.latest_task_eq_none.mp hl x hrow)
  | some y =>
      have hy := Chain.mem_tasks_of.mpr (TaskRepository.latest_task_mem hl)
      have hle := TaskRepository.created_at_le_latest hl hrow hjob
      rcases Nat.lt_trichotomy x.retry_count y.retry_count with hlt | heq | hgt
      · rw [(h.order j x hx y hy hlt).1] at hs
        cases hs
      · rw [h.unique j x hx y hy heq]
      · exact absurd (h.order j y hy x hx hgt).2 (not_lt.mpr hle)

/-- A job that has run is not ready: its latest task is no older than any completion. -/
theorem LineInv.not_ready (h : LineInv db) (hne : db.tasks_of j ≠ []) :
    db.ready (latest_task db.tasks) j = false := by
  rw [← Bool.not_eq_true, Chain.ready_iff]
  rintro ⟨_, _, hbefore⟩
  obtain ⟨y, hy⟩ := List.exists_mem_of_ne_nil _ hne
  obtain ⟨hrow, hjob⟩ := Chain.mem_tasks_of.mp hy
  cases hl : latest_task db.tasks j with
  | none => exact TaskRepository.latest_task_eq_none.mp hl y hrow hjob
  | some own =>
      have hown := TaskRepository.latest_task_mem hl
      obtain ⟨up, hup, task, htask, hlt⟩ := hbefore own hl
      obtain ⟨x, hx, hs, hle⟩ := h.after j own (Chain.mem_tasks_of.mpr hown) up hup
      rw [h.latest hx hs, Option.mem_some_iff] at htask
      subst htask
      exact absurd (lt_of_le_of_lt (h.completed_le hown.1).1 hlt) (not_lt.mpr hle)

end Facts

/-! ### Rows updated in place -/

/-- Rows updated in place: a row that has failed stays so, and nothing else is touched. -/
structure Updated (db db' : Chain) (g : Task → Task) : Prop where
  jobs : db'.jobs = db.jobs
  job_dependencies : db'.job_dependencies = db.job_dependencies
  now : db.now ≤ db'.now
  grows : Grows db'.now db.tasks.rows db'.tasks.rows g []
  id : ∀ x, (g x).id = x.id
  failed : ∀ x ∈ db.tasks.rows, x.status = .failed → (g x).status = .failed

/-- One row inserted, stamped with an instant that has come. -/
structure Inserted (db db' : Chain) (y : Task) : Prop where
  jobs : db'.jobs = db.jobs
  job_dependencies : db'.job_dependencies = db.job_dependencies
  now : db.now ≤ db'.now
  rows : db'.tasks.rows = db.tasks.rows ++ [y]
  fresh : ∃ id job_id trigger_type retry_count created_at, created_at ≤ db'.now ∧
    y = .fresh id job_id trigger_type retry_count created_at

section Updates

variable {db db' : Chain} {g : Task → Task} {j : JobId} {y : Task}

theorem Updated.mem_tasks_of (h : Updated db db' g) {x' : Task} :
    x' ∈ db'.tasks_of j ↔ ∃ x ∈ db.tasks_of j, g x = x' := by
  simp only [Chain.mem_tasks_of, h.grows.mem, List.not_mem_nil, or_false]
  constructor
  · rintro ⟨⟨x, hx, rfl⟩, hjob⟩
    exact ⟨x, ⟨hx, (h.grows.job_id x).symm.trans hjob⟩, rfl⟩
  · rintro ⟨x, ⟨hx, hjob⟩, rfl⟩
    exact ⟨⟨x, hx, rfl⟩, (h.grows.job_id x).trans hjob⟩

theorem Updated.tasks_of_nil (h : Updated db db' g) :
    db'.tasks_of j = [] ↔ db.tasks_of j = [] := by
  simp only [List.eq_nil_iff_forall_not_mem, h.mem_tasks_of]
  constructor
  · exact fun hnil x hx => hnil (g x) ⟨x, hx, rfl⟩
  · rintro hnil _ ⟨x, hx, rfl⟩
    exact hnil x hx

theorem Inserted.mem (h : Inserted db db' y) {x : Task} :
    x ∈ db'.tasks.rows ↔ x ∈ db.tasks.rows ∨ x = y := by
  rw [h.rows, List.mem_append, List.mem_singleton]

theorem Inserted.mem_tasks_of (h : Inserted db db' y) {x : Task} :
    x ∈ db'.tasks_of j ↔ x ∈ db.tasks_of j ∨ x = y ∧ y.job_id = j := by
  simp only [Chain.mem_tasks_of, h.mem]
  constructor
  · rintro ⟨hold | rfl, hjob⟩
    · exact .inl ⟨hold, hjob⟩
    · exact .inr ⟨rfl, hjob⟩
  · rintro (⟨hold, hjob⟩ | ⟨rfl, hjob⟩)
    · exact ⟨.inl hold, hjob⟩
    · exact ⟨.inr rfl, hjob⟩

/-- A success stays one, and stays where it is. -/
theorem Updated.done (h : Updated db db' g) {x : Task} (hx : x ∈ db.tasks_of j)
    (hs : x.status = .success) :
    g x ∈ db'.tasks_of j ∧ (g x).status = .success ∧ _completed_at (g x) = _completed_at x := by
  have hrow := (Chain.mem_tasks_of.mp hx).1
  exact ⟨h.mem_tasks_of.mpr ⟨x, hx, rfl⟩, ((h.grows.kept x hrow).success hs).1,
    h.grows.completed hrow hs⟩

theorem LineInv.updated (hi : LineInv db) (h : Updated db db' g) : LineInv db' where
  stamps := by
    intro x' hx'
    obtain ⟨x, hx, rfl⟩ := (h.grows.mem.mp hx').resolve_right List.not_mem_nil
    obtain ⟨hcreated, hfinished⟩ := hi.stamps x hx
    rw [h.grows.created_at]
    refine ⟨le_trans hcreated h.now, fun t ht => ?_⟩
    rcases (h.grows.kept x hx).stamp with hsame | hstamp
    · rw [hsame] at ht
      exact ⟨(hfinished t ht).1, le_trans (hfinished t ht).2 h.now⟩
    · rw [hstamp, Option.mem_some_iff] at ht
      exact ht ▸ ⟨le_trans hcreated h.now, le_rfl⟩
  marked := by
    intro x' hx' hp
    obtain ⟨x, hx, rfl⟩ := (h.grows.mem.mp hx').resolve_right List.not_mem_nil
    by_cases hs : x.status = .success
    · exact ((h.grows.kept x hx).success hs).1
    · rw [(h.grows.kept x hx).marked hs] at hp
      exact absurd (hi.marked x hx hp) hs
  unique := by
    intro j x' hx' y' hy' heq
    obtain ⟨x, hx, rfl⟩ := h.mem_tasks_of.mp hx'
    obtain ⟨y, hy, rfl⟩ := h.mem_tasks_of.mp hy'
    rw [h.grows.retry_count, h.grows.retry_count] at heq
    rw [hi.unique j x hx y hy heq]
  order := by
    intro j x' hx' y' hy' hlt
    obtain ⟨x, hx, rfl⟩ := h.mem_tasks_of.mp hx'
    obtain ⟨y, hy, rfl⟩ := h.mem_tasks_of.mp hy'
    rw [h.grows.retry_count, h.grows.retry_count] at hlt
    obtain ⟨hfailed, hcreated⟩ := hi.order j x hx y hy hlt
    rw [h.grows.created_at, h.grows.created_at]
    exact ⟨h.failed x (Chain.mem_tasks_of.mp hx).1 hfailed, hcreated⟩
  retried := by
    intro j y' hy' n hn
    obtain ⟨y, hy, rfl⟩ := h.mem_tasks_of.mp hy'
    rw [h.grows.retry_count] at hn
    obtain ⟨x, hx, hxn⟩ := hi.retried j y hy n hn
    exact ⟨g x, h.mem_tasks_of.mpr ⟨x, hx, rfl⟩, (h.grows.retry_count x).trans hxn⟩
  dependency := by
    intro j hne y' hy'
    obtain ⟨y, hy, rfl⟩ := h.mem_tasks_of.mp hy'
    rw [Chain.upstream_jobs_congr h.jobs h.job_dependencies] at hne
    exact (h.grows.trigger_type y).trans (hi.dependency j hne y hy)
  after := by
    intro j y' hy' up hup
    obtain ⟨y, hy, rfl⟩ := h.mem_tasks_of.mp hy'
    rw [Chain.upstream_jobs_congr h.jobs h.job_dependencies] at hup
    obtain ⟨x, hx, hs, hle⟩ := hi.after j y hy up hup
    obtain ⟨hmem, hs', hdone⟩ := h.done hx hs
    exact ⟨g x, hmem, hs', by rw [hdone, h.grows.created_at]; exact hle⟩

/-- What a new row is: the run of a job that has none, once its upstreams are done, or the
retry of a task that has failed. -/
def Chain.Due (db : Chain) (y : Task) : Prop :=
  (db.tasks_of y.job_id = [] ∧ y.retry_count = 0 ∧
    (db.upstream_jobs y.job_id ≠ [] → y.trigger_type = .dependency) ∧
    ∀ up ∈ db.upstream_jobs y.job_id,
      ∃ x ∈ db.tasks_of up.id, x.status = .success ∧ _completed_at x ≤ y.created_at) ∨
  ∃ task ∈ db.tasks_of y.job_id, task.status = .failed ∧ y.trigger_type = task.trigger_type ∧
    y.retry_count = task.retry_count + 1 ∧
    ∀ other ∈ db.tasks_of y.job_id, other.retry_count ≠ y.retry_count

/-- Beside the rows of its job, a retry comes last. -/
theorem LineInv.retry_last (hi : LineInv db) {task : Task} (htask : task ∈ db.tasks_of j)
    (hfailed : task.status = .failed) {n : Nat} (hn : n = task.retry_count + 1)
    (hnone : ∀ other ∈ db.tasks_of j, other.retry_count ≠ n) {x : Task}
    (hx : x ∈ db.tasks_of j) : x.retry_count < n ∧ x.status = .failed := by
  have hlt : x.retry_count < n := by
    by_contra hge
    obtain ⟨z, hz, hzn⟩ := hi.attempt hx (not_lt.mp hge)
    exact hnone z hz hzn
  refine ⟨hlt, ?_⟩
  rcases Nat.lt_or_ge x.retry_count task.retry_count with hbefore | hge
  · exact (hi.order j x hx task htask hbefore).1
  · rw [hi.unique j x hx task htask (by omega)]
    exact hfailed

theorem LineInv.inserted (hi : LineInv db) (h : Inserted db db' y) (hdue : db.Due y)
    (hlater : ∀ x ∈ db.tasks_of y.job_id, x.created_at < y.created_at) : LineInv db' := by
  obtain ⟨id, j₀, trigger, n₀, created_at, hnow, rfl⟩ := h.fresh
  have hups := Chain.upstream_jobs_congr h.jobs h.job_dependencies
  -- beside the new row, the rows of its job have failed and have fewer retries
  have hbeside : ∀ x ∈ db.tasks_of j₀, x.retry_count < n₀ ∧ x.status = .failed := by
    intro x hx
    rcases hdue with ⟨hnil, _⟩ | ⟨task, htask, hfailed, _, hn, hnone⟩
    · rw [show db.tasks_of j₀ = [] from hnil] at hx
      cases hx
    · exact hi.retry_last htask hfailed hn hnone hx
  constructor
  case stamps =>
    intro x hx
    rcases h.mem.mp hx with hold | rfl
    · obtain ⟨hcreated, hfinished⟩ := hi.stamps x hold
      exact ⟨le_trans hcreated h.now, fun t ht =>
        ⟨(hfinished t ht).1, le_trans (hfinished t ht).2 h.now⟩⟩
    · exact ⟨hnow, fun t ht => by cases ht⟩
  case marked =>
    intro x hx hp
    rcases h.mem.mp hx with hold | rfl
    · exact hi.marked x hold hp
    · cases hp
  case unique =>
    intro j x hx z hz heq
    rcases h.mem_tasks_of.mp hx with hxold | ⟨rfl, hxj⟩ <;>
      rcases h.mem_tasks_of.mp hz with hzold | ⟨rfl, hzj⟩
    · exact hi.unique j x hxold z hzold heq
    · obtain rfl : j₀ = j := hzj
      have hlt := (hbeside x hxold).1
      exact absurd heq (Nat.ne_of_lt hlt)
    · obtain rfl : j₀ = j := hxj
      have hlt := (hbeside z hzold).1
      exact absurd heq (Nat.ne_of_gt hlt)
    · rfl
  case order =>
    intro j x hx z hz hlt
    rcases h.mem_tasks_of.mp hx with hxold | ⟨rfl, hxj⟩ <;>
      rcases h.mem_tasks_of.mp hz with hzold | ⟨rfl, hzj⟩
    · exact hi.order j x hxold z hzold hlt
    · obtain rfl : j₀ = j := hzj
      exact ⟨(hbeside x hxold).2, hlater x hxold⟩
    · obtain rfl : j₀ = j := hxj
      exact absurd hlt (Nat.lt_asymm (hbeside z hzold).1)
    · exact absurd hlt (Nat.lt_irrefl _)
  case retried =>
    intro j z hz n hn
    rcases h.mem_tasks_of.mp hz with hzold | ⟨rfl, hzj⟩
    · obtain ⟨x, hx, hxn⟩ := hi.retried j z hzold n hn
      exact ⟨x, h.mem_tasks_of.mpr (.inl hx), hxn⟩
    · obtain rfl : j₀ = j := hzj
      have hn : n₀ = n + 1 := hn
      rcases hdue with ⟨_, hzero, _⟩ | ⟨task, htask, _, _, hretry, _⟩
      · have hzero : n₀ = 0 := hzero
        omega
      · have hretry : n₀ = task.retry_count + 1 := hretry
        exact ⟨task, h.mem_tasks_of.mpr (.inl htask), by omega⟩
  case dependency =>
    intro j hne z hz
    rw [hups] at hne
    rcases h.mem_tasks_of.mp hz with hzold | ⟨rfl, hzj⟩
    · exact hi.dependency j hne z hzold
    · obtain rfl : j₀ = j := hzj
      rcases hdue with ⟨_, _, htrigger, _⟩ | ⟨task, htask, _, htrigger, _⟩
      · exact htrigger hne
      · exact htrigger.trans (hi.dependency _ hne task htask)
  case after =>
    intro j z hz up hup
    rw [hups] at hup
    have hold : ∃ x ∈ db.tasks_of up.id, x.status = .success ∧
        _completed_at x ≤ z.created_at := by
      rcases h.mem_tasks_of.mp hz with hzold | ⟨rfl, hzj⟩
      · exact hi.after j z hzold up hup
      · obtain rfl : j₀ = j := hzj
        rcases hdue with ⟨_, _, _, hdone⟩ | ⟨task, htask, _⟩
        · exact hdone up hup
        · obtain ⟨x, hx, hs, hle⟩ := hi.after _ task htask up hup
          exact ⟨x, hx, hs, le_trans hle (le_of_lt (hlater task htask))⟩
    obtain ⟨x, hx, hrest⟩ := hold
    exact ⟨x, h.mem_tasks_of.mpr (.inl hx), hrest⟩

end Updates

/-! ## The pass in progress -/

/-- A job the pass is going to look at and, by its snapshot, to dispatch. -/
def InHand (db : Chain) (c : JobId) : PassPc → Prop
  | .idle => False
  | .marking _ candidates | .looking _ candidates => c ∈ candidates.map Job.id
  | .dispatching _ latest todo | .created latest _ todo =>
      c ∈ todo.map Job.id ∧ db.ready latest c = true

/-- The instant at which the transaction of the query was opened, while it is open. -/
def PassPc.since : PassPc → Option Int
  | .looking since _ => some since
  | .dispatching since _ _ => since
  | .idle | .marking _ _ | .created _ _ _ => none

theorem no_since {pc : PassPc} (h : pc.since = none) {now : Int} : ∀ t ∈ pc.since, t ≤ now := by
  rw [h]
  exact fun t ht => absurd ht (Option.not_mem_none t)

/-- What the pass holds is as it was when it was read. -/
def HeldOk (db : Chain) : PassPc → Prop
  | .idle => True
  | .marking todo candidates => (candidates.map Job.id).Nodup ∧
      ∀ task ∈ todo, task.processed_for_chaining = false ∧
        ∃ x ∈ db.tasks.rows, x.id = task.id ∧ x.status = .success
  | .looking _ candidates => (candidates.map Job.id).Nodup
  | .dispatching _ latest todo | .created latest _ todo => (todo.map Job.id).Nodup ∧
      ∀ job ∈ todo, db.ready latest job.id = true →
        db.tasks_of job.id = [] ∧ ∀ up ∈ db.upstream_jobs job.id, db.Done up.id

/-- A job whose upstreams are all done and that has not run. -/
structure Unstarted (db : Chain) (job : Job) : Prop where
  row : job ∈ db.jobs.rows
  upstream : db.upstream_jobs job.id ≠ []
  not_run : db.tasks_of job.id = []
  done : ∀ up ∈ db.upstream_jobs job.id, db.Done up.id

/-- A success of an upstream is unprocessed, and the pass in progress is not about to mark
it. -/
def Unseen (s : Flow) (c : JobId) : Prop :=
  ∃ up ∈ s.db.upstream_jobs c, ∃ x ∈ s.db.tasks_of up.id,
    x.status = .success ∧ x.processed_for_chaining = false ∧ x.id ∉ s.pc.marks.map Task.id

/-- The invariant. -/
structure FlowInv (s : Flow) : Prop where
  line : LineInv s.db
  enabled : ∀ job ∈ s.db.jobs.rows, job.enabled = true
  since : ∀ t ∈ s.pc.since, t ≤ s.db.now
  pass : HeldOk s.db s.pc
  pending : ∀ job, Unstarted s.db job → Unseen s job.id ∨ InHand s.db job.id s.pc

section Pass

variable {db db' : Chain} {g : Task → Task} {y : Task} {pc : PassPc} {s s' : Flow}

/-- Jobs are told apart by their ids. -/
theorem Chain.candidates_ids_nodup (db : Chain) (tasks : List Task) :
    ((db.candidates tasks).map Job.id).Nodup := by
  refine List.Nodup.map_on (fun a ha b hb hid => ?_) (Chain.candidates_nodup tasks)
  exact Table.eq_of_key (Chain.mem_candidates.mp ha).1 (Chain.mem_candidates.mp hb).1 hid

theorem Updated.of_done (h : Updated db db' g) {j : JobId} (hdone : db.Done j) : db'.Done j := by
  obtain ⟨x, hx, hs⟩ := hdone
  obtain ⟨hmem, hs', _⟩ := h.done hx hs
  exact ⟨g x, hmem, hs'⟩

theorem Inserted.of_done (h : Inserted db db' y) {j : JobId} (hdone : db.Done j) : db'.Done j := by
  obtain ⟨x, hx, hs⟩ := hdone
  exact ⟨x, h.mem_tasks_of.mpr (.inl hx), hs⟩

/-- A new row is no run of another job. -/
theorem Inserted.not_run (h : Inserted db db' y) {j : JobId} (hne : y.job_id ≠ j)
    (hnil : db.tasks_of j = []) : db'.tasks_of j = [] := by
  refine List.eq_nil_iff_forall_not_mem.mpr fun x hx => ?_
  rcases h.mem_tasks_of.mp hx with hold | ⟨_, hjob⟩
  · rw [hnil] at hold
    cases hold
  · exact hne hjob

theorem InHand.congr (hready : db'.ready = db.ready) {c : JobId} :
    InHand db' c pc ↔ InHand db c pc := by
  cases pc <;> simp only [InHand, hready]

theorem HeldOk.updated (hi : HeldOk db pc) (h : Updated db db' g) : HeldOk db' pc := by
  have hready := Chain.ready_congr h.jobs h.job_dependencies
  have hups := Chain.upstream_jobs_congr h.jobs h.job_dependencies
  cases pc with
  | idle => trivial
  | marking todo candidates =>
      refine ⟨hi.1, fun task htask => ⟨(hi.2 task htask).1, ?_⟩⟩
      obtain ⟨x, hx, hid, hs⟩ := (hi.2 task htask).2
      refine ⟨g x, h.grows.mem.mpr (.inl ⟨x, hx, rfl⟩), (h.id x).trans hid, ?_⟩
      exact ((h.grows.kept x hx).success hs).1
  | looking => exact hi
  | dispatching since latest todo | created latest id todo =>
      refine ⟨hi.1, fun job hjob hr => ?_⟩
      rw [hready] at hr
      obtain ⟨hnil, hdone⟩ := hi.2 job hjob hr
      refine ⟨h.tasks_of_nil.mpr hnil, fun up hup => ?_⟩
      rw [hups] at hup
      exact h.of_done (hdone up hup)

/-- The job of a new row is none that the pass is going to dispatch. -/
theorem HeldOk.inserted (hi : HeldOk db pc) (h : Inserted db db' y)
    (hother : ∀ latest, db.ready latest y.job_id = true → db.tasks_of y.job_id ≠ []) :
    HeldOk db' pc := by
  have hready := Chain.ready_congr h.jobs h.job_dependencies
  have hups := Chain.upstream_jobs_congr h.jobs h.job_dependencies
  cases pc with
  | idle => trivial
  | marking todo candidates =>
      refine ⟨hi.1, fun task htask => ⟨(hi.2 task htask).1, ?_⟩⟩
      obtain ⟨x, hx, hrest⟩ := (hi.2 task htask).2
      exact ⟨x, h.mem.mpr (.inl hx), hrest⟩
  | looking => exact hi
  | dispatching since latest todo | created latest id todo =>
      refine ⟨hi.1, fun job hjob hr => ?_⟩
      rw [hready] at hr
      obtain ⟨hnil, hdone⟩ := hi.2 job hjob hr
      refine ⟨h.not_run (fun heq => ?_) hnil, fun up hup => ?_⟩
      · rw [← heq] at hr hnil
        exact hother latest hr hnil
      · rw [hups] at hup
        exact h.of_done (hdone up hup)

/-- A job that is unstarted after an insert was so before. -/
theorem Unstarted.of_inserted (h : Inserted db db' y) (hy : y.status ≠ .success) {job : Job}
    (hu : Unstarted db' job) : Unstarted db job where
  row := h.jobs ▸ hu.row
  upstream := Chain.upstream_jobs_congr h.jobs h.job_dependencies ▸ hu.upstream
  not_run := by
    refine List.eq_nil_iff_forall_not_mem.mpr fun x hx => ?_
    have hmem : x ∈ db'.tasks_of job.id := h.mem_tasks_of.mpr (.inl hx)
    rw [hu.not_run] at hmem
    cases hmem
  done := by
    intro up hup
    obtain ⟨x, hx, hs⟩ := hu.done up
      (by rw [Chain.upstream_jobs_congr h.jobs h.job_dependencies]; exact hup)
    rcases h.mem_tasks_of.mp hx with hold | ⟨rfl, _⟩
    · exact ⟨x, hold, hs⟩
    · exact absurd hs hy

/-- After rows were updated, a job is unstarted that was so before, or whose upstream has
just succeeded. -/
theorem Unstarted.of_updated (h : Updated db db' g) {job : Job} (hu : Unstarted db' job) :
    Unstarted db job ∨ ∃ up ∈ db.upstream_jobs job.id, ∃ x ∈ db.tasks_of up.id,
      x.status ≠ .success ∧ (g x).status = .success := by
  have hups := Chain.upstream_jobs_congr h.jobs h.job_dependencies
  by_cases hdone : ∀ up ∈ db.upstream_jobs job.id, db.Done up.id
  · exact .inl ⟨h.jobs ▸ hu.row, hups ▸ hu.upstream, h.tasks_of_nil.mp hu.not_run, hdone⟩
  · simp only [not_forall] at hdone
    obtain ⟨up, hup, hnot⟩ := hdone
    obtain ⟨x', hx', hs'⟩ := hu.done up (by rw [hups]; exact hup)
    obtain ⟨x, hx, rfl⟩ := h.mem_tasks_of.mp hx'
    exact .inr ⟨up, hup, x, hx, fun hs => hnot ⟨x, hx, hs⟩, hs'⟩

/-- **The step lemma** for rows updated and not marked: a success is unprocessed when it
is new. -/
theorem FlowInv.updated (hi : FlowInv s) (h : Updated s.db db' g)
    (hquiet : ∀ x, (g x).processed_for_chaining = x.processed_for_chaining) :
    FlowInv ⟨db', s.pc⟩ where
  line := hi.line.updated h
  enabled job hjob := hi.enabled job (h.jobs ▸ hjob)
  since t ht := le_trans (hi.since t ht) h.now
  pass := hi.pass.updated h
  pending := by
    intro job hu
    have hups := Chain.upstream_jobs_congr h.jobs h.job_dependencies
    have hready := Chain.ready_congr h.jobs h.job_dependencies
    rcases hu.of_updated h with hbefore | ⟨up, hup, x, hx, hnot, hs'⟩
    · refine (hi.pending job hbefore).imp ?_ (InHand.congr hready).mpr
      rintro ⟨up, hup, x, hx, hs, hp, hmarks⟩
      obtain ⟨hmem, hs', _⟩ := h.done hx hs
      refine ⟨up, by rw [hups]; exact hup, g x, hmem, hs', by rw [hquiet, hp], ?_⟩
      rw [h.id]
      exact hmarks
    · have hrow := (Chain.mem_tasks_of.mp hx).1
      refine .inl ⟨up, by rw [hups]; exact hup, g x, h.mem_tasks_of.mpr ⟨x, hx, rfl⟩, hs', ?_, ?_⟩
      · rw [hquiet, Bool.eq_false_iff]
        exact fun hp => hnot (hi.line.marked x hrow hp)
      · -- what is about to be marked was a success before
        rw [h.id]
        intro hmem
        obtain ⟨task, htask, hid⟩ := List.mem_map.mp hmem
        cases hpc : s.pc with
        | marking todo candidates =>
            have hpass := hi.pass
            rw [hpc] at hpass htask
            obtain ⟨z, hz, hzid, hzs⟩ := (hpass.2 task htask).2
            rw [Table.eq_of_key hz hrow (hzid.trans hid)] at hzs
            exact hnot hzs
        | idle | looking | dispatching | created =>
            rw [hpc] at htask
            cases htask

theorem FlowInv.inserted (hi : FlowInv s) (h : Inserted s.db db' y) (hdue : s.db.Due y)
    (hlater : ∀ x ∈ s.db.tasks_of y.job_id, x.created_at < y.created_at)
    (hother : ∀ latest, s.db.ready latest y.job_id = true → s.db.tasks_of y.job_id ≠ []) :
    FlowInv ⟨db', s.pc⟩ where
  line := hi.line.inserted h hdue hlater
  enabled job hjob := hi.enabled job (h.jobs ▸ hjob)
  since t ht := le_trans (hi.since t ht) h.now
  pass := hi.pass.inserted h hother
  pending := by
    intro job hu
    have hups := Chain.upstream_jobs_congr h.jobs h.job_dependencies
    have hready := Chain.ready_congr h.jobs h.job_dependencies
    have hy : y.status ≠ .success := by
      obtain ⟨_, _, _, _, _, _, rfl⟩ := h.fresh
      exact nofun
    refine (hi.pending job (hu.of_inserted h hy)).imp ?_ (InHand.congr hready).mpr
    rintro ⟨up, hup, x, hx, hrest⟩
    exact ⟨up, by rw [hups]; exact hup, x, h.mem_tasks_of.mpr (.inl hx), hrest⟩

/-! ### Its calls -/

/-- The clock moves on. -/
theorem updated_later (db : Chain) {d : Int} (hd : 0 ≤ d) : Updated db (db.later d) id where
  jobs := rfl
  job_dependencies := rfl
  now := by
    show db.now ≤ db.now + d
    omega
  grows := grows_refl _ _
  id _ := rfl
  failed _ _ := id

theorem updated_mark {db : Chain} {task : Task} {tasks : Table Task}
    (hp : task.processed_for_chaining = false)
    (hs : ∃ x ∈ db.tasks.rows, x.id = task.id ∧ x.status = .success)
    (h : TaskRepository.flush db.tasks task task.mark_processed_for_chaining = some tasks) :
    Updated db { db with tasks := tasks } (Task.chained [task.id]) where
  jobs := rfl
  job_dependencies := rfl
  now := le_rfl
  grows :=
    { eq := (flush_marked hp h).trans (List.append_nil _).symm
      job_id := Task.chained_job_id _
      created_at := Task.chained_created_at _
      trigger_type := Task.chained_trigger_type _
      retry_count := Task.chained_retry_count _
      kept := by
        intro x hx
        refine Kept.chained _ fun hmem => ?_
        obtain ⟨z, hz, hid, hzs⟩ := hs
        rw [Table.eq_of_key hx hz ((List.mem_singleton.mp hmem).trans hid.symm)]
        exact hzs
      fresh := by intro x hx; cases hx }
  id := Task.chained_id _
  failed x _ hf := (Task.chained_status _ x).trans hf

theorem inserted_create {db : Chain} {id : TaskId} {job_id : JobId} {trigger_type : TriggerType}
    {n : Nat} {created_at : Int} {tasks : Table Task} (hnow : created_at ≤ db.now)
    (h : TaskRepository.create db.tasks (.fresh id job_id trigger_type n created_at)
      = some tasks) :
    Inserted db { db with tasks := tasks } (.fresh id job_id trigger_type n created_at) where
  jobs := rfl
  job_dependencies := rfl
  now := le_rfl
  rows := by
    have hrows := (grows_create h).eq
    rwa [List.map_id'] at hrows
  fresh := ⟨_, _, _, _, _, hnow, rfl⟩

/-- What the primary shows is one thing a replica may show. -/
theorem Chain.shows_observed (db : Chain) : db.Shows db.observed where
  limit := List.length_take_le _ _
  nodup := by
    refine List.Nodup.sublist ((List.take_sublist _ _).map Task.id) ?_
    refine ((List.perm_insertionSort _ _).map Task.id).nodup_iff.mpr ?_
    exact db.tasks.nodup.sublist (List.filter_sublist.map _)
  rows x hx := by
    obtain ⟨hrow, hs, hp⟩ := TaskRepository.of_mem_get_unprocessed hx
    refine ⟨x, hrow, hs, ?_⟩
    rw [← hp]

/-- A success the pass has been shown makes its downstream a candidate. -/
theorem Unstarted.candidate {job : Job} (hu : Unstarted db job) (henabled : job.enabled = true)
    {up : Job} (hup : up ∈ db.upstream_jobs job.id) {x : Task} (hx : x ∈ db.tasks_of up.id)
    {shown : List Task} (hshows : db.Shows shown) (hshown : x.id ∈ shown.map Task.id) :
    job ∈ db.candidates shown := by
  obtain ⟨hrow, hjob⟩ := Chain.mem_tasks_of.mp hx
  obtain ⟨task, htask, hid⟩ := List.mem_map.mp hshown
  obtain ⟨row, hmem, _, rfl⟩ := hshows.rows task htask
  obtain rfl : row = x := Table.eq_of_key hmem hrow hid
  exact Chain.mem_candidates.mpr ⟨hu.row, henabled, up, hup, _, htask, hjob⟩

/-- **A pass begins** with what it has been shown. -/
theorem FlowInv.observe {db : Chain} {shown : List Task} (hi : FlowInv ⟨db, .idle⟩)
    (hshows : db.Shows shown) : FlowInv ⟨db, .marking shown (db.candidates shown)⟩ where
  line := hi.line
  enabled := hi.enabled
  since := no_since rfl
  pass := by
    refine ⟨db.candidates_ids_nodup _, fun task htask => ?_⟩
    obtain ⟨row, hrow, hs, rfl⟩ := hshows.rows task htask
    exact ⟨rfl, row, hrow, rfl, hs⟩
  pending job hu := by
    obtain ⟨up, hup, x, hx, hs, hp, _⟩ := (hi.pending job hu).resolve_right id
    by_cases hshown : x.id ∈ shown.map Task.id
    · right
      exact List.mem_map_of_mem
        (hu.candidate (hi.enabled job hu.row) hup hx hshows hshown)
    · exact .inl ⟨up, hup, x, hx, hs, hp, hshown⟩

/-- An unstarted job is ready. -/
theorem Unstarted.ready (hi : LineInv db) {job : Job} (hu : Unstarted db job) :
    db.ready (latest_task db.tasks) job.id = true := by
  refine Chain.ready_iff.mpr ⟨hu.upstream, fun up hup => ?_, fun own hown => ?_⟩
  · obtain ⟨x, hx, hs⟩ := hu.done up hup
    exact ⟨x, hi.latest hx hs, hs⟩
  · have hmem := Chain.mem_tasks_of.mpr (TaskRepository.latest_task_mem hown)
    rw [hu.not_run] at hmem
    cases hmem

/-- The stamp of the next task has come. -/
theorem FlowInv.stamp_le_now {db : Chain} {since : Option Int} {latest : JobId → Option Task}
    {todo : List Job} (hi : FlowInv ⟨db, .dispatching since latest todo⟩) :
    since.getD db.now ≤ db.now := by
  cases since with
  | none => exact le_rfl
  | some t => exact hi.since t rfl

/-- An upstream that is done was done at that instant. -/
theorem FlowInv.done_by_stamp {db : Chain} {since : Option Int} {latest : JobId → Option Task}
    {job up : Job} {todo : List Job} {id : TaskId} {d : Int}
    (hi : FlowInv ⟨db, .dispatching since latest (job :: todo)⟩)
    (hstamped : Generation.Stamped ⟨db, .dispatching since latest (job :: todo)⟩
      (.pass d (.create id)))
    (hup : up ∈ db.upstream_jobs job.id) (hdone : db.Done up.id) :
    ∃ x ∈ db.tasks_of up.id, x.status = .success ∧ _completed_at x ≤ since.getD db.now := by
  obtain ⟨x, hx, hs⟩ := hdone
  refine ⟨x, hx, hs, ?_⟩
  cases since with
  | none => exact (hi.line.completed_le (Chain.mem_tasks_of.mp hx).1).2
  | some t => exact hstamped up hup x hx hs

/-- **The step lemma** for the calls of a pass. -/
theorem flowInv_pass {d : Int} {a : PassAct} (hi : FlowInv s) (ha : FaultFree s a)
    (hstamped : Generation.Stamped s (.pass d a)) (h : PassStep s a s') : FlowInv s' := by
  cases h with
  | observe_none _ => exact hi
  | @observe db _ => exact hi.observe db.shows_observed
  | @observe_replica db shown hshows =>
      split
      · exact hi
      · exact hi.observe hshows
  | @mark db task todo candidates tasks hmark =>
      obtain ⟨hnodup, htodo⟩ := hi.pass
      obtain ⟨hp, hs⟩ := htodo task List.mem_cons_self
      have hup := updated_mark hp hs hmark
      have hrest : HeldOk db (.marking todo candidates) :=
        ⟨hnodup, fun t ht => htodo t (List.mem_cons_of_mem _ ht)⟩
      refine ⟨hi.line.updated hup, hi.enabled, no_since rfl, hrest.updated hup,
        fun job hu => ?_⟩
      rcases hu.of_updated hup with hbefore | ⟨_, _, x, _, hnot, hs'⟩
      · refine (hi.pending job hbefore).imp_left ?_
        rintro ⟨up, hups, x, hx, hxs, hxp, hmarks⟩
        have hne : x.id ≠ task.id := fun heq => hmarks (heq ▸ List.mem_cons_self)
        have hsame : x.chained [task.id] = x :=
          if_neg fun hmem => hne (List.mem_singleton.mp hmem)
        refine ⟨up, hups, x, hup.mem_tasks_of.mpr ⟨x, hx, hsame⟩, hxs, hxp, fun hmem => ?_⟩
        exact hmarks (List.mem_cons_of_mem _ hmem)
      · rw [Task.chained_status] at hs'
        exact absurd hs' hnot
  | look_none =>
      refine ⟨hi.line, hi.enabled, no_since rfl, trivial,
        fun job hu => (hi.pending job hu).imp_right ?_⟩
      exact fun hmem => absurd hmem List.not_mem_nil
  | @start db candidates hne =>
      refine ⟨hi.line, hi.enabled, fun t ht => ?_, hi.pass.1, hi.pending⟩
      exact le_of_eq (Option.mem_some_iff.mp ht).symm
  | @look db since candidates =>
      refine ⟨hi.line, hi.enabled, hi.since, ⟨hi.pass, fun job hjob hr => ?_⟩, fun job hu => ?_⟩
      · rw [Chain.ready_looked_at hjob] at hr
        refine ⟨?_, fun up hup => ?_⟩
        · by_contra hrun
          rw [hi.line.not_ready hrun] at hr
          cases hr
        · obtain ⟨x, hx, hs⟩ := (Chain.ready_iff.mp hr).2.1 up hup
          exact ⟨x, Chain.mem_tasks_of.mpr (TaskRepository.latest_task_mem hx), hs⟩
      · refine (hi.pending job hu).imp_right fun hmem => ⟨hmem, ?_⟩
        obtain ⟨other, hother, hid⟩ := List.mem_map.mp hmem
        rw [← hid, Chain.ready_looked_at hother, hid]
        exact hu.ready hi.line
  | @skip db since latest job todo hr =>
      obtain ⟨hnodup, htodo⟩ := hi.pass
      refine ⟨hi.line, hi.enabled, hi.since, ⟨(List.nodup_cons.mp hnodup).2, fun other hother =>
        htodo other (List.mem_cons_of_mem _ hother)⟩, fun other hu => ?_⟩
      refine (hi.pending other hu).imp_right ?_
      rintro ⟨hmem, hready⟩
      refine ⟨(List.mem_cons.mp hmem).resolve_left fun heq => ?_, hready⟩
      rw [heq, hr] at hready
      cases hready
  | @create db since latest job todo id tasks hr hcreate =>
      obtain ⟨hnodup, htodo⟩ := hi.pass
      obtain ⟨hnot, hnodup⟩ := List.nodup_cons.mp hnodup
      obtain ⟨hnil, hdone⟩ := htodo job List.mem_cons_self hr
      have hins := inserted_create (hi.stamp_le_now) hcreate
      have hnew : db.Due (.fresh id job.id .dependency 0 (since.getD db.now)) :=
        .inl ⟨hnil, rfl, fun _ => rfl, fun up hup => hi.done_by_stamp hstamped hup (hdone up hup)⟩
      have hother : ∀ other ∈ todo, other.id ≠ job.id :=
        fun other hmem heq => hnot (heq ▸ List.mem_map_of_mem hmem)
      refine ⟨hi.line.inserted hins hnew fun x hx => ?_, hi.enabled, no_since rfl,
        ⟨hnodup, fun other hmem hready => ?_⟩, fun other hu => ?_⟩
      · have hx : x ∈ db.tasks_of job.id := hx
        rw [show db.tasks_of job.id = [] from hnil] at hx
        cases hx
      · obtain ⟨hnil', hdone'⟩ := htodo other (List.mem_cons_of_mem _ hmem) hready
        exact ⟨hins.not_run (hother other hmem).symm hnil',
          fun up hup => hins.of_done (hdone' up hup)⟩
      · have hne : other.id ≠ job.id := by
          intro heq
          have hmem := hins.mem_tasks_of.mpr (.inr ⟨rfl, heq.symm⟩)
          rw [hu.not_run] at hmem
          cases hmem
        refine (hi.pending other (hu.of_inserted hins nofun)).imp ?_ ?_
        · rintro ⟨up, hup, x, hx, hrest⟩
          exact ⟨up, hup, x, hins.mem_tasks_of.mpr (.inl hx), hrest⟩
        · rintro ⟨hmem, hready⟩
          exact ⟨(List.mem_cons.mp hmem).resolve_left hne, hready⟩
  | @send db latest id todo =>
      exact ⟨⟨hi.line.stamps, hi.line.marked, hi.line.unique, hi.line.order, hi.line.retried,
        hi.line.dependency, hi.line.after⟩, hi.enabled, no_since rfl, hi.pass,
        fun job hu => hi.pending job ⟨hu.row, hu.upstream, hu.not_run, hu.done⟩⟩
  | finish =>
      refine ⟨hi.line, hi.enabled, no_since rfl, trivial,
        fun job hu => (hi.pending job hu).imp_right ?_⟩
      exact fun hmem => absurd hmem.1 List.not_mem_nil
  | fail => exact ha.elim

/-- A call of a pass touches neither `jobs` nor `job_dependencies`. -/
theorem PassStep.static {a : PassAct} (h : PassStep s a s') :
    s'.db.jobs = s.db.jobs ∧ s'.db.job_dependencies = s.db.job_dependencies := by
  cases h <;> exact ⟨rfl, rfl⟩

end Pass

/-! ## Whole runs -/

section Run

variable {jobs : Table Job} {deps : List (JobId × JobId)} {now : Int} {s s' : Flow}

/-- A row that has failed gets no event. -/
theorem RowEvent.at_failed {tasks : Table Task} {e : RowEvent} {at_ : Int} {id : TaskId}
    {row x : Task} (hrow : tasks.get id = some row) (hs : row.status = e.before)
    (hx : x ∈ tasks.rows) (hf : x.status = .failed) : (e.at_ at_ id x).status = .failed := by
  unfold RowEvent.at_
  split
  · next heq =>
      obtain rfl : x = row := Table.eq_of_get hrow hx heq
      rw [hf] at hs
      cases e <;> cases hs
  · exact hf

/-- **The step lemma** for what happens besides passes. -/
theorem flowInv_act {d : Int} {l : Chain.Label} {db' : Chain} (hd : 0 < d) (hi : FlowInv s)
    (hadmits : Generation.Admits s.db l) (h : (s.db.later d).Step l db') :
    FlowInv ⟨db', s.pc⟩ := by
  have hnow : s.db.now ≤ s.db.now + d := by omega
  cases h with
  | tick | pass => exact hadmits.elim
  | @create id j trigger n tasks hcreate =>
      have hlater := (inserted_create (le_refl (s.db.later d).now) hcreate)
      have hins : Inserted s.db { s.db.later d with tasks := tasks }
          (.fresh id j trigger n (s.db.now + d)) := ⟨rfl, rfl, hnow, hlater.rows, hlater.fresh⟩
      refine hi.inserted hins ?_ (fun x hx => ?_) fun latest hready => ?_
      · rcases hadmits with ⟨_, hroot, hnil, hn⟩ | hretry
        · refine .inl ⟨hnil, hn, fun hne => absurd hroot hne, fun up hup => ?_⟩
          have hup : up ∈ s.db.upstream_jobs j := hup
          rw [show s.db.upstream_jobs j = [] from hroot] at hup
          cases hup
        · exact .inr hretry
      · have hle := (hi.line.stamps x (Chain.mem_tasks_of.mp hx).1).1
        exact lt_of_le_of_lt hle (by show s.db.now < s.db.now + d; omega)
      · rcases hadmits with ⟨_, hroot, _⟩ | ⟨task, htask, _⟩
        · exact absurd hroot (Chain.ready_iff.mp hready).1
        · exact List.ne_nil_of_mem htask
  | @event id e row hrow hs =>
      have hup : Updated s.db
          { s.db.later d with tasks := s.db.tasks.set (e.row (s.db.now + d) row) }
          (e.at_ (s.db.now + d) id) :=
        { jobs := rfl
          job_dependencies := rfl
          now := hnow
          grows := grows_event hrow hs
          id := RowEvent.at_field Task.id e.row_id id
          failed := fun x hx hf => RowEvent.at_failed hrow hs hx hf }
      exact hi.updated hup (RowEvent.at_field Task.processed_for_chaining e.row_processed id)

/-- `Stamped` does not read the clock. -/
theorem Generation.Stamped.later {d : Int} {a : PassAct}
    (h : Generation.Stamped s (.pass d a)) (d' : Int) :
    Generation.Stamped ⟨s.db.later d', s.pc⟩ (.pass d a) := by
  cases a with
  | create id => exact h
  | _ => trivial

/-- The invariant, with what no step touches. -/
structure GenInv (jobs : Table Job) (deps : List (JobId × JobId)) (s : Flow) : Prop where
  jobs : s.db.jobs = jobs
  job_dependencies : s.db.job_dependencies = deps
  flow : FlowInv s

theorem genInv_start (henabled : ∀ job ∈ jobs.rows, job.enabled = true) :
    GenInv jobs deps (.start jobs deps now) := by
  refine ⟨rfl, rfl, lineInv_start jobs deps now, henabled, no_since rfl, trivial,
    fun job hu => ?_⟩
  obtain ⟨up, hup⟩ := List.exists_mem_of_ne_nil _ hu.upstream
  obtain ⟨x, hx, _⟩ := hu.done up hup
  cases hx

theorem genInv_step {l : Generation.Label} (hi : GenInv jobs deps s)
    (hl : Generation.Stamped s l) (h : Generation.Step s l s') : GenInv jobs deps s' := by
  cases h with
  | @act d l db' hd hadmits hstep =>
      refine ⟨?_, ?_, flowInv_act hd hi.flow hadmits hstep⟩
      · rw [← hi.jobs]
        cases hstep with
        | tick | pass => exact hadmits.elim
        | create | event => rfl
      · rw [← hi.job_dependencies]
        cases hstep with
        | tick | pass => exact hadmits.elim
        | create | event => rfl
  | @pass _ d a hd ha hstep =>
      have hlater := hi.flow.updated (updated_later s.db (le_of_lt hd)) fun _ => rfl
      obtain ⟨hjobs, hdeps⟩ := hstep.static
      exact ⟨hjobs.trans hi.jobs, hdeps.trans hi.job_dependencies,
        flowInv_pass hlater ha (hl.later d) hstep⟩

/-- A dependency task that is no retry is the first task of its job. -/
theorem LineInv.dependency_runs_le {db : Chain} (h : LineInv db) (j : JobId) :
    db.dependency_runs j ≤ 1 := by
  have hnodup : db.tasks.rows.Nodup := List.Nodup.of_map _ db.tasks.nodup
  refine (hnodup.filter _).length_le_one fun x hx y hy => ?_
  simp only [List.mem_filter, decide_eq_true_eq] at hx hy
  obtain ⟨hxrow, hxj, _, hxn⟩ := hx
  obtain ⟨hyrow, hyj, _, hyn⟩ := hy
  exact h.unique j x (Chain.mem_tasks_of.mpr ⟨hxrow, hxj⟩) y (Chain.mem_tasks_of.mpr ⟨hyrow, hyj⟩)
    (hxn.trans hyn.symm)

/-- A job that has upstreams and has run was dispatched. -/
theorem LineInv.dependency_runs_eq {db : Chain} (h : LineInv db) {j : JobId}
    (hups : db.upstream_jobs j ≠ []) (hne : db.tasks_of j ≠ []) : db.dependency_runs j = 1 := by
  obtain ⟨y, hy⟩ := List.exists_mem_of_ne_nil _ hne
  obtain ⟨x, hx, hxn⟩ := h.attempt hy (Nat.zero_le _)
  obtain ⟨hrow, hjob⟩ := Chain.mem_tasks_of.mp hx
  have hpos : 0 < db.dependency_runs j := by
    refine List.length_pos_of_mem (a := x) (List.mem_filter.mpr ⟨hrow, ?_⟩)
    exact decide_eq_true ⟨hjob, h.dependency j hups x hx, hxn⟩
  have hle := h.dependency_runs_le j
  omega

/-- Where all is settled, a job that has run has succeeded: its last task was not
retried. -/
theorem LineInv.done_of_settled {db : Chain} (h : LineInv db)
    (hsettled : Generation.Settled db) {j : JobId} (hne : db.tasks_of j ≠ []) : db.Done j := by
  obtain ⟨y, hy⟩ := List.exists_mem_of_ne_nil _ hne
  cases hl : latest_task db.tasks j with
  | none =>
      obtain ⟨hrow, hjob⟩ := Chain.mem_tasks_of.mp hy
      exact absurd hjob (TaskRepository.latest_task_eq_none.mp hl y hrow)
  | some x =>
      obtain ⟨hrow, hjob⟩ := TaskRepository.latest_task_mem hl
      have hx := Chain.mem_tasks_of.mpr ⟨hrow, hjob⟩
      rcases hsettled x hrow with hs | ⟨_, retry, hretry, hn⟩
      · exact ⟨x, hx, hs⟩
      · rw [hjob] at hretry
        have hlt := (h.order j x hx retry hretry (by omega)).2
        obtain ⟨hrrow, hrjob⟩ := Chain.mem_tasks_of.mp hretry
        have hle := TaskRepository.created_at_le_latest hl hrrow hrjob
        exact absurd hlt (not_lt.mpr hle)

/-- **Every job has run**, where all is settled and observed: by induction along the
dependencies. -/
theorem FlowInv.done (hacyclic : EdgeList.Acyclic s.db.job_dependencies) (hi : FlowInv s)
    (hidle : s.pc = .idle) (hsettled : Generation.Settled s.db)
    (hobserved : Generation.Observed s.db) (hgiven : Generation.Given s.db) :
    ∀ j, ∀ job ∈ s.db.jobs.rows, job.id = j → s.db.Done j := by
  intro j
  induction j using hacyclic.wellFounded.induction with
  | _ j ih =>
      rintro job hjob rfl
      refine hi.line.done_of_settled hsettled ?_
      by_cases hroot : s.db.upstream_jobs job.id = []
      · exact hgiven job hjob hroot
      · intro hnil
        have hdone : ∀ up ∈ s.db.upstream_jobs job.id, s.db.Done up.id := by
          intro up hup
          obtain ⟨hrow, hedge⟩ := List.mem_filter.mp hup
          have hedge : (up.id, job.id) ∈ s.db.job_dependencies := of_decide_eq_true hedge
          exact ih up.id hedge up hrow rfl
        rcases hi.pending job ⟨hjob, hroot, hnil, hdone⟩ with ⟨up, _, x, hx, hs, hp, _⟩ | hhand
        · rw [hobserved x (Chain.mem_tasks_of.mp hx).1 hs] at hp
          cases hp
        · rw [hidle] at hhand
          exact hhand

/-- **Every job runs once.**  In every run over a finite acyclic graph of enabled jobs whose
passes insert no task in a transaction older than the completions it follows, no job is
dispatched more than once; and whenever no pass is in progress, every task has succeeded or
been retried, no success is unprocessed and every job without upstreams has its initial
task, each job that has upstreams has been dispatched exactly once. -/
theorem first_generation (hacyclic : EdgeList.Acyclic deps)
    (henabled : ∀ job ∈ jobs.rows, job.enabled = true)
    (hrun : Run Generation.Step Generation.Stamped (.start jobs deps now) s) :
    (∀ job ∈ jobs.rows, s.db.dependency_runs job.id ≤ 1) ∧
    (s.pc = .idle → Generation.Settled s.db → Generation.Observed s.db →
      Generation.Given s.db →
      ∀ job ∈ jobs.rows, s.db.upstream_jobs job.id ≠ [] → s.db.dependency_runs job.id = 1) := by
  have hi : GenInv jobs deps s :=
    hrun.invariant (fun hi hl h => genInv_step hi hl h) (genInv_start henabled)
  refine ⟨fun job _ => hi.flow.line.dependency_runs_le job.id, ?_⟩
  intro hidle hsettled hobserved hgiven job hjob hups
  have hdone := hi.flow.done (hi.job_dependencies ▸ hacyclic) hidle hsettled hobserved hgiven
    job.id job (hi.jobs ▸ hjob) rfl
  obtain ⟨x, hx, _⟩ := hdone
  exact hi.flow.line.dependency_runs_eq hups (List.ne_nil_of_mem hx)

end Run

/-! ## A graph with a shortcut -/

namespace Generation

variable (db : Chain)

instance : (l : Chain.Label) → Decidable (Admits db l)
  | .create _ _ _ _ => inferInstanceAs (Decidable (_ ∨ ∃ task ∈ db.tasks_of _, _))
  | .event _ (.failed _ _ final) => inferInstanceAs (Decidable (final = false))
  | .event _ (.claim _) | .event _ (.heartbeat _) | .event _ (.success _ _)
  | .event _ .expire => isTrue trivial
  | .tick _ | .pass _ => isFalse id

instance : Decidable (Settled db) :=
  inferInstanceAs (Decidable (∀ task ∈ db.tasks.rows, _ ∨ _ ∧ ∃ retry ∈ db.tasks_of _, _))

instance : Decidable (Observed db) :=
  inferInstanceAs (Decidable (∀ task ∈ db.tasks.rows, _ → _))

instance : Decidable (Given db) :=
  inferInstanceAs (Decidable (∀ job ∈ db.jobs.rows, _ → _))

instance : (pc : PassPc) → Decidable (OpenedAfter db pc)
  | .dispatching (some since) _ (job :: _) =>
      inferInstanceAs (Decidable (∀ up ∈ db.upstream_jobs job.id, ∀ x ∈ db.tasks_of up.id,
        x.status = .success → _completed_at x ≤ since))
  | .dispatching (some _) _ [] | .dispatching none _ _ | .idle | .marking _ _ | .looking _ _
  | .created _ _ _ => isTrue trivial

instance (s : Flow) : (l : Label) → Decidable (Stamped s l)
  | .pass _ (.create _) => inferInstanceAs (Decidable (OpenedAfter s.db s.pc))
  | .act _ _ | .pass _ .observe | .pass _ (.observe_replica _) | .pass _ .mark
  | .pass _ .start | .pass _ .look | .pass _ .skip | .pass _ .send | .pass _ .finish
  | .pass _ .fail => isTrue trivial

/-- The step a label stands for. -/
def exec (s : Flow) : Label → Option Flow
  | .act d l =>
      if 0 < d ∧ Admits s.db l then
        ((s.db.later d).exec l).map fun db' => ⟨db', s.pc⟩
      else none
  | .pass d a => if 0 < d ∧ FaultFree s a then Flow.call ⟨s.db.later d, s.pc⟩ a else none

theorem step_of_exec {s s' : Flow} {l : Label} (h : exec s l = some s') : Step s l s' := by
  cases l with
  | act d l =>
      simp only [exec] at h
      split at h
      · next hc =>
          obtain ⟨db', hdb, rfl⟩ := Option.map_eq_some_iff.mp h
          exact .act hc.1 hc.2 (Chain.step_of_exec hdb)
      · cases h
  | pass d a =>
      simp only [exec] at h
      split at h
      · next hc => exact .pass hc.1 hc.2 (passStep_of_call h)
      · cases h

end Generation

/-- Job 2 depends on job 1, and job 3 on both. -/
def example_shortcut : List (JobId × JobId) := [(1, 2), (1, 3), (2, 3)]

/-- Job 1 runs; the pass dispatches job 2 and not job 3; job 2 fails and is retried; the
next pass dispatches job 3. -/
def example_generation : List Generation.Label :=
  [.act 1 (.create 1 1 .manual 0), .act 1 (.event 1 (.claim example_worker)),
    .act 1 (.event 1 (.success none none)),
    .pass 1 .observe, .pass 1 .mark, .pass 1 .start, .pass 1 .look, .pass 1 (.create 2),
    .pass 1 .send, .act 1 (.event 2 (.claim example_worker)), .pass 1 .skip, .pass 1 .finish,
    .act 1 (.event 2 (.failed none none false)), .act 1 (.create 3 2 .dependency 1),
    .act 1 (.event 3 (.claim example_worker)), .act 1 (.event 3 (.success none none)),
    .pass 1 .observe, .pass 1 .mark, .pass 1 .start, .pass 1 .look, .pass 1 (.create 4),
    .pass 1 .send, .pass 1 .finish,
    .act 1 (.event 4 (.claim example_worker)), .act 1 (.event 4 (.success none none)),
    .pass 1 .observe, .pass 1 .mark, .pass 1 .look]

theorem first_generation_shortcut : ∃ s,
    Run Generation.Step Generation.Stamped (.start example_trio example_shortcut 0) s ∧
      s.db.tasks.rows.length = 4 ∧
      s.db.dependency_runs 2 = 1 ∧ s.db.dependency_runs 3 = 1 := by
  obtain ⟨s, hs, h⟩ := (Option.any_eq_true _ _).mp
    (show (Lts.exec Generation.exec Generation.Stamped (.start example_trio example_shortcut 0)
      example_generation).any (fun s => s.pc.isIdle ∧ Generation.Settled s.db ∧
        Generation.Observed s.db ∧ Generation.Given s.db ∧ s.db.tasks.rows.length = 4 ∧
        s.db.upstream_jobs 2 ≠ [] ∧ s.db.upstream_jobs 3 ≠ []) = true by decide +kernel)
  obtain ⟨hidle, hsettled, hobserved, hgiven, hlength, h₂, h₃⟩ := of_decide_eq_true h
  have hrun := Run.of_exec Generation.step_of_exec hs
  have hacyclic : EdgeList.Acyclic example_shortcut := by decide
  have hexact := (first_generation hacyclic (by decide) hrun).2
    (PassPc.eq_idle hidle) hsettled hobserved hgiven
  have hrow : ∀ j, (hj : (example_trio.get j).isSome) →
      (example_trio.get j).get hj ∈ example_trio.rows :=
    fun j hj => Table.mem_of_get (Option.some_get hj).symm
  exact ⟨s, hrun, hlength, hexact _ (hrow 2 rfl) h₂, hexact _ (hrow 3 rfl) h₃⟩

/-! ## A completion behind the stamp -/

/-- Job 3 depends on jobs 1 and 2.  A pass has marked the success of job 1 and opened the
transaction of its query when job 2 succeeds; the query sees that, and job 3 is dispatched
with a stamp from before.  The next pass observes the success of job 2 and finds job 3's
task older. -/
def example_late_success : List Generation.Label :=
  [.act 1 (.create 1 1 .manual 0), .act 1 (.event 1 (.claim example_worker)),
    .act 1 (.event 1 (.success none none)),
    .act 1 (.create 2 2 .manual 0), .act 1 (.event 2 (.claim example_worker)),
    .pass 1 .observe, .pass 1 .mark, .pass 1 .start,
    .act 1 (.event 2 (.success none none)),
    .pass 1 .look, .pass 1 (.create 3), .pass 1 .send, .pass 1 .finish,
    .pass 1 .observe, .pass 1 .mark, .pass 1 .start, .pass 1 .look, .pass 1 (.create 4),
    .pass 1 .send, .pass 1 .finish]

/-- **A job is dispatched twice** in its first generation: no fault, no other trigger, and
each of its two upstreams has succeeded once. -/
theorem first_generation_twice : EdgeList.Acyclic [(1, 3), (2, 3)] ∧
    (∀ job ∈ example_trio.rows, job.enabled = true) ∧
    ∃ s, Run Generation.Step Any (.start example_trio [(1, 3), (2, 3)] 0) s ∧
      s.pc = .idle ∧ (s.db.tasks_of 1).length = 1 ∧ (s.db.tasks_of 2).length = 1 ∧
      s.db.dependency_runs 3 = 2 := by
  refine ⟨by decide, by decide, ?_⟩
  obtain ⟨s, hs, h⟩ := (Option.any_eq_true _ _).mp
    (show (Lts.exec Generation.exec Any (.start example_trio [(1, 3), (2, 3)] 0)
      example_late_success).any (fun s => s.pc.isIdle ∧ (s.db.tasks_of 1).length = 1 ∧
        (s.db.tasks_of 2).length = 1 ∧ s.db.dependency_runs 3 = 2) = true by decide +kernel)
  obtain ⟨hidle, h₁, h₂, h₃⟩ := of_decide_eq_true h
  exact ⟨s, Run.of_exec Generation.step_of_exec hs, PassPc.eq_idle hidle, h₁, h₂, h₃⟩

end Dass
