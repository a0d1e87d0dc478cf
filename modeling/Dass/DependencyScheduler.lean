/-
# `Dass.DependencyScheduler` — one `trigger_dependent_jobs` pass

`backend/app/scheduler/dependency_scheduler.py`.  A pass reads up to a hundred
successes nobody has evaluated, marks them, and looks once at every enabled job
downstream of one of them.  Readiness is decided from one snapshot, the latest
task of each candidate and of each of their upstreams:

    blocked       some upstream never ran, or its latest task is no success
    chained       the job's own latest task is at least as recent as the newest
                  upstream completion
    dispatched    otherwise: a task is inserted and sent

A pass runs in one process, so it is one function here; `none` is a pass that
raises.  `pass_eq` is its specification: what it marks and what it inserts, in
terms of the state it started from.
-/
import Dass.TaskRepository
import Mathlib.Data.List.Dedup

namespace Dass

/-- What a pass works on.  A pair of `job_dependencies` is an upstream and its downstream. -/
structure Chain where
  now : Int
  jobs : Table Job
  job_dependencies : List (JobId × JobId)
  tasks : Table Task
  normal_queue : List TaskId

/-- `_completed_at`. -/
def _completed_at (task : Task) : Int := task.finished_at.getD task.created_at

namespace Chain

/-- `Job.upstream_jobs`. -/
def upstream_jobs (db : Chain) (job_id : JobId) : List Job :=
  db.jobs.rows.filter fun up => (up.id, job_id) ∈ db.job_dependencies

/-- `Job.downstream_jobs`. -/
def downstream_jobs (db : Chain) (job_id : JobId) : List Job :=
  db.jobs.rows.filter fun down => (job_id, down.id) ∈ db.job_dependencies

/-- The enabled downstreams of the jobs whose tasks were observed, each once, where the
dict of the source holds them. -/
def candidates (db : Chain) (tasks : List Task) : List Job :=
  let source_jobs := db.jobs.rows.filter fun job => job.id ∈ tasks.map Task.job_id
  (source_jobs.flatMap fun job => (db.downstream_jobs job.id).filter (·.enabled))
    |>.reverse.dedup.reverse

/-- The jobs whose latest tasks the readiness checks look at. -/
def looked_at (db : Chain) (jobs : List Job) : List JobId :=
  jobs.map Job.id ++ jobs.flatMap fun job => (db.upstream_jobs job.id).map Job.id

/-- The newest upstream completion, where every upstream's latest task is a success. -/
def ready_at (db : Chain) (latest : JobId → Option Task) (job_id : JobId) : Option Int :=
  let upstreams := db.upstream_jobs job_id
  if upstreams.all fun up => (latest up.id).any (·.status = .success) then
    (upstreams.filterMap fun up => (latest up.id).map _completed_at).max?
  else none

/-- `_dispatch_if_ready`, up to the insert. -/
def ready (db : Chain) (latest : JobId → Option Task) (job_id : JobId) : Bool :=
  match db.ready_at latest job_id with
  | none => false
  | some ready_at =>
      match latest job_id with
      | none => true
      | some own_latest => _completed_at own_latest < ready_at

/-- `_dispatch_if_ready`; `id` is the uuid4 of the task it makes. -/
def _dispatch_if_ready (db : Chain) (latest : JobId → Option Task) (job : Job) (id : TaskId) :
    Option (Chain × Bool) :=
  if db.ready latest job.id then
    (TaskRepository.create db.tasks (.fresh id job.id .dependency 0 db.now)).map fun tasks =>
      ({ db with tasks := tasks, normal_queue := db.normal_queue ++ [id] }, true)
  else some (db, false)

/-- The loop that marks what was observed; each mark is a commit of its own. -/
def mark_processed (tasks : Table Task) (observed : List Task) : Option (Table Task) :=
  observed.foldlM (fun tasks task =>
    TaskRepository.flush tasks task task.mark_processed_for_chaining) tasks

/-- The loop over the candidates. -/
def dispatch_ready (db : Chain) (latest : JobId → Option Task) (ids : JobId → TaskId)
    (candidates : List Job) (triggered : Nat) : Option (Chain × Nat) :=
  candidates.foldlM (fun r job =>
    (r.1._dispatch_if_ready latest job (ids job.id)).map fun d =>
      (d.1, r.2 + if d.2 then 1 else 0)) (db, triggered)

/-- `trigger_dependent_jobs`, with the number it returns. -/
def trigger_dependent_jobs (db : Chain) (ids : JobId → TaskId) : Option (Chain × Nat) :=
  let observed := TaskRepository.get_unprocessed_successful_tasks db.tasks 100
  if observed = [] then some (db, 0) else
    let candidates := db.candidates observed
    (mark_processed db.tasks observed).bind fun tasks =>
      let db := { db with tasks := tasks }
      if candidates = [] then some (db, 0) else
        let latest := TaskRepository.latest_task_per_job tasks (db.looked_at candidates)
        db.dispatch_ready latest ids candidates 0

end Chain

/-! ## Marking -/

/-- A row after the marks of a pass. -/
def Task.chained (observed : List TaskId) (task : Task) : Task :=
  if task.id ∈ observed then task.mark_processed_for_chaining else task

section Chained

variable (observed : List TaskId) (task : Task)

@[simp] theorem Task.chained_nil : task.chained [] = task := if_neg List.not_mem_nil

@[simp] theorem Task.chained_id : (task.chained observed).id = task.id := by
  unfold Task.chained; split <;> rfl

@[simp] theorem Task.chained_job_id : (task.chained observed).job_id = task.job_id := by
  unfold Task.chained; split <;> rfl

@[simp] theorem Task.chained_status : (task.chained observed).status = task.status := by
  unfold Task.chained; split <;> rfl

@[simp] theorem Task.chained_trigger_type :
    (task.chained observed).trigger_type = task.trigger_type := by
  unfold Task.chained; split <;> rfl

@[simp] theorem Task.chained_retry_count :
    (task.chained observed).retry_count = task.retry_count := by
  unfold Task.chained; split <;> rfl

@[simp] theorem Task.chained_created_at :
    (task.chained observed).created_at = task.created_at := by
  unfold Task.chained; split <;> rfl

@[simp] theorem Task.chained_finished_at :
    (task.chained observed).finished_at = task.finished_at := by
  unfold Task.chained; split <;> rfl

@[simp] theorem completed_at_chained :
    _completed_at (task.chained observed) = _completed_at task := by
  simp [_completed_at]

/-- Marks set one after the other. -/
theorem Task.chained_chained (more : List TaskId) :
    (task.chained observed).chained more = task.chained (observed ++ more) := by
  by_cases h₁ : task.id ∈ observed <;> by_cases h₂ : task.id ∈ more <;>
    simp [Task.chained, h₁, h₂, Task.mark_processed_for_chaining]

end Chained

/-- Marking a row that was observed unprocessed changes that row alone. -/
theorem flush_marked {tasks tasks' : Table Task} {task : Task}
    (hp : task.processed_for_chaining = false)
    (h : TaskRepository.flush tasks task task.mark_processed_for_chaining = some tasks') :
    tasks'.rows = tasks.rows.map (Task.chained [task.id]) := by
  obtain ⟨stored, hstored, rfl⟩ := Option.map_eq_some_iff.mp h
  have hid : stored.id = task.id := Table.key_of_get hstored
  refine List.map_congr_left fun x hx => ?_
  simp only [key_task, Task.flush_id, hid, Task.chained, List.mem_singleton]
  split
  · next heq =>
      obtain rfl : x = stored := Table.eq_of_get hstored hx heq
      simp [Task.flush, Task.mark_processed_for_chaining, Orm.emit, hp]
  · rfl

theorem mark_processed_rows {observed : List Task}
    (hp : ∀ task ∈ observed, task.processed_for_chaining = false) {tasks tasks' : Table Task}
    (h : Chain.mark_processed tasks observed = some tasks') :
    tasks'.rows = tasks.rows.map (Task.chained (observed.map Task.id)) := by
  induction observed generalizing tasks with
  | nil =>
      cases h
      exact (List.map_id'' (fun x => Task.chained_nil x) _).symm
  | cons task rest ih =>
      obtain ⟨mid, hmid, hrest⟩ := Option.bind_eq_some_iff.mp
        (show (TaskRepository.flush tasks task task.mark_processed_for_chaining).bind
          (fun tasks => Chain.mark_processed tasks rest) = some tasks' from h)
      rw [ih (fun x hx => hp x (List.mem_cons_of_mem _ hx)) hrest,
        flush_marked (hp task List.mem_cons_self) hmid, List.map_map]
      exact List.map_congr_left fun x _ => Task.chained_chained [task.id] x (rest.map Task.id)

/-! ## Dispatching -/

/-- What the dispatch of some jobs leaves behind: a task and a message for each. -/
structure Chain.Dispatches (db : Chain) (ids : JobId → TaskId) (fired : List Job)
    (db' : Chain) : Prop where
  now : db'.now = db.now
  jobs : db'.jobs = db.jobs
  job_dependencies : db'.job_dependencies = db.job_dependencies
  tasks : db'.tasks.rows = db.tasks.rows ++
    fired.map fun job => .fresh (ids job.id) job.id .dependency 0 db.now
  normal_queue : db'.normal_queue = db.normal_queue ++ fired.map fun job => ids job.id

/-- One dispatch, and then those of the rest. -/
theorem Chain.Dispatches.cons {db mid db' : Chain} {ids : JobId → TaskId} {job : Job}
    {fired : List Job} (h : db.Dispatches ids [job] mid)
    (hrest : mid.Dispatches ids fired db') : db.Dispatches ids (job :: fired) db' where
  now := hrest.now.trans h.now
  jobs := hrest.jobs.trans h.jobs
  job_dependencies := hrest.job_dependencies.trans h.job_dependencies
  tasks := by rw [hrest.tasks, h.tasks, h.now, List.append_assoc]; rfl
  normal_queue := by rw [hrest.normal_queue, h.normal_queue, List.append_assoc]; rfl

/-- `upstream_jobs` reads `jobs` and `job_dependencies`. -/
theorem Chain.upstream_jobs_congr {db db' : Chain} (hjobs : db'.jobs = db.jobs)
    (hdeps : db'.job_dependencies = db.job_dependencies) :
    db'.upstream_jobs = db.upstream_jobs := by
  cases db
  cases db'
  cases hjobs
  cases hdeps
  rfl

/-- Readiness looks at `jobs` and `job_dependencies` alone, besides the snapshot. -/
theorem Chain.ready_congr {db db' : Chain} (hjobs : db'.jobs = db.jobs)
    (hdeps : db'.job_dependencies = db.job_dependencies) : db'.ready = db.ready := by
  cases db
  cases db'
  cases hjobs
  cases hdeps
  rfl

theorem dispatch_if_ready_eq {latest : JobId → Option Task} {db db' : Chain} {job : Job}
    {ids : JobId → TaskId} {fired : Bool}
    (h : db._dispatch_if_ready latest job (ids job.id) = some (db', fired)) :
    fired = db.ready latest job.id ∧
      if fired then db.Dispatches ids [job] db' else db' = db := by
  unfold Chain._dispatch_if_ready at h
  split at h
  · next hready =>
      obtain ⟨tasks, hcreate, heq⟩ := Option.map_eq_some_iff.mp h
      cases heq
      refine ⟨hready.symm, rfl, rfl, rfl, ?_, rfl⟩
      unfold TaskRepository.create at hcreate
      split at hcreate
      · next hnone =>
          cases hcreate
          exact Table.rows_add hnone
      · cases hcreate
  · next hready =>
      cases h
      exact ⟨(Bool.not_eq_true _ ▸ hready).symm, rfl⟩

/-- **The loop over the candidates** dispatches those that are ready by the snapshot. -/
theorem dispatch_ready_eq {latest : JobId → Option Task} {ids : JobId → TaskId}
    {candidates : List Job} {db db' : Chain} {n n' : Nat}
    (h : db.dispatch_ready latest ids candidates n = some (db', n')) :
    db.Dispatches ids (candidates.filter fun job => db.ready latest job.id) db' ∧
      n' = n + (candidates.filter fun job => db.ready latest job.id).length := by
  induction candidates generalizing db n with
  | nil =>
      cases h
      exact ⟨⟨rfl, rfl, rfl, (List.append_nil _).symm, (List.append_nil _).symm⟩, rfl⟩
  | cons job rest ih =>
      obtain ⟨r, hr, hrest⟩ := Option.bind_eq_some_iff.mp
        (show ((db._dispatch_if_ready latest job (ids job.id)).map fun d =>
          (d.1, n + if d.2 then 1 else 0)).bind
            (fun r => Chain.dispatch_ready r.1 latest ids rest r.2) = some (db', n') from h)
      obtain ⟨⟨mid, fired⟩, hfired, rfl⟩ := Option.map_eq_some_iff.mp hr
      obtain ⟨hready, hmid⟩ := dispatch_if_ready_eq hfired
      obtain ⟨hall, hn⟩ := ih hrest
      cases fired with
      | false =>
          rw [if_neg Bool.false_ne_true] at hmid
          subst hmid
          have hskip : (job :: rest).filter (fun job => mid.ready latest job.id)
              = rest.filter fun job => mid.ready latest job.id :=
            List.filter_cons_of_neg (hready ▸ Bool.false_ne_true)
          rw [hskip]
          exact ⟨hall, hn⟩
      | true =>
          rw [if_pos rfl] at hmid
          -- readiness does not look at what the loop itself inserts
          have hsame := congrFun (Chain.ready_congr hmid.jobs hmid.job_dependencies) latest
          have htake : (job :: rest).filter (fun job => db.ready latest job.id)
              = job :: rest.filter fun job => mid.ready latest job.id := by
            rw [hsame]
            exact List.filter_cons_of_pos hready.symm
          rw [htake]
          have hn : n' = n + 1 + (rest.filter fun job => mid.ready latest job.id).length := hn
          refine ⟨hmid.cons hall, ?_⟩
          rw [List.length_cons]
          omega

/-! ## The pass -/

namespace Chain

/-- The successes a pass observes. -/
def observed (db : Chain) : List Task :=
  TaskRepository.get_unprocessed_successful_tasks db.tasks 100

/-- The jobs a pass dispatches: the candidates that are ready by the tasks before it. -/
def dispatched (db : Chain) : List Job :=
  (db.candidates db.observed).filter fun job =>
    db.ready (TaskRepository.latest_task db.tasks) job.id

/-- What a pass leaves behind: the marks, and a task and a message for each job it
dispatches. -/
structure Passed (db : Chain) (ids : JobId → TaskId) (db' : Chain) : Prop where
  now : db'.now = db.now
  jobs : db'.jobs = db.jobs
  job_dependencies : db'.job_dependencies = db.job_dependencies
  tasks : db'.tasks.rows = db.tasks.rows.map (Task.chained (db.observed.map Task.id)) ++
    db.dispatched.map fun job => .fresh (ids job.id) job.id .dependency 0 db.now
  normal_queue : db'.normal_queue = db.normal_queue ++ db.dispatched.map fun job => ids job.id

variable {db : Chain}

/-- Of the tasks in a snapshot, readiness reads the status and the completion. -/
theorem ready_snapshot {latest latest' : JobId → Option Task} {job_id : JobId} {g : Task → Task}
    (hstatus : ∀ x, (g x).status = x.status) (hdone : ∀ x, _completed_at (g x) = _completed_at x)
    (hown : latest' job_id = (latest job_id).map g)
    (hups : ∀ up ∈ db.upstream_jobs job_id, latest' up.id = (latest up.id).map g) :
    db.ready latest' job_id = db.ready latest job_id := by
  have hat : db.ready_at latest' job_id = db.ready_at latest job_id := by
    have hall : (db.upstream_jobs job_id).all (fun up => (latest' up.id).any (·.status = .success))
        = (db.upstream_jobs job_id).all fun up => (latest up.id).any (·.status = .success) := by
      rw [Bool.eq_iff_iff, List.all_eq_true, List.all_eq_true]
      refine forall₂_congr fun up hup => ?_
      rw [hups up hup]
      cases latest up.id with
      | none => rfl
      | some task => simp [hstatus]
    have hmax : (db.upstream_jobs job_id).filterMap (fun up => (latest' up.id).map _completed_at)
        = (db.upstream_jobs job_id).filterMap fun up => (latest up.id).map _completed_at := by
      refine List.filterMap_congr fun up hup => ?_
      rw [hups up hup]
      cases latest up.id with
      | none => rfl
      | some task => simp [hdone]
    simp only [ready_at, hall, hmax]
  simp only [ready, hat, hown]
  cases latest job_id with
  | none => rfl
  | some task => simp [hdone]

/-- The snapshot of a pass holds what the readiness of its candidates depends on. -/
theorem ready_looked_at {candidates : List Job} {job : Job} (hjob : job ∈ candidates)
    (tasks : Table Task) :
    db.ready (TaskRepository.latest_task_per_job tasks (db.looked_at candidates)) job.id
      = db.ready (TaskRepository.latest_task tasks) job.id := by
  refine ready_snapshot (fun _ => rfl) (fun _ => rfl) ?_ fun up hup => ?_
  · rw [TaskRepository.latest_task_per_job, if_pos, Option.map_id']
    exact List.mem_append_left _ (List.mem_map_of_mem hjob)
  · rw [TaskRepository.latest_task_per_job, if_pos, Option.map_id']
    exact List.mem_append_right _ (List.mem_flatMap.mpr ⟨job, hjob, List.mem_map_of_mem hup⟩)

/-- The candidates are enabled rows downstream of an observed task. -/
theorem mem_candidates {tasks : List Task} {job : Job} :
    job ∈ db.candidates tasks ↔ job ∈ db.jobs.rows ∧ job.enabled = true ∧
      ∃ up ∈ db.upstream_jobs job.id, ∃ task ∈ tasks, task.job_id = up.id := by
  simp only [candidates, List.mem_reverse, List.mem_dedup, List.mem_flatMap, List.mem_filter,
    downstream_jobs, upstream_jobs, decide_eq_true_eq, List.mem_map]
  constructor
  · rintro ⟨up, ⟨hup, task, htask, hid⟩, ⟨hjob, hedge⟩, henabled⟩
    exact ⟨hjob, henabled, up, ⟨hup, hedge⟩, task, htask, hid⟩
  · rintro ⟨hjob, henabled, up, ⟨hup, hedge⟩, task, htask, hid⟩
    exact ⟨up, ⟨hup, task, htask, hid⟩, ⟨hjob, hedge⟩, henabled⟩

theorem candidates_nodup (tasks : List Task) : (db.candidates tasks).Nodup :=
  List.nodup_reverse.mpr (List.nodup_dedup _)

/-- The pass from the successes it has read on, in the order it goes through them and through
the candidates. -/
def pass_in_order (db : Chain) (ids : JobId → TaskId) (observed : List Task)
    (candidates : List Job) : Option (Chain × Nat) :=
  if observed = [] then some (db, 0) else
    (mark_processed db.tasks observed).bind fun tasks =>
      let db := { db with tasks := tasks }
      if candidates = [] then some (db, 0) else
        let latest := TaskRepository.latest_task_per_job tasks (db.looked_at candidates)
        db.dispatch_ready latest ids candidates 0

/-- The order of the function is one of them. -/
theorem trigger_dependent_jobs_eq (db : Chain) (ids : JobId → TaskId) :
    db.trigger_dependent_jobs ids
      = db.pass_in_order ids db.observed (db.candidates db.observed) := rfl

/-- The snapshot of a pass is taken after its marks, and readiness does not see them. -/
theorem ready_marked {observed : List Task} {marked : Table Task} {candidates : List Job}
    (hrows : marked.rows = db.tasks.rows.map (Task.chained (observed.map Task.id))) {job : Job}
    (hjob : job ∈ candidates) :
    Chain.ready { db with tasks := marked } (TaskRepository.latest_task_per_job marked
      (Chain.looked_at { db with tasks := marked } candidates)) job.id
      = db.ready (TaskRepository.latest_task db.tasks) job.id := by
  -- the snapshot holds the rows as they were, but for the marks
  have hlatest : ∀ j, TaskRepository.latest_task marked j
      = (TaskRepository.latest_task db.tasks j).map (Task.chained (observed.map Task.id)) :=
    fun j => TaskRepository.latest_task_grow (Task.chained_job_id _)
      (Task.chained_created_at _) (fun x hx => absurd hx List.not_mem_nil)
      (hrows.trans (List.append_nil _).symm)
  refine (ready_looked_at hjob marked).trans ?_
  exact ready_snapshot (Task.chained_status (observed.map Task.id))
    (completed_at_chained _) (hlatest job.id) fun up _ => hlatest up.id

/-- What a pass leaves behind, by the successes it marks and the jobs it dispatches. -/
structure PassedBy (db : Chain) (ids : JobId → TaskId) (observed : List Task)
    (fired : List Job) (db' : Chain) : Prop where
  now : db'.now = db.now
  jobs : db'.jobs = db.jobs
  job_dependencies : db'.job_dependencies = db.job_dependencies
  tasks : db'.tasks.rows = db.tasks.rows.map (Task.chained (observed.map Task.id)) ++
    fired.map fun job => .fresh (ids job.id) job.id .dependency 0 db.now
  normal_queue : db'.normal_queue = db.normal_queue ++ fired.map fun job => ids job.id

/-- Marks, and no dispatch. -/
theorem passedBy_marks {ids : JobId → TaskId} {observed : List Task} {marked : Table Task}
    (hrows : marked.rows = db.tasks.rows.map (Task.chained (observed.map Task.id))) :
    db.PassedBy ids observed [] { db with tasks := marked } where
  now := rfl
  jobs := rfl
  job_dependencies := rfl
  tasks := hrows.trans (List.append_nil _).symm
  normal_queue := (List.append_nil _).symm

/-- **What a pass does, in whatever order**: it marks what it has observed, and dispatches the
candidates that are ready by the tasks before it. -/
theorem pass_in_order_eq {ids : JobId → TaskId} {observed : List Task} {candidates : List Job}
    {db' : Chain} {n : Nat} (hp : ∀ task ∈ observed, task.processed_for_chaining = false)
    (hnone : observed = [] → candidates = [])
    (h : db.pass_in_order ids observed candidates = some (db', n)) :
    db.PassedBy ids observed
        (candidates.filter fun job => db.ready (TaskRepository.latest_task db.tasks) job.id) db' ∧
      n = (candidates.filter fun job =>
        db.ready (TaskRepository.latest_task db.tasks) job.id).length := by
  unfold pass_in_order at h
  split at h
  · next hobs =>
      cases h
      rw [hnone hobs, hobs]
      exact ⟨passedBy_marks (List.map_id'' (fun x => Task.chained_nil x) _).symm, rfl⟩
  · obtain ⟨marked, hmark, h⟩ := Option.bind_eq_some_iff.mp h
    have hrows := mark_processed_rows hp hmark
    split at h
    · next hcands =>
        cases h
        rw [hcands]
        exact ⟨passedBy_marks hrows, rfl⟩
    · obtain ⟨hd, hn⟩ := dispatch_ready_eq h
      rw [List.filter_congr fun job hjob => ready_marked hrows hjob] at hd hn
      rw [Nat.zero_add] at hn
      refine ⟨⟨hd.now, hd.jobs, hd.job_dependencies, ?_, hd.normal_queue⟩, hn⟩
      rw [hd.tasks]
      exact congrArg (· ++ _) hrows

/-- **What a pass does**, in terms of the state it starts from. -/
theorem pass_eq {ids : JobId → TaskId} {db' : Chain} {n : Nat}
    (h : db.trigger_dependent_jobs ids = some (db', n)) :
    db.Passed ids db' ∧ n = db.dispatched.length := by
  rw [trigger_dependent_jobs_eq] at h
  have hnone : db.observed = [] → db.candidates db.observed = [] := by
    intro hobs
    refine List.eq_nil_iff_forall_not_mem.mpr fun job hjob => ?_
    obtain ⟨_, _, _, _, task, htask, _⟩ := mem_candidates.mp hjob
    rw [hobs] at htask
    cases htask
  obtain ⟨hpassed, hn⟩ := pass_in_order_eq
    (fun task htask => (TaskRepository.of_mem_get_unprocessed htask).2.2) hnone h
  exact ⟨⟨hpassed.now, hpassed.jobs, hpassed.job_dependencies, hpassed.tasks,
    hpassed.normal_queue⟩, hn⟩

/-! ## Readiness -/

/-- The latest task of every upstream is a success. -/
def UpstreamsSucceeded (db : Chain) (latest : JobId → Option Task) (job_id : JobId) : Prop :=
  ∀ up ∈ db.upstream_jobs job_id, ∃ task ∈ latest up.id, task.status = .success

instance (db : Chain) (latest : JobId → Option Task) (job_id : JobId) :
    Decidable (db.UpstreamsSucceeded latest job_id) :=
  inferInstanceAs (Decidable (∀ up ∈ db.upstream_jobs job_id, ∃ task ∈ latest up.id, _))

/-- `t` comes before the newest upstream completion. -/
def BeforeCompletion (db : Chain) (latest : JobId → Option Task) (job_id : JobId) (t : Int) :
    Prop :=
  ∃ up ∈ db.upstream_jobs job_id, ∃ task ∈ latest up.id, t < _completed_at task

instance (db : Chain) (latest : JobId → Option Task) (job_id : JobId) (t : Int) :
    Decidable (db.BeforeCompletion latest job_id t) :=
  inferInstanceAs (Decidable (∃ up ∈ db.upstream_jobs job_id, ∃ task ∈ latest up.id, _))

theorem upstreams_all_iff {latest : JobId → Option Task} {job_id : JobId} :
    ((db.upstream_jobs job_id).all fun up => (latest up.id).any (·.status = .success)) = true ↔
      db.UpstreamsSucceeded latest job_id := by
  rw [List.all_eq_true]
  refine forall₂_congr fun up _ => ?_
  rw [Option.any_eq_true]
  simp only [decide_eq_true_eq, Option.mem_def]

theorem lt_ready_at {latest : JobId → Option Task} {job_id : JobId} {r : Int}
    (h : db.ready_at latest job_id = some r) (t : Int) :
    t < r ↔ db.BeforeCompletion latest job_id t := by
  unfold ready_at at h
  simp only at h
  split at h
  · rw [List.max?_eq_some_iff] at h
    obtain ⟨hmem, hle⟩ := h
    simp only [List.mem_filterMap, Option.map_eq_some_iff] at hmem hle
    constructor
    · intro hlt
      obtain ⟨up, hup, task, htask, hr⟩ := hmem
      exact ⟨up, hup, task, htask, hr ▸ hlt⟩
    · rintro ⟨up, hup, task, htask, hlt⟩
      exact lt_of_lt_of_le hlt (hle _ ⟨up, hup, task, htask, rfl⟩)
  · cases h

/-- **When a job is dispatched**: it has upstreams, their latest tasks are successes, and
its own latest task is older than the newest of them. -/
theorem ready_iff {latest : JobId → Option Task} {job_id : JobId} :
    db.ready latest job_id = true ↔ db.upstream_jobs job_id ≠ [] ∧
      db.UpstreamsSucceeded latest job_id ∧
      ∀ own ∈ latest job_id, db.BeforeCompletion latest job_id (_completed_at own) := by
  cases hat : db.ready_at latest job_id with
  | none =>
      refine iff_of_false (by simp [ready, hat]) ?_
      rintro ⟨hne, hall, _⟩
      rw [ready_at, if_pos (upstreams_all_iff.mpr hall), List.max?_eq_none_iff,
        List.filterMap_eq_nil_iff] at hat
      obtain ⟨up, hup⟩ := List.exists_mem_of_ne_nil _ hne
      obtain ⟨task, htask, _⟩ := hall up hup
      have hnone := hat up hup
      rw [htask] at hnone
      cases hnone
  | some r =>
      have hsucceeded : db.UpstreamsSucceeded latest job_id := by
        refine upstreams_all_iff.mp ?_
        by_contra hnot
        rw [ready_at, if_neg hnot] at hat
        cases hat
      have hne : db.upstream_jobs job_id ≠ [] := by
        intro hnil
        simp [ready_at, hnil] at hat
      rw [and_iff_right hne, and_iff_right hsucceeded]
      simp only [ready, hat]
      cases hown : latest job_id with
      | none => simp
      | some own => simp [lt_ready_at hat]

end Chain

end Dass
