/-
# `Dass.CronScheduler` — the heap, the cache and one dispatch

`backend/app/scheduler/cron_scheduler.py`.  The scheduler keeps a heap of
`(next_fire_at, job_id)` entries and a cache of detached `Job` objects; both
live in the process and survive an exception, which is why they are a record of
their own (`CronScheduler`), apart from the point its code has reached (`Pc`).

`sync_jobs` is one step: its only fallible call is the read, which precedes
every change to the heap and the cache.  `dispatch_due_jobs` is one step per
call that can raise or that another transaction can be ordered against:

    pop       look at the least entry; drop it, or go on with its cached job
    merge     `db.merge(job)` reads the row
    commit    `_dispatch` advances `next_fire_at`; `jobs.update` commits
    refresh   `jobs.update` reads the row back
    enqueue   the policy check, and `tasks.create` unless it forbids
    send      `queue.send_task`
    finish    the loop puts the object back into the cache and the heap
    fail      any of these raises; the cycle ends here

Times in the heap are float timestamps in the source; they are exact
microseconds here, so `_TIMESTAMP_EPSILON` is a thousand of them.
-/
import Dass.JobService
import Dass.Lib.Heap
import Mathlib.Data.Prod.Lex
import Mathlib.Algebra.Order.Group.Unbundled.Abs
import Mathlib.Algebra.Order.Group.Int
import Mathlib.Logic.Function.Basic

namespace Dass

/-- Slack when deciding whether two timestamps describe the same firing: 0.001 s. -/
def _TIMESTAMP_EPSILON : Int := 1000

/-- How far the cursor is rewound after each pass. -/
def _SYNC_OVERLAP_SECONDS : Int := 10

/-- A heap entry: tuples compare by time, then by id. -/
abbrev Entry := Int ×ₗ JobId

/-- What the process remembers between calls. -/
structure CronScheduler where
  heap : Heap Entry
  job_cache : JobId → Option Job
  last_sync_at : Option Int

/-- `CronScheduler.__init__`. -/
def CronScheduler.init : CronScheduler := ⟨.empty, fun _ => none, none⟩

/-! ## `sync_jobs` -/

/-- `_is_new_firing`. -/
def CronScheduler._is_new_firing (s : CronScheduler) (job_id : JobId) (next_fire_at : Int) :
    Bool :=
  match (s.job_cache job_id).bind Job.next_fire_at with
  | none => true
  | some cached => _TIMESTAMP_EPSILON < |cached - next_fire_at|

/-- The heap after one row of the sync. -/
def CronScheduler.push_new (s : CronScheduler) (job : Job) : Heap Entry :=
  match job.next_fire_at with
  | none => s.heap
  | some t =>
      if s._is_new_firing job.id t then s.heap.heappush (toLex (t, job.id)) else s.heap

/-- The body of the loop of `sync_jobs`. -/
def CronScheduler.sync_row (s : CronScheduler) (job : Job) : CronScheduler :=
  if job.enabled then
    { s with
      heap := s.push_new job
      job_cache := Function.update s.job_cache job.id (some job) }
  else { s with job_cache := Function.update s.job_cache job.id none }

/-- `sync_jobs`, from the rows its query answered. -/
def CronScheduler.sync_jobs (s : CronScheduler) (started_at : Int) (jobs : List Job) :
    CronScheduler :=
  { jobs.foldl CronScheduler.sync_row s with
    last_sync_at := some (started_at - seconds _SYNC_OVERLAP_SECONDS) }

/-! ## The head of the dispatch loop -/

/-- What the loop does with the least entry. -/
inductive Popped where
  /-- no entry is due: the loop ends -/
  | done
  /-- the entry's job is not cached, or its time is stale: dropped -/
  | skipped (s : CronScheduler)
  /-- the cached job has no `next_fire_at` to compare with: `AttributeError` -/
  | raised (s : CronScheduler)
  /-- the entry's job is dispatched; `instant` is its cached `next_fire_at` -/
  | due (s : CronScheduler) (job : Job) (instant : Int)

/-- `dispatch_due_jobs`, from the loop head to `session_maker`. -/
def CronScheduler.pop_due (s : CronScheduler) (now : Int) : Popped :=
  match s.heap.peek with
  | none => .done
  | some entry =>
      if now < (ofLex entry).1 then .done else
        let popped := { s with heap := s.heap.heappop }
        match s.job_cache (ofLex entry).2 with
        | none => .skipped popped
        | some job =>
            match job.next_fire_at with
            | none => .raised popped
            | some t =>
                if _TIMESTAMP_EPSILON < |t - (ofLex entry).1| then .skipped popped
                else .due popped job t

/-- The loop's epilogue: the object goes back into the cache and the heap. -/
def CronScheduler.reschedule (s : CronScheduler) (job : Job) : CronScheduler :=
  { s with
    job_cache := Function.update s.job_cache job.id (some job)
    heap := match job.next_fire_at with
      | none => s.heap
      | some t => s.heap.heappush (toLex (t, job.id)) }

/-! ## The process and its database -/

/-- The point `dispatch_due_jobs` has reached.  `now` is captured when it starts. -/
inductive Pc where
  | idle
  | looping (now : Int)
  | opened (now : Int) (job : Job) (instant : Int)
  | merged (now : Int) (job : Job) (instant : Int) (loaded : Option Job)
  | updated (now : Int) (instant : Int) (id : JobId)
  | refreshed (now : Int) (instant : Int) (job : Job)
  | created (now : Int) (instant : Int) (job : Job) (task_id : TaskId)
  | sent (now : Int) (instant : Int) (job : Job)

/-- A scheduler process. -/
structure Scheduler where
  mem : CronScheduler
  pc : Pc

/-- A freshly started process. -/
def Scheduler.init : Scheduler := ⟨.init, .idle⟩

/-- One firing that became a task. -/
structure Firing where
  task : Task
  instant : Int

/-- What schedulers and the API share: the clock, `jobs`, the tasks the cron
schedulers created with the instant each stands for, and what they sent. -/
structure Db where
  now : Int
  jobs : Table Job
  fired : List Firing
  scheduled_queue : List TaskId

/-- A step of a scheduler process. -/
inductive Act where
  | sync
  | begin
  | pop
  | merge
  | commit
  | refresh
  /-- `running`: `count_running_for_job` answered a positive count -/
  | enqueue (running : Bool) (id : TaskId)
  | send
  | finish
  | fail

/-- The row `_dispatch` commits: the merged copy, its schedule advanced. -/
def advance (env : Env) (now : Int) (expression : String) (job : Job) : Job :=
  { job with next_fire_at := some (next_cron_time env expression now) }

/-- One step of a scheduler process on the database. -/
inductive ActStep (env : Env) : Db → Scheduler → Act → Db → Scheduler → Prop
  | sync {db p} : p.pc = .idle →
      ActStep env db p .sync db { p with
        mem := p.mem.sync_jobs db.now (list_updated_since db.jobs p.mem.last_sync_at) }
  | begin {db p} : p.pc = .idle →
      ActStep env db p .begin db { p with pc := .looping db.now }
  | done {db p now} : p.pc = .looping now → p.mem.pop_due now = .done →
      ActStep env db p .pop db { p with pc := .idle }
  | skipped {db p now mem} : p.pc = .looping now → p.mem.pop_due now = .skipped mem →
      ActStep env db p .pop db { p with mem := mem }
  | raised {db p now mem} : p.pc = .looping now → p.mem.pop_due now = .raised mem →
      ActStep env db p .pop db { mem := mem, pc := .idle }
  | due {db p now mem job t} : p.pc = .looping now → p.mem.pop_due now = .due mem job t →
      ActStep env db p .pop db { mem := mem, pc := .opened now job t }
  | merge {db p now job t} : p.pc = .opened now job t →
      ActStep env db p .merge db { p with pc := .merged now job t (db.jobs.get job.id) }
  | commit {db p now job t loaded expression jobs'} : p.pc = .merged now job t loaded →
      job.cron_expression = some expression →
      commit_merged db.jobs db.now loaded (advance env now expression job) = some jobs' →
      ActStep env db p .commit { db with jobs := jobs' } { p with pc := .updated now t job.id }
  | refresh {db p now t id row} : p.pc = .updated now t id → db.jobs.get id = some row →
      ActStep env db p .refresh db { p with pc := .refreshed now t row }
  | forbidden {db p now t job running id} : p.pc = .refreshed now t job →
      job.concurrency_policy = .forbid → running = true →
      ActStep env db p (.enqueue running id) db { p with pc := .sent now t job }
  | create {db p now t job running id} : p.pc = .refreshed now t job →
      ¬(job.concurrency_policy = .forbid ∧ running = true) →
      (∀ f ∈ db.fired, f.task.id ≠ id) → db.jobs.get job.id ≠ none →
      ActStep env db p (.enqueue running id)
        { db with fired := db.fired ++ [⟨.fresh id job.id .scheduled 0 db.now, t⟩] }
        { p with pc := .created now t job id }
  | send {db p now t job id} : p.pc = .created now t job id →
      ActStep env db p .send { db with scheduled_queue := db.scheduled_queue ++ [id] }
        { p with pc := .sent now t job }
  | finish {db p now t job} : p.pc = .sent now t job →
      ActStep env db p .finish db { mem := p.mem.reschedule job, pc := .looping now }
  | fail {db p} : ActStep env db p .fail db { p with pc := .idle }

/-! ## What the in-memory operations leave behind -/

section Sync

variable {s : CronScheduler} {jobs : List Job}

/-- Rows that do not mention a job leave its cache slot alone. -/
theorem sync_rows_of_notMem {j : JobId} :
    ∀ {jobs : List Job} {s : CronScheduler}, (∀ r ∈ jobs, r.id ≠ j) →
      (jobs.foldl CronScheduler.sync_row s).job_cache j = s.job_cache j
  | [], _, _ => rfl
  | r :: rs, s, h => by
      have hr : r.id ≠ j := h r List.mem_cons_self
      rw [List.foldl_cons, sync_rows_of_notMem fun x hx => h x (List.mem_cons_of_mem _ hx)]
      unfold CronScheduler.sync_row
      split <;> exact Function.update_of_ne (Ne.symm hr) _ _

/-- A row of the answer decides its job's cache slot, provided it is the only one. -/
theorem sync_rows_of_mem {row : Job} :
    ∀ {jobs : List Job} {s : CronScheduler}, row ∈ jobs → (∀ r ∈ jobs, r.id = row.id → r = row) →
      (jobs.foldl CronScheduler.sync_row s).job_cache row.id
        = if row.enabled then some row else none
  | [], _, h, _ => absurd h List.not_mem_nil
  | r :: rs, s, h, hone => by
      rw [List.foldl_cons]
      by_cases hrs : row ∈ rs
      · exact sync_rows_of_mem hrs fun x hx => hone x (List.mem_cons_of_mem _ hx)
      · obtain rfl : row = r := (List.mem_cons.mp h).resolve_right hrs
        rw [sync_rows_of_notMem]
        · unfold CronScheduler.sync_row
          split <;> exact Function.update_self _ _ _
        · intro x hx hid
          exact hrs (hone x (List.mem_cons_of_mem _ hx) hid ▸ hx)

/-- A sync only adds heap entries. -/
theorem mem_heap_sync_row {s : CronScheduler} {job : Job} {e : Entry} (h : e ∈ s.heap) :
    e ∈ (s.sync_row job).heap := by
  unfold CronScheduler.sync_row CronScheduler.push_new
  repeat' split
  all_goals first | exact h | exact Heap.mem_heappush.mpr (.inr h)

theorem mem_heap_sync_rows {e : Entry} :
    ∀ {jobs : List Job} {s : CronScheduler}, e ∈ s.heap →
      e ∈ (jobs.foldl CronScheduler.sync_row s).heap
  | [], _, h => h
  | r :: rs, s, h => by
      rw [List.foldl_cons]
      exact mem_heap_sync_rows (mem_heap_sync_row h)

end Sync

@[simp] theorem last_sync_at_sync_jobs (s : CronScheduler) (started_at : Int) (jobs : List Job) :
    (s.sync_jobs started_at jobs).last_sync_at
      = some (started_at - seconds _SYNC_OVERLAP_SECONDS) := rfl

/-- **The cache slot of a job after a sync**: decided by the job's row where the query
answers it, untouched where it does not. -/
theorem job_cache_sync_jobs (s : CronScheduler) (started_at : Int) (jobs : Table Job)
    (since : Option Int) (j : JobId) :
    (∃ row, jobs.get j = some row ∧ row ∈ list_updated_since jobs since ∧
      (s.sync_jobs started_at (list_updated_since jobs since)).job_cache j
        = if row.enabled then some row else none) ∨
    ((∀ row, jobs.get j = some row → row ∉ list_updated_since jobs since) ∧
      (s.sync_jobs started_at (list_updated_since jobs since)).job_cache j = s.job_cache j) := by
  by_cases h : ∃ row ∈ list_updated_since jobs since, row.id = j
  · obtain ⟨row, hrow, rfl⟩ := h
    exact .inl ⟨row, (mem_list_updated_since.mp hrow).1, hrow,
      sync_rows_of_mem hrow fun r hr hid => list_updated_since_inj hr hrow hid⟩
  · have hnot : ∀ r ∈ list_updated_since jobs since, r.id ≠ j := fun r hr hj => h ⟨r, hr, hj⟩
    exact .inr ⟨fun row hj hm => hnot row hm (Table.key_of_get hj), sync_rows_of_notMem hnot⟩

/-- What is cached after a sync was answered by it, or was cached before. -/
theorem cached_of_sync_jobs {s : CronScheduler} {started_at : Int} {jobs : Table Job}
    {since : Option Int} {j : JobId} {job : Job}
    (h : (s.sync_jobs started_at (list_updated_since jobs since)).job_cache j = some job) :
    (jobs.get j = some job ∧ job.enabled = true ∧ job.job_type = .scheduled) ∨
      s.job_cache j = some job := by
  rcases job_cache_sync_jobs s started_at jobs since j with ⟨row, hrow, hmem, hc⟩ | ⟨_, hc⟩
  · rw [hc] at h
    split at h
    · next he =>
        cases h
        exact .inl ⟨hrow, he, (mem_list_updated_since.mp hmem).2.1⟩
    · cases h
  · exact .inr (hc.symm.trans h)

/-- What the loop head can answer. -/
theorem pop_due_cases (s : CronScheduler) (now : Int) :
    s.pop_due now = .done ∨
    ∃ entry : Entry, s.heap.peek = some entry ∧ (ofLex entry).1 ≤ now ∧
      let popped : CronScheduler := { s with heap := s.heap.heappop }
      (s.pop_due now = .skipped popped ∧
          ∀ job t, s.job_cache (ofLex entry).2 = some job → job.next_fire_at = some t →
            t ≠ (ofLex entry).1) ∨
      (s.pop_due now = .raised popped ∧
          ∃ job, s.job_cache (ofLex entry).2 = some job ∧ job.next_fire_at = none) ∨
      ∃ job t, s.pop_due now = .due popped job t ∧
        s.job_cache (ofLex entry).2 = some job ∧ job.next_fire_at = some t ∧
        |t - (ofLex entry).1| ≤ _TIMESTAMP_EPSILON := by
  cases hp : s.heap.peek with
  | none => exact .inl (by simp [CronScheduler.pop_due, hp])
  | some entry =>
      by_cases hnow : now < (ofLex entry).1
      · exact .inl (by simp [CronScheduler.pop_due, hp, hnow])
      · refine .inr ⟨entry, rfl, not_lt.mp hnow, ?_⟩
        cases hc : s.job_cache (ofLex entry).2 with
        | none => exact .inl ⟨by simp [CronScheduler.pop_due, hp, hnow, hc], by simp⟩
        | some job =>
            cases ht : job.next_fire_at with
            | none =>
                exact .inr (.inl ⟨by simp [CronScheduler.pop_due, hp, hnow, hc, ht], job, rfl, ht⟩)
            | some t =>
                by_cases hstale : _TIMESTAMP_EPSILON < |t - (ofLex entry).1|
                · refine .inl ⟨by simp [CronScheduler.pop_due, hp, hnow, hc, ht, hstale], ?_⟩
                  rintro job' t' hj ht' rfl
                  cases hj
                  rw [ht] at ht'
                  cases ht'
                  simp [_TIMESTAMP_EPSILON] at hstale
                · exact .inr (.inr ⟨job, t,
                    by simp [CronScheduler.pop_due, hp, hnow, hc, ht, hstale], rfl, ht,
                    not_lt.mp hstale⟩)

/-! ## One scheduler beside the API

The steps are the passing of time, the committed requests of the API, and the steps of the
process (`ActStep`).  One clock stamps everything, and every read sees all commits before
it.  Nothing here orders the steps: requests may land between any two steps of a dispatch,
and `sync_jobs` and `dispatch_due_jobs` come in any order.  A statement that needs less
freedom restricts the runs it speaks about. -/

/-- One scheduler process over a database the API writes to. -/
structure Cron where
  db : Db
  sched : Scheduler

/-- A step of the system. -/
inductive Cron.Label where
  | tick (d : Int)
  | api (op : ApiOp)
  | act (a : Act)

/-- The label is not a request of the API. -/
def Cron.Label.NoApi : Cron.Label → Prop
  | .api _ => False
  | _ => True

/-- The steps of the system. -/
inductive Cron.Step (env : Env) : Cron → Cron.Label → Cron → Prop
  | tick {s : Cron} {d} : 0 ≤ d →
      Cron.Step env s (.tick d) { s with db := { s.db with now := s.db.now + d } }
  | api {s : Cron} {op jobs'} : op.commit env s.db.now s.db.jobs = some jobs' →
      Cron.Step env s (.api op) { s with db := { s.db with jobs := jobs' } }
  | act {s : Cron} {a db' p'} : ActStep env s.db s.sched a db' p' →
      Cron.Step env s (.act a) ⟨db', p'⟩

/-- Any content of `jobs`, and a process that has just started. -/
def Cron.start (jobs : Table Job) (now : Int) : Cron where
  db := ⟨now, jobs, [], []⟩
  sched := .init

end Dass
