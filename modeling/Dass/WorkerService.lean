/-
# `Dass.WorkerService` — one message through a worker

`backend/app/services/worker_service.py`, and `handle` of `_run_queue_pool` in
`backend/app/cli.py` around it.  A worker handles a message in one coroutine
with one session; the coroutine awaits and commits many times on the way, so it
is a small machine (`Handler`) whose steps are the single statements:

    claim      the conditional `UPDATE` of `claim_task`, committed
    load       `claim_task` reads the row back
    check      the claim was lost: `_claim_with_retry` looks at the row
    recheck    `process_task_id_async` looks once more, for the message's sake
    lookup     `_get_job_with_retry`
    heartbeat  `_heartbeat` extends the lock of whoever `locked_by` names
    finish     the container ended: `mark_success` or `mark_failed` commits
    not_found  the job is gone: `mark_failed` commits
    retry      `_handle_failure` inserts the retry task
    fail       something raises, or the process stops

A heartbeat that fails, comes late or matches no row changes nothing and is no
step.  How long the container runs, and what comes of it, is open.
-/
import Dass.TaskRepository

namespace Dass

open Orm

abbrev HandlerId := Nat
abbrev MessageId := Nat

def _LOOKUP_ATTEMPTS : Nat := 5
def _MAX_OUTPUT_CHARS : Nat := 64000
def _TRUNCATION_NOTICE : String := "\n...[truncated]"

/-- `_truncate`. -/
def _truncate (text : Option String) : Option String :=
  text.map fun t =>
    if t.length ≤ _MAX_OUTPUT_CHARS then t
    else (t.take _MAX_OUTPUT_CHARS).toString ++ _TRUNCATION_NOTICE

/-- What the executor reports: what `_execute` uses of it. -/
structure ExecutionResult where
  success : Bool
  stdout : Option String
  stderr : Option String

/-- The settings a worker claims with.  Two workers may carry the same `worker_id`. -/
structure WorkerService where
  worker_id : WorkerId
  claim_seconds : Int

/-- A worker with the deployed visibility timeout. -/
def example_worker : WorkerService := ⟨"worker-1", 30⟩

/-! ## The row a statement leaves -/

/-- `claim_task`'s `UPDATE`, on a row its `WHERE` matches. -/
def WorkerService.claimed (service : WorkerService) (row : Task) (now : Int) : Task :=
  { row with
    status := .running
    locked_by := some service.worker_id
    locked_until := some (now + seconds service.claim_seconds)
    started_at := some now }

/-- `_heartbeat`'s `UPDATE`, on a row its `WHERE` matches. -/
def WorkerService.extended (service : WorkerService) (row : Task) (now : Int) : Task :=
  { row with locked_until := some (now + seconds service.claim_seconds) }

/-- `_handle_failure` has retries left. -/
def retries_left (task : Task) (job : Job) : Bool :=
  task.retry_count < job.max_retries

/-- What `process_task_id_async` assigns once the container has ended. -/
def recorded (task : Task) (job : Job) (result : ExecutionResult) (now : Int) : Task :=
  if result.success then
    task.mark_success (_truncate result.stdout) (_truncate result.stderr) now
  else
    task.mark_failed (_truncate result.stdout) (_truncate result.stderr)
      (!retries_left task job) now

/-- What it assigns when the job is gone. -/
def recorded_not_found (task : Task) (now : Int) : Task :=
  task.mark_failed (some "") (some "Job not found") true now

/-- The retry task of `_handle_failure`. -/
def retry_task (task : Task) (job : Job) (id : TaskId) (now : Int) : Task :=
  .fresh id job.id task.trigger_type (task.retry_count + 1) now

theorem recorded_terminal (task : Task) (job : Job) (result : ExecutionResult) (now : Int) :
    (recorded task job result now).status.terminal = true := by
  unfold recorded Task.mark_success Task.mark_failed
  split
  · rfl
  · simp only [Task._finish]
    split <;> rfl

@[simp] theorem recorded_id (task : Task) (job : Job) (result : ExecutionResult) (now : Int) :
    (recorded task job result now).id = task.id := by
  unfold recorded
  split <;> rfl

/-! ## The table and what was committed to it -/

/-- Which statement a commit was. -/
inductive What where
  /-- an insert; `retry_of` where `_handle_failure` made it -/
  | created (retry_of : Option TaskId)
  | claimed (by_ : HandlerId)
  | extended
  | finished (by_ : HandlerId)
  | reset
  | chained
deriving DecidableEq

/-- One committed write to `tasks`: the row, the statement, what it set of the two
columns others look at, and the table it was applied to. -/
structure Commit where
  task : TaskId
  what : What
  status : Option TaskStatus
  locked_until : Option (Option Int)
  before : Table Task

/-- The `tasks` table on the primary, with the commits that made it, newest first. -/
structure Store where
  tasks : Table Task
  log : List Commit

namespace Store

variable {st st' : Store}

/-- `TaskRepository.create`, with an id no task ever had. -/
def create (st : Store) (task : Task) (retry_of : Option TaskId) : Option Store :=
  if st.log.any (·.task = task.id) then none else
    (TaskRepository.create st.tasks task).map fun tasks =>
      ⟨tasks, ⟨task.id, .created retry_of, some task.status, some task.locked_until,
        st.tasks⟩ :: st.log⟩

/-- `claim_task`; `none` is `rowcount == 0`. -/
def claim_task (st : Store) (service : WorkerService) (handler : HandlerId) (task_id : TaskId)
    (now : Int) : Option Store :=
  match st.tasks.get task_id with
  | none => none
  | some row =>
      if row.status = .pending then
        some ⟨st.tasks.set (service.claimed row now),
          ⟨task_id, .claimed handler, some .running,
            some (some (now + seconds service.claim_seconds)), st.tasks⟩ :: st.log⟩
      else none

/-- `_heartbeat`; `none` where no row matches. -/
def heartbeat (st : Store) (service : WorkerService) (task_id : TaskId) (now : Int) :
    Option Store :=
  match st.tasks.get task_id with
  | none => none
  | some row =>
      if row.locked_by = some service.worker_id then
        some ⟨st.tasks.set (service.extended row now),
          ⟨task_id, .extended, none, some (some (now + seconds service.claim_seconds)),
            st.tasks⟩ :: st.log⟩
      else none

/-- The commit of an assigned object. -/
def flush (st : Store) (what : What) (loaded assigned : Task) : Option Store :=
  (TaskRepository.flush st.tasks loaded assigned).map fun tasks =>
    ⟨tasks, ⟨loaded.id, what, sent loaded.status assigned.status,
      sent loaded.locked_until assigned.locked_until, st.tasks⟩ :: st.log⟩

/-- The table when `n` commits had been made: what a replica that lags shows. -/
def table_at (st : Store) (n : Nat) : Table Task :=
  at_ st.tasks st.log n
where
  at_ (tasks : Table Task) : List Commit → Nat → Table Task
    | [], _ => tasks
    | c :: cs, n => if cs.length < n then tasks else at_ c.before cs n

/-! ### What each write leaves behind -/

theorem create_spec {task : Task} {retry_of : Option TaskId}
    (h : st.create task retry_of = some st') :
    st.tasks.get task.id = none ∧ (∀ c ∈ st.log, c.task ≠ task.id) ∧
    st'.log = ⟨task.id, .created retry_of, some task.status, some task.locked_until,
      st.tasks⟩ :: st.log ∧
    ∀ id, st'.tasks.get id = if task.id = id then some task else st.tasks.get id := by
  unfold create at h
  split at h
  · cases h
  · next hfresh =>
      obtain ⟨tasks, htasks, rfl⟩ := Option.map_eq_some_iff.mp h
      obtain ⟨hnone, hget⟩ := TaskRepository.get_create htasks
      refine ⟨hnone, fun c hc heq => hfresh ?_, rfl, hget⟩
      exact List.any_eq_true.mpr ⟨c, hc, decide_eq_true heq⟩

theorem claim_task_spec {service : WorkerService} {handler : HandlerId} {task_id : TaskId}
    {now : Int} (h : st.claim_task service handler task_id now = some st') :
    ∃ row, st.tasks.get task_id = some row ∧ row.status = .pending ∧
    st'.log = ⟨task_id, .claimed handler, some .running,
      some (some (now + seconds service.claim_seconds)), st.tasks⟩ :: st.log ∧
    ∀ id, st'.tasks.get id
      = if task_id = id then some (service.claimed row now) else st.tasks.get id := by
  unfold claim_task at h
  split at h
  · cases h
  · next row hrow =>
      split at h
      · next hpending =>
          cases h
          exact ⟨row, hrow, hpending, rfl, TaskRepository.get_set_row hrow rfl⟩
      · cases h

theorem heartbeat_spec {service : WorkerService} {task_id : TaskId} {now : Int}
    (h : st.heartbeat service task_id now = some st') :
    ∃ row, st.tasks.get task_id = some row ∧ row.locked_by = some service.worker_id ∧
    st'.log = ⟨task_id, .extended, none, some (some (now + seconds service.claim_seconds)),
      st.tasks⟩ :: st.log ∧
    ∀ id, st'.tasks.get id
      = if task_id = id then some (service.extended row now) else st.tasks.get id := by
  unfold heartbeat at h
  split at h
  · cases h
  · next row hrow =>
      split at h
      · next hlock =>
          cases h
          exact ⟨row, hrow, hlock, rfl, TaskRepository.get_set_row hrow rfl⟩
      · cases h

theorem flush_spec {what : What} {loaded assigned : Task}
    (h : st.flush what loaded assigned = some st') :
    ∃ stored, st.tasks.get loaded.id = some stored ∧
    st'.log = ⟨loaded.id, what, sent loaded.status assigned.status,
      sent loaded.locked_until assigned.locked_until, st.tasks⟩ :: st.log ∧
    ∀ id, st'.tasks.get id
      = if loaded.id = id then some (.flush loaded assigned stored) else st.tasks.get id := by
  obtain ⟨tasks, htasks, rfl⟩ := Option.map_eq_some_iff.mp h
  obtain ⟨stored, hstored, hget⟩ := TaskRepository.get_flush htasks
  exact ⟨stored, hstored, rfl, hget⟩

end Store

/-! ## The machine that handles a message -/

/-- The point `handle` has reached. -/
inductive HandlerPc where
  /-- `_claim_with_retry` is about to claim; attempts made before -/
  | claiming (attempt : Nat)
  /-- the `UPDATE` is committed; `claim_task` has not read the row back -/
  | claimed (attempt : Nat)
  /-- the claim was lost -/
  | lost (attempt : Nat)
  /-- `_claim_with_retry` answered `None` -/
  | unclaimed
  | loaded (task : Task)
  | unfound (task : Task)
  | executing (task : Task) (job : Job)
  /-- `_handle_failure` has recorded `failed`; the retry task is still to come -/
  | failed (task : Task) (job : Job)
  /-- the retry task is committed and not yet sent -/
  | resending (task : Task) (id : TaskId)
  /-- `process_task_id_async` answered `True`: the message is to be deleted -/
  | done
  | ended
deriving DecidableEq

/-- A coroutine handling one delivery of a message. -/
structure Handler where
  service : WorkerService
  message : MessageId
  task_id : TaskId
  pc : HandlerPc

/-- Where a lost claim leads: on to the next attempt, or out. -/
def after_check (existing : Option Task) (attempt : Nat) : HandlerPc :=
  let again := if attempt + 1 < _LOOKUP_ATTEMPTS then .claiming (attempt + 1) else .unclaimed
  match existing with
  | none => again
  | some task => if task.status ≠ .pending then .unclaimed else again

theorem after_check_cases (existing : Option Task) (attempt : Nat) :
    (∃ n, after_check existing attempt = .claiming n) ∨
      after_check existing attempt = .unclaimed := by
  unfold after_check
  cases existing with
  | none =>
      dsimp only
      split
      · exact .inl ⟨_, rfl⟩
      · exact .inr rfl
  | some task =>
      dsimp only
      split
      · exact .inr rfl
      · split
        · exact .inl ⟨_, rfl⟩
        · exact .inr rfl

/-- Nobody will process the task: its message can go. -/
def deletable (existing : Option Task) : Bool :=
  match existing with
  | none => true
  | some task => task.status.terminal

inductive WorkerAct where
  | claim | load | check | recheck | lookup | heartbeat
  | finish (result : ExecutionResult)
  | not_found
  | retry (id : TaskId)
  | fail

/-- One step of a handler. -/
inductive WorkStep (now : Int) (jobs : Table Job) (h : HandlerId) :
    Store → Handler → WorkerAct → Store → Handler → Prop
  | claim {st hd n st'} : hd.pc = .claiming n →
      st.claim_task hd.service h hd.task_id now = some st' →
      WorkStep now jobs h st hd .claim st' { hd with pc := .claimed n }
  | claim_lost {st hd n} : hd.pc = .claiming n →
      st.claim_task hd.service h hd.task_id now = none →
      WorkStep now jobs h st hd .claim st { hd with pc := .lost n }
  | load {st hd n task} : hd.pc = .claimed n → st.tasks.get hd.task_id = some task →
      WorkStep now jobs h st hd .load st { hd with pc := .loaded task }
  | load_none {st hd n} : hd.pc = .claimed n → st.tasks.get hd.task_id = none →
      WorkStep now jobs h st hd .load st { hd with pc := .lost n }
  | check {st hd n} : hd.pc = .lost n →
      WorkStep now jobs h st hd .check st
        { hd with pc := after_check (st.tasks.get hd.task_id) n }
  | recheck {st hd} : hd.pc = .unclaimed →
      WorkStep now jobs h st hd .recheck st
        { hd with pc := if deletable (st.tasks.get hd.task_id) then .done else .ended }
  | lookup {st hd task job} : hd.pc = .loaded task → jobs.get task.job_id = some job →
      WorkStep now jobs h st hd .lookup st { hd with pc := .executing task job }
  | lookup_none {st hd task} : hd.pc = .loaded task → jobs.get task.job_id = none →
      WorkStep now jobs h st hd .lookup st { hd with pc := .unfound task }
  | heartbeat {st hd task job st'} : hd.pc = .executing task job →
      st.heartbeat hd.service task.id now = some st' →
      WorkStep now jobs h st hd .heartbeat st' hd
  | finish {st hd task job result st'} : hd.pc = .executing task job →
      st.flush (.finished h) task (recorded task job result now) = some st' →
      WorkStep now jobs h st hd (.finish result) st'
        { hd with pc := if !result.success && retries_left task job then .failed task job
                        else .done }
  | not_found {st hd task st'} : hd.pc = .unfound task →
      st.flush (.finished h) task (recorded_not_found task now) = some st' →
      WorkStep now jobs h st hd .not_found st' { hd with pc := .done }
  | retry {st hd task job id st'} : hd.pc = .failed task job → jobs.get job.id ≠ none →
      st.create (retry_task task job id now) (some task.id) = some st' →
      WorkStep now jobs h st hd (.retry id) st' { hd with pc := .resending task id }
  | fail {st hd} : WorkStep now jobs h st hd .fail st { hd with pc := .ended }

end Dass
