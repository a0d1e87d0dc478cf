/-
# `Dass.System` — tasks, messages, workers and recovery together

The state has the two tables, the queues, the operations that are creating a
task, the handlers of delivered messages and the `recover_orphans` passes, any
number of each.  The steps are the single commits and calls of the source, in
any order:

    request    an API request commits to `jobs`
    accept     a creating operation passes its guards (`Origin.accept`)
    create     it inserts the row
    send       it sends the message, and is over
    abandon    it raises, or its process stops, before the insert
    lose       … after the insert and before the send
    receive    a worker receives a message; it may be received again at any time
    work       one step of a handler (`WorkStep`)
    resend     a handler sends the message of the retry task it made
    delete     a handler deletes its message
    recover    one step of a recovery pass (`RecoveryStep`)
    chain      the dependency scheduler commits one `processed_for_chaining`

`DELETE /jobs` is left out: it takes the job's tasks with it, and what is said
here is said of tasks that exist.
-/
import Dass.JobService
import Dass.TaskStates
import Dass.Lib.Run
import Mathlib.Logic.Function.Basic

namespace Dass

abbrev PassId := Nat

inductive QueueName where
  | normal | scheduled | retry
deriving DecidableEq

/-! ## The operations that create a task -/

/-- What starts a task. -/
inductive Origin where
  /-- `POST /jobs/{id}/trigger` -/
  | trigger (job_id : JobId)
  /-- `_dispatch_if_one_time`, after a create or an enable -/
  | one_time (job_id : JobId)
  /-- `CronScheduler._dispatch` -/
  | cron (job_id : JobId)
  /-- `DependencyScheduler._dispatch_if_ready` -/
  | dependency (job_id : JobId)
  /-- `POST /tasks/{id}/retry` -/
  | retry (task_id : TaskId)
deriving DecidableEq

/-- A task about to be inserted, and where its message will go. -/
structure NewTask where
  origin : Origin
  job_id : JobId
  trigger_type : TriggerType
  retry_count : Nat
  queue : QueueName
deriving DecidableEq

/-- The guards each operation has before its insert.  Only a cron dispatch looks at
`concurrency_policy`.  The readiness of a dependency's upstreams is left open here. -/
def Origin.accept (jobs : Table Job) (tasks : Table Task) : Origin → Option NewTask
  | .trigger id => (jobs.get id).map fun job =>
      ⟨.trigger id, job.id, .manual, 0, .normal⟩
  | .one_time id => (jobs.get id).bind fun job =>
      if job.job_type = .normal ∧ job.enabled then
        some ⟨.one_time id, job.id, .manual, 0, .normal⟩
      else none
  | .cron id => (jobs.get id).bind fun job =>
      if job.concurrency_policy = .forbid ∧
          TaskRepository.count_running_for_job tasks job.id ≠ 0 then none
      else some ⟨.cron id, job.id, .scheduled, 0, .scheduled⟩
  | .dependency id => (jobs.get id).bind fun job =>
      if job.enabled then some ⟨.dependency id, job.id, .dependency, 0, .normal⟩ else none
  | .retry id => (tasks.get id).bind fun task =>
      if task.status = .failed ∨ task.status = .final_failed then
        some ⟨.retry id, task.job_id, task.trigger_type, task.retry_count + 1, .retry⟩
      else none

/-! ## The state -/

/-- A message that was sent, and whether it has been deleted since. -/
structure Message where
  queue : QueueName
  task_id : TaskId
  deleted : Bool
deriving DecidableEq

/-- A `recover_orphans` pass: the clock is read first, then the listing is, then one
commit is made for each listed row.  `seen` counts the commits the listing had seen. -/
inductive Recovery where
  | begun (now : Int)
  | marking (listed : List Task) (seen : Nat)

structure Sys where
  now : Int
  jobs : Table Job
  store : Store
  creating : List NewTask
  /-- rows that are inserted and whose message is still to be sent -/
  outbox : List (TaskId × QueueName)
  messages : MessageId → Option Message
  handlers : HandlerId → Option Handler
  passes : PassId → Option Recovery

/-- No task yet, and nothing under way. -/
def Sys.start (jobs : Table Job) (now : Int) : Sys where
  now := now
  jobs := jobs
  store := ⟨.empty, []⟩
  creating := []
  outbox := []
  messages _ := none
  handlers _ := none
  passes _ := none

/-! ## Recovery -/

inductive RecoveryAct where
  | begin
  /-- the listing shows the table as it was after `seen` commits -/
  | list (seen : Nat)
  | mark
  | finish

inductive RecoveryStep (now : Int) :
    Store → Option Recovery → RecoveryAct → Store → Option Recovery → Prop
  | begin {st} : RecoveryStep now st none .begin st (some (.begun now))
  | list {st now' seen listed} : seen ≤ st.log.length →
      listed.Perm (TaskRepository.list_expired_running (st.table_at seen) now') →
      RecoveryStep now st (some (.begun now')) (.list seen) st (some (.marking listed seen))
  | mark {st task rest seen st'} :
      st.flush .reset task task.mark_running_expired_pending = some st' →
      RecoveryStep now st (some (.marking (task :: rest) seen)) .mark st'
        (some (.marking rest seen))
  | finish {st p} : RecoveryStep now st (some p) .finish st none

/-! ## The steps -/

inductive Sys.Label where
  | tick (d : Int)
  | request (op : ApiOp)
  | accept (origin : Origin)
  | create (task : NewTask) (id : TaskId)
  | send (id : TaskId) (message : MessageId)
  | abandon (task : NewTask)
  | lose (id : TaskId)
  | receive (message : MessageId) (handler : HandlerId) (service : WorkerService)
  | work (handler : HandlerId) (a : WorkerAct)
  | resend (handler : HandlerId) (message : MessageId)
  | delete (handler : HandlerId)
  | recover (pass : PassId) (a : RecoveryAct)
  | chain (id : TaskId)

open Function in
inductive Sys.Step (env : Env) : Sys → Sys.Label → Sys → Prop
  | tick {s : Sys} {d} : 0 ≤ d → Sys.Step env s (.tick d) { s with now := s.now + d }
  | request {s : Sys} {op jobs'} : (∀ id, op ≠ .delete_job id) →
      op.commit env s.now s.jobs = some jobs' →
      Sys.Step env s (.request op) { s with jobs := jobs' }
  | accept {s : Sys} {origin task} : origin.accept s.jobs s.store.tasks = some task →
      Sys.Step env s (.accept origin) { s with creating := task :: s.creating }
  | create {s : Sys} {task id st'} : task ∈ s.creating → s.jobs.get task.job_id ≠ none →
      s.store.create (.fresh id task.job_id task.trigger_type task.retry_count s.now) none
        = some st' →
      Sys.Step env s (.create task id) { s with
        store := st', creating := s.creating.erase task
        outbox := (id, task.queue) :: s.outbox }
  | send {s : Sys} {id queue m} : (id, queue) ∈ s.outbox → s.messages m = none →
      Sys.Step env s (.send id m) { s with
        outbox := s.outbox.erase (id, queue)
        messages := update s.messages m (some ⟨queue, id, false⟩) }
  | abandon {s : Sys} {task} :
      Sys.Step env s (.abandon task) { s with creating := s.creating.erase task }
  | lose {s : Sys} {id queue} : (id, queue) ∈ s.outbox →
      Sys.Step env s (.lose id) { s with outbox := s.outbox.erase (id, queue) }
  | receive {s : Sys} {m h message service} : s.messages m = some message →
      message.deleted = false → s.handlers h = none →
      Sys.Step env s (.receive m h service) { s with
        handlers := update s.handlers h (some ⟨service, m, message.task_id, .claiming 0⟩) }
  | work {s : Sys} {h hd a st' hd'} : s.handlers h = some hd →
      WorkStep s.now s.jobs h s.store hd a st' hd' →
      Sys.Step env s (.work h a) { s with
        store := st', handlers := update s.handlers h (some hd') }
  | resend {s : Sys} {h hd task id m} : s.handlers h = some hd → hd.pc = .resending task id →
      s.messages m = none →
      Sys.Step env s (.resend h m) { s with
        messages := update s.messages m (some ⟨.retry, id, false⟩)
        handlers := update s.handlers h (some { hd with pc := .done }) }
  | delete {s : Sys} {h hd message} : s.handlers h = some hd → hd.pc = .done →
      s.messages hd.message = some message →
      Sys.Step env s (.delete h) { s with
        messages := update s.messages hd.message (some { message with deleted := true })
        handlers := update s.handlers h (some { hd with pc := .ended }) }
  | recover {s : Sys} {p a st' r'} : RecoveryStep s.now s.store (s.passes p) a st' r' →
      Sys.Step env s (.recover p a) { s with store := st', passes := update s.passes p r' }
  | chain {s : Sys} {task st'} : task.status = .success → task.processed_for_chaining = false →
      s.store.flush .chained task task.mark_processed_for_chaining = some st' →
      Sys.Step env s (.chain task.id) { s with store := st' }

/-! ## What a step does to `tasks` -/

/-- A step commits nothing to `tasks`, or one of the four writes. -/
inductive Store.Next (st : Store) : Store → Prop
  | same : st.Next st
  | create {task retry_of st'} : st.create task retry_of = some st' → st.Next st'
  | claim {service h id now st'} : st.claim_task service h id now = some st' → st.Next st'
  | heartbeat {service id now st'} : st.heartbeat service id now = some st' → st.Next st'
  | flush {what loaded assigned st'} : st.flush what loaded assigned = some st' → st.Next st'

theorem Sys.Step.store {env : Env} {s s' : Sys} {l : Sys.Label} (h : Sys.Step env s l s') :
    s.store.Next s'.store := by
  cases h with
  | create _ _ h => exact .create h
  | work _ h =>
      cases h with
      | claim _ h => exact .claim h
      | heartbeat _ h => exact .heartbeat h
      | finish _ h | not_found _ h => exact .flush h
      | retry _ _ h => exact .create h
      | _ => exact .same
  | recover h =>
      generalize s.passes _ = r at h
      cases h with
      | mark h => exact .flush h
      | _ => exact .same
  | chain _ _ h => exact .flush h
  | _ => exact .same

/-- The columns no statement writes again. -/
structure Task.SameRun (row row' : Task) : Prop where
  job_id : row'.job_id = row.job_id
  trigger_type : row'.trigger_type = row.trigger_type
  retry_count : row'.retry_count = row.retry_count

/-- A row that is there stays, as the run it was created for. -/
theorem Store.Next.same_run {st st' : Store} (h : st.Next st') {T : TaskId} {row : Task}
    (hrow : st.tasks.get T = some row) :
    ∃ row', st'.tasks.get T = some row' ∧ row.SameRun row' := by
  have key : ∀ {id : TaskId} {old new : Task}, st.tasks.get id = some old →
      (∀ k, st'.tasks.get k = if id = k then some new else st.tasks.get k) → old.SameRun new →
      ∃ row', st'.tasks.get T = some row' ∧ row.SameRun row' := by
    intro id old new hold hget hsame
    by_cases hT : id = T
    · subst hT
      rw [hrow, Option.some.injEq] at hold
      exact ⟨new, by rw [hget, if_pos rfl], hold ▸ hsame⟩
    · exact ⟨row, by rw [hget, if_neg hT, hrow], rfl, rfl, rfl⟩
  cases h with
  | same => exact ⟨row, hrow, rfl, rfl, rfl⟩
  | @create task _ _ h =>
      obtain ⟨hnone, _, _, hget⟩ := Store.create_spec h
      refine ⟨row, ?_, rfl, rfl, rfl⟩
      rw [hget, if_neg, hrow]
      intro hT
      rw [hT, hrow] at hnone
      cases hnone
  | claim h =>
      obtain ⟨old, hold, _, _, hget⟩ := Store.claim_task_spec h
      exact key hold hget ⟨rfl, rfl, rfl⟩
  | heartbeat h =>
      obtain ⟨old, hold, _, _, hget⟩ := Store.heartbeat_spec h
      exact key hold hget ⟨rfl, rfl, rfl⟩
  | flush h =>
      obtain ⟨old, hold, _, hget⟩ := Store.flush_spec h
      exact key hold hget ⟨rfl, rfl, rfl⟩

/-- The log only grows. -/
theorem Store.Next.log {st st' : Store} (h : st.Next st') :
    st'.log = st.log ∨ ∃ c, st'.log = c :: st.log := by
  cases h with
  | same => exact .inl rfl
  | create h => exact .inr ⟨_, (Store.create_spec h).2.2.1⟩
  | claim h =>
      obtain ⟨_, _, _, hlog, _⟩ := Store.claim_task_spec h
      exact .inr ⟨_, hlog⟩
  | heartbeat h =>
      obtain ⟨_, _, _, hlog, _⟩ := Store.heartbeat_spec h
      exact .inr ⟨_, hlog⟩
  | flush h =>
      obtain ⟨_, _, hlog, _⟩ := Store.flush_spec h
      exact .inr ⟨_, hlog⟩

/-- Two operations insert rows: the one that has passed its guards, and `_handle_failure`. -/
theorem Sys.Step.new_row {env : Env} {s s' : Sys} {l : Sys.Label} (h : Sys.Step env s l s')
    {T : TaskId} {row : Task} (hrow : s'.store.tasks.get T = some row)
    (hnone : s.store.tasks.get T = none) :
    (∃ task, l = .create task T ∧ task ∈ s.creating ∧
      row = .fresh T task.job_id task.trigger_type task.retry_count s.now) ∨
    ∃ h hd task job, l = .work h (.retry T) ∧ s.handlers h = some hd ∧
      hd.pc = .failed task job ∧ row = retry_task task job T s.now := by
  have inserted : ∀ {task : Task} {retry_of st'}, s.store.create task retry_of = some st' →
      st'.tasks.get T = some row → task.id = T ∧ row = task := by
    intro task retry_of st' hcreate hrow
    obtain ⟨_, _, _, hget⟩ := Store.create_spec hcreate
    rw [hget] at hrow
    split at hrow
    · next hT => exact ⟨hT, (Option.some.inj hrow).symm⟩
    · rw [hnone] at hrow
      cases hrow
  have updated : ∀ {st' : Store} {id : TaskId} {old new : Task},
      s.store.tasks.get id = some old →
      (∀ k, st'.tasks.get k = if id = k then some new else s.store.tasks.get k) →
      st'.tasks.get T = some row → False := by
    intro st' id old new hold hget hrow
    rw [hget] at hrow
    split at hrow
    · next hT =>
        rw [hT, hnone] at hold
        cases hold
    · rw [hnone] at hrow
      cases hrow
  have same : s.store.tasks.get T = some row → False := by
    intro hrow
    rw [hnone] at hrow
    cases hrow
  cases h with
  | @create task id _ hmem _ hcreate =>
      obtain ⟨hT, rfl⟩ := inserted hcreate hrow
      obtain rfl : id = T := hT
      exact .inl ⟨task, rfl, hmem, rfl⟩
  | @work h hd _ _ _ hh hstep =>
      cases hstep with
      | @retry task job id _ hpc _ hcreate =>
          obtain ⟨hT, rfl⟩ := inserted hcreate hrow
          obtain rfl : id = T := hT
          exact .inr ⟨h, hd, task, job, rfl, hh, hpc, rfl⟩
      | claim _ hclaim =>
          obtain ⟨_, hold, _, _, hget⟩ := Store.claim_task_spec hclaim
          exact (updated hold hget hrow).elim
      | heartbeat _ hbeat =>
          obtain ⟨_, hold, _, _, hget⟩ := Store.heartbeat_spec hbeat
          exact (updated hold hget hrow).elim
      | finish _ hflush | not_found _ hflush =>
          obtain ⟨_, hold, _, hget⟩ := Store.flush_spec hflush
          exact (updated hold hget hrow).elim
      | _ => exact (same hrow).elim
  | recover hstep =>
      generalize s.passes _ = r at hstep
      cases hstep with
      | mark hflush =>
          obtain ⟨_, hold, _, hget⟩ := Store.flush_spec hflush
          exact (updated hold hget hrow).elim
      | _ => exact (same hrow).elim
  | chain _ _ hflush =>
      obtain ⟨_, hold, _, hget⟩ := Store.flush_spec hflush
      exact (updated hold hget hrow).elim
  | _ => exact (same hrow).elim

/-- The operation that created the task has not sent its message yet. -/
def Sys.InProgress (s : Sys) (T : TaskId) : Prop :=
  (∃ queue, (T, queue) ∈ s.outbox) ∨
  ∃ h hd task, s.handlers h = some hd ∧ hd.pc = .resending task T

/-- How the status of a task moves in a step: the edges of the state diagram, with what
the code asks before it takes them.  A result and a reset ask nothing of the row. -/
inductive Sys.Moves (s s' : Sys) (T : TaskId) : Sys.Label → Prop
  | stays {l} : s'.store.status T = s.store.status T → s.Moves s' T l
  | created {l} : s.store.status T = none → s'.store.status T = some .pending →
      s'.InProgress T → s.Moves s' T l
  | claimed {h hd} : s.handlers h = some hd → hd.task_id = T →
      s.store.status T = some .pending → s'.store.status T = some .running →
      s.Moves s' T (.work h .claim)
  | result {h hd a task x y} : s.handlers h = some hd →
      (∃ job, hd.pc = .executing task job) ∨ hd.pc = .unfound task → task.id = T →
      s.store.status T = some x → s'.store.status T = some y → y.terminal = true →
      s.Moves s' T (.work h a)
  | reset {p task rest seen x} : s.passes p = some (.marking (task :: rest) seen) →
      task.id = T → s.store.status T = some x → s'.store.status T = some .pending →
      s.Moves s' T (.recover p .mark)

/-- A write to another task, or one that leaves the status as it is. -/
theorem Store.Wrote.stays {s s' : Sys} {l : Sys.Label} {id T : TaskId} {what : What}
    {x : TaskStatus} (hw : s.store.Wrote s'.store id what x)
    (h : id = T → s.store.status T = some x) : s.Moves s' T l := by
  refine .stays ?_
  by_cases hT : id = T
  · rw [h hT, ← hT, hw.self]
  · exact hw.other hT

/-- A flush that sends the status takes the row to the assigned one. -/
theorem Store.flush_status {st st' : Store} {what : What} {loaded assigned : Task}
    (h : st.flush what loaded assigned = some st') :
    ∃ x, st.status loaded.id = some x ∧
      (st.Wrote st' loaded.id what x ∨ st.Wrote st' loaded.id what assigned.status) := by
  obtain ⟨x, hx, hw⟩ := Store.wrote_flush h
  refine ⟨x, hx, ?_⟩
  unfold Orm.emit at hw
  split at hw
  · exact .inl hw
  · exact .inr hw

theorem Sys.Step.moves {env : Env} {s s' : Sys} {l : Sys.Label} (h : Sys.Step env s l s')
    (T : TaskId) : s.Moves s' T l := by
  have result : ∀ {h hd a task assigned st' hd'}, s.handlers h = some hd →
      (∃ job, hd.pc = .executing task job) ∨ hd.pc = .unfound task →
      assigned.status.terminal = true →
      s.store.flush (.finished h) task assigned = some st' →
      s.Moves { s with store := st', handlers := Function.update s.handlers h (some hd') } T
        (.work h a) := by
    intro h hd a task assigned st' hd' hh hpc hterm hflush
    obtain ⟨x, hx, hw | hw⟩ := Store.flush_status hflush
    · exact Store.Wrote.stays hw fun hT => hT ▸ hx
    · by_cases hT : task.id = T
      · exact .result hh hpc hT (hT ▸ hx) (hT ▸ hw.self) hterm
      · exact .stays (hw.other hT)
  cases h with
  | @create task id _ _ _ h =>
      obtain ⟨hnone, _, hw⟩ := Store.wrote_create h
      by_cases hT : id = T
      · subst hT
        exact .created hnone hw.self (.inl ⟨task.queue, List.mem_cons_self⟩)
      · exact .stays (hw.other hT)
  | @work h hd a st' hd' hh hstep =>
      cases hstep with
      | claim _ hclaim =>
          obtain ⟨hpending, hw⟩ := Store.wrote_claim hclaim
          by_cases hT : hd.task_id = T
          · exact .claimed hh hT (hT ▸ hpending) (hT ▸ hw.self)
          · exact .stays (hw.other hT)
      | heartbeat _ hbeat =>
          obtain ⟨x, hx, hw⟩ := Store.wrote_heartbeat hbeat
          exact Store.Wrote.stays hw fun hT => hT ▸ hx
      | finish hpc hflush => exact result hh (.inl ⟨_, hpc⟩) (recorded_terminal _ _ _ _) hflush
      | not_found hpc hflush => exact result hh (.inr hpc) rfl hflush
      | @retry task job id _ hpc _ hcreate =>
          obtain ⟨hnone, _, hw⟩ := Store.wrote_create hcreate
          by_cases hT : id = T
          · subst hT
            exact .created hnone hw.self
              (.inr ⟨h, _, task, Function.update_self _ _ _, rfl⟩)
          · exact .stays (hw.other hT)
      | _ => exact .stays rfl
  | @recover p _ _ _ hstep =>
      generalize hp : s.passes p = r at hstep
      cases hstep with
      | @mark task _ _ _ hflush =>
          obtain ⟨x, hx, hw | hw⟩ := Store.flush_status hflush
          · exact Store.Wrote.stays hw fun hT => hT ▸ hx
          · by_cases hT : task.id = T
            · exact .reset hp hT (hT ▸ hx) (hT ▸ hw.self)
            · exact .stays (hw.other hT)
      | _ => exact .stays rfl
  | chain _ _ hflush =>
      obtain ⟨x, hx, hw⟩ := Store.wrote_flush hflush
      rw [Task.mark_processed_for_chaining, Orm.emit_clean] at hw
      exact Store.Wrote.stays hw fun hT => hT ▸ hx
  | _ => exact .stays rfl

end Dass
