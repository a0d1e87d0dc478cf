/-
# `Dass.Polling` — the pages that watch tasks

`frontend/src/api/polling.ts`, with the queries of `use-task-detail-page.ts` and
`use-job-detail-page.ts`.  A page refetches every three seconds while what it shows can
still move, and then goes quiet, so what it shows last it shows for good:

    task page    quiet once its task is settled
    job page     quiet once every task it lists is settled

That is sound only if a settled task reads the same ever after.  Workers, recovery and the
dependency scheduler write rows by primary key, and the reads of a job page go to a replica,
so it takes the claims (`Dass.ClaimOwnership`) and the locks (`Dass.LockColumns`) to see that
nothing the API shows of a settled row is written again, and every version of the table to
see that a replica cannot show a settled task that moves later (`Store.Final`).  Jobs are not
deleted here: that would take their tasks with them.
-/
import Dass.LockColumns
import Dass.ClaimOwnership

namespace Dass

open Lts Orm

/-! ## What the pages show -/

/-- `TaskRead`: the columns of a task the API shows. -/
structure TaskRead where
  id : TaskId
  job_id : JobId
  status : TaskStatus
  trigger_type : TriggerType
  retry_count : Nat
  locked_by : Option WorkerId
  locked_until : Option Int
  started_at : Option Int
  finished_at : Option Int
  stdout : Option String
  stderr : Option String
  created_at : Int
deriving DecidableEq

/-- `TaskRead.model_validate(task, from_attributes=True)`. -/
def TaskRead.model_validate (task : Task) : TaskRead where
  id := task.id
  job_id := task.job_id
  status := task.status
  trigger_type := task.trigger_type
  retry_count := task.retry_count
  locked_by := task.locked_by
  locked_until := task.locked_until
  started_at := task.started_at
  finished_at := task.finished_at
  stdout := task.stdout
  stderr := task.stderr
  created_at := task.created_at

/-- `TaskRepository.list_by_job`. -/
def TaskRepository.list_by_job (tasks : Table Task) (job_id : JobId) : List Task :=
  (tasks.rows.filter fun task => task.job_id = job_id).insertionSort
    fun a b => b.created_at ≤ a.created_at

/-- The only statuses a task can still move out of. -/
def ACTIVE_STATUSES : List TaskStatus := [.pending, .running]

/-- `isTaskSettled`; `none` is `undefined`. -/
def isTaskSettled (task : Option TaskRead) : Bool :=
  match task with
  | none => false
  | some task => !ACTIVE_STATUSES.contains task.status

theorem isTaskSettled_read (row : Task) :
    isTaskSettled (some (.model_validate row)) = row.status.terminal := by
  unfold isTaskSettled TaskRead.model_validate ACTIVE_STATUSES
  cases row.status <;> rfl

section Step

variable {env : Env} {s s' : Sys} {l : Sys.Label} {T : TaskId} {row : Task}

/-- A reset of a fenced run lands on a running row, and so does every read-back. -/
theorem readsBack_of_step (hi : FenceInv s.store s.handlers) (h : Sys.Step env s l s') :
    s.ReadsBack l := by
  cases h with
  | @work i hd a _ _ hh hstep =>
      cases hstep with
      | load hpc hget =>
          intro hd' row hh' hrow
          rw [hh] at hh'
          cases hh'
          have hheld := hi.handler i hd hh
          unfold HandlerOk at hheld
          rw [hpc] at hheld
          have hstatus := hheld.1
          rw [Store.status_of_get hrow, Option.some.injEq] at hstatus
          exact hstatus
      | load_none _ hnone =>
          intro hd' row hh' hrow
          rw [hh] at hh'
          cases hh'
          rw [hnone] at hrow
          cases hrow
      | _ => trivial
  | _ => trivial

/-- **What is shown of a settled task stays.** -/
theorem settled_step (hi : FenceInv s.store s.handlers) (hlock : LockInv s) (hl : s.Fenced l)
    (h : Sys.Step env s l s') (hrow : s.store.tasks.get T = some row)
    (hterm : row.status.terminal = true) :
    ∃ row', s'.store.tasks.get T = some row' ∧
      TaskRead.model_validate row' = TaskRead.model_validate row := by
  have same : ∃ row', s.store.tasks.get T = some row' ∧
      TaskRead.model_validate row' = TaskRead.model_validate row := ⟨row, hrow, rfl⟩
  -- a write to another row
  have other : ∀ {st' : Store} {id : TaskId} {old new : Task},
      s.store.tasks.get id = some old →
      (∀ k, st'.tasks.get k = if id = k then some new else s.store.tasks.get k) →
      (id = T → old = row → TaskRead.model_validate new = TaskRead.model_validate row) →
      ∃ row', st'.tasks.get T = some row' ∧
        TaskRead.model_validate row' = TaskRead.model_validate row := by
    intro st' id old new hold hget hsame
    rw [hget]
    split
    · next heq =>
        rw [heq, hrow] at hold
        cases hold
        exact ⟨new, rfl, hsame heq rfl⟩
    · exact ⟨row, hrow, rfl⟩
  have inserted : ∀ {st' : Store} {task : Task} {retry_of : Option TaskId},
      s.store.create task retry_of = some st' → ∃ row', st'.tasks.get T = some row' ∧
        TaskRead.model_validate row' = TaskRead.model_validate row := by
    intro st' task retry_of hcreate
    obtain ⟨hnone, _, _, hget⟩ := Store.create_spec hcreate
    refine ⟨row, ?_, rfl⟩
    rw [hget, if_neg, hrow]
    rintro rfl
    rw [hnone] at hrow
    cases hrow
  have live : ∀ {x : TaskStatus}, row.status = x → x.terminal = false → False := by
    intro x hx hlive
    rw [hx, hlive] at hterm
    cases hterm
  -- a result is recorded by a handler that holds its task
  have result : ∀ {i : HandlerId} {hd : Handler} {task assigned : Task} {st' : Store},
      s.handlers i = some hd → hd.pc.row = some task →
      s.store.flush (.finished i) task assigned = some st' →
      ∃ row', st'.tasks.get T = some row' ∧
        TaskRead.model_validate row' = TaskRead.model_validate row := by
    intro i hd task assigned st' hh hpc hflush
    obtain ⟨old, hold, _, hget⟩ := Store.flush_spec hflush
    refine other hold hget fun hT heq => ?_
    have hok := hi.handler i hd hh
    unfold HandlerOk at hok
    have hheld : s.store.Held i hd.task_id ∧ task.id = hd.task_id := by
      cases hp : hd.pc with
      | loaded | unfound | executing =>
          rw [hp] at hok hpc
          cases hpc
          exact ⟨hok.1, hok.2.1⟩
      | _ => rw [hp] at hpc; cases hpc
    have hstatus := hheld.1.1
    rw [← hheld.2, hT, Store.status_of_get hrow, Option.some.injEq] at hstatus
    exact (live hstatus rfl).elim
  cases h with
  | create _ _ hcreate => exact inserted hcreate
  | @work i hd _ _ _ hh hstep =>
      cases hstep with
      | claim _ hclaim =>
          obtain ⟨old, hold, hpending, _, hget⟩ := Store.claim_task_spec hclaim
          exact other hold hget fun _ heq => (live (heq ▸ hpending) rfl).elim
      | heartbeat _ hbeat =>
          obtain ⟨old, hold, howner, _, hget⟩ := Store.heartbeat_spec hbeat
          refine other hold hget fun _ heq => ?_
          have howned : row.locked_by ≠ none := by
            rw [← heq, howner]
            exact Option.some_ne_none _
          have hrunning : row.status = .running := (hlock.store.rows T row hrow).owner.mpr howned
          exact (live hrunning rfl).elim
      | finish hpc hflush | not_found hpc hflush => exact result hh (by rw [hpc]; rfl) hflush
      | retry _ _ hcreate => exact inserted hcreate
      | _ => exact same
  | @recover p _ _ _ hstep =>
      generalize hp : s.passes p = r at hstep
      cases hstep with
      | mark hflush =>
          obtain ⟨old, hold, _, hget⟩ := Store.flush_spec hflush
          refine other hold hget fun _ heq => ?_
          obtain ⟨expired, hexpired, hexp⟩ := hl.1 _ _ _ hp
          rw [hold] at hexpired
          cases hexpired
          exact (live (heq ▸ (expired_iff.mp hexp).1) rfl).elim
      | _ => exact same
  | chain _ _ hflush =>
      obtain ⟨old, hold, _, hget⟩ := Store.flush_spec hflush
      refine other hold hget fun _ heq => ?_
      subst heq
      simp only [TaskRead.model_validate, Task.flush, Task.mark_processed_for_chaining,
        emit_clean]
  | _ => exact same

/-- A commit keeps the table it was applied to. -/
theorem Store.Next.before {st st' : Store} (h : st.Next st') :
    st' = st ∨ ∃ c, st'.log = c :: st.log ∧ c.before = st.tasks := by
  cases h with
  | same => exact .inl rfl
  | create h =>
      obtain ⟨_, _, hlog, _⟩ := Store.create_spec h
      exact .inr ⟨_, hlog, rfl⟩
  | claim h =>
      obtain ⟨_, _, _, hlog, _⟩ := Store.claim_task_spec h
      exact .inr ⟨_, hlog, rfl⟩
  | heartbeat h =>
      obtain ⟨_, _, _, hlog, _⟩ := Store.heartbeat_spec h
      exact .inr ⟨_, hlog, rfl⟩
  | flush h =>
      obtain ⟨_, _, hlog, _⟩ := Store.flush_spec h
      exact .inr ⟨_, hlog, rfl⟩

/-- A settled row of any version of the table reads the same in the table. -/
structure Store.Final (st : Store) : Prop where
  versions : ∀ c ∈ st.log, ∀ T row, c.before.get T = some row → row.status.terminal = true →
    ∃ row', st.tasks.get T = some row' ∧
      TaskRead.model_validate row' = TaskRead.model_validate row

/-- A replica shows the table, or a version of it. -/
theorem Store.table_at_mem (st : Store) (n : Nat) :
    st.table_at n = st.tasks ∨ ∃ c ∈ st.log, st.table_at n = c.before := by
  have key : ∀ (log : List Commit) (tasks : Table Task),
      Store.table_at.at_ tasks log n = tasks ∨
        ∃ c ∈ log, Store.table_at.at_ tasks log n = c.before := by
    intro log
    induction log with
    | nil => exact fun tasks => .inl rfl
    | cons c cs ih =>
        intro tasks
        rw [Store.table_at.at_]
        split
        · exact .inl rfl
        · rcases ih c.before with heq | ⟨c', hc', heq⟩
          · exact .inr ⟨c, List.mem_cons_self, heq⟩
          · exact .inr ⟨c', List.mem_cons_of_mem _ hc', heq⟩
  exact key st.log st.tasks

theorem Store.Final.table_at {st : Store} (h : st.Final) (n : Nat)
    (hrow : (st.table_at n).get T = some row) (hterm : row.status.terminal = true) :
    ∃ row', st.tasks.get T = some row' ∧
      TaskRead.model_validate row' = TaskRead.model_validate row := by
  rcases st.table_at_mem n with heq | ⟨c, hc, heq⟩
  · rw [heq] at hrow
    exact ⟨row, hrow, rfl⟩
  · rw [heq] at hrow
    exact h.versions c hc T row hrow hterm

/-- Two rows that are shown alike have one status. -/
theorem terminal_of_read {row row' : Task}
    (h : TaskRead.model_validate row' = TaskRead.model_validate row) :
    row'.status.terminal = row.status.terminal :=
  congrArg (fun read : TaskRead => read.status.terminal) h

theorem final_step (hi : FenceInv s.store s.handlers) (hlock : LockInv s) (hl : s.Fenced l)
    (hf : s.store.Final) (h : Sys.Step env s l s') : s'.store.Final := by
  refine ⟨fun c hc T row hrow hterm => ?_⟩
  have later : ∀ row', s.store.tasks.get T = some row' →
      TaskRead.model_validate row' = TaskRead.model_validate row →
      ∃ row'', s'.store.tasks.get T = some row'' ∧
        TaskRead.model_validate row'' = TaskRead.model_validate row := by
    intro row' hrow' hread
    obtain ⟨row'', hrow'', hread'⟩ :=
      settled_step hi hlock hl h hrow' ((terminal_of_read hread).trans hterm)
    exact ⟨row'', hrow'', hread'.trans hread⟩
  have old : c ∈ s.store.log → ∃ row', s'.store.tasks.get T = some row' ∧
      TaskRead.model_validate row' = TaskRead.model_validate row := by
    intro hc
    obtain ⟨row', hrow', hread⟩ := hf.versions c hc T row hrow hterm
    exact later row' hrow' hread
  rcases h.store.before with heq | ⟨c', hlog, hbefore⟩
  · exact old (heq ▸ hc)
  · rw [hlog] at hc
    rcases List.mem_cons.mp hc with rfl | hc
    · rw [hbefore] at hrow
      exact later row hrow rfl
    · exact old hc

end Step

/-! ## The pages -/

/-- The system, with a task page and a job page open: what their queries hold. -/
structure View where
  sys : Sys
  task : Option TaskRead
  tasks : Option (List TaskRead)

namespace View

inductive Label where
  | sys (l : Sys.Label)
  /-- the table was read when `seen` commits had been made -/
  | getTask (seen : Nat)
  | listJobTasks (seen : Nat)

/-- A step of the system, or the answer to a fetch arrives. -/
inductive Step (env : Env) (T : TaskId) (j : JobId) : View → Label → View → Prop
  | sys {v l s'} : Sys.Step env v.sys l s' → Step env T j v (.sys l) { v with sys := s' }
  | getTask {v seen row} : (v.sys.store.table_at seen).get T = some row →
      Step env T j v (.getTask seen) { v with task := some (.model_validate row) }
  | listJobTasks {v seen} : Step env T j v (.listJobTasks seen) { v with
      tasks := some ((TaskRepository.list_by_job (v.sys.store.table_at seen) j).map
        TaskRead.model_validate) }

def start (jobs : Table Job) (now : Int) : View := ⟨.start jobs now, none, none⟩

/-- Resets are fenced. -/
def Fenced (v : View) : Label → Prop
  | .sys l => v.sys.Fenced l
  | _ => True

/-- What is shown of a task, if it is settled, is what its row reads. -/
def Shown (s : Sys) (task : TaskRead) : Prop :=
  isTaskSettled (some task) = true →
    ∃ row, s.store.tasks.get task.id = some row ∧ TaskRead.model_validate row = task

structure Inv (T : TaskId) (v : View) : Prop where
  fence : FenceInv v.sys.store v.sys.handlers
  lock : LockInv v.sys
  final : v.sys.store.Final
  task : ∀ task, v.task = some task → task.id = T ∧ Shown v.sys task
  tasks : ∀ tasks, v.tasks = some tasks → ∀ task ∈ tasks, Shown v.sys task

section Run

variable {env : Env} {T : TaskId} {j : JobId} {v v' : View} {l : Label}

/-- What was read of any version is shown, and stays shown. -/
theorem shown_read {s : Sys} (hf : s.store.Final) {seen : Nat} {id : TaskId} {row : Task}
    (hrow : (s.store.table_at seen).get id = some row) :
    Shown s (.model_validate row) := by
  intro hsettled
  rw [isTaskSettled_read] at hsettled
  obtain ⟨row', hrow', hread⟩ := hf.table_at seen hrow hsettled
  refine ⟨row', ?_, hread⟩
  rw [← Table.key_of_get hrow] at hrow'
  exact hrow'

theorem shown_step {s s' : Sys} {l : Sys.Label} (hi : FenceInv s.store s.handlers)
    (hlock : LockInv s) (hl : s.Fenced l) (h : Sys.Step env s l s') {task : TaskRead}
    (hshown : Shown s task) : Shown s' task := by
  intro hsettled
  obtain ⟨row, hrow, rfl⟩ := hshown hsettled
  rw [isTaskSettled_read] at hsettled
  exact settled_step hi hlock hl h hrow hsettled

theorem inv_step (hi : Inv T v) (hl : v.Fenced l) (h : Step env T j v l v') : Inv T v' := by
  cases h with
  | sys h =>
      refine ⟨fenceInv_step hi.fence hl h, lockInv_step hi.lock (readsBack_of_step hi.fence h) h,
        final_step hi.fence hi.lock hl hi.final h, fun task htask => ?_,
        fun tasks htasks task hmem => ?_⟩
      · obtain ⟨hid, hshown⟩ := hi.task task htask
        exact ⟨hid, shown_step hi.fence hi.lock hl h hshown⟩
      · exact shown_step hi.fence hi.lock hl h (hi.tasks tasks htasks task hmem)
  | @getTask seen row hrow =>
      refine ⟨hi.fence, hi.lock, hi.final, fun task htask => ?_, hi.tasks⟩
      cases htask
      exact ⟨Table.key_of_get hrow, shown_read hi.final hrow⟩
  | @listJobTasks seen =>
      refine ⟨hi.fence, hi.lock, hi.final, hi.task, fun tasks htasks task hmem => ?_⟩
      cases htasks
      obtain ⟨row, hrow, rfl⟩ := List.mem_map.mp hmem
      unfold TaskRepository.list_by_job at hrow
      rw [List.mem_insertionSort, List.mem_filter] at hrow
      exact shown_read hi.final (Table.get_of_mem hrow.1)

theorem inv_start (jobs : Table Job) (now : Int) : Inv T (start jobs now) where
  fence := fenceInv_start jobs now
  lock := lockInv_start jobs now
  final := ⟨fun c hc => absurd hc List.not_mem_nil⟩
  task := by intro _ h; cases h
  tasks := by intro _ h; cases h

end Run

/-! ## The main result -/

end View

end Dass
