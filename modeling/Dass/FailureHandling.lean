/-
# `Dass.FailureHandling` — a failed attempt and its retry

`_handle_failure` does three things one after the other: it commits `failed`, it
inserts the retry task, it sends the retry task's message; the failed task's own
message is deleted after that.  A redelivery goes by the status alone, and of a
task that is `failed` there is nothing left to do, so it deletes the message.  An
attempt that ends before the third thing has therefore lost its retry for good
(`failure_has_retry`): everywhere else a stop or an exception does no harm.
-/
import Dass.ClaimOwnership
import Dass.Routing

namespace Dass

open Lts

/-- The handler has recorded `failed` for the task; the retry task is still to be made or
sent. -/
def HandlerPc.Retrying (T : TaskId) : HandlerPc → Prop
  | .failed task _ | .resending task _ => task.id = T
  | _ => False

/-- Some handler is at the retry of the task. -/
def Sys.Retrying (s : Sys) (T : TaskId) : Prop :=
  ∃ h hd, s.handlers h = some hd ∧ hd.pc.Retrying T

/-- One retry task was made for the task: its next attempt. -/
def Store.Made (st : Store) (T id : TaskId) : Prop :=
  (∃ c, retries T st.log = [c] ∧ c.task = id) ∧
  ∃ row retry, st.tasks.get T = some row ∧ st.tasks.get id = some retry ∧
    retry.job_id = row.job_id ∧ retry.trigger_type = row.trigger_type ∧
    retry.retry_count = row.retry_count + 1

/-- The task's message was sent to the retry queue. -/
def Sys.Sent (s : Sys) (id : TaskId) : Prop :=
  ∃ m message, s.messages m = some message ∧ message.queue = .retry ∧ message.task_id = id

/-- The task has its retry: exactly one, and it was sent. -/
def Sys.Retried (s : Sys) (T : TaskId) : Prop := ∃ id, s.store.Made T id ∧ s.Sent id

/-- Nothing stops a handler, and nothing raises in it, between the commit of `failed` and
the return of the send. -/
def Sys.Unbroken (s : Sys) : Sys.Label → Prop
  | .work h .fail => ∀ hd, s.handlers h = some hd → ∀ T, ¬ hd.pc.Retrying T
  | _ => True

/-- The retries are made, and no reset takes a task from the handler that works on it. -/
def Sys.Handles (s : Sys) (l : Sys.Label) : Prop := s.Fenced l ∧ s.Unbroken l

/-- The job, as it was at some moment since `s₀`. -/
def Sys.Read (s : Sys) (env : Env) (s₀ : Sys) (job : Job) : Prop :=
  ∃ mid, Run (Sys.Step env) Any s₀ mid ∧ Run (Sys.Step env) Any mid s ∧
    mid.jobs.get job.id = some job

/-! ## The invariant -/

/-- The row the object was loaded from is there, as the same run. -/
def Store.HasRun (st : Store) (task : Task) : Prop :=
  ∃ row, st.tasks.get task.id = some row ∧ row.SameRun task

/-- The handler has recorded `failed` for the task. -/
def Store.FailedBy (st : Store) (h : HandlerId) (T : TaskId) : Prop :=
  st.status T = some .failed ∧ ∃ c ∈ results T st.log, c.what = .finished h

/-- What a handler goes by at each point. -/
def Sys.Meets (s : Sys) (env : Env) (s₀ : Sys) (h : HandlerId) (hd : Handler) : Prop :=
  match hd.pc with
  | .loaded task => s.store.HasRun task
  | .unfound _ => False
  | .executing task job => s.store.HasRun task ∧ s.Read env s₀ job ∧ job.id = task.job_id
  | .failed task job => task.id = hd.task_id ∧ s.store.HasRun task ∧ job.id = task.job_id ∧
      s.store.FailedBy h task.id
  | .resending task id => task.id = hd.task_id ∧ s.store.FailedBy h task.id ∧
      s.store.Made task.id id
  | .done => s.store.Over hd.task_id
  | _ => True

structure FailureInv (env : Env) (s₀ s : Sys) : Prop where
  run : Run (Sys.Step env) Any s₀ s
  traffic : ∃ t : Traffic, t.sys = s ∧ TrafficInv t
  fence : FenceInv s.store s.handlers
  job : ∀ T row, s.store.tasks.get T = some row → s.jobs.get row.job_id ≠ none
  there : ∀ h hd, s.handlers h = some hd → s.store.status hd.task_id ≠ none
  handler : ∀ h hd, s.handlers h = some hd → s.Meets env s₀ h hd
  gave_up : ∀ T row, s.store.tasks.get T = some row → row.status = .final_failed →
    ∃ job, s.Read env s₀ job ∧ job.id = row.job_id ∧ job.max_retries ≤ row.retry_count

theorem failureInv_start (env : Env) (jobs : Table Job) (now : Int) :
    FailureInv env (.start jobs now) (.start jobs now) where
  run := .refl
  traffic := ⟨.start jobs now, rfl, trafficInv_start jobs now⟩
  fence := fenceInv_start jobs now
  job := by intro _ _ h; cases h
  there := by intro _ _ h; cases h
  handler := by intro _ _ h; cases h
  gave_up := by intro _ _ h; cases h

/-! ## What a step keeps -/

section Kept

variable {env : Env} {s₀ s s' : Sys} {l : Sys.Label} {T : TaskId}

theorem Sys.Read.step {job : Job} (h : s.Read env s₀ job) (hst : Sys.Step env s l s') :
    s'.Read env s₀ job := by
  obtain ⟨mid, h₁, h₂, hjob⟩ := h
  exact ⟨mid, h₁, h₂.snoc trivial hst, hjob⟩

theorem Store.HasRun.next {st st' : Store} {task : Task} (hst : st.Next st')
    (h : st.HasRun task) : st'.HasRun task := by
  obtain ⟨row, hrow, hsame⟩ := h
  obtain ⟨row', hrow', hsame'⟩ := hst.same_run hrow
  exact ⟨row', hrow', hsame.job_id.trans hsame'.job_id.symm,
    hsame.trigger_type.trans hsame'.trigger_type.symm,
    hsame.retry_count.trans hsame'.retry_count.symm⟩

theorem result_kept {st st' : Store} (h : st.Next st') {c : Commit}
    (hc : c ∈ results T st.log) : c ∈ results T st'.log := by
  rcases h.log with hlog | ⟨c', hlog⟩
  · rw [hlog]
    exact hc
  · rw [hlog, results_cons]
    split
    · exact List.mem_cons_of_mem _ hc
    · exact hc

/-- Where resets land on running rows alone, a task that has ended keeps its status. -/
theorem ended_kept (hi : FenceInv s.store s.handlers) (hl : s.Fenced l)
    (h : Sys.Step env s l s') {x : TaskStatus} (hx : s.store.status T = some x)
    (hterm : x.terminal = true) : s'.store.status T = some x := by
  have hmoves := h.moves T
  cases hmoves with
  | stays heq => exact heq.trans hx
  | created hnone =>
      rw [hx] at hnone
      cases hnone
  | claimed _ _ hpending =>
      rw [hx, Option.some.injEq] at hpending
      rw [hpending] at hterm
      cases hterm
  | result => exact terminal_kept hi h hx hterm
  | reset hp hid =>
      obtain ⟨row, hrow, hexp⟩ := hl.1 _ _ _ hp
      have hstatus := Store.status_of_get hrow
      rw [hid, hx, Option.some.injEq] at hstatus
      rw [hstatus, (expired_iff.mp hexp).1] at hterm
      cases hterm

theorem over_stays (hi : FenceInv s.store s.handlers) (hl : s.Fenced l)
    (h : Sys.Step env s l s') (hT : s.store.Over T) : s'.store.Over T := by
  obtain ⟨x, hx, hterm⟩ := hT
  exact ⟨x, ended_kept hi hl h hx hterm, hterm⟩

theorem Store.FailedBy.step {i : HandlerId} (hi : FenceInv s.store s.handlers)
    (hl : s.Fenced l) (h : Sys.Step env s l s') (hT : s.store.FailedBy i T) :
    s'.store.FailedBy i T := by
  obtain ⟨hx, c, hc, hby⟩ := hT
  exact ⟨ended_kept hi hl h hx rfl, c, result_kept h.store hc, hby⟩

/-- A task fails once, so by one handler. -/
theorem Store.FailedBy.unique {st : Store} {i j : HandlerId} (ho : Once st T)
    (hi : st.FailedBy i T) (hj : st.FailedBy j T) : i = j := by
  obtain ⟨_, c, hc, hby⟩ := hi
  obtain ⟨_, c', hc', hby'⟩ := hj
  rw [ho.result_unique hc hc', hby'] at hby
  cases hby
  rfl

theorem Store.Wrote.retries {st st' : Store} {id : TaskId} {what : What} {x : TaskStatus}
    (hw : st.Wrote st' id what x) (h : what ≠ .created (some T)) :
    Dass.retries T st'.log = Dass.retries T st.log := by
  obtain ⟨c, hlog, _, hwhat⟩ := hw.log
  rw [hlog, retries_cons, if_neg]
  simpa [Commit.isRetry, hwhat] using h

/-- Only a handler that has recorded `failed` makes a retry task. -/
theorem retries_step (h : Sys.Step env s l s') (T : TaskId) :
    retries T s'.store.log = retries T s.store.log ∨ ∃ i hd task job id,
      l = .work i (.retry id) ∧ s.handlers i = some hd ∧ hd.pc = .failed task job ∧
        task.id = T := by
  cases h with
  | create _ _ hcreate => exact .inl ((Store.wrote_create hcreate).2.2.retries nofun)
  | @work i hd _ _ _ hh hstep =>
      cases hstep with
      | claim _ hclaim => exact .inl ((Store.wrote_claim hclaim).2.retries nofun)
      | heartbeat _ hbeat =>
          obtain ⟨_, _, hw⟩ := Store.wrote_heartbeat hbeat
          exact .inl (hw.retries nofun)
      | finish _ hflush | not_found _ hflush =>
          obtain ⟨_, _, hw⟩ := Store.wrote_flush hflush
          exact .inl (hw.retries nofun)
      | @retry task job id _ hpc _ hcreate =>
          by_cases hT : task.id = T
          · exact .inr ⟨i, hd, task, job, id, rfl, hh, hpc, hT⟩
          · refine .inl ((Store.wrote_create hcreate).2.2.retries ?_)
            simpa using hT
      | _ => exact .inl rfl
  | recover hstep =>
      generalize s.passes _ = r at hstep
      cases hstep with
      | mark hflush =>
          obtain ⟨_, _, hw⟩ := Store.wrote_flush hflush
          exact .inl (hw.retries nofun)
      | _ => exact .inl rfl
  | chain _ _ hflush =>
      obtain ⟨_, _, hw⟩ := Store.wrote_flush hflush
      exact .inl (hw.retries nofun)
  | _ => exact .inl rfl

theorem Store.Made.next {st st' : Store} {id : TaskId} (hst : st.Next st')
    (hret : retries T st'.log = retries T st.log) (h : st.Made T id) : st'.Made T id := by
  obtain ⟨⟨c, hone, hc⟩, row, retry, hrow, hretry, hjob, htrigger, hcount⟩ := h
  obtain ⟨row', hrow', hsame⟩ := hst.same_run hrow
  obtain ⟨retry', hretry', hsame'⟩ := hst.same_run hretry
  refine ⟨⟨c, hret.trans hone, hc⟩, row', retry', hrow', hretry', ?_, ?_, ?_⟩
  · rw [hsame.job_id, hsame'.job_id, hjob]
  · rw [hsame.trigger_type, hsame'.trigger_type, htrigger]
  · rw [hsame.retry_count, hsame'.retry_count, hcount]

/-- What a handler goes by stays true while it does not move. -/
theorem meets_kept (hi : FailureInv env s₀ s) (hl : s.Fenced l) (h : Sys.Step env s l s')
    {i : HandlerId} {hd : Handler} (hh : s.handlers i = some hd) : s'.Meets env s₀ i hd := by
  have hmeets := hi.handler i hd hh
  unfold Sys.Meets at hmeets ⊢
  split
  · next hpc =>
      rw [hpc] at hmeets
      exact hmeets.next h.store
  · next hpc =>
      rw [hpc] at hmeets
      exact hmeets
  · next hpc =>
      rw [hpc] at hmeets
      exact ⟨hmeets.1.next h.store, hmeets.2.1.step h, hmeets.2.2⟩
  · next hpc =>
      rw [hpc] at hmeets
      obtain ⟨hid, hrun, hjob, hfailed⟩ := hmeets
      exact ⟨hid, hrun.next h.store, hjob, hfailed.step hi.fence hl h⟩
  · next task id hpc =>
      rw [hpc] at hmeets
      obtain ⟨hid, hfailed, hmade⟩ := hmeets
      refine ⟨hid, hfailed.step hi.fence hl h, hmade.next h.store ?_⟩
      -- whoever makes another retry has recorded the result as well
      rcases retries_step h task.id with heq | ⟨j, hd', task', job, _, _, hh', hpc', hT⟩
      · exact heq
      · have hother := hi.handler j hd' hh'
        unfold Sys.Meets at hother
        rw [hpc'] at hother
        obtain rfl : i = j := hfailed.unique (hi.fence.task _) (hT ▸ hother.2.2.2)
        rw [hh] at hh'
        cases hh'
        rw [hpc] at hpc'
        cases hpc'
  · next hpc =>
      rw [hpc] at hmeets
      exact over_stays hi.fence hl h hmeets
  · trivial

end Kept

/-! ## The handler that moves -/

section Moved

variable {env : Env} {s₀ s : Sys} {h : HandlerId} {hd hd' : Handler} {a : WorkerAct}
  {st' : Store}

theorem WorkStep.task_id {now : Int} {jobs : Table Job} {st : Store}
    (hstep : WorkStep now jobs h st hd a st' hd') : hd'.task_id = hd.task_id := by
  cases hstep <;> rfl

/-- The retry task is made once. -/
theorem made_retry {task : Task} {job : Job} {id : TaskId} (hrun : s.store.HasRun task)
    (hjob : job.id = task.job_id) (hnone : retries task.id s.store.log = [])
    (hcreate : s.store.create (retry_task task job id s.now) (some task.id) = some st') :
    st'.Made task.id id := by
  obtain ⟨_, _, _, hget⟩ := Store.create_spec hcreate
  obtain ⟨c, hlog, hc, hwhat⟩ := (Store.wrote_create hcreate).2.2.log
  obtain ⟨row, hrow, hsame⟩ := hrun
  obtain ⟨row', hrow', hsame'⟩ := (Store.Next.create hcreate).same_run hrow
  refine ⟨⟨c, ?_, hc⟩, row', retry_task task job id s.now, hrow', ?_, ?_, ?_, ?_⟩
  · rw [hlog, retries_cons, if_pos (by simp [Commit.isRetry, hwhat]), hnone]
  · rw [hget]
    exact if_pos rfl
  · rw [hsame'.job_id, ← hsame.job_id]
    exact hjob
  · rw [hsame'.trigger_type, ← hsame.trigger_type]
    rfl
  · rw [hsame'.retry_count, ← hsame.retry_count]
    rfl

/-- The status of a task that was loaded running is among the columns sent. -/
theorem recorded_status {task assigned : Task} (hloaded : task.status = .running)
    (hterm : assigned.status.terminal = true)
    (hflush : s.store.flush (.finished h) task assigned = some st') :
    st'.status task.id = some assigned.status := by
  obtain ⟨x, _, hw⟩ := Store.wrote_flush hflush
  rw [Orm.emit_dirty] at hw
  · exact hw.self
  · intro heq
    rw [heq, hloaded] at hterm
    cases hterm

theorem recorded_failed {task : Task} {job : Job} {result : ExecutionResult} {now : Int} :
    (recorded task job result now).status = .failed ↔
      (!result.success && retries_left task job) = true := by
  unfold recorded Task.mark_success Task.mark_failed Task._finish
  cases result.success with
  | true => exact ⟨nofun, nofun⟩
  | false =>
      cases retries_left task job with
      | true => exact ⟨fun _ => rfl, fun _ => rfl⟩
      | false => exact ⟨nofun, nofun⟩

/-- A task is given up when its retries are used up. -/
theorem no_retries_left {task : Task} {job : Job} {result : ExecutionResult} {now : Int}
    (h : (recorded task job result now).status = .final_failed) :
    job.max_retries ≤ task.retry_count := by
  unfold recorded at h
  split at h
  · cases h
  · cases hleft : retries_left task job with
    | true =>
        rw [hleft] at h
        cases h
    | false => exact Nat.not_lt.mp (of_decide_eq_false hleft)

theorem meets_work (hi : FailureInv env s₀ s) (hl : s.Fenced (.work h a))
    (hh : s.handlers h = some hd) (hstep : WorkStep s.now s.jobs h s.store hd a st' hd')
    (hst : Sys.Step env s (.work h a) { s with
      store := st', handlers := Function.update s.handlers h (some hd') }) :
    Sys.Meets { s with store := st', handlers := Function.update s.handlers h (some hd') }
      env s₀ h hd' := by
  have hmeets := hi.handler h hd hh
  have hkept := meets_kept hi hl hst hh
  have hok := hi.fence.handler h hd hh
  unfold Sys.Meets at hmeets
  unfold HandlerOk at hok
  cases hstep with
  | load hpc hget => exact ⟨_, (Table.key_of_get hget).symm ▸ hget, rfl, rfl, rfl⟩
  | @check n =>
      unfold Sys.Meets
      rcases after_check_cases (s.store.tasks.get hd.task_id) n with ⟨_, hnext⟩ | hnext
      · rw [hnext]
        trivial
      · rw [hnext]
        trivial
  | recheck =>
      unfold Sys.Meets
      cases hdel : deletable (s.store.tasks.get hd.task_id) with
      | true =>
          cases hget : s.store.tasks.get hd.task_id with
          | none => exact absurd (by rw [Store.status, hget]; rfl) (hi.there h hd hh)
          | some row =>
              rw [hget] at hdel
              exact ⟨_, Store.status_of_get hget, hdel⟩
      | false => trivial
  | @lookup task job hpc hjob =>
      rw [hpc] at hmeets
      have hid : job.id = task.job_id := Table.key_of_get hjob
      exact ⟨hmeets, ⟨s, hi.run, .single trivial hst, hid ▸ hjob⟩, hid⟩
  | lookup_none hpc hnone =>
      rw [hpc] at hmeets
      obtain ⟨row, hrow, hsame⟩ := hmeets
      exact hi.job _ row hrow (hsame.job_id ▸ hnone)
  | heartbeat => exact hkept
  | @finish task job result _ hpc hflush =>
      rw [hpc] at hmeets hok
      obtain ⟨_, hid, hloaded⟩ := hok
      have hnow := recorded_status hloaded (recorded_terminal _ _ _ _) hflush
      unfold Sys.Meets
      cases hleft : (!result.success && retries_left task job) with
      | true =>
          rw [recorded_failed.mpr hleft] at hnow
          obtain ⟨c, hlog, hc, hwhat⟩ := (Store.wrote_flush hflush).choose_spec.2.log
          refine ⟨hid, hmeets.1.next hst.store, hmeets.2.2, hnow, c, ?_, hwhat⟩
          rw [hlog, results_cons, if_pos (by simp [Commit.isResult, hwhat, hc])]
          exact List.mem_cons_self
      | false => exact ⟨_, hid ▸ hnow, recorded_terminal _ _ _ _⟩
  | not_found hpc =>
      rw [hpc] at hmeets
      exact hmeets.elim
  | @retry task job id _ hpc _ hcreate =>
      rw [hpc] at hmeets hok
      obtain ⟨hid, hrun, hjob, hfailed⟩ := hmeets
      exact ⟨hid, hfailed.step hi.fence hl hst, made_retry hrun hjob hok.1 hcreate⟩
  | _ => trivial

end Moved

/-! ## The step lemma -/

section Step

variable {env : Env} {s₀ s s' : Sys} {l : Sys.Label} {T : TaskId}

/-- No request but a delete, which is left out, takes a job away. -/
theorem jobs_kept (h : Sys.Step env s l s') {id : JobId} (hjob : s.jobs.get id ≠ none) :
    s'.jobs.get id ≠ none := by
  cases h with
  | @request op _ hdelete hcommit => exact op.commit_keeps hdelete hcommit hjob
  | _ => exact hjob

/-- The job of a row that is inserted is there. -/
theorem job_of_new_row (h : Sys.Step env s l s') {row : Task}
    (hrow : s'.store.tasks.get T = some row) (hnone : s.store.tasks.get T = none) :
    s'.jobs.get row.job_id ≠ none := by
  rcases h.new_row hrow hnone with ⟨task, rfl, _, rfl⟩ | ⟨i, hd, task, job, rfl, hh, hpc, rfl⟩
  · cases h with
    | create _ hjob => exact hjob
  · cases h with
    | work hh' hstep =>
        rw [hh] at hh'
        cases hh'
        cases hstep with
        | retry hpc' hjob =>
            rw [hpc] at hpc'
            cases hpc'
            exact hjob

/-- A task that has ended had the status before, or a handler has just recorded it. -/
theorem ended_by (hi : FailureInv env s₀ s) (h : Sys.Step env s l s') {y : TaskStatus}
    (hy : s'.store.status T = some y) (hterm : y.terminal = true) :
    s.store.status T = some y ∨ ∃ i hd task job result, s.handlers i = some hd ∧
      hd.pc = .executing task job ∧ task.id = T ∧ y = (recorded task job result s.now).status ∧
      s'.handlers i = some { hd with
        pc := if !result.success && retries_left task job then .failed task job else .done } := by
  have hmoves := h.moves T
  cases hmoves with
  | stays heq => exact .inl (heq ▸ hy)
  | created _ hnew | claimed _ _ _ hnew | reset _ _ _ hnew =>
      rw [hnew, Option.some.injEq] at hy
      rw [← hy] at hterm
      cases hterm
  | @result i hd a task _ _ hh hpc hid =>
      cases h with
      | work hh' hstep =>
          rw [hh] at hh'
          cases hh'
          have hok := hi.fence.handler i hd hh
          have hmeets := hi.handler i hd hh
          unfold HandlerOk at hok
          unfold Sys.Meets at hmeets
          rcases hpc with ⟨job, hpc⟩ | hpc
          · rw [hpc] at hok
            cases hstep with
            | heartbeat hpc' hbeat =>
                rw [hpc] at hpc'
                cases hpc'
                obtain ⟨x, hx, hw⟩ := Store.wrote_heartbeat hbeat
                by_cases hT : task.id = T
                · subst hT
                  exact .inl (hx.trans (hw.self.symm.trans hy))
                · exact .inl ((hw.other hT).symm.trans hy)
            | fail => exact .inl hy
            | finish hpc' hflush =>
                rw [hpc] at hpc'
                cases hpc'
                have hnow := recorded_status hok.2.2 (recorded_terminal _ _ _ _) hflush
                rw [hid, hy, Option.some.injEq] at hnow
                exact .inr ⟨i, hd, task, job, _, hh, hpc, hid, hnow, Function.update_self _ _ _⟩
            | claim hpc' | claim_lost hpc' | load hpc' | load_none hpc' | check hpc'
            | recheck hpc' | lookup hpc' | lookup_none hpc' | not_found hpc' | retry hpc' =>
                rw [hpc] at hpc'
                cases hpc'
          · rw [hpc] at hmeets
            exact hmeets.elim

/-- The row of a task that has ended: it had ended before, or a handler has just recorded it
by the job it had read. -/
theorem ended_row (hi : FailureInv env s₀ s) (h : Sys.Step env s l s') {row : Task}
    (hrow : s'.store.tasks.get T = some row) (hterm : row.status.terminal = true) :
    (∃ old, s.store.tasks.get T = some old ∧ old.status = row.status ∧ old.SameRun row) ∨
    ∃ i hd task job result, s.handlers i = some hd ∧ hd.pc = .executing task job ∧
      s.Read env s₀ job ∧ job.id = row.job_id ∧ task.retry_count = row.retry_count ∧
      row.status = (recorded task job result s.now).status := by
  rcases ended_by hi h (Store.status_of_get hrow) hterm with
    hold | ⟨i, hd, task, job, result, hh, hpc, rfl, hy, _⟩
  · obtain ⟨old, hold, hstatus⟩ := Option.map_eq_some_iff.mp hold
    obtain ⟨row', hrow', hsame⟩ := h.store.same_run hold
    rw [hrow, Option.some.injEq] at hrow'
    subst hrow'
    exact .inl ⟨old, hold, hstatus, hsame⟩
  · have hmeets := hi.handler i hd hh
    unfold Sys.Meets at hmeets
    rw [hpc] at hmeets
    obtain ⟨⟨old, hold, hloaded⟩, hread, hid⟩ := hmeets
    obtain ⟨row', hrow', hsame⟩ := h.store.same_run hold
    rw [hrow, Option.some.injEq] at hrow'
    subst hrow'
    refine .inr ⟨i, hd, task, job, result, hh, hpc, hread, ?_, ?_, hy⟩
    · rw [hid, hloaded.job_id, hsame.job_id]
    · rw [hsame.retry_count, hloaded.retry_count]

/-- A task that is given up has no retries left by the job its handler had read. -/
theorem gave_up_step (hi : FailureInv env s₀ s) (h : Sys.Step env s l s') {row : Task}
    (hrow : s'.store.tasks.get T = some row) (hfinal : row.status = .final_failed) :
    ∃ job, s'.Read env s₀ job ∧ job.id = row.job_id ∧ job.max_retries ≤ row.retry_count := by
  rcases ended_row hi h hrow (hfinal ▸ rfl) with
    ⟨old, hold, hstatus, hsame⟩ | ⟨_, _, task, job, result, _, _, hread, hid, hcount, hy⟩
  · obtain ⟨job, hread, hid, hle⟩ := hi.gave_up T old hold (hstatus.trans hfinal)
    exact ⟨job, hread.step h, by rw [hsame.job_id, hid], by rw [hsame.retry_count]; exact hle⟩
  · exact ⟨job, hread.step h, hid, hcount ▸ no_retries_left (hy.symm.trans hfinal)⟩

/-- A handler that reads a job goes by it. -/
theorem failureInv_step (hi : FailureInv env s₀ s) (hl : s.Fenced l) (h : Sys.Step env s l s') :
    FailureInv env s₀ s' where
  run := hi.run.snoc trivial h
  traffic := by
    obtain ⟨t, rfl, ht⟩ := hi.traffic
    exact ⟨_, rfl, trafficInv_step ht ⟨h⟩⟩
  fence := fenceInv_step hi.fence hl h
  job := by
    intro T row hrow
    cases hold : s.store.tasks.get T with
    | none => exact job_of_new_row h hrow hold
    | some old =>
        obtain ⟨row', hrow', hsame⟩ := h.store.same_run hold
        rw [hrow, Option.some.injEq] at hrow'
        subst hrow'
        rw [hsame.job_id]
        exact jobs_kept h (hi.job T old hold)
  there := by
    intro i hd hh
    have hold : ∀ {i hd}, s.handlers i = some hd → s'.store.status hd.task_id ≠ none :=
      fun hh => status_ne_none (h.moves _) (hi.there _ _ hh)
    cases h with
    | receive hm =>
        rcases entries_update hh with ⟨_, rfl⟩ | hh
        · obtain ⟨t, rfl, ht⟩ := hi.traffic
          obtain ⟨row, hrow, _⟩ := ht.right _ (.inl (ht.sent _ _ hm))
          exact Store.status_of_get hrow ▸ nofun
        · exact hold hh
    | work hh' hstep =>
        rcases entries_update hh with ⟨_, rfl⟩ | hh
        · exact hstep.task_id ▸ hold hh'
        · exact hold hh
    | @resend _ hd' _ _ _ hh' | @delete _ hd' _ hh' =>
        rcases entries_update hh with ⟨_, rfl⟩ | hh
        · exact @hold _ hd' hh'
        · exact hold hh
    | _ => exact hold hh
  handler := by
    intro i hd hh
    have hold : ∀ {i hd}, s.handlers i = some hd → s'.Meets env s₀ i hd :=
      fun hh => meets_kept hi hl h hh
    have hstep := h
    cases h with
    | receive =>
        rcases entries_update hh with ⟨_, rfl⟩ | hh
        · trivial
        · exact hold hh
    | work hh' hwork =>
        rcases entries_update hh with ⟨rfl, rfl⟩ | hh
        · exact meets_work hi hl hh' hwork hstep
        · exact hold hh
    | resend hh' hpc =>
        rcases entries_update hh with ⟨rfl, rfl⟩ | hh
        · have hmeets := hi.handler _ _ hh'
          unfold Sys.Meets at hmeets
          rw [hpc] at hmeets
          exact ⟨_, hmeets.1 ▸ hmeets.2.1.1, rfl⟩
        · exact hold hh
    | delete =>
        rcases entries_update hh with ⟨_, rfl⟩ | hh
        · trivial
        · exact hold hh
    | _ => exact hold hh
  gave_up := fun T row hrow hfinal => gave_up_step hi h hrow hfinal

/-- A handler at the retry of a task was there before, or has just recorded the result. -/
theorem retrying_before (hi : FailureInv env s₀ s) (h : Sys.Step env s l s')
    (hT : s'.Retrying T) : s.Retrying T ∨ s.store.status T = some .running := by
  obtain ⟨i, hd, hh, hpc⟩ := hT
  have hold : ∀ {i hd}, s.handlers i = some hd → hd.pc.Retrying T → s.Retrying T :=
    fun hh hpc => ⟨_, _, hh, hpc⟩
  cases h with
  | receive | resend | delete =>
      rcases entries_update hh with ⟨_, rfl⟩ | hh
      · exact hpc.elim
      · exact .inl (hold hh hpc)
  | @work j hd₀ _ _ _ hh' hstep =>
      rcases entries_update hh with ⟨_, rfl⟩ | hh
      · have hok := hi.fence.handler j hd₀ hh'
        unfold HandlerOk at hok
        cases hstep with
        | @check n =>
            have hnext : (after_check (s.store.tasks.get hd₀.task_id) n).Retrying T := hpc
            rcases after_check_cases (s.store.tasks.get hd₀.task_id) n with ⟨_, heq⟩ | heq <;>
              · rw [heq] at hnext
                exact hnext.elim
        | recheck =>
            dsimp only at hpc
            split at hpc <;> exact hpc.elim
        | heartbeat => exact .inl (hold hh' hpc)
        | @finish task job result _ hexec =>
            rw [hexec] at hok
            dsimp only at hpc
            split at hpc
            · have hid : task.id = T := hpc
              exact .inr (hid ▸ hok.2.1 ▸ hok.1.1)
            · exact hpc.elim
        | retry hfailed => exact .inl (hold hh' (hfailed ▸ hpc))
        | _ => exact hpc.elim
      · exact .inl (hold hh hpc)
  | _ => exact .inl (hold hh hpc)

/-- A handler at its retry goes on to it, unless it is stopped. -/
theorem retrying_after (h : Sys.Step env s l s') (hl : s.Unbroken l) {i : HandlerId}
    {hd : Handler} (hh : s.handlers i = some hd) (hpc : hd.pc.Retrying T) :
    s'.Retrying T ∨ ∃ task id, hd.pc = .resending task id ∧ s'.Sent id := by
  cases h with
  | @receive _ j _ _ _ _ hfree =>
      refine .inl ⟨i, hd, (Function.update_of_ne (fun hij => ?_) _ _).trans hh, hpc⟩
      rw [← hij, hh] at hfree
      cases hfree
  | @work j hd₀ _ _ _ hh' hstep =>
      by_cases hij : i = j
      · subst hij
        rw [hh] at hh'
        cases hh'
        cases hstep with
        | retry hfailed =>
            rw [hfailed] at hpc
            exact .inl ⟨i, _, Function.update_self _ _ _, hpc⟩
        | heartbeat => exact .inl ⟨i, hd, Function.update_self _ _ _, hpc⟩
        | fail => exact absurd hpc (hl hd hh T)
        | claim hpc' | claim_lost hpc' | load hpc' | load_none hpc' | check hpc'
        | recheck hpc' | lookup hpc' | lookup_none hpc' | finish hpc' | not_found hpc' =>
            rw [hpc'] at hpc
            exact hpc.elim
      · exact .inl ⟨i, hd, (Function.update_of_ne hij _ _).trans hh, hpc⟩
  | @resend j hd₀ task id m hh' hresend =>
      by_cases hij : i = j
      · subst hij
        rw [hh] at hh'
        cases hh'
        exact .inr ⟨task, id, hresend, m, _, Function.update_self _ _ _, rfl, rfl⟩
      · exact .inl ⟨i, hd, (Function.update_of_ne hij _ _).trans hh, hpc⟩
  | @delete j hd₀ _ hh' hdone =>
      by_cases hij : i = j
      · subst hij
        rw [hh] at hh'
        cases hh'
        rw [hdone] at hpc
        exact hpc.elim
      · exact .inl ⟨i, hd, (Function.update_of_ne hij _ _).trans hh, hpc⟩
  | _ => exact .inl ⟨i, hd, hh, hpc⟩

/-- A handler at the retry of a task is the one that recorded the result. -/
theorem failedBy_of_retrying (hi : FailureInv env s₀ s) {i : HandlerId} {hd : Handler}
    (hh : s.handlers i = some hd) (hpc : hd.pc.Retrying T) : s.store.FailedBy i T := by
  have hmeets := hi.handler i hd hh
  unfold Sys.Meets at hmeets
  unfold HandlerPc.Retrying at hpc
  split at hpc
  · next heq =>
      rw [heq] at hmeets
      exact hpc ▸ hmeets.2.2.2
  · next heq =>
      rw [heq] at hmeets
      exact hpc ▸ hmeets.2.1
  · exact hpc.elim

/-- No second retry is made. -/
theorem retries_kept (hi : FailureInv env s₀ s) (h : Sys.Step env s l s')
    (hT : ¬ s.Retrying T ∨ retries T s.store.log ≠ []) :
    retries T s'.store.log = retries T s.store.log := by
  rcases retries_step h T with heq | ⟨i, hd, task, job, _, _, hh, hpc, hid⟩
  · exact heq
  · rcases hT with hnot | hne
    · exact absurd ⟨i, hd, hh, by rw [hpc]; exact hid⟩ hnot
    · have hok := hi.fence.handler i hd hh
      unfold HandlerOk at hok
      rw [hpc] at hok
      exact absurd (hid ▸ hok.1) hne

/-- **The step lemma**: a failed task has its retry, or a handler is at it. -/
theorem retry_step (hi : FailureInv env s₀ s) (hl : s.Handles l) (h : Sys.Step env s l s')
    (hf : s.store.status T = some .failed → s.Retrying T ∨ s.Retried T)
    (hT : s'.store.status T = some .failed) : s'.Retrying T ∨ s'.Retried T := by
  rcases ended_by hi h hT rfl with hold | ⟨i, hd, task, job, result, _, _, hid, hy, hnow⟩
  · rcases hf hold with ⟨i, hd, hh, hpc⟩ | ⟨id, hmade, m, message, hm, hq, hid⟩
    · rcases retrying_after h hl.2 hh hpc with hat | ⟨task, id, hpc', hsent⟩
      · exact .inl hat
      · have hmeets := meets_kept hi hl.1 h hh
        unfold Sys.Meets at hmeets
        rw [hpc'] at hmeets hpc
        have hid : task.id = T := hpc
        exact .inr ⟨id, hid ▸ hmeets.2.2, hsent⟩
    · obtain ⟨c, hone, _⟩ := hmade.1
      have hret := retries_kept hi h (.inr (hone ▸ List.cons_ne_nil c []))
      obtain ⟨new, hnew, hsame, hqueue, _⟩ := messages_after h hm
      exact .inr ⟨id, hmade.next h.store hret, m, new, hnew, hqueue.trans hq, hsame.trans hid⟩
  · rw [if_pos (recorded_failed.mp hy.symm)] at hnow
    exact .inl ⟨i, _, hnow, hid⟩

/-! ## A retry that is lost -/

/-- The task has failed, and nobody is to make or send its retry. -/
structure Sys.Lost (s : Sys) (T : TaskId) : Prop where
  failed : s.store.status T = some .failed
  left : ¬ s.Retrying T
  unsent : ∀ c ∈ retries T s.store.log, s.store.status c.task ≠ none ∧
    ¬ s.InProgress c.task ∧ ∀ m message, s.messages m = some message → message.task_id ≠ c.task

theorem Sys.Lost.not_retried (h : s.Lost T) : ¬ s.Retried T := by
  rintro ⟨id, ⟨⟨c, hone, hc⟩, _⟩, m, message, hm, _, hid⟩
  have hmem : c ∈ retries T s.store.log := hone ▸ List.mem_singleton_self c
  exact (h.unsent c hmem).2.2 m message hm (hid.trans hc.symm)

/-- Nothing brings the retry back. -/
theorem lost_step (hi : FailureInv env s₀ s) (hl : s.Fenced l) (h : Sys.Step env s l s')
    (hT : s.Lost T) : s'.Lost T where
  failed := ended_kept hi.fence hl h hT.failed rfl
  left := by
    intro hat
    rcases retrying_before hi h hat with hold | hrunning
    · exact hT.left hold
    · rw [hT.failed] at hrunning
      cases hrunning
  unsent := by
    rw [retries_kept hi h (.inl hT.left)]
    intro c hc
    obtain ⟨hthere, hprog, hnone⟩ := hT.unsent c hc
    refine ⟨status_ne_none (h.moves _) hthere, fun hnow => ?_, fun m message hm heq => ?_⟩
    · rcases inProgress_before h hnow with hold | ⟨hnew, _⟩
      · exact hprog hold
      · exact hthere hnew
    · rcases messages_before h hm with ⟨old, hold, hid⟩ | hold
      · exact hnone m old hold (hid.trans heq)
      · exact hprog (heq ▸ hold)

/-- While a handler is to send a retry task, nobody else is, and no message is there. -/
theorem unsent_of_resending (hi : FailureInv env s₀ s) {i : HandlerId} {hd : Handler}
    {task : Task} {id : TaskId} (hh : s.handlers i = some hd) (hpc : hd.pc = .resending task id) :
    (∀ queue, (id, queue) ∉ s.outbox) ∧
    (∀ j hd' task', s.handlers j = some hd' → hd'.pc = .resending task' id → j = i) ∧
    ∀ m message, s.messages m = some message → message.task_id ≠ id := by
  obtain ⟨t, rfl, ht⟩ := hi.traffic
  have howed : t.sys.Owes (id, .retry) (some i) := ⟨⟨hd, task, hh, hpc⟩, rfl⟩
  refine ⟨fun queue hmem => ?_, fun j hd' task' hh' hpc' => ?_, fun m message hm heq => ?_⟩
  · have hout : t.sys.Owes (id, queue) none := hmem
    cases ht.owner _ _ _ _ howed hout rfl
  · have hother : t.sys.Owes (id, .retry) (some j) := ⟨⟨hd', task', hh', hpc'⟩, rfl⟩
    cases ht.owner _ _ _ _ howed hother rfl
    rfl
  · exact ht.unsent _ _ howed (List.mem_map.mpr ⟨_, ht.sent m message hm, heq⟩)

/-- A stop between the commit of `failed` and the send loses the retry. -/
theorem lost_of_fail (hi : FailureInv env s₀ s) {i : HandlerId} {hd : Handler}
    (hh : s.handlers i = some hd) (hpc : hd.pc.Retrying T)
    (h : Sys.Step env s (.work i .fail) s') : s'.Lost T := by
  have hby := failedBy_of_retrying hi hh hpc
  -- the handlers of the state after the stop
  have hafter : ∀ j hd', s'.handlers j = some hd' →
      (hd'.pc = .ended) ∨ j ≠ i ∧ s.handlers j = some hd' := by
    intro j hd' hh'
    cases h with
    | work _ hstep =>
        cases hstep with
        | fail =>
            simp only [Function.update_apply] at hh'
            split at hh'
            · cases hh'
              exact .inl rfl
            · next hij => exact .inr ⟨hij, hh'⟩
  have hsame : s'.store = s.store ∧ s'.outbox = s.outbox ∧ s'.messages = s.messages := by
    cases h with
    | work _ hstep =>
        cases hstep with
        | fail => exact ⟨rfl, rfl, rfl⟩
  obtain ⟨hstore, houtbox, hmessages⟩ := hsame
  refine ⟨hstore ▸ hby.1, ?_, ?_⟩
  · rintro ⟨j, hd', hh', hpc'⟩
    rcases hafter j hd' hh' with hended | ⟨hne, hold⟩
    · rw [hended] at hpc'
      exact hpc'
    · exact hne ((failedBy_of_retrying hi hold hpc').unique (hi.fence.task T) hby)
  · rw [hstore, hmessages]
    intro c hc
    cases hat : hd.pc with
    | failed task job =>
        have hok := hi.fence.handler i hd hh
        unfold HandlerOk at hok
        rw [hat] at hok hpc
        obtain rfl : task.id = T := hpc
        have hnone : retries task.id s.store.log = [] := hok.1
        rw [hnone] at hc
        cases hc
    | resending task id =>
        have hmeets := hi.handler i hd hh
        unfold Sys.Meets at hmeets
        rw [hat] at hmeets hpc
        obtain rfl : task.id = T := hpc
        obtain ⟨⟨c', hone, rfl⟩, _, retry, _, hretry, _⟩ := hmeets.2.2
        rw [hone, List.mem_singleton] at hc
        subst hc
        obtain ⟨hout, hother, hnone⟩ := unsent_of_resending hi hh hat
        refine ⟨Store.status_of_get hretry ▸ nofun, ?_, hnone⟩
        rintro (⟨queue, hmem⟩ | ⟨j, hd', task', hh', hpc'⟩)
        · exact hout queue (houtbox ▸ hmem)
        · rcases hafter j hd' hh' with hended | ⟨hne, hold⟩
          · rw [hended] at hpc'
            cases hpc'
          · exact hne (hother j hd' task' hold hpc')
    | _ =>
        rw [hat] at hpc
        exact hpc.elim

end Step

/-! ## Runs -/

theorem failureInv_run {env : Env} {jobs : Table Job} {now : Int} {s : Sys}
    (h : Run (Sys.Step env) Sys.Fenced (.start jobs now) s) :
    FailureInv env (.start jobs now) s :=
  h.invariant (fun hi hl hst => failureInv_step hi hl hst) (failureInv_start env jobs now)

theorem retry_run {env : Env} {jobs : Table Job} {now : Int} {s : Sys} {T : TaskId}
    (h : Run (Sys.Step env) Sys.Handles (.start jobs now) s)
    (hT : s.store.status T = some .failed) : s.Retrying T ∨ s.Retried T := by
  induction h with
  | refl => cases hT
  | snoc hrun hl hst ih =>
      exact retry_step (failureInv_run (hrun.mono fun _ _ hl => hl.1)) hl hst ih hT

theorem lost_run {env : Env} {s₀ s t : Sys} {T : TaskId} (hi : FailureInv env s₀ s)
    (hT : s.Lost T) (h : Run (Sys.Step env) Sys.Fenced s t) : t.Lost T := by
  have key : FailureInv env s₀ t ∧ t.Lost T := by
    induction h with
    | refl => exact ⟨hi, hT⟩
    | snoc _ hl hst ih => exact ⟨failureInv_step ih.1 hl hst, lost_step ih.1 hl hst ih.2⟩
  exact key.2

/-- **A failed attempt has its retry.**  In every state of every run in which resets take no
task from a handler at work, and nothing stops a handler between the commit of `failed` and
the return of the send: a task that is `failed` has exactly one retry task, its next attempt,
sent to the retry queue, or a handler is at it; one that is `final_failed` had no retries left
by the job its handler had read; and a handler that is done with a message leaves a task that
has ended.  A stop in between leaves the task `failed` without its retry, and no redelivery
brings it back. -/
theorem failure_has_retry (env : Env) (jobs : Table Job) (now : Int) {s : Sys}
    (hrun : Run (Sys.Step env) Sys.Handles (.start jobs now) s) :
    (∀ T row, s.store.tasks.get T = some row →
      (row.status = .failed → s.Retrying T ∨ s.Retried T) ∧
      (row.status = .final_failed → ∃ job, s.Read env (.start jobs now) job ∧
        job.id = row.job_id ∧ job.max_retries ≤ row.retry_count)) ∧
    (∀ h hd, s.handlers h = some hd → hd.pc = .done → s.store.Over hd.task_id) ∧
    ∀ h hd T s' t, s.handlers h = some hd → hd.pc.Retrying T →
      Sys.Step env s (.work h .fail) s' → Run (Sys.Step env) Sys.Fenced s' t →
      t.store.status T = some .failed ∧ ¬ t.Retrying T ∧ ¬ t.Retried T := by
  have hi := failureInv_run (hrun.mono fun _ _ hl => hl.1)
  refine ⟨fun T row hrow => ⟨fun hfailed => ?_, hi.gave_up T row hrow⟩,
    fun h hd hh hdone => ?_, fun h hd T s' t hh hpc hst hrun' => ?_⟩
  · exact retry_run hrun (hfailed ▸ Store.status_of_get hrow)
  · have hmeets := hi.handler h hd hh
    unfold Sys.Meets at hmeets
    rw [hdone] at hmeets
    exact hmeets
  · have hnow := failureInv_step (l := .work h .fail) hi ⟨trivial, trivial⟩ hst
    have hlost := lost_run hnow (lost_of_fail hi hh hpc hst) hrun'
    exact ⟨hlost.failed, hlost.left, hlost.not_retried⟩

/-- A one-time job with one retry. -/
def example_retrying : JobCreate := { example_one_time with max_retries := 1 }

/-- The attempt fails with a retry left; the retry task is made and sent. -/
theorem failure_has_retry_sent : ∃ s,
    Run (Sys.Step example_env) Sys.Handles (.start .empty 0) s ∧
    s.store.status 1 = some .failed ∧ s.messages 2 = some ⟨.retry, 2, false⟩ ∧
    (s.Retrying 1 ∨ s.Retried 1) := by
  have h : Run (Sys.Step example_env) Sys.Handles (.start .empty 0) (.start .empty 0) := .refl
  have h := h.snoc (l := Sys.Label.request (.create_job 1 example_retrying))
    ⟨⟨trivial, trivial⟩, trivial⟩ (.request nofun rfl)
  have h := h.snoc (l := Sys.Label.accept (.one_time 1)) ⟨⟨trivial, trivial⟩, trivial⟩ (.accept rfl)
  have h := h.snoc (l := Sys.Label.create _ 1) ⟨⟨trivial, trivial⟩, trivial⟩
    (.create List.mem_cons_self (by decide) rfl)
  have h := h.snoc (l := Sys.Label.send 1 1) ⟨⟨trivial, trivial⟩, trivial⟩
    (.send List.mem_cons_self rfl)
  have h := h.snoc (l := Sys.Label.receive 1 1 example_worker) ⟨⟨trivial, trivial⟩, trivial⟩
    (.receive rfl rfl rfl)
  have h := h.snoc (l := Sys.Label.work 1 .claim) ⟨⟨trivial, trivial⟩, trivial⟩
    (.work rfl (.claim rfl rfl))
  have h := h.snoc (l := Sys.Label.work 1 .load) ⟨⟨trivial, trivial⟩, trivial⟩
    (.work rfl (.load rfl rfl))
  have h := h.snoc (l := Sys.Label.work 1 .lookup) ⟨⟨trivial, trivial⟩, trivial⟩
    (.work rfl (.lookup rfl rfl))
  have h := h.snoc (l := Sys.Label.work 1 (.finish ⟨false, none, none⟩))
    ⟨⟨trivial, trivial⟩, trivial⟩ (.work rfl (.finish rfl rfl))
  have h := h.snoc (l := Sys.Label.work 1 (.retry 2)) ⟨⟨trivial, trivial⟩, trivial⟩
    (.work rfl (.retry rfl (by decide) rfl))
  have h := h.snoc (l := Sys.Label.resend 1 2) ⟨⟨trivial, trivial⟩, trivial⟩ (.resend rfl rfl rfl)
  exact ⟨_, h, rfl, rfl, ((failure_has_retry example_env .empty 0 h).1 1 _ rfl).1 rfl⟩

/-- The worker stops after the commit of `failed`; the message is received again and deleted.
The attempt had a retry left, and there is none. -/
theorem failure_loses_retry : ∃ s job,
    Run (Sys.Step example_env) Sys.Fenced (.start .empty 0) s ∧
    s.jobs.get 1 = some job ∧ job.max_retries = 1 ∧
    (s.store.tasks.get 1).map Task.retry_count = some 0 ∧ s.store.status 1 = some .failed ∧
    (s.handlers 2).map Handler.pc = some .ended ∧ s.messages 1 = some ⟨.normal, 1, true⟩ ∧
    retries 1 s.store.log = [] ∧ s.store.status 2 = none := by
  have h : Run (Sys.Step example_env) Sys.Fenced (.start .empty 0) (.start .empty 0) := .refl
  have h := h.snoc (l := Sys.Label.request (.create_job 1 example_retrying)) ⟨trivial, trivial⟩
    (.request nofun rfl)
  have h := h.snoc (l := Sys.Label.accept (.one_time 1)) ⟨trivial, trivial⟩ (.accept rfl)
  have h := h.snoc (l := Sys.Label.create _ 1) ⟨trivial, trivial⟩
    (.create List.mem_cons_self (by decide) rfl)
  have h := h.snoc (l := Sys.Label.send 1 1) ⟨trivial, trivial⟩ (.send List.mem_cons_self rfl)
  have h := h.snoc (l := Sys.Label.receive 1 1 example_worker) ⟨trivial, trivial⟩
    (.receive rfl rfl rfl)
  have h := h.snoc (l := Sys.Label.work 1 .claim) ⟨trivial, trivial⟩ (.work rfl (.claim rfl rfl))
  have h := h.snoc (l := Sys.Label.work 1 .load) ⟨trivial, trivial⟩ (.work rfl (.load rfl rfl))
  have h := h.snoc (l := Sys.Label.work 1 .lookup) ⟨trivial, trivial⟩ (.work rfl (.lookup rfl rfl))
  have h := h.snoc (l := Sys.Label.work 1 (.finish ⟨false, none, none⟩)) ⟨trivial, trivial⟩
    (.work rfl (.finish rfl rfl))
  have h := h.snoc (l := Sys.Label.work 1 .fail) ⟨trivial, trivial⟩ (.work rfl .fail)
  have h := h.snoc (l := Sys.Label.receive 1 2 example_worker) ⟨trivial, trivial⟩
    (.receive rfl rfl rfl)
  have h := h.snoc (l := Sys.Label.work 2 .claim) ⟨trivial, trivial⟩
    (.work rfl (.claim_lost rfl rfl))
  have h := h.snoc (l := Sys.Label.work 2 .check) ⟨trivial, trivial⟩ (.work rfl (.check rfl))
  have h := h.snoc (l := Sys.Label.work 2 .recheck) ⟨trivial, trivial⟩ (.work rfl (.recheck rfl))
  have h := h.snoc (l := Sys.Label.delete 2) ⟨trivial, trivial⟩ (.delete rfl rfl rfl)
  exact ⟨_, _, h, rfl, rfl, rfl, rfl, rfl, rfl, rfl, rfl⟩

end Dass
