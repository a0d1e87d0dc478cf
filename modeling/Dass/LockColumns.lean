/-
# `Dass.LockColumns` — a row is running exactly when it is locked

Four statements write `status`, `locked_by` and `locked_until`, each its own
subset of them:

    claim        all three, where the row is pending
    heartbeat    the deadline, where `locked_by` names the worker
    result       all three, by primary key
    reset        all three, by primary key

The last two send a column only if it was loaded with another value.  They send
all three because what they were loaded from was a running row, locked like any
other; so the law for rows (`Task.LockOk`) is needed of what is stored, of what
handlers and passes have loaded, and of every version a lagging listing may
read.  The one way out is a row reset between the `UPDATE` of `claim_task` and
its read: `Sys.ReadsBack` says that the read answers the row just written.
-/
import Dass.ClaimLedger

namespace Dass

open Lts Orm

/-! ## The law for a row -/

/-- The lock columns of a row are set exactly while it is running. -/
structure Task.LockOk (row : Task) : Prop where
  owner : row.status = .running ↔ row.locked_by ≠ none
  deadline : row.status = .running ↔ row.locked_until ≠ none

/-- The row is running, and locked. -/
structure Task.Locked (row : Task) : Prop where
  running : row.status = .running
  owner : row.locked_by ≠ none
  deadline : row.locked_until ≠ none

section Row

variable {row loaded assigned stored : Task}

theorem Task.LockOk.locked (h : row.LockOk) (hrun : row.status = .running) : row.Locked :=
  ⟨hrun, h.owner.mp hrun, h.deadline.mp hrun⟩

theorem Task.lockOk_fresh (id : TaskId) (job_id : JobId) (trigger_type : TriggerType)
    (retry_count : Nat) (now : Int) :
    (Task.fresh id job_id trigger_type retry_count now).LockOk :=
  ⟨iff_of_false nofun fun h => h rfl, iff_of_false nofun fun h => h rfl⟩

theorem WorkerService.lockOk_claimed (service : WorkerService) (row : Task) (now : Int) :
    (service.claimed row now).LockOk :=
  ⟨iff_of_true rfl nofun, iff_of_true rfl nofun⟩

/-- A heartbeat matches locked rows only, so it extends the lock of a running one. -/
theorem Task.LockOk.extended {service : WorkerService} {now : Int} (h : row.LockOk)
    (hlock : row.locked_by = some service.worker_id) : (service.extended row now).LockOk := by
  have hrun : row.status = .running := h.owner.mpr (by rw [hlock]; exact nofun)
  exact ⟨h.owner, iff_of_true hrun nofun⟩

/-- A result or a reset of a row that was loaded running unlocks whatever is stored. -/
theorem Task.Locked.unlock (h : loaded.Locked) (hs : assigned.status ≠ .running)
    (ho : assigned.locked_by = none) (hd : assigned.locked_until = none) :
    (Task.flush loaded assigned stored).LockOk := by
  have hstatus : (Task.flush loaded assigned stored).status = assigned.status :=
    emit_dirty (by rw [h.running]; exact hs)
  have howner : (Task.flush loaded assigned stored).locked_by = none :=
    (emit_dirty (by rw [ho]; exact h.owner.symm)).trans ho
  have hdeadline : (Task.flush loaded assigned stored).locked_until = none :=
    (emit_dirty (by rw [hd]; exact h.deadline.symm)).trans hd
  refine ⟨?_, ?_⟩
  · rw [hstatus, howner]
    exact iff_of_false hs fun h => h rfl
  · rw [hstatus, hdeadline]
    exact iff_of_false hs fun h => h rfl

/-- A mark leaves the lock columns and the status alone. -/
theorem Task.LockOk.chained (h : stored.LockOk) :
    (Task.flush loaded loaded.mark_processed_for_chaining stored).LockOk := by
  have hstatus : (Task.flush loaded loaded.mark_processed_for_chaining stored).status
      = stored.status := emit_clean _ _
  have howner : (Task.flush loaded loaded.mark_processed_for_chaining stored).locked_by
      = stored.locked_by := emit_clean _ _
  have hdeadline : (Task.flush loaded loaded.mark_processed_for_chaining stored).locked_until
      = stored.locked_until := emit_clean _ _
  refine ⟨?_, ?_⟩
  · rw [hstatus, howner]
    exact h.owner
  · rw [hstatus, hdeadline]
    exact h.deadline

end Row

/-! ## The law for the table and its versions -/

def LocksOk (tasks : Table Task) : Prop := ∀ T row, tasks.get T = some row → row.LockOk

/-- The table, and every version of it that a listing may read. -/
structure Store.LocksOk (st : Store) : Prop where
  rows : Dass.LocksOk st.tasks
  versions : ∀ c ∈ st.log, Dass.LocksOk c.before

section Write

variable {st st' : Store}

theorem Store.LocksOk.write {T : TaskId} {row : Task} {c : Commit} (hi : st.LocksOk)
    (hrow : row.LockOk) (hlog : st'.log = c :: st.log) (hbefore : c.before = st.tasks)
    (hget : ∀ id, st'.tasks.get id = if T = id then some row else st.tasks.get id) :
    st'.LocksOk := by
  refine ⟨fun T' row' hrow' => ?_, fun c' hc' => ?_⟩
  · rw [hget] at hrow'
    split at hrow'
    · cases hrow'
      exact hrow
    · exact hi.rows T' row' hrow'
  · rw [hlog] at hc'
    rcases List.mem_cons.mp hc' with rfl | hc'
    · rw [hbefore]
      exact hi.rows
    · exact hi.versions c' hc'

theorem Store.LocksOk.table_at (hi : st.LocksOk) (n : Nat) : Dass.LocksOk (st.table_at n) := by
  have key : ∀ (log : List Commit) (tasks : Table Task), Dass.LocksOk tasks →
      (∀ c ∈ log, Dass.LocksOk c.before) → Dass.LocksOk (Store.table_at.at_ tasks log n) := by
    intro log
    induction log with
    | nil => exact fun tasks h _ => h
    | cons c cs ih =>
        intro tasks h hlog
        rw [Store.table_at.at_]
        split
        · exact h
        · exact ih c.before (hlog c List.mem_cons_self)
            fun c' hc' => hlog c' (List.mem_cons_of_mem _ hc')
  exact key st.log st.tasks hi.rows hi.versions

theorem Store.LocksOk.create {task : Task} {retry_of : Option TaskId} (hi : st.LocksOk)
    (hrow : task.LockOk) (h : st.create task retry_of = some st') : st'.LocksOk := by
  obtain ⟨_, _, hlog, hget⟩ := Store.create_spec h
  exact hi.write hrow hlog rfl hget

theorem Store.LocksOk.unlock {what : What} {loaded assigned : Task} (hi : st.LocksOk)
    (hloaded : loaded.Locked) (hs : assigned.status ≠ .running) (ho : assigned.locked_by = none)
    (hd : assigned.locked_until = none) (h : st.flush what loaded assigned = some st') :
    st'.LocksOk := by
  obtain ⟨_, _, hlog, hget⟩ := Store.flush_spec h
  exact hi.write (hloaded.unlock hs ho hd) hlog rfl hget

end Write

/-! ## The invariant -/

/-- The row a handler has read back. -/
def HandlerPc.row : HandlerPc → Option Task
  | .loaded task | .unfound task | .executing task _ => some task
  | _ => none

/-- `claim_task` returns the row it has just written: what it reads back is running. -/
def Sys.ReadsBack (s : Sys) : Sys.Label → Prop
  | .work h .load => ∀ hd row, s.handlers h = some hd →
      s.store.tasks.get hd.task_id = some row → row.status = .running
  | _ => True

structure LockInv (s : Sys) : Prop where
  store : s.store.LocksOk
  loaded : ∀ h hd row, s.handlers h = some hd → hd.pc.row = some row → row.Locked
  listed : ∀ p rows seen, s.passes p = some (.marking rows seen) → ∀ row ∈ rows, row.Locked

theorem lockInv_start (jobs : Table Job) (now : Int) : LockInv (.start jobs now) where
  store :=
    { rows := by intro _ _ h; cases h
      versions := by intro _ h; cases h }
  loaded := by intro _ _ _ h; cases h
  listed := by intro _ _ _ h; cases h

theorem recorded_unlocks (task : Task) (job : Job) (result : ExecutionResult) (now : Int) :
    (recorded task job result now).status ≠ .running ∧
      (recorded task job result now).locked_by = none ∧
      (recorded task job result now).locked_until = none := by
  have hterm := recorded_terminal task job result now
  refine ⟨fun heq => ?_, ?_, ?_⟩
  · rw [heq] at hterm
    cases hterm
  · unfold recorded
    split <;> rfl
  · unfold recorded
    split <;> rfl

/-- What a handler's step does to the rows, and which row it has read back afterwards. -/
theorem lockInv_work {now : Int} {jobs : Table Job} {h : HandlerId} {st st' : Store}
    {hd hd' : Handler} {a : WorkerAct} (hst : st.LocksOk)
    (hloaded : ∀ row, hd.pc.row = some row → row.Locked)
    (hback : a = .load → ∀ row, st.tasks.get hd.task_id = some row → row.status = .running)
    (hstep : WorkStep now jobs h st hd a st' hd') :
    st'.LocksOk ∧ ∀ row, hd'.pc.row = some row → row.Locked := by
  have unread : ∀ {pc : HandlerPc}, pc.row = none → ∀ row, pc.row = some row → row.Locked := by
    intro pc hnone row hrow
    rw [hnone] at hrow
    cases hrow
  cases hstep with
  | claim _ hclaim =>
      obtain ⟨row, _, _, hlog, hget⟩ := Store.claim_task_spec hclaim
      exact ⟨hst.write (hd.service.lockOk_claimed row now) hlog rfl hget, unread rfl⟩
  | claim_lost | load_none | fail => exact ⟨hst, unread rfl⟩
  | load _ hget =>
      refine ⟨hst, fun row hrow => ?_⟩
      cases hrow
      exact (hst.rows _ _ hget).locked (hback rfl _ hget)
  | @check n =>
      refine ⟨hst, unread ?_⟩
      rcases after_check_cases (st.tasks.get hd.task_id) n with ⟨_, hnext⟩ | hnext <;>
        rw [hnext] <;> rfl
  | recheck =>
      refine ⟨hst, unread ?_⟩
      dsimp only
      split <;> rfl
  | lookup hpc | lookup_none hpc =>
      rw [hpc] at hloaded
      exact ⟨hst, hloaded⟩
  | heartbeat hpc hbeat =>
      obtain ⟨row, hrow, hlock, hlog, hget⟩ := Store.heartbeat_spec hbeat
      exact ⟨hst.write ((hst.rows _ _ hrow).extended hlock) hlog rfl hget, hloaded⟩
  | @finish task job result _ hpc hflush =>
      rw [hpc] at hloaded
      obtain ⟨hs, ho, hd⟩ := recorded_unlocks task job result now
      refine ⟨hst.unlock (hloaded task rfl) hs ho hd hflush, unread ?_⟩
      dsimp only
      split <;> rfl
  | @not_found task _ hpc hflush =>
      rw [hpc] at hloaded
      have hs : (recorded_not_found task now).status ≠ .running :=
        show TaskStatus.final_failed ≠ .running by decide
      exact ⟨hst.unlock (hloaded task rfl) hs rfl rfl hflush, unread rfl⟩
  | retry _ _ hcreate => exact ⟨hst.create (Task.lockOk_fresh _ _ _ _ _) hcreate, unread rfl⟩

/-- **The step lemma.** -/
theorem lockInv_step {env : Env} {s s' : Sys} {l : Sys.Label} (hi : LockInv s)
    (hl : s.ReadsBack l) (h : Sys.Step env s l s') : LockInv s' := by
  cases h with
  | create _ _ hcreate =>
      exact ⟨hi.store.create (Task.lockOk_fresh _ _ _ _ _) hcreate, hi.loaded, hi.listed⟩
  | @work h hd a _ _ hh hstep =>
      have hback : a = .load → ∀ row, s.store.tasks.get hd.task_id = some row →
          row.status = .running := by
        rintro rfl row hrow
        exact hl hd row hh hrow
      obtain ⟨hst, hrow⟩ := lockInv_work hi.store (fun row => hi.loaded h hd row hh) hback hstep
      refine ⟨hst, fun h₁ hd₁ row hh₁ hpc => ?_, hi.listed⟩
      rcases entries_update hh₁ with ⟨_, rfl⟩ | hh₁
      · exact hrow row hpc
      · exact hi.loaded h₁ hd₁ row hh₁ hpc
  | receive | resend | delete =>
      refine ⟨hi.store, fun h₁ hd₁ row hh₁ hpc => ?_, hi.listed⟩
      rcases entries_update hh₁ with ⟨_, rfl⟩ | hh₁
      · cases hpc
      · exact hi.loaded h₁ hd₁ row hh₁ hpc
  | @recover p _ _ _ hstep =>
      generalize hp : s.passes p = r at hstep
      have hpasses : ∀ {st' r'}, (∀ rows seen, r' = some (.marking rows seen) →
          ∀ row ∈ rows, row.Locked) → st'.LocksOk →
          LockInv { s with store := st', passes := Function.update s.passes p r' } := by
        intro st' r' hr' hst
        refine ⟨hst, hi.loaded, fun p₁ rows seen h => ?_⟩
        simp only [Function.update_apply] at h
        split at h
        · exact hr' rows seen h
        · exact hi.listed p₁ rows seen h
      cases hstep with
      | begin | finish => exact hpasses nofun hi.store
      | @list _ seen listed _ hperm =>
          refine hpasses (fun rows seen' heq row hrow => ?_) hi.store
          cases heq
          obtain ⟨hget, hexp⟩ :=
            TaskRepository.mem_list_expired_running.mp (hperm.mem_iff.mp hrow)
          exact (hi.store.table_at seen _ _ hget).locked (expired_iff.mp hexp).1
      | mark hflush =>
          have hlisted := hi.listed p _ _ hp
          have hst := hi.store.unlock (hlisted _ List.mem_cons_self)
            (show TaskStatus.pending ≠ .running from nofun) rfl rfl hflush
          refine hpasses (fun rows seen heq row hrow => ?_) hst
          cases heq
          exact hlisted row (List.mem_cons_of_mem _ hrow)
  | chain _ _ hflush =>
      obtain ⟨stored, hstored, hlog, hget⟩ := Store.flush_spec hflush
      exact ⟨hi.store.write (hi.store.rows _ _ hstored).chained hlog rfl hget, hi.loaded,
        hi.listed⟩
  | _ => exact ⟨hi.store, hi.loaded, hi.listed⟩

/-- **Running and locked always coincide.**  In every state of every run in which
`claim_task` returns the row it has just written, a row is running exactly when both lock
columns are set, and has neither otherwise; so every running row is listed as expired
once its deadline has passed. -/
theorem running_iff_locked (env : Env) (jobs : Table Job) (now : Int) {s : Sys}
    (hrun : Run (Sys.Step env) Sys.ReadsBack (.start jobs now) s) {T : TaskId} {row : Task}
    (hrow : s.store.tasks.get T = some row) :
    (row.status = .running ↔ row.locked_by ≠ none ∧ row.locked_until ≠ none) ∧
    (row.status ≠ .running → row.locked_by = none ∧ row.locked_until = none) ∧
    (row.status = .running → ∃ deadline, ∀ now', deadline < now' →
      row ∈ TaskRepository.list_expired_running s.store.tasks now') := by
  have hi : LockInv s :=
    hrun.invariant (fun hi hl h => lockInv_step hi hl h) (lockInv_start jobs now)
  have hok := hi.store.rows T row hrow
  refine ⟨⟨fun h => ⟨hok.owner.mp h, hok.deadline.mp h⟩, fun h => hok.owner.mpr h.1⟩,
    fun h => ⟨?_, ?_⟩, fun h => ?_⟩
  · exact not_not.mp fun hne => h (hok.owner.mpr hne)
  · exact not_not.mp fun hne => h (hok.deadline.mpr hne)
  · obtain ⟨deadline, hdeadline⟩ := Option.ne_none_iff_exists'.mp (hok.deadline.mp h)
    refine ⟨deadline, fun now' hlt => TaskRepository.mem_list_expired_running.mpr ⟨?_, ?_⟩⟩
    · exact Table.get_of_mem (Table.mem_of_get hrow)
    · exact expired_iff.mpr ⟨h, deadline, hdeadline, hlt⟩

/-- A task is claimed and read back. -/
theorem running_iff_locked_claimed : ∃ s row,
    Run (Sys.Step example_env) Sys.ReadsBack (.start .empty 0) s ∧
    s.store.tasks.get 1 = some row ∧ row.status = .running ∧
    (row.status = .running ↔ row.locked_by ≠ none ∧ row.locked_until ≠ none) := by
  have h : Run (Sys.Step example_env) Sys.ReadsBack (.start .empty 0) (.start .empty 0) := .refl
  have h := h.snoc (l := Sys.Label.request (.create_job 1 example_one_time)) trivial
    (.request nofun rfl)
  have h := h.snoc (l := Sys.Label.accept (.one_time 1)) trivial (.accept rfl)
  have h := h.snoc (l := Sys.Label.create _ 1) trivial
    (.create List.mem_cons_self (by decide) rfl)
  have h := h.snoc (l := Sys.Label.send 1 1) trivial (.send List.mem_cons_self rfl)
  have h := h.snoc (l := Sys.Label.receive 1 1 example_worker) trivial (.receive rfl rfl rfl)
  have h := h.snoc (l := Sys.Label.work 1 .claim) trivial (.work rfl (.claim rfl rfl))
  have h := h.snoc (l := Sys.Label.work 1 .load) (by rintro _ _ ⟨⟩ ⟨⟩; rfl)
    (.work rfl (.load rfl rfl))
  exact ⟨_, example_worker.claimed (.fresh 1 1 .manual 0 0) 0, h, rfl, rfl,
    (running_iff_locked example_env .empty 0 h (T := 1) rfl).1⟩

end Dass
