/-
# `Dass.Overlap` — what `concurrency_policy = 'forbid'` forbids

Of the paths that create a task only the cron dispatch looks at the policy, and
it counts the tasks that are running at that moment.  Two runs of a `forbid` job
overlap when they were started by hand, by a dependency or by a retry, or when
the dispatch did not see a task that was queued and not claimed yet
(`forbid_overlaps`).  Where neither happens, the count is enough: no two tasks
of the job are ever live at once (`forbid_no_overlap`).
-/
import Dass.System

namespace Dass

open Lts Orm

/-- A pending or running task of the job. -/
def Store.Active (st : Store) (j : JobId) (T : TaskId) : Prop :=
  ∃ row, st.tasks.get T = some row ∧ row.job_id = j ∧ row.status.terminal = false

/-- A cron dispatch of the job is between its policy check and its insert. -/
def NewTask.isCron (j : JobId) (task : NewTask) : Bool :=
  task.origin = .cron j

/-- No task of the job is live, and no cron dispatch of it is about to make one. -/
def Sys.Quiet (s : Sys) (j : JobId) : Prop :=
  (∀ T, ¬ s.store.Active j T) ∧ ∀ task ∈ s.creating, task.isCron j = false

/-- The job's policy is `forbid`; cron dispatches of it leave no other one and no queued
task out of sight; the other paths make a task of it only when it is quiet; and no lock
expires. -/
def Sys.Spaced (j : JobId) (s : Sys) (l : Sys.Label) : Prop :=
  (∀ job, s.jobs.get j = some job → job.concurrency_policy = .forbid) ∧
  match l with
  | .accept (.cron k) => k = j →
      (∀ T row, s.store.tasks.get T = some row → row.job_id = j → row.status ≠ .pending) ∧
      ∀ task ∈ s.creating, task.isCron j = false
  | .create task _ => task.job_id = j → task.isCron j = false → s.Quiet j
  | .work h (.retry _) => ∀ hd task job, s.handlers h = some hd → hd.pc = .failed task job →
      job.id = j → s.Quiet j
  | .recover _ .mark => False
  | _ => True

/-! ## The invariant -/

structure OverlapInv (j : JobId) (s : Sys) : Prop where
  /-- the job has one live task at most -/
  active : ∀ T T', s.store.Active j T → s.store.Active j T' → T = T'
  /-- a cron dispatch past its check is the only one, and no task is live meanwhile -/
  cron : s.creating.countP (NewTask.isCron j) ≤ 1
  quiet : ∀ task ∈ s.creating, task.isCron j = true → ∀ T, ¬ s.store.Active j T
  /-- what the dispatch will insert is a task of its job -/
  origin : ∀ task ∈ s.creating, ∀ k, task.origin = .cron k → task.job_id = k

theorem overlapInv_start (j : JobId) (jobs : Table Job) (now : Int) :
    OverlapInv j (.start jobs now) where
  active := by rintro T _ ⟨_, h, _⟩; cases h
  cron := Nat.zero_le _
  quiet := nofun
  origin := nofun

section Write

variable {st st' : Store} {j : JobId} {T : TaskId}

/-- A row replaced by one of the same job that is live only if it was. -/
theorem active_of_set {id : TaskId} {old row : Task}
    (hget : ∀ T, st'.tasks.get T = if id = T then some row else st.tasks.get T)
    (hold : st.tasks.get id = some old) (hjob : row.job_id = old.job_id)
    (hlive : row.status.terminal = false → old.status.terminal = false)
    (h : st'.Active j T) : st.Active j T := by
  obtain ⟨new, hnew, hj, hterm⟩ := h
  rw [hget] at hnew
  split at hnew
  · next heq =>
      cases hnew
      exact ⟨old, heq ▸ hold, hjob ▸ hj, hlive hterm⟩
  · exact ⟨new, hnew, hj, hterm⟩

theorem active_claim {service : WorkerService} {h : HandlerId} {id : TaskId} {now : Int}
    (hclaim : st.claim_task service h id now = some st') (hT : st'.Active j T) :
    st.Active j T := by
  obtain ⟨row, hrow, hpending, _, hget⟩ := Store.claim_task_spec hclaim
  exact active_of_set hget hrow rfl (fun _ => by rw [hpending]; rfl) hT

theorem active_heartbeat {service : WorkerService} {id : TaskId} {now : Int}
    (hbeat : st.heartbeat service id now = some st') (hT : st'.Active j T) : st.Active j T := by
  obtain ⟨row, hrow, _, _, hget⟩ := Store.heartbeat_spec hbeat
  exact active_of_set hget hrow rfl (fun h => h) hT

/-- A result makes no task live, and neither does a flush that leaves the status alone. -/
theorem active_flush {what : What} {loaded assigned : Task}
    (hflush : st.flush what loaded assigned = some st')
    (hstatus : assigned.status.terminal = true ∨ assigned.status = loaded.status)
    (hT : st'.Active j T) : st.Active j T := by
  obtain ⟨stored, hstored, _, hget⟩ := Store.flush_spec hflush
  refine active_of_set hget hstored rfl (fun hlive => ?_) hT
  by_cases heq : assigned.status = loaded.status
  · simpa only [Task.flush, heq, emit_clean] using hlive
  · simp only [Task.flush, emit_dirty heq, hstatus.resolve_right heq] at hlive
    cases hlive

/-- The only new live task is the one that was inserted. -/
theorem active_create {task : Task} {retry_of : Option TaskId}
    (hcreate : st.create task retry_of = some st') (hT : st'.Active j T) :
    st.Active j T ∨ (T = task.id ∧ task.job_id = j) := by
  obtain ⟨_, _, _, hget⟩ := Store.create_spec hcreate
  obtain ⟨row, hrow, hj, hterm⟩ := hT
  rw [hget] at hrow
  split at hrow
  · next heq => cases hrow; exact .inr ⟨heq.symm, hj⟩
  · exact .inl ⟨row, hrow, hj, hterm⟩

end Write

/-- Nothing new is live, and no dispatch has passed its check. -/
theorem OverlapInv.shrink {j : JobId} {s s' : Sys} (hi : OverlapInv j s)
    (hactive : ∀ T, s'.store.Active j T → s.store.Active j T)
    (hcreating : s'.creating.Sublist s.creating) : OverlapInv j s' where
  active T T' hT hT' := hi.active T T' (hactive T hT) (hactive T' hT')
  cron := le_trans hcreating.countP_le hi.cron
  quiet task htask hc T hT := hi.quiet task (hcreating.mem htask) hc T (hactive T hT)
  origin task htask := hi.origin task (hcreating.mem htask)

/-- A task of the job is made while it is quiet. -/
theorem OverlapInv.make {j : JobId} {s s' : Sys} {task : Task} (hi : OverlapInv j s)
    (hactive : ∀ T, s'.store.Active j T →
      s.store.Active j T ∨ (T = task.id ∧ task.job_id = j))
    (hcreating : s'.creating.Sublist s.creating)
    (hquiet : task.job_id = j →
      (∀ T, ¬ s.store.Active j T) ∧ s'.creating.countP (NewTask.isCron j) = 0) :
    OverlapInv j s' := by
  by_cases hj : task.job_id = j
  · obtain ⟨hnone, hcount⟩ := hquiet hj
    have honly : ∀ T, s'.store.Active j T → T = task.id := fun T hT =>
      ((hactive T hT).resolve_left (hnone T)).1
    exact {
      active := fun T T' hT hT' => (honly T hT).trans (honly T' hT').symm
      cron := by rw [hcount]; exact Nat.zero_le _
      quiet := fun t ht hc => absurd hc (List.countP_eq_zero.mp hcount t ht)
      origin := fun t ht => hi.origin t (hcreating.mem ht) }
  · exact hi.shrink (fun T hT => (hactive T hT).resolve_right fun h => hj h.2) hcreating

theorem accept_origin {jobs : Table Job} {tasks : Table Task} {origin : Origin} {task : NewTask}
    (h : origin.accept jobs tasks = some task) : task.origin = origin := by
  cases origin with
  | trigger id =>
      obtain ⟨job, _, rfl⟩ := Option.map_eq_some_iff.mp h
      rfl
  | one_time | cron | dependency | retry =>
      simp only [Origin.accept, Option.bind_eq_some_iff] at h
      obtain ⟨_, _, hguard⟩ := h
      split at hguard <;> cases hguard
      rfl

/-- What passing the policy check tells: no task of the job is running. -/
theorem accept_cron {jobs : Table Job} {tasks : Table Task} {k : JobId} {task : NewTask}
    (h : (Origin.cron k).accept jobs tasks = some task) :
    task = ⟨.cron k, k, .scheduled, 0, .scheduled⟩ ∧
    ((∀ job, jobs.get k = some job → job.concurrency_policy = .forbid) →
      ∀ T row, tasks.get T = some row → row.job_id = k → row.status ≠ .running) := by
  simp only [Origin.accept, Option.bind_eq_some_iff] at h
  obtain ⟨job, hjob, hguard⟩ := h
  have hid : job.id = k := Table.key_of_get hjob
  split at hguard
  · cases hguard
  · next hcheck =>
      cases hguard
      refine ⟨by rw [hid], fun hforbid T row hrow hj hrunning => hcheck ⟨hforbid job hjob, ?_⟩⟩
      have hmem : row ∈ TaskRepository.running_for_job tasks job.id := by
        refine List.mem_filter.mpr ⟨Table.mem_of_get hrow, ?_⟩
        simp only [decide_eq_true_eq]
        exact ⟨hj.trans hid.symm, hrunning⟩
      exact Nat.ne_of_gt (List.length_pos_of_mem hmem)

/-- **The step lemma.** -/
theorem overlapInv_step {env : Env} {j : JobId} {s s' : Sys} {l : Sys.Label}
    (hi : OverlapInv j s) (hl : s.Spaced j l) (h : Sys.Step env s l s') : OverlapInv j s' := by
  obtain ⟨hforbid, hl⟩ := hl
  cases h with
  | @accept origin task haccept =>
      have horigin : ∀ t ∈ task :: s.creating, ∀ k, t.origin = .cron k → t.job_id = k := by
        rintro t ht k hk
        rcases List.mem_cons.mp ht with rfl | ht
        · rw [accept_origin haccept] at hk
          subst hk
          rw [(accept_cron haccept).1]
        · exact hi.origin t ht k hk
      by_cases hc : task.isCron j = true
      · -- the dispatch of the job itself: the check has seen every live task
        have hcron : origin = .cron j := (accept_origin haccept).symm.trans (of_decide_eq_true hc)
        subst hcron
        obtain ⟨hpending, hno⟩ := hl rfl
        have hnone : s.creating.countP (NewTask.isCron j) = 0 :=
          List.countP_eq_zero.mpr fun t ht => by rw [hno t ht]; exact Bool.false_ne_true
        refine ⟨hi.active, ?_, ?_, horigin⟩
        · simp [hc, hnone]
        · rintro t _ _ T ⟨row, hrow, hj, hlive⟩
          have hrunning := (accept_cron haccept).2 hforbid T row hrow hj
          cases hs : row.status with
          | pending => exact hpending T row hrow hj hs
          | running => exact hrunning hs
          | success | failed | final_failed => rw [hs] at hlive; cases hlive
      · refine ⟨hi.active, ?_, ?_, horigin⟩
        · simpa [List.countP_cons, hc] using hi.cron
        · rintro t ht hct
          rcases List.mem_cons.mp ht with rfl | ht
          · exact absurd hct hc
          · exact hi.quiet t ht hct
  | @create task id st' hmem _ hcreate =>
      have hperm := List.perm_cons_erase hmem
      have hcount := hperm.countP_eq (NewTask.isCron j)
      refine hi.make (fun T => active_create hcreate) List.erase_sublist fun hj => ?_
      by_cases hc : task.isCron j = true
      · refine ⟨hi.quiet task hmem hc, ?_⟩
        have := hi.cron
        simp only [List.countP_cons, hc, if_true] at hcount
        simp only
        omega
      · obtain ⟨hnone, hno⟩ := hl hj (by simpa using hc)
        refine ⟨hnone, List.countP_eq_zero.mpr fun t ht => ?_⟩
        rw [hno t (List.mem_of_mem_erase ht)]
        exact Bool.false_ne_true
  | abandon => exact hi.shrink (fun _ h => h) List.erase_sublist
  | work hh hstep =>
      cases hstep with
      | claim _ hclaim => exact hi.shrink (fun _ => active_claim hclaim) (.refl _)
      | heartbeat _ hbeat => exact hi.shrink (fun _ => active_heartbeat hbeat) (.refl _)
      | finish _ hflush =>
          exact hi.shrink (fun _ => active_flush hflush (.inl (recorded_terminal _ _ _ _)))
            (.refl _)
      | not_found _ hflush => exact hi.shrink (fun _ => active_flush hflush (.inl rfl)) (.refl _)
      | retry hpc _ hcreate =>
          refine hi.make (fun _ => active_create hcreate) (.refl _) fun hj => ?_
          obtain ⟨hnone, hno⟩ := hl _ _ _ hh hpc hj
          refine ⟨hnone, List.countP_eq_zero.mpr fun t ht => ?_⟩
          rw [hno t ht]
          exact Bool.false_ne_true
      | _ => exact hi.shrink (fun _ h => h) (.refl _)
  | recover hstep =>
      generalize s.passes _ = r at hstep
      cases hstep with
      | mark => exact hl.elim
      | _ => exact hi.shrink (fun _ h => h) (.refl _)
  | chain _ _ hflush => exact hi.shrink (fun _ => active_flush hflush (.inr rfl)) (.refl _)
  | _ => exact hi.shrink (fun _ h => h) (.refl _)

/-- **Where the dispatch sees every live task, `forbid` means no overlap.**  In every state
of every run that meets `Sys.Spaced`, at most one task of the job is running. -/
theorem forbid_no_overlap (env : Env) (jobs : Table Job) (now : Int) (j : JobId) {s : Sys}
    (hrun : Run (Sys.Step env) (Sys.Spaced j) (.start jobs now) s) :
    TaskRepository.count_running_for_job s.store.tasks j ≤ 1 := by
  have hi : OverlapInv j s :=
    hrun.invariant (fun hi hl h => overlapInv_step hi hl h) (overlapInv_start j jobs now)
  refine Table.filter_length_le_one fun a ha b hb hpa hpb => ?_
  have hactive : ∀ row ∈ s.store.tasks.rows,
      decide (row.job_id = j ∧ row.status = .running) = true → s.store.Active j row.id := by
    intro row hrow hp
    obtain ⟨hj, hs⟩ := of_decide_eq_true hp
    exact ⟨row, Table.get_of_mem hrow, hj, by rw [hs]; rfl⟩
  exact hi.active a.id b.id (hactive a ha hpa) (hactive b hb hpb)

/-- A `forbid` job is dispatched.  While its task runs the dispatch refuses; when that is over
the job is dispatched again. -/
theorem forbid_no_overlap_once : ∃ mid s,
    Run (Sys.Step example_env) (Sys.Spaced 1) (.start .empty 0) mid ∧
    mid.store.status 1 = some .running ∧
    (Origin.cron 1).accept mid.jobs mid.store.tasks = none ∧
    Run (Sys.Step example_env) (Sys.Spaced 1) mid s ∧
    s.store.status 1 = some .success ∧ s.store.status 2 = some .running ∧
    TaskRepository.count_running_for_job s.store.tasks 1 ≤ 1 := by
  have h : Run (Sys.Step example_env) (Sys.Spaced 1) (.start .empty 0) (.start .empty 0) := .refl
  have h := h.snoc (l := Sys.Label.request (.create_job 1 example_forbid))
    ⟨by rintro _ ⟨⟩, trivial⟩ (.request nofun rfl)
  have h := h.snoc (l := Sys.Label.accept (.cron 1))
    ⟨by rintro _ ⟨⟩; rfl, fun _ => ⟨by rintro _ _ ⟨⟩, by rintro _ ⟨⟩⟩⟩ (.accept rfl)
  have h := h.snoc (l := Sys.Label.create _ 1)
    ⟨by rintro _ ⟨⟩; rfl, fun _ hc => absurd hc (by decide)⟩
    (.create List.mem_cons_self (by rintro ⟨⟩) rfl)
  have h := h.snoc (l := Sys.Label.send 1 1) ⟨by rintro _ ⟨⟩; rfl, trivial⟩
    (.send List.mem_cons_self rfl)
  have h := h.snoc (l := Sys.Label.receive 1 1 example_worker) ⟨by rintro _ ⟨⟩; rfl, trivial⟩
    (.receive rfl rfl rfl)
  have hmid := h.snoc (l := Sys.Label.work 1 .claim) ⟨by rintro _ ⟨⟩; rfl, trivial⟩
    (.work rfl (.claim rfl rfl))
  have h := (hmid.here (D := Sys.Spaced 1)).snoc (l := Sys.Label.work 1 .load)
    ⟨by rintro _ ⟨⟩; rfl, trivial⟩ (.work rfl (.load rfl rfl))
  have h := h.snoc (l := Sys.Label.work 1 .lookup) ⟨by rintro _ ⟨⟩; rfl, trivial⟩
    (.work rfl (.lookup rfl rfl))
  have h := h.snoc (l := Sys.Label.work 1 (.finish ⟨true, none, none⟩))
    ⟨by rintro _ ⟨⟩; rfl, trivial⟩ (.work rfl (.finish rfl rfl))
  have h := h.snoc (l := Sys.Label.accept (.cron 1))
    ⟨by rintro _ ⟨⟩; rfl, fun _ => ⟨fun T row hrow =>
      (show ∀ row ∈ _, row.job_id = 1 → row.status ≠ .pending by decide) row
        (Table.mem_of_get hrow), by decide⟩⟩ (.accept rfl)
  have h := h.snoc (l := Sys.Label.create _ 2)
    ⟨by rintro _ ⟨⟩; rfl, fun _ hc => absurd hc (by decide)⟩
    (.create List.mem_cons_self (by rintro ⟨⟩) rfl)
  have h := h.snoc (l := Sys.Label.send 2 2) ⟨by rintro _ ⟨⟩; rfl, trivial⟩
    (.send List.mem_cons_self rfl)
  have h := h.snoc (l := Sys.Label.receive 2 2 example_worker) ⟨by rintro _ ⟨⟩; rfl, trivial⟩
    (.receive rfl rfl rfl)
  have h := h.snoc (l := Sys.Label.work 2 .claim) ⟨by rintro _ ⟨⟩; rfl, trivial⟩
    (.work rfl (.claim rfl rfl))
  exact ⟨_, _, hmid, rfl, by decide, h, rfl, rfl,
    forbid_no_overlap example_env .empty 0 1 (hmid.trans h)⟩

/-- No row is reset: locks never expire. -/
def Sys.NoReset (_ : Sys) : Sys.Label → Prop
  | .recover _ .mark => False
  | _ => True

/-- Two tasks of a `forbid` job running, both made by an operation whose guards the job
passes while none of its tasks runs. -/
theorem two_running (origin : Origin) {trigger_type : TriggerType} (queue : QueueName)
    (haccept : ∀ jobs tasks, (jobs.get 1).map Job.id = some 1 →
      TaskRepository.count_running_for_job tasks 1 = 0 →
      origin.accept jobs tasks = some ⟨origin, 1, trigger_type, 0, queue⟩) :
    ∃ s, Run (Sys.Step example_env) Sys.NoReset (.start .empty 0) s ∧
      (s.jobs.get 1).map Job.concurrency_policy = some .forbid ∧
      TaskRepository.count_running_for_job s.store.tasks 1 = 2 ∧
      s.store.tasks.rows.map Task.trigger_type = [trigger_type, trigger_type] := by
  have h : Run (Sys.Step example_env) Sys.NoReset (.start .empty 0) (.start .empty 0) := .refl
  have h := h.snoc (l := Sys.Label.request (.create_job 1 example_forbid)) trivial
    (.request nofun rfl)
  have h := h.snoc (l := Sys.Label.accept origin) trivial (.accept (haccept _ _ rfl rfl))
  have h := h.snoc (l := Sys.Label.create _ 1) trivial
    (.create List.mem_cons_self (by rintro ⟨⟩) rfl)
  have h := h.snoc (l := Sys.Label.send 1 1) trivial (.send List.mem_cons_self rfl)
  have h := h.snoc (l := Sys.Label.tick (seconds 60)) trivial (.tick (by decide))
  have h := h.snoc (l := Sys.Label.accept origin) trivial (.accept (haccept _ _ rfl rfl))
  have h := h.snoc (l := Sys.Label.create _ 2) trivial
    (.create List.mem_cons_self (by rintro ⟨⟩) rfl)
  have h := h.snoc (l := Sys.Label.send 2 2) trivial (.send List.mem_cons_self rfl)
  have h := h.snoc (l := Sys.Label.receive 1 1 example_worker) trivial
    (.receive rfl rfl rfl)
  have h := h.snoc (l := Sys.Label.work 1 .claim) trivial (.work rfl (.claim rfl rfl))
  have h := h.snoc (l := Sys.Label.receive 2 2 example_worker) trivial
    (.receive rfl rfl rfl)
  have h := h.snoc (l := Sys.Label.work 2 .claim) trivial (.work rfl (.claim rfl rfl))
  exact ⟨_, h, rfl, rfl, rfl⟩

/-- Two tasks of a `forbid` job running, and none has been reset: started by hand twice, and
dispatched again before the first task was claimed. -/
theorem forbid_overlaps :
    (∃ s, Run (Sys.Step example_env) Sys.NoReset (.start .empty 0) s ∧
      (s.jobs.get 1).map Job.concurrency_policy = some .forbid ∧
      TaskRepository.count_running_for_job s.store.tasks 1 = 2 ∧
      s.store.tasks.rows.map Task.trigger_type = [.manual, .manual]) ∧
    ∃ s, Run (Sys.Step example_env) Sys.NoReset (.start .empty 0) s ∧
      (s.jobs.get 1).map Job.concurrency_policy = some .forbid ∧
      TaskRepository.count_running_for_job s.store.tasks 1 = 2 ∧
      s.store.tasks.rows.map Task.trigger_type = [.scheduled, .scheduled] := by
  refine ⟨two_running (.trigger 1) .normal fun jobs tasks hid _ => ?_,
    two_running (.cron 1) .scheduled fun jobs tasks hid hnone => ?_⟩
  · -- a manual start asks for the row alone
    obtain ⟨job, hjob, hjid⟩ := Option.map_eq_some_iff.mp hid
    show (jobs.get 1).map _ = _
    rw [hjob, Option.map_some, hjid]
  · -- the dispatch counts running tasks, and the first one still waits in the queue
    obtain ⟨job, hjob, hjid⟩ := Option.map_eq_some_iff.mp hid
    show (jobs.get 1).bind _ = _
    rw [hjob, Option.bind_some, hjid, if_neg fun h => h.2 hnone]

end Dass
