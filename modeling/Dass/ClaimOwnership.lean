/-
# `Dass.ClaimOwnership` — who may record a result

A claim is a conditional `UPDATE`, a result an unconditional one.  What keeps a
worker that lost its claim from recording a result is therefore nothing in the
result itself, only that its claim was not taken away while it was running; and
`recover_orphans` takes claims away by the clock.  `results_follow_claims` says
that this is the whole story: where no reset lands on a task whose handler is
still at work, every result belongs to the claim the row is under, and from
there that a task has one result and one automatic retry at most.
-/
import Dass.OrphanRecovery

namespace Dass

open Lts Orm

/-- The handler has a claim and has not recorded its result. -/
def HandlerPc.holding : HandlerPc → Bool
  | .claimed _ | .loaded _ | .unfound _ | .executing _ _ => true
  | _ => false

/-- A reset lands on a running row whose lock has run out. -/
def Sys.ResetsExpired (s : Sys) : Sys.Label → Prop
  | .recover p .mark => ∀ task rest seen, s.passes p = some (.marking (task :: rest) seen) →
      ∃ row, s.store.tasks.get task.id = some row ∧ TaskRepository.expired s.now row = true
  | _ => True

/-- No handler of the task a reset lands on is still at work. -/
def Sys.ResetsAbandoned (s : Sys) : Sys.Label → Prop
  | .recover p .mark => ∀ task rest seen, s.passes p = some (.marking (task :: rest) seen) →
      ∀ h hd, s.handlers h = some hd → hd.task_id = task.id → hd.pc.holding = false
  | _ => True

/-- A reset lands on an expired running row that nobody works on. -/
def Sys.Fenced (s : Sys) (l : Sys.Label) : Prop := s.ResetsExpired l ∧ s.ResetsAbandoned l

/-- The handler whose result the step records. -/
def Sys.Label.recordedBy : Sys.Label → Option HandlerId
  | .work h (.finish _) | .work h .not_found => some h
  | _ => none

/-! ## The invariant -/

/-- The task is running under a claim of `h`. -/
def Store.Held (st : Store) (h : HandlerId) (T : TaskId) : Prop :=
  st.status T = some .running ∧ currentClaim T st.log = some h

/-- What a handler relies on at each point. -/
def HandlerOk (st : Store) (h : HandlerId) (hd : Handler) : Prop :=
  match hd.pc with
  | .claimed _ => st.Held h hd.task_id
  | .loaded task | .unfound task | .executing task _ =>
      st.Held h hd.task_id ∧ task.id = hd.task_id ∧ task.status = .running
  | .failed task _ =>
      retries task.id st.log = [] ∧ ∃ c ∈ results task.id st.log, c.what = .finished h
  | _ => True

/-- What the log says about one task. -/
structure Once (st : Store) (T : TaskId) : Prop where
  result : (results T st.log).length ≤ 1
  ended : results T st.log ≠ [] → ∃ x, st.status T = some x ∧ x.terminal = true
  retried : retries T st.log ≠ [] → results T st.log ≠ []
  retry : (retries T st.log).length ≤ 1

structure FenceInv (st : Store) (handlers : HandlerId → Option Handler) : Prop where
  task : ∀ T, Once st T
  handler : ∀ h hd, handlers h = some hd → HandlerOk st h hd

theorem fenceInv_start (jobs : Table Job) (now : Int) :
    FenceInv (Sys.start jobs now).store (Sys.start jobs now).handlers where
  task _ := ⟨Nat.zero_le _, fun h => absurd rfl h, fun h => absurd rfl h, Nat.zero_le _⟩
  handler := by intro _ _ h; cases h

/-! ## What a write preserves -/

section Write

variable {st st' : Store} {id : TaskId} {what : What} {x : TaskStatus}

theorem Once.result_unique {T : TaskId} (h : Once st T) {c c' : Commit}
    (hc : c ∈ results T st.log) (hc' : c' ∈ results T st.log) : c = c' := by
  have hlen := h.result
  match hl : results T st.log with
  | [] => rw [hl] at hc; cases hc
  | [d] =>
      rw [hl, List.mem_singleton] at hc hc'
      rw [hc, hc']
  | _ :: _ :: _ => rw [hl] at hlen; simp at hlen

theorem Once.ended_of {T : TaskId} (h : Once st T) (hx : st.status T = some x)
    (hne : results T st.log ≠ []) : x.terminal = true := by
  obtain ⟨y, hy, hterm⟩ := h.ended hne
  rw [hx, Option.some.injEq] at hy
  exact hy ▸ hterm

theorem Once.no_results {T : TaskId} (h : Once st T) (hx : st.status T = some x)
    (hlive : x.terminal = false) : results T st.log = [] := by
  by_contra hne
  have hterm := h.ended_of hx hne
  rw [hlive] at hterm
  cases hterm

/-- A claim survives the writes to other tasks, and heartbeats. -/
theorem Store.Held.write {h : HandlerId} {T : TaskId} (hw : st.Wrote st' id what x)
    (hsame : id = T → x = .running ∧ (what = .extended ∨ what = .chained))
    (hh : st.Held h T) : st'.Held h T := by
  obtain ⟨c, hlog, hc, hwhat⟩ := hw.log
  by_cases hT : id = T
  · obtain ⟨rfl, hkept⟩ := hsame hT
    exact ⟨hT ▸ hw.self, by rw [hlog, currentClaim_kept (hwhat ▸ hkept)]; exact hh.2⟩
  · exact ⟨(hw.other hT).trans hh.1,
      by rw [hlog, currentClaim_other (hc ▸ hT)]; exact hh.2⟩

/-- What a handler relies on survives the writes that keep its claim and are not its retry. -/
theorem HandlerOk.write {h : HandlerId} {hd : Handler} (hw : st.Wrote st' id what x)
    (hclaim : hd.pc.holding = true → hd.task_id = id → st.Held h id →
      x = .running ∧ (what = .extended ∨ what = .chained))
    (hretry : ∀ task job, hd.pc = .failed task job → what ≠ .created (some task.id))
    (hok : HandlerOk st h hd) : HandlerOk st' h hd := by
  have hheld : hd.pc.holding = true → st.Held h hd.task_id → st'.Held h hd.task_id :=
    fun hpc hh => hh.write hw fun heq => hclaim hpc heq.symm (heq ▸ hh)
  obtain ⟨c, hlog, _, hwhat⟩ := hw.log
  unfold HandlerOk at hok ⊢
  split at hok
  · next hpc => exact hheld (by rw [hpc]; rfl) hok
  · next hpc => exact ⟨hheld (by rw [hpc]; rfl) hok.1, hok.2⟩
  · next hpc => exact ⟨hheld (by rw [hpc]; rfl) hok.1, hok.2⟩
  · next hpc => exact ⟨hheld (by rw [hpc]; rfl) hok.1, hok.2⟩
  · next task job hpc =>
      obtain ⟨hnone, r, hr, hrw⟩ := hok
      have hc : c.isRetry task.id = false := by
        simpa [Commit.isRetry, hwhat] using hretry task job hpc
      refine ⟨by rw [hlog, retries_cons, if_neg (by simp [hc])]; exact hnone, r, ?_, hrw⟩
      rw [hlog, results_cons]
      split
      · exact List.mem_cons_of_mem _ hr
      · exact hr
  · trivial

/-- Writes that are neither results nor retries keep the log's account of every task, if
they leave alone the tasks that have a result. -/
theorem Once.write (hw : st.Wrote st' id what x) (hres : ∀ h, what ≠ .finished h)
    (hret : ∀ T, what ≠ .created (some T)) (hover : results id st.log ≠ [] → x.terminal = true)
    {T : TaskId} (h : Once st T) : Once st' T := by
  obtain ⟨c, hlog, _, rfl⟩ := hw.log
  have hresults : results T st'.log = results T st.log := by
    rw [hlog, results_cons, if_neg]
    unfold Commit.isResult
    split
    · next heq => exact absurd heq (hres _)
    · exact Bool.false_ne_true
  have hretries : retries T st'.log = retries T st.log := by
    rw [hlog, retries_cons, if_neg (by simpa [Commit.isRetry] using hret T)]
  refine ⟨hresults ▸ h.result, fun hne => ?_, ?_, hretries ▸ h.retry⟩
  · rw [hresults] at hne
    by_cases hT : id = T
    · exact ⟨x, hT ▸ hw.self, hover (hT ▸ hne)⟩
    · rw [hw.other hT]
      exact h.ended hne
  · rw [hresults, hretries]
    exact h.retried

/-- The first result of a task. -/
theorem Once.finish {h : HandlerId} (hw : st.Wrote st' id (.finished h) x)
    (hlive : st.status id = some .running) (hterm : x.terminal = true) {T : TaskId}
    (hi : Once st T) : Once st' T := by
  obtain ⟨c, hlog, hc, hwhat⟩ := hw.log
  have hretries : retries T st'.log = retries T st.log := by
    rw [hlog, retries_cons, if_neg (by simp [Commit.isRetry, hwhat])]
  have hres : c.isResult T = decide (id = T) := by
    simp [Commit.isResult, hwhat, hc]
  have hresults : results T st'.log
      = if id = T then c :: results T st.log else results T st.log := by
    rw [hlog, results_cons, hres]
    simp
  by_cases hT : id = T
  · subst hT
    have hnone := hi.no_results hlive rfl
    rw [if_pos rfl, hnone] at hresults
    exact ⟨by rw [hresults]; exact le_rfl, fun _ => ⟨x, hw.self, hterm⟩,
      fun _ => by rw [hresults]; exact List.cons_ne_nil _ _, hretries ▸ hi.retry⟩
  · rw [if_neg hT] at hresults
    refine ⟨hresults ▸ hi.result, ?_, ?_, hretries ▸ hi.retry⟩
    · rw [hresults, hw.other hT]
      exact hi.ended
    · rw [hresults, hretries]
      exact hi.retried

/-- The first retry of a task that has its result. -/
theorem Once.retry_created {T₀ : TaskId} (hw : st.Wrote st' id (.created (some T₀)) x)
    (hnew : results id st.log = []) (hnone : retries T₀ st.log = [])
    (hdone : results T₀ st.log ≠ []) {T : TaskId} (hi : Once st T) : Once st' T := by
  obtain ⟨c, hlog, _, hwhat⟩ := hw.log
  have hresults : results T st'.log = results T st.log := by
    rw [hlog, results_cons, if_neg (by simp [Commit.isResult, hwhat])]
  have hret : c.isRetry T = decide (T₀ = T) := by simp [Commit.isRetry, hwhat]
  have hretries : retries T st'.log
      = if T₀ = T then c :: retries T st.log else retries T st.log := by
    rw [hlog, retries_cons, hret]
    simp
  refine ⟨hresults ▸ hi.result, fun hne => ?_, fun hne => ?_, ?_⟩
  · rw [hresults] at hne
    by_cases hT : id = T
    · exact absurd hnew (hT ▸ hne)
    · rw [hw.other hT]
      exact hi.ended hne
  · rw [hresults]
    by_cases hT : T₀ = T
    · exact hT ▸ hdone
    · rw [hretries, if_neg hT] at hne
      exact hi.retried hne
  · by_cases hT : T₀ = T
    · subst hT
      rw [hretries, if_pos rfl, hnone]
      exact le_rfl
    · rw [hretries, if_neg hT]
      exact hi.retry

end Write

/-- Nothing is recorded for a task that was never written. -/
theorem results_eq_nil {T : TaskId} {log : List Commit} (h : ∀ c ∈ log, c.task ≠ T) :
    results T log = [] := by
  refine List.filter_eq_nil_iff.mpr fun c hc => ?_
  unfold Commit.isResult
  split
  · exact fun heq => h c hc (of_decide_eq_true heq)
  · exact Bool.false_ne_true

/-! ## The step lemma -/

/-- A handler moves without writing. -/
theorem FenceInv.move {st : Store} {handlers : HandlerId → Option Handler} {h : HandlerId}
    {hd : Handler} (hi : FenceInv st handlers) (hok : HandlerOk st h hd) :
    FenceInv st (Function.update handlers h (some hd)) := by
  refine ⟨hi.task, fun h' hd' hh => ?_⟩
  rw [Function.update_apply] at hh
  split at hh
  · next heq => cases hh; exact heq ▸ hok
  · exact hi.handler h' hd' hh

/-- A write that takes no claim away and makes no retry. -/
theorem FenceInv.write {st st' : Store} {handlers : HandlerId → Option Handler} {id : TaskId}
    {what : What} {x : TaskStatus} (hi : FenceInv st handlers) (hw : st.Wrote st' id what x)
    (hres : ∀ h, what ≠ .finished h) (hret : ∀ T, what ≠ .created (some T))
    (hover : results id st.log ≠ [] → x.terminal = true)
    (hclaim : ∀ h hd, handlers h = some hd → hd.pc.holding = true → hd.task_id = id →
      st.Held h id → x = .running ∧ (what = .extended ∨ what = .chained)) :
    FenceInv st' handlers where
  task T := (hi.task T).write hw hres hret hover
  handler h hd hh := (hi.handler h hd hh).write hw (hclaim h hd hh) fun _ _ _ => hret _

/-- A handler's own write: what the others rely on survives it. -/
theorem FenceInv.work {st st' : Store} {handlers : HandlerId → Option Handler} {h : HandlerId}
    {hd : Handler} {id : TaskId} {what : What} {x : TaskStatus} (hi : FenceInv st handlers)
    (hw : st.Wrote st' id what x) (htask : ∀ T, Once st T → Once st' T)
    (hclaim : ∀ h', h' ≠ h → st.Held h' id →
      x = .running ∧ (what = .extended ∨ what = .chained))
    (hretry : ∀ h' hd' task job, h' ≠ h → handlers h' = some hd' → hd'.pc = .failed task job →
      what ≠ .created (some task.id))
    (hok : HandlerOk st' h hd) : FenceInv st' (Function.update handlers h (some hd)) := by
  refine ⟨fun T => htask T (hi.task T), fun h' hd' hh => ?_⟩
  rw [Function.update_apply] at hh
  split at hh
  · next heq => cases hh; exact heq ▸ hok
  · next hne =>
      exact (hi.handler h' hd' hh).write hw (fun _ _ => hclaim h' hne)
        fun task job => hretry h' hd' task job hne hh

/-- The result a handler records for the task it holds. -/
theorem fenceInv_result {st st' : Store} {handlers : HandlerId → Option Handler} {h : HandlerId}
    {hd hd' : Handler} {task assigned : Task} (hi : FenceInv st handlers)
    (hok : st.Held h hd.task_id ∧ task.id = hd.task_id ∧ task.status = .running)
    (hterm : assigned.status.terminal = true)
    (hflush : st.flush (.finished h) task assigned = some st')
    (hpc : hd'.pc = .done ∨ ∃ job, hd'.pc = .failed task job) :
    FenceInv st' (Function.update handlers h (some hd')) := by
  obtain ⟨hheld, hid, hrunning⟩ := hok
  obtain ⟨x, _, hw⟩ := Store.wrote_flush hflush
  have hlive : st.status task.id = some .running := hid ▸ hheld.1
  -- the row was loaded running, so the status is among the columns sent
  have hsent : emit task.status assigned.status x = assigned.status := by
    refine emit_dirty fun heq => ?_
    rw [heq, hrunning] at hterm
    cases hterm
  rw [hsent] at hw
  refine hi.work hw (fun T hT => hT.finish hw hlive hterm) (fun h' hne hother => ?_)
    (by rintro _ _ _ _ _ _ _ ⟨⟩) ?_
  · have heq := hother.2
    rw [hid, hheld.2, Option.some.injEq] at heq
    exact absurd heq.symm hne
  · rcases hpc with hpc | ⟨job, hpc⟩
    · unfold HandlerOk
      rw [hpc]
      trivial
    · obtain ⟨c, hlog, hc, hwhat⟩ := hw.log
      have hnone := (hi.task task.id).no_results hlive rfl
      unfold HandlerOk
      rw [hpc]
      refine ⟨?_, c, ?_, hwhat⟩
      · rw [hlog, retries_cons, if_neg (by simp [Commit.isRetry, hwhat])]
        by_contra hne
        exact (hi.task task.id).retried hne hnone
      · rw [hlog, results_cons, if_pos (by simp [Commit.isResult, hwhat, hc])]
        exact List.mem_cons_self

/-- What a handler does to the invariant. -/
theorem fenceInv_work {now : Int} {jobs : Table Job} {st st' : Store}
    {handlers : HandlerId → Option Handler} {h : HandlerId} {hd hd' : Handler} {a : WorkerAct}
    (hi : FenceInv st handlers) (hh : handlers h = some hd)
    (hstep : WorkStep now jobs h st hd a st' hd') :
    FenceInv st' (Function.update handlers h (some hd')) := by
  have hok := hi.handler h hd hh
  unfold HandlerOk at hok
  cases hstep with
  | claim hpc hclaim =>
      obtain ⟨hpending, hw⟩ := Store.wrote_claim hclaim
      have hnone := (hi.task hd.task_id).no_results hpending rfl
      have hres : ∀ h', What.claimed h ≠ .finished h' := by rintro _ ⟨⟩
      have hret : ∀ T, What.claimed h ≠ .created (some T) := by rintro _ ⟨⟩
      refine hi.work hw (fun T => Once.write hw hres hret fun hne => absurd hnone hne)
        (fun h' _ hheld => ?_) (fun _ _ task _ _ _ _ => hret task.id) ?_
      · rw [hheld.1] at hpending
        cases hpending
      · obtain ⟨c, hlog, hc, hwhat⟩ := hw.log
        exact ⟨hw.self, by rw [hlog, currentClaim_claimed hc hwhat]⟩
  | claim_lost hpc _ => exact hi.move trivial
  | load hpc hget =>
      rw [hpc] at hok
      have hstatus := Store.status_of_get hget
      rw [hok.1, Option.some.injEq] at hstatus
      exact hi.move ⟨hok, Table.key_of_get hget, hstatus.symm⟩
  | load_none hpc _ => exact hi.move trivial
  | @check n hpc =>
      refine hi.move ?_
      unfold HandlerOk
      rcases after_check_cases (st.tasks.get hd.task_id) n with ⟨_, hnext⟩ | hnext <;>
        (simp only [hnext])
  | recheck hpc =>
      refine hi.move ?_
      unfold HandlerOk
      cases deletable (st.tasks.get hd.task_id) <;> trivial
  | lookup hpc _ =>
      rw [hpc] at hok
      exact hi.move hok
  | lookup_none hpc _ =>
      rw [hpc] at hok
      exact hi.move hok
  | @heartbeat task _ _ hpc hbeat =>
      obtain ⟨x, hx, hw⟩ := Store.wrote_heartbeat hbeat
      have hkeep : ∀ h', st.Held h' task.id →
          x = .running ∧ (What.extended = .extended ∨ What.extended = .chained) := by
        intro h' hheld
        rw [hheld.1, Option.some.injEq] at hx
        exact ⟨hx.symm, .inl rfl⟩
      have hres : ∀ h', What.extended ≠ .finished h' := by rintro _ ⟨⟩
      have hret : ∀ T, What.extended ≠ .created (some T) := by rintro _ ⟨⟩
      refine hi.work hw (fun T hT => hT.write hw hres hret ((hi.task _).ended_of hx))
        (fun h' _ => hkeep h') (fun _ _ task _ _ _ _ => hret task.id) ?_
      exact (hi.handler h hd hh).write hw (fun _ _ => hkeep h) fun task _ _ => hret task.id
  | finish hpc hflush =>
      rw [hpc] at hok
      refine fenceInv_result hi hok (recorded_terminal _ _ _ _) hflush ?_
      dsimp only
      split
      · exact .inr ⟨_, rfl⟩
      · exact .inl rfl
  | not_found hpc hflush =>
      rw [hpc] at hok
      exact fenceInv_result hi hok rfl hflush (.inl rfl)
  | @retry task job id _ hpc _ hcreate =>
      rw [hpc] at hok
      obtain ⟨hnone, r, hr, hrw⟩ := hok
      obtain ⟨hnew, hfresh, hw⟩ := Store.wrote_create hcreate
      refine hi.work hw
        (fun T hT => hT.retry_created hw (results_eq_nil hfresh) hnone (List.ne_nil_of_mem hr))
        (fun h' _ hheld => ?_) (fun h' hd' task' job' hne hh' hpc' heq => hne ?_) trivial
      · rw [hheld.1] at hnew
        cases hnew
      · -- two handlers that owe the same task a retry recorded the same result
        have hok' := hi.handler h' hd' hh'
        unfold HandlerOk at hok'
        rw [hpc'] at hok'
        obtain ⟨_, r', hr', hrw'⟩ := hok'
        injection heq with heq
        injection heq with heq
        rw [← heq] at hr'
        obtain rfl := (hi.task task.id).result_unique hr hr'
        rw [hrw] at hrw'
        injection hrw' with hrw'
        exact hrw'.symm
  | fail => exact hi.move trivial

/-- **The step lemma.** -/
theorem fenceInv_step {env : Env} {s s' : Sys} {l : Sys.Label}
    (hi : FenceInv s.store s.handlers) (hl : s.Fenced l) (h : Sys.Step env s l s') :
    FenceInv s'.store s'.handlers := by
  cases h with
  | tick | request | accept | send | abandon | lose => exact hi
  | create _ _ hcreate =>
      obtain ⟨hnew, hfresh, hw⟩ := Store.wrote_create hcreate
      refine hi.write hw (by rintro _ ⟨⟩) (by rintro _ ⟨⟩)
        (fun hne => absurd (results_eq_nil hfresh) hne) fun h hd _ _ _ hheld => ?_
      rw [hheld.1] at hnew
      cases hnew
  | receive | resend | delete => exact hi.move trivial
  | work hh hstep => exact fenceInv_work hi hh hstep
  | @recover p a st' r' hstep =>
      generalize hp : s.passes p = r at hstep
      cases hstep with
      | begin | list | finish => exact hi
      | @mark task rest seen _ hflush =>
          obtain ⟨row, hrow, hexp⟩ := hl.1 task rest seen hp
          have hstatus := Store.status_of_get hrow
          have hrunning : row.status = .running := by
            simp only [TaskRepository.expired, decide_eq_true_eq] at hexp
            exact hexp.1
          obtain ⟨x, hx, hw⟩ := Store.wrote_flush hflush
          have hnone := (hi.task task.id).no_results hstatus (by rw [hrunning]; rfl)
          refine hi.write hw (by rintro _ ⟨⟩) (by rintro _ ⟨⟩) (fun hne => absurd hnone hne)
            fun h hd hh hpc hid => ?_
          rw [hl.2 task rest seen hp h hd hh hid] at hpc
          cases hpc
  | chain _ _ hflush =>
      obtain ⟨x, hx, hw⟩ := Store.wrote_flush hflush
      rw [Task.mark_processed_for_chaining, emit_clean] at hw
      refine hi.write hw (by rintro _ ⟨⟩) (by rintro _ ⟨⟩) ((hi.task _).ended_of hx)
        fun h hd _ _ _ hheld => ?_
      rw [hheld.1, Option.some.injEq] at hx
      exact ⟨hx.symm, .inr rfl⟩

theorem fenceInv_run {env : Env} {jobs : Table Job} {now : Int} {s : Sys}
    (h : Run (Sys.Step env) Sys.Fenced (.start jobs now) s) : FenceInv s.store s.handlers :=
  h.invariant (I := fun s => FenceInv s.store s.handlers)
    (fun hi hl hst => fenceInv_step hi hl hst) (fenceInv_start jobs now)

/-! ## Results -/

/-- A result is recorded for the task the handler holds, and no other row is touched. -/
theorem recorded_held {env : Env} {s s' : Sys} {l : Sys.Label} {h : HandlerId} {T : TaskId}
    (hi : FenceInv s.store s.handlers) (hst : Sys.Step env s l s')
    (hl : l.recordedBy = some h) (hT : s'.store.tasks.get T ≠ s.store.tasks.get T) :
    s.store.Held h T := by
  cases hst with
  | @work h' hd a st' hd' hh hstep =>
      have hok := hi.handler h' hd hh
      unfold HandlerOk at hok
      have key : ∀ task assigned, s.store.flush (.finished h') task assigned = some st' →
          task.id = hd.task_id → s.store.Held h' hd.task_id → s.store.Held h' T := by
        intro task assigned hflush hid hheld
        obtain ⟨_, _, _, hget⟩ := Store.flush_spec hflush
        by_cases hTid : task.id = T
        · exact hTid ▸ hid ▸ hheld
        · exact absurd ((hget T).trans (if_neg hTid)) hT
      cases hstep with
      | finish hpc hflush =>
          cases hl
          rw [hpc] at hok
          exact key _ _ hflush hok.2.1 hok.1
      | not_found hpc hflush =>
          cases hl
          rw [hpc] at hok
          exact key _ _ hflush hok.2.1 hok.1
      | _ => cases hl
  | _ => cases hl

/-- No step of a worker takes a task out of a terminal status. -/
theorem terminal_kept {env : Env} {s s' : Sys} {h : HandlerId} {a : WorkerAct} {T : TaskId}
    {x : TaskStatus} (hi : FenceInv s.store s.handlers)
    (hst : Sys.Step env s (.work h a) s') (hx : s.store.status T = some x)
    (hterm : x.terminal = true) : s'.store.status T = some x := by
  cases hst with
  | @work _ hd _ st' hd' hh hstep =>
      have hok := hi.handler h hd hh
      unfold HandlerOk at hok
      -- a write that starts from another status is a write to another task
      have other : ∀ {id what y z}, s.store.Wrote st' id what z → s.store.status id = y →
          y ≠ some x → st'.status T = some x := by
        intro id what y z hw hy hne
        rw [hw.other fun heq => hne (by rw [← hy, heq, hx]), hx]
      cases hstep with
      | claim_lost | load | load_none | check | recheck | lookup | lookup_none | fail => exact hx
      | claim _ hclaim =>
          obtain ⟨hpending, hw⟩ := Store.wrote_claim hclaim
          exact other hw hpending fun heq => by cases heq; cases hterm
      | heartbeat _ hbeat =>
          obtain ⟨y, hy, hw⟩ := Store.wrote_heartbeat hbeat
          rw [hw.status]
          split
          · next heq => rw [← hy, heq, hx]
          · exact hx
      | finish hpc hflush | not_found hpc hflush =>
          rw [hpc] at hok
          obtain ⟨_, _, hw⟩ := Store.wrote_flush hflush
          exact other hw (hok.2.1 ▸ hok.1.1) fun heq => by cases heq; cases hterm
      | retry _ _ hcreate =>
          obtain ⟨hnew, _, hw⟩ := Store.wrote_create hcreate
          exact other hw hnew nofun

/-! ## A reset that lands on a task somebody works on -/

/-- A handler records a result on a task that is pending again. -/
def Sys.RecordsOnPending (env : Env) (s : Sys) (h : HandlerId) (T : TaskId) : Prop :=
  s.store.status T = some .pending ∧ ∃ l s', Sys.Step env s l s' ∧ l.recordedBy = some h ∧
    s'.store.tasks.get T ≠ s.store.tasks.get T

/-- The result goes through whatever the row holds, and changes it. -/
theorem flush_changes {st : Store} {task assigned : Task} (what : What)
    (hrow : st.status task.id = some .pending) (hlive : task.status.terminal = false)
    (hterm : assigned.status.terminal = true) :
    ∃ st', st.flush what task assigned = some st' ∧
      st'.tasks.get task.id ≠ st.tasks.get task.id := by
  obtain ⟨st', hflush⟩ := Store.exists_flush hrow what assigned
  obtain ⟨x, hx, hw⟩ := Store.wrote_flush hflush
  refine ⟨st', hflush, fun heq => ?_⟩
  have hsame : st'.status task.id = st.status task.id := congrArg (Option.map Task.status) heq
  rw [hw.self, hrow, Option.some.injEq, emit_dirty fun hs => ?_] at hsame
  · rw [hsame] at hterm
    cases hterm
  · rw [hs, hlive] at hterm
    cases hterm

theorem recordsOnPending_of_executing {env : Env} {s : Sys} {h : HandlerId} {hd : Handler}
    {task : Task} {job : Job} (hh : s.handlers h = some hd) (hpc : hd.pc = .executing task job)
    (hlive : task.status.terminal = false) (hrow : s.store.status task.id = some .pending) :
    s.RecordsOnPending env h task.id := by
  obtain ⟨st', hflush, hne⟩ := flush_changes (.finished h) hrow hlive
    (recorded_terminal task job ⟨true, none, none⟩ s.now)
  exact ⟨hrow, _, _, .work hh (.finish hpc hflush), rfl, hne⟩

theorem recordsOnPending_of_unfound {env : Env} {s : Sys} {h : HandlerId} {hd : Handler}
    {task : Task} (hh : s.handlers h = some hd) (hpc : hd.pc = .unfound task)
    (hlive : task.status.terminal = false) (hrow : s.store.status task.id = some .pending) :
    s.RecordsOnPending env h task.id := by
  have hterm : (recorded_not_found task s.now).status.terminal = true := rfl
  obtain ⟨st', hflush, hne⟩ := flush_changes (.finished h) hrow hlive hterm
  exact ⟨hrow, _, _, .work hh (.not_found hpc hflush), rfl, hne⟩

theorem recordsOnPending_of_loaded (env : Env) {s : Sys} {h : HandlerId} {hd : Handler}
    {task : Task} (hh : s.handlers h = some hd) (hpc : hd.pc = .loaded task)
    (hlive : task.status.terminal = false) (hrow : s.store.status task.id = some .pending) :
    ∃ t, Run (Sys.Step env) Any s t ∧ t.RecordsOnPending env h task.id := by
  cases hjob : s.jobs.get task.job_id with
  | some job =>
      exact ⟨_, .single trivial (.work hh (.lookup hpc hjob)),
        recordsOnPending_of_executing (Function.update_self _ _ _) rfl hlive hrow⟩
  | none =>
      exact ⟨_, .single trivial (.work hh (.lookup_none hpc hjob)),
        recordsOnPending_of_unfound (Function.update_self _ _ _) rfl hlive hrow⟩

/-- Whatever point the handler has reached, it goes on to record its result. -/
theorem recordsOnPending_of_holding (env : Env) {s : Sys} {st₀ : Store} {h : HandlerId}
    {hd : Handler} (hh : s.handlers h = some hd) (hok : HandlerOk st₀ h hd)
    (hpc : hd.pc.holding = true) (hrow : s.store.status hd.task_id = some .pending) :
    ∃ t, Run (Sys.Step env) Any s t ∧ t.RecordsOnPending env h hd.task_id := by
  have hlive : ∀ {task : Task}, task.status = .running → task.status.terminal = false :=
    fun hs => by rw [hs]; rfl
  unfold HandlerOk at hok
  cases hp : hd.pc with
  | claimed n =>
      obtain ⟨row, hget, hstatus⟩ := Option.map_eq_some_iff.mp hrow
      have hid : row.id = hd.task_id := Table.key_of_get hget
      let loaded := Function.update s.handlers h (some { hd with pc := .loaded row })
      have hload : Sys.Step env s (.work h .load) { s with handlers := loaded } :=
        .work hh (.load hp hget)
      obtain ⟨t, ht, hrec⟩ := recordsOnPending_of_loaded env
        (s := { s with handlers := loaded }) (Function.update_self _ _ _) rfl
        (by rw [hstatus]; rfl) (hid ▸ hrow)
      exact ⟨t, (Run.single trivial hload).trans ht, hid ▸ hrec⟩
  | loaded task =>
      rw [hp] at hok
      rw [← hok.2.1] at hrow ⊢
      exact recordsOnPending_of_loaded env hh hp (hlive hok.2.2) hrow
  | unfound task =>
      rw [hp] at hok
      rw [← hok.2.1] at hrow ⊢
      exact ⟨s, .refl, recordsOnPending_of_unfound hh hp (hlive hok.2.2) hrow⟩
  | executing task job =>
      rw [hp] at hok
      rw [← hok.2.1] at hrow ⊢
      exact ⟨s, .refl, recordsOnPending_of_executing hh hp (hlive hok.2.2) hrow⟩
  | _ => rw [hp] at hpc; cases hpc

/-- **Results follow claims exactly as long as resets are fenced.**  In every run whose
resets land on expired running rows that nobody works on, a result is recorded only for a
running task under that very handler's claim; no worker takes a task out of a terminal
status; and a task has at most one result and at most one automatic retry.  A reset that
lands on an expired row somebody does work on lets that handler record its result on the
pending row. -/
theorem results_follow_claims (env : Env) (jobs : Table Job) (now : Int) {s : Sys}
    (hrun : Run (Sys.Step env) Sys.Fenced (.start jobs now) s) :
    (∀ s' l h T, Sys.Step env s l s' → l.recordedBy = some h →
      s'.store.tasks.get T ≠ s.store.tasks.get T →
      s.store.status T = some .running ∧ currentClaim T s.store.log = some h) ∧
    (∀ s' h a T x, Sys.Step env s (.work h a) s' → s.store.status T = some x →
      x.terminal = true → s'.store.status T = some x) ∧
    (∀ T, (results T s.store.log).length ≤ 1) ∧
    (∀ T, (retries T s.store.log).length ≤ 1) ∧
    ∀ s' p, Sys.Step env s (.recover p .mark) s' → ¬ s.ResetsAbandoned (.recover p .mark) →
      ∃ t h T, Run (Sys.Step env) Any s' t ∧ t.RecordsOnPending env h T := by
  have hi := fenceInv_run hrun
  refine ⟨fun s' l h T hst hl hT => recorded_held hi hst hl hT,
    fun s' h a T x hst hx hterm => terminal_kept hi hst hx hterm,
    fun T => (hi.task T).result, fun T => (hi.task T).retry, fun s' p hst hnot => ?_⟩
  simp only [Sys.ResetsAbandoned, not_forall, Bool.not_eq_false] at hnot
  obtain ⟨task, rest, seen, hpass, h, hd, hh, hid, hpc⟩ := hnot
  have hpending := (mark_pending (recoveryInv_run hrun) hpass hst).1
  have hh' : s'.handlers h = some hd := by cases hst; exact hh
  obtain ⟨t, ht, hrec⟩ := recordsOnPending_of_holding env hh' (hi.handler h hd hh) hpc
    (hid ▸ hpending)
  exact ⟨t, h, _, ht, hrec⟩

/-- A worker claims a task and stops.  Its lock runs out, the task is reset, and another
worker claims it and records its result. -/
theorem results_follow_claims_once : ∃ s s',
    Run (Sys.Step example_env) Sys.Fenced (.start .empty 0) s ∧
    (s.store.log.countP fun c => c.what = .reset) = 1 ∧
    Sys.Step example_env s (.work 2 (.finish ⟨true, none, none⟩)) s' ∧
    s.store.status 1 = some .running ∧ currentClaim 1 s.store.log = some 2 := by
  have h : Run (Sys.Step example_env) Sys.Fenced (.start .empty 0) (.start .empty 0) := .refl
  have h := h.snoc (l := Sys.Label.request (.create_job 1 example_one_time)) ⟨trivial, trivial⟩
    (.request nofun rfl)
  have h := h.snoc (l := Sys.Label.accept (.one_time 1)) ⟨trivial, trivial⟩ (.accept rfl)
  have h := h.snoc (l := Sys.Label.create _ 1) ⟨trivial, trivial⟩
    (.create List.mem_cons_self (by decide) rfl)
  have h := h.snoc (l := Sys.Label.send 1 1) ⟨trivial, trivial⟩ (.send List.mem_cons_self rfl)
  have h := h.snoc (l := Sys.Label.receive 1 1 example_worker) ⟨trivial, trivial⟩
    (.receive rfl rfl rfl)
  have h := h.snoc (l := Sys.Label.work 1 .claim) ⟨trivial, trivial⟩ (.work rfl (.claim rfl rfl))
  have h := h.snoc (l := Sys.Label.work 1 .load) ⟨trivial, trivial⟩ (.work rfl (.load rfl rfl))
  have h := h.snoc (l := Sys.Label.work 1 .lookup) ⟨trivial, trivial⟩
    (.work rfl (.lookup rfl rfl))
  have h := h.snoc (l := Sys.Label.work 1 .fail) ⟨trivial, trivial⟩ (.work rfl .fail)
  have h := h.snoc (l := Sys.Label.tick (seconds 31)) ⟨trivial, trivial⟩ (.tick (by decide))
  have h := h.snoc (l := Sys.Label.recover 1 .begin) ⟨trivial, trivial⟩ (.recover .begin)
  have h := h.snoc (l := Sys.Label.recover 1 (.list 2)) ⟨trivial, trivial⟩
    (.recover (.list (by decide) (.refl _)))
  have h := h.snoc (l := Sys.Label.recover 1 .mark)
    ⟨by rintro task rest seen hp; cases hp; exact ⟨_, rfl, by decide⟩,
      by
        rintro task rest seen hp k hd hh _
        by_cases hk : k = 1
        · subst hk
          cases hh
          rfl
        · exact absurd hh (by simp [Function.update_of_ne hk, Sys.start])⟩
    (.recover (.mark rfl))
  have h := h.snoc (l := Sys.Label.receive 1 2 ⟨"worker-2", 30⟩) ⟨trivial, trivial⟩
    (.receive rfl rfl rfl)
  have h := h.snoc (l := Sys.Label.work 2 .claim) ⟨trivial, trivial⟩ (.work rfl (.claim rfl rfl))
  have h := h.snoc (l := Sys.Label.work 2 .load) ⟨trivial, trivial⟩ (.work rfl (.load rfl rfl))
  have h := h.snoc (l := Sys.Label.work 2 .lookup) ⟨trivial, trivial⟩
    (.work rfl (.lookup rfl rfl))
  have hstep := (results_follow_claims example_env .empty 0 h).1 _
    (.work 2 (.finish ⟨true, none, none⟩)) 2 1 (.work rfl (.finish rfl rfl)) rfl (by decide)
  exact ⟨_, _, h, by decide, .work rfl (.finish rfl rfl), hstep⟩

/-- A worker's lock runs out while its container runs; the task is reset and claimed by
another handler, and then the first one records its result under the second one's claim. -/
theorem result_under_foreign_claim : ∃ s s',
    Run (Sys.Step example_env) Sys.ResetsExpired (.start .empty 0) s ∧
    Sys.Step example_env s (.work 1 (.finish ⟨true, none, none⟩)) s' ∧
    currentClaim 1 s.store.log = some 2 ∧
    s.store.status 1 = some .running ∧ s'.store.status 1 = some .success := by
  have h : Run (Sys.Step example_env) Sys.ResetsExpired (.start .empty 0) (.start .empty 0) :=
    .refl
  have h := h.snoc (l := Sys.Label.request (.create_job 1 example_one_time)) trivial
    (.request nofun rfl)
  have h := h.snoc (l := Sys.Label.accept (.one_time 1)) trivial (.accept rfl)
  have h := h.snoc (l := Sys.Label.create _ 1) trivial
    (.create List.mem_cons_self (by decide) rfl)
  have h := h.snoc (l := Sys.Label.send 1 1) trivial (.send List.mem_cons_self rfl)
  have h := h.snoc (l := Sys.Label.receive 1 1 example_worker) trivial
    (.receive rfl rfl rfl)
  have h := h.snoc (l := Sys.Label.work 1 .claim) trivial (.work rfl (.claim rfl rfl))
  have h := h.snoc (l := Sys.Label.work 1 .load) trivial (.work rfl (.load rfl rfl))
  have h := h.snoc (l := Sys.Label.work 1 .lookup) trivial (.work rfl (.lookup rfl rfl))
  have h := h.snoc (l := Sys.Label.tick (seconds 31)) trivial (.tick (by decide))
  have h := h.snoc (l := Sys.Label.recover 1 .begin) trivial (.recover .begin)
  have h := h.snoc (l := Sys.Label.recover 1 (.list 2)) trivial
    (.recover (.list (by decide) (.refl _)))
  have h := h.snoc (l := Sys.Label.recover 1 .mark)
    (by rintro task rest seen hp; cases hp; exact ⟨_, rfl, by decide⟩) (.recover (.mark rfl))
  have h := h.snoc (l := Sys.Label.receive 1 2 ⟨"worker-2", 30⟩) trivial
    (.receive rfl rfl rfl)
  have h := h.snoc (l := Sys.Label.work 2 .claim) trivial (.work rfl (.claim rfl rfl))
  exact ⟨_, _, h, .work rfl (.finish rfl rfl), by decide, by decide, by decide⟩

end Dass
