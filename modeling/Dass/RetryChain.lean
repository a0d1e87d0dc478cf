/-
# `Dass.RetryChain` — the attempts of a task, one after the other

A handler that records `failed` makes one retry task, with one more on its
`retry_count`, and so on until a success or until `max_retries` is reached.  From a task
its automatic retries therefore make a chain (`Store.Attempts`), and while the job's
`max_retries` stays as it is, the chain has an end: `m - r + 1` attempts from a task that
starts at `r`, or fewer (`retries_are_linear`).  A task that is retried by hand may start
above `m`, and then it is its own last attempt.

What is asked of a run is that the retries are made and no reset takes a task from its
handler (`Sys.Handles`); a run without faults meets that (`handles_of_faultFree`).
-/
import Dass.FailureHandling

namespace Dass

open Lts

/-- The tasks that arise from a task by automatic retry, itself first.  `retries` are the
retry tasks that workers have made for it. -/
inductive Store.Attempts (st : Store) : TaskId → List Task → Prop
  | last {T row} : st.tasks.get T = some row → retries T st.log = [] → st.Attempts T [row]
  | next {T row c rest} : st.tasks.get T = some row → retries T st.log = [c] →
      st.Attempts c.task rest → st.Attempts T (row :: rest)

/-- No handler stops or raises, and no task is taken back. -/
def Sys.Label.FaultFree : Sys.Label → Prop
  | .work _ .fail | .recover _ _ => False
  | _ => True

/-- The retries of the job are `m`, and they are made. -/
def Sys.Bounded (j : JobId) (m : Nat) (s : Sys) (l : Sys.Label) : Prop :=
  s.Handles l ∧ ∀ job, s.jobs.get j = some job → job.max_retries = m

/-- A run without faults is one in which the retries are made. -/
theorem handles_of_faultFree {s : Sys} {l : Sys.Label} (h : l.FaultFree) : s.Handles l := by
  cases l with
  | work i a =>
      cases a with
      | fail => exact h.elim
      | _ => exact ⟨⟨trivial, trivial⟩, trivial⟩
  | recover => exact h.elim
  | _ => exact ⟨⟨trivial, trivial⟩, trivial⟩

/-! ## The invariant -/

/-- What is known of the tasks of a job whose `max_retries` is `m`. -/
structure RetryInv (j : JobId) (m : Nat) (s : Sys) : Prop where
  read : ∀ h hd task job, s.handlers h = some hd → hd.pc = .executing task job → job.id = j →
    job.max_retries = m
  failed : ∀ T row, s.store.tasks.get T = some row → row.job_id = j → row.status = .failed →
    row.retry_count < m
  gave_up : ∀ T row, s.store.tasks.get T = some row → row.job_id = j →
    row.status = .final_failed → m ≤ row.retry_count
  retried : ∀ T, retries T s.store.log ≠ [] →
    s.store.status T = some .failed ∧ ∃ id, s.store.Made T id

theorem retryInv_start (j : JobId) (m : Nat) (jobs : Table Job) (now : Int) :
    RetryInv j m (.start jobs now) where
  read := by intro _ _ _ _ h; cases h
  failed := by intro _ _ h; cases h
  gave_up := by intro _ _ h; cases h
  retried := by intro _ h; exact absurd rfl h

section Step

variable {env : Env} {s₀ s s' : Sys} {l : Sys.Label} {j : JobId} {m : Nat}

/-- A handler that is at work was, or has just looked its job up. -/
theorem executing_before (h : Sys.Step env s l s') {i : HandlerId} {hd : Handler} {task : Task}
    {job : Job} (hh : s'.handlers i = some hd) (hpc : hd.pc = .executing task job) :
    (∃ hd₀, s.handlers i = some hd₀ ∧ hd₀.pc = .executing task job) ∨
      s.jobs.get job.id = some job := by
  cases h with
  | receive | resend | delete =>
      rcases entries_update hh with ⟨_, rfl⟩ | hh
      · cases hpc
      · exact .inl ⟨hd, hh, hpc⟩
  | @work i₀ hd₀ _ _ _ hh₀ hstep =>
      rcases entries_update hh with ⟨rfl, rfl⟩ | hh
      · cases hstep with
        | @check n =>
            have hnext : after_check (s.store.tasks.get hd₀.task_id) n = .executing task job := hpc
            rcases after_check_cases (s.store.tasks.get hd₀.task_id) n with ⟨_, heq⟩ | heq <;>
              · rw [heq] at hnext
                cases hnext
        | recheck =>
            dsimp only at hpc
            split at hpc <;> cases hpc
        | lookup _ hjob =>
            cases hpc
            have hid := Table.key_of_get hjob
            rw [key_job] at hid
            exact .inr (hid ▸ hjob)
        | heartbeat => exact .inl ⟨_, hh₀, hpc⟩
        | finish =>
            dsimp only at hpc
            split at hpc <;> cases hpc
        | _ => cases hpc
      · exact .inl ⟨hd, hh, hpc⟩
  | _ => exact .inl ⟨hd, hh, hpc⟩

/-- A retry task is made for a task that is failed. -/
theorem retried_step (hi : FailureInv env s₀ s) (hr : RetryInv j m s) (hl : s.Fenced l)
    (h : Sys.Step env s l s') {T : TaskId} (hT : retries T s'.store.log ≠ []) :
    s'.store.status T = some .failed ∧ ∃ id, s'.store.Made T id := by
  rcases retries_step h T with hret | ⟨i, hd, task, job, id, rfl, hh, hpc, rfl⟩
  · rw [hret] at hT
    obtain ⟨hfailed, id, hmade⟩ := hr.retried T hT
    exact ⟨ended_kept hi.fence hl h hfailed rfl, id, hmade.next h.store hret⟩
  · have hby := failedBy_of_retrying (T := task.id) hi hh (by rw [hpc]; rfl)
    have hi' := failureInv_step hi hl h
    refine ⟨ended_kept hi.fence hl h hby.1 rfl, id, ?_⟩
    -- the handler is at the send of the task it has made
    have hnow : s'.handlers i = some { hd with pc := .resending task id } := by
      cases h with
      | work hh' hstep =>
          rw [hh] at hh'
          cases hh'
          cases hstep with
          | retry hpc' =>
              rw [hpc] at hpc'
              cases hpc'
              exact Function.update_self _ _ _
    exact (hi'.handler i _ hnow).2.2

/-- **The step lemma.** -/
theorem retryInv_step (hi : FailureInv env s₀ s) (hr : RetryInv j m s) (hl : s.Bounded j m l)
    (h : Sys.Step env s l s') : RetryInv j m s' where
  read i hd task job hh hpc hid := by
    rcases executing_before h hh hpc with ⟨hd₀, hh₀, hpc₀⟩ | hjob
    · exact hr.read i hd₀ task job hh₀ hpc₀ hid
    · exact hl.2 job (hid ▸ hjob)
  failed T row hrow hj hstatus := by
    rcases ended_row hi h hrow (hstatus ▸ rfl) with
      ⟨old, hold, hsame, hrun⟩ | ⟨i, hd, task, job, result, hh, hpc, _, hid, hcount, hy⟩
    · rw [hrun.retry_count]
      exact hr.failed T old hold (hrun.job_id.symm.trans hj) (hsame.trans hstatus)
    · have hleft := recorded_failed.mp (hy.symm.trans hstatus)
      rw [Bool.and_eq_true] at hleft
      rw [← hcount, ← hr.read i hd task job hh hpc (hid.trans hj)]
      exact of_decide_eq_true hleft.2
  gave_up T row hrow hj hstatus := by
    rcases ended_row hi h hrow (hstatus ▸ rfl) with
      ⟨old, hold, hsame, hrun⟩ | ⟨i, hd, task, job, result, hh, hpc, _, hid, hcount, hy⟩
    · rw [hrun.retry_count]
      exact hr.gave_up T old hold (hrun.job_id.symm.trans hj) (hsame.trans hstatus)
    · rw [← hcount, ← hr.read i hd task job hh hpc (hid.trans hj)]
      exact no_retries_left (hy.symm.trans hstatus)
  retried T hT := retried_step hi hr hl.1.1 h hT

/-- The run lemma. -/
theorem retryInv_run {jobs : Table Job} {now : Int}
    (h : Run (Sys.Step env) (Sys.Bounded j m) (.start jobs now) s) : RetryInv j m s := by
  induction h with
  | refl => exact retryInv_start j m jobs now
  | snoc hrun hl hst ih =>
      exact retryInv_step (failureInv_run (hrun.mono fun _ _ hl => hl.1.1)) ih hl hst

end Step

/-! ## The chain -/

section Chains

variable {s : Sys} {j : JobId} {m : Nat}

/-- A task of the job that has a retry made, and the row of its next attempt. -/
theorem RetryInv.next (hr : RetryInv j m s) {T : TaskId} {row : Task} {c : Commit}
    (hrow : s.store.tasks.get T = some row) (hj : row.job_id = j)
    (hc : retries T s.store.log = [c]) : row.status = .failed ∧ row.retry_count < m ∧
      ∃ retry, s.store.tasks.get c.task = some retry ∧ retry.job_id = row.job_id ∧
        retry.trigger_type = row.trigger_type ∧ retry.retry_count = row.retry_count + 1 := by
  obtain ⟨hfailed, id, ⟨c', hc', hid⟩, row', retry, hrow', hretry, hjob, htrigger, hcount⟩ :=
    hr.retried T (hc ▸ List.cons_ne_nil c [])
  rw [hc, List.cons.injEq] at hc'
  obtain rfl := hc'.1
  subst hid
  rw [hrow, Option.some.injEq] at hrow'
  subst hrow'
  have hstatus := Store.status_of_get hrow
  rw [hfailed, Option.some.injEq] at hstatus
  exact ⟨hstatus.symm, hr.failed T row hrow hj hstatus.symm, retry, hretry, hjob, htrigger, hcount⟩

/-- Every task has its chain: a retry has one attempt less to go. -/
theorem RetryInv.attempts (hr : RetryInv j m s) {T : TaskId} {row : Task}
    (hrow : s.store.tasks.get T = some row) (hj : row.job_id = j) :
    ∃ chain, s.store.Attempts T chain := by
  induction hn : m - row.retry_count generalizing T row with
  | zero =>
      refine ⟨[row], .last hrow ?_⟩
      by_contra hne
      obtain ⟨hfailed, _, ⟨c, hc, _⟩, _⟩ := hr.retried T hne
      obtain ⟨_, hlt, _⟩ := hr.next hrow hj hc
      omega
  | succ n ih =>
      by_cases hnil : retries T s.store.log = []
      · exact ⟨[row], .last hrow hnil⟩
      · obtain ⟨_, _, ⟨c, hc, _⟩, _⟩ := hr.retried T hnil
        obtain ⟨_, hlt, retry, hretry, hjob, _, hcount⟩ := hr.next hrow hj hc
        obtain ⟨rest, hrest⟩ := ih hretry (hjob.trans hj) (by omega)
        exact ⟨row :: rest, .next hrow hc hrest⟩

/-- What a chain looks like from its first task on. -/
structure Linear (m : Nat) (row : Task) (chain : List Task) : Prop where
  counts : chain.map Task.retry_count = List.range' row.retry_count chain.length
  same : ∀ task ∈ chain, task.job_id = row.job_id ∧ task.trigger_type = row.trigger_type
  failed : ∀ task ∈ chain.dropLast, task.status = .failed
  length : chain.length ≤ m - row.retry_count + 1

theorem Store.Attempts.head {st : Store} {T : TaskId} {chain : List Task}
    (h : st.Attempts T chain) : ∃ row rest, chain = row :: rest ∧ st.tasks.get T = some row := by
  cases h with
  | last hrow => exact ⟨_, [], rfl, hrow⟩
  | next hrow => exact ⟨_, _, rfl, hrow⟩

/-- **The attempts of a task are linear**: one count more each, until the last. -/
theorem RetryInv.linear (hr : RetryInv j m s) {T : TaskId} {row : Task} {chain : List Task}
    (h : s.store.Attempts T chain) (hrow : s.store.tasks.get T = some row)
    (hj : row.job_id = j) : Linear m row chain := by
  induction h generalizing row with
  | last hrow' =>
      rw [hrow, Option.some.injEq] at hrow'
      subst hrow'
      refine ⟨by simp, ?_, by simp, by simp⟩
      intro task ht
      rw [List.mem_singleton.mp ht]
      exact ⟨rfl, rfl⟩
  | @next T row' c rest hrow' hc hrest ih =>
      rw [hrow, Option.some.injEq] at hrow'
      subst hrow'
      obtain ⟨hfailed, hlt, retry, hretry, hjob, htrigger, hcount⟩ := hr.next hrow hj hc
      have hrec := ih hretry (hjob.trans hj)
      obtain ⟨first, rest', rfl, _⟩ := hrest.head
      refine ⟨?_, ?_, ?_, ?_⟩
      · rw [List.map_cons, hrec.counts, hcount, List.length_cons (a := row), List.range'_succ]
      · intro task ht
        rcases List.mem_cons.mp ht with rfl | ht
        · exact ⟨rfl, rfl⟩
        · obtain ⟨hj', ht'⟩ := hrec.same task ht
          exact ⟨hj'.trans hjob, ht'.trans htrigger⟩
      · intro task ht
        rw [List.dropLast_cons_cons] at ht
        rcases List.mem_cons.mp ht with rfl | ht
        · exact hfailed
        · exact hrec.failed task ht
      · have hlength := hrec.length
        rw [hcount] at hlength
        rw [List.length_cons]
        omega

/-- Every attempt has ended, and nobody is at the retry of one. -/
def Sys.Settled (s : Sys) (chain : List Task) : Prop :=
  ∀ task ∈ chain, task.status.terminal = true ∧ ¬ s.Retrying task.id

/-- **How a chain ends**: in a success, or given up after the last attempt there is. -/
theorem RetryInv.ends (hr : RetryInv j m s)
    (hf : ∀ T, s.store.status T = some .failed → s.Retrying T ∨ s.Retried T) {T : TaskId}
    {row : Task} {chain : List Task} (h : s.store.Attempts T chain)
    (hrow : s.store.tasks.get T = some row) (hj : row.job_id = j) (hs : s.Settled chain) :
    ∃ last, chain.getLast? = some last ∧ (last.status = .success ∨
      last.status = .final_failed ∧ chain.length = m - row.retry_count + 1) := by
  induction h generalizing row with
  | @last T row' hrow' hnil =>
      rw [hrow, Option.some.injEq] at hrow'
      subst hrow'
      refine ⟨row, rfl, ?_⟩
      obtain ⟨hterm, hnot⟩ := hs row (List.mem_singleton_self row)
      have hstatus := Store.status_of_get hrow
      have hid : row.id = T := Table.key_of_get hrow
      cases hy : row.status with
      | success => exact .inl rfl
      | final_failed =>
          have hle := hr.gave_up T row hrow hj hy
          exact .inr ⟨rfl, by rw [List.length_singleton]; omega⟩
      | failed =>
          rw [hy] at hstatus
          rcases hf T hstatus with hat | ⟨id, ⟨⟨c, hc, _⟩, _⟩, _⟩
          · exact absurd (hid ▸ hat) hnot
          · rw [hnil] at hc
            cases hc
      | pending | running =>
          rw [hy] at hterm
          cases hterm
  | @next T row' c rest hrow' hc hrest ih =>
      rw [hrow, Option.some.injEq] at hrow'
      subst hrow'
      obtain ⟨_, hlt, retry, hretry, hjob, _, hcount⟩ := hr.next hrow hj hc
      obtain ⟨last, hlast, hends⟩ := ih hretry (hjob.trans hj) fun task ht =>
        hs task (List.mem_cons_of_mem _ ht)
      obtain ⟨first, rest', rfl, _⟩ := hrest.head
      refine ⟨last, by rw [List.getLast?_cons_cons, hlast], hends.imp_right fun ⟨hy, hlen⟩ => ?_⟩
      rw [hcount] at hlen
      rw [List.length_cons]
      exact ⟨hy, by omega⟩

/-- Only the last attempt can be a success, so it is given up if none is. -/
theorem Linear.gave_up_iff {row last : Task} {chain : List Task} (h : Linear m row chain)
    (hlast : chain.getLast? = some last)
    (hends : last.status = .success ∨ last.status = .final_failed) :
    last.status = .final_failed ↔ ∀ task ∈ chain, task.status ≠ .success := by
  constructor
  · intro hfinal task ht
    obtain ⟨init, rfl⟩ := List.getLast?_eq_some_iff.mp hlast
    rcases List.mem_append.mp ht with ht | ht
    · have hfailed := h.failed task (by rwa [List.dropLast_concat])
      rw [hfailed]
      nofun
    · rw [List.mem_singleton.mp ht, hfinal]
      nofun
  · intro hnone
    exact hends.resolve_left (hnone last (List.mem_of_getLast? hlast))

end Chains

/-! ## Giving up -/

/-- The status a write leaves is that of before, or the one it wrote. -/
theorem Store.Wrote.before {st st' : Store} {id T : TaskId} {what : What} {x y : TaskStatus}
    (hw : st.Wrote st' id what x) (hy : st'.status T = some y) :
    st.status T = some y ∨ id = T ∧ x = y := by
  by_cases hT : id = T
  · subst hT
    rw [hw.self, Option.some.injEq] at hy
    exact .inr ⟨rfl, hy⟩
  · exact .inl ((hw.other hT).symm.trans hy)

/-- **What gives a task up**: a failed run with no retries left, by the job its handler has
read, or a job that is gone. -/
theorem gives_up {now : Int} {jobs : Table Job} {h : HandlerId} {st st' : Store}
    {hd hd' : Handler} {a : WorkerAct} {T : TaskId} (hstep : WorkStep now jobs h st hd a st' hd')
    (hfinal : st'.status T = some .final_failed) : st.status T = some .final_failed ∨
      (∃ task job, hd.pc = .executing task job ∧ task.id = T ∧
        job.max_retries ≤ task.retry_count) ∨
      ∃ task, hd.pc = .unfound task ∧ task.id = T := by
  cases hstep with
  | claim _ hclaim =>
      rcases (Store.wrote_claim hclaim).2.before hfinal with hold | ⟨_, heq⟩
      · exact .inl hold
      · cases heq
  | heartbeat _ hbeat =>
      obtain ⟨x, hx, hw⟩ := Store.wrote_heartbeat hbeat
      rcases hw.before hfinal with hold | ⟨rfl, rfl⟩
      · exact .inl hold
      · exact .inl hx
  | @finish task job result _ hpc hflush =>
      obtain ⟨x, hx, hw | hw⟩ := Store.flush_status hflush
      · rcases hw.before hfinal with hold | ⟨rfl, rfl⟩
        · exact .inl hold
        · exact .inl hx
      · rcases hw.before hfinal with hold | ⟨hid, heq⟩
        · exact .inl hold
        · exact .inr (.inl ⟨task, job, hpc, hid, no_retries_left heq⟩)
  | @not_found task _ hpc hflush =>
      obtain ⟨x, hx, hw | hw⟩ := Store.flush_status hflush
      · rcases hw.before hfinal with hold | ⟨rfl, rfl⟩
        · exact .inl hold
        · exact .inl hx
      · rcases hw.before hfinal with hold | ⟨hid, _⟩
        · exact .inl hold
        · exact .inr (.inr ⟨task, hpc, hid⟩)
  | retry _ _ hcreate =>
      rcases (Store.wrote_create hcreate).2.2.before hfinal with hold | ⟨_, heq⟩
      · exact .inl hold
      · cases heq
  | _ => exact .inl hfinal

/-! ## Runs -/

/-- **Automatic retries are bounded and linear.**  In every run in which the retries are made
and the `max_retries` of a job stays `m`, the tasks that arise from one of its tasks by
automatic retry make one chain, whose counts go up by one and whose attempts but the last
are failed.  Once all of them have ended and no retry is under way, the last is a success,
or it is given up after `m - r + 1` attempts, and it is given up exactly if none is a
success.  A task is given up only at `max_retries`, by the job its handler has read, or
because the job is gone. -/
theorem retries_are_linear (env : Env) (jobs : Table Job) (now : Int) (j : JobId) (m : Nat)
    {s : Sys} (hrun : Run (Sys.Step env) (Sys.Bounded j m) (.start jobs now) s) :
    (∀ T row, s.store.tasks.get T = some row → row.job_id = j →
      (row.status = .final_failed → m ≤ row.retry_count) ∧
      (∃ chain, s.store.Attempts T chain) ∧
      ∀ chain, s.store.Attempts T chain → Linear m row chain ∧
        (s.Settled chain → ∃ last, chain.getLast? = some last ∧
          (last.status = .success ∨
            last.status = .final_failed ∧ chain.length = m - row.retry_count + 1) ∧
          (last.status = .final_failed ↔ ∀ task ∈ chain, task.status ≠ .success))) ∧
    ∀ now jobs h st hd a st' hd' T, WorkStep now jobs h st hd a st' hd' →
      st'.status T = some .final_failed → st.status T = some .final_failed ∨
        (∃ task job, hd.pc = .executing task job ∧ task.id = T ∧
          job.max_retries ≤ task.retry_count) ∨
        ∃ task, hd.pc = .unfound task ∧ task.id = T := by
  have hr := retryInv_run hrun
  have hf : ∀ T, s.store.status T = some .failed → s.Retrying T ∨ s.Retried T := fun T hT =>
    retry_run (hrun.mono fun _ _ hl => hl.1) hT
  refine ⟨fun T row hrow hj => ⟨hr.gave_up T row hrow hj, hr.attempts hrow hj, ?_⟩,
    fun _ _ _ _ _ _ _ _ _ hstep hfinal => gives_up hstep hfinal⟩
  intro chain hchain
  have hlinear := hr.linear hchain hrow hj
  refine ⟨hlinear, fun hs => ?_⟩
  obtain ⟨last, hlast, hends⟩ := hr.ends hf hchain hrow hj hs
  exact ⟨last, hlast, hends, hlinear.gave_up_iff hlast (hends.imp_right And.left)⟩

/-- A job with one retry, whose two attempts fail: the second is the last. -/
theorem retries_are_linear_given_up : ∃ s first last,
    Run (Sys.Step example_env) (Sys.Bounded 1 1) (.start .empty 0) s ∧
    s.store.Attempts 1 [first, last] ∧ first.status = .failed ∧ last.status = .final_failed ∧
    Linear 1 first [first, last] ∧ ∀ task ∈ [first, last], task.status ≠ .success := by
  let jobs := ((ApiOp.create_job 1 example_retrying).commit example_env 0 .empty).getD .empty
  have hone : ∀ job, jobs.get 1 = some job → job.max_retries = 1 := by
    show ∀ job ∈ jobs.get 1, job.max_retries = 1
    decide
  have h : Run (Sys.Step example_env) (Sys.Bounded 1 1) (.start .empty 0) (.start .empty 0) :=
    .refl
  have h := h.snoc (l := Sys.Label.request (.create_job 1 example_retrying))
    ⟨handles_of_faultFree trivial, by rintro _ ⟨⟩⟩ (.request nofun (show _ = some jobs from rfl))
  have h := h.snoc (l := Sys.Label.accept (.one_time 1)) ⟨handles_of_faultFree trivial, hone⟩
    (.accept rfl)
  have h := h.snoc (l := Sys.Label.create _ 1) ⟨handles_of_faultFree trivial, hone⟩
    (.create List.mem_cons_self (by decide) rfl)
  have h := h.snoc (l := Sys.Label.send 1 1) ⟨handles_of_faultFree trivial, hone⟩
    (.send List.mem_cons_self rfl)
  have h := h.snoc (l := Sys.Label.receive 1 1 example_worker)
    ⟨handles_of_faultFree trivial, hone⟩ (.receive rfl rfl rfl)
  have h := h.snoc (l := Sys.Label.work 1 .claim) ⟨handles_of_faultFree trivial, hone⟩
    (.work rfl (.claim rfl rfl))
  have h := h.snoc (l := Sys.Label.work 1 .load) ⟨handles_of_faultFree trivial, hone⟩
    (.work rfl (.load rfl rfl))
  have h := h.snoc (l := Sys.Label.work 1 .lookup) ⟨handles_of_faultFree trivial, hone⟩
    (.work rfl (.lookup rfl rfl))
  have h := h.snoc (l := Sys.Label.work 1 (.finish ⟨false, none, none⟩))
    ⟨handles_of_faultFree trivial, hone⟩ (.work rfl (.finish rfl rfl))
  have h := h.snoc (l := Sys.Label.work 1 (.retry 2)) ⟨handles_of_faultFree trivial, hone⟩
    (.work rfl (.retry rfl (by decide) rfl))
  have h := h.snoc (l := Sys.Label.resend 1 2) ⟨handles_of_faultFree trivial, hone⟩
    (.resend rfl rfl rfl)
  have h := h.snoc (l := Sys.Label.receive 2 2 example_worker)
    ⟨handles_of_faultFree trivial, hone⟩ (.receive rfl rfl rfl)
  have h := h.snoc (l := Sys.Label.work 2 .claim) ⟨handles_of_faultFree trivial, hone⟩
    (.work rfl (.claim rfl rfl))
  have h := h.snoc (l := Sys.Label.work 2 .load) ⟨handles_of_faultFree trivial, hone⟩
    (.work rfl (.load rfl rfl))
  have h := h.snoc (l := Sys.Label.work 2 .lookup) ⟨handles_of_faultFree trivial, hone⟩
    (.work rfl (.lookup rfl rfl))
  have h := h.snoc (l := Sys.Label.work 2 (.finish ⟨false, none, none⟩))
    ⟨handles_of_faultFree trivial, hone⟩ (.work rfl (.finish rfl rfl))
  obtain ⟨_, _, hchain⟩ := (retries_are_linear example_env .empty 0 1 1 h).1 1 _ rfl rfl
  refine ⟨_, _, _, h, .next rfl rfl (.last rfl rfl), rfl, rfl,
    (hchain _ (.next rfl rfl (.last rfl rfl))).1, ?_⟩
  intro task ht
  rcases List.mem_cons.mp ht with rfl | ht
  · nofun
  · rw [List.mem_singleton.mp ht]
    nofun

end Dass
