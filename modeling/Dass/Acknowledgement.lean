/-
# `Dass.Acknowledgement` — what one call answers about its message

`process_task_id_async` statement by statement.  `WorkStep` has what such a call commits; here
are also the attempts of `_get_job_with_retry`, the making of the `ContainerSpec`, the start of
the executor and the two ways of returning, and beside them what the call has done so far: the
rows it has written, the runs it has started, the row it last read.

    claim, load, check, recheck     the claim, lost or won, and what is read after it
    lookup                          an attempt at the job
    execute, malformed, end         `_execute`: the spec, the executor, what comes of it
    heartbeat                       while the executor runs
    record, not_found, retry, send  the result, and the retry task

The call shares the tables with everybody else (`Others`), who claim and finish tasks, its own
among them, at any moment.  Two things they do not do: they put no running task of this call
back (no lock expires), and they do not insert its row, which is committed before its message
is sent.
-/
import Dass.System
import Dass.RuntimeSpec

namespace Dass

open Lts

/-- The point `process_task_id_async` has reached. -/
inductive CallPc where
  | claiming (attempt : Nat)
  | claimed (attempt : Nat)
  | lost (attempt : Nat)
  | unclaimed
  /-- `_get_job_with_retry`; attempts made before -/
  | looking (task : Task) (attempt : Nat)
  | unfound (task : Task)
  | found (task : Task) (job : Job)
  | executing (task : Task) (job : Job)
  | executed (task : Task) (job : Job) (result : ExecutionResult)
  | failed (task : Task) (job : Job)
  | resending (task : Task) (id : TaskId)
  | returned (deleted : Bool)
  | raised

/-- A call of `process_task_id_async`, and what it has done. -/
structure Call where
  service : WorkerService
  task_id : TaskId
  pc : CallPc
  /-- the rows it has committed to -/
  written : List TaskId
  /-- how often it has run the executor -/
  runs : Nat
  /-- its `UPDATE` matched -/
  claimed : Bool
  /-- `jobs.get` answered a row -/
  found : Bool
  /-- what its last look at the task showed -/
  last_read : Option Task

def Call.start (service : WorkerService) (task_id : TaskId) : Call :=
  ⟨service, task_id, .claiming 0, [], 0, false, false, none⟩

/-- `ContainerSpec(**(job.runtime_spec or {}))` is a value. -/
def Job.has_spec (job : Job) : Bool :=
  job.runtime_spec.any ContainerSpec.constructible

/-- What a lost claim leads to (`after_check`). -/
def HandlerPc.call : HandlerPc → CallPc
  | .claiming n => .claiming n
  | _ => .unclaimed

/-- One step of the call. -/
inductive CallStep (now : Int) (jobs : Table Job) (h : HandlerId) :
    Store → Call → Store → Call → Prop
  | claim {st c n st'} : c.pc = .claiming n →
      st.claim_task c.service h c.task_id now = some st' →
      CallStep now jobs h st c st' { c with
        pc := .claimed n, claimed := true, written := c.task_id :: c.written }
  | claim_lost {st c n} : c.pc = .claiming n →
      st.claim_task c.service h c.task_id now = none →
      CallStep now jobs h st c st { c with pc := .lost n }
  | load {st c n task} : c.pc = .claimed n → st.tasks.get c.task_id = some task →
      CallStep now jobs h st c st { c with pc := .looking task 0, last_read := some task }
  | load_none {st c n} : c.pc = .claimed n → st.tasks.get c.task_id = none →
      CallStep now jobs h st c st { c with pc := .lost n, last_read := none }
  | check {st c n} : c.pc = .lost n →
      CallStep now jobs h st c st { c with
        pc := (after_check (st.tasks.get c.task_id) n).call
        last_read := st.tasks.get c.task_id }
  | recheck {st c} : c.pc = .unclaimed →
      CallStep now jobs h st c st { c with
        pc := .returned (deletable (st.tasks.get c.task_id))
        last_read := st.tasks.get c.task_id }
  | lookup {st c task n job} : c.pc = .looking task n → jobs.get task.job_id = some job →
      CallStep now jobs h st c st { c with pc := .found task job, found := true }
  | lookup_none {st c task n} : c.pc = .looking task n → jobs.get task.job_id = none →
      CallStep now jobs h st c st { c with
        pc := if n + 1 < _LOOKUP_ATTEMPTS then .looking task (n + 1) else .unfound task }
  | execute {st c task job} : c.pc = .found task job → job.has_spec = true →
      CallStep now jobs h st c st { c with pc := .executing task job, runs := c.runs + 1 }
  | malformed {st c task job error} : c.pc = .found task job → job.has_spec = false →
      CallStep now jobs h st c st
        { c with pc := .executed task job ⟨false, some "", some error⟩ }
  | heartbeat {st c task job st'} : c.pc = .executing task job →
      st.heartbeat c.service task.id now = some st' →
      CallStep now jobs h st c st' { c with written := task.id :: c.written }
  | end_ {st c task job result} : c.pc = .executing task job →
      CallStep now jobs h st c st { c with pc := .executed task job result }
  | record {st c task job result st'} : c.pc = .executed task job result →
      st.flush (.finished h) task (recorded task job result now) = some st' →
      CallStep now jobs h st c st' { c with
        pc := if !result.success && retries_left task job then .failed task job
              else .returned true
        written := task.id :: c.written }
  | not_found {st c task st'} : c.pc = .unfound task →
      st.flush (.finished h) task (recorded_not_found task now) = some st' →
      CallStep now jobs h st c st' { c with
        pc := .returned true, written := task.id :: c.written }
  | retry {st c task job id st'} : c.pc = .failed task job → jobs.get job.id ≠ none →
      st.create (retry_task task job id now) (some task.id) = some st' →
      CallStep now jobs h st c st' { c with
        pc := .resending task id, written := id :: c.written }
  | send {st c task id} : c.pc = .resending task id →
      CallStep now jobs h st c st { c with pc := .returned true }
  | fail {st c} : CallStep now jobs h st c st { c with pc := .raised }

/-- What the others commit to `tasks` while a call for `T` is under way. -/
inductive Others (T : TaskId) (st : Store) : Store → Prop
  | create {task retry_of st'} : task.id ≠ T → st.create task retry_of = some st' →
      Others T st st'
  | claim {service h id now st'} : st.claim_task service h id now = some st' → Others T st st'
  | heartbeat {service id now st'} : st.heartbeat service id now = some st' → Others T st st'
  | finish {h loaded assigned st'} : assigned.status.terminal = true →
      st.flush (.finished h) loaded assigned = some st' → Others T st st'
  | reset {task st'} : task.id ≠ T →
      st.flush .reset task task.mark_running_expired_pending = some st' → Others T st st'
  | chain {task st'} :
      st.flush .chained task task.mark_processed_for_chaining = some st' → Others T st st'

/-- `DELETE /jobs` takes the tasks of the job with it. -/
def Store.delete_job (st : Store) (job_id : JobId) : Store :=
  { st with tasks := st.tasks.filter fun task => task.job_id ≠ job_id }

/-- A call among the others. -/
structure Scene where
  now : Int
  jobs : Table Job
  store : Store
  call : Call
  /-- a job was deleted meanwhile -/
  deleted : Bool

inductive Scene.Label where
  | call | others | jobs | delete_job

inductive Scene.Step (h : HandlerId) : Scene → Scene.Label → Scene → Prop
  | call {s : Scene} {st' c'} : CallStep s.now s.jobs h s.store s.call st' c' →
      Scene.Step h s .call { s with store := st', call := c' }
  | others {s : Scene} {st'} : Others s.call.task_id s.store st' →
      Scene.Step h s .others { s with store := st' }
  /-- any time passes, and any requests for jobs are answered -/
  | jobs {s : Scene} {now' jobs'} : Scene.Step h s .jobs { s with now := now', jobs := jobs' }
  | delete_job {s : Scene} {job_id} :
      Scene.Step h s .delete_job { s with store := s.store.delete_job job_id, deleted := true }

/-- The call begins, with whatever the tables hold. -/
def Scene.start (now : Int) (jobs : Table Job) (store : Store) (service : WorkerService)
    (task_id : TaskId) : Scene :=
  ⟨now, jobs, store, .start service task_id, false⟩

/-! ## What becomes of a row -/

/-- The task is gone or over: nobody will run it. -/
def Store.Settled (st : Store) (T : TaskId) : Prop :=
  ∀ x, st.status T = some x → x.terminal = true

theorem settled_of_deletable {st : Store} {T : TaskId} (h : deletable (st.tasks.get T) = true) :
    st.Settled T := by
  intro x hx
  obtain ⟨row, hrow, rfl⟩ := Option.map_eq_some_iff.mp hx
  rw [hrow] at h
  exact h

/-- A result leaves the row over, unless it goes by an object that showed the result
already and the row is not over. -/
theorem Store.settled_flush {st st' : Store} {what : What} {loaded assigned : Task}
    (h : st.flush what loaded assigned = some st') (hterm : assigned.status.terminal = true)
    (hloaded : loaded.status.terminal = true → st.Settled loaded.id) :
    st'.Settled loaded.id := by
  obtain ⟨x, hx, hw⟩ := Store.wrote_flush h
  intro y hy
  rw [hw.self, Option.some.injEq] at hy
  subst hy
  unfold Orm.emit
  split
  · next hclean => exact hloaded (hclean ▸ hterm) x hx
  · exact hterm

section Others

variable {T : TaskId} {st st' : Store}

theorem Others.next (h : Others T st st') : st.Next st' := by
  cases h with
  | create _ h => exact .create h
  | claim h => exact .claim h
  | heartbeat h => exact .heartbeat h
  | finish _ h | reset _ h | chain h => exact .flush h

/-- What the others do to the row of the call: they claim it where it is pending, or record
a result. -/
theorem Others.status (h : Others T st st') :
    st'.status T = st.status T ∨
    (st.status T = some .pending ∧ st'.status T = some .running) ∨
    (st.status T ≠ none ∧ ∃ x, st'.status T = some x ∧ x.terminal = true) := by
  cases h with
  | create hT h => exact .inl ((Store.wrote_create h).2.2.other hT)
  | @claim _ _ id _ _ h =>
      obtain ⟨hpending, hw⟩ := Store.wrote_claim h
      by_cases hT : id = T
      · exact .inr (.inl ⟨hT ▸ hpending, hT ▸ hw.self⟩)
      · exact .inl (hw.other hT)
  | @heartbeat _ id _ _ h =>
      obtain ⟨x, hx, hw⟩ := Store.wrote_heartbeat h
      by_cases hT : id = T
      · subst hT
        exact .inl (hw.self.trans hx.symm)
      · exact .inl (hw.other hT)
  | @finish _ loaded assigned _ hterm h =>
      obtain ⟨x, hx, hw | hw⟩ := Store.flush_status h
      · by_cases hT : loaded.id = T
        · subst hT
          exact .inl (hw.self.trans hx.symm)
        · exact .inl (hw.other hT)
      · by_cases hT : loaded.id = T
        · subst hT
          exact .inr (.inr ⟨by rw [hx]; nofun, assigned.status, hw.self, hterm⟩)
        · exact .inl (hw.other hT)
  | reset hT h =>
      obtain ⟨x, _, hw | hw⟩ := Store.flush_status h
      · exact .inl (hw.other hT)
      · exact .inl (hw.other hT)
  | @chain task _ h =>
      obtain ⟨x, hx, hw⟩ := Store.wrote_flush h
      rw [Task.mark_processed_for_chaining, Orm.emit_clean] at hw
      by_cases hT : task.id = T
      · subst hT
        exact .inl (hw.self.trans hx.symm)
      · exact .inl (hw.other hT)

theorem Others.settled (h : Others T st st') (hs : st.Settled T) : st'.Settled T := by
  intro x hx
  rcases h.status with heq | ⟨hpending, _⟩ | ⟨_, y, hy, hterm⟩
  · exact hs x (heq ▸ hx)
  · cases hs _ hpending
  · rw [hy, Option.some.injEq] at hx
    exact hx ▸ hterm

/-- The others neither make the row nor take it away. -/
theorem Others.status_eq_none (h : Others T st st') :
    st'.status T = none ↔ st.status T = none := by
  rcases h.status with heq | ⟨hpending, hrunning⟩ | ⟨hsome, y, hy, _⟩
  · rw [heq]
  · rw [hpending, hrunning]
    simp
  · rw [hy]
    simp [hsome]

theorem Store.status_delete_job (st : Store) (job_id : JobId) (T : TaskId) :
    (st.delete_job job_id).status T = st.status T ∨ (st.delete_job job_id).status T = none := by
  cases h : (st.delete_job job_id).tasks.get T with
  | none => exact .inr (by rw [Store.status, h, Option.map_none])
  | some row =>
      obtain ⟨hmem, hid⟩ := Table.get_eq_some.mp h
      have hrow := Table.get_eq_some.mpr ⟨(List.mem_filter.mp hmem).1, hid⟩
      exact .inl ((Store.status_of_get h).trans (Store.status_of_get hrow).symm)

theorem Store.Settled.delete_job (hs : st.Settled T) (job_id : JobId) :
    (st.delete_job job_id).Settled T := by
  intro x hx
  rcases st.status_delete_job job_id T with heq | hnone
  · exact hs x (heq ▸ hx)
  · rw [hnone] at hx
    cases hx

end Others

/-! ## What the call goes by -/

/-- The object was loaded from the row of the call, and where it shows a result the row has
one. -/
def Store.Shows (st : Store) (T : TaskId) (task : Task) : Prop :=
  task.id = T ∧ (task.status.terminal = true → st.Settled T)

/-- The row was written once: no other row will have its id. -/
def Store.Logged (st : Store) (T : TaskId) : Prop := ∃ c ∈ st.log, c.task = T

/-- What the call goes by at each point. -/
def Call.Goes (c : Call) (st : Store) (deleted : Bool) : Prop :=
  match c.pc with
  | .claiming _ | .lost _ | .unclaimed => c.written = [] ∨ st.status c.task_id = none
  | .looking task _ | .unfound task | .found task _ | .executing task _
  | .executed task _ _ => st.Shows c.task_id task
  | .failed task _ | .resending task _ =>
      task.id = c.task_id ∧ st.Settled c.task_id ∧ st.Logged c.task_id
  | .returned true => st.Settled c.task_id
  | .returned false =>
      c.written = [] ∧ (∃ row, c.last_read = some row ∧ row.status.terminal = false) ∧
        (deleted = false → st.status c.task_id ≠ none)
  | .claimed _ | .raised => True

/-- What it has to show for its claim at each point. -/
def Call.Counts (c : Call) : Prop :=
  match c.pc with
  | .claiming _ | .lost _ | .unclaimed => c.runs = 0
  | .claimed _ | .looking _ _ | .unfound _ => c.runs = 0 ∧ c.claimed = true
  | .found _ _ => c.runs = 0 ∧ c.claimed = true ∧ c.found = true
  | _ => c.runs = 0 ∨ c.runs = 1 ∧ c.claimed = true ∧ c.found = true

structure Scene.Inv (s : Scene) : Prop where
  goes : s.call.Goes s.store s.deleted
  counts : s.call.Counts

theorem Scene.inv_start (now : Int) (jobs : Table Job) (store : Store)
    (service : WorkerService) (task_id : TaskId) :
    (Scene.start now jobs store service task_id).Inv :=
  ⟨.inl rfl, rfl⟩

/-! ## What a step keeps -/

section Step

variable {now : Int} {jobs : Table Job} {h : HandlerId} {st st' : Store} {c c' : Call}
  {deleted : Bool}

theorem Store.Next.logged {T : TaskId} (hst : st.Next st') (hlog : st.Logged T) :
    st'.Logged T := by
  obtain ⟨entry, hmem, hT⟩ := hlog
  rcases hst.log with heq | ⟨new, heq⟩
  · exact ⟨entry, heq ▸ hmem, hT⟩
  · exact ⟨entry, heq ▸ List.mem_cons_of_mem _ hmem, hT⟩

/-- What a call goes by stays, as long as rows that are over or gone stay so, and rows that
are there go by deletions alone. -/
theorem Call.Goes.mono {deleted' : Bool} (hg : c.Goes st deleted)
    (hsettled : st.Settled c.task_id → st'.Settled c.task_id)
    (hnone : st.status c.task_id = none → st'.status c.task_id = none)
    (hlogged : st.Logged c.task_id → st'.Logged c.task_id)
    (hthere : deleted' = false →
      deleted = false ∧ (st.status c.task_id ≠ none → st'.status c.task_id ≠ none)) :
    c.Goes st' deleted' := by
  unfold Goes at hg ⊢
  split at hg
  · exact hg.imp_right hnone
  · exact hg.imp_right hnone
  · exact hg.imp_right hnone
  · exact ⟨hg.1, fun hterm => hsettled (hg.2 hterm)⟩
  · exact ⟨hg.1, fun hterm => hsettled (hg.2 hterm)⟩
  · exact ⟨hg.1, fun hterm => hsettled (hg.2 hterm)⟩
  · exact ⟨hg.1, fun hterm => hsettled (hg.2 hterm)⟩
  · exact ⟨hg.1, fun hterm => hsettled (hg.2 hterm)⟩
  · exact ⟨hg.1, hsettled hg.2.1, hlogged hg.2.2⟩
  · exact ⟨hg.1, hsettled hg.2.1, hlogged hg.2.2⟩
  · exact hsettled hg
  · obtain ⟨hwritten, hread, hrow⟩ := hg
    exact ⟨hwritten, hread, fun hd => (hthere hd).2 (hrow (hthere hd).1)⟩
  · trivial
  · trivial

theorem Call.Goes.others (hg : c.Goes st deleted) (hst : Others c.task_id st st') :
    c.Goes st' deleted :=
  hg.mono hst.settled hst.status_eq_none.mpr hst.next.logged
    fun hd => ⟨hd, fun hrow hnone => hrow (hst.status_eq_none.mp hnone)⟩

theorem Call.Goes.delete_job (hg : c.Goes st deleted) (job_id : JobId) :
    c.Goes (st.delete_job job_id) true := by
  refine hg.mono (fun hs => hs.delete_job job_id) (fun hnone => ?_) id nofun
  rcases st.status_delete_job job_id c.task_id with heq | hgone
  · exact heq.trans hnone
  · exact hgone

theorem logged_of_flush {what : What} {loaded assigned : Task}
    (hst : st.flush what loaded assigned = some st') : st'.Logged loaded.id := by
  obtain ⟨_, _, hlog, _⟩ := Store.flush_spec hst
  exact ⟨_, hlog ▸ List.mem_cons_self, rfl⟩

/-- The call keeps what it goes by. -/
theorem CallStep.goes (hst : CallStep now jobs h st c st' c') (hg : c.Goes st deleted) :
    c'.Goes st' deleted := by
  cases hst with
  | claim => trivial
  | claim_lost hpc => simpa only [Call.Goes, hpc] using hg
  | load hpc hrow =>
      refine ⟨Table.key_of_get hrow, fun hterm x hx => ?_⟩
      rw [Store.status_of_get hrow, Option.some.injEq] at hx
      exact hx ▸ hterm
  | load_none hpc hrow => exact .inr (by rw [Store.status, hrow, Option.map_none])
  | @check n hpc =>
      simp only [Call.Goes, hpc] at hg
      rcases after_check_cases (st.tasks.get c.task_id) n with ⟨m, heq⟩ | heq
      · simpa only [Call.Goes, heq, HandlerPc.call] using hg
      · simpa only [Call.Goes, heq, HandlerPc.call] using hg
  | recheck hpc =>
      simp only [Call.Goes, hpc] at hg
      cases hread : deletable (st.tasks.get c.task_id) with
      | true => exact settled_of_deletable hread
      | false =>
          cases hrow : st.tasks.get c.task_id with
          | none =>
              rw [hrow] at hread
              cases hread
          | some row =>
              rw [hrow] at hread
              have hthere : st.status c.task_id ≠ none := by
                rw [Store.status_of_get hrow]
                simp
              exact ⟨hg.resolve_right hthere, ⟨row, rfl, hread⟩, fun _ => hthere⟩
  | lookup hpc => simpa only [Call.Goes, hpc] using hg
  | @lookup_none task n hpc =>
      simp only [Call.Goes, hpc] at hg
      split
      · exact hg
      · exact hg
  | execute hpc => simpa only [Call.Goes, hpc] using hg
  | malformed hpc => simpa only [Call.Goes, hpc] using hg
  | @heartbeat task job _ hpc hbeat =>
      simp only [Call.Goes, hpc] at hg ⊢
      have hothers : Others c.task_id st st' := .heartbeat hbeat
      exact ⟨hg.1, fun hterm => hothers.settled (hg.2 hterm)⟩
  | end_ hpc => simpa only [Call.Goes, hpc] using hg
  | @record task job result _ hpc hflush =>
      simp only [Call.Goes, hpc] at hg
      obtain ⟨hid, hshows⟩ := hg
      have hsettled := Store.settled_flush hflush (recorded_terminal task job result now)
        (hid ▸ hshows)
      rw [hid] at hsettled
      split
      · exact ⟨hid, hsettled, hid ▸ logged_of_flush hflush⟩
      · exact hsettled
  | not_found hpc hflush =>
      simp only [Call.Goes, hpc] at hg
      obtain ⟨hid, hshows⟩ := hg
      have hsettled := Store.settled_flush hflush rfl (hid ▸ hshows)
      rw [hid] at hsettled
      exact hsettled
  | @retry task job id _ hpc _ hcreate =>
      simp only [Call.Goes, hpc] at hg
      obtain ⟨hid, hsettled, entry, hmem, hT⟩ := hg
      obtain ⟨_, hfresh, _⟩ := Store.create_spec hcreate
      -- the row was written before, so the id of the retry task is another one
      have hother : (retry_task task job id now).id ≠ c.task_id := fun heq =>
        hfresh entry hmem (hT.trans heq.symm)
      have hothers : Others c.task_id st st' := .create hother hcreate
      exact ⟨hid, hothers.settled hsettled, hothers.next.logged ⟨entry, hmem, hT⟩⟩
  | send hpc =>
      simp only [Call.Goes, hpc] at hg
      exact hg.2.1
  | fail => trivial

/-- The executor ran once, for a claim that was won and a job that was found, or never. -/
theorem Call.Counts.runs (hc : c.Counts) :
    c.runs = 0 ∨ c.runs = 1 ∧ c.claimed = true ∧ c.found = true := by
  unfold Counts at hc
  split at hc
  · exact .inl hc
  · exact .inl hc
  · exact .inl hc
  · exact .inl hc.1
  · exact .inl hc.1
  · exact .inl hc.1
  · exact .inl hc.1
  · exact hc

theorem CallStep.counts (hst : CallStep now jobs h st c st' c') (hc : c.Counts) :
    c'.Counts := by
  cases hst with
  | claim hpc =>
      simp only [Call.Counts, hpc] at hc
      exact ⟨hc, rfl⟩
  | claim_lost hpc => simpa only [Call.Counts, hpc] using hc
  | load hpc => simpa only [Call.Counts, hpc] using hc
  | load_none hpc =>
      simp only [Call.Counts, hpc] at hc
      exact hc.1
  | @check n hpc =>
      simp only [Call.Counts, hpc] at hc
      rcases after_check_cases (st.tasks.get c.task_id) n with ⟨m, heq⟩ | heq
      · simpa only [Call.Counts, heq, HandlerPc.call] using hc
      · simpa only [Call.Counts, heq, HandlerPc.call] using hc
  | recheck hpc =>
      simp only [Call.Counts, hpc] at hc
      exact .inl hc
  | lookup hpc =>
      simp only [Call.Counts, hpc] at hc
      exact ⟨hc.1, hc.2, rfl⟩
  | lookup_none hpc =>
      simp only [Call.Counts, hpc] at hc
      split
      · exact hc
      · exact hc
  | execute hpc =>
      simp only [Call.Counts, hpc] at hc
      exact .inr ⟨by rw [hc.1], hc.2⟩
  | malformed hpc =>
      simp only [Call.Counts, hpc] at hc
      exact .inl hc.1
  | heartbeat hpc => simpa only [Call.Counts, hpc] using hc
  | end_ hpc => simpa only [Call.Counts, hpc] using hc
  | record hpc =>
      simp only [Call.Counts, hpc] at hc
      split
      · exact hc
      · exact hc
  | not_found hpc =>
      simp only [Call.Counts, hpc] at hc
      exact .inl hc.1
  | retry hpc => simpa only [Call.Counts, hpc] using hc
  | send hpc => simpa only [Call.Counts, hpc] using hc
  | fail => exact hc.runs

/-- Where a step of the call changes a row, the call has written it down. -/
theorem CallStep.written (hst : CallStep now jobs h st c st' c') {T : TaskId}
    (hchange : st'.tasks.get T ≠ st.tasks.get T) : T ∈ c'.written := by
  have key : ∀ {id : TaskId} {row : Task},
      (∀ k, st'.tasks.get k = if id = k then some row else st.tasks.get k) → id = T := by
    intro id row hget
    by_contra hT
    exact hchange (by rw [hget, if_neg hT])
  cases hst with
  | claim _ hclaim =>
      obtain ⟨_, _, _, _, hget⟩ := Store.claim_task_spec hclaim
      exact List.mem_cons.mpr (.inl (key hget).symm)
  | heartbeat _ hbeat =>
      obtain ⟨_, _, _, _, hget⟩ := Store.heartbeat_spec hbeat
      exact List.mem_cons.mpr (.inl (key hget).symm)
  | record _ hflush | not_found _ hflush =>
      obtain ⟨_, _, _, hget⟩ := Store.flush_spec hflush
      exact List.mem_cons.mpr (.inl (key hget).symm)
  | retry _ _ hcreate =>
      obtain ⟨_, _, _, hget⟩ := Store.create_spec hcreate
      exact List.mem_cons.mpr (.inl (key hget).symm)
  | _ => exact absurd rfl hchange

theorem CallStep.task_id (hst : CallStep now jobs h st c st' c') :
    c'.task_id = c.task_id := by
  cases hst <;> rfl

end Step

/-! ## The call as a handler -/

/-- The point of the handler (`WorkStep`) the call is at. -/
def CallPc.handler : CallPc → HandlerPc
  | .claiming n => .claiming n
  | .claimed n => .claimed n
  | .lost n => .lost n
  | .unclaimed => .unclaimed
  | .looking task _ => .loaded task
  | .unfound task => .unfound task
  | .found task job | .executing task job | .executed task job _ => .executing task job
  | .failed task job => .failed task job
  | .resending task id => .resending task id
  | .returned true => .done
  | .returned false | .raised => .ended

/-- The handler of the message the call is made for. -/
def Call.handler (c : Call) (message : MessageId) : Handler :=
  ⟨c.service, message, c.task_id, c.pc.handler⟩

theorem after_check_call (existing : Option Task) (n : Nat) :
    (after_check existing n).call.handler = after_check existing n := by
  rcases after_check_cases existing n with ⟨m, heq⟩ | heq
  · rw [heq]
    rfl
  · rw [heq]
    rfl

/-- **A call does what a handler does**: each of its steps is one of `WorkStep`, or the send
of the retry task's message, or nothing that the handler shows. -/
theorem CallStep.work {now : Int} {jobs : Table Job} {h : HandlerId} {st st' : Store}
    {c c' : Call} (hst : CallStep now jobs h st c st' c') (message : MessageId) :
    (∃ a, WorkStep now jobs h st (c.handler message) a st' (c'.handler message)) ∨
    (st' = st ∧ ∃ task id, c.pc = .resending task id ∧ c'.pc = .returned true) ∨
    st' = st ∧ c'.handler message = c.handler message := by
  have at_ : ∀ {pc : CallPc}, c.pc = pc → (c.handler message).pc = pc.handler := by
    intro pc hpc
    rw [← hpc]
    rfl
  cases hst with
  | claim hpc hclaim => exact .inl ⟨.claim, .claim (at_ hpc) hclaim⟩
  | claim_lost hpc hclaim => exact .inl ⟨.claim, .claim_lost (at_ hpc) hclaim⟩
  | load hpc hrow => exact .inl ⟨.load, .load (at_ hpc) hrow⟩
  | load_none hpc hrow => exact .inl ⟨.load, .load_none (at_ hpc) hrow⟩
  | @check n hpc =>
      have hstep : WorkStep now jobs h st (c.handler message) .check st _ := .check (at_ hpc)
      refine .inl ⟨.check, ?_⟩
      simpa only [Call.handler, after_check_call] using hstep
  | recheck hpc =>
      have hstep : WorkStep now jobs h st (c.handler message) .recheck st _ :=
        .recheck (at_ hpc)
      refine .inl ⟨.recheck, ?_⟩
      generalize hread : deletable (st.tasks.get c.task_id) = deleted
      rw [show deletable (st.tasks.get (c.handler message).task_id) = deleted from hread] at hstep
      cases deleted <;> exact hstep
  | lookup hpc hjob => exact .inl ⟨.lookup, .lookup (at_ hpc) hjob⟩
  | @lookup_none task n hpc hjob =>
      by_cases hn : n + 1 < _LOOKUP_ATTEMPTS
      · rw [if_pos hn]
        exact .inr (.inr ⟨rfl, by simp only [Call.handler, hpc, CallPc.handler]⟩)
      · rw [if_neg hn]
        exact .inl ⟨.lookup, .lookup_none (at_ hpc) hjob⟩
  | execute hpc => exact .inr (.inr ⟨rfl, by simp only [Call.handler, hpc, CallPc.handler]⟩)
  | malformed hpc => exact .inr (.inr ⟨rfl, by simp only [Call.handler, hpc, CallPc.handler]⟩)
  | heartbeat hpc hbeat =>
      refine .inl ⟨.heartbeat, ?_⟩
      exact .heartbeat (at_ hpc) hbeat
  | end_ hpc => exact .inr (.inr ⟨rfl, by simp only [Call.handler, hpc, CallPc.handler]⟩)
  | @record task job result _ hpc hflush =>
      have hstep : WorkStep now jobs h st (c.handler message) (.finish result) st' _ :=
        .finish (at_ hpc) hflush
      refine .inl ⟨.finish result, ?_⟩
      generalize (!result.success && retries_left task job) = again at hstep ⊢
      cases again <;> exact hstep
  | not_found hpc hflush => exact .inl ⟨.not_found, .not_found (at_ hpc) hflush⟩
  | @retry _ _ id _ hpc hjob hcreate => exact .inl ⟨.retry id, .retry (at_ hpc) hjob hcreate⟩
  | send hpc => exact .inr (.inl ⟨rfl, _, _, hpc, rfl⟩)
  | fail => exact .inl ⟨.fail, .fail⟩

/-! ## Every run -/

theorem Scene.Step.inv {h : HandlerId} {s s' : Scene} {l : Scene.Label} (hi : s.Inv)
    (hst : Scene.Step h s l s') : s'.Inv := by
  cases hst with
  | call hstep => exact ⟨hstep.goes hi.goes, hstep.counts hi.counts⟩
  | others hothers => exact ⟨hi.goes.others hothers, hi.counts⟩
  | jobs => exact ⟨hi.goes, hi.counts⟩
  | delete_job => exact ⟨hi.goes.delete_job _, hi.counts⟩

/-- The call is made for one task throughout. -/
theorem Scene.Step.task_id {h : HandlerId} {s s' : Scene} {l : Scene.Label}
    (hst : Scene.Step h s l s') : s'.call.task_id = s.call.task_id := by
  cases hst with
  | call hstep => exact hstep.task_id
  | others | jobs | delete_job => rfl

theorem TaskStatus.terminal_cases {x : TaskStatus} (h : x.terminal = true) :
    x = .success ∨ x = .failed ∨ x = .final_failed := by
  cases x with
  | success => exact .inl rfl
  | failed => exact .inr (.inl rfl)
  | final_failed => exact .inr (.inr rfl)
  | pending | running => cases h

theorem TaskStatus.live_cases {x : TaskStatus} (h : x.terminal = false) :
    x = .pending ∨ x = .running := by
  cases x with
  | pending => exact .inl rfl
  | running => exact .inr rfl
  | success | failed | final_failed => cases h

/-- **A message is acknowledged only when nobody needs it.**  Whatever the tables held when the
call began, and whatever is committed while it runs: once it has answered `True`, its task is
gone or over; where it answers `False`, it has changed no row, and the task was there and
pending or running when it last looked, and is still there unless a job was deleted; and it
has run the executor once at most, for a claim it had won and a job it had found. -/
theorem acknowledged_when_over {h : HandlerId} {now : Int} {jobs : Table Job} {store : Store}
    {service : WorkerService} {T : TaskId} {s : Scene}
    (hrun : Run (Scene.Step h) Any (.start now jobs store service T) s) :
    (s.call.pc = .returned true → ∀ x, s.store.status T = some x →
      x = .success ∨ x = .failed ∨ x = .final_failed) ∧
    (s.call.pc = .returned false →
      s.call.written = [] ∧
      (∃ row, s.call.last_read = some row ∧ (row.status = .pending ∨ row.status = .running)) ∧
      (s.deleted = false → s.store.status T ≠ none)) ∧
    s.call.runs ≤ 1 ∧
    (s.call.runs ≠ 0 → s.call.claimed = true ∧ s.call.found = true) := by
  have hinv : s.Inv := hrun.invariant (fun hi _ hst => hst.inv hi)
    (Scene.inv_start now jobs store service T)
  have hT : s.call.task_id = T := hrun.invariant
    (I := fun s => s.call.task_id = T) (fun hi _ hst => hst.task_id.trans hi) rfl
  have hgoes := hinv.goes
  unfold Call.Goes at hgoes
  rw [hT] at hgoes
  refine ⟨fun hpc x hx => ?_, fun hpc => ?_, ?_, fun hruns => ?_⟩
  · rw [hpc] at hgoes
    exact TaskStatus.terminal_cases (hgoes x hx)
  · rw [hpc] at hgoes
    obtain ⟨hwritten, ⟨row, hread, hlive⟩, hthere⟩ := hgoes
    exact ⟨hwritten, ⟨row, hread, TaskStatus.live_cases hlive⟩, hthere⟩
  · rcases hinv.counts.runs with hzero | ⟨hone, _⟩
    · omega
    · omega
  · exact (hinv.counts.runs.resolve_left hruns).2

/-- A pending task of the example job. -/
def example_pending : Store := ⟨Table.empty.add (.fresh 2 1 .manual 0 0), []⟩

/-- The call wins the claim, runs the container and records its success. -/
theorem example_acknowledged : ∃ s,
    Run (Scene.Step 7) Any (.start 0 example_jobs example_pending example_worker 2) s ∧
      s.call.pc = .returned true ∧ s.call.runs = 1 ∧ s.store.status 2 = some .success := by
  have hclaimed : Run (Scene.Step 7) Any
      (.start 0 example_jobs example_pending example_worker 2) _ :=
    ((Run.single trivial (.call (.claim rfl rfl))).snoc trivial (.call (.load rfl rfl))).snoc
      trivial (.call (.lookup rfl rfl))
  have hstarted := (hclaimed.snoc trivial (.call (.execute rfl (by decide)))).snoc trivial
    (.call (.heartbeat rfl rfl))
  have hended := hstarted.snoc trivial
    (.call (@CallStep.end_ _ _ _ _ _ _ _ ⟨true, some "done", some ""⟩ rfl))
  exact ⟨_, hended.snoc trivial (.call (.record rfl rfl)), rfl, rfl, rfl⟩

/-- The call that wins its claim, runs the container once and answers `True`: the task is
over. -/
theorem acknowledged_success : ∃ s : Scene, s.call.pc = .returned true ∧
    s.call.runs = 1 ∧ (∀ x, s.store.status 2 = some x →
      x = .success ∨ x = .failed ∨ x = .final_failed) ∧
    s.call.claimed = true ∧ s.call.found = true := by
  obtain ⟨s, hrun, hpc, hruns, _⟩ := example_acknowledged
  obtain ⟨hover, _, _, hwon⟩ := acknowledged_when_over hrun
  have hran : s.call.runs ≠ 0 := by rw [hruns]; decide
  exact ⟨s, hpc, hruns, hover hpc, hwon hran⟩

end Dass
