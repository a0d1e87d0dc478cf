/-
# `Dass.TaskStates` — the status of a task, and the claim it is under

Most of what is said about tasks is said about their status and about which
statements were committed to them, so the four writes of `Store` are restated
here in those terms (`Store.Wrote`), and the log is read for three things: the
claim a row is under, the results recorded for a task, and the retry tasks
workers made for it.
-/
import Dass.WorkerService

namespace Dass

open Orm

/-- The status of a task. -/
def Store.status (st : Store) (id : TaskId) : Option TaskStatus :=
  (st.tasks.get id).map Task.status

theorem Store.status_of_get {st : Store} {id : TaskId} {row : Task}
    (h : st.tasks.get id = some row) : st.status id = some row.status := by
  rw [Store.status, h, Option.map_some]

/-- From `st` to `st'`, one statement was committed, to one task. -/
structure Store.Wrote (st st' : Store) (id : TaskId) (what : What) (status : TaskStatus) :
    Prop where
  log : ∃ c, st'.log = c :: st.log ∧ c.task = id ∧ c.what = what
  status : ∀ T, st'.status T = if id = T then some status else st.status T

namespace Store

variable {st st' : Store}

theorem Wrote.self {id : TaskId} {what : What} {x : TaskStatus} (h : st.Wrote st' id what x) :
    st'.status id = some x := by
  rw [h.status, if_pos rfl]

theorem Wrote.other {id T : TaskId} {what : What} {x : TaskStatus} (h : st.Wrote st' id what x)
    (hT : id ≠ T) : st'.status T = st.status T := by
  rw [h.status, if_neg hT]

/-- A spec of a write, read as a status. -/
theorem wrote_of_get {id : TaskId} {c : Commit} {row : Task} (hlog : st'.log = c :: st.log)
    (hc : c.task = id)
    (hget : ∀ T, st'.tasks.get T = if id = T then some row else st.tasks.get T) :
    st.Wrote st' id c.what row.status := by
  refine ⟨⟨c, hlog, hc, rfl⟩, fun T => ?_⟩
  rw [Store.status, hget]
  split <;> rfl

theorem wrote_create {task : Task} {retry_of : Option TaskId}
    (h : st.create task retry_of = some st') :
    st.status task.id = none ∧ (∀ c ∈ st.log, c.task ≠ task.id) ∧
      st.Wrote st' task.id (.created retry_of) task.status := by
  obtain ⟨hnone, hfresh, hlog, hget⟩ := create_spec h
  exact ⟨by rw [Store.status, hnone, Option.map_none], hfresh, wrote_of_get hlog rfl hget⟩

theorem wrote_claim {service : WorkerService} {handler : HandlerId} {id : TaskId} {now : Int}
    (h : st.claim_task service handler id now = some st') :
    st.status id = some .pending ∧ st.Wrote st' id (.claimed handler) .running := by
  obtain ⟨row, hrow, hpending, hlog, hget⟩ := claim_task_spec h
  exact ⟨hpending ▸ status_of_get hrow, wrote_of_get hlog rfl hget⟩

/-- A heartbeat leaves every status alone. -/
theorem wrote_heartbeat {service : WorkerService} {id : TaskId} {now : Int}
    (h : st.heartbeat service id now = some st') :
    ∃ x, st.status id = some x ∧ st.Wrote st' id .extended x := by
  obtain ⟨row, hrow, _, hlog, hget⟩ := heartbeat_spec h
  have hw := wrote_of_get hlog rfl hget
  exact ⟨row.status, status_of_get hrow, hw⟩

/-- A flush sends the status if it was changed since the load, whatever it is by now. -/
theorem wrote_flush {what : What} {loaded assigned : Task}
    (h : st.flush what loaded assigned = some st') :
    ∃ x, st.status loaded.id = some x ∧
      st.Wrote st' loaded.id what (emit loaded.status assigned.status x) := by
  obtain ⟨stored, hstored, hlog, hget⟩ := flush_spec h
  exact ⟨stored.status, status_of_get hstored, wrote_of_get hlog rfl hget⟩

/-- A flush goes through wherever the row exists. -/
theorem exists_flush {loaded : Task} {x : TaskStatus} (h : st.status loaded.id = some x)
    (what : What) (assigned : Task) : ∃ st', st.flush what loaded assigned = some st' := by
  obtain ⟨row, hrow, _⟩ := Option.map_eq_some_iff.mp h
  exact ⟨_, by rw [flush, TaskRepository.flush, hrow]; rfl⟩

end Store

/-! ## Reading the log -/

/-- The claim a task is under: the last one, unless a result or a reset came after it. -/
def currentClaim (T : TaskId) : List Commit → Option HandlerId
  | [] => none
  | c :: cs =>
      if c.task = T then
        match c.what with
        | .claimed h => some h
        | .extended | .chained => currentClaim T cs
        | .created _ | .finished _ | .reset => none
      else currentClaim T cs

/-- The commit records a result of `T`. -/
def Commit.isResult (T : TaskId) (c : Commit) : Bool :=
  match c.what with
  | .finished _ => c.task = T
  | _ => false

/-- The commit makes a retry task for `T`. -/
def Commit.isRetry (T : TaskId) (c : Commit) : Bool :=
  c.what = .created (some T)

/-- The results recorded for a task. -/
def results (T : TaskId) (log : List Commit) : List Commit :=
  log.filter (Commit.isResult T)

/-- The retry tasks workers made for a task. -/
def retries (T : TaskId) (log : List Commit) : List Commit :=
  log.filter (Commit.isRetry T)

section Log

variable {T : TaskId} {c : Commit} {cs : List Commit}

theorem currentClaim_other (h : c.task ≠ T) : currentClaim T (c :: cs) = currentClaim T cs := by
  rw [currentClaim, if_neg h]

theorem currentClaim_claimed {h : HandlerId} (hT : c.task = T) (hw : c.what = .claimed h) :
    currentClaim T (c :: cs) = some h := by
  rw [currentClaim, if_pos hT, hw]

theorem currentClaim_kept (hw : c.what = .extended ∨ c.what = .chained) :
    currentClaim T (c :: cs) = currentClaim T cs := by
  rw [currentClaim]
  rcases hw with hw | hw <;> rw [hw] <;> exact ite_self _

theorem results_cons : results T (c :: cs)
    = if c.isResult T then c :: results T cs else results T cs := by
  simp only [results, List.filter_cons]

theorem retries_cons : retries T (c :: cs)
    = if c.isRetry T then c :: retries T cs else retries T cs := by
  simp only [retries, List.filter_cons]

end Log

end Dass
