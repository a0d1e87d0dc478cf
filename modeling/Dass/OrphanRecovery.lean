/-
# `Dass.OrphanRecovery` — whether a reset lands on an orphan

`recover_orphans` lists expired rows, possibly from a replica that lags, and
then resets the listed rows one commit at a time without looking at them again.
So a reset is right or wrong by what others committed to its row between the
version the listing read and the reset (`reset_orphan_iff`): it lands on an
expired running row exactly when the last status those commits set, if any, is
`running`, and the last deadline they set, if any, has passed.

The account of the log that carries this (`Explained`) says that each commit
turns the table it was applied to into the next one, by the columns it set.
-/
import Dass.System
import Dass.TaskStates

namespace Dass

open Lts Orm

/-! ## What the commits since a version have done to a row -/

/-- The last status a list of commits, newest first, sets on a task. -/
def lastStatus (T : TaskId) (commits : List Commit) : Option TaskStatus :=
  commits.findSome? fun c => if c.task = T then c.status else none

/-- The last deadline they set on it; `some none` where they cleared the lock. -/
def lastDeadline (T : TaskId) (commits : List Commit) : Option (Option Int) :=
  commits.findSome? fun c => if c.task = T then c.locked_until else none

/-- `row` is what `commits` make of `old`, in the two columns a reset is about. -/
def Evolved (T : TaskId) (commits : List Commit) (old row : Task) : Prop :=
  row.status = (lastStatus T commits).getD old.status ∧
  row.locked_until = (lastDeadline T commits).getD old.locked_until

/-- A commit turned the table before it into `tasks`. -/
def Commit.Applied (c : Commit) (tasks : Table Task) : Prop :=
  ∀ T old, c.before.get T = some old → ∃ row, tasks.get T = some row ∧ Evolved T [c] old row

/-- The log accounts for the table. -/
def Explained (tasks : Table Task) : List Commit → Prop
  | [] => True
  | c :: cs => c.Applied tasks ∧ Explained c.before cs

theorem Evolved.nil (T : TaskId) (row : Task) : Evolved T [] row row := ⟨rfl, rfl⟩

/-- A commit to another task. -/
theorem Evolved.other {T : TaskId} {c : Commit} (hT : c.task ≠ T) (row : Task) :
    Evolved T [c] row row := by
  simp [Evolved, lastStatus, lastDeadline, hT]

/-- A commit to the task itself sets what it sets. -/
theorem Evolved.self {T : TaskId} {c : Commit} {old row : Task} (hT : c.task = T)
    (hs : row.status = c.status.getD old.status)
    (hd : row.locked_until = c.locked_until.getD old.locked_until) : Evolved T [c] old row := by
  refine ⟨?_, ?_⟩
  · simp only [lastStatus, List.findSome?_cons, List.findSome?_nil, if_pos hT]
    rw [hs]
    cases c.status <;> rfl
  · simp only [lastDeadline, List.findSome?_cons, List.findSome?_nil, if_pos hT]
    rw [hd]
    cases c.locked_until <;> rfl

/-- One more commit. -/
theorem Evolved.cons {T : TaskId} {c : Commit} {cs : List Commit} {old mid row : Task}
    (h₁ : Evolved T cs old mid) (h₂ : Evolved T [c] mid row) : Evolved T (c :: cs) old row := by
  obtain ⟨hs₁, hd₁⟩ := h₁
  obtain ⟨hs₂, hd₂⟩ := h₂
  simp only [lastStatus, lastDeadline, List.findSome?_cons, List.findSome?_nil] at hs₂ hd₂
  refine ⟨?_, ?_⟩
  · rw [hs₂, hs₁]
    simp only [lastStatus, List.findSome?_cons]
    split <;> rfl
  · rw [hd₂, hd₁]
    simp only [lastDeadline, List.findSome?_cons]
    split <;> rfl

/-- A row of an earlier version is there now, as the commits since have left it. -/
theorem Explained.since : ∀ {log : List Commit} {tasks : Table Task} {n : Nat} {T : TaskId}
    {old : Task}, Explained tasks log → n ≤ log.length →
    (Store.table_at.at_ tasks log n).get T = some old →
    ∃ row, tasks.get T = some row ∧ Evolved T (log.take (log.length - n)) old row
  | [], _, _, T, old, _, _, hold => ⟨old, hold, by rw [List.take_nil]; exact .nil T old⟩
  | c :: cs, tasks, n, T, old, h, hn, hold => by
      rw [Store.table_at.at_] at hold
      split at hold
      · next hlt =>
          have hzero : (c :: cs).length - n = 0 := by simp only [List.length_cons]; omega
          rw [hzero]
          exact ⟨old, hold, .nil T old⟩
      · next hle =>
          obtain ⟨mid, hmid, hev⟩ := h.2.since (not_lt.mp hle) hold
          obtain ⟨row, hrow, hstep⟩ := h.1 T mid hmid
          have hsucc : (c :: cs).length - n = (cs.length - n) + 1 := by
            simp only [List.length_cons]; omega
          rw [hsucc, List.take_succ_cons]
          exact ⟨row, hrow, hev.cons hstep⟩

/-! ## The log accounts for the table, in every run -/

theorem Store.Next.explained {st st' : Store} (h : st.Next st')
    (hi : Explained st.tasks st.log) : Explained st'.tasks st'.log := by
  -- every write has the same shape: one row replaced, and the columns it set logged
  have key : ∀ {c : Commit} {row : Task}, st'.log = c :: st.log → c.before = st.tasks →
      (∀ T, st'.tasks.get T = if c.task = T then some row else st.tasks.get T) →
      (∀ old, st.tasks.get c.task = some old → row.status = c.status.getD old.status ∧
        row.locked_until = c.locked_until.getD old.locked_until) →
      Explained st'.tasks st'.log := by
    intro c row hlog hbefore hget hset
    rw [hlog]
    refine ⟨fun T old hold => ?_, hbefore ▸ hi⟩
    rw [hbefore] at hold
    rw [hget T]
    split
    · next hT =>
        subst hT
        obtain ⟨hs, hd⟩ := hset old hold
        exact ⟨row, rfl, .self rfl hs hd⟩
    · next hT => exact ⟨old, hold, .other hT old⟩
  cases h with
  | same => exact hi
  | create h =>
      obtain ⟨hnone, _, hlog, hget⟩ := Store.create_spec h
      refine key hlog rfl hget fun old hold => ?_
      rw [hnone] at hold
      cases hold
  | claim h =>
      obtain ⟨row, hrow, _, hlog, hget⟩ := Store.claim_task_spec h
      exact key hlog rfl hget fun _ _ => ⟨rfl, rfl⟩
  | heartbeat h =>
      obtain ⟨row, hrow, _, hlog, hget⟩ := Store.heartbeat_spec h
      refine key hlog rfl hget fun old hold => ?_
      rw [hrow] at hold
      cases hold
      exact ⟨rfl, rfl⟩
  | flush h =>
      obtain ⟨stored, hstored, hlog, hget⟩ := Store.flush_spec h
      refine key hlog rfl hget fun old hold => ?_
      rw [hstored] at hold
      cases hold
      exact ⟨emit_eq_getD_sent, emit_eq_getD_sent⟩

/-- A version stays what it is while the log grows. -/
theorem Store.Next.table_at {st st' : Store} (h : st.Next st') :
    st.log.length ≤ st'.log.length ∧
      ∀ n ≤ st.log.length, st'.table_at n = st.table_at n := by
  have key : ∀ {c : Commit}, st'.log = c :: st.log → c.before = st.tasks →
      st.log.length ≤ st'.log.length ∧
        ∀ n ≤ st.log.length, st'.table_at n = st.table_at n := by
    intro c hlog hbefore
    refine ⟨by rw [hlog]; exact Nat.le_succ _, fun n hn => ?_⟩
    rw [Store.table_at, hlog, Store.table_at.at_, if_neg (not_lt.mpr hn), hbefore]
    rfl
  cases h with
  | same => exact ⟨le_rfl, fun _ _ => rfl⟩
  | create h => exact key (Store.create_spec h).2.2.1 rfl
  | claim h => obtain ⟨_, _, _, hlog, _⟩ := Store.claim_task_spec h; exact key hlog rfl
  | heartbeat h => obtain ⟨_, _, _, hlog, _⟩ := Store.heartbeat_spec h; exact key hlog rfl
  | flush h => obtain ⟨_, _, hlog, _⟩ := Store.flush_spec h; exact key hlog rfl

/-- What a pass knows of the rows it has listed. -/
def PassOk (now : Int) (st : Store) : Recovery → Prop
  | .begun now' => now' ≤ now
  | .marking listed seen => seen ≤ st.log.length ∧ ∀ task ∈ listed,
      (st.table_at seen).get task.id = some task ∧ task.status = .running ∧
        ∃ deadline, task.locked_until = some deadline ∧ deadline < now

structure RecoveryInv (s : Sys) : Prop where
  log : Explained s.store.tasks s.store.log
  pass : ∀ p r, s.passes p = some r → PassOk s.now s.store r

theorem expired_iff {now : Int} {task : Task} : TaskRepository.expired now task = true ↔
    task.status = .running ∧ ∃ deadline, task.locked_until = some deadline ∧ deadline < now := by
  simp [TaskRepository.expired]

/-- Time passing and commits leave a pass with what it knows. -/
theorem PassOk.mono {now now' : Int} {st st' : Store} {r : Recovery} (hnow : now ≤ now')
    (hst : st.Next st') (h : PassOk now st r) : PassOk now' st' r := by
  cases r with
  | begun t => exact le_trans h hnow
  | marking listed seen =>
      obtain ⟨hseen, hlisted⟩ := h
      refine ⟨le_trans hseen hst.table_at.1, fun task ht => ?_⟩
      obtain ⟨hget, hrun, d, hd, hlt⟩ := hlisted task ht
      rw [hst.table_at.2 seen hseen]
      exact ⟨hget, hrun, d, hd, lt_of_lt_of_le hlt hnow⟩

theorem recoveryInv_step {env : Env} {s s' : Sys} {l : Sys.Label} (hi : RecoveryInv s)
    (h : Sys.Step env s l s') : RecoveryInv s' := by
  have hst := h.store
  have hlog := hst.explained hi.log
  cases h with
  | tick hd => exact ⟨hlog, fun p r hr => (hi.pass p r hr).mono (by simp only; omega) .same⟩
  | recover hstep =>
      refine ⟨hlog, fun p r hr => ?_⟩
      simp only [Function.update_apply] at hr
      split at hr
      · generalize hp : s.passes _ = r₀ at hstep
        cases hstep with
        | begin => cases hr; exact le_rfl
        | list hseen hperm =>
            cases hr
            have hnow : _ ≤ s.now := hi.pass _ _ hp
            refine ⟨hseen, fun task ht => ?_⟩
            obtain ⟨hget, hexp⟩ := TaskRepository.mem_list_expired_running.mp (hperm.mem_iff.mp ht)
            obtain ⟨hrun, d, hd, hlt⟩ := expired_iff.mp hexp
            exact ⟨hget, hrun, d, hd, lt_of_lt_of_le hlt hnow⟩
        | mark hflush =>
            cases hr
            obtain ⟨hseen, hlisted⟩ := (hi.pass _ _ hp).mono le_rfl hst
            exact ⟨hseen, fun task ht => hlisted task (List.mem_cons_of_mem _ ht)⟩
        | finish => cases hr
      · exact (hi.pass p r hr).mono le_rfl hst
  | _ => exact ⟨hlog, fun p r hr => (hi.pass p r hr).mono le_rfl hst⟩

theorem recoveryInv_run {env : Env} {C : Sys → Sys.Label → Prop} {jobs : Table Job} {now : Int}
    {s : Sys} (h : Run (Sys.Step env) C (.start jobs now) s) : RecoveryInv s :=
  h.invariant (fun hi _ hst => recoveryInv_step hi hst)
    ⟨trivial, by intro _ _ hr; cases hr⟩

/-! ## One reset -/

/-- Since the version the listing saw, nothing was committed to the task that took it out
of `running`, or to its lock that still holds it. -/
def Sys.LeftExpired (s : Sys) (T : TaskId) (seen : Nat) : Prop :=
  (∀ x, lastStatus T (s.store.log.take (s.store.log.length - seen)) = some x → x = .running) ∧
  ∀ d, lastDeadline T (s.store.log.take (s.store.log.length - seen)) = some d →
    ∃ deadline, d = some deadline ∧ deadline < s.now

/-- A commit of a pass sets its row to `pending`, whatever the row is by then. -/
theorem mark_pending {env : Env} {s s' : Sys} {p : PassId} {task : Task} {rest : List Task}
    {seen : Nat} (hi : RecoveryInv s) (hpass : s.passes p = some (.marking (task :: rest) seen))
    (hst : Sys.Step env s (.recover p .mark) s') :
    s'.store.status task.id = some .pending ∧
    ∀ T, T ≠ task.id → s'.store.tasks.get T = s.store.tasks.get T := by
  obtain ⟨_, hrunning, _⟩ := (hi.pass p _ hpass).2 task List.mem_cons_self
  cases hst with
  | recover hstep =>
      rw [hpass] at hstep
      cases hstep with
      | mark hflush =>
          obtain ⟨x, _, hw⟩ := Store.wrote_flush hflush
          obtain ⟨_, _, _, hget⟩ := Store.flush_spec hflush
          have hsent : emit task.status task.mark_running_expired_pending.status x = .pending :=
            emit_dirty (by rw [hrunning]; exact nofun)
          exact ⟨hsent ▸ hw.self, fun T hT => (hget T).trans (if_neg (Ne.symm hT))⟩

/-- **A reset lands on an orphan exactly when nobody touched it.**  In every run, each
commit of a recovery pass sets its row to `pending` and touches no other; the row was
running with its lock run out, at that moment and on the primary, if and only if the
commits since the version the listing read have left it so. -/
theorem reset_orphan_iff (env : Env) (jobs : Table Job) (now : Int) {s s' : Sys} {p : PassId}
    {task : Task} {rest : List Task} {seen : Nat}
    (hrun : Run (Sys.Step env) Any (.start jobs now) s)
    (hpass : s.passes p = some (.marking (task :: rest) seen))
    (hst : Sys.Step env s (.recover p .mark) s') :
    s'.store.status task.id = some .pending ∧
    (∀ T, T ≠ task.id → s'.store.tasks.get T = s.store.tasks.get T) ∧
    ((∃ row, s.store.tasks.get task.id = some row ∧
        TaskRepository.expired s.now row = true) ↔ s.LeftExpired task.id seen) := by
  have hi := recoveryInv_run hrun
  obtain ⟨hseen, hlisted⟩ := hi.pass p _ hpass
  obtain ⟨hold, hrunning, deadline, hdeadline, hlt⟩ := hlisted task List.mem_cons_self
  obtain ⟨row, hrow, hstatus, hlock⟩ := hi.log.since hseen hold
  rw [hrunning] at hstatus
  rw [hdeadline] at hlock
  obtain ⟨hpending, hother⟩ := mark_pending hi hpass hst
  refine ⟨hpending, hother, ?_⟩
  simp only [hrow, Option.some.injEq, exists_eq_left', expired_iff, hstatus, hlock,
    Sys.LeftExpired]
  refine and_congr ?_ ?_
  · cases lastStatus task.id (s.store.log.take (s.store.log.length - seen)) with
    | none => simp
    | some y => simp
  · cases lastDeadline task.id (s.store.log.take (s.store.log.length - seen)) with
    | none => simpa using hlt
    | some y => simp

/-- A worker that was claimed and never heard of again. -/
theorem reset_lands_on_orphan : ∃ s s' p task rest seen row,
    Run (Sys.Step example_env) Any (.start .empty 0) s ∧
    s.passes p = some (.marking (task :: rest) seen) ∧
    Sys.Step example_env s (.recover p .mark) s' ∧
    s.store.tasks.get task.id = some row ∧ TaskRepository.expired s.now row = true := by
  have h : Run (Sys.Step example_env) Any (.start .empty 0) (.start .empty 0) := .refl
  have h := h.snoc (l := Sys.Label.request (.create_job 1 example_one_time)) trivial
    (.request nofun rfl)
  have h := h.snoc (l := Sys.Label.accept (.one_time 1)) trivial (.accept rfl)
  have h := h.snoc (l := Sys.Label.create _ 1) trivial
    (.create List.mem_cons_self (by decide) rfl)
  have h := h.snoc trivial (.send (m := 1) List.mem_cons_self rfl)
  have h := h.snoc (l := Sys.Label.receive 1 1 example_worker) trivial
    (.receive rfl rfl rfl)
  have h := h.snoc trivial (.work (h := 1) rfl (.claim rfl rfl))
  have h := h.snoc trivial (.work (h := 1) rfl (.load rfl rfl))
  have h := h.snoc trivial (.work (h := 1) rfl (.lookup rfl rfl))
  have h := h.snoc trivial (.tick (d := seconds 31) (by decide))
  have h := h.snoc trivial (.recover (p := 1) .begin)
  have h := h.snoc (l := Sys.Label.recover 1 (.list 2)) trivial
    (.recover (.list (by decide) (.refl _)))
  have hreset := reset_orphan_iff example_env .empty 0 h (p := 1) rfl (.recover (.mark rfl))
  obtain ⟨row, hrow, hexp⟩ := hreset.2.2.mpr ⟨nofun, nofun⟩
  exact ⟨_, _, 1, _, _, _, row, h, rfl, .recover (.mark rfl), hrow, hexp⟩

/-- The worker records `success` between the listing and the reset, which takes the task
back to `pending`. -/
theorem reset_lands_on_success : ∃ s s' p task rest seen,
    Run (Sys.Step example_env) Any (.start .empty 0) s ∧
    s.passes p = some (.marking (task :: rest) seen) ∧
    Sys.Step example_env s (.recover p .mark) s' ∧
    s.store.status task.id = some .success ∧ s'.store.status task.id = some .pending := by
  have h : Run (Sys.Step example_env) Any (.start .empty 0) (.start .empty 0) := .refl
  have h := h.snoc (l := Sys.Label.request (.create_job 1 example_one_time)) trivial
    (.request nofun rfl)
  have h := h.snoc (l := Sys.Label.accept (.one_time 1)) trivial (.accept rfl)
  have h := h.snoc (l := Sys.Label.create _ 1) trivial
    (.create List.mem_cons_self (by decide) rfl)
  have h := h.snoc trivial (.send (m := 1) List.mem_cons_self rfl)
  have h := h.snoc (l := Sys.Label.receive 1 1 example_worker) trivial
    (.receive rfl rfl rfl)
  have h := h.snoc trivial (.work (h := 1) rfl (.claim rfl rfl))
  have h := h.snoc trivial (.work (h := 1) rfl (.load rfl rfl))
  have h := h.snoc trivial (.work (h := 1) rfl (.lookup rfl rfl))
  have h := h.snoc trivial (.tick (d := seconds 31) (by decide))
  have h := h.snoc trivial (.recover (p := 1) .begin)
  have h := h.snoc (l := Sys.Label.recover 1 (.list 2)) trivial
    (.recover (.list (by decide) (.refl _)))
  have h := h.snoc (l := Sys.Label.work 1 (.finish ⟨true, none, none⟩)) trivial
    (.work rfl (.finish rfl rfl))
  exact ⟨_, _, 1, _, _, _, h, rfl, .recover (.mark rfl), by decide, by decide⟩

end Dass
