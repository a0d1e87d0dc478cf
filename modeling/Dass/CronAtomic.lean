/-
# `Dass.CronAtomic` — a dispatch that is cut short

`_dispatch` commits twice: `jobs.update` the advanced `next_fire_at`, then
`tasks.create` the task.  Between the two stand the refresh of the row and the
policy check.  Here one scheduler process runs over its database, and at any point
a call may raise, which ends the cycle and leaves the heap and the cache as they
are, or the process may stop and start again with neither.

A firing cut off between the two commits (`Pc.between`) is gone: the row says
that it is past, so no sync pushes it again, and no task stands for it.  Cut off
anywhere else it is not: before the first commit the row still names it, after
the second the task is there (`cron_dispatch_atomic`).

Nobody else writes to `jobs` in these runs; the table they start from is
arbitrary.
-/
import Dass.SchedulerLoop

namespace Dass

open Lts

/-! ## One process, stopped and started -/

/-- A process of `run_scheduler`, and its database. -/
structure Runner where
  db : Db
  sched : Scheduler
  phase : Phase

inductive Runner.Label where
  | tick (d : Int)
  /-- `is_leader` has answered true, and the cycle goes on -/
  | is_leader
  | act (a : Act)
  /-- the process stops, wherever it is, and another starts -/
  | restart

inductive Runner.Step (env : Env) : Runner → Runner.Label → Runner → Prop
  | tick {s : Runner} {d} : 0 ≤ d →
      Runner.Step env s (.tick d) { s with db := { s.db with now := s.db.now + d } }
  | is_leader {s : Runner} : s.phase = .standby →
      Runner.Step env s .is_leader { s with phase := .elected }
  | act {s : Runner} {a db' sched' phase'} : ActStep env s.db s.sched a db' sched' →
      s.phase.next a sched'.pc = some phase' →
      Runner.Step env s (.act a) ⟨db', sched', phase'⟩
  | restart {s : Runner} : Runner.Step env s .restart ⟨s.db, .init, .standby⟩

/-- Any content of `jobs`, and a process that has just started. -/
def Runner.start (jobs : Table Job) (now : Int) : Runner :=
  ⟨⟨now, jobs, [], []⟩, .init, .standby⟩

/-- A call raises, or the process stops. -/
def Runner.Label.Fault : Runner.Label → Prop
  | .act .fail | .restart => True
  | _ => False

/-! ## What the claim is about -/

/-- The firing whose schedule is advanced and whose task is not created: the job and the
instant. -/
def Pc.between : Pc → Option (JobId × Int)
  | .updated _ t id => some (id, t)
  | .refreshed _ t job => some (job.id, t)
  | _ => none

/-- `next_fire_at` of the job is past `t`. -/
def Runner.PastDue (s : Runner) (j : JobId) (t : Int) : Prop :=
  ∃ row n, s.db.jobs.get j = some row ∧ row.next_fire_at = some n ∧ t < n

/-- A task was created for the firing of the job at `t`. -/
def HasFired (fired : List Firing) (j : JobId) (t : Int) : Prop :=
  ∃ f ∈ fired, f.task.job_id = j ∧ f.instant = t ∧
    f.task.trigger_type = .scheduled ∧ f.task.status = .pending

/-- The schedule is past the firing if and only if the firing has a task. -/
def Runner.Atomic (s : Runner) (j : JobId) (t : Int) : Prop :=
  s.PastDue j t ↔ HasFired s.db.fired j t

/-- No fault hits the firing of the job at `t` between its two commits. -/
def Runner.Uncut (j : JobId) (t : Int) (s : Runner) (l : Runner.Label) : Prop :=
  l.Fault → s.sched.pc.between ≠ some (j, t)

/-! ## What the process knows -/

/-- The invariant of one process: what it knows of the table, and from its sync on its
cache is the table. -/
structure RunnerInv (s : Runner) : Prop where
  whole : WholeSeconds s.db.jobs
  proc : ProcOk s.db s.sched
  fresh : s.phase.pastSync = true → Fresh s.db s.sched

theorem runnerInv_start {jobs : Table Job} {now : Int} (hw : WholeSeconds jobs) :
    RunnerInv (.start jobs now) :=
  ⟨hw, procOk_init _, nofun⟩

theorem runnerInv_step {env : Env} {s s' : Runner} {l : Runner.Label} (hi : RunnerInv s)
    (h : Runner.Step env s l s') : RunnerInv s' := by
  cases h with
  | @tick d hd =>
      have hnow : s.db.now ≤ s.db.now + d := by omega
      refine ⟨hi.whole, ProcOk.mono hnow (Advances.refl s.db.now s.db.jobs) hi.proc,
        fun hpast => ?_⟩
      exact ⟨(hi.fresh hpast).cache, (hi.fresh hpast).merging, (hi.fresh hpast).back⟩
  | is_leader => exact ⟨hi.whole, hi.proc, nofun⟩
  | restart => exact ⟨hi.whole, procOk_init _, nofun⟩
  | @act a db' sched' phase' hact hphase =>
      have hcommit : a = .commit → Fresh s.db s.sched := by
        rintro rfl
        exact hi.fresh (Phase.of_commit hphase)
      obtain ⟨hproc, _, _, hw⟩ := procOk_act hact hi.proc hi.whole hcommit
      refine ⟨hw, hproc, fun hpast => ?_⟩
      obtain ⟨hne, hsync⟩ := Phase.of_pastSync hphase hpast
      exact fresh_act hact hi.proc hne (hsync.imp_right hi.fresh)

/-- A process asks for the policy in mid-cycle only. -/
theorem Phase.of_enqueue {phase phase' : Phase} {running : Bool} {id : TaskId} {pc : Pc}
    (h : phase.next (.enqueue running id) pc = some phase') : phase.pastSync = true := by
  cases phase with
  | standby | elected => cases h
  | synced | dispatching => rfl

/-! ## What a step does to one job -/

/-- Nothing about the job has changed but what the process is doing with it. -/
structure Runner.SameFor (j : JobId) (s s' : Runner) : Prop where
  row : s'.db.jobs.get j = s.db.jobs.get j
  fired : ∀ t, HasFired s'.db.fired j t ↔ HasFired s.db.fired j t

theorem Runner.SameFor.of_eq {j : JobId} {s s' : Runner} (hjobs : s'.db.jobs = s.db.jobs)
    (hfired : s'.db.fired = s.db.fired) : s.SameFor j s' where
  row := by rw [hjobs]
  fired t := by rw [hfired]

/-- The firings of a job after one more. -/
theorem hasFired_append {fired : List Firing} {task : Task} {t₀ : Int}
    (htrigger : task.trigger_type = .scheduled) (hstatus : task.status = .pending) (j : JobId)
    (t : Int) :
    HasFired (fired ++ [⟨task, t₀⟩]) j t ↔ HasFired fired j t ∨ (task.job_id = j ∧ t₀ = t) := by
  constructor
  · rintro ⟨f, hf, hj, ht, hrest⟩
    rcases List.mem_append.mp hf with hold | hnew
    · exact .inl ⟨f, hold, hj, ht, hrest⟩
    · obtain rfl := List.mem_singleton.mp hnew
      exact .inr ⟨hj, ht⟩
  · rintro (⟨f, hf, hrest⟩ | ⟨hj, ht⟩)
    · exact ⟨f, List.mem_append_left _ hf, hrest⟩
    · exact ⟨_, List.mem_append_right _ (List.mem_singleton.mpr rfl), hj, ht, htrigger, hstatus⟩

/-- What a step does to a job that has a row. -/
inductive Runner.Effect (j : JobId) (row : Job) (s : Runner) (l : Runner.Label) (s' : Runner) :
    Prop
  /-- its schedule is advanced past the instant `t` that its row names -/
  | advanced {t n : Int} {row' : Job} : s.sched.pc.between = none →
      row.next_fire_at = some t → s'.db.jobs.get j = some row' →
      row'.concurrency_policy = row.concurrency_policy → row'.next_fire_at = some n → t < n →
      s'.sched.pc.between = some (j, t) →
      (∀ t', HasFired s'.db.fired j t' ↔ HasFired s.db.fired j t') →
      Runner.Effect j row s l s'
  /-- its task is created -/
  | created {t : Int} : s.sched.pc.between = some (j, t) →
      s'.db.jobs.get j = s.db.jobs.get j → s'.sched.pc.between = none →
      (∀ t', HasFired s'.db.fired j t' ↔ HasFired s.db.fired j t' ∨ t = t') →
      Runner.Effect j row s l s'
  /-- its task is not created: the policy forbids it, or the dispatch is cut short -/
  | dropped {t : Int} : s.sched.pc.between = some (j, t) → s.SameFor j s' →
      s'.sched.pc.between = none → row.concurrency_policy = .forbid ∨ l.Fault →
      Runner.Effect j row s l s'
  /-- nothing -/
  | none : s.SameFor j s' →
      (∀ t, s'.sched.pc.between = some (j, t) ↔ s.sched.pc.between = some (j, t)) →
      Runner.Effect j row s l s'

/-- A step that keeps the tables and ends with no firing in between. -/
theorem Runner.Effect.of_fault {j : JobId} {row : Job} {s s' : Runner} {l : Runner.Label}
    (hl : l.Fault) (hsame : s.SameFor j s') (hpc : s'.sched.pc.between = .none) :
    Runner.Effect j row s l s' := by
  by_cases h : ∃ t, s.sched.pc.between = some (j, t)
  · obtain ⟨t, ht⟩ := h
    exact .dropped ht hsame hpc (.inr hl)
  · refine .none hsame fun t => iff_of_false ?_ fun ht => h ⟨t, ht⟩
    rw [hpc]
    exact nofun

/-- **The step lemma.** -/
theorem Runner.effect {env : Env} {s s' : Runner} {l : Runner.Label} (hi : RunnerInv s)
    (h : Runner.Step env s l s') {j : JobId} {row : Job} (hrow : s.db.jobs.get j = some row) :
    Runner.Effect j row s l s' := by
  cases h with
  | tick | is_leader => exact .none (.of_eq rfl rfl) fun _ => Iff.rfl
  | restart => exact .of_fault trivial (.of_eq rfl rfl) rfl
  | act hact hphase =>
      have hidle : ∀ {pc pc' : Pc}, pc.between = .none → pc'.between = .none →
          ∀ t : Int, pc'.between = some (j, t) ↔ pc.between = some (j, t) := by
        intro pc pc' h h' t
        rw [h, h']
      cases hact with
      | sync hpc => exact .none (.of_eq rfl rfl) fun _ => Iff.rfl
      | begin hpc | done hpc _ | raised hpc _ | due hpc _ | merge hpc =>
          refine .none (.of_eq rfl rfl) (hidle ?_ rfl)
          rw [hpc]
          rfl
      | skipped hpc _ => exact .none (.of_eq rfl rfl) fun _ => Iff.rfl
      | send hpc | finish hpc =>
          refine .none (.of_eq rfl rfl) (hidle ?_ rfl)
          rw [hpc]
          rfl
      | fail => exact .of_fault trivial (.of_eq rfl rfl) rfl
      | @commit now job t loaded expression jobs' hpc _ hcommit =>
          obtain ⟨rfl, hjob, _⟩ :=
            row_of_merged hi.proc (hi.fresh (Phase.of_commit hphase)) hpc
          have hat := hi.proc.at_
          rw [hpc] at hat
          obtain ⟨_, _, ht, hdue⟩ := hat
          by_cases hj : j = job.id
          · subst hj
            obtain rfl : job = row := Option.some.inj (hjob.symm.trans hrow)
            have hget := JobRepository.get_update hcommit job.id
            rw [if_pos rfl, hjob, Option.map_some, Job.flush_loaded _ _ _ (by rfl)] at hget
            have hlt := lt_next_cron_time env expression now
            exact .advanced (by rw [hpc]; rfl) ht hget rfl rfl (by omega) rfl fun _ => Iff.rfl
          · have hother := (commit_advances hjob ht hdue hcommit).2 j hj
            refine .none ⟨hother, fun _ => Iff.rfl⟩ fun t' => ?_
            rw [hpc]
            refine iff_of_false (fun heq => ?_) nofun
            cases heq
            exact hj rfl
      | @refresh now t id stored hpc hstored =>
          refine .none (.of_eq rfl rfl) fun t' => ?_
          have hid : stored.id = id := Table.key_of_get hstored
          rw [hpc]
          show some (stored.id, t) = some (j, t') ↔ some (id, t) = some (j, t')
          rw [hid]
      | @forbidden now t job running id hpc hforbid _ =>
          by_cases hj : job.id = j
          · subst hj
            have hback : s.db.jobs.get job.id = some job :=
              (hi.fresh (Phase.of_enqueue hphase)).back job (by rw [hpc]; rfl)
            obtain rfl : job = row := Option.some.inj (hback.symm.trans hrow)
            exact .dropped (by rw [hpc]; rfl) (.of_eq rfl rfl) rfl (.inl hforbid)
          · refine .none (.of_eq rfl rfl) fun t' => iff_of_false nofun fun heq => ?_
            rw [hpc] at heq
            cases heq
            exact hj rfl
      | @create now t job running id hpc _ _ _ =>
          have hfired : ∀ t', HasFired
              (s.db.fired ++ [⟨.fresh id job.id .scheduled 0 s.db.now, t⟩]) j t' ↔
              HasFired s.db.fired j t' ∨ (job.id = j ∧ t = t') := hasFired_append rfl rfl j
          by_cases hj : job.id = j
          · subst hj
            refine .created (by rw [hpc]; rfl) rfl rfl fun t' => (hfired t').trans ?_
            exact or_congr_right (and_iff_right rfl)
          · refine .none ⟨rfl, fun t' => (hfired t').trans ?_⟩ fun t' => iff_of_false nofun ?_
            · exact or_iff_left fun h => hj h.1
            · intro heq
              rw [hpc] at heq
              cases heq
              exact hj rfl

/-- A job without a row gets none. -/
theorem Runner.get_none_step {env : Env} {s s' : Runner} {l : Runner.Label} (hi : RunnerInv s)
    (h : Runner.Step env s l s') {j : JobId} (hnone : s.db.jobs.get j = none) :
    s'.db.jobs.get j = none := by
  cases h with
  | tick | is_leader | restart => exact hnone
  | act hact hphase =>
      cases hact with
      | @commit now job t loaded expression jobs' hpc _ hcommit =>
          obtain ⟨rfl, hjob, _⟩ :=
            row_of_merged hi.proc (hi.fresh (Phase.of_commit hphase)) hpc
          have hat := hi.proc.at_
          rw [hpc] at hat
          have hj : j ≠ job.id := by
            rintro rfl
            rw [hjob] at hnone
            cases hnone
          exact ((commit_advances hjob hat.2.2.1 hat.2.2.2 hcommit).2 j hj).trans hnone
      | _ => exact hnone

/-! ## No firing is behind its schedule -/

/-- Every firing with a task, and the firing in between, are past in the row; and the
firing in between has no task. -/
structure InPast (s : Runner) (j : JobId) (row : Job) : Prop where
  fired : ∀ t, HasFired s.db.fired j t → ∃ n, row.next_fire_at = some n ∧ t < n
  between : ∀ t, s.sched.pc.between = some (j, t) →
    (∃ n, row.next_fire_at = some n ∧ t < n) ∧ ¬ HasFired s.db.fired j t

/-- The schedules only run ahead of the firings. -/
structure PastInv (s : Runner) : Prop where
  inv : RunnerInv s
  past : ∀ j row, s.db.jobs.get j = some row → InPast s j row

theorem pastInv_start {jobs : Table Job} {now : Int} (hw : WholeSeconds jobs) :
    PastInv (.start jobs now) where
  inv := runnerInv_start hw
  past j row _ :=
    { fired := by rintro t ⟨_, hf, _⟩; cases hf
      between := by intro _ h; cases h }

theorem pastInv_step {env : Env} {s s' : Runner} {l : Runner.Label} (hi : PastInv s)
    (h : Runner.Step env s l s') : PastInv s' := by
  refine ⟨runnerInv_step hi.inv h, fun j row' hrow' => ?_⟩
  cases hrow : s.db.jobs.get j with
  | none =>
      rw [Runner.get_none_step hi.inv h hrow] at hrow'
      cases hrow'
  | some row =>
      have hpast := hi.past j row hrow
      cases Runner.effect hi.inv h hrow with
      | @advanced t n r hnone ht hr _ hn hlt hbetween hfired =>
          rw [hr] at hrow'
          cases hrow'
          have hbefore : ∀ t', HasFired s.db.fired j t' → t' < t := by
            intro t' hf
            obtain ⟨m, hm, hlt'⟩ := hpast.fired t' hf
            rw [ht] at hm
            cases hm
            exact hlt'
          refine ⟨fun t' hf => ⟨n, hn, ?_⟩, fun t' hb => ?_⟩
          · exact lt_trans (hbefore t' ((hfired t').mp hf)) hlt
          · rw [hbetween] at hb
            cases hb
            refine ⟨⟨n, hn, hlt⟩, fun hf => ?_⟩
            exact lt_irrefl t (hbefore t ((hfired t).mp hf))
      | @created t hbetween hsame hnone hfired =>
          rw [hsame, hrow] at hrow'
          cases hrow'
          refine ⟨fun t' hf => ?_, fun t' hb => ?_⟩
          · rcases (hfired t').mp hf with hold | rfl
            · exact hpast.fired t' hold
            · exact (hpast.between t hbetween).1
          · rw [hnone] at hb
            cases hb
      | dropped _ hsame hnone _ =>
          rw [hsame.row, hrow] at hrow'
          cases hrow'
          refine ⟨fun t' hf => hpast.fired t' ((hsame.fired t').mp hf), fun t' hb => ?_⟩
          rw [hnone] at hb
          cases hb
      | none hsame hbetween =>
          rw [hsame.row, hrow] at hrow'
          cases hrow'
          refine ⟨fun t' hf => hpast.fired t' ((hsame.fired t').mp hf), fun t' hb => ?_⟩
          rw [hsame.fired t']
          exact hpast.between t' ((hbetween t').mp hb)

theorem pastInv_run {env : Env} {jobs : Table Job} {now : Int} (hw : WholeSeconds jobs)
    {s : Runner} (h : Run (Runner.Step env) Any (.start jobs now) s) : PastInv s :=
  h.invariant (fun hi _ hst => pastInv_step hi hst) (pastInv_start hw)

/-! ## A firing that is not cut off -/

/-- The firing at `t` is ahead, or in between, or has its task. -/
structure Owed (j : JobId) (t : Int) (s : Runner) : Prop where
  inv : PastInv s
  owed : ∃ row n, s.db.jobs.get j = some row ∧ row.concurrency_policy = .allow ∧
    row.next_fire_at = some n ∧
    (n = t ∨ t < n ∧ (s.sched.pc.between = some (j, t) ∨ HasFired s.db.fired j t))

theorem owed_step {env : Env} {j : JobId} {t : Int} {s s' : Runner} {l : Runner.Label}
    (hi : Owed j t s) (hl : s.Uncut j t l) (h : Runner.Step env s l s') : Owed j t s' := by
  refine ⟨pastInv_step hi.inv h, ?_⟩
  obtain ⟨row, n, hrow, hallow, hn, hor⟩ := hi.owed
  cases Runner.effect hi.inv.inv h hrow with
  | @advanced t₀ n' row' hnone ht₀ hrow' hpolicy hn' hlt hbetween hfired =>
      rw [hn] at ht₀
      cases ht₀
      refine ⟨row', n', hrow', hpolicy.trans hallow, hn', .inr ?_⟩
      rcases hor with rfl | ⟨hpast, hb | hf⟩
      · exact ⟨hlt, .inl hbetween⟩
      · rw [hnone] at hb
        cases hb
      · exact ⟨lt_trans hpast hlt, .inr ((hfired t).mpr hf)⟩
  | @created t₀ hbetween hsame hnone hfired =>
      refine ⟨row, n, hsame.trans hrow, hallow, hn, ?_⟩
      refine hor.imp_right fun ⟨hpast, hor⟩ => ⟨hpast, .inr ((hfired t).mpr ?_)⟩
      rcases hor with hb | hf
      · rw [hbetween] at hb
        cases hb
        exact .inr rfl
      · exact .inl hf
  | @dropped t₀ hbetween hsame hnone hwhy =>
      refine ⟨row, n, hsame.row.trans hrow, hallow, hn, ?_⟩
      refine hor.imp_right fun ⟨hpast, hor⟩ => ⟨hpast, .inr ((hsame.fired t).mpr ?_)⟩
      rcases hor with hb | hf
      · rcases hwhy with hforbid | hfault
        · rw [hallow] at hforbid
          cases hforbid
        · exact absurd hb (hl hfault)
      · exact hf
  | none hsame hbetween =>
      refine ⟨row, n, hsame.row.trans hrow, hallow, hn, ?_⟩
      refine hor.imp_right fun ⟨hpast, hor⟩ => ⟨hpast, ?_⟩
      exact hor.imp (hbetween t).mpr (hsame.fired t).mpr

theorem Owed.atomic {j : JobId} {t : Int} {s : Runner} (h : Owed j t s)
    (hb : s.sched.pc.between ≠ some (j, t)) : s.Atomic j t := by
  obtain ⟨row, n, hrow, _, hn, hor⟩ := h.owed
  constructor
  · rintro ⟨row', n', hrow', hn', hlt⟩
    rw [hrow] at hrow'
    cases hrow'
    rw [hn] at hn'
    cases hn'
    rcases hor with rfl | ⟨_, hbetween | hf⟩
    · exact absurd hlt (lt_irrefl _)
    · exact absurd hbetween hb
    · exact hf
  · intro hf
    obtain ⟨n', hn', hlt⟩ := (h.inv.past j row hrow).fired t hf
    exact ⟨row, n', hrow, hn', hlt⟩

/-! ## A firing that is -/

/-- The firing at `t` is past, nothing is being done about it, and it has no task. -/
structure Gone (j : JobId) (t : Int) (s : Runner) : Prop where
  inv : PastInv s
  past : s.PastDue j t
  idle : s.sched.pc.between ≠ some (j, t)
  not_fired : ¬ HasFired s.db.fired j t

theorem gone_step {env : Env} {j : JobId} {t : Int} {s s' : Runner} {l : Runner.Label}
    (hi : Gone j t s) (h : Runner.Step env s l s') : Gone j t s' := by
  obtain ⟨row, n, hrow, hn, hlt⟩ := hi.past
  have hinv := pastInv_step hi.inv h
  cases Runner.effect hi.inv.inv h hrow with
  | @advanced t₀ n' row' hnone ht₀ hrow' hpolicy hn' hlt' hbetween hfired =>
      rw [hn] at ht₀
      cases ht₀
      refine ⟨hinv, ⟨row', n', hrow', hn', lt_trans hlt hlt'⟩, ?_, mt (hfired t).mp hi.not_fired⟩
      rw [hbetween]
      intro heq
      cases heq
      exact lt_irrefl _ hlt
  | @created t₀ hbetween hsame hnone hfired =>
      refine ⟨hinv, ⟨row, n, hsame.trans hrow, hn, hlt⟩, by rw [hnone]; exact nofun, ?_⟩
      intro hf
      rcases (hfired t).mp hf with hold | rfl
      · exact hi.not_fired hold
      · exact hi.idle hbetween
  | dropped _ hsame hnone _ =>
      exact ⟨hinv, ⟨row, n, hsame.row.trans hrow, hn, hlt⟩, by rw [hnone]; exact nofun,
        mt (hsame.fired t).mp hi.not_fired⟩
  | none hsame hbetween =>
      exact ⟨hinv, ⟨row, n, hsame.row.trans hrow, hn, hlt⟩, mt (hbetween t).mp hi.idle,
        mt (hsame.fired t).mp hi.not_fired⟩

/-- The fault itself. -/
theorem gone_of_fault {env : Env} {j : JobId} {t : Int} {s s' : Runner} {l : Runner.Label}
    (hi : PastInv s) (hl : l.Fault) (hb : s.sched.pc.between = some (j, t))
    (h : Runner.Step env s l s') : Gone j t s' := by
  have hrow : ∃ row, s.db.jobs.get j = some row := by
    have hat := hi.inv.proc.at_
    cases hpc : s.sched.pc with
    | updated now t₀ id =>
        rw [hpc] at hat hb
        cases hb
        obtain ⟨row, _, hrow, _⟩ := hat.2.1
        exact ⟨row, hrow⟩
    | refreshed now t₀ job =>
        rw [hpc] at hat hb
        cases hb
        obtain ⟨row, _, hrow, _⟩ := hat.1.2.1
        exact ⟨row, hrow⟩
    | _ => rw [hpc] at hb; cases hb
  obtain ⟨row, hrow⟩ := hrow
  obtain ⟨⟨n, hn, hlt⟩, hnot⟩ := (hi.past j row hrow).between t hb
  have hinv := pastInv_step hi h
  cases h with
  | restart => exact ⟨hinv, ⟨row, n, hrow, hn, hlt⟩, nofun, hnot⟩
  | tick | is_leader => exact hl.elim
  | act hact _ =>
      cases hact with
      | fail => exact ⟨hinv, ⟨row, n, hrow, hn, hlt⟩, nofun, hnot⟩
      | _ => exact hl.elim

/-! ## The dispatch -/

/-- **A dispatch is atomic exactly when it is not cut between its commits.**  From any
reachable state, take the firing that the row of a job with policy `allow` names.  In
every run from there, with any number of faults at any point, as long as none hits that
firing between its two commits, the schedule is past it if and only if it has its task,
whenever the process is not there.  A fault that does leaves, for good, a schedule that
is past it and no task. -/
theorem cron_dispatch_atomic (env : Env) {jobs : Table Job} (now : Int)
    (hw : WholeSeconds jobs) {s : Runner}
    (hs : Run (Runner.Step env) Any (.start jobs now) s) {j : JobId} {row : Job} {t : Int}
    (hrow : s.db.jobs.get j = some row) (hallow : row.concurrency_policy = .allow)
    (ht : row.next_fire_at = some t) :
    (∀ s', Run (Runner.Step env) (Runner.Uncut j t) s s' →
      s'.sched.pc.between ≠ some (j, t) → s'.Atomic j t) ∧
    ∀ u v s' l, Run (Runner.Step env) Any s u → u.sched.pc.between = some (j, t) → l.Fault →
      Runner.Step env u l v → Run (Runner.Step env) Any v s' → ¬ s'.Atomic j t := by
  have hi := pastInv_run hw hs
  constructor
  · intro s' hrun hb
    have howed : Owed j t s := ⟨hi, row, t, hrow, hallow, ht, .inl rfl⟩
    exact (hrun.invariant (fun hk hl hst => owed_step hk hl hst) howed).atomic hb
  · intro u v s' l hu hb hl hstep hv hatomic
    have hgone := gone_of_fault (pastInv_run hw (hs.trans hu)) hl hb hstep
    have hend : Gone j t s' := hv.invariant (fun hg _ hst => gone_step hg hst) hgone
    exact hend.not_fired (hatomic.mp hend.past)

/-- The process stops after the merge; the one started after it fires the same instant. -/
theorem cron_dispatch_atomic_merged : ∃ s',
    Run (Runner.Step example_env) (Runner.Uncut 1 (seconds 60)) (.start example_jobs 0) s' ∧
    s'.Atomic 1 (seconds 60) ∧ s'.db.fired.map (·.instant) = [seconds 60] := by
  have h₀ : Run (Runner.Step example_env) (Runner.Uncut 1 (seconds 60))
    (.start example_jobs 0) (.start example_jobs 0) := .refl
  have h₁ := h₀.snoc (l := Runner.Label.is_leader) nofun (.is_leader rfl)
  have h₂ := h₁.snoc (l := Runner.Label.act Act.sync) nofun (.act (.sync rfl) rfl)
  have h₃ := h₂.snoc (l := Runner.Label.tick (seconds 60)) nofun (.tick (by decide))
  have h₄ := h₃.snoc (l := Runner.Label.act Act.begin) nofun (.act (.begin rfl) rfl)
  have h₅ := h₄.snoc (l := Runner.Label.act Act.pop) nofun (.act (.due rfl rfl) rfl)
  have h₆ := h₅.snoc (l := Runner.Label.act Act.merge) nofun (.act (.merge rfl) rfl)
  have h₇ := h₆.snoc (l := Runner.Label.restart) (fun _ => nofun) .restart
  have h₈ := h₇.snoc (l := Runner.Label.is_leader) nofun (.is_leader rfl)
  have h₉ := h₈.snoc (l := Runner.Label.act Act.sync) nofun (.act (.sync rfl) rfl)
  have h₁₀ := h₉.snoc (l := Runner.Label.act Act.begin) nofun (.act (.begin rfl) rfl)
  have h₁₁ := h₁₀.snoc (l := Runner.Label.act Act.pop) nofun (.act (.due rfl rfl) rfl)
  have h₁₂ := h₁₁.snoc (l := Runner.Label.act Act.merge) nofun (.act (.merge rfl) rfl)
  have h₁₃ := h₁₂.snoc (l := Runner.Label.act Act.commit) nofun
    (.act (.commit rfl rfl rfl) rfl)
  have h₁₄ := h₁₃.snoc (l := Runner.Label.act Act.refresh) nofun (.act (.refresh rfl rfl) rfl)
  have h₁₅ := h₁₄.snoc (l := Runner.Label.act (Act.enqueue false 1)) nofun
    (.act (.create rfl (by decide) (by decide) (by decide)) rfl)
  refine ⟨_, h₁₅, ?_, by decide⟩
  exact (cron_dispatch_atomic example_env 0 wholeSeconds_example .refl (j := 1)
    (t := seconds 60) rfl rfl rfl).1 _ h₁₅ nofun

/-- The process stops after the commit of the advanced schedule.  The one started after it
completes a cycle in which nothing raises: the row names the next minute, and the firing
at the first has no task. -/
theorem cron_dispatch_lost : ∃ u v s',
    (example_jobs.get 1).bind Job.next_fire_at = some (seconds 60) ∧
    Run (Runner.Step example_env) Any (.start example_jobs 0) u ∧
    Runner.Step example_env u .restart v ∧
    Run (Runner.Step example_env) (fun _ l => ¬ l.Fault) v s' ∧
    s'.sched.mem.last_sync_at = some (seconds 50) ∧ s'.phase = .standby ∧
    (s'.db.jobs.get 1).map Job.concurrency_policy = some .allow ∧
    (s'.db.jobs.get 1).bind Job.next_fire_at = some (seconds 120) ∧
    s'.db.fired = [] ∧ ¬ s'.Atomic 1 (seconds 60) := by
  have h₀ : Run (Runner.Step example_env) Any
    (.start example_jobs 0) (.start example_jobs 0) := .refl
  have h₁ := h₀.snoc (l := Runner.Label.is_leader) trivial (.is_leader rfl)
  have h₂ := h₁.snoc (l := Runner.Label.act Act.sync) trivial (.act (.sync rfl) rfl)
  have h₃ := h₂.snoc (l := Runner.Label.tick (seconds 60)) trivial (.tick (by decide))
  have h₄ := h₃.snoc (l := Runner.Label.act Act.begin) trivial (.act (.begin rfl) rfl)
  have h₅ := h₄.snoc (l := Runner.Label.act Act.pop) trivial (.act (.due rfl rfl) rfl)
  have h₆ := h₅.snoc (l := Runner.Label.act Act.merge) trivial (.act (.merge rfl) rfl)
  have h₇ := h₆.snoc (l := Runner.Label.act Act.commit) trivial
    (.act (.commit rfl rfl rfl) rfl)
  have h₈ := (h₇.snoc (l := Runner.Label.restart) trivial .restart).here
    (D := fun _ l => ¬ l.Fault)
  have h₉ := h₈.snoc (l := Runner.Label.is_leader) id (.is_leader rfl)
  have h₁₀ := h₉.snoc (l := Runner.Label.act Act.sync) id (.act (.sync rfl) rfl)
  have h₁₁ := h₁₀.snoc (l := Runner.Label.act Act.begin) id (.act (.begin rfl) rfl)
  have h₁₂ := h₁₁.snoc (l := Runner.Label.act Act.pop) id (.act (.done rfl rfl) rfl)
  refine ⟨_, _, _, rfl, h₇, .restart, h₁₂, rfl, rfl, rfl, rfl, rfl, fun hatomic => ?_⟩
  obtain ⟨_, hf, _⟩ := hatomic.mp ⟨_, seconds 120, rfl, rfl, by decide⟩
  cases hf

end Dass
