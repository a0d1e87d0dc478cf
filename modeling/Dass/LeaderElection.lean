/-
# `Dass.LeaderElection` — one firing, one task

Leadership is asked for once a cycle and on another connection than the one the
cycle works on, and the dispatch does not look at the row's `next_fire_at`.  So
what keeps a firing from being dispatched twice is that whoever advances a
schedule still holds the lock then (`fired_once`): its cache was the table since
its sync, and every instant fired before lies behind the row.  A leader that
loses the lock between its pop and its commit fires an instant its successor has
fired already (`fired_twice`).
-/
import Dass.SchedulerLoop

namespace Dass

open Lts

variable {P : Type} [DecidableEq P]

/-- The process whose session holds the advisory lock. -/
def Loop.Holds (s : Loop P) (p : P) : Prop := s.holder = some p

/-- The job of a firing and its cron instant. -/
def Firing.slot (f : Firing) : JobId × Int := (f.task.job_id, f.instant)

/-- What cron dispatches have created tasks for. -/
def Db.instants (db : Db) : List (JobId × Int) := db.fired.map Firing.slot

/-- At most one process holds the lock, and it is acquired at the top of a cycle only. -/
theorem holds_exclusive (env : Env) : Exclusive env (Loop.Holds (P := P)) where
  unique := by
    intro s p q hp hq
    exact Option.some.inj (hp.symm.trans hq)
  kept := by
    intro s s' l p h hpast hx
    cases h with
    | tick | act => exact hx
    | die =>
        simp only [Loop.Holds] at hx
        split at hx
        · cases hx
        · exact hx
    | @is_leader q =>
        simp only [Loop.Holds, Loop.asked] at hx hpast
        split at hx
        · next hwon =>
            obtain rfl := Option.some.inj hx
            simp only [Function.update_self, hwon, if_true] at hpast
            cases hpast
        · exact hx

/-! ## The invariant -/

/-- The firing whose schedule is advanced and whose task is still to be created. -/
def Pc.pending : Pc → Option (JobId × Int)
  | .updated _ t id => some (id, t)
  | .refreshed _ t job => some (job.id, t)
  | _ => none

/-- The row has moved on from an instant. -/
def Behind (jobs : Table Job) (k : JobId × Int) : Prop :=
  ∃ r n, jobs.get k.1 = some r ∧ r.next_fire_at = some n ∧ k.2 < n

structure FireInv (s : Loop P) : Prop where
  behind : ∀ k ∈ s.db.instants, Behind s.db.jobs k
  pending : ∀ p k, (s.procs p).sched.pc.pending = some k → k ∉ s.db.instants
  distinct : ∀ p q k, (s.procs p).sched.pc.pending = some k →
    (s.procs q).sched.pc.pending = some k → p = q
  nodup : s.db.instants.Nodup

omit [DecidableEq P] in
theorem fireInv_start (jobs : Table Job) (now : Int) : FireInv (P := P) (.start jobs now) where
  behind := by intro k hk; cases hk
  pending := by intro p k hk; cases hk
  distinct := by intro p q k hk; cases hk
  nodup := List.nodup_nil

theorem Behind.advance {jobs jobs' : Table Job} {now : Int} {k : JobId × Int}
    (hadv : Advances now jobs jobs') (h : Behind jobs k) : Behind jobs' k := by
  obtain ⟨r, n, hr, hn, hlt⟩ := h
  rcases hadv k.1 r hr with hsame | ⟨r', t, n', hr', _, _, ht, hn', hlt'⟩
  · exact ⟨r, n, hsame, hn, hlt⟩
  · rw [hn] at ht
    cases ht
    exact ⟨r', n', hr', hn', lt_trans hlt hlt'⟩

theorem Advanced.behind {jobs : Table Job} {since : Option Int} {j : JobId} {t : Int}
    (h : Advanced jobs since j t) : Behind jobs (j, t) := by
  obtain ⟨r, n, hr, _, hn, hlt, _⟩ := h
  exact ⟨r, n, hr, hn, hlt⟩

/-- A pending firing lies behind its row. -/
theorem behind_of_pending {db : Db} {sched : Scheduler} (h : ProcOk db sched) {k : JobId × Int}
    (hk : sched.pc.pending = some k) : Behind db.jobs k := by
  have hat := h.at_
  cases hpc : sched.pc with
  | updated now t id =>
      rw [hpc] at hk hat
      cases hk
      exact hat.2.1.behind
  | refreshed now t job =>
      rw [hpc] at hk hat
      cases hk
      exact hat.1.2.1.behind
  | _ => rw [hpc] at hk; cases hk

/-- Nothing that lies behind a row is the instant the row names. -/
theorem not_behind {jobs : Table Job} {job : Job} {t : Int} (hrow : jobs.get job.id = some job)
    (ht : job.next_fire_at = some t) : ¬ Behind jobs (job.id, t) := by
  rintro ⟨r, n, hr, hn, hlt⟩
  rw [hrow] at hr
  cases hr
  rw [ht] at hn
  cases hn
  exact lt_irrefl _ hlt

/-- What one step of a scheduler does to the instants and to its own pending firing. -/
inductive Fires (db db' : Db) (pc pc' : Pc) : Prop
  | quiet : db'.instants = db.instants →
      (pc'.pending = none ∨ pc'.pending = pc.pending) → Fires db db' pc pc'
  | opens {k} : db'.instants = db.instants → pc'.pending = some k →
      ¬ Behind db.jobs k → Fires db db' pc pc'
  | fires {k} : db'.instants = db.instants ++ [k] → pc.pending = some k → pc'.pending = none →
      Fires db db' pc pc'

theorem fires_of_act {env : Env} {db db' : Db} {p p' : Scheduler} {a : Act}
    (h : ActStep env db p a db' p') (hi : ProcOk db p) (hcommit : a = .commit → Fresh db p) :
    Fires db db' p.pc p'.pc := by
  cases h with
  | sync | skipped => exact .quiet rfl (.inr rfl)
  | @commit now job t loaded _ _ hpc _ _ =>
      have hat := hi.at_
      obtain ⟨_, hrow, _⟩ := row_of_merged hi (hcommit rfl) hpc
      rw [hpc] at hat
      exact .opens rfl rfl (not_behind hrow hat.2.2.1)
  | @refresh now t id row hpc hrow =>
      have hid : row.id = id := Table.key_of_get hrow
      refine .quiet rfl (.inr ?_)
      rw [hpc]
      exact congrArg some (congrArg (·, t) hid)
  | create hpc =>
      refine .fires ?_ (by rw [hpc]; rfl) rfl
      simp only [Db.instants, List.map_append]
      rfl
  | _ => exact .quiet rfl (.inl rfl)

omit [DecidableEq P] in
/-- Only the two tables and where the schedulers are count. -/
theorem FireInv.congr {s s' : Loop P} (hi : FireInv s) (hjobs : s'.db.jobs = s.db.jobs)
    (hfired : s'.db.fired = s.db.fired)
    (hsched : ∀ p, (s'.procs p).sched = (s.procs p).sched) : FireInv s' := by
  have hinst : s'.db.instants = s.db.instants := by simp only [Db.instants, hfired]
  refine ⟨?_, ?_, ?_, ?_⟩
  · rw [hinst, hjobs]
    exact hi.behind
  · intro p k hk
    rw [hinst]
    exact hi.pending p k (hsched p ▸ hk)
  · intro p q k hp hq
    exact hi.distinct p q k (hsched p ▸ hp) (hsched q ▸ hq)
  · rw [hinst]
    exact hi.nodup

/-- A step of one scheduler keeps the invariant: an instant it opens is one that lies
behind no row, so neither a fired one nor another scheduler's. -/
theorem FireInv.act {s : Loop P} {p : P} {db' : Db} {sched' : Scheduler} {phase' : Phase}
    (hi : FireInv s) (hproc : ∀ q, ProcOk s.db (s.procs q).sched)
    (hadv : Advances s.db.now s.db.jobs db'.jobs)
    (hf : Fires s.db db' (s.procs p).sched.pc sched'.pc) :
    FireInv { s with
      db := db'
      procs := Function.update s.procs p
        { s.procs p with sched := sched', phase := phase' } } := by
  have hbehind : ∀ k ∈ s.db.instants, Behind db'.jobs k :=
    fun k hk => (hi.behind k hk).advance hadv
  -- what is pending is pending elsewhere already, or pending where the step has led
  have hsplit : ∀ q k, (Function.update s.procs p
      { s.procs p with sched := sched', phase := phase' } q).sched.pc.pending = some k →
      q = p ∧ sched'.pc.pending = some k ∨
        q ≠ p ∧ (s.procs q).sched.pc.pending = some k := by
    intro q k hk
    simp only [Function.update_apply] at hk
    split at hk
    · next heq => exact .inl ⟨heq, hk⟩
    · next hne => exact .inr ⟨hne, hk⟩
  cases hf with
  | quiet hinst hpc =>
      -- whatever is pending afterwards was pending before, in the same process
      have hold : ∀ q k, (Function.update s.procs p
          { s.procs p with sched := sched', phase := phase' } q).sched.pc.pending = some k →
          (s.procs q).sched.pc.pending = some k := by
        intro q k hk
        rcases hsplit q k hk with ⟨rfl, hmine⟩ | ⟨_, hother⟩
        · rcases hpc with hnone | hsame
          · rw [hnone] at hmine; cases hmine
          · rw [← hsame]; exact hmine
        · exact hother
      refine ⟨?_, ?_, ?_, ?_⟩
      · rw [hinst]; exact hbehind
      · intro q k hk
        rw [hinst]
        exact hi.pending q k (hold q k hk)
      · intro q q' k hq hq'
        exact hi.distinct q q' k (hold q k hq) (hold q' k hq')
      · rw [hinst]; exact hi.nodup
  | @opens new hinst hpc hnew =>
      have hother : ∀ q, (s.procs q).sched.pc.pending ≠ some new :=
        fun q hq => hnew (behind_of_pending (hproc q) hq)
      refine ⟨?_, ?_, ?_, ?_⟩
      · rw [hinst]; exact hbehind
      · intro q k hk
        rw [hinst]
        rcases hsplit q k hk with ⟨_, hk⟩ | ⟨_, hk⟩
        · rw [hpc, Option.some.injEq] at hk
          subst hk
          exact fun hfired => hnew (hi.behind _ hfired)
        · exact hi.pending q k hk
      · intro q q' k hq hq'
        rcases hsplit q k hq with ⟨hqp, hk⟩ | ⟨_, hk⟩
        · rw [hpc, Option.some.injEq] at hk
          subst hk
          rcases hsplit q' _ hq' with ⟨hqp', _⟩ | ⟨_, hk'⟩
          · exact hqp.trans hqp'.symm
          · exact absurd hk' (hother q')
        · rcases hsplit q' k hq' with ⟨_, hk'⟩ | ⟨_, hk'⟩
          · rw [hpc, Option.some.injEq] at hk'
            subst hk'
            exact absurd hk (hother q)
          · exact hi.distinct q q' k hk hk'
      · rw [hinst]; exact hi.nodup
  | @fires k₀ hinst hpc hpc' =>
      have hold : ∀ q k, (Function.update s.procs p
          { s.procs p with sched := sched', phase := phase' } q).sched.pc.pending = some k →
          q ≠ p ∧ (s.procs q).sched.pc.pending = some k := by
        intro q k hk
        rcases hsplit q k hk with ⟨_, hk⟩ | h
        · rw [hpc'] at hk; cases hk
        · exact h
      refine ⟨?_, ?_, ?_, ?_⟩
      · rw [hinst]
        intro k hk
        rcases List.mem_append.mp hk with hk | hk
        · exact hbehind k hk
        · rw [List.mem_singleton.mp hk]
          exact (behind_of_pending (hproc p) hpc).advance hadv
      · intro q k hk
        obtain ⟨hne, hq⟩ := hold q k hk
        rw [hinst, List.mem_append, List.mem_singleton, not_or]
        refine ⟨hi.pending q k hq, ?_⟩
        rintro rfl
        exact hne (hi.distinct q p _ hq hpc)
      · intro q q' k hq hq'
        exact hi.distinct q q' k (hold q k hq).2 (hold q' k hq').2
      · rw [hinst, List.nodup_append]
        refine ⟨hi.nodup, List.nodup_singleton _, ?_⟩
        intro k hk k' hk' heq
        rw [List.mem_singleton.mp hk'] at heq
        exact hi.pending p _ hpc (heq ▸ hk)

/-- **The step lemma.** -/
theorem fireInv_step {env : Env} {s s' : Loop P} {l : Loop.Label P} (hloop : LoopInv Loop.Holds s)
    (hi : FireInv s) (hl : CommitsOnly Loop.Holds s l) (h : Loop.Step env s l s') :
    FireInv s' := by
  cases h with
  | tick => exact hi.congr rfl rfl fun _ => rfl
  | @die p =>
      refine hi.congr rfl rfl fun q => ?_
      simp only [Function.update_apply]
      split
      · next heq => rw [heq]
      · rfl
  | @is_leader p =>
      refine hi.congr rfl rfl fun q => ?_
      simp only [Loop.asked, Function.update_apply]
      split
      · next heq => rw [heq]
      · rfl
  | @act p a db' sched' phase' hact hphase =>
      have hcommit : a = .commit → Fresh s.db (s.procs p).sched := by
        rintro rfl
        exact hloop.fresh p (hl p rfl) (Phase.of_commit hphase)
      obtain ⟨_, _, hadv, _⟩ := procOk_act hact (hloop.proc p) hloop.whole hcommit
      exact hi.act hloop.proc hadv (fires_of_act hact (hloop.proc p) hcommit)

theorem fireInv_run {env : Env} {jobs : Table Job} {now : Int} (hw : WholeSeconds jobs)
    {s : Loop P} (h : Run (Loop.Step env) (CommitsOnly Loop.Holds) (.start jobs now) s) :
    FireInv s := by
  have hboth : LoopInv Loop.Holds s ∧ FireInv s := by
    refine h.invariant (I := fun s => LoopInv Loop.Holds s ∧ FireInv s) ?_
      ⟨loopInv_start hw, fireInv_start jobs now⟩
    intro s t l hi hl hstep
    exact ⟨loopInv_step (holds_exclusive env) hi.1 hl hstep, fireInv_step hi.1 hi.2 hl hstep⟩
  exact hboth.2

/-! ## One firing, one task -/

/-- The tasks created for one cron instant of a job. -/
def Db.tasks_of (db : Db) (j : JobId) (t : Int) : List Task :=
  (db.fired.filter fun f => f.slot = (j, t)).map Firing.task

/-- At most one first attempt of a scheduled run for every job and cron instant. -/
def OncePerInstant (db : Db) : Prop :=
  ∀ j t, ((db.tasks_of j t).filter fun task =>
    task.trigger_type = .scheduled ∧ task.retry_count = 0).length ≤ 1

theorem oncePerInstant_of_nodup {db : Db} (h : db.instants.Nodup) : OncePerInstant db := by
  intro j t
  have hsub : (db.fired.filter fun f => f.slot = (j, t)).Sublist db.fired :=
    List.filter_sublist
  have hnodup := h.sublist (hsub.map Firing.slot)
  have hall : ∀ k ∈ (db.fired.filter fun f => f.slot = (j, t)).map Firing.slot, k = (j, t) := by
    intro k hk
    obtain ⟨f, hf, rfl⟩ := List.mem_map.mp hk
    exact of_decide_eq_true (List.mem_filter.mp hf).2
  have hlen := hnodup.length_le_one fun a ha b hb => (hall a ha).trans (hall b hb).symm
  calc _ ≤ (db.tasks_of j t).length := List.length_filter_le _ _
    _ ≤ 1 := by simpa [Db.tasks_of] using hlen

/-- **One firing, one task.**  In every run of any number of schedulers in which whoever
commits an advanced schedule holds the lock at that moment, no cron instant of a job gets
two tasks. -/
theorem fired_once (env : Env) {jobs : Table Job} (now : Int) (hw : WholeSeconds jobs)
    {s : Loop P} (hrun : Run (Loop.Step env) (CommitsOnly Loop.Holds) (.start jobs now) s) :
    OncePerInstant s.db :=
  oncePerInstant_of_nodup (fireInv_run hw hrun).nodup

/-- The leader fires; its lock session dies, and its successor finds nothing due. -/
theorem fired_once_by_two : ∃ s : Loop Bool,
    Run (Loop.Step example_env) (CommitsOnly Loop.Holds) (.start example_jobs 0) s ∧
    s.holder = some false ∧ s.db.instants = [(1, seconds 60)] ∧ OncePerInstant s.db := by
  have h₀ : Run (Loop.Step example_env) (CommitsOnly Loop.Holds)
    (Loop.start (P := Bool) example_jobs 0) (.start example_jobs 0) := .refl
  have h₁ := h₀.snoc (l := Loop.Label.is_leader true) nofun (.is_leader rfl)
  have h₂ := h₁.snoc (l := Loop.Label.act true Act.sync) nofun (.act (.sync rfl) rfl)
  have h₃ := h₂.snoc (l := Loop.Label.tick (seconds 60)) nofun (.tick (by decide))
  have h₄ := h₃.snoc (l := Loop.Label.act true Act.begin) nofun (.act (.begin rfl) rfl)
  have h₅ := h₄.snoc (l := Loop.Label.act true Act.pop) nofun (.act (.due rfl rfl) rfl)
  have h₆ := h₅.snoc (l := Loop.Label.act true Act.merge) nofun (.act (.merge rfl) rfl)
  have h₇ := h₆.snoc (l := Loop.Label.act true Act.commit) (fun p h => by cases h; rfl)
    (.act (.commit rfl rfl rfl) rfl)
  have h₈ := h₇.snoc (l := Loop.Label.act true Act.refresh) nofun (.act (.refresh rfl rfl) rfl)
  have h₉ := h₈.snoc (l := Loop.Label.act true (Act.enqueue false 1)) nofun
    (.act (.create rfl (by decide) (by decide) (by decide)) rfl)
  have h₁₀ := h₉.snoc (l := Loop.Label.die true) nofun (.die rfl)
  have h₁₁ := h₁₀.snoc (l := Loop.Label.is_leader false) nofun (.is_leader rfl)
  have h₁₂ := h₁₁.snoc (l := Loop.Label.act false Act.sync) nofun (.act (.sync rfl) rfl)
  have h₁₃ := h₁₂.snoc (l := Loop.Label.act false Act.begin) nofun (.act (.begin rfl) rfl)
  have h₁₄ := h₁₃.snoc (l := Loop.Label.act false Act.pop) nofun (.act (.done rfl rfl) rfl)
  exact ⟨_, h₁₄, rfl, rfl, fired_once example_env 0 wholeSeconds_example h₁₄⟩

/-- The leader has popped the due entry when its lock session dies.  Its successor syncs
the row that is not advanced yet and fires it, and then so does the old leader. -/
theorem fired_twice : ∃ s : Loop Bool,
    Run (Loop.Step example_env) Any (.start example_jobs 0) s ∧
    s.db.instants = [(1, seconds 60), (1, seconds 60)] ∧ ¬ OncePerInstant s.db := by
  have h₀ : Run (Loop.Step example_env) Any
    (Loop.start (P := Bool) example_jobs 0) (.start example_jobs 0) := .refl
  have h₁ := h₀.snoc (l := Loop.Label.is_leader true) trivial (.is_leader rfl)
  have h₂ := h₁.snoc (l := Loop.Label.act true Act.sync) trivial (.act (.sync rfl) rfl)
  have h₃ := h₂.snoc (l := Loop.Label.tick (seconds 60)) trivial (.tick (by decide))
  have h₄ := h₃.snoc (l := Loop.Label.act true Act.begin) trivial (.act (.begin rfl) rfl)
  have h₅ := h₄.snoc (l := Loop.Label.act true Act.pop) trivial (.act (.due rfl rfl) rfl)
  have h₆ := h₅.snoc (l := Loop.Label.die true) trivial (.die rfl)
  have h₇ := h₆.snoc (l := Loop.Label.is_leader false) trivial (.is_leader rfl)
  have h₈ := h₇.snoc (l := Loop.Label.act false Act.sync) trivial (.act (.sync rfl) rfl)
  have h₉ := h₈.snoc (l := Loop.Label.act false Act.begin) trivial (.act (.begin rfl) rfl)
  have h₁₀ := h₉.snoc (l := Loop.Label.act false Act.pop) trivial (.act (.due rfl rfl) rfl)
  have h₁₁ := h₁₀.snoc (l := Loop.Label.act false Act.merge) trivial (.act (.merge rfl) rfl)
  have h₁₂ := h₁₁.snoc (l := Loop.Label.act false Act.commit) trivial
    (.act (.commit rfl rfl rfl) rfl)
  have h₁₃ := h₁₂.snoc (l := Loop.Label.act false Act.refresh) trivial
    (.act (.refresh rfl rfl) rfl)
  have h₁₄ := h₁₃.snoc (l := Loop.Label.act false (Act.enqueue false 1)) trivial
    (.act (.create rfl (by decide) (by decide) (by decide)) rfl)
  have h₁₅ := h₁₄.snoc (l := Loop.Label.act true Act.merge) trivial (.act (.merge rfl) rfl)
  have h₁₆ := h₁₅.snoc (l := Loop.Label.act true Act.commit) trivial
    (.act (.commit rfl rfl rfl) rfl)
  have h₁₇ := h₁₆.snoc (l := Loop.Label.act true Act.refresh) trivial
    (.act (.refresh rfl rfl) rfl)
  have h₁₈ := h₁₇.snoc (l := Loop.Label.act true (Act.enqueue false 2)) trivial
    (.act (.create rfl (by decide) (by decide) (by decide)) rfl)
  exact ⟨_, h₁₈, rfl, fun h => absurd (h 1 (seconds 60)) (by decide)⟩

end Dass
