/-
# `Dass.SchedulerLoop` — `run_scheduler`, in any number of processes

`LeaderLock` and `run_scheduler` of `backend/app/cli.py`.  Every process has its
own lock connection, heap, cache and cursor; they share the database, and on it
one advisory lock that at most one live session holds.  A cycle is

    is_leader    on the lock's own connection, once, at the top of the loop
    sync_jobs    one step of `ActStep`
    dispatch     the steps of `dispatch_due_jobs`

and ends early when anything raises.  `recover_orphans` and
`trigger_dependent_jobs` touch neither `jobs` nor the memory of the cron
scheduler; that they may raise is in the steps that end a cycle.  A lock session
may die at any moment, which releases the lock and which its process finds out
about when it next asks.

The second half is what a process can count on.  Its memory tracks the table
(`ProcOk`) whoever else commits, as long as commits only advance schedules; and
from its sync to the end of its cycle its cache is the table (`Fresh`), as long
as nobody else commits in between.  Who may commit is a parameter (`Exclusive`).
-/
import Dass.CronSync

namespace Dass

open Lts

/-! ## Leader election -/

/-- The connection the lock lives on. -/
inductive Session where
  /-- `_conn is None` -/
  | closed
  | alive
  /-- the server has ended the session; the next statement on it raises -/
  | dead
deriving DecidableEq

structure LeaderLock where
  _conn : Session
  _is_leader : Bool
deriving DecidableEq

/-- `LeaderLock.is_leader`; `free` is what `pg_try_advisory_lock` would answer. -/
def LeaderLock.is_leader (lock : LeaderLock) (free : Bool) : LeaderLock × Bool :=
  match lock._conn with
  | .dead => (⟨.closed, false⟩, false)
  | .closed => (⟨.alive, free⟩, free)
  | .alive => if lock._is_leader then (lock, true) else (⟨.alive, free⟩, free)

/-! ## The loop -/

/-- Where the cycle of a process is. -/
inductive Phase where
  | standby | elected | synced | dispatching
deriving DecidableEq

/-- The process has synced and its cycle is not over. -/
def Phase.pastSync : Phase → Bool
  | .synced | .dispatching => true
  | .standby | .elected => false

/-- The steps a cycle is made of, in their order; `pc` is where the step has led. -/
def Phase.next : Phase → Act → Pc → Option Phase
  | .standby, _, _ => none
  | _, .fail, _ => some .standby
  | .elected, .sync, _ => some .synced
  | .synced, .begin, _ => some .dispatching
  | .dispatching, .sync, _ | .dispatching, .begin, _ => none
  | .dispatching, _, .idle => some .standby
  | .dispatching, _, _ => some .dispatching
  | _, _, _ => none

structure Process where
  lock : LeaderLock
  sched : Scheduler
  phase : Phase

structure Loop (P : Type) where
  db : Db
  /-- whose lock session holds the advisory lock -/
  holder : Option P
  procs : P → Process

inductive Loop.Label (P : Type) where
  | tick (d : Int)
  | die (p : P)
  | is_leader (p : P)
  | act (p : P) (a : Act)

variable {P : Type} [DecidableEq P]

/-- Any content of `jobs`; every process has just started. -/
def Loop.start (jobs : Table Job) (now : Int) : Loop P where
  db := ⟨now, jobs, [], []⟩
  holder := none
  procs _ := ⟨⟨.closed, false⟩, .init, .standby⟩

/-- The lock after `p` has asked for it. -/
def Loop.asked (s : Loop P) (p : P) : Loop P :=
  let r := (s.procs p).lock.is_leader (s.holder.isNone)
  { s with
    holder := if r.2 then some p else s.holder
    procs := Function.update s.procs p
      { s.procs p with lock := r.1, phase := if r.2 then .elected else .standby } }

inductive Loop.Step (env : Env) : Loop P → Loop.Label P → Loop P → Prop
  | tick {s : Loop P} {d} : 0 ≤ d →
      Loop.Step env s (.tick d) { s with db := { s.db with now := s.db.now + d } }
  | die {s : Loop P} {p} : (s.procs p).lock._conn = .alive →
      Loop.Step env s (.die p) { s with
        holder := if s.holder = some p then none else s.holder
        procs := Function.update s.procs p
          { s.procs p with lock := { (s.procs p).lock with _conn := .dead } } }
  | is_leader {s : Loop P} {p} : (s.procs p).phase = .standby →
      Loop.Step env s (.is_leader p) (s.asked p)
  | act {s : Loop P} {p a db' sched' phase'} :
      ActStep env s.db (s.procs p).sched a db' sched' →
      (s.procs p).phase.next a sched'.pc = some phase' →
      Loop.Step env s (.act p a) { s with
        db := db'
        procs := Function.update s.procs p
          { s.procs p with sched := sched', phase := phase' } }

/-! ## Cron instants -/

/-- Every firing time is a cron instant: a whole second. -/
def WholeSeconds (jobs : Table Job) : Prop :=
  ∀ job ∈ jobs.rows, ∀ t ∈ job.next_fire_at, seconds 1 ∣ t

theorem wholeSeconds_empty : WholeSeconds .empty := by
  intro job hmem
  cases hmem

theorem WholeSeconds.of_get {jobs : Table Job} (hw : WholeSeconds jobs) {j : JobId} {row : Job}
    (h : jobs.get j = some row) {t : Int} (ht : t ∈ row.next_fire_at) : seconds 1 ∣ t :=
  hw row (Table.mem_of_get h) t ht

theorem wholeSeconds_of_get {jobs : Table Job}
    (h : ∀ j row, jobs.get j = some row → ∀ t ∈ row.next_fire_at, seconds 1 ∣ t) :
    WholeSeconds jobs :=
  fun row hmem => h row.id row (Table.get_of_mem hmem)

theorem resolve_schedule_whole {env : Env} {now : Int} {raw_cron : Option String}
    {r : JobType × Option String × Option Int} (h : _resolve_schedule env now raw_cron = .ok r) :
    ∀ t ∈ r.2.2, seconds 1 ∣ t := by
  unfold _resolve_schedule at h
  split at h
  · cases h
    intro t ht
    cases ht
  · split at h
    · cases h
      intro t ht
      rw [Option.mem_some_iff] at ht
      exact ht ▸ env.croniter.whole _ now
    · cases h

theorem create_job_row_whole {env : Env} {now : Int} {id : JobId} {payload : JobCreate}
    {job : Job} (h : create_job_row env now id payload = .ok job) :
    ∀ t ∈ job.next_fire_at, seconds 1 ∣ t :=
  resolve_schedule_whole (create_job_row_ok h).schedule

theorem updated_schedule_whole {env : Env} {now : Int} {job : Job} {data : Field String}
    {r : JobType × Option String × Option Int}
    (hold : ∀ t ∈ job.next_fire_at, seconds 1 ∣ t)
    (h : updated_schedule env now job data = .ok r) : ∀ t ∈ r.2.2, seconds 1 ∣ t := by
  cases data with
  | unset => cases h; exact hold
  | null | value cron =>
      simp only [updated_schedule] at h
      exact resolve_schedule_whole h

theorem update_job_row_whole {env : Env} {now : Int} {job assigned : Job} {data : JobUpdate}
    (hold : ∀ t ∈ job.next_fire_at, seconds 1 ∣ t)
    (h : update_job_row env now job data = .ok assigned) :
    ∀ t ∈ assigned.next_fire_at, seconds 1 ∣ t :=
  updated_schedule_whole hold (update_job_row_ok h).schedule

/-- **The API writes cron instants only.** -/
theorem ApiOp.commit_wholeSeconds {env : Env} {now : Int} {jobs jobs' : Table Job} {op : ApiOp}
    (hw : WholeSeconds jobs) (h : op.commit env now jobs = some jobs') : WholeSeconds jobs' := by
  refine wholeSeconds_of_get fun j row hrow => ?_
  cases op with
  | create_job k payload =>
      simp only [ApiOp.commit] at h
      split at h
      · cases h
      · next job hjob =>
          rw [JobRepository.get_create h] at hrow
          split at hrow
          · cases hrow
            exact create_job_row_whole hjob
          · exact fun t ht => hw.of_get hrow ht
  | update_job k data =>
      simp only [ApiOp.commit] at h
      split at h
      · cases h
      · next job hjob =>
          split at h
          · cases h
          · next assigned hassigned =>
              have hid := (update_job_row_stamp hassigned).1
              have hnew := update_job_row_whole (fun t ht => hw.of_get hjob ht) hassigned
              have hk : job.id = k := Table.key_of_get hjob
              rw [JobRepository.get_update h] at hrow
              split at hrow
              · next heq =>
                  rw [← heq, hk, hjob, Option.map_some, Option.some.injEq] at hrow
                  rw [Job.flush_loaded now job assigned hid] at hrow
                  subst hrow
                  exact hnew
              · exact fun t ht => hw.of_get hrow ht
  | delete_job k =>
      simp only [ApiOp.commit] at h
      split at h
      · cases h
      · cases h
        simp only [JobRepository.delete, Table.get_erase] at hrow
        split at hrow
        · cases hrow
        · exact fun t ht => hw.of_get hrow ht

theorem wholeSeconds_example : WholeSeconds example_jobs :=
  ApiOp.commit_wholeSeconds wholeSeconds_empty
    (rfl : (ApiOp.create_job 1 example_payload).commit example_env 0 .empty = some example_jobs)

/-! ## What commits do to the table -/

/-- From one table to the next, schedules advanced and nothing else changed but the stamp. -/
def Advances (now : Int) (jobs jobs' : Table Job) : Prop :=
  ∀ j r, jobs.get j = some r → jobs'.get j = some r ∨
    ∃ r' t n, jobs'.get j = some r' ∧ r'.job_type = r.job_type ∧ r'.updated_at = now ∧
      r.next_fire_at = some t ∧ r'.next_fire_at = some n ∧ t < n

theorem Advances.refl (now : Int) (jobs : Table Job) : Advances now jobs jobs :=
  fun _ _ h => .inl h

/-- The row of `c` is `c`, or the next sync will read it. -/
def Tracked (jobs : Table Job) (last_sync_at : Option Int) (c : Job) : Prop :=
  ∃ r, jobs.get c.id = some r ∧ r.job_type = .scheduled ∧
    (r = c ∨ Stamped last_sync_at r)

/-- The row has moved on from the firing at `t`, and the next sync will read it. -/
def Advanced (jobs : Table Job) (last_sync_at : Option Int) (j : JobId) (t : Int) : Prop :=
  ∃ r n, jobs.get j = some r ∧ r.job_type = .scheduled ∧ r.next_fire_at = some n ∧ t < n ∧
    Stamped last_sync_at r

section Advances

variable {jobs jobs' : Table Job} {now t : Int} {since : Option Int} {c : Job} {j : JobId}

theorem stamped_of_now {r : Job} (hcursor : ∀ since', since = some since' → since' ≤ now)
    (h : r.updated_at = now) : Stamped since r := by
  intro since' hs
  rw [h]
  exact hcursor since' hs

theorem Tracked.advance (hcursor : ∀ since', since = some since' → since' ≤ now)
    (hadv : Advances now jobs jobs') (h : Tracked jobs since c) : Tracked jobs' since c := by
  obtain ⟨r, hr, htype, hor⟩ := h
  rcases hadv c.id r hr with hsame | ⟨r', _, _, hr', htype', hstamp, _⟩
  · exact ⟨r, hsame, htype, hor⟩
  · exact ⟨r', hr', htype'.trans htype, .inr (stamped_of_now hcursor hstamp)⟩

theorem Advanced.advance (hcursor : ∀ since', since = some since' → since' ≤ now)
    (hadv : Advances now jobs jobs') (h : Advanced jobs since j t) :
    Advanced jobs' since j t := by
  obtain ⟨r, n, hr, htype, hn, hlt, hstamp⟩ := h
  rcases hadv j r hr with hsame | ⟨r', t', n', hr', htype', hstamp', ht', hn', hlt'⟩
  · exact ⟨r, n, hsame, htype, hn, hlt, hstamp⟩
  · rw [hn] at ht'
    cases ht'
    exact ⟨r', n', hr', htype'.trans htype, hn', lt_trans hlt hlt',
      stamped_of_now hcursor hstamp'⟩

end Advances

/-! ## What a process knows -/

/-- What the memory of a process says about the table. -/
structure MemOk (db : Db) (m : CronScheduler) : Prop where
  ids : ∀ j c, m.job_cache j = some c → c.id = j
  tracked : ∀ j c, m.job_cache j = some c → Tracked db.jobs m.last_sync_at c
  cursor : ∀ since, m.last_sync_at = some since → since ≤ db.now
  cache : ∀ j c, m.job_cache j = some c → ∀ t ∈ c.next_fire_at, seconds 1 ∣ t
  heap : ∀ e ∈ m.heap, seconds 1 ∣ (ofLex e).1

/-- A dispatch of `job` at its firing `t`, before the commit. -/
def Due (db : Db) (m : CronScheduler) (now : Int) (job : Job) (t : Int) : Prop :=
  now ≤ db.now ∧ m.job_cache job.id = some job ∧ job.next_fire_at = some t ∧ t ≤ now

/-- The same after the commit: the row has moved on, the cache slot has not. -/
def Moved (db : Db) (m : CronScheduler) (now : Int) (j : JobId) (t : Int) : Prop :=
  now ≤ db.now ∧ Advanced db.jobs m.last_sync_at j t ∧
    ∃ c, m.job_cache j = some c ∧ c.next_fire_at = some t

/-- The job as it was read back after the commit. -/
def ReadBack (db : Db) (m : CronScheduler) (job : Job) : Prop :=
  Tracked db.jobs m.last_sync_at job ∧ ∀ t ∈ job.next_fire_at, seconds 1 ∣ t

/-- What the point a process has reached says. -/
def AtOk (db : Db) (m : CronScheduler) : Pc → Prop
  | .idle => True
  | .looping now => now ≤ db.now
  | .opened now job t | .merged now job t _ => Due db m now job t
  | .updated now t id => Moved db m now id t
  | .refreshed now t job | .created now t job _ | .sent now t job =>
      Moved db m now job.id t ∧ ReadBack db m job

structure ProcOk (db : Db) (sched : Scheduler) : Prop where
  mem : MemOk db sched.mem
  at_ : AtOk db sched.mem sched.pc

/-- The copy a dispatch is about to commit, and the row its merge has read. -/
def Pc.merging : Pc → Option (Job × Option Job)
  | .merged _ job _ loaded => some (job, loaded)
  | _ => none

/-- The job a dispatch has read back. -/
def Pc.readBack : Pc → Option Job
  | .refreshed _ _ job | .created _ _ job _ | .sent _ _ job => some job
  | _ => none

/-- The cache is the table, except for the job in flight, and so are the copies a dispatch
goes on with. -/
structure Fresh (db : Db) (sched : Scheduler) : Prop where
  cache : ∀ j c, sched.mem.job_cache j = some c →
    sched.pc.inFlight = some j ∨ db.jobs.get j = some c
  merging : ∀ job loaded, sched.pc.merging = some (job, loaded) → loaded = some job
  back : ∀ job, sched.pc.readBack = some job → db.jobs.get job.id = some job

/-- Between two dispatches the whole cache is the table. -/
theorem Fresh.row {db : Db} {p : Scheduler} (hf : Fresh db p) (hfly : p.pc.inFlight = none)
    {j : JobId} {c : Job} (hc : p.mem.job_cache j = some c) : db.jobs.get j = some c := by
  rcases hf.cache j c hc with h | hrow
  · rw [hfly] at h
    cases h
  · exact hrow

theorem procOk_init (db : Db) : ProcOk db .init where
  mem :=
    { ids := by intro _ _ h; cases h
      tracked := by intro _ _ h; cases h
      cursor := by intro _ h; cases h
      cache := by intro _ _ h; cases h
      heap := by intro e h; cases h }
  at_ := trivial

/-! ### Whoever else commits -/

section Mono

variable {db db' : Db} {m : CronScheduler}

theorem MemOk.mono (hnow : db.now ≤ db'.now) (hadv : Advances db.now db.jobs db'.jobs)
    (h : MemOk db m) : MemOk db' m where
  ids := h.ids
  tracked j c hc := (h.tracked j c hc).advance h.cursor hadv
  cursor since hs := le_trans (h.cursor since hs) hnow
  cache := h.cache
  heap := h.heap

theorem Moved.mono (hnow : db.now ≤ db'.now) (hadv : Advances db.now db.jobs db'.jobs)
    (hcursor : ∀ since, m.last_sync_at = some since → since ≤ db.now) {now t : Int} {j : JobId}
    (h : Moved db m now j t) : Moved db' m now j t :=
  ⟨le_trans h.1 hnow, h.2.1.advance hcursor hadv, h.2.2⟩

/-- **What a process knows survives what others commit.** -/
theorem ProcOk.mono {sched : Scheduler} (hnow : db.now ≤ db'.now)
    (hadv : Advances db.now db.jobs db'.jobs) (h : ProcOk db sched) : ProcOk db' sched := by
  refine ⟨h.mem.mono hnow hadv, ?_⟩
  have hat := h.at_
  cases hpc : sched.pc with
  | idle => trivial
  | looping now => rw [hpc] at hat; exact le_trans hat hnow
  | opened now job t | merged now job t loaded =>
      rw [hpc] at hat
      exact ⟨le_trans hat.1 hnow, hat.2⟩
  | updated now t id => rw [hpc] at hat; exact hat.mono hnow hadv h.mem.cursor
  | refreshed now t job | created now t job id | sent now t job =>
      rw [hpc] at hat
      exact ⟨hat.1.mono hnow hadv h.mem.cursor, hat.2.1.advance h.mem.cursor hadv, hat.2.2⟩

end Mono

/-! ### What it does itself -/

/-- Two cron instants a heap entry and a cached job agree on are one instant. -/
theorem eq_of_epsilon {a b : Int} (ha : seconds 1 ∣ a) (hb : seconds 1 ∣ b)
    (h : |a - b| ≤ _TIMESTAMP_EPSILON) : a = b := by
  obtain ⟨k, rfl⟩ := ha
  obtain ⟨m, rfl⟩ := hb
  have h₁ := le_trans (le_abs_self _) h
  have h₂ := le_trans (neg_le_abs _) h
  simp only [seconds, _TIMESTAMP_EPSILON] at h₁ h₂ ⊢
  omega

/-- The commit of a copy that is the row advances the row, and nothing else. -/
theorem commit_advances {env : Env} {jobs jobs' : Table Job} {db_now now t : Int} {job : Job}
    {expression : String} (hrow : jobs.get job.id = some job) (ht : job.next_fire_at = some t)
    (hdue : t ≤ now)
    (h : commit_merged jobs db_now (some job) (advance env now expression job) = some jobs') :
    (∃ r, jobs'.get job.id = some r ∧ r.job_type = job.job_type ∧ r.updated_at = db_now ∧
      r.next_fire_at = some (next_cron_time env expression now)) ∧
    ∀ k, k ≠ job.id → jobs'.get k = jobs.get k := by
  have hget := JobRepository.get_update h
  refine ⟨?_, fun k hk => (hget k).trans (if_neg (Ne.symm hk))⟩
  have hne : advance env now expression job ≠ job := by
    intro heq
    have hnext : some (next_cron_time env expression now) = some t :=
      (congrArg Job.next_fire_at heq).trans ht
    have hlt := lt_next_cron_time env expression now
    rw [Option.some.injEq] at hnext
    omega
  refine ⟨Job.flush db_now job (advance env now expression job) job, ?_, ?_⟩
  · rw [hget, if_pos rfl, hrow, Option.map_some]
  · rw [Job.flush_loaded db_now job (advance env now expression job) rfl, if_neg hne]
    exact ⟨rfl, if_pos rfl, rfl⟩

theorem advances_of_commit {jobs jobs' : Table Job} {now t n : Int} {job r' : Job}
    (hrow : jobs.get job.id = some job) (ht : job.next_fire_at = some t)
    (hr' : jobs'.get job.id = some r') (htype : r'.job_type = job.job_type)
    (hstamp : r'.updated_at = now) (hn : r'.next_fire_at = some n) (hlt : t < n)
    (hother : ∀ k, k ≠ job.id → jobs'.get k = jobs.get k) : Advances now jobs jobs' := by
  intro j r hr
  by_cases hj : j = job.id
  · subst hj
    rw [hrow] at hr
    cases hr
    exact .inr ⟨r', t, n, hr', htype, hstamp, ht, hn, hlt⟩
  · exact .inl ((hother j hj).trans hr)

/-- What the loop head has looked at, by what it answers. -/
theorem pop_due_inv (s : CronScheduler) (now : Int) :
    match s.pop_due now with
    | .done => True
    | .skipped m => ∃ entry : Entry, s.heap.peek = some entry ∧
        m = { s with heap := s.heap.heappop } ∧
        ∀ job t, s.job_cache (ofLex entry).2 = some job → job.next_fire_at = some t →
          t ≠ (ofLex entry).1
    | .raised m => ∃ entry : Entry, s.heap.peek = some entry ∧
        m = { s with heap := s.heap.heappop } ∧
        ∃ job, s.job_cache (ofLex entry).2 = some job ∧ job.next_fire_at = none
    | .due m job t => ∃ entry : Entry, s.heap.peek = some entry ∧
        m = { s with heap := s.heap.heappop } ∧ (ofLex entry).1 ≤ now ∧
        s.job_cache (ofLex entry).2 = some job ∧ job.next_fire_at = some t ∧
        |t - (ofLex entry).1| ≤ _TIMESTAMP_EPSILON := by
  rcases pop_due_cases s now with h | ⟨entry, hpeek, hnow, ⟨h, hne⟩ | ⟨h, hnone⟩ | ⟨job, t, h, hd⟩⟩
  · rw [h]; trivial
  · rw [h]; exact ⟨entry, hpeek, rfl, hne⟩
  · rw [h]; exact ⟨entry, hpeek, rfl, hnone⟩
  · rw [h]; exact ⟨entry, hpeek, rfl, hnow, hd⟩

/-- The entries after a sync are old ones and firings of rows it read. -/
theorem of_mem_heap_sync_rows {e : Entry} {jobs : List Job} {s : CronScheduler}
    (h : e ∈ (jobs.foldl CronScheduler.sync_row s).heap) :
    e ∈ s.heap ∨ ∃ row ∈ jobs, row.next_fire_at = some (ofLex e).1 := by
  induction jobs generalizing s with
  | nil => exact .inl h
  | cons row rows ih =>
      rcases ih h with hrow | ⟨row', hmem, hnext⟩
      · unfold CronScheduler.sync_row CronScheduler.push_new at hrow
        split at hrow
        · cases hnext : row.next_fire_at with
          | none =>
              simp only [hnext] at hrow
              exact .inl hrow
          | some t =>
              simp only [hnext] at hrow
              split at hrow
              · rcases Heap.mem_heappush.mp hrow with rfl | hold
                · exact .inr ⟨row, List.mem_cons_self, hnext⟩
                · exact .inl hold
              · exact .inl hrow
        · exact .inl hrow
      · exact .inr ⟨row', List.mem_cons_of_mem _ hmem, hnext⟩

/-- **After a sync the cache is the table**, whatever the process missed before. -/
theorem sync_reads {db : Db} {m : CronScheduler} (h : MemOk db m) {j : JobId} {c : Job}
    (hc : (m.sync_jobs db.now (list_updated_since db.jobs m.last_sync_at)).job_cache j
      = some c) : db.jobs.get j = some c ∧ c.job_type = .scheduled := by
  rcases job_cache_sync_jobs m db.now db.jobs m.last_sync_at j with
    ⟨row, hrow, hmem, hslot⟩ | ⟨hnot, hslot⟩
  · rw [hslot] at hc
    split at hc
    · cases hc
      exact ⟨hrow, (mem_list_updated_since.mp hmem).2.1⟩
    · cases hc
  · rw [hslot] at hc
    obtain ⟨row, hrow, htype, hor⟩ := h.tracked j c hc
    rw [h.ids j c hc] at hrow
    rcases hor with rfl | hstamp
    · exact ⟨hrow, htype⟩
    · exact absurd ((mem_list_updated_since_iff hrow).mpr ⟨htype, hstamp⟩) (hnot row hrow)

theorem memOk_sync {db : Db} {m : CronScheduler} (h : MemOk db m) (hw : WholeSeconds db.jobs) :
    MemOk db (m.sync_jobs db.now (list_updated_since db.jobs m.last_sync_at)) where
  ids j c hc := Table.key_of_get (sync_reads h hc).1
  tracked j c hc := by
    obtain ⟨hrow, htype⟩ := sync_reads h hc
    have hid : c.id = j := Table.key_of_get hrow
    exact ⟨c, hid ▸ hrow, htype, .inl rfl⟩
  cursor since hs := by
    cases hs
    simp only [seconds, _SYNC_OVERLAP_SECONDS]
    omega
  cache j c hc t ht := hw.of_get (sync_reads h hc).1 ht
  heap e he := by
    rcases of_mem_heap_sync_rows he with hold | ⟨row, hrow, hnext⟩
    · exact h.heap e hold
    · exact hw.of_get (mem_list_updated_since.mp hrow).1 hnext

/-- Popping an entry. -/
theorem MemOk.popped {db : Db} {m : CronScheduler} (h : MemOk db m) :
    MemOk db { m with heap := m.heap.heappop } where
  ids := h.ids
  tracked := h.tracked
  cursor := h.cursor
  cache := h.cache
  heap e he := h.heap e (Heap.mem_of_mem_heappop he)

/-- Putting the job back that was read after the commit. -/
theorem MemOk.reschedule {db : Db} {m : CronScheduler} {job : Job} (h : MemOk db m)
    (hback : ReadBack db m job) : MemOk db (m.reschedule job) where
  ids j c hc := by
    simp only [CronScheduler.reschedule, Function.update_apply] at hc
    split at hc
    · next heq => cases hc; exact heq.symm
    · exact h.ids j c hc
  tracked j c hc := by
    simp only [CronScheduler.reschedule, Function.update_apply] at hc
    split at hc
    · cases hc; exact hback.1
    · exact h.tracked j c hc
  cursor := h.cursor
  cache j c hc := by
    simp only [CronScheduler.reschedule, Function.update_apply] at hc
    split at hc
    · cases hc; exact hback.2
    · exact h.cache j c hc
  heap e he := by
    unfold CronScheduler.reschedule at he
    cases hnext : job.next_fire_at with
    | none =>
        simp only [hnext] at he
        exact h.heap e he
    | some t =>
        simp only [hnext] at he
        rcases Heap.mem_heappush.mp he with rfl | hold
        · exact hback.2 t hnext
        · exact h.heap e hold

/-- The row a process is about to advance is the copy it holds. -/
theorem row_of_merged {db : Db} {p : Scheduler} {now t : Int} {job : Job} {loaded : Option Job}
    (hi : ProcOk db p) (hf : Fresh db p) (hpc : p.pc = .merged now job t loaded) :
    loaded = some job ∧ db.jobs.get job.id = some job ∧ job.job_type = .scheduled := by
  have hat := hi.at_
  rw [hpc] at hat
  have hrow : db.jobs.get job.id = some job := hf.row (by rw [hpc]; rfl) hat.2.1
  obtain ⟨r, hr, htype, _⟩ := hi.mem.tracked job.id job hat.2.1
  rw [hrow] at hr
  cases hr
  exact ⟨hf.merging job loaded (by rw [hpc]; rfl), hrow, htype⟩

/-- **What a process does keeps what it knows**, and only its commits change the table. -/
theorem procOk_act {env : Env} {db db' : Db} {p p' : Scheduler} {a : Act}
    (h : ActStep env db p a db' p') (hi : ProcOk db p) (hw : WholeSeconds db.jobs)
    (hcommit : a = .commit → Fresh db p) :
    ProcOk db' p' ∧ db'.now = db.now ∧ Advances db.now db.jobs db'.jobs ∧
      WholeSeconds db'.jobs := by
  have hat := hi.at_
  have hsame := Advances.refl db.now db.jobs
  cases h with
  | sync hpc =>
      refine ⟨⟨memOk_sync hi.mem hw, ?_⟩, rfl, hsame, hw⟩
      simp only [hpc]
      trivial
  | begin hpc => exact ⟨⟨hi.mem, le_rfl⟩, rfl, hsame, hw⟩
  | done hpc _ => exact ⟨⟨hi.mem, trivial⟩, rfl, hsame, hw⟩
  | @skipped now m hpc hpop =>
      have hinv := pop_due_inv p.mem now
      rw [hpop] at hinv
      obtain ⟨_, _, rfl, _⟩ := hinv
      rw [hpc] at hat
      refine ⟨⟨hi.mem.popped, ?_⟩, rfl, hsame, hw⟩
      simp only [hpc]
      exact hat
  | @raised now m hpc hpop =>
      have hinv := pop_due_inv p.mem now
      rw [hpop] at hinv
      obtain ⟨_, _, rfl, _⟩ := hinv
      exact ⟨⟨hi.mem.popped, trivial⟩, rfl, hsame, hw⟩
  | @due now m job t hpc hpop =>
      have hinv := pop_due_inv p.mem now
      rw [hpop] at hinv
      obtain ⟨entry, hpeek, rfl, hnow, hcache, hnext, heps⟩ := hinv
      rw [hpc] at hat
      have hentry : entry ∈ p.mem.heap := (Heap.mem_iff_of_peek hpeek entry).mpr (.inl rfl)
      have heq := eq_of_epsilon (hi.mem.cache _ job hcache t hnext) (hi.mem.heap entry hentry) heps
      have hid := hi.mem.ids _ job hcache
      exact ⟨⟨hi.mem.popped, hat, hid ▸ hcache, hnext, heq ▸ hnow⟩, rfl, hsame, hw⟩
  | merge hpc =>
      rw [hpc] at hat
      exact ⟨⟨hi.mem, hat⟩, rfl, hsame, hw⟩
  | @commit now job t loaded expression jobs' hpc _ h =>
      obtain ⟨rfl, hrow, htype⟩ := row_of_merged hi (hcommit rfl) hpc
      rw [hpc] at hat
      obtain ⟨hnow, hcache, ht, hdue⟩ := hat
      obtain ⟨⟨r, hr, hrtype, hstamp, hn⟩, hother⟩ := commit_advances hrow ht hdue h
      have hlt : t < next_cron_time env expression now :=
        lt_of_le_of_lt hdue (lt_next_cron_time env expression now)
      have hadv := advances_of_commit hrow ht hr hrtype hstamp hn hlt hother
      refine ⟨⟨hi.mem.mono (le_refl db.now) hadv, hnow, ?_, job, hcache, ht⟩, rfl, hadv, ?_⟩
      · exact ⟨r, _, hr, hrtype.trans htype, hn, hlt, stamped_of_now hi.mem.cursor hstamp⟩
      · intro row hmem t' ht'
        by_cases hj : row.id = job.id
        · obtain rfl : row = r := Table.eq_of_get hr hmem hj
          rw [hn, Option.mem_some_iff] at ht'
          exact ht' ▸ env.croniter.whole expression now
        · have hget := Table.get_of_mem hmem
          rw [key_job, hother row.id hj] at hget
          exact hw.of_get hget ht'
  | @refresh now t id row hpc hrow =>
      rw [hpc] at hat
      obtain ⟨r, n, hr, htype, hrest⟩ := hat.2.1
      have hsame' : row = r := by
        rw [hrow] at hr
        exact Option.some.inj hr
      have hid : row.id = id := Table.key_of_get hrow
      refine ⟨⟨hi.mem, hid ▸ hat, ⟨row, hid ▸ hrow, hsame' ▸ htype, .inl rfl⟩, ?_⟩, rfl, hsame, hw⟩
      exact fun t' ht' => hw.of_get hrow ht'
  | forbidden hpc _ _ | create hpc _ _ _ | send hpc =>
      rw [hpc] at hat
      exact ⟨⟨⟨hi.mem.ids, hi.mem.tracked, hi.mem.cursor, hi.mem.cache, hi.mem.heap⟩, hat⟩, rfl,
        hsame, hw⟩
  | finish hpc =>
      rw [hpc] at hat
      exact ⟨⟨hi.mem.reschedule hat.2, hat.1.1⟩, rfl, hsame, hw⟩
  | fail => exact ⟨⟨hi.mem, trivial⟩, rfl, hsame, hw⟩

/-- From the sync to the end of the cycle the cache stays the table. -/
theorem fresh_act {env : Env} {db db' : Db} {p p' : Scheduler} {a : Act}
    (h : ActStep env db p a db' p') (hi : ProcOk db p) (ha : a ≠ .fail)
    (hf : a = .sync ∨ Fresh db p) : Fresh db' p' := by
  -- a step after which no copy of a row is held
  have simple : ∀ {pc : Pc}, Fresh db p → p.pc.inFlight = none → pc.inFlight = none →
      pc.merging = none → pc.readBack = none →
      ∀ {m : CronScheduler}, m.job_cache = p.mem.job_cache → Fresh db ⟨m, pc⟩ := by
    intro pc hf hfly hfly' hmerging hback m hcache
    refine ⟨fun j c hc => .inr (hf.row hfly (hcache ▸ hc)), fun job loaded h => ?_,
      fun job h => ?_⟩
    · rw [hmerging] at h; cases h
    · rw [hback] at h; cases h
  cases h with
  | sync hpc =>
      refine ⟨fun j c hc => .inr (sync_reads hi.mem hc).1, fun job loaded h => ?_,
        fun job h => ?_⟩
      · rw [hpc] at h; cases h
      · rw [hpc] at h; cases h
  | begin hpc => exact simple (hf.resolve_left nofun) (by rw [hpc]; rfl) rfl rfl rfl rfl
  | done hpc _ => exact simple (hf.resolve_left nofun) (by rw [hpc]; rfl) rfl rfl rfl rfl
  | skipped hpc hpop =>
      exact simple (hf.resolve_left nofun) (by rw [hpc]; rfl) (by rw [hpc]; rfl)
        (by rw [hpc]; rfl) (by rw [hpc]; rfl) (pop_due_mem.1 _ hpop).1
  | raised hpc hpop =>
      exact simple (hf.resolve_left nofun) (by rw [hpc]; rfl) rfl rfl rfl
        (pop_due_mem.2.1 _ hpop).1
  | due hpc hpop =>
      exact simple (hf.resolve_left nofun) (by rw [hpc]; rfl) rfl rfl rfl
        (pop_due_mem.2.2 _ _ _ hpop).1
  | @merge now job t hpc =>
      have hf := hf.resolve_left nofun
      have hat := hi.at_
      rw [hpc] at hat
      have hfly : p.pc.inFlight = none := by rw [hpc]; rfl
      refine ⟨fun j c hc => .inr (hf.row hfly hc), fun job' loaded h => ?_, fun job' h => ?_⟩
      · cases h
        exact hf.row hfly hat.2.1
      · cases h
  | @commit now job t loaded expression jobs' hpc _ h =>
      have hf := hf.resolve_left nofun
      have hat := hi.at_
      rw [hpc] at hat
      obtain ⟨rfl, hrow, _⟩ := row_of_merged hi hf hpc
      obtain ⟨_, hother⟩ := commit_advances hrow hat.2.2.1 hat.2.2.2 h
      refine ⟨fun j c hc => ?_, fun _ _ h => ?_, fun _ h => ?_⟩
      · by_cases hj : j = job.id
        · exact .inl (by rw [hj]; rfl)
        · exact .inr ((hother j hj).trans (hf.row (by rw [hpc]; rfl) hc))
      · cases h
      · cases h
  | @refresh now t id row hpc hrow =>
      have hf := hf.resolve_left nofun
      have hid : row.id = id := Table.key_of_get hrow
      refine ⟨fun j c hc => ?_, fun _ _ h => ?_, fun job h => ?_⟩
      · rcases hf.cache j c hc with hfly | hrow'
        · rw [hpc] at hfly
          exact .inl ((congrArg some hid).trans hfly)
        · exact .inr hrow'
      · cases h
      · cases h
        exact hid ▸ hrow
  | forbidden hpc _ _ | create hpc _ _ _ | send hpc =>
      have hf := hf.resolve_left nofun
      refine ⟨fun j c hc => ?_, fun _ _ h => ?_, fun job h => hf.back job (by rw [hpc]; exact h)⟩
      · have hcache := hf.cache j c hc
        rwa [hpc] at hcache
      · cases h
  | @finish now t job hpc =>
      have hf := hf.resolve_left nofun
      refine ⟨fun j c hc => .inr ?_, fun _ _ h => ?_, fun _ h => ?_⟩
      · simp only [CronScheduler.reschedule, Function.update_apply] at hc
        split at hc
        · next heq =>
            cases hc
            exact heq ▸ hf.back job (by rw [hpc]; rfl)
        · next hne =>
            rcases hf.cache j c hc with hfly | hrow
            · rw [hpc] at hfly
              exact absurd (Option.some.inj hfly).symm hne
            · exact hrow
      · cases h
      · cases h
  | fail => exact absurd rfl ha

/-! ## Every process at once -/

/-- `X` says which process may commit: one at most, and none becomes it in mid-cycle. -/
structure Exclusive (env : Env) (X : Loop P → P → Prop) : Prop where
  unique : ∀ {s p q}, X s p → X s q → p = q
  kept : ∀ {s s' l p}, Loop.Step env s l s' → (s'.procs p).phase.pastSync = true → X s' p →
    X s p

/-- Only the process that may commits. -/
def CommitsOnly (X : Loop P → P → Prop) (s : Loop P) (l : Loop.Label P) : Prop :=
  ∀ p, l = .act p .commit → X s p

/-- What holds of all processes. -/
structure LoopInv (X : Loop P → P → Prop) (s : Loop P) : Prop where
  whole : WholeSeconds s.db.jobs
  proc : ∀ p, ProcOk s.db (s.procs p).sched
  fresh : ∀ p, X s p → (s.procs p).phase.pastSync = true → Fresh s.db (s.procs p).sched

omit [DecidableEq P] in
theorem loopInv_start {X : Loop P → P → Prop} {jobs : Table Job} {now : Int}
    (hw : WholeSeconds jobs) : LoopInv X (.start jobs now) where
  whole := hw
  proc _ := procOk_init _
  fresh := by intro p _ h; cases h

/-- A cycle that goes on after a step has synced, or syncs with it. -/
theorem Phase.of_pastSync {phase phase' : Phase} {a : Act} {pc : Pc}
    (h : phase.next a pc = some phase') (hpast : phase'.pastSync = true) :
    a ≠ .fail ∧ (a = .sync ∨ phase.pastSync = true) := by
  cases phase with
  | standby => cases a <;> cases h
  | elected =>
      cases a with
      | sync => exact ⟨nofun, .inl rfl⟩
      | fail => cases h; cases hpast
      | _ => cases h
  | synced | dispatching =>
      refine ⟨fun heq => ?_, .inr rfl⟩
      subst heq
      cases h
      cases hpast

/-- A process commits in mid-cycle only. -/
theorem Phase.of_commit {phase phase' : Phase} {pc : Pc}
    (h : phase.next .commit pc = some phase') : phase.pastSync = true := by
  cases phase with
  | standby | elected => cases h
  | synced | dispatching => rfl

/-- **The step lemma**, for all processes. -/
theorem loopInv_step {env : Env} {X : Loop P → P → Prop} (hX : Exclusive env X) {s s' : Loop P}
    {l : Loop.Label P} (hi : LoopInv X s) (hl : CommitsOnly X s l) (h : Loop.Step env s l s') :
    LoopInv X s' := by
  have hkept : ∀ p, X s' p → (s'.procs p).phase.pastSync = true → X s p :=
    fun p hx hpast => hX.kept h hpast hx
  cases h with
  | tick hd =>
      refine ⟨hi.whole, fun p => ?_, fun p hx hpast => ?_⟩
      · refine (hi.proc p).mono ?_ (Advances.refl s.db.now s.db.jobs)
        simp only
        omega
      · have hf := hi.fresh p (hkept p hx hpast) hpast
        exact ⟨hf.cache, hf.merging, hf.back⟩
  | @die p =>
      refine ⟨hi.whole, fun q => ?_, fun q hx hpast => ?_⟩
      · simp only [Function.update_apply]
        split
        · exact hi.proc p
        · exact hi.proc q
      · have hx' := hkept q hx hpast
        simp only [Function.update_apply] at hpast ⊢
        split
        · next heq =>
            rw [if_pos heq] at hpast
            exact hi.fresh p (heq ▸ hx') hpast
        · next hne =>
            rw [if_neg hne] at hpast
            exact hi.fresh q hx' hpast
  | @is_leader p hphase =>
      refine ⟨hi.whole, fun q => ?_, fun q hx hpast => ?_⟩
      · simp only [Loop.asked, Function.update_apply]
        split
        · exact hi.proc p
        · exact hi.proc q
      · have hx' := hkept q hx hpast
        simp only [Loop.asked, Function.update_apply] at hpast ⊢
        split
        · next heq =>
            rw [if_pos heq] at hpast
            dsimp only at hpast
            split at hpast <;> cases hpast
        · next hne =>
            rw [if_neg hne] at hpast
            exact hi.fresh q hx' hpast
  | @act p a db' sched' phase' hact hphase =>
      have hcommit : a = .commit → Fresh s.db (s.procs p).sched := by
        rintro rfl
        exact hi.fresh p (hl p rfl) (Phase.of_commit hphase)
      obtain ⟨hproc, hnow, hadv, hw⟩ := procOk_act hact (hi.proc p) hi.whole hcommit
      refine ⟨hw, fun q => ?_, fun q hx hpast => ?_⟩
      · simp only [Function.update_apply]
        split
        · exact hproc
        · exact (hi.proc q).mono (le_of_eq hnow.symm) hadv
      · have hx' := hkept q hx hpast
        simp only [Function.update_apply] at hpast ⊢
        split
        · next heq =>
            rw [if_pos heq] at hpast
            obtain ⟨hne, hsync⟩ := Phase.of_pastSync hphase hpast
            exact fresh_act hact (hi.proc p) hne
              (hsync.imp_right fun hp => hi.fresh p (heq ▸ hx') hp)
        · next hne =>
            rw [if_neg hne] at hpast
            have hf := hi.fresh q hx' hpast
            -- another process commits only if it is the one that may
            have hjobs : db'.jobs = s.db.jobs := by
              by_cases ha : a = .commit
              · subst ha
                exact absurd (hX.unique hx' (hl p rfl)) hne
              · cases hact with
                | commit => exact absurd rfl ha
                | _ => rfl
            exact ⟨hjobs ▸ hf.cache, hf.merging, hjobs ▸ hf.back⟩

end Dass
