/-
# `Dass.CronSync` — what the incremental sync misses

`sync_jobs` asks for the scheduled rows stamped since its cursor, so a row that
stops being scheduled or stops existing is never answered again, and the cache
keeps the job.  `sync_exact_iff` says when a pass leaves the cache equal to a
full reload: exactly when every cached job still has a scheduled row.

The invariant that carries it (`SyncInv`) is about the other rows: a scheduled
row was stamped at or after the cursor, or the cache already agrees with it.  It
holds of every run in which passes are not interleaved with requests and no call
fails, including runs that dispatch a stale copy, because the dispatch that puts
an old stamp back also makes the cache agree with the row it wrote.
-/
import Dass.CronScheduler
import Dass.Lib.Run

namespace Dass

open Lts

/-- The job is one the scheduler has to fire. -/
def Live (jobs : Table Job) (j : JobId) : Prop :=
  ∃ row, jobs.get j = some row ∧ row.enabled = true ∧ row.job_type = .scheduled

/-- The cache equals a full reload: the live jobs, each with its current firing time. -/
def SyncExact (s : Cron) : Prop :=
  (∀ j, (∃ job, s.sched.mem.job_cache j = some job) ↔ Live s.db.jobs j) ∧
  ∀ j job row, s.sched.mem.job_cache j = some job → s.db.jobs.get j = some row →
    job.next_fire_at = row.next_fire_at

/-- Every cached job still has a row, and that row is scheduled. -/
def CacheInTable (s : Cron) : Prop :=
  ∀ j job, s.sched.mem.job_cache j = some job →
    ∃ row, s.db.jobs.get j = some row ∧ row.job_type = .scheduled

/-- Requests land between passes, and no call fails. -/
def Cron.Sequential (s : Cron) : Cron.Label → Prop
  | .api _ => s.sched.pc = .idle
  | .act .fail => False
  | _ => True

/-! ## The invariant -/

/-- The job whose row a dispatch has written and whose cache slot it has not. -/
def Pc.inFlight : Pc → Option JobId
  | .updated _ _ id => some id
  | .refreshed _ _ job | .created _ _ job _ | .sent _ _ job => some job.id
  | _ => none

/-- What a dispatch in progress knows of its job. -/
def PcOk (jobs : Table Job) (cache : JobId → Option Job) : Pc → Prop
  | .idle | .looping _ => True
  | .opened _ job _ => cache job.id = some job
  | .merged _ job _ loaded => cache job.id = some job ∧ loaded = jobs.get job.id
  | .updated _ _ id => Live jobs id
  | .refreshed _ _ job | .created _ _ job _ | .sent _ _ job =>
      jobs.get job.id = some job ∧ job.enabled = true ∧ job.job_type = .scheduled

/-- The cache slot is what a full reload would make of the row. -/
def Agrees (cache : JobId → Option Job) (j : JobId) (row : Job) : Prop :=
  if row.enabled then ∃ job, cache j = some job ∧ job.next_fire_at = row.next_fire_at
  else cache j = none

/-- The sync answers rows stamped at or after its cursor. -/
def Stamped (last_sync_at : Option Int) (row : Job) : Prop :=
  ∀ since, last_sync_at = some since → since ≤ row.updated_at

structure SyncInv (s : Cron) : Prop where
  cached : ∀ j job, s.sched.mem.job_cache j = some job →
    job.id = j ∧ job.enabled = true ∧ job.job_type = .scheduled
  cursor : ∀ since, s.sched.mem.last_sync_at = some since → since ≤ s.db.now
  fresh : ∀ j row, s.db.jobs.get j = some row → row.job_type = .scheduled →
    s.sched.pc.inFlight = some j ∨ Stamped s.sched.mem.last_sync_at row ∨
      Agrees s.sched.mem.job_cache j row
  pcOk : PcOk s.db.jobs s.sched.mem.job_cache s.sched.pc

theorem syncInv_start (jobs : Table Job) (now : Int) : SyncInv (.start jobs now) where
  cached := by intro _ _ h; cases h
  cursor := by intro _ h; cases h
  fresh := fun _ _ _ _ => .inr (.inl fun _ h => by cases h)
  pcOk := trivial

/-- A row the query answers is stamped, and conversely. -/
theorem mem_list_updated_since_iff {jobs : Table Job} {since : Option Int} {j : JobId} {row : Job}
    (hrow : jobs.get j = some row) :
    row ∈ list_updated_since jobs since ↔ row.job_type = .scheduled ∧ Stamped since row := by
  have hid : row.id = j := Table.key_of_get hrow
  rw [mem_list_updated_since, hid, and_iff_right hrow]
  rfl

/-- Committing a cached copy leaves its row live. -/
theorem live_of_commit {env : Env} {jobs jobs' : Table Job} {now now' : Int} {job : Job}
    {expression : String} (he : job.enabled = true) (ht : job.job_type = .scheduled)
    (h : commit_merged jobs now (jobs.get job.id) (advance env now' expression job) = some jobs') :
    Live jobs' job.id ∧ ∀ k, k ≠ job.id → jobs'.get k = jobs.get k := by
  cases hl : jobs.get job.id with
  | none =>
      rw [hl] at h
      have hget := JobRepository.get_create h
      refine ⟨⟨_, (hget job.id).trans (if_pos rfl), he, ht⟩, fun k hk => ?_⟩
      exact (hget k).trans (if_neg (Ne.symm hk))
  | some l =>
      rw [hl] at h
      have hlid : l.id = job.id := Table.key_of_get hl
      have hget := JobRepository.get_update h
      refine ⟨⟨_, by rw [hget, if_pos hlid, hl]; rfl, ?_, ?_⟩, fun k hk => ?_⟩
      · rw [Job.flush_loaded now l (advance env now' expression job) hlid.symm]
        exact he
      · rw [Job.flush_loaded now l (advance env now' expression job) hlid.symm]
        exact ht
      · rw [hget]
        exact if_neg fun heq => hk (heq.symm.trans hlid)

/-- Popping touches the heap only. -/
theorem pop_due_mem {s : CronScheduler} {now : Int} :
    (∀ m, s.pop_due now = .skipped m →
      m.job_cache = s.job_cache ∧ m.last_sync_at = s.last_sync_at) ∧
    (∀ m, s.pop_due now = .raised m →
      m.job_cache = s.job_cache ∧ m.last_sync_at = s.last_sync_at) ∧
    ∀ m job t, s.pop_due now = .due m job t →
      m.job_cache = s.job_cache ∧ m.last_sync_at = s.last_sync_at ∧
        (∃ j, s.job_cache j = some job) ∧ job.next_fire_at = some t := by
  rcases pop_due_cases s now with
    h | ⟨entry, _, _, ⟨h, _⟩ | ⟨h, _⟩ | ⟨job, t, h, hj, ht, _⟩⟩ <;>
    simp only [h, reduceCtorEq, false_implies, implies_true, Popped.skipped.injEq,
      Popped.raised.injEq, Popped.due.injEq, and_true, true_and]
  · rintro _ rfl; exact ⟨rfl, rfl⟩
  · rintro _ rfl; exact ⟨rfl, rfl⟩
  · rintro _ _ _ ⟨rfl, rfl, rfl⟩; exact ⟨rfl, rfl, ⟨_, hj⟩, ht⟩

/-- Where the slot agrees with the row, the job is cached when it is enabled. -/
theorem Agrees.cached_iff {cache : JobId → Option Job} {j : JobId} {row : Job}
    (h : Agrees cache j row) : (∃ job, cache j = some job) ↔ row.enabled = true := by
  unfold Agrees at h
  split at h
  · next he =>
      obtain ⟨job, hj, _⟩ := h
      exact iff_of_true ⟨job, hj⟩ he
  · next he =>
      refine iff_of_false ?_ he
      rintro ⟨job, hj⟩
      rw [h] at hj
      cases hj

theorem Agrees.next_fire_at {cache : JobId → Option Job} {j : JobId} {row job : Job}
    (h : Agrees cache j row) (hj : cache j = some job) :
    job.next_fire_at = row.next_fire_at := by
  have he := h.cached_iff.mp ⟨job, hj⟩
  rw [Agrees, if_pos he] at h
  obtain ⟨job', hj', hnext⟩ := h
  rw [hj] at hj'
  cases hj'
  exact hnext

section Step

variable {env : Env} {s s' : Cron}

/-- A pass reads a scheduled row, or the cache agrees with it already. -/
theorem SyncInv.agrees_sync (hi : SyncInv s) (hpc : s.sched.pc = .idle) {j : JobId} {row : Job}
    (hrow : s.db.jobs.get j = some row) (ht : row.job_type = .scheduled) :
    Agrees (s.sched.mem.sync_jobs s.db.now
      (list_updated_since s.db.jobs s.sched.mem.last_sync_at)).job_cache j row := by
  rcases job_cache_sync_jobs s.sched.mem s.db.now s.db.jobs s.sched.mem.last_sync_at j with
    ⟨row', hrow', _, hc⟩ | ⟨hnot, hc⟩
  · rw [hrow] at hrow'
    cases hrow'
    simp only [Agrees, hc]
    split
    · exact ⟨row, rfl, rfl⟩
    · rfl
  · have hstamp := mt (mem_list_updated_since_iff hrow).mpr (hnot row hrow)
    rcases hi.fresh j row hrow ht with hf | hf | hf
    · rw [hpc] at hf
      cases hf
    · exact absurd ⟨ht, hf⟩ hstamp
    · simpa only [Agrees, hc] using hf

/-- A step that touches neither `jobs` nor the cache and lets go of no row. -/
theorem SyncInv.quiet (hi : SyncInv s) (hjobs : s'.db.jobs = s.db.jobs)
    (hnow : s.db.now ≤ s'.db.now) (hcache : s'.sched.mem.job_cache = s.sched.mem.job_cache)
    (hcursor : s'.sched.mem.last_sync_at = s.sched.mem.last_sync_at)
    (hpc : s'.sched.pc.inFlight = s.sched.pc.inFlight)
    (hok : PcOk s.db.jobs s.sched.mem.job_cache s'.sched.pc) : SyncInv s' where
  cached := by
    rw [hcache]
    exact hi.cached
  cursor := by
    rw [hcursor]
    exact fun since hs => le_trans (hi.cursor since hs) hnow
  fresh := by
    rw [hjobs, hcache, hcursor, hpc]
    exact hi.fresh
  pcOk := by
    rw [hjobs, hcache]
    exact hok

/-- The end of a dispatch puts the row in the cache. -/
theorem SyncInv.reschedule (hi : SyncInv s) {now t : Int} {job : Job}
    (hpc : s.sched.pc = .sent now t job) :
    SyncInv ⟨s.db, ⟨s.sched.mem.reschedule job, .looping now⟩⟩ := by
  have hok := hi.pcOk
  rw [hpc] at hok
  obtain ⟨hget, he, htype⟩ := hok
  refine ⟨fun j c hj => ?_, hi.cursor, fun j row hrow ht => ?_, trivial⟩
  · simp only [CronScheduler.reschedule, Function.update_apply] at hj
    split at hj
    · next heq => cases hj; exact ⟨heq.symm, he, htype⟩
    · exact hi.cached j c hj
  · right
    by_cases hj : j = job.id
    · right
      subst hj
      rw [hget] at hrow
      cases hrow
      simp [Agrees, CronScheduler.reschedule, he]
    · have hf := hi.fresh j row hrow ht
      rw [hpc] at hf
      have hrest := hf.resolve_left fun heq => hj (Option.some.inj heq).symm
      refine hrest.imp_right fun ha => ?_
      simpa only [Agrees, CronScheduler.reschedule, Function.update_of_ne hj] using ha

/-- **The step lemma**: passes and requests that do not interleave keep the invariant. -/
theorem syncInv_step {l : Cron.Label} (hi : SyncInv s) (hl : s.Sequential l)
    (h : Cron.Step env s l s') : SyncInv s' := by
  cases h with
  | tick hd => exact hi.quiet rfl (by simp only; omega) rfl rfl rfl hi.pcOk
  | @api op jobs' hop =>
      -- a request changes no row without stamping it, and the cursor is in the past
      have hpc : s.sched.pc = .idle := hl
      refine ⟨hi.cached, hi.cursor, fun j row hrow ht => ?_, by simp only [hpc]; trivial⟩
      rcases ApiOp.commit_row hop hrow with hold | hstamp
      · exact hi.fresh j row hold ht
      · exact .inr (.inl fun since hs => hstamp ▸ hi.cursor since hs)
  | act h =>
      have hok := hi.pcOk
      cases h with
      | sync hpc =>
          refine ⟨fun j job hj => ?_, fun since hs => ?_,
            fun j row hrow ht => .inr (.inr (hi.agrees_sync hpc hrow ht)), ?_⟩
          · rcases cached_of_sync_jobs hj with ⟨hrow, he, ht⟩ | hold
            · exact ⟨Table.key_of_get hrow, he, ht⟩
            · exact hi.cached j job hold
          · cases hs
            simp only [seconds, _SYNC_OVERLAP_SECONDS]
            omega
          · simp only [hpc]
            trivial
      | begin hpc | done hpc _ => exact hi.quiet rfl le_rfl rfl rfl (by rw [hpc]; rfl) trivial
      | skipped _ hpop =>
          obtain ⟨hc, hs⟩ := pop_due_mem.1 _ hpop
          exact hi.quiet rfl le_rfl hc hs rfl hok
      | raised hpc hpop =>
          obtain ⟨hc, hs⟩ := pop_due_mem.2.1 _ hpop
          exact hi.quiet rfl le_rfl hc hs (by rw [hpc]; rfl) trivial
      | due hpc hpop =>
          obtain ⟨hc, hs, ⟨j, hj⟩, _⟩ := pop_due_mem.2.2 _ _ _ hpop
          refine hi.quiet rfl le_rfl hc hs (by rw [hpc]; rfl) ?_
          simp only [PcOk, (hi.cached j _ hj).1, hj]
      | merge hpc =>
          rw [hpc] at hok
          exact hi.quiet rfl le_rfl rfl rfl (by rw [hpc]; rfl) ⟨hok, rfl⟩
      | @commit now job t loaded expression jobs' hpc _ hcommit =>
          rw [hpc] at hok
          obtain ⟨hcache, rfl⟩ := hok
          obtain ⟨_, he, ht⟩ := hi.cached _ _ hcache
          obtain ⟨hlive, hother⟩ := live_of_commit he ht hcommit
          refine ⟨hi.cached, hi.cursor, fun j row hrow htype => ?_, hlive⟩
          by_cases hj : j = job.id
          · exact .inl (by rw [hj]; rfl)
          · have hf := hi.fresh j row (hother j hj ▸ hrow) htype
            rw [hpc] at hf
            exact .inr (hf.resolve_left nofun)
      | @refresh now t id row hpc hrow =>
          rw [hpc] at hok
          obtain ⟨row', hrow', he, ht⟩ := hok
          rw [hrow] at hrow'
          cases hrow'
          have hid : row.id = id := Table.key_of_get hrow
          refine hi.quiet rfl le_rfl rfl rfl ?_ ⟨hid ▸ hrow, he, ht⟩
          simp only [hpc, Pc.inFlight, hid]
      | forbidden hpc _ _ | create hpc _ _ _ | send hpc =>
          rw [hpc] at hok
          exact hi.quiet rfl le_rfl rfl rfl (by rw [hpc]; rfl) hok
      | finish hpc => exact hi.reschedule hpc
      | fail => exact hl.elim

end Step

/-- The run lemma. -/
theorem syncInv_run {env : Env} {jobs : Table Job} {now : Int} {s : Cron}
    (h : Run (Cron.Step env) Cron.Sequential (.start jobs now) s) : SyncInv s :=
  h.invariant (fun hi hl hst => syncInv_step hi hl hst) (syncInv_start jobs now)

/-! ## One pass -/

theorem SyncExact.cacheInTable {s : Cron} (h : SyncExact s) : CacheInTable s := by
  intro j job hj
  obtain ⟨row, hrow, _, ht⟩ := (h.1 j).mp ⟨job, hj⟩
  exact ⟨row, hrow, ht⟩

/-- A pass reloads the cache exactly if and only if no cached job has lost its scheduled
row: such a job is not answered, and is kept. -/
theorem syncExact_iff_of_inv {env : Env} {s s' : Cron} (hi : SyncInv s)
    (h : Cron.Step env s (.act .sync) s') : SyncExact s' ↔ CacheInTable s := by
  cases h with
  | act h =>
    cases h with
    | sync hpc =>
      constructor
      · intro hex j job hj
        rcases job_cache_sync_jobs s.sched.mem s.db.now s.db.jobs s.sched.mem.last_sync_at j with
          ⟨row, hrow, hmem, _⟩ | ⟨_, hc⟩
        · exact ⟨row, hrow, (mem_list_updated_since.mp hmem).2.1⟩
        · obtain ⟨row, hrow, _, ht⟩ := (hex.1 j).mp ⟨job, by simp only [hc, hj]⟩
          exact ⟨row, hrow, ht⟩
      · intro htable
        refine ⟨fun j => ⟨?_, ?_⟩, fun j job row hj hrow => ?_⟩
        · rintro ⟨job, hj⟩
          rcases cached_of_sync_jobs hj with ⟨hrow, he, ht⟩ | hold
          · exact ⟨job, hrow, he, ht⟩
          · obtain ⟨row, hrow, ht⟩ := htable j job hold
            exact ⟨row, hrow, (hi.agrees_sync hpc hrow ht).cached_iff.mp ⟨job, hj⟩, ht⟩
        · rintro ⟨row, hrow, he, ht⟩
          exact (hi.agrees_sync hpc hrow ht).cached_iff.mpr he
        · rcases cached_of_sync_jobs hj with ⟨hrow', _⟩ | hold
          · rw [hrow] at hrow'
            cases hrow'
            rfl
          · obtain ⟨row', hrow', ht⟩ := htable j job hold
            rw [hrow] at hrow'
            cases hrow'
            exact (hi.agrees_sync hpc hrow ht).next_fire_at hj

/-! ## What later passes can reach -/

/-- Nothing outside the jobs live in `jobs₀` is cached, inserted or fired. -/
structure Confined (jobs₀ : Table Job) (fired₀ : List Firing) (s : Cron) : Prop where
  inv : SyncInv s
  rows : ∀ j, jobs₀.get j = none → s.db.jobs.get j = none
  live : ∀ j, Live s.db.jobs j ↔ Live jobs₀ j
  cached : ∀ j job, s.sched.mem.job_cache j = some job → Live jobs₀ j
  fired : ∀ f ∈ s.db.fired, f ∈ fired₀ ∨ Live jobs₀ f.task.job_id

theorem confined_step {env : Env} {jobs₀ : Table Job} {fired₀ : List Firing} {s s' : Cron}
    {l : Cron.Label} (hi : Confined jobs₀ fired₀ s) (hl : l.NoApi ∧ s.Sequential l)
    (h : Cron.Step env s l s') : Confined jobs₀ fired₀ s' := by
  have hinv := syncInv_step hi.inv hl.2 h
  cases h with
  | tick => exact ⟨hinv, hi.rows, hi.live, hi.cached, hi.fired⟩
  | api => exact hl.1.elim
  | act h =>
      cases h with
      | sync hpc =>
          refine ⟨hinv, hi.rows, hi.live, fun j job hj => ?_, hi.fired⟩
          rcases cached_of_sync_jobs hj with hrow | hold
          · exact (hi.live j).mp ⟨job, hrow⟩
          · exact hi.cached j job hold
      | begin | done | merge | refresh | forbidden | send =>
          exact ⟨hinv, hi.rows, hi.live, hi.cached, hi.fired⟩
      | skipped _ hpop =>
          exact ⟨hinv, hi.rows, hi.live, (pop_due_mem.1 _ hpop).1 ▸ hi.cached, hi.fired⟩
      | raised _ hpop =>
          exact ⟨hinv, hi.rows, hi.live, (pop_due_mem.2.1 _ hpop).1 ▸ hi.cached, hi.fired⟩
      | due _ hpop =>
          exact ⟨hinv, hi.rows, hi.live, (pop_due_mem.2.2 _ _ _ hpop).1 ▸ hi.cached, hi.fired⟩
      | @commit now job t loaded expression jobs' hpc _ hcommit =>
          have hok := hi.inv.pcOk
          rw [hpc] at hok
          obtain ⟨hcache, rfl⟩ := hok
          obtain ⟨_, he, ht⟩ := hi.inv.cached _ _ hcache
          obtain ⟨hlive, hother⟩ := live_of_commit he ht hcommit
          have hbase : Live jobs₀ job.id := hi.cached _ _ hcache
          refine ⟨hinv, fun j hj => ?_, fun j => ?_, hi.cached, hi.fired⟩
          · have hne : j ≠ job.id := by
              rintro rfl
              obtain ⟨row, hrow, _⟩ := hbase
              rw [hj] at hrow
              cases hrow
            exact (hother j hne).trans (hi.rows j hj)
          · by_cases hj : j = job.id
            · subst hj
              exact iff_of_true hlive hbase
            · rw [← hi.live j]
              simp only [Live, hother j hj]
      | @create now t job running id hpc _ _ _ =>
          have hok := hi.inv.pcOk
          rw [hpc] at hok
          refine ⟨hinv, hi.rows, hi.live, hi.cached, fun f hf => ?_⟩
          rcases List.mem_append.mp hf with hf | hf
          · exact hi.fired f hf
          · obtain rfl := List.mem_singleton.mp hf
            exact .inr ((hi.live job.id).mp ⟨job, hok⟩)
      | @finish now t job hpc =>
          have hok := hi.inv.pcOk
          rw [hpc] at hok
          refine ⟨hinv, hi.rows, hi.live, fun j c hj => ?_, hi.fired⟩
          simp only [CronScheduler.reschedule, Function.update_apply] at hj
          split at hj
          · next heq => exact heq ▸ (hi.live job.id).mp ⟨job, hok⟩
          · exact hi.cached j c hj
      | fail => exact hl.2.elim

/-- **Incremental sync against full reload.**  In every run of passes and requests, a
`sync_jobs` pass leaves the cache equal to a full reload if and only if, when it starts,
every cached job still has a scheduled row.  Where it does, no pass before the next
request inserts a row, revives a dead job or fires one. -/
theorem sync_exact_iff (env : Env) (jobs : Table Job) (now : Int) {s s' : Cron}
    (hrun : Run (Cron.Step env) Cron.Sequential (.start jobs now) s)
    (hsync : Cron.Step env s (.act .sync) s') :
    (SyncExact s' ↔ CacheInTable s) ∧
    (CacheInTable s → ∀ t,
      Run (Cron.Step env) (fun s l => l.NoApi ∧ s.Sequential l) s' t →
      (∀ j, s'.db.jobs.get j = none → t.db.jobs.get j = none) ∧
      (∀ j, ¬ Live s'.db.jobs j → ¬ Live t.db.jobs j) ∧
      ∀ f ∈ t.db.fired, f ∈ s'.db.fired ∨ Live s'.db.jobs f.task.job_id) := by
  have hi := syncInv_run hrun
  have hiff := syncExact_iff_of_inv hi hsync
  refine ⟨hiff, fun htable t ht => ?_⟩
  have hexact := hiff.mpr htable
  have hstart : Confined s'.db.jobs s'.db.fired s' :=
    ⟨syncInv_step (l := .act .sync) hi trivial hsync, fun _ h => h, fun _ => Iff.rfl,
      fun j job hj => (hexact.1 j).mp ⟨job, hj⟩, fun _ hf => .inl hf⟩
  have hend : Confined s'.db.jobs s'.db.fired t :=
    ht.invariant (fun hi hl h => confined_step hi hl h) hstart
  exact ⟨hend.rows, fun j => mt (hend.live j).mp, hend.fired⟩

/-- A cached job without a row is not what a full reload makes. -/
theorem not_syncExact_of_orphan {s : Cron} {j : JobId}
    (hc : (s.sched.mem.job_cache j).isSome) (hj : s.db.jobs.get j = none) : ¬ SyncExact s := by
  intro h
  obtain ⟨row, hrow, _⟩ := (h.1 j).mp (Option.isSome_iff_exists.mp hc)
  rw [hj] at hrow
  cases hrow

/-- Two passes over a job that stays. -/
theorem sync_exact_of_kept_job : ∃ s s',
    Run (Cron.Step example_env) Cron.Sequential (.start .empty 0) s ∧
    Cron.Step example_env s (.act .sync) s' ∧ SyncExact s' ∧
    (s'.sched.mem.job_cache 1).isSome := by
  have h₀ : Run (Cron.Step example_env) Cron.Sequential (.start .empty 0) (.start .empty 0) :=
    .refl
  have h₁ := h₀.snoc (l := Cron.Label.api (.create_job 1 example_payload)) rfl (.api rfl)
  have hexact := (sync_exact_iff example_env .empty 0 h₁ (.act (.sync rfl))).1.mpr
    (fun _ _ h => by cases h)
  have h₂ := h₁.snoc (l := Cron.Label.act Act.sync) trivial (.act (.sync rfl))
  refine ⟨_, _, h₂, .act (.sync rfl), ?_, by decide⟩
  exact (sync_exact_iff example_env .empty 0 h₂ (.act (.sync rfl))).1.mpr hexact.cacheInTable

/-- A job is cached and deleted.  The next pass keeps it in the cache, and the dispatch
after that inserts its row again and creates a task for it. -/
theorem sync_keeps_deleted_job : ∃ s s' t,
    Run (Cron.Step example_env) Cron.Sequential (.start .empty 0) s ∧
    Cron.Step example_env s (.act .sync) s' ∧
    (s'.sched.mem.job_cache 1).isSome ∧ s'.db.jobs.get 1 = none ∧ ¬ SyncExact s' ∧
    Run (Cron.Step example_env) (fun s l => l.NoApi ∧ s.Sequential l) s' t ∧
    (t.db.jobs.get 1).isSome ∧ t.db.fired.map (·.task.job_id) = [1] := by
  have h₀ : Run (Cron.Step example_env) Cron.Sequential (.start .empty 0) (.start .empty 0) :=
    .refl
  have h₁ := h₀.snoc (l := Cron.Label.api (.create_job 1 example_payload)) rfl (.api rfl)
  have h₂ := h₁.snoc (l := Cron.Label.act Act.sync) trivial (.act (.sync rfl))
  have h₃ := h₂.snoc (l := Cron.Label.api (.delete_job 1)) rfl (.api rfl)
  have hsync := h₃.snoc (l := Cron.Label.act Act.sync) trivial (.act (.sync rfl))
  have h₄ := (hsync.here (D := fun s l => l.NoApi ∧ s.Sequential l)).snoc
    (l := Cron.Label.tick (seconds 60)) ⟨trivial, trivial⟩ (.tick (by decide))
  have h₅ := h₄.snoc (l := Cron.Label.act Act.begin) ⟨trivial, trivial⟩ (.act (.begin rfl))
  have h₆ := h₅.snoc (l := Cron.Label.act Act.pop) ⟨trivial, trivial⟩ (.act (.due rfl rfl))
  have h₇ := h₆.snoc (l := Cron.Label.act Act.merge) ⟨trivial, trivial⟩ (.act (.merge rfl))
  have h₈ := h₇.snoc (l := Cron.Label.act Act.commit) ⟨trivial, trivial⟩
    (.act (.commit rfl rfl rfl))
  have h₉ := h₈.snoc (l := Cron.Label.act Act.refresh) ⟨trivial, trivial⟩
    (.act (.refresh rfl rfl))
  have h₁₀ := h₉.snoc (l := Cron.Label.act (Act.enqueue false 1)) ⟨trivial, trivial⟩
    (.act (.create rfl (by decide) (by decide) (by decide)))
  refine ⟨_, _, _, h₃, .act (.sync rfl), by decide, by decide,
    not_syncExact_of_orphan (j := 1) (by decide) (by decide), h₁₀, by decide, by decide⟩

end Dass
