/-
# `Dass.CronLiveness` — a failed cycle and the next firing

A dispatch pops its entry before the fallible work and pushes the next one after
it, while `sync_jobs` compares the row with the cache, not with the heap.  So a
job stays ready (`HeapReady`) through an exception in one of three ways: its
entry is still in the heap, its pop is still in progress, or its row has moved on
from the cached firing, which the next sync sees (`HeapOk`).

An exception after the commit leaves the third.  One between the pop and the
commit leaves none: the row still says what the cache says, and no later sync
pushes the entry again (`fail_loses_entry`).
-/
import Dass.SchedulerLoop

namespace Dass

open Lts

variable {P : Type} [DecidableEq P]

/-- Every cached job with a firing time has its heap entry. -/
def HeapReady (m : CronScheduler) : Prop :=
  ∀ j job t, m.job_cache j = some job → job.next_fire_at = some t →
    ∃ e ∈ m.heap, (ofLex e).2 = j ∧ |(ofLex e).1 - t| ≤ _TIMESTAMP_EPSILON

/-- The job whose entry is popped and whose schedule is not advanced yet. -/
def Pc.popped : Pc → Option JobId
  | .opened _ job _ | .merged _ job _ _ => some job.id
  | _ => none

/-- Nothing raises between a pop and the commit of the advanced schedule. -/
def NoLoss (s : Loop P) (l : Loop.Label P) : Prop :=
  ∀ p, l = .act p .fail → (s.procs p).sched.pc.popped = none

/-! ## What a sync pushes -/

/-- A row that names a new firing has its entry when the sync is over. -/
theorem sync_rows_pushes {row : Job} {t : Int} (he : row.enabled = true)
    (ht : row.next_fire_at = some t) {jobs : List Job} {s : CronScheduler}
    (hmem : row ∈ jobs) (hone : ∀ r ∈ jobs, r.id = row.id → r = row)
    (hnew : s._is_new_firing row.id t = true) :
    toLex (t, row.id) ∈ (jobs.foldl CronScheduler.sync_row s).heap := by
  induction jobs generalizing s with
  | nil => cases hmem
  | cons r rs ih =>
      rw [List.foldl_cons]
      by_cases hr : r = row
      · subst hr
        refine mem_heap_sync_rows ?_
        simp only [CronScheduler.sync_row, CronScheduler.push_new, he, if_true, ht, hnew]
        exact Heap.mem_heappush.mpr (.inl rfl)
      · have hrow : row ∈ rs := (List.mem_cons.mp hmem).resolve_left (Ne.symm hr)
        refine ih hrow (fun x hx => hone x (List.mem_cons_of_mem _ hx)) ?_
        -- the rows before it leave its slot alone
        have hid : ∀ x ∈ [r], x.id ≠ row.id := by
          intro x hx h
          rw [List.mem_singleton.mp hx] at h
          exact hr (hone r List.mem_cons_self h)
        have hslot : (s.sync_row r).job_cache row.id = s.job_cache row.id :=
          sync_rows_of_notMem hid
        simpa only [CronScheduler._is_new_firing, hslot] using hnew

/-! ## The invariant -/

/-- What keeps a cached firing from being forgotten. -/
def HeapOk (db : Db) (sched : Scheduler) : Prop :=
  ∀ j job t, sched.mem.job_cache j = some job → job.next_fire_at = some t →
    toLex (t, j) ∈ sched.mem.heap ∨ sched.pc.popped = some j ∨
      Advanced db.jobs sched.mem.last_sync_at j t

theorem heapOk_init (db : Db) : HeapOk db .init := by
  intro j job t h
  cases h

theorem HeapOk.mono {db db' : Db} {sched : Scheduler} (hi : ProcOk db sched)
    (hadv : Advances db.now db.jobs db'.jobs) (h : HeapOk db sched) : HeapOk db' sched := by
  intro j job t hj ht
  rcases h j job t hj ht with hheap | hpop | hadvd
  · exact .inl hheap
  · exact .inr (.inl hpop)
  · exact .inr (.inr (hadvd.advance hi.mem.cursor hadv))

/-- **A sync leaves every cached firing in the heap.** -/
theorem mem_heap_of_sync {db : Db} {m : CronScheduler} (hi : MemOk db m)
    (hw : WholeSeconds db.jobs) (hok : HeapOk db ⟨m, .idle⟩) {j : JobId} {c : Job} {t : Int}
    (hc : (m.sync_jobs db.now (list_updated_since db.jobs m.last_sync_at)).job_cache j = some c)
    (ht : c.next_fire_at = some t) :
    toLex (t, j) ∈
      (m.sync_jobs db.now (list_updated_since db.jobs m.last_sync_at)).heap := by
  obtain ⟨hrow, _⟩ := sync_reads hi hc
  have hid : c.id = j := Table.key_of_get hrow
  -- a firing cached before the sync had its entry, for the row has not moved on from it
  have hold : ∀ c₀ t₀, m.job_cache j = some c₀ → c₀.next_fire_at = some t₀ → t₀ = t →
      toLex (t, j) ∈ m.heap := by
    rintro c₀ t₀ hc₀ ht₀ rfl
    rcases hok j c₀ t₀ hc₀ ht₀ with hheap | hpop | ⟨r, n, hr, _, hn, hlt, _⟩
    · exact hheap
    · cases hpop
    · rw [hrow] at hr
      cases hr
      rw [ht] at hn
      cases hn
      exact absurd hlt (lt_irrefl _)
  rcases job_cache_sync_jobs m db.now db.jobs m.last_sync_at j with
    ⟨row, hrow', hmem, hslot⟩ | ⟨_, hslot⟩
  · obtain rfl : c = row := Option.some.inj (hrow.symm.trans hrow')
    have he : c.enabled = true := by
      by_contra hne
      rw [hslot, if_neg hne] at hc
      cases hc
    by_cases hnew : m._is_new_firing c.id t = true
    · have hpush := sync_rows_pushes he ht hmem
        (fun r hr hrid => list_updated_since_inj hr hmem hrid) hnew
      rwa [hid] at hpush
    · refine mem_heap_sync_rows ?_
      simp only [CronScheduler._is_new_firing, hid] at hnew
      cases hcached : (m.job_cache j).bind Job.next_fire_at with
      | none => simp [hcached] at hnew
      | some t₀ =>
          obtain ⟨c₀, hc₀, ht₀⟩ := Option.bind_eq_some_iff.mp hcached
          simp only [hcached, decide_eq_true_eq, not_lt] at hnew
          exact hold c₀ t₀ hc₀ ht₀
            (eq_of_epsilon (hi.cache j c₀ hc₀ t₀ ht₀) (hw.of_get hrow ht) hnew)
  · rw [hslot] at hc
    exact mem_heap_sync_rows (hold c t hc ht rfl)

/-- A pop keeps every entry whose job it does not name. -/
theorem mem_heappop {heap : Heap Entry} {entry : Entry} (hpeek : heap.peek = some entry)
    {t : Int} {j : JobId} (hne : ¬(t = (ofLex entry).1 ∧ j = (ofLex entry).2))
    (h : toLex (t, j) ∈ heap) : toLex (t, j) ∈ heap.heappop := by
  rcases (Heap.mem_iff_of_peek hpeek _).mp h with heq | hmem
  · exact absurd ⟨congrArg (fun e => (ofLex e).1) heq, congrArg (fun e => (ofLex e).2) heq⟩ hne
  · exact hmem

/-- After a pop, the entry it took is the only one that can be missing. -/
theorem HeapOk.popped {db : Db} {p : Scheduler} {entry : Entry} {pc : Pc} (hok : HeapOk db p)
    (hnone : p.pc.popped = none) (hpeek : p.mem.heap.peek = some entry)
    (htaken : ∀ job, p.mem.job_cache (ofLex entry).2 = some job →
      job.next_fire_at = some (ofLex entry).1 → pc.popped = some (ofLex entry).2) :
    HeapOk db ⟨{ p.mem with heap := p.mem.heap.heappop }, pc⟩ := by
  intro j job t hj ht
  rcases hok j job t hj ht with hheap | hpopped | hadvd
  · by_cases heq : t = (ofLex entry).1 ∧ j = (ofLex entry).2
    · obtain ⟨rfl, rfl⟩ := heq
      exact .inr (.inl (htaken job hj ht))
    · exact .inl (mem_heappop hpeek heq hheap)
  · rw [hnone] at hpopped
    cases hpopped
  · exact .inr (.inr hadvd)

/-- **The step lemma**, for one scheduler. -/
theorem heapOk_act {env : Env} {db db' : Db} {p p' : Scheduler} {a : Act}
    (h : ActStep env db p a db' p') (hi : ProcOk db p) (hw : WholeSeconds db.jobs)
    (hi' : ProcOk db' p') (hadv : Advances db.now db.jobs db'.jobs) (hok : HeapOk db p)
    (hfail : a = .fail → p.pc.popped = none) : HeapOk db' p' := by
  -- where neither the memory nor the table changes, only the pop in progress counts
  have same : ∀ {pc : Pc}, (p.pc.popped = none ∨ pc.popped = p.pc.popped) →
      HeapOk db ⟨p.mem, pc⟩ := by
    intro pc hpc j job t hj ht
    rcases hok j job t hj ht with hheap | hpop | hadvd
    · exact .inl hheap
    · rcases hpc with hnone | hsame
      · rw [hnone] at hpop; cases hpop
      · exact .inr (.inl (hsame.trans hpop))
    · exact .inr (.inr hadvd)
  cases h with
  | sync hpc =>
      intro j c t hc ht
      have hidle : HeapOk db ⟨p.mem, .idle⟩ := hpc ▸ hok
      exact .inl (mem_heap_of_sync hi.mem hw hidle hc ht)
  | begin hpc => exact same (.inl (by rw [hpc]; rfl))
  | done hpc _ => exact same (.inl (by rw [hpc]; rfl))
  | @skipped now m hpc hpop =>
      have hinv := pop_due_inv p.mem now
      rw [hpop] at hinv
      obtain ⟨entry, hpeek, rfl, hstale⟩ := hinv
      exact hok.popped (by rw [hpc]; rfl) hpeek fun job hj ht => absurd rfl (hstale job _ hj ht)
  | @raised now m hpc hpop =>
      have hinv := pop_due_inv p.mem now
      rw [hpop] at hinv
      obtain ⟨entry, hpeek, rfl, named, hnamed, hnone⟩ := hinv
      refine hok.popped (by rw [hpc]; rfl) hpeek fun job hj ht => ?_
      rw [hnamed] at hj
      cases hj
      rw [hnone] at ht
      cases ht
  | @due now m named t₀ hpc hpop =>
      have hinv := pop_due_inv p.mem now
      rw [hpop] at hinv
      obtain ⟨entry, hpeek, rfl, _, hnamed, _⟩ := hinv
      have hid : named.id = (ofLex entry).2 := hi.mem.ids _ named hnamed
      exact hok.popped (by rw [hpc]; rfl) hpeek fun _ _ _ => congrArg some hid
  | merge hpc => exact same (.inr (by rw [hpc]; rfl))
  | @commit now named t₀ loaded expression jobs' hpc _ _ =>
      -- the row has moved on from the cached firing, and the next sync will read it
      obtain ⟨_, hmoved, c, hc, hct⟩ := hi'.at_
      intro j job t hj ht
      by_cases hjid : j = named.id
      · subst hjid
        rw [hc] at hj
        cases hj
        rw [hct] at ht
        cases ht
        exact .inr (.inr hmoved)
      · rcases hok.mono hi hadv j job t hj ht with hheap | hpopped | hadvd
        · exact .inl hheap
        · rw [hpc] at hpopped
          exact absurd (Option.some.inj hpopped).symm hjid
        · exact .inr (.inr hadvd)
  | refresh hpc _ | forbidden hpc _ _ | create hpc _ _ _ | send hpc =>
      exact same (.inl (by rw [hpc]; rfl))
  | @finish now t₀ named hpc =>
      intro j job t hj ht
      simp only [CronScheduler.reschedule, Function.update_apply] at hj ⊢
      split at hj
      · next hjid =>
          cases hj
          simp only [ht]
          exact .inl (Heap.mem_heappush.mpr (.inl (by rw [hjid])))
      · rcases hok j job t hj ht with hheap | hpopped | hadvd
        · left
          cases named.next_fire_at with
          | none => exact hheap
          | some n => exact Heap.mem_heappush.mpr (.inr hheap)
        · rw [hpc] at hpopped; cases hpopped
        · exact .inr (.inr hadvd)
  | fail => exact same (.inl (hfail rfl))

/-- **The step lemma**, for all schedulers. -/
theorem heapOk_step {env : Env} {X : Loop P → P → Prop} (hX : Exclusive env X) {s s' : Loop P}
    {l : Loop.Label P} (hi : LoopInv X s) (hok : ∀ p, HeapOk s.db (s.procs p).sched)
    (hl : CommitsOnly X s l) (hloss : NoLoss s l) (h : Loop.Step env s l s') :
    ∀ p, HeapOk s'.db (s'.procs p).sched := by
  have hi' := loopInv_step hX hi hl h
  cases h with
  | tick => exact hok
  | @die p | @is_leader p =>
      intro q
      have hq := hok q
      simp only [Loop.asked, Function.update_apply]
      split
      · next heq => rwa [heq] at hq
      · exact hq
  | @act p a db' sched' phase' hact hphase =>
      have hcommit : a = .commit → Fresh s.db (s.procs p).sched := by
        rintro rfl
        exact hi.fresh p (hl p rfl) (Phase.of_commit hphase)
      obtain ⟨hproc, _, hadv, _⟩ := procOk_act hact (hi.proc p) hi.whole hcommit
      intro q
      simp only [Function.update_apply]
      split
      · refine heapOk_act hact (hi.proc p) hi.whole hproc hadv (hok p) ?_
        rintro rfl
        exact hloss p rfl
      · exact (hok q).mono (hi.proc q) hadv

/-! ## One scheduler -/

/-- The only process there is may always commit. -/
theorem alone_exclusive (env : Env) : Exclusive env (fun (_ : Loop Unit) _ => True) where
  unique _ _ := rfl
  kept _ _ _ := trivial

theorem heapOk_run {env : Env} {jobs : Table Job} {now : Int} (hw : WholeSeconds jobs)
    {s : Loop Unit} (h : Run (Loop.Step env) NoLoss (.start jobs now) s) :
    LoopInv (fun _ _ => True) s ∧ ∀ p, HeapOk s.db (s.procs p).sched := by
  refine h.invariant (I := fun s => LoopInv (fun _ _ => True) s ∧
    ∀ p, HeapOk s.db (s.procs p).sched) ?_ ⟨loopInv_start hw, fun _ => heapOk_init _⟩
  intro s t l hi hloss hstep
  have hl : CommitsOnly (fun _ _ => True) s l := fun _ _ => trivial
  exact ⟨loopInv_step (alone_exclusive env) hi.1 hl hstep,
    heapOk_step (alone_exclusive env) hi.1 hi.2 hl hloss hstep⟩

/-- **A failed cycle does not stall a job**, unless it fails between a pop and the commit
of the advanced schedule: after every sync each cached firing has its heap entry. -/
theorem sync_restores_heap (env : Env) {jobs : Table Job} (now : Int) (hw : WholeSeconds jobs)
    {s s' : Loop Unit} (hrun : Run (Loop.Step env) NoLoss (.start jobs now) s)
    (hsync : Loop.Step env s (.act () .sync) s') : HeapReady (s'.procs ()).sched.mem := by
  obtain ⟨hi, hok⟩ := heapOk_run hw hrun
  cases hsync with
  | @act _ _ db' sched' phase' hact hphase =>
      intro j job t hj ht
      simp only [Function.update_self] at hj ⊢
      cases hact with
      | sync hpc =>
          have hidle : HeapOk s.db ⟨(s.procs ()).sched.mem, .idle⟩ := hpc ▸ hok ()
          refine ⟨_, mem_heap_of_sync (hi.proc ()).mem hi.whole hidle hj ht, rfl, ?_⟩
          simp [_TIMESTAMP_EPSILON]

/-- The send of a firing raises; the next sync has the entry of the firing after it. -/
theorem sync_restores_heap_after_send : ∃ s s',
    Run (Loop.Step example_env) NoLoss (Loop.start (P := Unit) example_jobs 0) s ∧
    Loop.Step example_env s (.act () .sync) s' ∧
    ((s'.procs ()).sched.mem.job_cache 1).bind Job.next_fire_at = some (seconds 120) ∧
    HeapReady (s'.procs ()).sched.mem := by
  have h₀ : Run (Loop.Step example_env) NoLoss
    (Loop.start (P := Unit) example_jobs 0) (.start example_jobs 0) := .refl
  have h₁ := h₀.snoc (l := Loop.Label.is_leader ()) nofun (.is_leader rfl)
  have h₂ := h₁.snoc (l := Loop.Label.act () Act.sync) nofun (.act (.sync rfl) rfl)
  have h₃ := h₂.snoc (l := Loop.Label.tick (seconds 60)) nofun (.tick (by decide))
  have h₄ := h₃.snoc (l := Loop.Label.act () Act.begin) nofun (.act (.begin rfl) rfl)
  have h₅ := h₄.snoc (l := Loop.Label.act () Act.pop) nofun (.act (.due rfl rfl) rfl)
  have h₆ := h₅.snoc (l := Loop.Label.act () Act.merge) nofun (.act (.merge rfl) rfl)
  have h₇ := h₆.snoc (l := Loop.Label.act () Act.commit) nofun (.act (.commit rfl rfl rfl) rfl)
  have h₈ := h₇.snoc (l := Loop.Label.act () Act.refresh) nofun (.act (.refresh rfl rfl) rfl)
  have h₉ := h₈.snoc (l := Loop.Label.act () (Act.enqueue false 1)) nofun
    (.act (.create rfl (by decide) (by decide) (by decide)) rfl)
  have h₁₀ := h₉.snoc (l := Loop.Label.act () Act.fail) (fun _ _ => rfl) (.act .fail rfl)
  have h₁₁ := h₁₀.snoc (l := Loop.Label.is_leader ()) nofun (.is_leader rfl)
  exact ⟨_, _, h₁₁, .act (.sync rfl) rfl, rfl,
    sync_restores_heap example_env 0 wholeSeconds_example h₁₁ (.act (.sync rfl) rfl)⟩

/-- The merge of a popped job raises.  The next sync answers the row, finds its firing in
the cache and pushes nothing, so the heap stays empty. -/
theorem fail_loses_entry : ∃ s s',
    Run (Loop.Step example_env) Any (Loop.start (P := Unit) example_jobs 0) s ∧
    Loop.Step example_env s (.act () .sync) s' ∧
    ((s'.procs ()).sched.mem.job_cache 1).bind Job.next_fire_at = some (seconds 60) ∧
    (s'.procs ()).sched.mem.heap.entries = [] ∧ ¬ HeapReady (s'.procs ()).sched.mem := by
  have h₀ : Run (Loop.Step example_env) Any
    (Loop.start (P := Unit) example_jobs 0) (.start example_jobs 0) := .refl
  have h₁ := h₀.snoc (l := Loop.Label.is_leader ()) trivial (.is_leader rfl)
  have h₂ := h₁.snoc (l := Loop.Label.act () Act.sync) trivial (.act (.sync rfl) rfl)
  have h₃ := h₂.snoc (l := Loop.Label.tick (seconds 60)) trivial (.tick (by decide))
  have h₄ := h₃.snoc (l := Loop.Label.act () Act.begin) trivial (.act (.begin rfl) rfl)
  have h₅ := h₄.snoc (l := Loop.Label.act () Act.pop) trivial (.act (.due rfl rfl) rfl)
  have h₆ := h₅.snoc (l := Loop.Label.act () Act.fail) trivial (.act .fail rfl)
  have h₇ := h₆.snoc (l := Loop.Label.is_leader ()) trivial (.is_leader rfl)
  refine ⟨_, _, h₇, .act (.sync rfl) rfl, rfl, rfl, fun h => ?_⟩
  obtain ⟨e, hmem, _⟩ := h 1 _ (seconds 60) rfl rfl
  cases hmem

end Dass
