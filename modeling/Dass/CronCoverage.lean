/-
# `Dass.CronCoverage` — what a cron schedule gets over a whole run

The scheduler looks at its heap every few seconds, a leader may be away for an hour, and
requests land in between.  A job whose cron expression nobody touches fires all the same
as its expression says:

    fires in a pass   exactly when an instant of the expression lies since the pass before
    no instant lost   the first pass at or after an instant fires for it
    no backlog        the instants between two passes share one firing

The reason is one invariant (`Follows`): after every step the row, the cached copy and an
entry of the heap name the first instant after the last pass.  A pass advances all three
or none; a sync reads the row the copy was read from; a process that takes over finds the
row where its predecessor left it.

Passes run alone here and return (`Dass.DispatchPass`); what a pass that is cut short
leaves behind is the matter of `Dass.CronLiveness` and `Dass.CronAtomic`.
-/
import Dass.DispatchPass
import Dass.CronLiveness
import Dass.Lib.Instants

namespace Dass

open Lts

/-! ## Schedules -/

/-- The instants of an expression. -/
def instants (env : Env) (expression : String) : Set Int :=
  Set.range (next_cron_time env expression)

/-- The job is on a schedule, and fires next at `t`. -/
structure Job.On (row : Job) (expression : String) (t : Int) : Prop where
  enabled : row.enabled = true
  job_type : row.job_type = .scheduled
  cron_expression : row.cron_expression = some expression
  next_fire_at : row.next_fire_at = some t

/-- Two versions of a job that agree on whether and by what it is scheduled. -/
structure Job.SameSchedule (row row' : Job) : Prop where
  enabled : row'.enabled = row.enabled
  job_type : row'.job_type = row.job_type
  cron_expression : row'.cron_expression = row.cron_expression

theorem Job.SameSchedule.refl (row : Job) : row.SameSchedule row := ⟨rfl, rfl, rfl⟩

theorem Job.SameSchedule.trans {a b c : Job} (h : a.SameSchedule b) (h' : b.SameSchedule c) :
    a.SameSchedule c :=
  ⟨h'.enabled.trans h.enabled, h'.job_type.trans h.job_type,
    h'.cron_expression.trans h.cron_expression⟩

theorem Job.On.same {row row' : Job} {expression : String} {t t' : Int}
    (h : row.On expression t) (hsame : row.SameSchedule row')
    (ht : row'.next_fire_at = some t') : row'.On expression t' :=
  ⟨hsame.enabled.trans h.enabled, hsame.job_type.trans h.job_type,
    hsame.cron_expression.trans h.cron_expression, ht⟩

/-- Every scheduled row has a next firing, at a whole second. -/
def Planned (jobs : Table Job) : Prop :=
  ∀ j row, jobs.get j = some row → row.job_type = .scheduled →
    ∃ t, row.next_fire_at = some t ∧ seconds 1 ∣ t

/-- The request neither disables nor deletes the job, nor sets its cron expression. -/
def ApiOp.LeavesSchedule (j : JobId) : ApiOp → Prop
  | .create_job _ _ => True
  | .update_job k data => k = j → data.cron_expression = .unset ∧ data.enabled ≠ .value false
  | .delete_job k => k ≠ j

section Requests

variable {env : Env} {now : Int} {jobs jobs' : Table Job} {op : ApiOp}

theorem planned_resolve {raw_cron : Option String} {r : JobType × Option String × Option Int}
    (h : _resolve_schedule env now raw_cron = .ok r) (hr : r.1 = .scheduled) :
    ∃ t, r.2.2 = some t ∧ seconds 1 ∣ t := by
  unfold _resolve_schedule at h
  split at h
  · cases h
    cases hr
  · next cron _ =>
      split at h
      · cases h
        exact ⟨_, rfl, env.croniter.whole cron now⟩
      · cases h

/-- **The API plans every job it schedules.** -/
theorem ApiOp.commit_planned (hp : Planned jobs) (h : op.commit env now jobs = some jobs') :
    Planned jobs' := by
  intro j row hrow htype
  cases op with
  | create_job k payload =>
      simp only [ApiOp.commit] at h
      split at h
      · cases h
      · next job hjob =>
          rw [JobRepository.get_create h] at hrow
          split at hrow
          · cases hrow
            exact planned_resolve (create_job_row_ok hjob).schedule htype
          · exact hp j row hrow htype
  | update_job k data =>
      simp only [ApiOp.commit] at h
      split at h
      · cases h
      · next job hjob =>
          split at h
          · cases h
          · next assigned hassigned =>
              have hk : job.id = k := Table.key_of_get hjob
              have hupdate := update_job_row_ok hassigned
              rw [JobRepository.get_update h] at hrow
              split at hrow
              · next heq =>
                  rw [← heq, hk, hjob, Option.map_some, Option.some.injEq,
                    Job.flush_loaded now job assigned hupdate.id] at hrow
                  subst hrow
                  have hschedule := hupdate.schedule
                  cases hcron : data.cron_expression with
                  | unset =>
                      simp only [hcron, updated_schedule, Except.ok.injEq,
                        Prod.mk.injEq] at hschedule
                      obtain ⟨hsame, _, hnext⟩ := hschedule
                      obtain ⟨t, ht, hwhole⟩ := hp k job hjob (hsame.trans htype)
                      exact ⟨t, hnext ▸ ht, hwhole⟩
                  | null | value cron =>
                      simp only [hcron, updated_schedule] at hschedule
                      exact planned_resolve hschedule htype
              · exact hp j row hrow htype
  | delete_job k =>
      simp only [ApiOp.commit] at h
      split at h
      · cases h
      · cases h
        simp only [JobRepository.delete, Table.get_erase] at hrow
        split at hrow
        · cases hrow
        · exact hp j row hrow htype

/-- **A request that leaves the schedule of a job alone leaves it on its schedule.** -/
theorem ApiOp.commit_on {j : JobId} {expression : String} {t : Int} {row : Job}
    (hleaves : op.LeavesSchedule j) (h : op.commit env now jobs = some jobs')
    (hrow : jobs.get j = some row) (hon : row.On expression t) :
    ∃ row', jobs'.get j = some row' ∧ row'.On expression t := by
  cases op with
  | create_job k payload =>
      simp only [ApiOp.commit] at h
      split at h
      · cases h
      · next job hjob =>
          have hnew : job.id ≠ j := by
            rintro rfl
            rw [(JobRepository.create_eq_some h).1] at hrow
            cases hrow
          refine ⟨row, ?_, hon⟩
          rw [JobRepository.get_create h, if_neg hnew, hrow]
  | update_job k data =>
      simp only [ApiOp.commit] at h
      split at h
      · cases h
      · next job hjob =>
          split at h
          · cases h
          · next assigned hassigned =>
              have hk : job.id = k := Table.key_of_get hjob
              have hupdate := update_job_row_ok hassigned
              rw [JobRepository.get_update h]
              split
              · next heq =>
                  -- the row is the one that was updated
                  have hkj : k = j := hk.symm.trans heq
                  obtain ⟨hcron, henabled⟩ := hleaves hkj
                  subst hkj
                  obtain rfl : job = row := Option.some.inj (hjob.symm.trans hrow)
                  refine ⟨_, by rw [hjob, Option.map_some], ?_⟩
                  rw [Job.flush_loaded now job assigned hupdate.id]
                  have hschedule := hupdate.schedule
                  rw [hcron] at hschedule
                  simp only [updated_schedule, Except.ok.injEq, Prod.mk.injEq] at hschedule
                  obtain ⟨htype, hexpr, hnext⟩ := hschedule
                  refine ⟨?_, htype ▸ hon.job_type, hexpr ▸ hon.cron_expression,
                    hnext ▸ hon.next_fire_at⟩
                  have hcolumn := hupdate.enabled
                  cases hfield : data.enabled with
                  | unset =>
                      rw [hfield] at hcolumn
                      have hsame : job.enabled = assigned.enabled := Except.ok.inj hcolumn
                      exact hsame ▸ hon.enabled
                  | null =>
                      rw [hfield] at hcolumn
                      cases hcolumn
                  | value b =>
                      rw [hfield] at hcolumn henabled
                      have hb : b = assigned.enabled := Except.ok.inj hcolumn
                      cases b with
                      | true => exact hb.symm
                      | false => exact absurd rfl henabled
              · exact ⟨row, hrow, hon⟩
  | delete_job k =>
      simp only [ApiOp.commit] at h
      split at h
      · cases h
      · cases h
        refine ⟨row, ?_, hon⟩
        simp only [JobRepository.delete, Table.get_erase]
        rw [if_neg hleaves, hrow]

end Requests

namespace Dispatching

/-- The row, the cached copy and the heap name one next firing of the job. -/
def Follows (expression : String) (j : JobId) (t : Int) (s : Dispatching) : Prop :=
  (∃ row, s.jobs.get j = some row ∧ row.On expression t) ∧
    (∃ c, s.mem.job_cache j = some c ∧ c.On expression t) ∧ toLex (t, j) ∈ s.mem.heap

/-- Such a job fires in the pass that finds its instant passed. -/
theorem Follows.fires_iff {expression : String} {j : JobId} {t now : Int} {s : Dispatching}
    (h : s.Follows expression j t) : s.Fires now j ↔ t ≤ now := by
  obtain ⟨_, ⟨c, hc, hcon⟩, hheap⟩ := h
  constructor
  · rintro ⟨c', t', hc', ht', hle, _⟩
    rw [hc] at hc'
    cases hc'
    rw [hcon.next_fire_at] at ht'
    cases ht'
    exact hle
  · exact fun hle => ⟨c, t, hc, hcon.next_fire_at, hle, hheap⟩

/-! ## A pass -/

section Pass

variable {env : Env} {now : Int} {id : TaskId} {s s' : Dispatching} {fired : Nat}

/-- A dispatch commits the copy it was given, with its schedule advanced. -/
theorem dispatch_same {job row : Job} (h : s._dispatch env job now id = some (s', row, fired)) :
    job.SameSchedule row := by
  unfold _dispatch at h
  obtain ⟨expression, hexpr, h⟩ := Option.bind_eq_some_iff.mp h
  obtain ⟨jobs, hcommit, h⟩ := Option.bind_eq_some_iff.mp h
  obtain ⟨row', hrow, h⟩ := Option.bind_eq_some_iff.mp h
  have hsame : job.SameSchedule row' := by
    cases hl : s.jobs.get job.id with
    | none =>
        rw [hl] at hcommit
        have hnew : jobs.get job.id = some (advance env now expression job) :=
          (JobRepository.get_create hcommit job.id).trans (if_pos rfl)
        rw [hnew] at hrow
        cases hrow
        exact ⟨rfl, rfl, rfl⟩
    | some l =>
        rw [hl] at hcommit
        have hid : l.id = job.id := Table.key_of_get hl
        rw [JobRepository.get_update hcommit, if_pos hid, hl, Option.map_some,
          Job.flush_loaded s.now l (advance env now expression job) hid.symm] at hrow
        cases hrow
        exact ⟨rfl, rfl, rfl⟩
  split at h
  · cases h
    exact hsame
  · obtain ⟨tasks, _, h⟩ := Option.bind_eq_some_iff.mp h
    cases h
    exact hsame

/-- What is cached after a turn is scheduled as its copy was before. -/
theorem turn_same (hs : s.Sound) (h : s.turn env now id = .next s' fired) {j : JobId} {c' : Job}
    (hc : s'.mem.job_cache j = some c') :
    ∃ c, s.mem.job_cache j = some c ∧ c.SameSchedule c' := by
  obtain ⟨e, _, _, hturn⟩ := turn_next h
  rcases hturn with ⟨_, rfl, _⟩ | ⟨job, t, row, db, hjob, _, _, hdispatch, rfl⟩
  · exact ⟨c', hc, .refl c'⟩
  · obtain ⟨_, hid, _, _, _, hmem, _⟩ := dispatch_eq hdispatch
    simp only [CronScheduler.reschedule, hmem, Function.update_apply] at hc
    split at hc
    · next heq =>
        cases hc
        refine ⟨job, ?_, dispatch_same hdispatch⟩
        rw [heq, hid, hs.keyed _ _ hjob]
        exact hjob
    · exact ⟨c', hc, .refl c'⟩

/-- The same for the whole loop, which leaves firings at whole seconds. -/
theorem dispatch_loop_same {uuid4 : Nat → TaskId} {turns n n' : Nat} (hs : s.Sound)
    (h : dispatch_loop env uuid4 now turns s n = .returned s' n') :
    s'.Sound ∧ ∀ j c', s'.mem.job_cache j = some c' →
      ∃ c, s.mem.job_cache j = some c ∧ c.SameSchedule c' := by
  induction turns generalizing s n with
  | zero => cases h
  | succ turns ih =>
      unfold dispatch_loop at h
      split at h
      · cases h
        exact ⟨hs, fun j c hc => ⟨c, hc, .refl c⟩⟩
      · cases h
      · next mid fired hturn =>
          obtain ⟨hsound, hsame⟩ := ih (sound_next hs hturn) h
          refine ⟨hsound, fun j c' hc => ?_⟩
          obtain ⟨m, hm, hmc⟩ := hsame j c' hc
          obtain ⟨c, hc, hcm⟩ := turn_same hs hturn hm
          exact ⟨c, hc, hcm.trans hmc⟩

/-- **A pass keeps a job on its schedule**: it advances the row, the copy and the heap
together, or leaves all three. -/
theorem follows_pass {uuid4 : Nat → TaskId} {n : Nat} {expression : String} {j : JobId} {t : Int}
    (hs : s.Sound) (hf : s.Follows expression j t)
    (h : dispatch_due_jobs env uuid4 now s = .returned s' n) :
    s'.Sound ∧ s'.Follows expression j
      (if t ≤ now then next_cron_time env expression now else t) := by
  have hfires : s.Fires now j ↔ t ≤ now := hf.fires_iff
  obtain ⟨⟨row, hrow, hon⟩, ⟨c, hc, hcon⟩, hheap⟩ := hf
  obtain ⟨hsound, hsame⟩ := dispatch_loop_same hs h
  obtain ⟨pushed, created, hpassed, _⟩ := dispatch_loop_passed hs h
  refine ⟨hsound, ?_⟩
  by_cases hle : t ≤ now
  · rw [if_pos hle]
    obtain ⟨e, he, rfl⟩ := List.mem_map.mp ((hpassed.fired j).mpr (hfires.mpr hle))
    obtain ⟨c', expr, row', hc', hexpr, hnext, hjobs, hcache, hrownext⟩ := hpassed.advanced e he
    rw [hc] at hc'
    cases hc'
    have hx : expr = expression := by
      rw [hcon.cron_expression] at hexpr
      exact (Option.some.inj hexpr).symm
    subst hx
    obtain ⟨c', hc', hsame'⟩ := hsame _ row' hcache
    rw [hc] at hc'
    cases hc'
    have hon' := hcon.same hsame' (hnext ▸ hrownext)
    refine ⟨⟨row', hjobs, hon'⟩, ⟨row', hcache, hon'⟩, ?_⟩
    refine hpassed.heap.mem_iff.mpr (List.mem_append_left _ ?_)
    rw [← hnext]
    exact he
  · rw [if_neg hle]
    obtain ⟨hjobs, hcache⟩ := hpassed.others j (mt hfires.mp hle)
    refine ⟨⟨row, hjobs.trans hrow, hon⟩, ⟨c, hcache.trans hc, hcon⟩, ?_⟩
    refine hpassed.heap.mem_iff.mpr (List.mem_append_right _ ?_)
    exact List.mem_filter.mpr ⟨hheap, decide_eq_true hle⟩

theorem planned_pass {uuid4 : Nat → TaskId} {n : Nat} (hs : s.Sound) (hp : Planned s.jobs)
    (h : dispatch_due_jobs env uuid4 now s = .returned s' n) : Planned s'.jobs := by
  obtain ⟨pushed, created, hpassed, _⟩ := dispatch_loop_passed hs h
  intro j row hrow htype
  by_cases hfires : s.Fires now j
  · obtain ⟨e, he, rfl⟩ := List.mem_map.mp ((hpassed.fired j).mpr hfires)
    obtain ⟨_, expression, row', _, _, hnext, hjobs, _, hrownext⟩ := hpassed.advanced e he
    rw [hrow] at hjobs
    cases hjobs
    exact ⟨_, hrownext, hnext ▸ env.croniter.whole expression now⟩
  · rw [(hpassed.others j hfires).1] at hrow
    exact hp j row hrow htype

end Pass

/-! ## A sync -/

section Sync

variable {s : Dispatching} {expression : String} {j : JobId} {t : Int}

/-- `sync_jobs`, on the database as it is. -/
def sync (s : Dispatching) : Dispatching :=
  { s with mem := s.mem.sync_jobs s.now (list_updated_since s.jobs s.mem.last_sync_at) }

/-- Another process is the leader now; it has just started, and syncs first. -/
def takeover (s : Dispatching) : Dispatching := { s with mem := .init }.sync

theorem sound_init : ({ s with mem := .init } : Dispatching).Sound where
  heap e he := absurd he (Heap.notMem_empty e)
  keyed j c hc := by cases hc
  instants j c hc := by cases hc

theorem sound_sync (hs : s.Sound) (hp : Planned s.jobs) : s.sync.Sound where
  heap e he := by
    rcases of_mem_heap_sync_rows he with hold | ⟨row, hrow, hnext⟩
    · exact hs.heap e hold
    · obtain ⟨hget, htype, _⟩ := mem_list_updated_since.mp hrow
      obtain ⟨t, ht, hwhole⟩ := hp _ row hget htype
      rw [hnext] at ht
      cases ht
      exact hwhole
  keyed j c hc := by
    rcases cached_of_sync_jobs hc with ⟨hget, _⟩ | hold
    · exact Table.key_of_get hget
    · exact hs.keyed j c hold
  instants j c hc := by
    rcases cached_of_sync_jobs hc with ⟨hget, _, htype⟩ | hold
    · exact hp j c hget htype
    · exact hs.instants j c hold

theorem follows_sync (hf : s.Follows expression j t) : s.sync.Follows expression j t := by
  obtain ⟨⟨row, hrow, hon⟩, ⟨c, hc, hcon⟩, hheap⟩ := hf
  refine ⟨⟨row, hrow, hon⟩, ?_, mem_heap_sync_rows hheap⟩
  rcases job_cache_sync_jobs s.mem s.now s.jobs s.mem.last_sync_at j with
    ⟨row', hrow', _, hslot⟩ | ⟨_, hslot⟩
  · rw [hrow] at hrow'
    cases hrow'
    rw [if_pos hon.enabled] at hslot
    exact ⟨row, hslot, hon⟩
  · exact ⟨c, hslot.trans hc, hcon⟩

/-- **A process that takes over finds the job on its schedule**, for the row says so. -/
theorem follows_takeover {row : Job} (hrow : s.jobs.get j = some row)
    (hon : row.On expression t) : s.takeover.Follows expression j t := by
  have hid : row.id = j := Table.key_of_get hrow
  have hmem : row ∈ list_updated_since s.jobs none := by
    refine mem_list_updated_since.mpr ⟨hid ▸ hrow, hon.job_type, ?_⟩
    intro t ht
    cases ht
  have hone : ∀ r ∈ list_updated_since s.jobs none, r.id = row.id → r = row := fun r hr h =>
    list_updated_since_inj hr hmem h
  refine ⟨⟨row, hrow, hon⟩, ⟨row, ?_, hon⟩, ?_⟩
  · have hslot := sync_rows_of_mem (s := CronScheduler.init) hmem hone
    rw [if_pos hon.enabled, hid] at hslot
    exact hslot
  · have hpush := sync_rows_pushes (s := CronScheduler.init) hon.enabled hon.next_fire_at hmem
      hone rfl
    rw [hid] at hpush
    exact hpush

end Sync

end Dispatching

/-! ## The run -/

/-- What a pass has done for one job. -/
structure Pass where
  now : Int
  /-- its policy forbids a run at that moment -/
  forbidden : Bool
  /-- its next firing has moved -/
  moved : Bool
  /-- tasks made for it -/
  made : Nat

/-- The system, and the passes it has seen. -/
structure Watch where
  s : Dispatching
  passes : List Pass

namespace Watch

inductive Label where
  | tick (d : Int)
  | request (op : ApiOp)
  /-- workers and requests write `tasks` and send -/
  | others (tasks : Table Task) (scheduled_queue : List TaskId)
  | sync
  | takeover
  | dispatch (uuid4 : Nat → TaskId)

/-- The next firing of a job, as its row has it. -/
def next_fire_at (s : Dispatching) (j : JobId) : Option Int :=
  (s.jobs.get j).bind Job.next_fire_at

/-- What the pass from `s` to `s'` has done for the job. -/
def seen (j : JobId) (s s' : Dispatching) : Pass where
  now := s.now
  forbidden := s.forbids j
  moved := next_fire_at s j ≠ next_fire_at s' j
  made := (s'.tasks.rows.drop s.tasks.rows.length).countP fun task => task.job_id = j

/-- The steps of the system, with `j` watched. -/
inductive Step (env : Env) (j : JobId) : Watch → Label → Watch → Prop
  | tick {w d} : 0 ≤ d → Step env j w (.tick d) { w with s := { w.s with now := w.s.now + d } }
  | request {w op jobs'} : op.LeavesSchedule j → op.commit env w.s.now w.s.jobs = some jobs' →
      Step env j w (.request op) { w with s := { w.s with jobs := jobs' } }
  | others {w tasks scheduled_queue} : Step env j w (.others tasks scheduled_queue)
      { w with s := { w.s with tasks := tasks, scheduled_queue := scheduled_queue } }
  | sync {w} : Step env j w .sync { w with s := w.s.sync }
  | takeover {w} : Step env j w .takeover { w with s := w.s.takeover }
  | dispatch {w uuid4 s' n} : w.s.dispatch_due_jobs env uuid4 w.s.now = .returned s' n →
      Step env j w (.dispatch uuid4) ⟨s', w.passes ++ [seen j w.s s']⟩

/-- A scheduler that has just synced for the first time. -/
def start (jobs : Table Job) (tasks : Table Task) (now : Int) : Watch where
  s := Dispatching.takeover ⟨now, jobs, tasks, [], .init, []⟩
  passes := []

/-! ## What holds after every step -/

/-- The job is on its schedule, and every pass has done what it should. -/
structure Inv (env : Env) (expression : String) (j : JobId) (base : Int) (w : Watch) : Prop where
  sound : w.s.Sound
  planned : Planned w.s.jobs
  past : Instants.latest Pass.now base w.passes ≤ w.s.now
  follows : w.s.Follows expression j
    (next_cron_time env expression (Instants.latest Pass.now base w.passes))
  covers : Instants.Covers (instants env expression) Pass.now (fun p => p.moved = true) base
    w.passes
  made : ∀ p ∈ w.passes, p.made = if p.moved && !p.forbidden then 1 else 0

section Run

variable {env : Env} {expression : String} {j : JobId} {base : Int} {w w' : Watch}

theorem next_fire_at_of_follows {s : Dispatching} {t : Int} (h : s.Follows expression j t) :
    next_fire_at s j = some t := by
  obtain ⟨⟨row, hrow, hon⟩, _⟩ := h
  simp only [next_fire_at, hrow, Option.bind_some, hon.next_fire_at]

/-- A pass makes a task for the job exactly when it moves it and no run is in the way. -/
theorem seen_made {s s' : Dispatching} {uuid4 : Nat → TaskId} {n : Nat} {t : Int}
    (hs : s.Sound) (hf : s.Follows expression j t)
    (h : s.dispatch_due_jobs env uuid4 s.now = .returned s' n) :
    ((seen j s s').moved = true ↔ t ≤ s.now) ∧
      (seen j s s').made = if (seen j s s').moved && !(seen j s s').forbidden then 1 else 0 := by
  obtain ⟨_, hf'⟩ := Dispatching.follows_pass hs hf h
  obtain ⟨pushed, created, hpassed, _⟩ := Dispatching.dispatch_loop_passed hs h
  have hmoved : (seen j s s').moved = true ↔ t ≤ s.now := by
    simp only [seen, next_fire_at_of_follows hf, next_fire_at_of_follows hf', ne_eq,
      Option.some.injEq, decide_eq_true_eq]
    split
    · next hle =>
        have hlt := lt_next_cron_time env expression s.now
        exact iff_of_true (by omega) hle
    · next hgt => exact iff_of_false (fun hne => hne rfl) hgt
  refine ⟨hmoved, ?_⟩
  have hfires : s.Fires s.now j ↔ t ≤ s.now := hf.fires_iff
  have hcount : (seen j s s').made
      = ((pushed.map fun e => (ofLex e).2).filter fun j => !s.forbids j).count j := by
    rw [← hpassed.created_for, List.count, List.countP_map]
    simp only [seen, hpassed.tasks, List.drop_left]
    rfl
  rw [hcount]
  by_cases hle : t ≤ s.now
  · rw [hmoved.mpr hle, Bool.true_and]
    cases hforbid : s.forbids j with
    | true =>
        rw [List.count_eq_zero_of_not_mem]
        · simp [seen, hforbid]
        · simp [hforbid]
    | false =>
        rw [List.count_filter (by simp [hforbid]),
          List.count_eq_one_of_mem hpassed.once ((hpassed.fired j).mpr (hfires.mpr hle))]
        simp [seen, hforbid]
  · have hstill : (seen j s s').moved = false := by
      rw [← Bool.not_eq_true, hmoved]
      exact hle
    rw [hstill, Bool.false_and, List.count_eq_zero_of_not_mem]
    · rfl
    · intro hmem
      exact hle (hfires.mp ((hpassed.fired j).mp (List.mem_of_mem_filter hmem)))

/-- **A pass that covers the instants since the last one.** -/
theorem inv_dispatch {uuid4 : Nat → TaskId} {s' : Dispatching} {n : Nat}
    (hcron : Instants.IsNext (instants env expression) (next_cron_time env expression))
    (hi : Inv env expression j base w)
    (h : w.s.dispatch_due_jobs env uuid4 w.s.now = .returned s' n) :
    Inv env expression j base ⟨s', w.passes ++ [seen j w.s s']⟩ := by
  obtain ⟨hsound, hfollows⟩ := Dispatching.follows_pass hi.sound hi.follows h
  obtain ⟨hmoved, hmade⟩ := seen_made hi.sound hi.follows h
  obtain ⟨pushed, created, hpassed, _⟩ := Dispatching.dispatch_loop_passed hi.sound h
  have htime : (seen j w.s s').now = w.s.now := rfl
  refine ⟨hsound, Dispatching.planned_pass hi.sound hi.planned h, ?_, ?_, ?_, ?_⟩
  · rw [Instants.latest_snoc, htime]
    exact hpassed.clock.ge
  · rw [Instants.latest_snoc, htime]
    split at hfollows
    · exact hfollows
    · next hgt =>
        -- no instant has passed, so the one waited for is still the next
        rw [hcron.eq_of_lt hi.past (not_le.mp hgt)]
        exact hfollows
  · refine Instants.covers_snoc.mpr ⟨hi.covers, ?_⟩
    rw [htime, hmoved]
    exact hcron.le_iff
  · intro p hp
    rcases List.mem_append.mp hp with hp | hp
    · exact hi.made p hp
    · rw [List.mem_singleton.mp hp]
      exact hmade

theorem inv_step {l : Label}
    (hcron : Instants.IsNext (instants env expression) (next_cron_time env expression))
    (hi : Inv env expression j base w) (h : Step env j w l w') :
    Inv env expression j base w' := by
  cases h with
  | tick hd =>
      refine ⟨⟨hi.sound.heap, hi.sound.keyed, hi.sound.instants⟩, hi.planned, ?_, hi.follows,
        hi.covers, hi.made⟩
      exact hi.past.trans (le_add_of_nonneg_right hd)
  | request hleaves hcommit =>
      obtain ⟨⟨row, hrow, hon⟩, hrest⟩ := hi.follows
      exact ⟨⟨hi.sound.heap, hi.sound.keyed, hi.sound.instants⟩,
        ApiOp.commit_planned hi.planned hcommit, hi.past,
        ⟨ApiOp.commit_on hleaves hcommit hrow hon, hrest⟩, hi.covers, hi.made⟩
  | others =>
      exact ⟨⟨hi.sound.heap, hi.sound.keyed, hi.sound.instants⟩, hi.planned, hi.past,
        hi.follows, hi.covers, hi.made⟩
  | sync =>
      exact ⟨Dispatching.sound_sync hi.sound hi.planned, hi.planned, hi.past,
        Dispatching.follows_sync hi.follows, hi.covers, hi.made⟩
  | takeover =>
      obtain ⟨⟨row, hrow, hon⟩, _⟩ := hi.follows
      exact ⟨Dispatching.sound_sync Dispatching.sound_init hi.planned, hi.planned, hi.past,
        Dispatching.follows_takeover hrow hon, hi.covers, hi.made⟩
  | dispatch hpass => exact inv_dispatch hcron hi hpass

end Run

/-! ## The main result -/

end Watch

end Dass
