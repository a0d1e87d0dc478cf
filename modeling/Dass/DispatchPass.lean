/-
# `Dass.DispatchPass` — one `dispatch_due_jobs`, from its first pop to its return

The loop of `dispatch_due_jobs` changes the heap and the cache it is driven by: a job
that fires is pushed again at its next instant, and its cache slot replaced.  A `turn`
is one iteration of it, and the loop takes turns until no entry is due.

    done      no entry is due
    skipped   the entry's job is not cached, or the entry is stale
    fired     the job's schedule is advanced, and a task is made unless the
              policy forbids it

Every turn takes one due entry out and puts none in, so the loop ends
(`dispatch_loop_ends`).  A job that has fired is scheduled after `now`, so the entries
it has left are stale, and it fires no more (`dispatch_loop_fires`).

The pass runs alone here.  What other transactions can do between its calls is the
matter of the steps in `Dass.CronScheduler`.
-/
import Dass.SchedulerLoop
import Dass.TaskRepository

namespace Dass

/-- The database and the process while a pass runs. -/
structure Dispatching where
  /-- the clock of the database -/
  now : Int
  jobs : Table Job
  tasks : Table Task
  scheduled_queue : List TaskId
  mem : CronScheduler
  /-- the entries the pass has popped, in their order -/
  consumed : List Entry

namespace Dispatching

/-- `_dispatch`, with the merge before it: the state it leaves, the job as it was read
back, and the number it returns.  `none` is a call that raises; `id` is the uuid4 of the
task. -/
def _dispatch (env : Env) (s : Dispatching) (job : Job) (now : Int) (id : TaskId) :
    Option (Dispatching × Job × Nat) := do
  let expression ← job.cron_expression
  let jobs ← commit_merged s.jobs s.now (s.jobs.get job.id) (advance env now expression job)
  let job ← jobs.get job.id
  if job.concurrency_policy = .forbid ∧
      TaskRepository.count_running_for_job s.tasks job.id ≠ 0 then
    return ({ s with jobs := jobs }, job, 0)
  let tasks ← TaskRepository.create s.tasks (.fresh id job.id .scheduled 0 s.now)
  return ({ s with
    jobs := jobs, tasks := tasks, scheduled_queue := s.scheduled_queue ++ [id] }, job, 1)

/-- What an iteration of the loop does. -/
inductive Turn where
  | done
  | raised
  | next (s : Dispatching) (fired : Nat)

/-- The least entry is popped. -/
def popped (s : Dispatching) (mem : CronScheduler) : Dispatching :=
  { s with mem := mem, consumed := s.consumed ++ s.mem.heap.peek.toList }

/-- One iteration of the loop of `dispatch_due_jobs`. -/
def turn (env : Env) (now : Int) (id : TaskId) (s : Dispatching) : Turn :=
  match s.mem.pop_due now with
  | .done => .done
  | .raised _ => .raised
  | .skipped mem => .next (s.popped mem) 0
  | .due mem job _ =>
      match (s.popped mem)._dispatch env job now id with
      | none => .raised
      | some (s, job, fired) => .next { s with mem := s.mem.reschedule job } fired

/-- How a pass ends. -/
inductive Outcome where
  /-- with the number it returns -/
  | returned (s : Dispatching) (dispatched : Nat)
  | raised
  /-- it does not, within the turns it was given -/
  | unfinished

/-- The loop of `dispatch_due_jobs`, for a number of turns.  `uuid4 n` is the id drawn after
`n` tasks. -/
def dispatch_loop (env : Env) (uuid4 : Nat → TaskId) (now : Int) :
    Nat → Dispatching → Nat → Outcome
  | 0, _, _ => .unfinished
  | turns + 1, s, dispatched =>
      match s.turn env now (uuid4 dispatched) with
      | .done => .returned s dispatched
      | .raised => .raised
      | .next s fired => dispatch_loop env uuid4 now turns s (dispatched + fired)

/-- `dispatch_due_jobs`; `now` is the clock it captures. -/
def dispatch_due_jobs (env : Env) (uuid4 : Nat → TaskId) (now : Int) (s : Dispatching) :
    Outcome :=
  dispatch_loop env uuid4 now (s.mem.heap.entries.length + 1) s 0

/-- The entries that are due. -/
def due (now : Int) (s : Dispatching) : List Entry :=
  s.mem.heap.entries.filter fun e => (ofLex e).1 ≤ now

/-- The others. -/
def later (now : Int) (s : Dispatching) : List Entry :=
  s.mem.heap.entries.filter fun e => ¬ (ofLex e).1 ≤ now

/-! ## One turn -/

section Turn

variable {env : Env} {now : Int} {id : TaskId} {s s' : Dispatching} {fired : Nat}

/-- What `_dispatch` leaves of the tasks and the queue. -/
def Enqueues (id : TaskId) (s : Dispatching) (job : Job) (fired : Nat) (s' : Dispatching) :
    Prop :=
  if job.concurrency_policy = .forbid ∧
      TaskRepository.count_running_for_job s.tasks job.id ≠ 0
  then fired = 0 ∧ s'.tasks = s.tasks ∧ s'.scheduled_queue = s.scheduled_queue
  else fired = 1 ∧ s'.tasks.rows = s.tasks.rows ++ [.fresh id job.id .scheduled 0 s.now] ∧
    s'.scheduled_queue = s.scheduled_queue ++ [id]

/-- **What `_dispatch` does**: one row of `jobs` is the cached copy, its schedule advanced,
and a task is made unless the policy forbids it. -/
theorem dispatch_eq {job row : Job} (h : s._dispatch env job now id = some (s', row, fired)) :
    (∃ expression, job.cron_expression = some expression ∧
      row.next_fire_at = some (next_cron_time env expression now)) ∧
    row.id = job.id ∧ row.concurrency_policy = job.concurrency_policy ∧
    (∀ k, s'.jobs.get k = if job.id = k then some row else s.jobs.get k) ∧
    s'.now = s.now ∧ s'.mem = s.mem ∧ s'.consumed = s.consumed ∧
    s.Enqueues id job fired s' := by
  unfold _dispatch at h
  obtain ⟨expression, hexpr, h⟩ := Option.bind_eq_some_iff.mp h
  obtain ⟨jobs, hcommit, h⟩ := Option.bind_eq_some_iff.mp h
  obtain ⟨row', hrow, h⟩ := Option.bind_eq_some_iff.mp h
  -- a row it merged onto takes the copy's columns, and a row that is gone is inserted
  have hmerged : row'.id = job.id ∧ row'.concurrency_policy = job.concurrency_policy ∧
      row'.next_fire_at = some (next_cron_time env expression now) ∧
      ∀ k, jobs.get k = if job.id = k then some row' else s.jobs.get k := by
    cases hl : s.jobs.get job.id with
    | none =>
        rw [hl] at hcommit
        have hget := JobRepository.get_create hcommit
        have hnew : jobs.get job.id = some (advance env now expression job) :=
          (hget job.id).trans (if_pos rfl)
        rw [hnew] at hrow
        cases hrow
        exact ⟨rfl, rfl, rfl, hget⟩
    | some l =>
        rw [hl] at hcommit
        have hid : l.id = job.id := Table.key_of_get hl
        have hget := JobRepository.get_update hcommit
        rw [hid] at hget
        have hflush := Job.flush_loaded s.now l (advance env now expression job) hid.symm
        have hnew : jobs.get job.id
            = some (Job.flush s.now l (advance env now expression job) l) := by
          rw [hget, if_pos rfl, hl, Option.map_some]
        rw [hnew] at hrow
        cases hrow
        refine ⟨by rw [hflush]; rfl, by rw [hflush]; rfl, by rw [hflush]; rfl, fun k => ?_⟩
        rw [hget]
        split
        · next hk => rw [← hk, hl, Option.map_some]
        · rfl
  obtain ⟨hid, hpolicy, hnext, hjobs⟩ := hmerged
  have hfields : s'.jobs = jobs ∧ row = row' ∧ s'.now = s.now ∧ s'.mem = s.mem ∧
      s'.consumed = s.consumed ∧ s.Enqueues id row' fired s' := by
    unfold Enqueues
    split at h
    · next hforbid =>
        cases h
        rw [if_pos hforbid]
        exact ⟨rfl, rfl, rfl, rfl, rfl, rfl, rfl, rfl⟩
    · next hallow =>
        obtain ⟨tasks, hcreate, h⟩ := Option.bind_eq_some_iff.mp h
        cases h
        rw [if_neg hallow]
        refine ⟨rfl, rfl, rfl, rfl, rfl, rfl, ?_, rfl⟩
        unfold TaskRepository.create at hcreate
        split at hcreate
        · next hnone =>
            cases hcreate
            exact Table.rows_add hnone
        · cases hcreate
  obtain ⟨rfl, rfl, hnow, hmem, hconsumed, henqueue⟩ := hfields
  refine ⟨⟨expression, hexpr, hnext⟩, hid, hpolicy, hjobs, hnow, hmem, hconsumed, ?_⟩
  unfold Enqueues at henqueue ⊢
  rwa [hpolicy, hid] at henqueue

/-- What a turn that goes on has done. -/
theorem turn_next (h : s.turn env now id = .next s' fired) :
    ∃ e : Entry, s.mem.heap.peek = some e ∧ (ofLex e).1 ≤ now ∧
      let mem : CronScheduler := { s.mem with heap := s.mem.heap.heappop }
      (fired = 0 ∧ s' = s.popped mem ∧
        ∀ job t, s.mem.job_cache (ofLex e).2 = some job → job.next_fire_at = some t →
          t ≠ (ofLex e).1) ∨
      ∃ job t row db, s.mem.job_cache (ofLex e).2 = some job ∧ job.next_fire_at = some t ∧
        |t - (ofLex e).1| ≤ _TIMESTAMP_EPSILON ∧
        (s.popped mem)._dispatch env job now id = some (db, row, fired) ∧
        s' = { db with mem := db.mem.reschedule row } := by
  unfold turn at h
  rcases pop_due_cases s.mem now with
    hpop | ⟨e, hpeek, hle, ⟨hpop, hstale⟩ | ⟨hpop, _⟩ | ⟨job, t, hpop, hjob, ht, heps⟩⟩ <;>
    rw [hpop] at h
  · cases h
  · cases h
    exact ⟨e, hpeek, hle, .inl ⟨rfl, rfl, hstale⟩⟩
  · cases h
  · refine ⟨e, hpeek, hle, .inr ?_⟩
    simp only at h
    split at h
    · cases h
    · next db row n hdispatch =>
        cases h
        exact ⟨job, t, row, db, hjob, ht, heps, hdispatch, rfl⟩

/-- The least entry, if it is due, comes first among those that are. -/
theorem due_of_peek {e : Entry} (hpeek : s.mem.heap.peek = some e) (hle : (ofLex e).1 ≤ now) :
    s.due now = e :: s.mem.heap.heappop.entries.filter fun e => (ofLex e).1 ≤ now := by
  unfold due
  rw [Heap.entries_of_peek hpeek]
  exact List.filter_cons_of_pos (p := fun e : Entry => (ofLex e).1 ≤ now) (decide_eq_true hle)

/-- A pass that is done holds no entry that is due. -/
theorem due_of_done (h : s.turn env now id = .done) : s.due now = [] := by
  refine List.filter_eq_nil_iff.mpr fun e he => ?_
  unfold turn at h
  have hnone : s.mem.pop_due now = .done := by
    split at h
    · assumption
    · cases h
    · cases h
    · split at h <;> cases h
  unfold CronScheduler.pop_due at hnone
  split at hnone
  · next hpeek =>
      have hnil : s.mem.heap.entries = [] := List.head?_eq_none_iff.mp hpeek
      rw [hnil] at he
      cases he
  · next least hpeek =>
      split at hnone
      · next hlt =>
          -- the least entry is later than `now`, so every entry is
          have hfirst : (ofLex least).1 ≤ (ofLex e).1 :=
            Prod.Lex.monotone_fst _ _ (Heap.head_le hpeek he)
          simp only [decide_eq_true_eq, not_le]
          exact lt_of_lt_of_le hlt hfirst
      · simp only at hnone
        split at hnone
        · cases hnone
        · split at hnone
          · cases hnone
          · split at hnone <;> cases hnone

/-- A job is pushed again at an instant that is not due. -/
theorem filter_due_heappush {h : Heap Entry} {next : Int} {j : JobId} (hlt : now < next) :
    (h.heappush (toLex (next, j))).entries.filter (fun e => (ofLex e).1 ≤ now)
      = h.entries.filter fun e => (ofLex e).1 ≤ now := by
  refine List.filter_orderedInsert_of_neg (q := fun e : Entry => (ofLex e).1 ≤ now) ?_ _
  rw [decide_eq_true_iff]
  exact not_le.mpr hlt

theorem filter_later_heappush {h : Heap Entry} {next : Int} {j : JobId} (hlt : now < next) :
    ((h.heappush (toLex (next, j))).entries.filter fun e => ¬ (ofLex e).1 ≤ now).Perm
      (toLex (next, j) :: h.entries.filter fun e => ¬ (ofLex e).1 ≤ now) := by
  have hperm := (List.perm_orderedInsert (· ≤ ·) (toLex (next, j)) h.entries).filter
    fun e : Entry => ¬ (ofLex e).1 ≤ now
  have hnot : ¬ (ofLex (toLex (next, j) : Entry)).1 ≤ now := not_le.mpr hlt
  rwa [List.filter_cons, if_pos (decide_eq_true hnot)] at hperm

/-- **A turn takes one due entry out**, and puts none in. -/
theorem due_of_next (h : s.turn env now id = .next s' fired) :
    ∃ e, s.due now = e :: s'.due now ∧ s'.consumed = s.consumed ++ [e] := by
  obtain ⟨e, hpeek, hle, hturn⟩ := turn_next h
  have hdue := due_of_peek hpeek hle
  refine ⟨e, ?_⟩
  rcases hturn with ⟨_, rfl, _⟩ | ⟨job, t, row, db, _, _, _, hdispatch, rfl⟩
  · refine ⟨hdue, ?_⟩
    simp only [popped, hpeek, Option.toList_some]
  · obtain ⟨⟨expression, _, hnext⟩, _, _, _, _, hmem, hconsumed, _⟩ := dispatch_eq hdispatch
    constructor
    · rw [hdue]
      simp only [due, CronScheduler.reschedule, hmem, hnext]
      rw [filter_due_heappush (lt_next_cron_time env expression now)]
      rfl
    · show db.consumed = _
      rw [hconsumed]
      simp only [popped, hpeek, Option.toList_some]

end Turn

/-! ## The loop ends -/

/-- **The loop ends**: more turns than there are due entries are never all taken. -/
theorem dispatch_loop_ends (env : Env) (uuid4 : Nat → TaskId) (now : Int) {turns : Nat}
    {s : Dispatching} {n : Nat} (h : (s.due now).length < turns) :
    dispatch_loop env uuid4 now turns s n ≠ .unfinished := by
  induction turns generalizing s n with
  | zero => exact absurd h (Nat.not_lt_zero _)
  | succ turns ih =>
      unfold dispatch_loop
      cases hturn : s.turn env now (uuid4 n) with
      | done => simp
      | raised => simp
      | next s' fired =>
          obtain ⟨e, hdue, _⟩ := due_of_next hturn
          rw [hdue, List.length_cons] at h
          exact ih (Nat.lt_of_succ_lt_succ h)

/-! ## What it leaves behind -/

/-- The job is cached and due, with an entry for that firing in the heap. -/
def Fires (now : Int) (s : Dispatching) (j : JobId) : Prop :=
  ∃ c t, s.mem.job_cache j = some c ∧ c.next_fire_at = some t ∧ t ≤ now ∧
    toLex (t, j) ∈ s.mem.heap

/-- The policy of the cached job forbids a run now. -/
def forbids (s : Dispatching) (j : JobId) : Bool :=
  (s.mem.job_cache j).any fun c =>
    c.concurrency_policy = .forbid ∧ TaskRepository.count_running_for_job s.tasks j ≠ 0

/-- What the sync leaves in the heap and the cache: firings at whole seconds. -/
structure Sound (s : Dispatching) : Prop where
  heap : ∀ e ∈ s.mem.heap, seconds 1 ∣ (ofLex e).1
  keyed : ∀ j c, s.mem.job_cache j = some c → c.id = j
  instants : ∀ j c, s.mem.job_cache j = some c → ∃ t, c.next_fire_at = some t ∧ seconds 1 ∣ t

/-- What a pass leaves behind: `pushed` are the entries of the jobs that fired, in the order
they did, and `created` the tasks it made. -/
structure Passed (env : Env) (now : Int) (s : Dispatching) (pushed : List Entry)
    (created : List Task) (s' : Dispatching) : Prop where
  clock : s'.now = s.now
  fired : ∀ j, j ∈ pushed.map (fun e => (ofLex e).2) ↔ s.Fires now j
  once : (pushed.map fun e => (ofLex e).2).Nodup
  advanced : ∀ e ∈ pushed, ∃ c expression row, s.mem.job_cache (ofLex e).2 = some c ∧
    c.cron_expression = some expression ∧ (ofLex e).1 = next_cron_time env expression now ∧
    s'.jobs.get (ofLex e).2 = some row ∧ s'.mem.job_cache (ofLex e).2 = some row ∧
    row.next_fire_at = some (ofLex e).1
  others : ∀ j, ¬ s.Fires now j →
    s'.jobs.get j = s.jobs.get j ∧ s'.mem.job_cache j = s.mem.job_cache j
  heap : s'.mem.heap.entries.Perm (pushed ++ s.later now)
  consumed : s'.consumed = s.consumed ++ s.due now
  created_for : created.map Task.job_id
    = (pushed.map fun e => (ofLex e).2).filter fun j => !s.forbids j
  pending : ∀ task ∈ created, task = .fresh task.id task.job_id .scheduled 0 s.now
  tasks : s'.tasks.rows = s.tasks.rows ++ created
  scheduled_queue : s'.scheduled_queue = s.scheduled_queue ++ created.map Task.id

section Passes

variable {env : Env} {now : Int} {id : TaskId} {s mid s' : Dispatching} {fired : Nat}
  {pushed : List Entry} {created : List Task}

/-- A pass that is done at once. -/
theorem passed_done (h : s.turn env now id = .done) : s.Passed env now [] [] s where
  clock := rfl
  fired j := by
    refine iff_of_false List.not_mem_nil ?_
    rintro ⟨c, t, _, _, hle, hmem⟩
    have hdue : toLex (t, j) ∈ s.due now := List.mem_filter.mpr ⟨hmem, decide_eq_true hle⟩
    rw [due_of_done h] at hdue
    cases hdue
  once := List.nodup_nil
  advanced := by
    intro e he
    cases he
  others j _ := ⟨rfl, rfl⟩
  heap := by
    have hnone : ∀ e ∈ s.mem.heap.entries, ¬ (ofLex e).1 ≤ now := by
      intro e he hle
      have hdue : e ∈ s.due now := List.mem_filter.mpr ⟨he, decide_eq_true hle⟩
      rw [due_of_done h] at hdue
      cases hdue
    unfold later
    rw [List.nil_append, List.filter_eq_self.mpr fun e he => decide_eq_true (hnone e he)]
  consumed := by rw [due_of_done h, List.append_nil]
  created_for := rfl
  pending := by
    intro task ht
    cases ht
  tasks := (List.append_nil _).symm
  scheduled_queue := (List.append_nil _).symm

/-- The entries that are not due are not touched by a pop of one that is. -/
theorem later_of_peek {e : Entry} (hpeek : s.mem.heap.peek = some e) (hle : (ofLex e).1 ≤ now) :
    s.later now = s.mem.heap.heappop.entries.filter fun e => ¬ (ofLex e).1 ≤ now := by
  unfold later
  rw [Heap.entries_of_peek hpeek, List.filter_cons, if_neg]
  simpa using hle

/-- A stale entry is dropped, and then the rest of the pass runs. -/
theorem passed_skipped {e : Entry} (hpeek : s.mem.heap.peek = some e) (hle : (ofLex e).1 ≤ now)
    (hstale : ∀ job t, s.mem.job_cache (ofLex e).2 = some job → job.next_fire_at = some t →
      t ≠ (ofLex e).1)
    (h : (s.popped { s.mem with heap := s.mem.heap.heappop }).Passed env now pushed created s') :
    s.Passed env now pushed created s' where
  clock := h.clock
  fired j := by
    rw [h.fired j]
    unfold Fires
    refine exists₂_congr fun c t => and_congr_right fun hc => and_congr_right fun ht =>
      and_congr_right fun _ => ?_
    show _ ∈ s.mem.heap.heappop ↔ _
    rw [Heap.mem_iff_of_peek hpeek, or_iff_right]
    intro heq
    rw [← heq] at hstale
    exact hstale c t hc ht rfl
  once := h.once
  advanced := h.advanced
  others j hj := by
    refine h.others j fun hfires => hj ?_
    obtain ⟨c, t, hc, ht, hle, hmem⟩ := hfires
    exact ⟨c, t, hc, ht, hle, Heap.mem_of_mem_heappop hmem⟩
  heap := by
    rw [later_of_peek hpeek hle]
    exact h.heap
  consumed := by
    rw [h.consumed, due_of_peek hpeek hle]
    simp only [popped, hpeek, Option.toList_some, List.append_assoc]
    rfl
  created_for := h.created_for
  pending := h.pending
  tasks := h.tasks
  scheduled_queue := h.scheduled_queue

/-- A turn in which a job fires: `next` is its new instant. -/
structure Fired (env : Env) (now : Int) (id : TaskId) (s : Dispatching) (e : Entry) (job row : Job)
    (next : Int) (fired : Nat) (s' : Dispatching) : Prop where
  peek : s.mem.heap.peek = some e
  due : (ofLex e).1 ≤ now
  cached : s.mem.job_cache (ofLex e).2 = some job
  key : job.id = (ofLex e).2
  instant : job.next_fire_at = some (ofLex e).1
  row_next : row.next_fire_at = some next
  next_eq : ∃ expression, job.cron_expression = some expression ∧
    next = next_cron_time env expression now
  jobs : ∀ k, s'.jobs.get k = if (ofLex e).2 = k then some row else s.jobs.get k
  cache : s'.mem.job_cache = Function.update s.mem.job_cache (ofLex e).2 (some row)
  heap : s'.mem.heap = s.mem.heap.heappop.heappush (toLex (next, (ofLex e).2))
  row_id : row.id = (ofLex e).2
  clock : s'.now = s.now
  consumed : s'.consumed = s.consumed ++ [e]
  enqueues : s.Enqueues id job fired s'

/-- With firings at whole seconds, a turn drops a stale entry or fires the job of its
entry. -/
theorem turn_fired (hs : s.Sound) (h : s.turn env now id = .next s' fired) :
    (∃ e : Entry, s.mem.heap.peek = some e ∧ (ofLex e).1 ≤ now ∧ fired = 0 ∧
      s' = s.popped { s.mem with heap := s.mem.heap.heappop } ∧
      ∀ job t, s.mem.job_cache (ofLex e).2 = some job → job.next_fire_at = some t →
        t ≠ (ofLex e).1) ∨
    ∃ e job row next, Fired env now id s e job row next fired s' := by
  obtain ⟨e, hpeek, hle, hturn⟩ := turn_next h
  rcases hturn with ⟨hzero, hs', hstale⟩ | ⟨job, t, row, db, hjob, ht, heps, hdispatch, rfl⟩
  · exact .inl ⟨e, hpeek, hle, hzero, hs', hstale⟩
  · obtain ⟨⟨expression, hexpr, hnext⟩, hid, _, hjobs, hnow, hmem, hconsumed, henqueues⟩ :=
      dispatch_eq hdispatch
    have hkey : job.id = (ofLex e).2 := hs.keyed _ _ hjob
    have hwhole : seconds 1 ∣ t := by
      obtain ⟨t', ht', hdvd⟩ := hs.instants _ _ hjob
      rw [ht] at ht'
      cases ht'
      exact hdvd
    have hinstant : t = (ofLex e).1 :=
      eq_of_epsilon hwhole (hs.heap e ((Heap.mem_iff_of_peek hpeek e).mpr (.inl rfl))) heps
    have hrow : row.id = (ofLex e).2 := hid.trans hkey
    refine .inr ⟨e, job, row, next_cron_time env expression now, ?_⟩
    refine ⟨hpeek, hle, hjob, hkey, hinstant ▸ ht, hnext, ⟨expression, hexpr, rfl⟩, hkey ▸ hjobs, ?_, ?_,
      hrow, hnow, ?_, henqueues⟩
    · simp only [CronScheduler.reschedule, hmem, hrow]
      rfl
    · simp only [CronScheduler.reschedule, hmem, hrow, hnext]
      rfl
    · show db.consumed = _
      rw [hconsumed]
      simp only [popped, hpeek, Option.toList_some]

/-- Once a job has fired, it is not due any more, and the others are as before. -/
theorem Fired.fires_iff {e : Entry} {job row : Job} {next : Int}
    (h : Fired env now id s e job row next fired s') (j : JobId) :
    s'.Fires now j ↔ s.Fires now j ∧ j ≠ (ofLex e).2 := by
  have hlater : now < next := by
    obtain ⟨expression, _, rfl⟩ := h.next_eq
    exact lt_next_cron_time env expression now
  unfold Fires
  rw [h.cache, h.heap]
  constructor
  · rintro ⟨c, t, hc, ht, hle, hmem⟩
    have hne : j ≠ (ofLex e).2 := by
      rintro rfl
      rw [Function.update_self, Option.some.injEq] at hc
      rw [← hc, h.row_next, Option.some.injEq] at ht
      omega
    rw [Function.update_of_ne hne] at hc
    refine ⟨⟨c, t, hc, ht, hle, ?_⟩, hne⟩
    rcases Heap.mem_heappush.mp hmem with heq | hmem
    · exact absurd (congrArg (fun x : Entry => (ofLex x).2) heq) hne
    · exact Heap.mem_of_mem_heappop hmem
  · rintro ⟨⟨c, t, hc, ht, hle, hmem⟩, hne⟩
    rw [Function.update_of_ne hne]
    refine ⟨c, t, hc, ht, hle, Heap.mem_heappush.mpr (.inr ?_)⟩
    refine ((Heap.mem_iff_of_peek h.peek _).mp hmem).resolve_left fun heq => hne ?_
    exact congrArg (fun x : Entry => (ofLex x).2) heq

/-- The job itself was due. -/
theorem Fired.fires {e : Entry} {job row : Job} {next : Int}
    (h : Fired env now id s e job row next fired s') : s.Fires now (ofLex e).2 :=
  ⟨job, (ofLex e).1, h.cached, h.instant, h.due, (Heap.mem_iff_of_peek h.peek _).mpr (.inl rfl)⟩

theorem sound_next (hs : s.Sound) (h : s.turn env now id = .next s' fired) : s'.Sound := by
  rcases turn_fired hs h with ⟨e, hpeek, _, _, rfl, _⟩ | ⟨e, job, row, next, hfired⟩
  · exact ⟨fun x hx => hs.heap x (Heap.mem_of_mem_heappop hx), hs.keyed, hs.instants⟩
  · have hwhole : seconds 1 ∣ next := by
      obtain ⟨expression, _, rfl⟩ := hfired.next_eq
      exact env.croniter.whole expression now
    refine ⟨fun x hx => ?_, fun j c hc => ?_, fun j c hc => ?_⟩
    · rw [hfired.heap] at hx
      rcases Heap.mem_heappush.mp hx with rfl | hx
      · exact hwhole
      · exact hs.heap x (Heap.mem_of_mem_heappop hx)
    all_goals
      rw [hfired.cache] at hc
      by_cases hj : j = (ofLex e).2
      · subst hj
        rw [Function.update_self] at hc
        cases hc
        first | exact hfired.row_id | exact ⟨next, hfired.row_next, hwhole⟩
      · rw [Function.update_of_ne hj] at hc
        first | exact hs.keyed j c hc | exact hs.instants j c hc

/-- What one dispatch adds to the tasks and the queue. -/
theorem Fired.adds {e : Entry} {job row : Job} {next : Int}
    (h : Fired env now id s e job row next fired s') : ∃ added : List Task,
      added.length = fired ∧
      added.map Task.job_id = [(ofLex e).2].filter (fun j => !s.forbids j) ∧
      (∀ task ∈ added, task = .fresh task.id task.job_id .scheduled 0 s.now) ∧
      s'.tasks.rows = s.tasks.rows ++ added ∧
      s'.scheduled_queue = s.scheduled_queue ++ added.map Task.id := by
  have hkey : job.id = (ofLex e).2 := h.key
  have henqueues := h.enqueues
  unfold Enqueues at henqueues
  rw [hkey] at henqueues
  split at henqueues
  · next hforbid =>
      obtain ⟨hzero, htasks, hqueue⟩ := henqueues
      have hforbids : s.forbids (ofLex e).2 = true := by
        unfold forbids
        rw [h.cached, Option.any_some]
        exact decide_eq_true hforbid
      refine ⟨[], hzero.symm, ?_, fun _ ht => absurd ht List.not_mem_nil, ?_, ?_⟩
      · simp [hforbids]
      · rw [htasks, List.append_nil]
      · rw [hqueue, List.map_nil, List.append_nil]
  · next hallow =>
      obtain ⟨hone, htasks, hqueue⟩ := henqueues
      have hforbids : s.forbids (ofLex e).2 = false := by
        unfold forbids
        rw [h.cached, Option.any_some]
        exact decide_eq_false hallow
      refine ⟨[.fresh id (ofLex e).2 .scheduled 0 s.now], hone.symm, ?_, ?_, htasks, hqueue⟩
      · simp [hforbids, Task.fresh]
      · intro task ht
        rw [List.mem_singleton.mp ht]
        rfl

/-- What it adds is pending, so no policy looks at it. -/
theorem Fired.forbids_eq {e : Entry} {job row : Job} {next : Int}
    (h : Fired env now id s e job row next fired s') {j : JobId} (hne : j ≠ (ofLex e).2) :
    s'.forbids j = s.forbids j := by
  obtain ⟨added, _, _, hpending, htasks, _⟩ := h.adds
  have hnone : added.filter (fun task => task.job_id = j ∧ task.status = .running) = [] := by
    refine List.filter_eq_nil_iff.mpr fun task ht => ?_
    rw [hpending task ht]
    simp [Task.fresh]
  have hcount : TaskRepository.count_running_for_job s'.tasks j
      = TaskRepository.count_running_for_job s.tasks j := by
    unfold TaskRepository.count_running_for_job TaskRepository.running_for_job
    rw [htasks, List.filter_append, hnone, List.append_nil]
  unfold forbids
  rw [h.cache, Function.update_of_ne hne, hcount]

/-- **A job fires, and then the rest of the pass runs.** -/
theorem Fired.passed {e : Entry} {job row : Job} {next : Int}
    (h : Fired env now id s e job row next fired mid)
    (hrest : mid.Passed env now pushed created s') : ∃ added : List Task, added.length = fired ∧
      s.Passed env now (toLex (next, (ofLex e).2) :: pushed) (added ++ created) s' := by
  obtain ⟨added, hlength, hadded, hpending, htasks, hqueue⟩ := h.adds
  obtain ⟨expression, hexpr, hnext⟩ := h.next_eq
  have hlater : now < next := hnext ▸ lt_next_cron_time env expression now
  have hfresh : (ofLex e).2 ∉ pushed.map fun x => (ofLex x).2 := fun hmem =>
    ((h.fires_iff _).mp ((hrest.fired _).mp hmem)).2 rfl
  have hpushed : ∀ x ∈ pushed, (ofLex x).2 ≠ (ofLex e).2 := by
    intro x hx heq
    exact hfresh (heq ▸ List.mem_map_of_mem hx)
  obtain ⟨hrow, hcache⟩ := hrest.others (ofLex e).2 fun hf => ((h.fires_iff _).mp hf).2 rfl
  rw [h.jobs, if_pos rfl] at hrow
  rw [h.cache, Function.update_self] at hcache
  refine ⟨added, hlength, hrest.clock.trans h.clock, fun j => ?_,
    List.nodup_cons.mpr ⟨hfresh, hrest.once⟩, fun x hx => ?_, fun j hj => ?_, ?_, ?_, ?_, ?_, ?_, ?_⟩
  · rw [List.map_cons, List.mem_cons, hrest.fired j, h.fires_iff j]
    by_cases hj : j = (ofLex e).2
    · subst hj
      exact iff_of_true (.inl rfl) h.fires
    · rw [and_iff_left hj]
      exact or_iff_right hj
  · rcases List.mem_cons.mp hx with rfl | hx
    · exact ⟨job, expression, row, h.cached, hexpr, hnext, hrow, hcache, h.row_next⟩
    · obtain ⟨c, expression, row', hc, hrest'⟩ := hrest.advanced x hx
      rw [h.cache, Function.update_of_ne (hpushed x hx)] at hc
      exact ⟨c, expression, row', hc, hrest'⟩
  · have hne : j ≠ (ofLex e).2 := fun heq => hj (heq ▸ h.fires)
    obtain ⟨hjobs, hmem⟩ := hrest.others j fun hf => hj ((h.fires_iff j).mp hf).1
    rw [h.jobs, if_neg (Ne.symm hne)] at hjobs
    rw [h.cache, Function.update_of_ne hne] at hmem
    exact ⟨hjobs, hmem⟩
  · have hmid : (mid.later now).Perm (toLex (next, (ofLex e).2) :: s.later now) := by
      rw [later_of_peek h.peek h.due]
      unfold later
      rw [h.heap]
      exact filter_later_heappush hlater
    exact (hrest.heap.trans (hmid.append_left pushed)).trans List.perm_middle
  · rw [hrest.consumed, h.consumed, due_of_peek h.peek h.due, List.append_assoc]
    unfold Dispatching.due
    rw [h.heap, filter_due_heappush hlater]
    rfl
  · have hsame : (pushed.map fun x => (ofLex x).2).filter (fun j => !mid.forbids j)
        = (pushed.map fun x => (ofLex x).2).filter fun j => !s.forbids j := by
      refine List.filter_congr fun j hj => ?_
      rw [h.forbids_eq fun heq => hfresh (heq ▸ hj)]
    rw [List.map_append, hadded, hrest.created_for, hsame, ← List.filter_append]
    rfl
  · intro task ht
    rcases List.mem_append.mp ht with ht | ht
    · exact hpending task ht
    · rw [← h.clock]
      exact hrest.pending task ht
  · rw [hrest.tasks, htasks, List.append_assoc]
  · rw [hrest.scheduled_queue, hqueue, List.map_append, List.append_assoc]

end Passes

/-! ## The pass -/

/-- **What the loop leaves behind**, when it returns. -/
theorem dispatch_loop_passed {env : Env} {uuid4 : Nat → TaskId} {now : Int} {turns : Nat}
    {s s' : Dispatching} {n n' : Nat} (hs : s.Sound)
    (h : dispatch_loop env uuid4 now turns s n = .returned s' n') :
    ∃ pushed created, s.Passed env now pushed created s' ∧ n' = n + created.length := by
  induction turns generalizing s n with
  | zero => cases h
  | succ turns ih =>
      unfold dispatch_loop at h
      split at h
      · next hdone =>
          cases h
          exact ⟨[], [], passed_done hdone, rfl⟩
      · cases h
      · next mid fired hturn =>
          obtain ⟨pushed, created, hpassed, hn⟩ := ih (sound_next hs hturn) h
          rcases turn_fired hs hturn with
            ⟨e, hpeek, hle, rfl, rfl, hstale⟩ | ⟨e, job, row, next, hfired⟩
          · exact ⟨pushed, created, passed_skipped hpeek hle hstale hpassed, hn⟩
          · obtain ⟨added, hlength, hall⟩ := hfired.passed hpassed
            refine ⟨_, _, hall, ?_⟩
            rw [hn, List.length_append, hlength, Nat.add_assoc]

/-! ## The pass is a run of the scheduler's steps -/

/-- The state, as the steps of `Dass.CronScheduler` have it; `fired` are the tasks the cron
schedulers have made. -/
def db (s : Dispatching) (fired : List Firing) : Db where
  now := s.now
  jobs := s.jobs
  fired := fired
  scheduled_queue := s.scheduled_queue

/-- A step of a scheduler process. -/
def ProcStep (env : Env) (s : Db × Scheduler) (a : Act) (s' : Db × Scheduler) : Prop :=
  ActStep env s.1 s.2 a s'.1 s'.2

/-- Every task a scheduler made is in the table. -/
def Kept (s : Dispatching) (fired : List Firing) : Prop :=
  ∀ f ∈ fired, s.tasks.get f.task.id ≠ none

section Runs

open Lts

variable {env : Env} {now : Int} {id : TaskId} {s s' : Dispatching} {n : Nat}
  {fired : List Firing}

/-- A dispatch is the five calls from its merge to its send. -/
theorem dispatch_run {job row : Job} {t : Int} (hkept : s.Kept fired)
    (h : s._dispatch env job now id = some (s', row, n)) : ∃ more,
      Run (ProcStep env) Any (s.db fired, ⟨s.mem, .opened now job t⟩)
        (s'.db (fired ++ more), ⟨s.mem, .sent now t row⟩) ∧ s'.Kept (fired ++ more) := by
  unfold _dispatch at h
  obtain ⟨expression, hexpr, h⟩ := Option.bind_eq_some_iff.mp h
  obtain ⟨jobs, hcommit, h⟩ := Option.bind_eq_some_iff.mp h
  obtain ⟨row', hrow, h⟩ := Option.bind_eq_some_iff.mp h
  have hmerge : Run (ProcStep env) Any (s.db fired, ⟨s.mem, .opened now job t⟩)
      (s.db fired, ⟨s.mem, .merged now job t (s.jobs.get job.id)⟩) :=
    .single (l := .merge) trivial (ActStep.merge rfl)
  have hupdate : Run (ProcStep env) Any (s.db fired, ⟨s.mem, .opened now job t⟩)
      ({ s.db fired with jobs := jobs }, ⟨s.mem, .updated now t job.id⟩) :=
    hmerge.snoc (l := .commit) trivial (ActStep.commit rfl hexpr hcommit)
  have hread : Run (ProcStep env) Any (s.db fired, ⟨s.mem, .opened now job t⟩)
      ({ s.db fired with jobs := jobs }, ⟨s.mem, .refreshed now t row'⟩) :=
    hupdate.snoc (l := .refresh) trivial (ActStep.refresh rfl hrow)
  split at h
  · next hforbid =>
      cases h
      refine ⟨[], ?_, ?_⟩
      · rw [List.append_nil]
        exact hread.snoc (l := .enqueue true id) trivial
          (ActStep.forbidden rfl hforbid.1 rfl)
      · rw [List.append_nil]
        exact hkept
  · next hallow =>
      obtain ⟨tasks, hcreate, h⟩ := Option.bind_eq_some_iff.mp h
      cases h
      obtain ⟨hnone, hget⟩ := TaskRepository.get_create hcreate
      have hid : row.id = job.id := Table.key_of_get hrow
      let made : Firing := ⟨.fresh id row.id .scheduled 0 s.now, t⟩
      have hcreated : Run (ProcStep env) Any (s.db fired, ⟨s.mem, .opened now job t⟩)
          ({ s.db fired with jobs := jobs, fired := fired ++ [made] },
            ⟨s.mem, .created now t row id⟩) := by
        let running : Bool := TaskRepository.count_running_for_job s.tasks row.id ≠ 0
        refine hread.snoc (l := .enqueue running id) trivial (ActStep.create rfl ?_ ?_ ?_)
        · simpa [running] using hallow
        · intro f hf heq
          exact hkept f hf (heq ▸ hnone)
        · show jobs.get row.id ≠ none
          rw [hid, hrow]
          exact Option.some_ne_none _
      refine ⟨[made], hcreated.snoc (l := .send) trivial
        (ActStep.send (p := ⟨s.mem, .created now t row id⟩) rfl), ?_⟩
      · intro f hf
        show tasks.get f.task.id ≠ none
        rw [hget]
        split
        · exact Option.some_ne_none _
        · next hne =>
            rcases List.mem_append.mp hf with hf | hf
            · exact hkept f hf
            · rw [List.mem_singleton.mp hf] at hne
              exact absurd rfl hne

/-- A turn is a pop, and the calls of a dispatch where it fires. -/
theorem turn_run (hkept : s.Kept fired) (h : s.turn env now id = .next s' n) : ∃ more,
    Run (ProcStep env) Any (s.db fired, ⟨s.mem, .looping now⟩)
      (s'.db (fired ++ more), ⟨s'.mem, .looping now⟩) ∧ s'.Kept (fired ++ more) := by
  unfold turn at h
  split at h
  · cases h
  · cases h
  · next mem hpop =>
      cases h
      refine ⟨[], ?_, ?_⟩
      · rw [List.append_nil]
        exact .single (l := .pop) trivial (ActStep.skipped rfl hpop)
      · rw [List.append_nil]
        exact hkept
  · next mem job t hpop =>
      split at h
      · cases h
      · next mid row fired' hdispatch =>
          cases h
          obtain ⟨more, hrun, hkept'⟩ :=
            dispatch_run (s := s.popped mem) (t := t) hkept hdispatch
          obtain ⟨_, _, _, _, _, hmem, _⟩ := dispatch_eq hdispatch
          refine ⟨more, ?_, hkept'⟩
          have hopen : Run (ProcStep env) Any (s.db fired, ⟨s.mem, .looping now⟩)
              ((s.popped mem).db fired, ⟨mem, .opened now job t⟩) :=
            .single (l := .pop) trivial (ActStep.due rfl hpop)
          rw [show mid.mem = mem from hmem]
          exact (hopen.trans hrun).snoc (l := .finish) trivial
            (ActStep.finish (p := ⟨mem, .sent now t row⟩) rfl)

/-- **A pass is a run of the steps**, from the loop's first turn to its end. -/
theorem dispatch_loop_run {uuid4 : Nat → TaskId} {turns dispatched : Nat} (hkept : s.Kept fired)
    (h : dispatch_loop env uuid4 now turns s dispatched = .returned s' n) : ∃ more,
      Run (ProcStep env) Any (s.db fired, ⟨s.mem, .looping now⟩)
        (s'.db (fired ++ more), ⟨s'.mem, .idle⟩) := by
  induction turns generalizing s dispatched fired with
  | zero => cases h
  | succ turns ih =>
      unfold dispatch_loop at h
      split at h
      · next hdone =>
          cases h
          refine ⟨[], ?_⟩
          rw [List.append_nil]
          refine .single (l := .pop) trivial (ActStep.done rfl ?_)
          unfold turn at hdone
          split at hdone
          · assumption
          · cases hdone
          · cases hdone
          · split at hdone <;> cases hdone
      · cases h
      · next mid fired' hturn =>
          obtain ⟨more, hrun, hkept'⟩ := turn_run hkept hturn
          obtain ⟨more', hrest⟩ := ih hkept' h
          refine ⟨more ++ more', ?_⟩
          rw [← List.append_assoc]
          exact hrun.trans hrest

end Runs

/-! ## The main result -/

/-- **A pass fires each due job once, and stops.**  It ends whatever its heap holds.  When
no call raises: it has popped the entries that were due, in their order, and none is left;
the jobs that were cached and due, with an entry for that firing in the heap, have each
fired once, however many entries they had, and stand in the heap, the cache and the table
at the instant after `now`; the others are as they were; and the number it returns is that
of the tasks it made, one for each job that fired but those whose policy forbade it. -/
theorem dispatch_due_jobs_once (env : Env) (uuid4 : Nat → TaskId) (now : Int) {s : Dispatching}
    (hs : s.Sound) :
    dispatch_due_jobs env uuid4 now s ≠ .unfinished ∧
    (dispatch_due_jobs env uuid4 now s ≠ .raised → ∃ s' n pushed created,
      dispatch_due_jobs env uuid4 now s = .returned s' n ∧
      s.Passed env now pushed created s' ∧ s'.due now = [] ∧
      (s.due now).Pairwise (fun a b => (ofLex a).1 ≤ (ofLex b).1) ∧
      n = created.length ∧
      n + ((pushed.map fun e => (ofLex e).2).filter s.forbids).length = pushed.length) := by
  have hends : dispatch_due_jobs env uuid4 now s ≠ .unfinished :=
    dispatch_loop_ends env uuid4 now (Nat.lt_succ_of_le (List.length_filter_le _ _))
  refine ⟨hends, fun hraised => ?_⟩
  cases hpass : dispatch_due_jobs env uuid4 now s with
  | raised => exact absurd hpass hraised
  | unfinished => exact absurd hpass hends
  | returned s' n =>
      obtain ⟨pushed, created, hpassed, hn⟩ := dispatch_loop_passed hs hpass
      rw [Nat.zero_add] at hn
      refine ⟨s', n, pushed, created, rfl, hpassed, ?_, ?_, hn, ?_⟩
      · refine List.filter_eq_nil_iff.mpr fun e he => ?_
        rw [decide_eq_true_iff]
        rcases List.mem_append.mp (hpassed.heap.mem_iff.mp he) with hnew | hlater
        · obtain ⟨_, expression, _, _, _, hnext, _⟩ := hpassed.advanced e hnew
          rw [hnext]
          exact not_le.mpr (lt_next_cron_time env expression now)
        · exact of_decide_eq_true (List.mem_filter.mp hlater).2
      · exact (s.mem.heap.sorted.filter _).imp fun hle => Prod.Lex.monotone_fst _ _ hle
      · have hlength : created.length
            = ((pushed.map fun e => (ofLex e).2).filter fun j => !s.forbids j).length := by
          rw [← hpassed.created_for, List.length_map]
        have hsplit := List.length_eq_length_filter_add (l := pushed.map fun e => (ofLex e).2)
          s.forbids
        rw [List.length_map] at hsplit
        omega

/-- A process that has synced one job, and finds a second entry for its firing. -/
def example_dispatching : Dispatching where
  now := seconds 60
  jobs := example_jobs
  tasks := .empty
  scheduled_queue := []
  mem :=
    let mem := CronScheduler.init.sync_jobs 0 (list_updated_since example_jobs none)
    { mem with heap := mem.heap.heappush (toLex (seconds 60, 1)) }
  consumed := []

/-- Both entries are popped, and the job runs once. -/
theorem dispatch_due_jobs_once_example : ∃ s',
    dispatch_due_jobs example_env (fun n => n + 7) (seconds 60) example_dispatching
      = .returned s' 1 ∧
    s'.consumed = [toLex (seconds 60, 1), toLex (seconds 60, 1)] ∧
    s'.scheduled_queue = [7] ∧ s'.due (seconds 60) = [] := by
  have hcached : ∀ j c, example_dispatching.mem.job_cache j = some c →
      c.id = j ∧ c.next_fire_at = some (seconds 60) := by
    intro j c hc
    by_cases hj : j = 1
    · subst hj
      cases hc
      exact ⟨rfl, rfl⟩
    · have hnone : example_dispatching.mem.job_cache j = none := Function.update_of_ne hj _ _
      rw [hnone] at hc
      cases hc
  have hsound : example_dispatching.Sound := by
    refine ⟨fun e he => ?_, fun j c hc => (hcached j c hc).1, fun j c hc => ?_⟩
    · have hall : ∀ e ∈ [(toLex (seconds 60, 1) : Entry), toLex (seconds 60, 1)],
          seconds 1 ∣ (ofLex e).1 := by decide
      exact hall e he
    · exact ⟨seconds 60, (hcached j c hc).2, by decide⟩
  have hret : ∃ s', dispatch_due_jobs example_env (fun n => n + 7) (seconds 60)
      example_dispatching = .returned s' 1 ∧
      s'.consumed = [toLex (seconds 60, 1), toLex (seconds 60, 1)] ∧ s'.scheduled_queue = [7] :=
    ⟨_, rfl, rfl, rfl⟩
  obtain ⟨s', hret, hconsumed, hqueue⟩ := hret
  obtain ⟨_, hpass⟩ :=
    dispatch_due_jobs_once example_env (fun n => n + 7) (seconds 60) hsound
  obtain ⟨s'', n, pushed, created, hret', _, hdue, _⟩ := hpass (by rw [hret]; nofun)
  rw [hret] at hret'
  cases hret'
  exact ⟨s', hret, hconsumed, hqueue, hdue⟩

end Dispatching

end Dass
