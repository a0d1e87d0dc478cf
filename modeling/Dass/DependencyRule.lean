/-
# `Dass.DependencyRule` — what a pass does, by its readiness rule

`Triggered` is the rule in the words of its specification: the job is enabled, directly
downstream of a success the pass marks, the latest task of each of its upstreams is a
success, and its own latest one is older than the newest of them.  A pass marks the
hundred oldest successes nobody has evaluated, makes one task for each job the rule
names, and changes nothing else (`dependency_pass_rule`).

The loops of the source go through a query's answer, a dict and a set, so a `PassOrder`
fixes some order of each.  The readiness of a job is decided from the tasks before the
pass, so none of them matters, not even where one candidate is an upstream of another.
-/
import Dass.DependencyScheduler
import Dass.JobService
import Mathlib.Logic.Function.Basic

namespace Dass

namespace Chain

/-! ## The rule -/

/-- A success nobody has evaluated, with fewer than a hundred older ones. -/
def Oldest (db : Chain) (task : Task) : Prop :=
  task.status = .success ∧ task.processed_for_chaining = false ∧
    ((db.tasks.rows.filter fun row => row.status = .success ∧ row.processed_for_chaining = false)
      |>.filter fun row => row.created_at < task.created_at).length < 100

instance (db : Chain) (task : Task) : Decidable (db.Oldest task) :=
  inferInstanceAs (Decidable (_ ∧ _ ∧ _))

/-- **The readiness rule.** -/
structure Triggered (db : Chain) (job : Job) : Prop where
  row : job ∈ db.jobs.rows
  enabled : job.enabled = true
  downstream : ∃ up ∈ db.upstream_jobs job.id, ∃ task ∈ db.tasks.rows,
    db.Oldest task ∧ task.job_id = up.id
  upstreams : db.upstream_jobs job.id ≠ []
  succeeded : db.UpstreamsSucceeded (TaskRepository.latest_task db.tasks) job.id
  own : ∀ own ∈ TaskRepository.latest_task db.tasks job.id,
    db.BeforeCompletion (TaskRepository.latest_task db.tasks) job.id (_completed_at own)

/-- What the rule leaves of the database, by primary key. -/
structure Ruled (db : Chain) (ids : JobId → TaskId) (db' : Chain) (n : Nat) : Prop where
  now : db'.now = db.now
  jobs : db'.jobs = db.jobs
  job_dependencies : db'.job_dependencies = db.job_dependencies
  marked : ∀ id row, db.tasks.get id = some row → db'.tasks.get id =
    some (if db.Oldest row then row.mark_processed_for_chaining else row)
  created : ∀ id row, db.tasks.get id = none → (db'.tasks.get id = some row ↔
    ∃ job, db.Triggered job ∧ id = ids job.id ∧ row = .fresh id job.id .dependency 0 db.now)
  sent : ∃ sent : List TaskId, db'.normal_queue = db.normal_queue ++ sent ∧ sent.Nodup ∧
    sent.length = n ∧ ∀ id, id ∈ sent ↔ ∃ job, db.Triggered job ∧ id = ids job.id

/-! ## Orders -/

/-- The jobs of the tasks that were observed. -/
def source_jobs (db : Chain) (tasks : List Task) : List Job :=
  db.jobs.rows.filter fun job => job.id ∈ tasks.map Task.job_id

/-- The dict of candidates, filled from the source jobs one after the other. -/
def candidates_of (db : Chain) (source_jobs : List Job) : List Job :=
  (source_jobs.flatMap fun job => (db.downstream_jobs job.id).filter (·.enabled))
    |>.reverse.dedup.reverse

/-- An order for a pass to go through the tasks, the source jobs and the candidates in. -/
structure PassOrder (db : Chain) where
  tasks : List Task
  source_jobs : List Job
  candidates : List Job
  tasks_perm : tasks.Perm db.observed
  source_jobs_perm : source_jobs.Perm (db.source_jobs db.observed)
  candidates_perm : candidates.Perm (db.candidates_of source_jobs)

variable {db : Chain}

/-- The order of `trigger_dependent_jobs`. -/
def PassOrder.own (db : Chain) : db.PassOrder where
  tasks := db.observed
  source_jobs := db.source_jobs db.observed
  candidates := db.candidates db.observed
  tasks_perm := .rfl
  source_jobs_perm := .rfl
  candidates_perm := .rfl

theorem mem_candidates_of {source_jobs : List Job} {job : Job} :
    job ∈ db.candidates_of source_jobs ↔
      ∃ up ∈ source_jobs, job ∈ (db.downstream_jobs up.id).filter (·.enabled) := by
  unfold candidates_of
  rw [List.mem_reverse, List.mem_dedup, List.mem_reverse, List.mem_flatMap]

/-- The candidates do not depend on the order of the source jobs. -/
theorem PassOrder.candidates_perm_own (o : db.PassOrder) :
    o.candidates.Perm (db.candidates db.observed) := by
  refine o.candidates_perm.trans ?_
  have hnodup : (db.candidates_of o.source_jobs).Nodup :=
    List.nodup_reverse.mpr (List.nodup_dedup _)
  refine (List.perm_ext_iff_of_nodup hnodup (candidates_nodup db.observed)).mpr fun job => ?_
  show job ∈ _ ↔ job ∈ db.candidates_of (db.source_jobs db.observed)
  rw [mem_candidates_of, mem_candidates_of]
  exact exists_congr fun up => and_congr_left fun _ => o.source_jobs_perm.mem_iff

/-! ## A pass returns -/

section Returns

variable {ids : JobId → TaskId}

/-- The marks of rows that are there do not raise. -/
theorem mark_processed_returns {observed : List Task} {tasks : Table Task}
    (h : ∀ task ∈ observed, tasks.get task.id ≠ none) :
    ∃ tasks', mark_processed tasks observed = some tasks' := by
  induction observed generalizing tasks with
  | nil => exact ⟨tasks, rfl⟩
  | cons task rest ih =>
      obtain ⟨stored, hstored⟩ := Option.ne_none_iff_exists'.mp (h task List.mem_cons_self)
      have hflush : ∃ mid,
          TaskRepository.flush tasks task task.mark_processed_for_chaining = some mid :=
        ⟨_, by rw [TaskRepository.flush, hstored]; rfl⟩
      obtain ⟨mid, hmid⟩ := hflush
      obtain ⟨_, _, hget⟩ := TaskRepository.get_flush hmid
      have hrest : ∀ x ∈ rest, mid.get x.id ≠ none := by
        intro x hx
        rw [hget]
        split
        · exact Option.some_ne_none _
        · exact h x (List.mem_cons_of_mem _ hx)
      obtain ⟨tasks', htasks'⟩ := ih hrest
      refine ⟨tasks', ?_⟩
      show (TaskRepository.flush tasks task task.mark_processed_for_chaining).bind
        (fun tasks => mark_processed tasks rest) = some tasks'
      rw [hmid]
      exact htasks'

/-- The inserts under ids that are free do not raise. -/
theorem dispatch_ready_returns {latest : JobId → Option Task} {candidates : List Job}
    {db : Chain} {n : Nat} (hnodup : (candidates.map fun job => ids job.id).Nodup)
    (hfree : ∀ job ∈ candidates, db.tasks.get (ids job.id) = none) :
    ∃ db' n', db.dispatch_ready latest ids candidates n = some (db', n') := by
  induction candidates generalizing db n with
  | nil => exact ⟨db, n, rfl⟩
  | cons job rest ih =>
      obtain ⟨hnot, hnodup'⟩ := List.nodup_cons.mp hnodup
      have hstep : ∃ mid fired, db._dispatch_if_ready latest job (ids job.id) = some (mid, fired) ∧
          ∀ x ∈ rest, mid.tasks.get (ids x.id) = none := by
        have hrest : ∀ x ∈ rest, db.tasks.get (ids x.id) = none := fun x hx =>
          hfree x (List.mem_cons_of_mem _ hx)
        unfold _dispatch_if_ready
        split
        · have hcreate : ∃ tasks, TaskRepository.create db.tasks
              (.fresh (ids job.id) job.id .dependency 0 db.now) = some tasks :=
            ⟨_, if_pos (hfree job List.mem_cons_self)⟩
          obtain ⟨tasks, hcreate⟩ := hcreate
          obtain ⟨_, hget⟩ := TaskRepository.get_create hcreate
          refine ⟨_, _, by rw [hcreate]; rfl, fun x hx => ?_⟩
          show tasks.get (ids x.id) = none
          rw [hget, if_neg]
          · exact hrest x hx
          · intro heq
            exact hnot (List.mem_map.mpr ⟨x, hx, heq.symm⟩)
        · exact ⟨db, false, rfl, hrest⟩
      obtain ⟨mid, fired, hmid, hfree'⟩ := hstep
      obtain ⟨db', n', hrest⟩ := ih (n := n + if fired then 1 else 0) hnodup' hfree'
      refine ⟨db', n', ?_⟩
      show ((db._dispatch_if_ready latest job (ids job.id)).map fun d =>
          (d.1, n + if d.2 then 1 else 0)).bind
            (fun r => dispatch_ready r.1 latest ids rest r.2) = some (db', n')
      rw [hmid]
      exact hrest

/-- A pass over rows that are there, under ids that are free, returns. -/
theorem pass_in_order_returns {observed : List Task} {candidates : List Job}
    (hrows : ∀ task ∈ observed, task ∈ db.tasks.rows ∧ task.processed_for_chaining = false)
    (hnodup : (candidates.map fun job => ids job.id).Nodup)
    (hfree : ∀ job ∈ candidates, db.tasks.get (ids job.id) = none) :
    ∃ db' n, db.pass_in_order ids observed candidates = some (db', n) := by
  unfold pass_in_order
  split
  · exact ⟨db, 0, rfl⟩
  · have hthere : ∀ task ∈ observed, db.tasks.get task.id ≠ none := by
      intro task htask hnone
      exact Table.get_eq_none.mp hnone task (hrows task htask).1 rfl
    obtain ⟨marked, hmark⟩ := mark_processed_returns hthere
    have hmarked := mark_processed_rows (fun task htask => (hrows task htask).2) hmark
    have hfree' : ∀ job ∈ candidates, marked.get (ids job.id) = none := by
      intro job hjob
      refine Table.get_eq_none.mpr fun row hrow => ?_
      rw [hmarked] at hrow
      obtain ⟨x, hx, rfl⟩ := List.mem_map.mp hrow
      rw [key_task, Task.chained_id]
      exact Table.get_eq_none.mp (hfree job hjob) x hx
    rw [hmark]
    show ∃ db' n, (if candidates = [] then _ else _) = some (db', n)
    split
    · exact ⟨_, _, rfl⟩
    · exact dispatch_ready_returns hnodup hfree'

end Returns

/-! ## What a pass does is what the rule says -/

/-- What a pass observes, where no two tasks were created at one instant. -/
theorem mem_observed (hdistinct : (db.tasks.rows.map Task.created_at).Nodup) {task : Task} :
    task ∈ db.observed ↔ task ∈ db.tasks.rows ∧ db.Oldest task := by
  have hnodup : ((db.tasks.rows.filter fun task =>
      task.status = .success ∧ task.processed_for_chaining = false).map Task.created_at).Nodup :=
    hdistinct.sublist (List.filter_sublist.map _)
  unfold observed TaskRepository.get_unprocessed_successful_tasks
  rw [List.mem_take_insertionSort hnodup, List.mem_filter, decide_eq_true_iff]
  unfold Oldest
  simp only [and_assoc]

/-- The jobs a pass dispatches are those the rule names. -/
theorem mem_ready_iff (hdistinct : (db.tasks.rows.map Task.created_at).Nodup) {job : Job} :
    (job ∈ db.candidates db.observed ∧
      db.ready (TaskRepository.latest_task db.tasks) job.id = true) ↔ db.Triggered job := by
  rw [mem_candidates, ready_iff]
  constructor
  · rintro ⟨⟨hrow, henabled, up, hup, task, htask, hjob⟩, hne, hsucceeded, hown⟩
    obtain ⟨hmem, holdest⟩ := (mem_observed hdistinct).mp htask
    exact ⟨hrow, henabled, ⟨up, hup, task, hmem, holdest, hjob⟩, hne, hsucceeded, hown⟩
  · intro h
    obtain ⟨up, hup, task, hmem, holdest, hjob⟩ := h.downstream
    have htask : task ∈ db.observed := (mem_observed hdistinct).mpr ⟨hmem, holdest⟩
    exact ⟨⟨h.row, h.enabled, up, hup, task, htask, hjob⟩, h.upstreams, h.succeeded, h.own⟩

section Rule

variable {ids : JobId → TaskId} {observed : List Task} {fired : List Job} {db' : Chain}

/-- A row that was there is there, marked if it was observed. -/
theorem PassedBy.get_old (h : db.PassedBy ids observed fired db') {id : TaskId} {row : Task}
    (hrow : db.tasks.get id = some row) :
    db'.tasks.get id = some (row.chained (observed.map Task.id)) := by
  have hkey : row.id = id := Table.key_of_get hrow
  have hmem : row.chained (observed.map Task.id) ∈ db'.tasks.rows := by
    rw [h.tasks]
    exact List.mem_append_left _ (List.mem_map_of_mem (Table.mem_of_get hrow))
  have hget := Table.get_of_mem hmem
  rwa [key_task, Task.chained_id, hkey] at hget

/-- A row that was not is one of the new ones. -/
theorem PassedBy.get_new (h : db.PassedBy ids observed fired db') {id : TaskId} {row : Task}
    (hnone : db.tasks.get id = none) : db'.tasks.get id = some row ↔
      ∃ job ∈ fired, id = ids job.id ∧ row = .fresh id job.id .dependency 0 db.now := by
  rw [Table.get_eq_some, h.tasks, List.mem_append]
  constructor
  · rintro ⟨hold | hnew, hkey⟩
    · obtain ⟨x, hx, rfl⟩ := List.mem_map.mp hold
      rw [key_task, Task.chained_id] at hkey
      exact absurd hkey (Table.get_eq_none.mp hnone x hx)
    · obtain ⟨job, hjob, rfl⟩ := List.mem_map.mp hnew
      have hid : ids job.id = id := hkey
      exact ⟨job, hjob, hid.symm, by rw [hid]⟩
  · rintro ⟨job, hjob, rfl, rfl⟩
    exact ⟨.inr (List.mem_map_of_mem hjob), rfl⟩

/-- **A pass leaves what the rule says**, if it has marked the oldest successes and dispatched
the jobs the rule names. -/
theorem ruled_of_passedBy (hinj : Function.Injective ids)
    (h : db.PassedBy ids observed fired db')
    (hobserved : ∀ task, task ∈ observed ↔ task ∈ db.tasks.rows ∧ db.Oldest task)
    (hnodup : fired.Nodup) (hfired : ∀ job, job ∈ fired ↔ db.Triggered job) :
    db.Ruled ids db' fired.length where
  now := h.now
  jobs := h.jobs
  job_dependencies := h.job_dependencies
  marked id row hrow := by
    rw [h.get_old hrow]
    have hmem : row ∈ db.tasks.rows := Table.mem_of_get hrow
    have hmarked : row.id ∈ observed.map Task.id ↔ db.Oldest row := by
      rw [List.mem_map]
      constructor
      · rintro ⟨task, htask, hid⟩
        obtain ⟨htmem, holdest⟩ := (hobserved task).mp htask
        rwa [← Table.eq_of_key htmem hmem hid]
      · intro holdest
        exact ⟨row, (hobserved row).mpr ⟨hmem, holdest⟩, rfl⟩
    unfold Task.chained
    by_cases holdest : db.Oldest row
    · rw [if_pos (hmarked.mpr holdest), if_pos holdest]
    · rw [if_neg (mt hmarked.mp holdest), if_neg holdest]
  created id row hnone := by
    rw [h.get_new hnone]
    exact exists_congr fun job => and_congr_left fun _ => hfired job
  sent := by
    have hkeys : (fired.map Job.id).Nodup := by
      refine hnodup.map_on fun a ha b hb hid => ?_
      exact Table.eq_of_key ((hfired a).mp ha).row ((hfired b).mp hb).row hid
    refine ⟨fired.map fun job => ids job.id, h.normal_queue, ?_, List.length_map _, fun id => ?_⟩
    · have hids := hkeys.map hinj
      rwa [List.map_map] at hids
    · rw [List.mem_map]
      constructor
      · rintro ⟨job, hjob, rfl⟩
        exact ⟨job, (hfired job).mp hjob, rfl⟩
      · rintro ⟨job, hjob, rfl⟩
        exact ⟨job, (hfired job).mpr hjob, rfl⟩

/-- The rule names one result. -/
theorem Ruled.unique {db₁ db₂ : Chain} {n₁ n₂ : Nat} (h₁ : db.Ruled ids db₁ n₁)
    (h₂ : db.Ruled ids db₂ n₂) : (∀ id, db₁.tasks.get id = db₂.tasks.get id) ∧
      db₁.normal_queue.Perm db₂.normal_queue ∧ n₁ = n₂ := by
  refine ⟨fun id => ?_, ?_⟩
  · cases hid : db.tasks.get id with
    | some row => rw [h₁.marked id row hid, h₂.marked id row hid]
    | none =>
        refine Option.ext fun row => ?_
        exact (h₁.created id row hid).trans (h₂.created id row hid).symm
  · obtain ⟨sent₁, hq₁, hnodup₁, hn₁, hmem₁⟩ := h₁.sent
    obtain ⟨sent₂, hq₂, hnodup₂, hn₂, hmem₂⟩ := h₂.sent
    have hperm : sent₁.Perm sent₂ := (List.perm_ext_iff_of_nodup hnodup₁ hnodup₂).mpr fun id =>
      (hmem₁ id).trans (hmem₂ id).symm
    rw [hq₁, hq₂, ← hn₁, ← hn₂]
    exact ⟨hperm.append_left _, hperm.length_eq⟩

end Rule

/-- In any order, a pass returns and leaves what the rule says. -/
theorem pass_in_order_ruled {ids : JobId → TaskId}
    (hdistinct : (db.tasks.rows.map Task.created_at).Nodup) (hinj : Function.Injective ids)
    (hfree : ∀ j, db.tasks.get (ids j) = none) (o : db.PassOrder) :
    ∃ db' n, db.pass_in_order ids o.tasks o.candidates = some (db', n) ∧ db.Ruled ids db' n := by
  have hobserved : ∀ task, task ∈ o.tasks ↔ task ∈ db.tasks.rows ∧ db.Oldest task := fun task =>
    o.tasks_perm.mem_iff.trans (mem_observed hdistinct)
  have hcandidates := o.candidates_perm_own
  have hnodup : o.candidates.Nodup := hcandidates.nodup_iff.mpr (candidates_nodup _)
  have hids : (o.candidates.map fun job => ids job.id).Nodup := by
    refine hnodup.map_on fun a ha b hb hid => ?_
    have ha := (mem_candidates.mp (hcandidates.mem_iff.mp ha)).1
    have hb := (mem_candidates.mp (hcandidates.mem_iff.mp hb)).1
    exact Table.eq_of_key ha hb (hinj hid)
  have hnone : o.tasks = [] → o.candidates = [] := by
    intro hnil
    refine List.eq_nil_iff_forall_not_mem.mpr fun job hjob => ?_
    obtain ⟨_, _, _, _, task, htask, _⟩ := mem_candidates.mp (hcandidates.mem_iff.mp hjob)
    rw [← o.tasks_perm.mem_iff, hnil] at htask
    cases htask
  have hrows : ∀ task ∈ o.tasks, task ∈ db.tasks.rows ∧ task.processed_for_chaining = false :=
    fun task htask => ⟨((hobserved task).mp htask).1, ((hobserved task).mp htask).2.2.1⟩
  obtain ⟨db', n, hpass⟩ := pass_in_order_returns hrows hids fun job _ => hfree job.id
  obtain ⟨hpassed, rfl⟩ := pass_in_order_eq (fun task htask => (hrows task htask).2) hnone hpass
  refine ⟨db', _, hpass, ruled_of_passedBy hinj hpassed hobserved (hnodup.filter _) fun job => ?_⟩
  rw [List.mem_filter, hcandidates.mem_iff]
  exact mem_ready_iff hdistinct

/-- **A dependency pass does what its readiness rule says**, and nothing else: from any
database whose tasks were created at different instants, in any order of its loops, a pass
whose ids are fresh returns, it leaves what the rule says, and that is what the function
leaves in its own order: the same rows, and the same messages up to their order. -/
theorem dependency_pass_rule (db : Chain) (ids : JobId → TaskId)
    (hdistinct : (db.tasks.rows.map Task.created_at).Nodup) (hinj : Function.Injective ids)
    (hfree : ∀ j, db.tasks.get (ids j) = none) (o : db.PassOrder) :
    ∃ db' own n, db.pass_in_order ids o.tasks o.candidates = some (db', n) ∧
      db.Ruled ids db' n ∧ db.trigger_dependent_jobs ids = some (own, n) ∧
      (∀ id, db'.tasks.get id = own.tasks.get id) ∧
      db'.normal_queue.Perm own.normal_queue := by
  obtain ⟨db', n, hpass, hruled⟩ := pass_in_order_ruled hdistinct hinj hfree o
  obtain ⟨own, n', hown, hruled'⟩ := pass_in_order_ruled hdistinct hinj hfree (.own db)
  obtain ⟨hget, hqueue, rfl⟩ := hruled.unique hruled'
  exact ⟨db', own, n, hpass, hruled, hown, hget, hqueue⟩

/-- Jobs 2 and 3 are both downstream of 1, and 2 is an upstream of 3.  Task 1 is the success
nobody has evaluated. -/
def example_candidates : Chain where
  now := seconds 10
  jobs := example_trio
  job_dependencies := [(1, 2), (1, 3), (2, 3)]
  tasks :=
    { rows :=
        [{ Task.fresh 1 1 .manual 0 (seconds 1) with
            status := .success, finished_at := some (seconds 5) },
          { Task.fresh 2 2 .manual 0 (seconds 2) with
            status := .success, finished_at := some (seconds 4), processed_for_chaining := true }]
      nodup := by decide }
  normal_queue := []

/-- Job 3 first: the run that 2 is about to get does not hold it back. -/
theorem dependency_pass_rule_example : ∃ (o : example_candidates.PassOrder) (db' own : Chain),
    example_candidates.pass_in_order (fun j => j + 10) o.tasks o.candidates = some (db', 2) ∧
    db'.normal_queue = [13, 12] ∧ own.normal_queue = [12, 13] ∧
    example_candidates.trigger_dependent_jobs (fun j => j + 10) = some (own, 2) ∧
    ∀ id, db'.tasks.get id = own.tasks.get id := by
  let o : example_candidates.PassOrder :=
    { PassOrder.own example_candidates with
      candidates := (example_candidates.candidates example_candidates.observed).reverse
      candidates_perm := List.reverse_perm _ }
  have hpass : ∃ db', example_candidates.pass_in_order (fun j => j + 10) o.tasks o.candidates
      = some (db', 2) ∧ db'.normal_queue = [13, 12] := ⟨_, rfl, rfl⟩
  have hown : ∃ own, example_candidates.trigger_dependent_jobs (fun j => j + 10)
      = some (own, 2) ∧ own.normal_queue = [12, 13] := ⟨_, rfl, rfl⟩
  obtain ⟨db', hpass, hqueue⟩ := hpass
  obtain ⟨own, hown, hqueue'⟩ := hown
  have hfree : ∀ j : JobId, example_candidates.tasks.get (j + 10) = none := by
    intro j
    refine Table.get_eq_none.mpr fun row hrow => ?_
    have hsmall : ∀ row ∈ example_candidates.tasks.rows, row.id < 10 := by decide
    exact fun heq => absurd (heq ▸ hsmall row hrow) (Nat.not_lt.mpr (Nat.le_add_left 10 j))
  obtain ⟨db'', own', n, h, _, h', hget, _⟩ := dependency_pass_rule example_candidates
    (fun j => j + 10) (by decide) (fun _ _ => Nat.add_right_cancel) hfree o
  rw [hpass] at h
  rw [hown] at h'
  cases h
  cases h'
  exact ⟨o, db', own, hpass, hqueue, hqueue', hown, hget⟩

end Chain

end Dass
