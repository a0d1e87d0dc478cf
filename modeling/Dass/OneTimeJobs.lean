/-
# `Dass.OneTimeJobs` — who starts a one-time job

The scheduler does not look at a job without a cron expression, and the dependency pass
starts only what has upstreams.  An enabled job with neither is started by the request that
makes it one, and two kinds of request do (`_dispatch_if_one_time`):

    create_job    a job without a cron expression, enabled, with no upstreams
    update_job    the same, where the job was disabled before

A job that was enabled all along can become one as well, and no run of it is enqueued:

    update_job    its cron expression is cleared
    update_job    its last upstream is taken away, on its own side or on the upstream's
    delete_job    its last upstream is deleted

There it waits for `trigger_job`, unless it has run before (`one_time_job_waits`).
-/
import Dass.JobRequests
import Dass.StaleUpdates

namespace Dass

open Lts

/-! ## Requests, one at a time -/

inductive JobRequest where
  | create_job (id : JobId) (task_id : TaskId) (payload : JobCreate)
      (upstream_job_ids downstream_job_ids : List JobId)
  | update_job (id : JobId) (task_id : TaskId) (data : JobUpdate)
      (upstream_job_ids downstream_job_ids : Option (List JobId))
  | delete_job (id : JobId)
  | trigger_job (id : JobId) (task_id : TaskId)

/-- The uuid4 of the task the request may insert. -/
def JobRequest.task_id? : JobRequest → Option TaskId
  | .create_job _ task_id _ _ _ | .update_job _ task_id _ _ _ | .trigger_job _ task_id =>
      some task_id
  | .delete_job _ => none

/-- The request is executed on the primary. -/
def JobRequest.run (env : Env) (column : JSONBCompat) (db : Chain) : JobRequest → Response
  | .create_job id task_id payload up down =>
      Dass.create_job env column .single db id task_id payload up down
  | .update_job id task_id data up down =>
      Dass.update_job env column .single db id task_id data up down
  | .delete_job id => Dass.delete_job .single db id
  | .trigger_job id task_id => Dass.trigger_job .single db id task_id

namespace Chain

/-- The database at another time. -/
def tick (db : Chain) (now : Int) : Chain := { db with now := now }

/-- A request is made at some time, with ids that are new. -/
def Requested (env : Env) (column : JSONBCompat) (db : Chain) (l : Int × JobRequest)
    (db' : Chain) : Prop :=
  (∀ task_id, l.2.task_id? = some task_id → db.tasks.get task_id = none) ∧
  (l.2.run env column (db.tick l.1)).db = db'

/-- A database without jobs. -/
def start (now : Int) : Chain := ⟨now, .empty, [], .empty, []⟩

def HasTask (db : Chain) (id : JobId) : Prop := ∃ task ∈ db.tasks.rows, task.job_id = id

/-- Every enabled one-time job without upstreams has a run. -/
def Started (db : Chain) : Prop :=
  ∀ job ∈ db.jobs.rows, db.DispatchesOneTime job → db.HasTask job.id

/-- The job is the one upstream that the other has. -/
def OnlyUpstream (db : Chain) (id other : JobId) : Prop :=
  (id, other) ∈ db.job_dependencies ∧ ∀ e ∈ db.job_dependencies, e.2 = other → e.1 = id

/-- The job is an enabled one-time job, and the request on `id` takes its last upstream. -/
def Released (db : Chain) (id : JobId) (job : Job) : Prop :=
  job ∈ db.jobs.rows ∧ job.job_type = .normal ∧ job.enabled = true ∧ db.OnlyUpstream id job.id

end Chain

/-- A request that makes an enabled job one-time, or takes the last upstream of one, finds a
task of that job. -/
def JobRequest.FindsTasks (db : Chain) : JobRequest → Prop
  | .update_job id _ data up down =>
      (∀ job, db.jobs.get id = some job → job.enabled = true → data.enabled ≠ .value false →
        data.job_type job.job_type = .normal → db.members_after .upstream_jobs id up down = [] →
        db.HasTask id) ∧
      ∀ job_ids, down = some job_ids → ∀ job, db.Released id job → job.id ∉ job_ids →
        db.HasTask job.id
  | .delete_job id => ∀ job, db.Released id job → db.HasTask job.id
  | .create_job .. | .trigger_job .. => True

/-- The condition, where the request succeeds. -/
def Chain.Careful (env : Env) (column : JSONBCompat) (db : Chain) (l : Int × JobRequest) : Prop :=
  (l.2.run env column (db.tick l.1)).result = .ok () → l.2.FindsTasks db

/-! ## One request -/

namespace Chain

variable {env : Env} {column : JSONBCompat} {db db' db₁ : Chain} {id : JobId} {task_id : TaskId}

theorem HasTask.add (h : db.HasTask id) {task : Task} (hnew : db.tasks.get task.id = none)
    {db' : Chain} (hdb' : db'.tasks = db.tasks.add task) : db'.HasTask id := by
  obtain ⟨row, hrow, hid⟩ := h
  refine ⟨row, ?_, hid⟩
  rw [hdb', Table.rows_add hnew]
  exact List.mem_append_left _ hrow

theorem dispatch_ok (hnew : db.tasks.get task_id = none) {job : Job}
    (hjob : db.jobs.get job.id = some job) :
    (db._dispatch_if_one_time job task_id).result = .ok () := by
  rw [_dispatch_if_one_time_eq]
  split
  · rw [_enqueue_task_new (by rw [hjob]; exact Option.some_ne_none _) hnew]
  · rfl

/-- A dispatch leaves its job with a run, and the others as they are. -/
theorem dispatch_starts (hnew : db.tasks.get task_id = none) {job : Job}
    (hjob : db.jobs.get job.id = some job) (hstarted : ∀ other ∈ db.jobs.rows, other.id ≠ job.id →
      db.DispatchesOneTime other → db.HasTask other.id) :
    (db._dispatch_if_one_time job task_id).db.Started := by
  rw [_dispatch_if_one_time_eq]
  split
  · next hd =>
      rw [_enqueue_task_new (by rw [hjob]; exact Option.some_ne_none _) hnew]
      intro other hother hidle
      by_cases hid : other.id = job.id
      · refine ⟨.fresh task_id job.id .manual 0 db.now, ?_, hid.symm⟩
        show _ ∈ (db.tasks.add _).rows
        rw [Table.rows_add (by exact hnew)]
        exact List.mem_append_right _ List.mem_cons_self
      · exact (hstarted other hother hid hidle).add hnew rfl
  · next hd =>
      intro other hother hidle
      by_cases hid : other.id = job.id
      · have heq : other = job := Table.eq_of_get hjob hother hid
        exact absurd (heq ▸ hidle) hd
      · exact hstarted other hother hid hidle

structure OneTimeInv (db : Chain) : Prop where
  foreign_key : db.ForeignKeys
  started : db.Started

/-- A job that waits for nobody afterwards, and has lost no upstream, waited for nobody. -/
theorem idle_before (hi : OneTimeInv db) (hdb' : db'.ForeignKeys) {job : Job}
    (hjob : job ∈ db.jobs.rows) (hidle : db'.DispatchesOneTime job)
    (hkept : ∀ other, (other, job.id) ∈ db.job_dependencies →
      (other, job.id) ∈ db'.job_dependencies) : db.HasTask job.id := by
  refine hi.started job hjob ⟨hidle.1, hidle.2.1, ?_⟩
  rw [upstream_jobs_eq_nil hi.foreign_key]
  intro other hother
  exact (upstream_jobs_eq_nil hdb').mp hidle.2.2 other (hkept other hother)

theorem create_starts {payload : JobCreate} {up down : List JobId} (hi : OneTimeInv db)
    (hnew : db.tasks.get task_id = none) :
    OneTimeInv (create_job env column .single db id task_id payload up down).db := by
  rcases create_job_cases with ⟨e, he⟩ | ⟨job, jobs, db₁, hrow, hcreate, hcommit, heq⟩
  · rw [he]
    exact hi
  have hid : (job.inserted column).id = id := (create_job_row_stamp hrow).1
  have hforeign : db₁.ForeignKeys :=
    commit_foreignKeys hi.foreign_key (fun _ hk => create_keeps hcreate hk) hcommit
  obtain ⟨rfl, _, _⟩ := commit_dependencies_ok hcommit
  rw [heq]
  refine ⟨?_, dispatch_starts (by exact hnew) ?_ ?_⟩
  · intro e he
    rw [_dispatch_if_one_time_dependencies] at he
    rw [_dispatch_if_one_time_jobs]
    exact hforeign e he
  · show jobs.get (job.inserted column).id = _
    rw [JobRepository.get_create hcreate, if_pos rfl]
  · intro other hother hne hidle
    have hold : other ∈ db.jobs.rows := by
      have hget : jobs.get other.id = some other := Table.get_of_mem hother
      rw [JobRepository.get_create hcreate, if_neg (Ne.symm hne)] at hget
      exact Table.mem_of_get hget
    refine idle_before hi hforeign hold hidle fun up hup => ?_
    refine (Assigned.mem_apply_iff (by simp [Assigned.assign_all_loaded])).mpr (.inr ⟨hup, ?_⟩)
    simp [Assigned.assign_all_loaded]

/-- The row of the job, as an update leaves it. -/
theorem row_of_update {loaded assigned : Job} {jobs : Table Job}
    (hget : db.jobs.get id = some loaded)
    (hupdate : JobRepository.update db.jobs db.now loaded (assigned.assigned column loaded)
      = some jobs) :
    ∃ row, jobs.get id = some row ∧
      ∀ c : Column, c ≠ .updated_at → row.val c = (assigned.assigned column loaded).val c := by
  have hid : loaded.id = id := Table.key_of_get hget
  refine ⟨Job.flush db.now loaded (assigned.assigned column loaded) loaded, ?_, fun c hc => ?_⟩
  · rw [JobRepository.get_update hupdate, if_pos hid, hget]
    rfl
  · rw [Job.val_flush _ _ _ _ hc, Orm.emit_loaded]

/-- Another job that waits for nobody after an update has a run, if the update finds a run of
every job whose last upstream it takes. -/
theorem update_others_start {jobs : Table Job} {up down : Option (List JobId)} (hi : OneTimeInv db)
    (hcommit : db.commit_dependencies id (up.isSome || down.isSome) jobs
      (.assign_all id (fun side => side.rows id db.job_dependencies)
        ((DependencyRequest.update_job up down).assigns.map fun p =>
          (p.1, (_jobs_by_id db.jobs p.2).map Job.id))) = .ok db₁)
    (hforeign : db₁.ForeignKeys)
    (hreleased : ∀ job_ids, down = some job_ids → ∀ job, db.Released id job → job.id ∉ job_ids →
      db.HasTask job.id)
    {other : Job} (hold : other ∈ db.jobs.rows) (hne : other.id ≠ id)
    (hidle : db₁.DispatchesOneTime other) : db.HasTask other.id := by
  have helsewhere : ∀ up', up' ≠ id →
      ((up', other.id) ∈ db₁.job_dependencies ↔ (up', other.id) ∈ db.job_dependencies) :=
    fun up' hup => update_elsewhere hcommit hup hne
  have hnone := (upstream_jobs_eq_nil hforeign).mp hidle.2.2
  by_cases hedge : (id, other.id) ∈ db.job_dependencies
  · have honly : db.OnlyUpstream id other.id := by
      refine ⟨hedge, fun e he heq => ?_⟩
      by_contra hup
      refine hnone e.1 ((helsewhere e.1 hup).mpr ?_)
      rw [← heq]
      exact he
    have hlost := mt (update_members hcommit .downstream_jobs other.id).mpr (hnone id)
    rw [mem_members_after] at hlost
    cases down with
    | none => exact absurd ⟨hedge, fun _ => hne⟩ hlost
    | some job_ids =>
        refine hreleased job_ids rfl other ⟨hold, hidle.1, hidle.2.1, honly⟩ fun hmem => ?_
        refine hlost ⟨⟨hmem, ?_⟩, fun _ => hne⟩
        rw [← key_job, Table.get_of_mem hold]
        exact Option.some_ne_none _
  · refine idle_before hi hforeign hold hidle fun up' hup => ?_
    have hup' : up' ≠ id := fun heq => hedge (heq ▸ hup)
    exact (helsewhere up' hup').mpr hup

theorem update_starts {data : JobUpdate} {up down : Option (List JobId)} (hi : OneTimeInv db)
    (hnew : db.tasks.get task_id = none)
    (hcareful : (update_job env column .single db id task_id data up down).result = .ok () →
      JobRequest.FindsTasks db (.update_job id task_id data up down)) :
    OneTimeInv (update_job env column .single db id task_id data up down).db := by
  rcases update_job_cases with ⟨e, he⟩ | ⟨loaded, job, jobs, db₁, hget, hrow, hupdate, hcommit, heq⟩
  · rw [he]
    exact hi
  rw [Servers.select_single] at hget
  have hid : loaded.id = id := Table.key_of_get hget
  have hforeign : db₁.ForeignKeys :=
    commit_foreignKeys hi.foreign_key (fun _ hk => (update_keeps hupdate).mpr hk) hcommit
  have hupdates := update_job_row_ok hrow
  have hmembers := update_members hcommit
  obtain ⟨rfl, _, _⟩ := commit_dependencies_ok hcommit
  obtain ⟨row, hread, hval⟩ := row_of_update hget hupdate
  have hrowid : row.id = id := Table.key_of_get hread
  have henabled : row.enabled = job.enabled := hval .enabled nofun
  have htype : row.job_type = job.job_type := hval .job_type nofun
  set db₁ : Chain := { db with jobs := jobs, job_dependencies := _ }
  have hresponse : update_job env column .single db id task_id data up down =
      if (!loaded.enabled && row.enabled) = true then db₁._dispatch_if_one_time row task_id
      else ⟨db₁, .ok ()⟩ := by
    rw [heq]
    simp only [refresh_and_dispatch, db₁, hread]
  have hfinds : JobRequest.FindsTasks db (.update_job id task_id data up down) := by
    refine hcareful ?_
    rw [hresponse]
    split
    · exact dispatch_ok (by exact hnew) (by rw [hrowid]; exact hread)
    · rfl
  have hothers : ∀ other ∈ jobs.rows, other.id ≠ id → db₁.DispatchesOneTime other →
      db.HasTask other.id := by
    intro other hother hne hidle
    have hold : other ∈ db.jobs.rows := by
      have hget' : jobs.get other.id = some other := Table.get_of_mem hother
      rw [JobRepository.get_update hupdate, if_neg (by rw [hid]; exact Ne.symm hne)] at hget'
      exact Table.mem_of_get hget'
    exact update_others_start hi hcommit hforeign hfinds.2 hold hne hidle
  rw [hresponse]
  split
  · refine ⟨?_, dispatch_starts (by exact hnew) (by rw [hrowid]; exact hread) ?_⟩
    · intro e he
      rw [_dispatch_if_one_time_dependencies] at he
      rw [_dispatch_if_one_time_jobs]
      exact hforeign e he
    · rw [hrowid]
      exact hothers
  · next hnot =>
      refine ⟨hforeign, fun other hother hidle => ?_⟩
      by_cases hne : other.id = id
      · -- the job was enabled all along
        have hsame : other = row := Table.eq_of_get hread hother hne
        subst hsame
        have hwas : loaded.enabled = true := by
          by_contra hoff
          exact hnot (by simp [hoff, hidle.2.1])
        have hjob : data.enabled ≠ .value false := by
          intro hfield
          have hcolumn := hupdates.enabled
          rw [hfield, ← henabled, hidle.2.1] at hcolumn
          cases hcolumn
        have hnormal : data.job_type loaded.job_type = .normal := by
          rw [(updated_schedule_ok hupdates.schedule).1, ← htype]
          exact hidle.1
        have hnone : db.members_after .upstream_jobs id up down = [] := by
          rw [List.eq_nil_iff_forall_not_mem]
          intro up' hup
          refine (upstream_jobs_eq_nil hforeign).mp hidle.2.2 up' ?_
          rw [hne]
          exact (hmembers .upstream_jobs up').mpr hup
        rw [hne]
        exact hfinds.1 loaded hget hwas hjob hnormal hnone
      · exact hothers other hother hne hidle

theorem delete_starts (hi : OneTimeInv db)
    (hcareful : (delete_job .single db id).result = .ok () →
      JobRequest.FindsTasks db (.delete_job id)) :
    OneTimeInv (delete_job .single db id).db := by
  unfold delete_job at hcareful ⊢
  split
  · exact hi
  · next hget =>
      rw [hget] at hcareful
      have hfinds : ∀ job, db.Released id job → db.HasTask job.id := hcareful rfl
      have hforeign : ForeignKeys { db with
          jobs := JobRepository.delete db.jobs id
          job_dependencies := db.job_dependencies.filter fun e => e.1 ≠ id ∧ e.2 ≠ id
          tasks := db.tasks.filter fun task => task.job_id ≠ id } := by
        intro e he
        obtain ⟨hold, hkept⟩ := List.mem_filter.mp he
        obtain ⟨h₁, h₂⟩ := hi.foreign_key e hold
        obtain ⟨hne₁, hne₂⟩ := of_decide_eq_true hkept
        simp only [JobRepository.delete, Table.get_erase, if_neg (Ne.symm hne₁),
          if_neg (Ne.symm hne₂)]
        exact ⟨h₁, h₂⟩
      refine ⟨hforeign, fun job hjob hidle => ?_⟩
      obtain ⟨hold, hkept⟩ := List.mem_filter.mp hjob
      have hne : job.id ≠ id := of_decide_eq_true hkept
      have hnone := (upstream_jobs_eq_nil hforeign).mp hidle.2.2
      have honly : ∀ up, (up, job.id) ∈ db.job_dependencies → up = id := by
        intro up hup
        by_contra hother
        exact hnone up (List.mem_filter.mpr ⟨hup, decide_eq_true ⟨hother, hne⟩⟩)
      have htask : db.HasTask job.id := by
        by_cases hedge : (id, job.id) ∈ db.job_dependencies
        · refine hfinds job ⟨hold, hidle.1, hidle.2.1, hedge, fun e he heq => ?_⟩
          exact honly e.1 (by rw [← heq]; exact he)
        · refine hi.started job hold ⟨hidle.1, hidle.2.1, ?_⟩
          rw [upstream_jobs_eq_nil hi.foreign_key]
          intro up hup
          exact hedge (honly up hup ▸ hup)
      obtain ⟨task, hmem, htask⟩ := htask
      exact ⟨task, List.mem_filter.mpr ⟨hmem, decide_eq_true (by rw [htask]; exact hne)⟩, htask⟩

theorem trigger_starts (hi : OneTimeInv db) (hnew : db.tasks.get task_id = none) :
    OneTimeInv (trigger_job .single db id task_id).db := by
  unfold trigger_job
  split
  · exact hi
  · by_cases hjob : db.jobs.get id = none
    · unfold _enqueue_task
      rw [if_pos hjob]
      exact hi
    · rw [_enqueue_task_new hjob hnew]
      refine ⟨hi.foreign_key, fun job hmem hidle => ?_⟩
      exact (hi.started job hmem hidle).add hnew rfl

/-- **The step lemma.** -/
theorem oneTimeInv_step {l : Int × JobRequest} (hi : OneTimeInv db)
    (hcareful : db.Careful env column l) (h : Requested env column db l db') :
    OneTimeInv db' := by
  obtain ⟨now, request⟩ := l
  obtain ⟨hnew, rfl⟩ := h
  have hi : OneTimeInv (db.tick now) := ⟨hi.foreign_key, hi.started⟩
  cases request with
  | create_job id task_id payload up down =>
      simp only [JobRequest.run]
      exact create_starts hi (hnew task_id rfl)
  | update_job id task_id data up down => exact update_starts hi (hnew task_id rfl) hcareful
  | delete_job id => exact delete_starts hi hcareful
  | trigger_job id task_id => exact trigger_starts hi (hnew task_id rfl)

theorem oneTimeInv_start (now : Int) : OneTimeInv (start now) := by
  refine ⟨fun e he => ?_, fun job hjob => ?_⟩
  · cases he
  · cases hjob

/-! ## Runs -/

/-- The request has enqueued a run of the job. -/
def Enqueues (before after : Chain) (id : JobId) (task_id : TaskId) : Prop :=
  after.normal_queue = before.normal_queue ++ [task_id] ∧
    ∃ task, after.tasks.get task_id = some task ∧ task.job_id = id

/-- A dispatch that succeeds enqueues a job that calls for it. -/
theorem dispatch_enqueues {job : Job}
    (h : (db._dispatch_if_one_time job task_id).result = .ok ())
    (hidle : (db._dispatch_if_one_time job task_id).db.DispatchesOneTime job) :
    db.Enqueues (db._dispatch_if_one_time job task_id).db job.id task_id := by
  have hups : (db._dispatch_if_one_time job task_id).db.upstream_jobs job.id
      = db.upstream_jobs job.id :=
    congrFun (upstream_jobs_congr _dispatch_if_one_time_jobs _dispatch_if_one_time_dependencies) _
  have hd : db.DispatchesOneTime job := ⟨hidle.1, hidle.2.1, hups ▸ hidle.2.2⟩
  rw [_dispatch_if_one_time_eq, if_pos hd] at h ⊢
  obtain ⟨tasks, hcreate, heq⟩ := _enqueue_task_ok h
  rw [heq]
  refine ⟨rfl, .fresh task_id job.id .manual 0 db.now, ?_, rfl⟩
  show tasks.get task_id = _
  rw [(TaskRepository.get_create hcreate).2]
  exact if_pos rfl

/-- **One-time jobs are started** by the request that creates or enables them: it enqueues a
run of a job that it leaves enabled, one-time and without upstreams.  In every run of
requests, executed one at a time, in which each that makes a job one-time that was enabled
before, or takes its last upstream, finds a task of it, every enabled one-time job without
upstreams has a task. -/
theorem one_time_jobs_started (env : Env) (column : JSONBCompat) :
    (∀ db id task_id payload up down job,
      (create_job env column .single db id task_id payload up down).result = .ok () →
      (create_job env column .single db id task_id payload up down).db.jobs.get id = some job →
      (create_job env column .single db id task_id payload up down).db.DispatchesOneTime job →
      db.Enqueues (create_job env column .single db id task_id payload up down).db id task_id) ∧
    (∀ db id task_id data up down before job,
      (update_job env column .single db id task_id data up down).result = .ok () →
      db.jobs.get id = some before → before.enabled = false →
      (update_job env column .single db id task_id data up down).db.jobs.get id = some job →
      (update_job env column .single db id task_id data up down).db.DispatchesOneTime job →
      db.Enqueues (update_job env column .single db id task_id data up down).db id task_id) ∧
    ∀ now db, Run (Requested env column) (Careful env column) (start now) db → db.Started := by
  refine ⟨?_, ?_, fun now db hrun => ?_⟩
  · intro db id task_id payload up down job h hget hidle
    obtain ⟨new, jobs, db₁, hrow, hcreate, hcommit, heq⟩ := create_job_ok h
    have hid : (new.inserted column).id = id := (create_job_row_stamp hrow).1
    obtain ⟨hdb₁, _, _⟩ := commit_dependencies_ok hcommit
    rw [heq] at h hget hidle ⊢
    have hnew : db₁.jobs.get id = some (new.inserted column) := by
      rw [hdb₁, JobRepository.get_create hcreate, if_pos hid]
    rw [_dispatch_if_one_time_jobs, hnew] at hget
    cases hget
    have hqueued := dispatch_enqueues h hidle
    rw [hid, hdb₁] at hqueued
    rw [hdb₁]
    exact hqueued
  · intro db id task_id data up down before job h hbefore hoff hget hidle
    obtain ⟨loaded, _, jobs, db₁, row, hloaded, _, _, hcommit, hread, heq⟩ := update_job_ok h
    rw [Servers.select_single, hbefore] at hloaded
    cases hloaded
    obtain ⟨hdb₁, _, _⟩ := commit_dependencies_ok hcommit
    rw [heq] at h hget hidle ⊢
    have hon : (!before.enabled && row.enabled) = true ∧ row = job := by
      have hrow : row = job := by
        split at hget
        · rw [_dispatch_if_one_time_jobs, hread] at hget
          exact Option.some.inj hget
        · rw [hread] at hget
          exact Option.some.inj hget
      refine ⟨?_, hrow⟩
      rw [hrow, hoff, hidle.2.1]
      rfl
    obtain ⟨hon, rfl⟩ := hon
    rw [if_pos hon] at h hidle ⊢
    have hqueued := dispatch_enqueues h hidle
    have hrowid : row.id = id := Table.key_of_get hread
    rw [hrowid, hdb₁] at hqueued
    rw [hdb₁]
    exact hqueued
  · have hi : OneTimeInv db :=
      hrun.invariant (fun hi hcareful h => oneTimeInv_step hi hcareful h) (oneTimeInv_start now)
    exact hi.started

/-- The second of two jobs waits for the first, and is triggered; then the first is deleted. -/
theorem one_time_jobs_started_triggered : ∃ db,
    Run (Requested example_env .json) (Careful example_env .json) (start 0) db ∧
    db.Started ∧ db.tasks.rows.map Task.job_id = [2] := by
  have h : Run (Requested example_env .json) (Careful example_env .json) (start 0) (start 0) :=
    .refl
  have h := h.snoc (l := (1, .create_job 1 1 example_one_time [] [])) (by intro _; trivial)
    ⟨by rintro _ ⟨⟩; rfl, rfl⟩
  have h := h.snoc (l := (2, .create_job 2 2 { example_one_time with name := "b" } [1] []))
    (by intro _; trivial) ⟨by rintro _ ⟨⟩; rfl, rfl⟩
  have h := h.snoc (l := (3, .trigger_job 2 3)) (by intro _; trivial) ⟨by rintro _ ⟨⟩; rfl, rfl⟩
  have h := h.snoc (l := (4, .delete_job 1)) (by
    rintro _ job ⟨_, _, _, hedge, _⟩
    have hid : job.id = 2 := (Prod.mk.inj (List.mem_singleton.mp hedge)).2
    rw [hid]
    exact ⟨.fresh 3 2 .manual 0 3, by decide, rfl⟩) ⟨nofun, rfl⟩
  exact ⟨_, h, (one_time_jobs_started example_env .json).2.2 0 _ h, by decide⟩

/-- A scheduled job loses its cron expression: it is an enabled one-time job now, and has no
task. -/
theorem one_time_job_waits :
    ¬ ∀ now db, Run (Requested example_env .json) Any (start now) db → db.Started := by
  intro hall
  have h : Run (Requested example_env .json) Any (start 0) (start 0) := .refl
  have h := h.snoc (l := (1, .create_job 1 1 example_payload [] [])) trivial
    ⟨by rintro _ ⟨⟩; rfl, rfl⟩
  have h := h.snoc (l := (2, .update_job 1 2 { cron_expression := .null } none none)) trivial
    ⟨by rintro _ ⟨⟩; rfl, rfl⟩
  obtain ⟨task, hmem, _⟩ := hall 0 _ h _ List.mem_cons_self ⟨rfl, rfl, rfl⟩
  cases hmem

end Chain

end Dass
