/-
# `Dass.JobColumns` — the columns of a job that are derived from others

Three things in a row of `jobs` follow from the rest of it: `runtime_spec` from the action,
`job_type` and `next_fire_at` from `cron_expression`.  The API writes them when it writes
what they derive from, and the scheduler writes a whole cached row back, with the next
firing in it.  Here the requests of the API, syncs and the single dispatches of a pass come
one after the other, in any order and at any times; a dispatch may have cached its job long
before.

Every write goes through a flush, and a flush compares JSON with `==`.  So an `action_config`
that is `==` to the one in the row is not written, while the command made of it may be
another and is (`config_not_written`).  Where no HTTP action is given a config that the
column keeps as one with another command, the derived columns are what they should be.
-/
import Dass.RuntimeSpec
import Dass.OneTimeJobs
import Dass.CronScheduler

namespace Dass

open Lts

/-! ## The row -/

/-- The derived columns of a row are right. -/
structure Job.Derived (py : Python) (row : Job) : Prop where
  runtime_spec : ∃ spec stored,
    py._build_runtime_spec true row.action_type row.action_config = .ok spec ∧
      row.runtime_spec = some stored ∧ spec.same stored = true
  job_type : row.job_type = .scheduled ↔ row.cron_expression ≠ none
  next_fire_at : row.job_type = .scheduled ↔ row.next_fire_at ≠ none

/-- The value an HTTP action is given builds the command of the value the column `held`
afterwards. -/
def Python.KeepsCommand (py : Python) (action_type : ActionType) (given held : Json) : Prop :=
  action_type = .http → py.command given = py.command held

section Row

variable {py : Python} {croniter : Croniter} {column : JSONBCompat} {now : Int} {job row : Job}

theorem JSONBCompat.same_assigned {loaded value : Json} :
    value.same (column.assigned loaded value) = true := by
  unfold JSONBCompat.assigned
  split
  · next hsame => exact hsame
  · exact column.same_stored value

/-- The spec of a row whose JSON columns hold what they make of the given values. -/
theorem Job.Derived.stored {held : Json} (stored : Json) (h : job.Derived py)
    (hconfig : job.action_config.same held = true)
    (hcommand : py.KeepsCommand job.action_type job.action_config held)
    (hspec : ∀ given, job.runtime_spec = some given → given.same stored = true) :
    ∃ spec, py._build_runtime_spec true job.action_type held = .ok spec ∧
      spec.same stored = true := by
  obtain ⟨spec, given, hbuild, hgiven, hsame⟩ := h.runtime_spec
  rw [Python.build_same hconfig hcommand] at hbuild
  exact ⟨spec, hbuild, Json.same_trans hsame (hspec given hgiven)⟩

/-- A new row is right if what was given is. -/
theorem Job.Derived.inserted (h : job.Derived py)
    (hcommand : py.KeepsCommand job.action_type job.action_config
      (column.stored job.action_config)) : (job.inserted column).Derived py := by
  obtain ⟨_, given, _, hgiven, _⟩ := h.runtime_spec
  obtain ⟨spec, hbuild, hsame⟩ := h.stored (column.stored given)
    (column.same_stored _) hcommand (fun given' hgiven' => by
      cases hgiven.symm.trans hgiven'
      exact column.same_stored given)
  refine ⟨⟨spec, column.stored given, hbuild, ?_, hsame⟩, h.job_type, h.next_fire_at⟩
  show job.runtime_spec.map column.stored = _
  rw [hgiven]
  rfl

/-- So is a row after a flush. -/
theorem Job.Derived.flushed (h : job.Derived py)
    (hcommand : py.KeepsCommand job.action_type job.action_config
      (column.assigned row.action_config job.action_config)) :
    (Job.flush now row (job.assigned column row) row).Derived py := by
  have hval : ∀ c : Column, c ≠ .updated_at →
      (Job.flush now row (job.assigned column row) row).val c
        = (job.assigned column row).val c := by
    intro c hc
    rw [Job.val_flush _ _ _ _ hc, Orm.emit_loaded]
  have htype : (Job.flush now row (job.assigned column row) row).action_type = job.action_type :=
    hval .action_type nofun
  have hconfig : (Job.flush now row (job.assigned column row) row).action_config
      = column.assigned row.action_config job.action_config := hval .action_config nofun
  have hspec : (Job.flush now row (job.assigned column row) row).runtime_spec
      = column.assigned? row.runtime_spec job.runtime_spec := hval .runtime_spec nofun
  have hjob : (Job.flush now row (job.assigned column row) row).job_type = job.job_type :=
    hval .job_type nofun
  have hcron : (Job.flush now row (job.assigned column row) row).cron_expression
      = job.cron_expression := hval .cron_expression nofun
  have hfire : (Job.flush now row (job.assigned column row) row).next_fire_at
      = job.next_fire_at := hval .next_fire_at nofun
  obtain ⟨_, given, _, hgiven, _⟩ := h.runtime_spec
  obtain ⟨stored, hstored, hsame⟩ : ∃ stored,
      column.assigned? row.runtime_spec job.runtime_spec = some stored ∧
        given.same stored = true := by
    rw [hgiven]
    cases row.runtime_spec with
    | none => exact ⟨_, rfl, column.same_stored given⟩
    | some loaded => exact ⟨_, rfl, JSONBCompat.same_assigned⟩
  obtain ⟨spec, hbuild, hsame⟩ := h.stored stored JSONBCompat.same_assigned hcommand
    (fun given' hgiven' => by
      cases hgiven.symm.trans hgiven'
      exact hsame)
  refine ⟨⟨spec, stored, ?_, ?_, hsame⟩, ?_, ?_⟩
  · rw [htype, hconfig]
    exact hbuild
  · rw [hspec]
    exact hstored
  · rw [hjob, hcron]
    exact h.job_type
  · rw [hjob, hfire]
    exact h.next_fire_at

/-! ### What is assigned -/

theorem resolved_schedule {env : Env} {raw_cron : Option String} {job_type : JobType}
    {cron : Option String} {next_fire_at : Option Int}
    (h : _resolve_schedule env now raw_cron = .ok (job_type, cron, next_fire_at)) :
    (job_type = .scheduled ↔ cron ≠ none) ∧ (job_type = .scheduled ↔ next_fire_at ≠ none) := by
  unfold _resolve_schedule at h
  split at h
  · cases h
    exact ⟨by simp, by simp⟩
  · split at h
    · cases h
      exact ⟨by simp, by simp⟩
    · cases h

theorem CreatesRow.derived {id : JobId} {payload : JobCreate}
    (h : CreatesRow (py.env croniter) now id payload job) : job.Derived py := by
  obtain ⟨spec, hbuild, hspec⟩ := h.runtime_spec
  obtain ⟨htype, hfire⟩ := resolved_schedule h.schedule
  refine ⟨⟨spec, spec, ?_, hspec, Json.same_refl spec⟩, htype, hfire⟩
  rw [h.action_type, h.action_config]
  exact hbuild

/-- An update derives again what it has to. -/
theorem UpdatesRow.derived {data : JobUpdate} (h : UpdatesRow (py.env croniter) now row data job)
    (hrow : row.Derived py) : job.Derived py := by
  have hschedule : (job.job_type = .scheduled ↔ job.cron_expression ≠ none) ∧
      (job.job_type = .scheduled ↔ job.next_fire_at ≠ none) := by
    have hs := h.schedule
    cases hfield : data.cron_expression with
    | unset =>
        rw [hfield] at hs
        simp only [updated_schedule, Except.ok.injEq, Prod.mk.injEq] at hs
        obtain ⟨htype, hcron, hfire⟩ := hs
        rw [← htype, ← hcron, ← hfire]
        exact ⟨hrow.job_type, hrow.next_fire_at⟩
    | null =>
        rw [hfield] at hs
        exact resolved_schedule (show _resolve_schedule (py.env croniter) now none = _ from hs)
    | value cron =>
        rw [hfield] at hs
        exact resolved_schedule (show _resolve_schedule (py.env croniter) now (some cron) = _ from hs)
  refine ⟨?_, hschedule.1, hschedule.2⟩
  have htype := h.action_type
  have hconfig := h.action_config
  have hspec := h.runtime_spec
  unfold updated_runtime_spec at hspec
  split at hspec
  · next hno₁ hno₂ =>
      rw [hno₁] at htype
      rw [hno₂] at hconfig
      have htype' : row.action_type = job.action_type := Except.ok.inj htype
      have hconfig' : row.action_config = job.action_config := Except.ok.inj hconfig
      have hspec' : row.runtime_spec = job.runtime_spec := Except.ok.inj hspec
      rw [← htype', ← hconfig', ← hspec']
      exact hrow.runtime_spec
  · simp only [Field.apply_of_column htype, Field.apply_of_column hconfig] at hspec
    split at hspec
    · cases hbuild : (py.env croniter).build_runtime_spec job.action_type job.action_config with
      | error e =>
          rw [hbuild] at hspec
          cases hspec
      | ok spec =>
          rw [hbuild] at hspec
          exact ⟨spec, spec, hbuild, (Except.ok.inj hspec).symm, Json.same_refl spec⟩
    · cases hspec

theorem advance_derived {begun : Int} {expression : String} (h : job.Derived py)
    (hcron : job.cron_expression = some expression) :
    (advance (py.env croniter) begun expression job).Derived py := by
  have hscheduled : job.job_type = .scheduled := by
    rw [h.job_type, hcron]
    exact Option.some_ne_none _
  exact ⟨h.runtime_spec, h.job_type, iff_of_true hscheduled (Option.some_ne_none _)⟩

end Row

/-! ## The system -/

/-- The database, and what the scheduler process remembers. -/
structure JobSystem where
  db : Chain
  mem : CronScheduler

namespace JobSystem

inductive Label where
  /-- a request of the API -/
  | request (now : Int) (request : JobRequest)
  /-- `sync_jobs` -/
  | sync (now : Int)
  /-- one turn of the loop of `dispatch_due_jobs`, in a pass that began at `begun` -/
  | dispatch (begun now : Int) (task_id : TaskId)

/-- The commit of a cached copy that `Session.merge` has put onto its row, or onto a new
one. -/
def commit_copy (column : JSONBCompat) (jobs : Table Job) (now : Int) (job : Job) :
    Option (Table Job) :=
  match jobs.get job.id with
  | some row => JobRepository.update jobs now row (job.assigned column row)
  | none => JobRepository.create jobs (job.inserted column)

/-- The second half of `_dispatch`: the run, unless the policy forbids it. -/
def create_run (db : Chain) (job : Job) (task_id : TaskId) : Option Chain :=
  if job.concurrency_policy = .forbid ∧ TaskRepository.count_running_for_job db.tasks job.id ≠ 0
  then some db
  else (TaskRepository.create db.tasks (.fresh task_id job.id .scheduled 0 db.now)).map fun tasks =>
    { db with tasks := tasks }

/-- A due entry is dispatched; what raises ends the pass. -/
def _dispatch (env : Env) (column : JSONBCompat) (db : Chain) (mem : CronScheduler) (job : Job)
    (begun : Int) (task_id : TaskId) : JobSystem :=
  match job.cron_expression with
  | none => ⟨db, mem⟩
  | some expression =>
      match commit_copy column db.jobs db.now (advance env begun expression job) with
      | none => ⟨db, mem⟩
      | some jobs =>
          let db := { db with jobs := jobs }
          match jobs.get job.id with
          | none => ⟨db, mem⟩
          | some row =>
              match create_run db row task_id with
              | none => ⟨db, mem⟩
              | some db => ⟨db, mem.reschedule row⟩

/-- One turn of the loop. -/
def dispatch_due_job (env : Env) (column : JSONBCompat) (s : JobSystem) (begun : Int)
    (task_id : TaskId) : JobSystem :=
  match s.mem.pop_due begun with
  | .done => s
  | .skipped mem | .raised mem => { s with mem := mem }
  | .due mem job _ => _dispatch env column s.db mem job begun task_id

inductive Step (env : Env) (column : JSONBCompat) : JobSystem → Label → JobSystem → Prop
  | request {s : JobSystem} {now : Int} {request : JobRequest} {db : Chain} :
      s.db.Requested env column (now, request) db →
      Step env column s (.request now request) { s with db := db }
  | sync {s : JobSystem} {now : Int} :
      Step env column s (.sync now) { s with
        mem := s.mem.sync_jobs now (list_updated_since s.db.jobs s.mem.last_sync_at) }
  | dispatch {s : JobSystem} {begun now : Int} {task_id : TaskId} :
      Step env column s (.dispatch begun now task_id)
        (dispatch_due_job env column { s with db := s.db.tick now } begun task_id)

/-- An empty database, and a scheduler that has just been started. -/
def start (now : Int) : JobSystem := ⟨.start now, .init⟩

/-- Every committed row is right. -/
def Derived (py : Python) (s : JobSystem) : Prop := ∀ row ∈ s.db.jobs.rows, row.Derived py

/-- The HTTP config a request or a dispatch commits builds the command of the one that the
column holds then. -/
def KeepsCommands (py : Python) (column : JSONBCompat) (s : JobSystem) : Label → Prop
  | .request _ (.create_job _ _ payload _ _) =>
      py.KeepsCommand payload.action_type payload.action_config
        (column.stored payload.action_config)
  | .request _ (.update_job id _ data _ _) =>
      ∀ row, s.db.jobs.get id = some row → ∀ action_type action_config,
        data.action_type.apply row.action_type = some action_type →
        data.action_config.apply row.action_config = some action_config →
        py.KeepsCommand action_type action_config
          (column.assigned row.action_config action_config)
  | .dispatch begun _ _ =>
      ∀ mem job instant, s.mem.pop_due begun = .due mem job instant →
        py.KeepsCommand job.action_type job.action_config
          (match s.db.jobs.get job.id with
            | some row => column.assigned row.action_config job.action_config
            | none => column.stored job.action_config)
  | .request _ (.delete_job _) | .request _ (.trigger_job _ _) | .sync _ => True

/-! ### Steps -/

variable {py : Python} {croniter : Croniter} {column : JSONBCompat} {s s' : JobSystem} {l : Label}

/-- What is committed, and what is cached. -/
structure Inv (py : Python) (s : JobSystem) : Prop where
  rows : s.Derived py
  cached : ∀ id job, s.mem.job_cache id = some job → job.Derived py

theorem derived_get (h : s.Derived py) {id : JobId} {row : Job}
    (hrow : s.db.jobs.get id = some row) : row.Derived py := h row (Table.mem_of_get hrow)

/-- A table whose rows are those of another, except for one that is right. -/
theorem rows_derived {jobs jobs' : Table Job} (h : ∀ row ∈ jobs.rows, row.Derived py)
    (id : JobId) (hothers : ∀ k, k ≠ id → jobs'.get k = jobs.get k)
    (hone : ∀ row, jobs'.get id = some row → row.Derived py) :
    ∀ row ∈ jobs'.rows, row.Derived py := by
  intro row hrow
  have hget : jobs'.get row.id = some row := Table.get_of_mem hrow
  by_cases hid : row.id = id
  · exact hone row (hid ▸ hget)
  · exact h row (Table.mem_of_get ((hothers row.id hid).symm.trans hget))

theorem create_derived {db : Chain} {id : JobId} {task_id : TaskId} {payload : JobCreate}
    {up down : List JobId}
    (h : ∀ row ∈ db.jobs.rows, row.Derived py)
    (hcommand : py.KeepsCommand payload.action_type payload.action_config
      (column.stored payload.action_config)) :
    ∀ row ∈ (create_job (py.env croniter) column .single db id task_id payload up down).db.jobs.rows,
      row.Derived py := by
  rcases create_job_cases with ⟨e, he⟩ | ⟨job, jobs, db₁, hrow, hcreate, hcommit, heq⟩
  · rw [he]
    exact h
  · have hcreates := create_job_row_ok hrow
    have hid : (job.inserted column).id = id := hcreates.id
    obtain ⟨rfl, _, _⟩ := Chain.commit_dependencies_ok hcommit
    rw [heq, Chain._dispatch_if_one_time_jobs]
    refine rows_derived h id (fun k hk => ?_) fun row hget => ?_
    · show jobs.get k = _
      rw [JobRepository.get_create hcreate, hid, if_neg (Ne.symm hk)]
    · have hget : jobs.get id = some row := hget
      rw [JobRepository.get_create hcreate, if_pos hid] at hget
      cases hget
      refine hcreates.derived.inserted ?_
      rw [hcreates.action_type, hcreates.action_config]
      exact hcommand

theorem update_derived {db : Chain} {id : JobId} {task_id : TaskId} {data : JobUpdate}
    {up down : Option (List JobId)}
    (h : ∀ row ∈ db.jobs.rows, row.Derived py)
    (hcommand : ∀ row, db.jobs.get id = some row → ∀ action_type action_config,
      data.action_type.apply row.action_type = some action_type →
      data.action_config.apply row.action_config = some action_config →
      py.KeepsCommand action_type action_config
        (column.assigned row.action_config action_config)) :
    ∀ row ∈ (update_job (py.env croniter) column .single db id task_id data up down).db.jobs.rows,
      row.Derived py := by
  rcases update_job_cases with ⟨e, he⟩ | ⟨loaded, job, jobs, db₁, hget, hrow, hupdate, hcommit, heq⟩
  · rw [he]
    exact h
  · rw [Servers.select_single] at hget
    have hid : loaded.id = id := Table.key_of_get hget
    have hupdates := update_job_row_ok hrow
    obtain ⟨rfl, _, _⟩ := Chain.commit_dependencies_ok hcommit
    have hjobs : (update_job (py.env croniter) column .single db id task_id data up down).db.jobs
        = jobs := by
      rw [heq, Chain.refresh_and_dispatch_jobs]
    rw [hjobs]
    refine rows_derived h id (fun k hk => ?_) fun row hread => ?_
    · rw [JobRepository.get_update hupdate, if_neg (by rw [hid]; exact Ne.symm hk)]
    · rw [JobRepository.get_update hupdate, if_pos hid, hget] at hread
      cases hread
      refine (hupdates.derived (h loaded (Table.mem_of_get hget))).flushed ?_
      exact hcommand loaded hget _ _ (Field.apply_of_column hupdates.action_type)
        (Field.apply_of_column hupdates.action_config)

/-- A cached copy that is committed leaves its row right. -/
theorem commit_copy_derived {jobs jobs' : Table Job} {now : Int} {job : Job}
    (h : ∀ row ∈ jobs.rows, row.Derived py) (hjob : job.Derived py)
    (hcommand : py.KeepsCommand job.action_type job.action_config
      (match jobs.get job.id with
        | some row => column.assigned row.action_config job.action_config
        | none => column.stored job.action_config))
    (hcommit : commit_copy column jobs now job = some jobs') : ∀ row ∈ jobs'.rows, row.Derived py := by
  unfold commit_copy at hcommit
  split at hcommit
  · next loaded hget =>
      have hid : loaded.id = job.id := Table.key_of_get hget
      rw [hget] at hcommand
      refine rows_derived h job.id (fun k hk => ?_) fun row hread => ?_
      · rw [JobRepository.get_update hcommit, if_neg (by rw [hid]; exact Ne.symm hk)]
      · rw [JobRepository.get_update hcommit, if_pos hid, hget] at hread
        cases hread
        exact hjob.flushed hcommand
  · next hnone =>
      rw [hnone] at hcommand
      have hid : (job.inserted column).id = job.id := rfl
      refine rows_derived h job.id (fun k hk => ?_) fun row hread => ?_
      · rw [JobRepository.get_create hcommit, if_neg (by rw [hid]; exact Ne.symm hk)]
      · rw [JobRepository.get_create hcommit, if_pos hid] at hread
        cases hread
        exact hjob.inserted hcommand

theorem create_run_jobs {db db' : Chain} {job : Job} {task_id : TaskId}
    (h : create_run db job task_id = some db') : db'.jobs = db.jobs := by
  unfold create_run at h
  split at h
  · cases h
    rfl
  · obtain ⟨tasks, _, rfl⟩ := Option.map_eq_some_iff.mp h
    rfl

/-- What a pass takes from the cache, and what it leaves there when it only looks. -/
theorem pop_due_cached (mem : CronScheduler) (begun : Int) :
    match mem.pop_due begun with
    | .done => True
    | .skipped mem' | .raised mem' => mem'.job_cache = mem.job_cache
    | .due mem' job _ => mem'.job_cache = mem.job_cache ∧ ∃ id, mem.job_cache id = some job := by
  rcases pop_due_cases mem begun with h | ⟨entry, _, _, ⟨h, _⟩ | ⟨h, _⟩ | ⟨job, t, h, hcached, _⟩⟩
  · rw [h]
    trivial
  · rw [h]
  · rw [h]
  · rw [h]
    exact ⟨rfl, _, hcached⟩

theorem dispatch_derived {begun : Int} {task_id : TaskId} (hi : Inv py s)
    (hcommand : ∀ mem job instant, s.mem.pop_due begun = .due mem job instant →
      py.KeepsCommand job.action_type job.action_config
        (match s.db.jobs.get job.id with
          | some row => column.assigned row.action_config job.action_config
          | none => column.stored job.action_config)) :
    Inv py (dispatch_due_job (py.env croniter) column s begun task_id) := by
  have hcached := pop_due_cached s.mem begun
  unfold dispatch_due_job
  split
  · exact hi
  · next mem heq =>
      rw [heq] at hcached
      exact ⟨hi.rows, fun id job hjob => hi.cached id job (by rw [← hcached]; exact hjob)⟩
  · next mem heq =>
      rw [heq] at hcached
      exact ⟨hi.rows, fun id job hjob => hi.cached id job (by rw [← hcached]; exact hjob)⟩
  · next mem job instant heq =>
      rw [heq] at hcached
      obtain ⟨hcache, id, hjob⟩ := hcached
      have hold : ∀ id job, mem.job_cache id = some job → job.Derived py :=
        fun id job hjob => hi.cached id job (by rw [← hcache]; exact hjob)
      unfold _dispatch
      split
      · exact ⟨hi.rows, hold⟩
      · next expression hcron =>
          split
          · exact ⟨hi.rows, hold⟩
          · next jobs hcommit =>
              have hrows : ∀ row ∈ jobs.rows, row.Derived py :=
                commit_copy_derived hi.rows (advance_derived (hi.cached id job hjob) hcron)
                  (hcommand mem job instant heq) hcommit
              simp only
              split
              · exact ⟨hrows, hold⟩
              · next row hrow =>
                  split
                  · exact ⟨hrows, hold⟩
                  · next db hrun =>
                      refine ⟨?_, fun k copy hcopy => ?_⟩
                      · show ∀ row ∈ db.jobs.rows, _
                        rw [create_run_jobs hrun]
                        exact hrows
                      · by_cases hk : k = row.id
                        · subst hk
                          have hsame : some row = some copy := by
                            rw [← hcopy]
                            exact (Function.update_self row.id (some row) mem.job_cache).symm
                          cases hsame
                          exact hrows row (Table.mem_of_get hrow)
                        · exact hold k copy ((Function.update_of_ne hk _ _).symm.trans hcopy)

/-- **The step lemma.** -/
theorem inv_step (hi : Inv py s) (hkeeps : s.KeepsCommands py column l)
    (h : Step (py.env croniter) column s l s') : Inv py s' := by
  cases h with
  | request hreq =>
      rename_i now request db
      obtain ⟨_, rfl⟩ := hreq
      refine ⟨?_, hi.cached⟩
      have hrows : ∀ row ∈ (s.db.tick now).jobs.rows, row.Derived py := hi.rows
      cases request with
      | create_job id task_id payload up down =>
          intro row hrow
          simp only [JobRequest.run] at hrow
          exact create_derived hrows hkeeps row hrow
      | update_job id task_id data up down =>
          intro row hrow
          simp only [JobRequest.run] at hrow
          exact update_derived hrows hkeeps row hrow
      | delete_job id =>
          intro row hrow
          simp only [JobRequest.run, delete_job] at hrow
          split at hrow
          · exact hi.rows row hrow
          · exact hi.rows row (List.mem_of_mem_filter hrow)
      | trigger_job id task_id =>
          intro row hrow
          simp only [JobRequest.run, trigger_job] at hrow
          split at hrow
          · exact hi.rows row hrow
          · rw [Chain._enqueue_task_jobs] at hrow
            exact hi.rows row hrow
  | sync =>
      refine ⟨hi.rows, fun id job hjob => ?_⟩
      rcases cached_of_sync_jobs hjob with ⟨hrow, _⟩ | hold
      · exact derived_get hi.rows hrow
      · exact hi.cached id job hold
  | dispatch => exact dispatch_derived ⟨hi.rows, hi.cached⟩ hkeeps

theorem inv_start (now : Int) : Inv py (start now) := by
  refine ⟨fun row hrow => ?_, fun id job hjob => ?_⟩
  · cases hrow
  · cases hjob

/-! ### Rejections -/

/-- A request that is rejected has committed nothing. -/
theorem rejected_keeps {env : Env} {db : Chain} {request : JobRequest}
    (hnew : ∀ task_id, request.task_id? = some task_id → db.tasks.get task_id = none)
    (h : (request.run env column db).result ≠ .ok ()) : (request.run env column db).db = db := by
  cases request with
  | create_job id task_id payload up down =>
      simp only [JobRequest.run] at h ⊢
      rcases create_job_cases with ⟨e, he⟩ | ⟨job, jobs, db₁, hrow, hcreate, hcommit, heq⟩
      · rw [he]
      · obtain ⟨rfl, _, _⟩ := Chain.commit_dependencies_ok hcommit
        refine absurd ?_ h
        rw [heq]
        refine Chain.dispatch_ok (by exact hnew task_id rfl) ?_
        show jobs.get (job.inserted column).id = _
        rw [JobRepository.get_create hcreate, if_pos rfl]
  | update_job id task_id data up down =>
      simp only [JobRequest.run] at h ⊢
      rcases update_job_cases with
        ⟨e, he⟩ | ⟨loaded, job, jobs, db₁, hget, hrow, hupdate, hcommit, heq⟩
      · rw [he]
      · obtain ⟨rfl, _, _⟩ := Chain.commit_dependencies_ok hcommit
        rw [Servers.select_single] at hget
        have hid : loaded.id = id := Table.key_of_get hget
        obtain ⟨row, hread⟩ : ∃ row, jobs.get id = some row := by
          rw [JobRepository.get_update hupdate, if_pos hid, hget]
          exact ⟨_, rfl⟩
        have hrowid : row.id = id := Table.key_of_get hread
        refine absurd ?_ h
        rw [heq]
        simp only [Chain.refresh_and_dispatch, hread]
        split
        · exact Chain.dispatch_ok (by exact hnew task_id rfl) (by rw [hrowid]; exact hread)
        · rfl
  | delete_job id =>
      simp only [JobRequest.run, delete_job] at h ⊢
      split at h
      · rfl
      · exact absurd rfl h
  | trigger_job id task_id =>
      simp only [JobRequest.run, trigger_job, Chain.get_job, Servers.select_single] at h ⊢
      cases hget : db.jobs.get id with
      | none => simp
      | some row =>
          simp only [hget] at h
          rw [Chain._enqueue_task_new (by rw [hget]; exact Option.some_ne_none _)
            (hnew task_id rfl)] at h
          exact absurd rfl h

/-- **Derived columns stay right.**  In every state of every run of requests, syncs and
dispatches in which no HTTP action is given a config that its column then holds as one with
another command: each row has the spec that is built of its action, one that `ContainerSpec`
takes, and is scheduled exactly if it has a cron expression, and exactly if it has a next
firing.  A request that is rejected leaves everything as it was. -/
theorem derived_columns (py : Python) (croniter : Croniter) (column : JSONBCompat) :
    (∀ now s, Run (Step (py.env croniter) column) (KeepsCommands py column) (start now) s →
      ∀ row ∈ s.db.jobs.rows, row.Derived py ∧
        ∃ stored, row.runtime_spec = some stored ∧ ContainerSpec.constructible stored = true) ∧
    ∀ db (request : JobRequest),
      (∀ task_id, request.task_id? = some task_id → db.tasks.get task_id = none) →
      (request.run (py.env croniter) column db).result ≠ .ok () →
      (request.run (py.env croniter) column db).db = db := by
  refine ⟨fun now s hrun row hrow => ?_, fun db request hnew h => rejected_keeps hnew h⟩
  have hi : Inv py s :=
    hrun.invariant (fun hi hkeeps h => inv_step hi hkeeps h) (inv_start now)
  have hrow := hi.rows row hrow
  obtain ⟨spec, stored, hbuild, hstored, hsame⟩ := hrow.runtime_spec
  obtain ⟨image, command, timeout, rfl⟩ := Python.build_shape hbuild
  exact ⟨hrow, stored, hstored, constructible_of_same hsame⟩

/-! ### Examples -/

/-- `{"url": "u", "body": {"k": value}}`. -/
def example_http_config (value : Json) : Json :=
  .obj (.cons "url" (.str "u") (.cons "body" (.obj (.cons "k" value .nil)) .nil))

/-- An HTTP job that runs once a minute. -/
def example_http : JobCreate :=
  { example_payload with action_type := .http, action_config := example_http_config (.num 1 0) }

/-- The job is created, cached, given another body and dispatched from the cache. -/
theorem derived_columns_dispatched : ∃ s,
    Run (Step (example_python.env every_minute) .json) (KeepsCommands example_python .json)
      (start 0) s ∧ s.db.jobs.rows.map Job.next_fire_at = [some (seconds 120)] ∧
    ∀ row ∈ s.db.jobs.rows, row.Derived example_python ∧
      ∃ stored, row.runtime_spec = some stored ∧ ContainerSpec.constructible stored = true := by
  have h : Run (Step (example_python.env every_minute) .json) (KeepsCommands example_python .json)
      (start 0) (start 0) := .refl
  have h := h.snoc (l := .request 1 (.create_job 1 1 example_http [] [])) (by intro _; rfl)
    (.request ⟨by rintro _ ⟨⟩; rfl, rfl⟩)
  have h := h.snoc (l := .sync 2) (by exact trivial) .sync
  have h := h.snoc (l := .request 3 (.update_job 1 2
      { action_config := .value (example_http_config (.num 2 0)) } none none)) (by
    rintro row ⟨⟩ action_type action_config ⟨⟩ ⟨⟩ _
    rfl) (.request ⟨by rintro _ ⟨⟩; rfl, rfl⟩)
  have h := h.snoc (l := .dispatch (seconds 60) (seconds 60) 3) (by
    rintro mem job instant ⟨⟩ _
    rfl) .dispatch
  exact ⟨_, h, by decide, (derived_columns example_python every_minute .json).1 0 _ h⟩

/-- `1` becomes `true`: the command is made anew, and the config stays. -/
theorem config_not_written :
    ¬ ∀ now s, Run (Step (example_python.env every_minute) .json) Any (start now) s →
      ∀ row ∈ s.db.jobs.rows, row.Derived example_python := by
  intro hall
  have h : Run (Step (example_python.env every_minute) .json) Any (start 0) (start 0) := .refl
  have h := h.snoc (l := .request 1 (.create_job 1 1 example_http [] [])) trivial
    (.request ⟨by rintro _ ⟨⟩; rfl, rfl⟩)
  have h := h.snoc (l := .request 2 (.update_job 1 2
      { action_config := .value (example_http_config (.bool true)) } none none)) trivial
    (.request ⟨by rintro _ ⟨⟩; rfl, rfl⟩)
  obtain ⟨spec, stored, hbuild, hstored, hsame⟩ := (hall 0 _ h _ List.mem_cons_self).runtime_spec
  cases hbuild
  cases hstored
  revert hsame
  decide

end JobSystem

end Dass
