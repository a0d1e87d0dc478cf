/-
# `Dass.StaleUpdates` — an update that has loaded an older version of its row

`update_job` loads its job with the first `SELECT` of a fresh session, and that one may go
to a replica.  What is assigned is then compared with a version of the row that the
primary has left behind: a field set to the value it used to have counts as unchanged and
is not written, and a job that used to be disabled counts as enabled by the request.

With no lag the first happens to the JSON column alone, where `==` takes two values for one
that are not (`Dass.JSONBCompat`).
-/
import Dass.RequestedDependencies

namespace Dass

open Orm

/-! ## One field -/

/-- The column holds what the field says. -/
def Field.Landed {α : Type} (stored : α) : Field α → Prop
  | .unset => True
  | .null => False
  | .value v => stored = v

/-- The field is written, or the column holds its value anyway. -/
def Field.Lands {α : Type} (loaded primary : α) : Field α → Prop
  | .value v => v ≠ loaded ∨ primary = v
  | _ => True

/-- A column takes the field's value exactly if it differs from the loaded one, or is there. -/
theorem Field.landed_iff {α : Type} [DecidableEq α] {field : Field α}
    {loaded assigned primary : α} (h : field.column loaded = .ok assigned) :
    field.Landed (emit loaded assigned primary) ↔ field.Lands loaded primary := by
  cases field with
  | unset => exact Iff.rfl
  | null => cases h
  | value v =>
      cases h
      exact emit_eq_assigned

/-- The job type that the payload asks for. -/
def JobUpdate.job_type (data : JobUpdate) (loaded : JobType) : JobType :=
  match data.cron_expression with
  | .unset => loaded
  | .null => .normal
  | .value cron => if cron_or_none (some cron) = none then .normal else .scheduled

/-- `cron_expression` as a field of the column: stripped, and null where it is blank. -/
def JobUpdate.cron (data : JobUpdate) : Field (Option String) :=
  match data.cron_expression with
  | .unset => .unset
  | .null => .value none
  | .value cron => .value (cron_or_none (some cron))

theorem updated_schedule_ok {env : Env} {now : Int} {job : Job} {data : JobUpdate}
    {job_type : JobType} {cron : Option String} {next_fire_at : Option Int}
    (h : updated_schedule env now job data.cron_expression = .ok (job_type, cron, next_fire_at)) :
    data.job_type job.job_type = job_type ∧ data.cron.column job.cron_expression = .ok cron := by
  unfold JobUpdate.job_type JobUpdate.cron
  cases hfield : data.cron_expression with
  | unset =>
      rw [hfield] at h
      cases h
      exact ⟨rfl, rfl⟩
  | null =>
      rw [hfield] at h
      cases h
      exact ⟨rfl, rfl⟩
  | value expression =>
      rw [hfield] at h
      simp only [updated_schedule, _resolve_schedule] at h
      split at h
      · next hnone =>
          cases h
          exact ⟨if_pos hnone, congrArg Except.ok hnone⟩
      · next stripped hsome =>
          split at h
          · cases h
            exact ⟨if_neg (by rw [hsome]; exact Option.some_ne_none _), congrArg Except.ok hsome⟩
          · cases h

/-! ## The row -/

/-- The row holds every scalar field of the payload. -/
structure JobUpdate.Landed (column : JSONBCompat) (data : JobUpdate) (row : Job) : Prop where
  name : data.name.Landed row.name
  enabled : data.enabled.Landed row.enabled
  concurrency_policy : data.concurrency_policy.Landed row.concurrency_policy
  max_retries : data.max_retries.Landed row.max_retries
  action_type : data.action_type.Landed row.action_type
  action_config : ∀ value, data.action_config = .value value →
    row.action_config = column.stored value
  cron_expression : data.cron.Landed row.cron_expression

/-- Every scalar field of the payload differs from what was loaded, or is in the primary's
row already. -/
structure JobUpdate.Lands (column : JSONBCompat) (data : JobUpdate) (loaded primary : Job) :
    Prop where
  name : data.name.Lands loaded.name primary.name
  enabled : data.enabled.Lands loaded.enabled primary.enabled
  concurrency_policy : data.concurrency_policy.Lands loaded.concurrency_policy
    primary.concurrency_policy
  max_retries : data.max_retries.Lands loaded.max_retries primary.max_retries
  action_type : data.action_type.Lands loaded.action_type primary.action_type
  action_config : ∀ value, data.action_config = .value value →
    value.same loaded.action_config = false ∨ primary.action_config = column.stored value
  cron_expression : data.cron.Lands loaded.cron_expression primary.cron_expression

/-- The JSON column takes the value exactly if `==` tells it from the loaded one, or it is
there. -/
theorem JSONBCompat.emit_assigned {column : JSONBCompat} {loaded value primary : Json} :
    emit loaded (column.assigned loaded value) primary = column.stored value ↔
      value.same loaded = false ∨ primary = column.stored value := by
  unfold JSONBCompat.assigned
  cases hsame : value.same loaded with
  | true => simp
  | false =>
      have hne : column.stored value ≠ loaded := by
        intro heq
        rw [← heq, column.same_stored] at hsame
        cases hsame
      simp [emit_dirty hne]

theorem JobUpdate.landed_iff {env : Env} {column : JSONBCompat} {now : Int}
    {data : JobUpdate} {loaded job primary : Job} (h : UpdatesRow env now loaded data job) :
    data.Landed column (Job.flush now loaded (job.assigned column loaded) primary) ↔
      data.Lands column loaded primary := by
  have hfield : ∀ {c : Column}, c ≠ .updated_at → ∀ {field : Field c.Val},
      field.column (loaded.val c) = .ok ((job.assigned column loaded).val c) →
      (field.Landed ((Job.flush now loaded (job.assigned column loaded) primary).val c) ↔
        field.Lands (loaded.val c) (primary.val c)) := by
    intro c hc field hcolumn
    rw [Job.val_flush _ _ _ _ hc]
    exact Field.landed_iff hcolumn
  have hname := hfield (c := .name) nofun h.name
  have henabled := hfield (c := .enabled) nofun h.enabled
  have hpolicy := hfield (c := .concurrency_policy) nofun h.concurrency_policy
  have hretries := hfield (c := .max_retries) nofun h.max_retries
  have htype := hfield (c := .action_type) nofun h.action_type
  have hcron := hfield (c := .cron_expression) nofun (updated_schedule_ok h.schedule).2
  have hconfig : ∀ value, data.action_config = .value value →
      ((Job.flush now loaded (job.assigned column loaded) primary).action_config
          = column.stored value ↔
        value.same loaded.action_config = false ∨
          primary.action_config = column.stored value) := by
    intro value hvalue
    have hjob : job.action_config = value := by
      have hcolumn := h.action_config
      rw [hvalue] at hcolumn
      exact (Except.ok.inj hcolumn).symm
    have hflush : (Job.flush now loaded (job.assigned column loaded) primary).action_config =
        emit loaded.action_config (column.assigned loaded.action_config value)
          primary.action_config := by
      rw [← hjob]
      exact Job.val_flush now loaded (job.assigned column loaded) primary (c := .action_config)
        nofun
    rw [hflush]
    exact column.emit_assigned
  constructor
  · intro hl
    exact ⟨hname.mp hl.name, henabled.mp hl.enabled, hpolicy.mp hl.concurrency_policy,
      hretries.mp hl.max_retries, htype.mp hl.action_type,
      fun value hvalue => (hconfig value hvalue).mp (hl.action_config value hvalue),
      hcron.mp hl.cron_expression⟩
  · intro hl
    exact ⟨hname.mpr hl.name, henabled.mpr hl.enabled, hpolicy.mpr hl.concurrency_policy,
      hretries.mpr hl.max_retries, htype.mpr hl.action_type,
      fun value hvalue => (hconfig value hvalue).mpr (hl.action_config value hvalue),
      hcron.mpr hl.cron_expression⟩

/-! ## The request -/

/-- An update has reached the primary, whose row was `primary` before: the fields of the
payload are in the row, and the job is enqueued only if it was disabled. -/
structure ReachesPrimary (column : JSONBCompat) (data : JobUpdate) (id : JobId) (primary : Job)
    (before after : Chain) : Prop where
  landed : ∃ row, after.jobs.get id = some row ∧ data.Landed column row
  enqueued : after.normal_queue ≠ before.normal_queue → primary.enabled = false

/-- The update takes the job for one it has just enabled, and runs it: what was loaded is
disabled, the primary's row is not, and the row becomes, or stays, one-time without
upstreams. -/
def RunsAgain (data : JobUpdate) (loaded primary : Job) (upstreams : List JobId) : Prop :=
  loaded.enabled = false ∧ primary.enabled = true ∧
    emit loaded.job_type (data.job_type loaded.job_type) primary.job_type = .normal ∧
    upstreams = []

section

variable {env : Env} {column : JSONBCompat} {servers : Servers} {db : Chain} {id : JobId}
  {task_id : TaskId} {data : JobUpdate} {up down : Option (List JobId)} {loaded primary : Job}

/-- The row after an update, and when it has been enqueued. -/
theorem update_job_effect (hdb : db.ForeignKeys)
    (hloaded : (servers.select .fresh .get_job db.jobs).get id = some loaded)
    (hprimary : db.jobs.get id = some primary)
    (h : (update_job env column servers db id task_id data up down).result = .ok ()) :
    ∃ job row, UpdatesRow env db.now loaded data job ∧
      row = Job.flush db.now loaded (job.assigned column loaded) primary ∧
      (update_job env column servers db id task_id data up down).db.jobs.get id = some row ∧
      ((update_job env column servers db id task_id data up down).db.normal_queue
          ≠ db.normal_queue ↔
        loaded.enabled = false ∧ row.enabled = true ∧ row.job_type = .normal ∧
          db.members_after .upstream_jobs id up down = []) := by
  obtain ⟨loaded', job, jobs, db₁, row, hloaded', hrow, hupdate, hcommit, hread, heq⟩ :=
    update_job_ok h
  cases hloaded.symm.trans hloaded'
  have hid : loaded.id = id := Table.key_of_get hloaded
  have hforeign : db₁.ForeignKeys :=
    Chain.commit_foreignKeys hdb (fun _ hk => (Chain.update_keeps hupdate).mpr hk) hcommit
  have hmembers : db₁.upstream_jobs id = [] ↔ db.members_after .upstream_jobs id up down = [] := by
    rw [Chain.upstream_jobs_eq_nil hforeign, List.eq_nil_iff_forall_not_mem]
    exact forall_congr' fun other => not_congr (Chain.update_members hcommit .upstream_jobs other)
  obtain ⟨hdb₁, _, _⟩ := Chain.commit_dependencies_ok hcommit
  have hflush : row = Job.flush db.now loaded (job.assigned column loaded) primary := by
    rw [hdb₁, JobRepository.get_update hupdate, if_pos hid, hprimary] at hread
    exact (Option.some.inj hread).symm
  refine ⟨job, row, update_job_row_ok hrow, hflush, ?_, ?_⟩
  · rw [heq]
    split
    · rw [Chain._dispatch_if_one_time_jobs, hread]
    · exact hread
  · have hqueue : db₁.normal_queue = db.normal_queue := by rw [hdb₁]
    have hrowid : row.id = id := Table.key_of_get hread
    rw [heq] at h ⊢
    rw [← hqueue, ← hmembers]
    split
    · next henabled =>
        rw [if_pos henabled] at h
        simp only [Bool.and_eq_true, Bool.not_eq_true'] at henabled
        rw [Chain.dispatched_iff h, Chain.DispatchesOneTime, hrowid]
        simp only [henabled, true_and]
    · next hnot =>
        refine iff_of_false (fun hne => hne rfl) fun hall => hnot ?_
        simp [hall.1, hall.2.1]

/-- **An update reaches the primary exactly if nothing in it is lost on the loaded row.**
For every row the primary has, and every version of it that the replica may answer with: an
update that succeeds has its fields in the primary's row, and enqueues the job only if that
was disabled, exactly if each field it names differs from what was loaded or is there
already, and the job is not taken for one that has just been enabled. -/
theorem update_reaches_primary (env : Env) (column : JSONBCompat) (servers : Servers)
    (db : Chain) (hdb : db.ForeignKeys) (id : JobId) (task_id : TaskId) (data : JobUpdate)
    (up down : Option (List JobId)) (loaded primary : Job)
    (hloaded : (servers.select .fresh .get_job db.jobs).get id = some loaded)
    (hprimary : db.jobs.get id = some primary)
    (h : (update_job env column servers db id task_id data up down).result = .ok ()) :
    ReachesPrimary column data id primary db
        (update_job env column servers db id task_id data up down).db ↔
      data.Lands column loaded primary ∧
        ¬ RunsAgain data loaded primary (db.members_after .upstream_jobs id up down) := by
  obtain ⟨job, row, hupdates, hrow, hget, hqueue⟩ := update_job_effect hdb hloaded hprimary h
  have hlanded : data.Landed column row ↔ data.Lands column loaded primary := by
    rw [hrow]
    exact JobUpdate.landed_iff hupdates
  have htype : row.job_type
      = emit loaded.job_type (data.job_type loaded.job_type) primary.job_type := by
    rw [hrow, (updated_schedule_ok hupdates.schedule).1]
    exact Job.val_flush db.now loaded (job.assigned column loaded) primary (c := .job_type) nofun
  -- a disabled copy cannot disable the row: the assignment would not be sent
  have henabled : loaded.enabled = false → primary.enabled = true → row.enabled = true := by
    intro hl hp
    have hemit : row.enabled = emit loaded.enabled job.enabled primary.enabled := by
      rw [hrow]
      exact Job.val_flush db.now loaded (job.assigned column loaded) primary (c := .enabled) nofun
    rw [hemit, hl, hp]
    cases job.enabled <;> rfl
  constructor
  · rintro ⟨⟨row', hrow', hl⟩, henqueued⟩
    cases hget.symm.trans hrow'
    refine ⟨hlanded.mp hl, ?_⟩
    rintro ⟨hoff, hon, hnormal, hnone⟩
    have hsent := hqueue.mpr ⟨hoff, henabled hoff hon, htype.trans hnormal, hnone⟩
    rw [henqueued hsent] at hon
    cases hon
  · rintro ⟨hlands, hnot⟩
    refine ⟨⟨row, hget, hlanded.mpr hlands⟩, fun hsent => ?_⟩
    obtain ⟨hoff, _, hnormal, hnone⟩ := hqueue.mp hsent
    by_contra hon
    exact hnot ⟨hoff, by simpa using hon, htype.symm.trans hnormal, hnone⟩

end

/-! ## A lagging replica -/

/-- The replica has every job as it was before the first was disabled. -/
def example_lagging : Servers := ⟨⟨true⟩, fun _ => example_trio, fun _ => true⟩

def example_disabled : Chain :=
  (update_job example_env .json .single example_db 1 1 { enabled := .value false } none none).db

/-- The job is renamed. -/
theorem update_reaches_primary_renamed :
    (update_job example_env .json example_lagging example_disabled 1 1 { name := .value "z" }
      none none).result = .ok () ∧
    ReachesPrimary .json { name := .value "z" } 1 ((example_disabled.jobs.get 1).get (by decide))
      example_disabled (update_job example_env .json example_lagging example_disabled 1 1
        { name := .value "z" } none none).db := by
  have hok : (update_job example_env .json example_lagging example_disabled 1 1
      { name := .value "z" } none none).result = .ok () := rfl
  refine ⟨hok, (update_reaches_primary example_env .json example_lagging example_disabled nofun 1 1
    { name := .value "z" } none none ((example_trio.get 1).get (by decide)) _ rfl rfl hok).mpr
      ⟨⟨?_, trivial, trivial, trivial, trivial, nofun, trivial⟩, ?_⟩⟩
  · exact .inl (by decide)
  · rintro ⟨hoff, _⟩
    cases hoff

/-- The job is enabled again; the request succeeds, and the job stays disabled. -/
theorem enabling_lost_on_stale_row :
    (update_job example_env .json example_lagging example_disabled 1 1 { enabled := .value true }
      none none).result = .ok () ∧
    ¬ ReachesPrimary .json { enabled := .value true } 1
      ((example_disabled.jobs.get 1).get (by decide)) example_disabled
      (update_job example_env .json example_lagging example_disabled 1 1
        { enabled := .value true } none none).db := by
  refine ⟨rfl, ?_⟩
  rintro ⟨⟨row, hrow, hlanded⟩, _⟩
  have henabled : row.enabled = true := hlanded.enabled
  cases hrow
  cases henabled

end Dass
