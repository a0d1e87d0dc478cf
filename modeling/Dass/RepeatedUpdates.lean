/-
# `Dass.RepeatedUpdates` — an update that is sent again

A client that has lost the answer to its `PUT /api/v1/jobs/{id}` sends the request once more.
`update_job` of `backend/app/services/job_service.py` has no memory of the first: it loads the
row, assigns what the payload names, derives the rest anew, looks the dependencies up and has
them checked.

Nothing comes of it.  What the payload says of the row is there, and assigned again it compares
equal, the JSON that was stored included (`JSONBCompat.assigned?_again`); the rows of
`job_dependencies` that it asks for are those there are (`Chain.AsAsked`); and a job that is
enabled was so before.  Only a cron expression is resolved anew, against the clock.  This holds
however often the request is repeated, and whatever happens in between that leaves the job and
its dependencies alone (`repeats_change_nothing`).
-/
import Dass.OneTimeJobs
import Dass.OverlappingUpdates

namespace Dass

open Lts Orm

/-! ## The columns -/

/-- The next firing that the payload gives the row at `now`. -/
def JobUpdate.renewed (env : Env) (now : Int) (data : JobUpdate) (row : Job) : Option Int :=
  match data.cron_expression with
  | .unset => row.next_fire_at
  | .null => none
  | .value _ => row.cron_expression.map fun cron => next_cron_time env cron now

/-- The row with that firing; where it is the one there was nothing is sent. -/
def JobUpdate.again (env : Env) (now : Int) (data : JobUpdate) (row : Job) : Job :=
  if data.renewed env now row = row.next_fire_at then row
  else { row with next_fire_at := data.renewed env now row, updated_at := now }

/-- The row has what the payload says. -/
structure JobUpdate.Done (env : Env) (column : JSONBCompat) (data : JobUpdate) (row : Job) :
    Prop where
  name : data.name.column row.name = .ok row.name
  schedule : ∀ now, updated_schedule env now row data.cron_expression =
    .ok (row.job_type, row.cron_expression, data.renewed env now row)
  action_type : data.action_type.column row.action_type = .ok row.action_type
  action_config : ∃ config, data.action_config.column row.action_config = .ok config ∧
    column.assigned row.action_config config = row.action_config
  runtime_spec : ∃ spec, updated_runtime_spec env row data = .ok spec ∧
    column.assigned? row.runtime_spec spec = row.runtime_spec
  enabled : data.enabled.column row.enabled = .ok row.enabled
  concurrency_policy :
    data.concurrency_policy.column row.concurrency_policy = .ok row.concurrency_policy
  max_retries : data.max_retries.column row.max_retries = .ok row.max_retries

/-- The rows are the same but for when the job fires next, and for `updated_at`. -/
structure Job.ButSchedule (a b : Job) : Prop where
  id : a.id = b.id
  val : ∀ c, c ≠ .next_fire_at → c ≠ .updated_at → a.val c = b.val c

section Row

variable {env : Env} {column : JSONBCompat} {now : Int} {data : JobUpdate}
  {loaded job row row' : Job}

theorem Field.column_again {α : Type} {field : Field α} {old v : α}
    (h : field.column old = .ok v) : field.column v = .ok v := by
  cases field with
  | unset => rfl
  | null => cases h
  | value value => exact h

/-- What has been assigned compares equal with what it has left. -/
theorem JSONBCompat.assigned_again (column : JSONBCompat) (loaded value : Json) :
    column.assigned (column.assigned loaded value) value = column.assigned loaded value := by
  unfold JSONBCompat.assigned
  by_cases hsame : value.same loaded = true
  · rw [if_pos hsame, if_pos hsame]
  · rw [if_neg hsame, if_pos (column.same_stored value)]

theorem JSONBCompat.assigned?_again (column : JSONBCompat) (loaded value : Option Json) :
    column.assigned? (column.assigned? loaded value) value = column.assigned? loaded value := by
  cases loaded with
  | none =>
      cases value with
      | none => rfl
      | some value => exact congrArg some (if_pos (column.same_stored value))
  | some loaded =>
      cases value with
      | none => rfl
      | some value => exact congrArg some (column.assigned_again loaded value)

theorem updated_schedule_again {job_type : JobType} {cron : Option String}
    {next_fire_at : Option Int}
    (h : updated_schedule env now loaded data.cron_expression = .ok (job_type, cron, next_fire_at))
    (htype : row.job_type = job_type) (hcron : row.cron_expression = cron) (now' : Int) :
    updated_schedule env now' row data.cron_expression =
      .ok (row.job_type, row.cron_expression, data.renewed env now' row) := by
  unfold JobUpdate.renewed
  cases hfield : data.cron_expression with
  | unset => rfl
  | null =>
      rw [hfield] at h
      cases h
      rw [htype, hcron]
      rfl
  | value expression =>
      rw [hfield] at h
      rw [htype, hcron]
      simp only [updated_schedule, _resolve_schedule] at h ⊢
      split at h
      · cases h
        rfl
      · next stripped hsome =>
          split at h
          · next hvalid =>
              cases h
              rw [if_pos hvalid]
              rfl
          · cases h

/-- The spec is derived of the same action. -/
theorem updated_runtime_spec_again {spec : Option Json} {config : Json}
    (h : updated_runtime_spec env loaded data = .ok spec)
    (htype : data.action_type.column loaded.action_type = .ok row.action_type)
    (hconfig : data.action_config.column loaded.action_config = .ok config)
    (hkept : data.action_config = .unset → row.action_config = loaded.action_config) :
    data.action_type = .unset ∧ data.action_config = .unset ∧ spec = loaded.runtime_spec ∨
      updated_runtime_spec env row data = .ok spec := by
  cases hfield : data.action_type with
  | null =>
      rw [hfield] at htype
      cases htype
  | unset =>
      cases hconfigField : data.action_config with
      | null =>
          rw [hconfigField] at hconfig
          cases hconfig
      | unset =>
          simp only [updated_runtime_spec, hfield, hconfigField] at h
          exact .inl ⟨rfl, rfl, (Except.ok.inj h).symm⟩
      | value value =>
          rw [hfield] at htype
          have hsame : row.action_type = loaded.action_type := (Except.ok.inj htype).symm
          refine .inr ?_
          simp only [updated_runtime_spec, hfield, hconfigField, Field.apply] at h ⊢
          rw [hsame]
          exact h
  | value action_type =>
      cases hconfigField : data.action_config with
      | null =>
          rw [hconfigField] at hconfig
          cases hconfig
      | unset =>
          refine .inr ?_
          simp only [updated_runtime_spec, hfield, hconfigField, Field.apply] at h ⊢
          rw [hkept hconfigField]
          exact h
      | value value =>
          refine .inr ?_
          simp only [updated_runtime_spec, hfield, hconfigField, Field.apply] at h ⊢
          exact h

theorem JSONBCompat.assigned?_self (column : JSONBCompat) (value : Option Json) :
    column.assigned? value value = value := by
  cases value with
  | none => rfl
  | some value => exact congrArg some (column.assigned_self value)

/-- What an update leaves has what its payload says. -/
theorem UpdatesRow.done (h : UpdatesRow env now loaded data job)
    (hval : ∀ c, c ≠ .updated_at → row.val c = (job.assigned column loaded).val c) :
    data.Done env column row := by
  have hname : row.name = job.name := hval .name fun h => by cases h
  have hjob_type : row.job_type = job.job_type := hval .job_type fun h => by cases h
  have hcron : row.cron_expression = job.cron_expression :=
    hval .cron_expression fun h => by cases h
  have htype : row.action_type = job.action_type := hval .action_type fun h => by cases h
  have hconfig : row.action_config = column.assigned loaded.action_config job.action_config :=
    hval .action_config fun h => by cases h
  have hspec : row.runtime_spec = column.assigned? loaded.runtime_spec job.runtime_spec :=
    hval .runtime_spec fun h => by cases h
  have henabled : row.enabled = job.enabled := hval .enabled fun h => by cases h
  have hpolicy : row.concurrency_policy = job.concurrency_policy :=
    hval .concurrency_policy fun h => by cases h
  have hretries : row.max_retries = job.max_retries := hval .max_retries fun h => by cases h
  have hunset : data.action_config = .unset → row.action_config = loaded.action_config := by
    intro hfield
    have hjob := h.action_config
    rw [hfield] at hjob
    rw [hconfig, ← Except.ok.inj hjob, column.assigned_self]
  refine {
    name := hname ▸ Field.column_again h.name
    schedule := updated_schedule_again h.schedule hjob_type hcron
    action_type := htype ▸ Field.column_again h.action_type
    action_config := ?_
    runtime_spec := ?_
    enabled := henabled ▸ Field.column_again h.enabled
    concurrency_policy := hpolicy ▸ Field.column_again h.concurrency_policy
    max_retries := hretries ▸ Field.column_again h.max_retries }
  · cases hfield : data.action_config with
    | unset => exact ⟨row.action_config, rfl, column.assigned_self _⟩
    | null =>
        have hjob := h.action_config
        rw [hfield] at hjob
        cases hjob
    | value value =>
        have hjob := h.action_config
        rw [hfield] at hjob
        refine ⟨value, rfl, ?_⟩
        rw [hconfig, ← Except.ok.inj hjob, column.assigned_again]
  · rcases updated_runtime_spec_again h.runtime_spec (htype ▸ h.action_type) h.action_config hunset
      with ⟨htypeField, hconfigField, -⟩ | hagain
    · refine ⟨row.runtime_spec, ?_, column.assigned?_self _⟩
      simp only [updated_runtime_spec, htypeField, hconfigField]
    · refine ⟨job.runtime_spec, hagain, ?_⟩
      rw [hspec, column.assigned?_again]

theorem Job.ButSchedule.eq (h : row'.ButSchedule row) : row' =
    { row with next_fire_at := row'.next_fire_at, updated_at := row'.updated_at } := by
  refine Job.Agree.eq ⟨h.id, fun c hc => ?_⟩ rfl
  by_cases hfire : c = .next_fire_at
  · subst hfire
    rfl
  · refine (h.val c hfire hc).trans ?_
    cases c <;> first | rfl | exact absurd rfl hfire | exact absurd rfl hc

/-- When it fires next does not count. -/
theorem JobUpdate.Done.of_butSchedule (h : data.Done env column row)
    (hrow : row'.ButSchedule row) : data.Done env column row' := by
  obtain ⟨next_fire_at, updated_at, rfl⟩ : ∃ next_fire_at updated_at,
      row' = { row with next_fire_at, updated_at } := ⟨_, _, hrow.eq⟩
  refine {
    name := h.name
    schedule := fun now => ?_
    action_type := h.action_type
    action_config := h.action_config
    runtime_spec := h.runtime_spec
    enabled := h.enabled
    concurrency_policy := h.concurrency_policy
    max_retries := h.max_retries }
  have hschedule := h.schedule now
  unfold JobUpdate.renewed at hschedule ⊢
  cases hfield : data.cron_expression with
  | unset => rfl
  | null | value =>
      rw [hfield] at hschedule
      exact hschedule

/-- The payload once more, on a row that has what it says. -/
theorem JobUpdate.Done.again (h : data.Done env column row) (now : Int) :
    ∃ job, update_job_row env now row data = .ok job ∧
      job.assigned column row = { row with next_fire_at := data.renewed env now row } := by
  obtain ⟨config, hconfig, hkept⟩ := h.action_config
  obtain ⟨spec, hspec, hspecKept⟩ := h.runtime_spec
  refine ⟨{ row with
    action_config := config, runtime_spec := spec, next_fire_at := data.renewed env now row },
    ?_, ?_⟩
  · simp only [update_job_row, bind, Except.bind, pure, Except.pure, h.schedule now, hspec, h.name,
      h.action_type, hconfig, h.enabled, h.concurrency_policy, h.max_retries]
  · rw [Job.assigned, hkept, hspecKept]

end Row

/-! ## The dependencies -/

/-- The relationships that an update assigns, on what it finds. -/
def Chain.assigned (db : Chain) (id : JobId) (up down : Option (List JobId)) : Assigned :=
  .assign_all id (fun side => side.rows id db.job_dependencies)
    ((DependencyRequest.update_job up down).assigns.map fun p =>
      (p.1, (_jobs_by_id db.jobs p.2).map Job.id))

/-- The job has the dependencies that the lists ask for. -/
structure Chain.AsAsked (db : Chain) (id : JobId) (up down : Option (List JobId)) : Prop where
  members : ∀ (side : Side) job_ids, side.pick up down = some job_ids → ∀ other,
    side.row id other ∈ db.job_dependencies ↔
      (other ∈ job_ids ∧ db.jobs.get other ≠ none) ∧ other ≠ id
  /-- the job itself is not in the list that is assigned last -/
  irrefl : ∀ job_ids, down.or up = some job_ids → id ∉ job_ids
  acyclic : (up.isSome || down.isSome) = true →
    id ∉ get_all_descendants db.job_dependencies id

section Dependencies

variable {db db₁ : Chain} {id : JobId} {up down : Option (List JobId)} {side : Side}
  {job_ids : List JobId} {rows : List Dependency} {e : Dependency}

theorem Side.mem_rows_row : e ∈ side.rows id rows ↔ ∃ other, e = side.row id other ∧ e ∈ rows := by
  obtain ⟨a, b⟩ := e
  cases side <;> simp [Side.rows, Side.row, and_comm, eq_comm]

/-- The rows of a relationship that is as asked for are those an update makes of the list, but
for that of the job with itself. -/
theorem mem_rows_of_members (h : ∀ other, side.row id other ∈ db.job_dependencies ↔
      (other ∈ job_ids ∧ db.jobs.get other ≠ none) ∧ other ≠ id) :
    e ∈ side.rows id db.job_dependencies ↔
      e ∈ ((_jobs_by_id db.jobs job_ids).map Job.id).map (side.row id) ∧ e ≠ (id, id) := by
  have hself : ∀ other, side.row id other = (id, id) ↔ other = id := by
    intro other
    cases side <;> simp [Side.row]
  rw [Side.mem_rows_row, List.mem_map]
  constructor
  · rintro ⟨other, rfl, hrow⟩
    obtain ⟨hasked, hne⟩ := (h other).mp hrow
    exact ⟨⟨other, mem_jobs_by_id.mpr hasked, rfl⟩, fun heq => hne ((hself other).mp heq)⟩
  · rintro ⟨⟨other, hasked, rfl⟩, hne⟩
    exact ⟨other, rfl, (h other).mpr
      ⟨mem_jobs_by_id.mp hasked, fun heq => hne ((hself other).mpr heq)⟩⟩

theorem ne_self_of_mem (hself : id ∉ job_ids)
    (he : e ∈ ((_jobs_by_id db.jobs job_ids).map Job.id).map (side.row id)) : e ≠ (id, id) := by
  rintro rfl
  obtain ⟨other, hother, hrow⟩ := List.mem_map.mp he
  have heq : other = id := by
    cases side <;> simpa [Side.row] using hrow
  exact hself (heq ▸ (mem_jobs_by_id.mp hother).1)

/-- What is assigned is what was loaded. -/
theorem Chain.AsAsked.mem_now_iff (h : db.AsAsked id up down) :
    e ∈ (db.assigned id up down).now ↔ e ∈ (db.assigned id up down).loaded := by
  -- one list
  have hone : ∀ (side : Side) job_ids, side.pick up down = some job_ids → id ∉ job_ids →
      (e ∈ ((_jobs_by_id db.jobs job_ids).map Job.id).map (side.row id) ↔
        e ∈ side.rows id db.job_dependencies) := by
    intro side job_ids hpick hself
    rw [mem_rows_of_members (h.members side job_ids hpick)]
    exact ⟨fun he => ⟨he, ne_self_of_mem hself he⟩, And.left⟩
  cases up with
  | none =>
      cases down with
      | none => exact Iff.rfl
      | some down => exact hone .downstream_jobs down rfl (h.irrefl down rfl)
  | some up =>
      cases down with
      | none => exact hone .upstream_jobs up rfl (h.irrefl up rfl)
      | some down =>
          have hdown := hone .downstream_jobs down rfl (h.irrefl down rfl)
          have hup := mem_rows_of_members (e := e) (h.members .upstream_jobs up rfl)
          -- the second assignment takes the job itself from the first
          have hself : ∀ upstreams : List JobId, e ∈ upstreams.map (Side.row .upstream_jobs id) →
              (e ∉ Side.rows .downstream_jobs id (upstreams.map (Side.row .upstream_jobs id)) ↔
                e ≠ (id, id)) := by
            intro upstreams he
            refine not_congr ⟨fun hrow => ?_, fun heq => List.mem_filter.mpr ⟨he, by simp [heq]⟩⟩
            obtain ⟨other, _, rfl⟩ := List.mem_map.mp he
            have hother : other = id := of_decide_eq_true (List.mem_filter.mp hrow).2
            rw [hother, Side.row_self]
          show e ∈ List.filter _ _ ++ _ ↔ e ∈ ([] ++ Side.rows _ id _) ++ Side.rows _ id _
          rw [List.nil_append, List.mem_append, List.mem_append, List.mem_filter, hdown, hup,
            decide_eq_true_eq]
          exact or_congr_left (and_congr_right (hself _))

/-- Nothing is written of what is there. -/
theorem Chain.AsAsked.commit (h : db.AsAsked id up down) (jobs : Table Job) :
    db.commit_dependencies id (up.isSome || down.isSome) jobs (db.assigned id up down) =
      .ok { db with jobs := jobs } := by
  have hinserted : (db.assigned id up down).inserted = [] := by
    rw [Assigned.inserted, List.filter_eq_nil_iff]
    intro e he
    simpa using h.mem_now_iff.mp he
  have hdeleted : (db.assigned id up down).deleted = [] := by
    rw [Assigned.deleted, List.filter_eq_nil_iff]
    intro e he
    simpa using h.mem_now_iff.mpr he
  have happly : (db.assigned id up down).apply db.job_dependencies = db.job_dependencies := by
    rw [Assigned.apply, hinserted, hdeleted]
    simp
  rw [commit_dependencies, hinserted, happly, List.any_nil, if_neg Bool.false_ne_true]
  exact if_neg fun hcycle => h.acyclic hcycle.1 hcycle.2

theorem Chain.mem_assigned_loaded (he : e ∈ (db.assigned id up down).loaded) :
    e ∈ db.job_dependencies := by
  have hloaded : ∀ e ∈ (db.assigned id up down).loaded, e ∈ db.job_dependencies := by
    refine Assigned.assign_all_induct (P := fun a => ∀ e ∈ a.loaded, e ∈ db.job_dependencies)
      (List.forall_mem_nil _) fun a ha p _ e he => ?_
    rcases List.mem_append.mp he with hold | hnew
    · exact ha e hold
    · exact List.mem_of_mem_filter hnew
  exact hloaded e he

/-- An update that has been committed leaves the dependencies it asks for. -/
theorem Chain.asAsked_of_commit {jobs : Table Job}
    (h : db.commit_dependencies id (up.isSome || down.isSome) jobs (db.assigned id up down) =
      .ok db₁)
    (hjobs : ∀ k, jobs.get k ≠ none ↔ db.jobs.get k ≠ none) (hid : db.jobs.get id ≠ none) :
    db₁.AsAsked id up down := by
  obtain ⟨hdb₁, -, hacyclic⟩ := commit_dependencies_ok h
  refine ⟨fun side job_ids hpick other => ?_, fun job_ids hlast hself => ?_, fun hchecks => ?_⟩
  · rw [update_members h side other, hpick, mem_members_after, hdb₁]
    simp [hjobs]
  · have hchecks : (up.isSome || down.isSome) = true := by
      cases up <;> cases down <;> first | rfl | cases hlast
    have hmember : id ∈ (_jobs_by_id db.jobs job_ids).map Job.id := mem_jobs_by_id.mpr ⟨hself, hid⟩
    have hrow : ∀ side : Side,
        (id, id) ∈ ((_jobs_by_id db.jobs job_ids).map Job.id).map (side.row id) :=
      fun side => List.mem_map.mpr ⟨id, hmember, side.row_self id⟩
    have hnow : (id, id) ∈ (db.assigned id up down).now := by
      cases down with
      | some down =>
          cases hlast
          cases up <;> exact List.mem_append_right _ (hrow .downstream_jobs)
      | none =>
          cases up with
          | none => cases hlast
          | some up =>
              cases hlast
              exact List.mem_append_right _ (hrow .upstream_jobs)
    rw [hchecks] at h
    refine commit_dependencies_irrefl h ?_
    rw [hdb₁]
    exact (Assigned.mem_apply_iff fun e he => mem_assigned_loaded he).mpr (.inl hnow)
  · rw [hdb₁]
    exact hacyclic hchecks

end Dependencies

/-! ## The request -/

/-- The database has all that the request asks for, in `row`. -/
structure Chain.Settled (env : Env) (column : JSONBCompat) (id : JobId) (data : JobUpdate)
    (up down : Option (List JobId)) (db : Chain) (row : Job) : Prop where
  get : db.jobs.get id = some row
  done : data.Done env column row
  free : name_taken db.jobs row = false
  asked : db.AsAsked id up down

section Request

variable {env : Env} {column : JSONBCompat} {db : Chain} {id : JobId} {task_id : TaskId}
  {data : JobUpdate} {up down : Option (List JobId)} {row : Job} {now : Int}

@[simp] theorem JobUpdate.again_id : (data.again env now row).id = row.id := by
  unfold JobUpdate.again
  split <;> rfl

/-- The row is the same but for its schedule. -/
theorem JobUpdate.again_butSchedule : (data.again env now row).ButSchedule row := by
  refine ⟨JobUpdate.again_id, fun c hfire hstamp => ?_⟩
  unfold JobUpdate.again
  split
  · rfl
  · cases c <;> first | rfl | exact absurd rfl hfire | exact absurd rfl hstamp

/-- The row, flushed. -/
theorem update_renewed {jobs : Table Job} (hget : jobs.get row.id = some row)
    (hfree : name_taken jobs row = false) {job : Job}
    (hjob : job = { row with next_fire_at := data.renewed env now row }) :
    JobRepository.update jobs now row job = some (jobs.set (data.again env now row)) := by
  unfold JobUpdate.again
  by_cases hkept : data.renewed env now row = row.next_fire_at
  · have hclean : job = row := by rw [hjob, hkept]
    rw [if_pos hkept, JobRepository.update, if_pos hclean, Table.set_of_get hget]
  · have hdirty : job ≠ row := fun heq =>
      hkept ((congrArg Job.next_fire_at hjob).symm.trans (congrArg Job.next_fire_at heq))
    have hflush : Job.flush now row job row = { job with updated_at := now } := by
      rw [Job.flush_loaded now row job (by rw [hjob]), if_neg hdirty, if_pos (by rw [hjob])]
    have htaken : name_taken jobs { job with updated_at := now } = false := by
      rw [← hfree]
      exact name_taken_congr (by rw [hjob]) (by rw [hjob])
    rw [if_neg hkept, JobRepository.update, if_neg hdirty, hget]
    simp only [hflush]
    rw [if_pos htaken, hjob]

/-- The request has nothing to do but to renew the schedule. -/
theorem update_job_again (h : db.Settled env column id data up down row) (now : Int)
    (task_id : TaskId) :
    update_job env column .single { db with now := now } id task_id data up down =
      ⟨{ db with now := now, jobs := db.jobs.set (data.again env now row) }, .ok ()⟩ := by
  have hid : row.id = id := Table.key_of_get h.get
  obtain ⟨job, hrow, hassigned⟩ := h.done.again now
  have hasked : ({ db with now := now } : Chain).AsAsked id up down :=
    ⟨h.asked.members, h.asked.irrefl, h.asked.acyclic⟩
  have hsession : (RoutingSession.fresh.loads [row]).identity_map ≠ [] := by
    simp [RoutingSession.loads]
  have hcommit : Chain.commit_dependencies _ id (DependencyRequest.update_job up down).checks _ _ =
      .ok _ := hasked.commit (db.jobs.set (data.again env now row))
  have hget : (db.jobs.set (data.again env now row)).get id = some (data.again env now row) := by
    rw [Table.get_set, key_job, JobUpdate.again_id, hid, if_pos rfl, h.get]
    rfl
  have henabled : (data.again env now row).enabled = row.enabled :=
    JobUpdate.again_butSchedule.val .enabled (by decide) (by decide)
  unfold update_job Chain.get_job
  simp only [Servers.select_single, h.get, hrow, Servers.jobs_by_id_loaded hsession,
    update_renewed (hid ▸ h.get) h.free hassigned]
  rw [Chain.assigned] at hcommit
  rw [hcommit]
  simp only [Chain.refresh_and_dispatch, hget, henabled, Bool.not_and_self]
  rfl

/-- The request, in what comes after it, has left the tables of the update. -/
theorem Chain.Settled.of_tables {db' : Chain} (h : db.Settled env column id data up down row)
    (hjobs : db'.jobs = db.jobs) (hdeps : db'.job_dependencies = db.job_dependencies) :
    db'.Settled env column id data up down row where
  get := hjobs ▸ h.get
  done := h.done
  free := hjobs ▸ h.free
  asked := ⟨hjobs ▸ hdeps ▸ h.asked.members, h.asked.irrefl, hdeps ▸ h.asked.acyclic⟩

/-- An update that has succeeded has settled what it asks for. -/
theorem settled_of_update
    (hname : ∀ row, db.jobs.get id = some row → name_taken db.jobs row = false)
    (hok : (update_job env column .single db id task_id data up down).result = .ok ()) :
    ∃ row, (update_job env column .single db id task_id data up down).db.Settled env column id
      data up down row := by
  obtain ⟨loaded, job, jobs, db₁, row, hget, hrow, hupdate, hcommit, hread, heq⟩ :=
    update_job_ok hok
  rw [Servers.select_single] at hget
  have hid : loaded.id = id := Table.key_of_get hget
  have hrowid : row.id = id := Table.key_of_get hread
  have hjobs : db₁.jobs = jobs := by rw [(Chain.commit_dependencies_ok hcommit).1]
  obtain ⟨row', hread', hval⟩ := Chain.row_of_update hget hupdate
  obtain rfl : row = row' := by
    rw [hjobs] at hread
    exact Option.some.inj (hread.symm.trans hread')
  have hfree : name_taken db.jobs row = false := by
    have hrowname : row.name = (job.assigned column loaded).name :=
      hval .name fun h => by cases h
    have hsame : row.id = loaded.id := hrowid.trans hid.symm
    have hsome := Option.isSome_of_eq_some hupdate
    rcases (JobRepository.update_isSome (hid ▸ hget)).mp hsome with hclean | hfree
    · rw [← hname loaded hget]
      exact name_taken_congr hsame (hrowname.trans (congrArg Job.name hclean))
    · rw [← hfree]
      refine name_taken_congr (hsame.trans (Job.flush_id _ _ _ _).symm) (hrowname.trans ?_)
      exact ((Job.val_flush db.now loaded (job.assigned column loaded) loaded (c := .name)
        fun h => by cases h).trans (emit_loaded _ _)).symm
  have hsettled : db₁.Settled env column id data up down row := {
    get := hread
    done := (update_job_row_ok hrow).done hval
    free := by
      rw [hjobs, (JobRepository.update_beside hupdate).taken row (hrowid.trans hid.symm), hfree]
    asked := Chain.asAsked_of_commit hcommit (fun k => Chain.update_keeps hupdate)
      (hget ▸ Option.some_ne_none _) }
  refine ⟨row, ?_⟩
  rw [heq]
  split
  · exact hsettled.of_tables Chain._dispatch_if_one_time_jobs
      Chain._dispatch_if_one_time_dependencies
  · exact hsettled

end Request

/-! ## Again and again -/

/-- What else may happen to the database: anything that leaves the job as it is, but for its
schedule, its name to it, and its dependencies. -/
structure Chain.Leaves (id : JobId) (up down : Option (List JobId)) (db db' : Chain) : Prop where
  row : ∀ row, db.jobs.get id = some row →
    ∃ row', db'.jobs.get id = some row' ∧ row'.ButSchedule row ∧
      (name_taken db.jobs row = false → name_taken db'.jobs row' = false)
  dependencies : ∀ e : Dependency, e.1 = id ∨ e.2 = id →
    (e ∈ db'.job_dependencies ↔ e ∈ db.job_dependencies)
  /-- the jobs that the lists name -/
  named : ∀ (side : Side) job_ids, side.pick up down = some job_ids → ∀ other ∈ job_ids,
    (db'.jobs.get other = none ↔ db.jobs.get other = none)
  acyclic : id ∉ get_all_descendants db.job_dependencies id →
    id ∉ get_all_descendants db'.job_dependencies id

inductive Chain.RepeatLabel where
  /-- the request once more -/
  | again (now : Int) (task_id : TaskId)
  | other

/-- The request is sent again, or something else happens. -/
inductive Chain.Repeats (env : Env) (column : JSONBCompat) (id : JobId) (data : JobUpdate)
    (up down : Option (List JobId)) : Chain → Chain.RepeatLabel → Chain → Prop
  | again {db : Chain} {now : Int} {task_id : TaskId} :
      Repeats env column id data up down db (.again now task_id)
        (update_job env column .single { db with now := now } id task_id data up down).db
  | other {db db' : Chain} : db.Leaves id up down db' →
      Repeats env column id data up down db .other db'

section Repeats

variable {env : Env} {column : JSONBCompat} {db s s' : Chain} {id : JobId} {task_id : TaskId}
  {data : JobUpdate} {up down : Option (List JobId)} {row : Job} {l : Chain.RepeatLabel}

theorem Chain.Leaves.asked (h : s.Leaves id up down s') (hasked : s.AsAsked id up down) :
    s'.AsAsked id up down := by
  refine ⟨fun side job_ids hpick other => ?_, hasked.irrefl,
    fun hchecks => h.acyclic (hasked.acyclic hchecks)⟩
  rw [h.dependencies _ (by cases side <;> simp [Side.row]), hasked.members side job_ids hpick]
  refine and_congr_left' (and_congr_right fun hother => ?_)
  exact not_congr (h.named side job_ids hpick other hother).symm

/-- So does a row that has been renewed. -/
theorem Chain.Settled.renewed (h : s.Settled env column id data up down row) (now : Int) :
    Chain.Settled env column id data up down
      { s with now := now, jobs := s.jobs.set (data.again env now row) }
      (data.again env now row) := by
  have hid : row.id = id := Table.key_of_get h.get
  have hrow : (data.again env now row).ButSchedule row := JobUpdate.again_butSchedule
  have hget : ∀ k, (s.jobs.set (data.again env now row)).get k = none ↔ s.jobs.get k = none := by
    intro k
    rw [Table.get_set]
    split
    · exact Option.map_eq_none_iff
    · exact Iff.rfl
  refine ⟨?_, h.done.of_butSchedule hrow, ?_, fun side job_ids hpick other => ?_, h.asked.irrefl,
    h.asked.acyclic⟩
  · show (s.jobs.set (data.again env now row)).get id = _
    rw [Table.get_set, key_job, JobUpdate.again_id, hid, if_pos rfl, h.get]
    rfl
  · show name_taken (s.jobs.set (data.again env now row)) (data.again env now row) = false
    rw [beside_set.taken (data.again env now row) rfl, ← h.free]
    exact name_taken_congr hrow.id (hrow.val .name (by decide) (by decide))
  · rw [h.asked.members side job_ids hpick]
    exact and_congr_left' (and_congr_right fun _ => not_congr (hget other).symm)

/-- One step leaves all settled. -/
theorem Chain.Settled.step (h : s.Settled env column id data up down row)
    (hstep : Chain.Repeats env column id data up down s l s') :
    ∃ row', s'.Settled env column id data up down row' ∧ row'.ButSchedule row := by
  cases hstep with
  | @again now task_id =>
      rw [update_job_again h]
      exact ⟨data.again env now row, h.renewed now, JobUpdate.again_butSchedule⟩
  | other hleaves =>
      obtain ⟨row', hget', hrow, hfree⟩ := hleaves.row row h.get
      exact ⟨row', ⟨hget', h.done.of_butSchedule hrow, hfree h.free,
        hleaves.asked h.asked⟩, hrow⟩

theorem Job.ButSchedule.trans {a b c : Job} (hab : a.ButSchedule b) (hbc : b.ButSchedule c) :
    a.ButSchedule c :=
  ⟨hab.id.trans hbc.id, fun col hfire hstamp =>
    (hab.val col hfire hstamp).trans (hbc.val col hfire hstamp)⟩

/-- So does a run. -/
theorem Chain.Settled.run (h : Run (Chain.Repeats env column id data up down) Any db s)
    (hdb : db.Settled env column id data up down row) :
    ∃ row', s.Settled env column id data up down row' ∧ row'.ButSchedule row := by
  refine h.invariant (I := fun s => ∃ row', s.Settled env column id data up down row' ∧
    row'.ButSchedule row) (fun hi _ hstep => ?_) ⟨row, hdb, rfl, fun _ _ _ => rfl⟩
  obtain ⟨row₁, hsettled, hrow₁⟩ := hi
  obtain ⟨row₂, hsettled₂, hrow₂⟩ := hsettled.step hstep
  exact ⟨row₂, hsettled₂, hrow₂.trans hrow₁⟩

end Repeats

/-- **A PUT may be repeated**, by sessions that read the primary.  An update has succeeded on a
database where no other job has the name of this one.  After it, the same request is sent any
number of times, at any time, and anything else happens that leaves the job, its name, its
dependencies and the jobs the request names alone and makes no cycle through it.  In every state
there is by then the row is the one the update has left but for its schedule, and the request once
more succeeds, starts no task, and changes nothing but the firing of a row whose cron expression the
payload names, which is that expression's first after the request, and the stamp of a row that gets
another firing. -/
theorem repeats_change_nothing (env : Env) (column : JSONBCompat) {db : Chain} {id : JobId}
    {task_id : TaskId} {data : JobUpdate} {up down : Option (List JobId)}
    (hname : ∀ row, db.jobs.get id = some row → name_taken db.jobs row = false)
    (hok : (update_job env column .single db id task_id data up down).result = .ok ()) :
    ∃ row, (update_job env column .single db id task_id data up down).db.jobs.get id = some row ∧
      ∀ s, Run (Chain.Repeats env column id data up down) Any
        (update_job env column .single db id task_id data up down).db s →
        ∃ row', s.jobs.get id = some row' ∧ row'.ButSchedule row ∧
          ∀ now task_id,
            update_job env column .single { s with now := now } id task_id data up down =
              ⟨{ s with now := now, jobs := s.jobs.set (data.again env now row') }, .ok ()⟩ := by
  obtain ⟨row, hsettled⟩ := settled_of_update hname hok
  refine ⟨row, hsettled.get, fun s hrun => ?_⟩
  obtain ⟨row', hsettled', hrow'⟩ := Chain.Settled.run hrun hsettled
  exact ⟨row', hsettled'.get, hrow', update_job_again hsettled'⟩

/-- A job is given a cron expression and two upstreams. -/
def example_put : JobUpdate := { name := .value "z", cron_expression := .value "* * * * *" }

/-- The request is sent again a minute later. -/
theorem repeats_change_nothing_again : ∃ s row,
    Run (Chain.Repeats example_env .json 3 example_put (some [1, 2]) none) Any
      (update_job example_env .json .single example_db 3 1 example_put (some [1, 2]) none).db s ∧
    s.jobs.get 3 = some row ∧ row.next_fire_at = some (seconds 120) ∧
    ∀ now task_id, update_job example_env .json .single { s with now := now } 3 task_id example_put
      (some [1, 2]) none =
        ⟨{ s with now := now, jobs := s.jobs.set (example_put.again example_env now row) },
          .ok ()⟩ := by
  have hname : ∀ row, example_db.jobs.get 3 = some row →
      name_taken example_db.jobs row = false := by
    rintro row ⟨⟩
    decide
  obtain ⟨_, _, hall⟩ := repeats_change_nothing example_env .json hname
    (rfl : (update_job example_env .json .single example_db 3 1 example_put (some [1, 2])
      none).result = .ok ())
  have hrun : Run (Chain.Repeats example_env .json 3 example_put (some [1, 2]) none) Any
      (update_job example_env .json .single example_db 3 1 example_put (some [1, 2]) none).db _ :=
    .single (l := .again (seconds 61) 2) trivial .again
  obtain ⟨row, hget, _, hagain⟩ := hall _ hrun
  refine ⟨_, row, hrun, hget, ?_, hagain⟩
  cases hget
  rfl

end Dass
