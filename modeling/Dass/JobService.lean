/-
# `Dass.JobService` — the commands of the API on `jobs`

`create_job`, `update_job` and `delete_job` of
`backend/app/services/job_service.py`, on the columns of `jobs`.  A payload
field is *unset*, an explicit *null*, or a *value* (`model_dump(exclude_unset=True)`
tells the first two apart); a null assigned to a `NOT NULL` column is only
found out at the flush, which rejects the request.

What a deployment brings to these functions is an `Env`: croniter, the pydantic
schemas of the two action types, and the compilation of an action into a
container spec.  Nothing proved about schedules depends on the last two, so
they stay arbitrary functions here.
-/
import Dass.JobRepository
import Mathlib.Algebra.Ring.Int.Defs

namespace Dass

/-! ## The environment -/

/-- croniter.  `get_next` answers the first firing strictly after its base time, and
cron expressions have no field below the second. -/
structure Croniter where
  is_valid : String → Bool
  get_next : String → Int → Int
  lt_get_next : ∀ expression base, base < get_next expression base
  whole : ∀ expression base, seconds 1 ∣ get_next expression base

/-- Why a request is rejected. -/
inductive RequestError where
  | http (status_code : Nat) (detail : String)
  | validation
  | integrity
deriving DecidableEq

/-- What the functions of the service take from their deployment. -/
structure Env where
  croniter : Croniter
  schema_accepts : ActionType → Json → Bool
  build_runtime_spec : ActionType → Json → Except RequestError Json

/-- `next_cron_time` of `utils/cron.py`. -/
def next_cron_time (env : Env) (expression : String) (base_time : Int) : Int :=
  env.croniter.get_next expression base_time

theorem lt_next_cron_time (env : Env) (expression : String) (base_time : Int) :
    base_time < next_cron_time env expression base_time :=
  env.croniter.lt_get_next expression base_time

/-! ## The schedule of a job -/

/-- The characters `str.strip` removes. -/
def isSpace (c : Char) : Bool :=
  let n := c.toNat
  (9 ≤ n && n ≤ 13) || (28 ≤ n && n ≤ 32) || n = 0x85 || n = 0xa0 || n = 0x1680 ||
    (0x2000 ≤ n && n ≤ 0x200a) || n = 0x2028 || n = 0x2029 || n = 0x202f || n = 0x205f ||
    n = 0x3000

/-- `str.strip`. -/
def strip (s : String) : String :=
  String.ofList ((s.toList.dropWhile isSpace).reverse.dropWhile isSpace).reverse

/-- `(raw_cron or "").strip() or None`. -/
def cron_or_none (raw_cron : Option String) : Option String :=
  let cron := strip (raw_cron.getD "")
  if cron = "" then none else some cron

/-- `_resolve_schedule`: `(job_type, cron_expression, next_fire_at)`. -/
def _resolve_schedule (env : Env) (now : Int) (raw_cron : Option String) :
    Except RequestError (JobType × Option String × Option Int) :=
  match cron_or_none raw_cron with
  | none => .ok (.normal, none, none)
  | some cron =>
      if env.croniter.is_valid cron then
        .ok (.scheduled, some cron, some (next_cron_time env cron now))
      else .error (.http 422 "Invalid cron expression")

/-! ## Commands -/

/-- The scalar fields of `JobCreate`. -/
structure JobCreate where
  name : String
  cron_expression : Option String
  action_type : ActionType
  action_config : Json
  enabled : Bool
  concurrency_policy : ConcurrencyPolicy
  max_retries : Nat

/-- A field of a partial update. -/
inductive Field (α : Type) where
  | unset
  | null
  | value (v : α)

/-- What a field leaves in a column that was `old`; `none` is SQL null. -/
def Field.apply {α : Type} (old : α) : Field α → Option α
  | .unset => some old
  | .null => none
  | .value v => some v

/-- The same for a `NOT NULL` column. -/
def Field.column {α : Type} (f : Field α) (old : α) : Except RequestError α :=
  match f.apply old with
  | some v => .ok v
  | none => .error .integrity

theorem Field.apply_of_column {α : Type} {f : Field α} {old v : α} (h : f.column old = .ok v) :
    f.apply old = some v := by
  cases f with
  | unset => exact congrArg some (Except.ok.inj h)
  | null => cases h
  | value new => exact congrArg some (Except.ok.inj h)

/-- The scalar fields of `JobUpdate`. -/
structure JobUpdate where
  name : Field String := .unset
  cron_expression : Field String := .unset
  action_type : Field ActionType := .unset
  action_config : Field Json := .unset
  enabled : Field Bool := .unset
  concurrency_policy : Field ConcurrencyPolicy := .unset
  max_retries : Field Nat := .unset

/-- The row `create_job` inserts. -/
def create_job_row (env : Env) (now : Int) (id : JobId) (payload : JobCreate) :
    Except RequestError Job := do
  let (job_type, cron, next_fire_at) ← _resolve_schedule env now payload.cron_expression
  let runtime_spec ← env.build_runtime_spec payload.action_type payload.action_config
  return {
    id := id
    name := payload.name
    job_type := job_type
    cron_expression := cron
    action_type := payload.action_type
    action_config := payload.action_config
    runtime_spec := some runtime_spec
    enabled := payload.enabled
    concurrency_policy := payload.concurrency_policy
    max_retries := payload.max_retries
    next_fire_at := next_fire_at
    created_at := now
    updated_at := now }

/-- The schedule columns after an update: re-resolved if `cron_expression` is in the
payload, an explicit null included. -/
def updated_schedule (env : Env) (now : Int) (job : Job) :
    Field String → Except RequestError (JobType × Option String × Option Int)
  | .unset => .ok (job.job_type, job.cron_expression, job.next_fire_at)
  | .null => _resolve_schedule env now none
  | .value cron => _resolve_schedule env now (some cron)

/-- `runtime_spec` after an update: re-derived whenever either input is in the payload. -/
def updated_runtime_spec (env : Env) (job : Job) (data : JobUpdate) :
    Except RequestError (Option Json) :=
  match data.action_type, data.action_config with
  | .unset, .unset => .ok job.runtime_spec
  | action_type, action_config =>
      match action_type.apply job.action_type, action_config.apply job.action_config with
      | none, _ => .error (.http 422 "Unsupported action_type: None")
      | some _, none => .error .validation
      | some action_type, some action_config =>
          if env.schema_accepts action_type action_config then
            (env.build_runtime_spec action_type action_config).map some
          else .error .validation

/-- The object `update_job` hands to the repository. -/
def update_job_row (env : Env) (now : Int) (job : Job) (data : JobUpdate) :
    Except RequestError Job := do
  let (job_type, cron, next_fire_at) ← updated_schedule env now job data.cron_expression
  let runtime_spec ← updated_runtime_spec env job data
  let name ← data.name.column job.name
  let action_type ← data.action_type.column job.action_type
  let action_config ← data.action_config.column job.action_config
  let enabled ← data.enabled.column job.enabled
  let concurrency_policy ← data.concurrency_policy.column job.concurrency_policy
  let max_retries ← data.max_retries.column job.max_retries
  return { job with
    name, job_type, cron_expression := cron, action_type, action_config, runtime_spec
    enabled, concurrency_policy, max_retries, next_fire_at }

/-- A request that writes `jobs`. -/
inductive ApiOp where
  | create_job (id : JobId) (payload : JobCreate)
  | update_job (id : JobId) (data : JobUpdate)
  | delete_job (id : JobId)

/-- The table a request commits, executed at one instant; `none` is a rejection, which
commits nothing. -/
def ApiOp.commit (env : Env) (now : Int) (jobs : Table Job) : ApiOp → Option (Table Job)
  | .create_job id payload =>
      match create_job_row env now id payload with
      | .error _ => none
      | .ok job => JobRepository.create jobs job
  | .update_job id data =>
      match jobs.get id with
      | none => none
      | some job =>
          match update_job_row env now job data with
          | .error _ => none
          | .ok assigned => JobRepository.update jobs now job assigned
  | .delete_job id =>
      match jobs.get id with
      | none => none
      | some _ => some (JobRepository.delete jobs id)

/-! ## What a request does to the table -/

/-- A request that goes through has gone through every step before. -/
theorem ok_of_bind {ε α β : Type} {x : Except ε α} {f : α → Except ε β} {b : β}
    (h : (x >>= f) = .ok b) : ∃ a, x = .ok a ∧ f a = .ok b := by
  cases x with
  | error e => cases h
  | ok a => exact ⟨a, rfl, h⟩

/-- A request is rejected by no other than one of its steps. -/
theorem bind_ne_error {ε α β : Type} {x : Except ε α} {f : α → Except ε β} {e : ε}
    (hx : x ≠ .error e) (hf : ∀ a, f a ≠ .error e) : (x >>= f) ≠ .error e := by
  cases x with
  | error e' =>
      intro h
      cases h
      exact hx rfl
  | ok a => exact hf a

/-- What a create makes of its payload. -/
structure CreatesRow (env : Env) (now : Int) (id : JobId) (payload : JobCreate) (job : Job) :
    Prop where
  id : job.id = id
  name : job.name = payload.name
  schedule : _resolve_schedule env now payload.cron_expression =
    .ok (job.job_type, job.cron_expression, job.next_fire_at)
  action_type : job.action_type = payload.action_type
  action_config : job.action_config = payload.action_config
  runtime_spec : ∃ spec, env.build_runtime_spec payload.action_type payload.action_config = .ok spec ∧
    job.runtime_spec = some spec
  enabled : job.enabled = payload.enabled
  concurrency_policy : job.concurrency_policy = payload.concurrency_policy
  max_retries : job.max_retries = payload.max_retries
  created_at : job.created_at = now
  updated_at : job.updated_at = now

/-- The spec lemma of `create_job_row`. -/
theorem create_job_row_ok {env : Env} {now : Int} {id : JobId} {payload : JobCreate} {job : Job}
    (h : create_job_row env now id payload = .ok job) : CreatesRow env now id payload job := by
  obtain ⟨⟨job_type, cron, next_fire_at⟩, hschedule, h⟩ := ok_of_bind h
  obtain ⟨spec, hspec, h⟩ := ok_of_bind h
  cases h
  exact ⟨rfl, rfl, hschedule, rfl, rfl, ⟨spec, hspec, rfl⟩, rfl, rfl, rfl, rfl, rfl⟩

theorem create_job_row_stamp {env : Env} {now : Int} {id : JobId} {payload : JobCreate}
    {job : Job} (h : create_job_row env now id payload = .ok job) :
    job.id = id ∧ job.updated_at = now :=
  ⟨(create_job_row_ok h).id, (create_job_row_ok h).updated_at⟩

/-- What an update makes of the object it has loaded. -/
structure UpdatesRow (env : Env) (now : Int) (job : Job) (data : JobUpdate) (assigned : Job) :
    Prop where
  id : assigned.id = job.id
  name : data.name.column job.name = .ok assigned.name
  schedule : updated_schedule env now job data.cron_expression =
    .ok (assigned.job_type, assigned.cron_expression, assigned.next_fire_at)
  action_type : data.action_type.column job.action_type = .ok assigned.action_type
  action_config : data.action_config.column job.action_config = .ok assigned.action_config
  runtime_spec : updated_runtime_spec env job data = .ok assigned.runtime_spec
  enabled : data.enabled.column job.enabled = .ok assigned.enabled
  concurrency_policy :
    data.concurrency_policy.column job.concurrency_policy = .ok assigned.concurrency_policy
  max_retries : data.max_retries.column job.max_retries = .ok assigned.max_retries
  created_at : assigned.created_at = job.created_at
  updated_at : assigned.updated_at = job.updated_at

/-- The spec lemma of `update_job_row`. -/
theorem update_job_row_ok {env : Env} {now : Int} {job assigned : Job} {data : JobUpdate}
    (h : update_job_row env now job data = .ok assigned) :
    UpdatesRow env now job data assigned := by
  obtain ⟨⟨job_type, cron, next_fire_at⟩, hschedule, h⟩ := ok_of_bind h
  obtain ⟨runtime_spec, hspec, h⟩ := ok_of_bind h
  obtain ⟨name, hname, h⟩ := ok_of_bind h
  obtain ⟨action_type, htype, h⟩ := ok_of_bind h
  obtain ⟨action_config, hconfig, h⟩ := ok_of_bind h
  obtain ⟨enabled, henabled, h⟩ := ok_of_bind h
  obtain ⟨concurrency_policy, hpolicy, h⟩ := ok_of_bind h
  obtain ⟨max_retries, hretries, h⟩ := ok_of_bind h
  cases h
  exact ⟨rfl, hname, hschedule, htype, hconfig, hspec, henabled, hpolicy, hretries, rfl, rfl⟩

/-- An update assigns neither the key nor the stamp. -/
theorem update_job_row_stamp {env : Env} {now : Int} {job assigned : Job} {data : JobUpdate}
    (h : update_job_row env now job data = .ok assigned) :
    assigned.id = job.id ∧ assigned.updated_at = job.updated_at :=
  ⟨(update_job_row_ok h).id, (update_job_row_ok h).updated_at⟩

/-- **What a committed request leaves in a row**: it is gone, it is untouched, or it
carries the stamp of the request. -/
theorem ApiOp.commit_row {env : Env} {now : Int} {jobs jobs' : Table Job} {op : ApiOp}
    (h : op.commit env now jobs = some jobs') {id : JobId} {row : Job}
    (hrow : jobs'.get id = some row) :
    jobs.get id = some row ∨ row.updated_at = now := by
  cases op with
  | create_job k payload =>
      simp only [ApiOp.commit] at h
      split at h
      · cases h
      · next job hjob =>
          obtain ⟨_, hstamp⟩ := create_job_row_stamp hjob
          rw [JobRepository.get_create h] at hrow
          split at hrow
          · cases hrow
            exact .inr hstamp
          · exact .inl hrow
  | update_job k data =>
      simp only [ApiOp.commit] at h
      split at h
      · cases h
      · next job hjob =>
          split at h
          · cases h
          · next assigned hassigned =>
              obtain ⟨hid, hstamp⟩ := update_job_row_stamp hassigned
              rw [JobRepository.get_update h] at hrow
              have hk : job.id = k := Table.key_of_get hjob
              split at hrow
              · next heq =>
                  rw [← heq, hk, hjob] at hrow
                  simp only [Option.map_some, Option.some.injEq] at hrow
                  rw [Job.flush_loaded now job assigned hid] at hrow
                  by_cases hc : assigned = job
                  · subst hc
                    left
                    rw [← heq, hk, hjob, ← hrow]
                    simp
                  · right
                    rw [← hrow]
                    simp [hc, hstamp]
              · exact .inl hrow
  | delete_job k =>
      simp only [ApiOp.commit] at h
      split at h
      · cases h
      · cases h
        simp only [JobRepository.delete, Table.get_erase] at hrow
        split at hrow
        · cases hrow
        · exact .inl hrow

/-- Only a delete takes a row away. -/
theorem ApiOp.commit_keeps {env : Env} {now : Int} {jobs jobs' : Table Job} (op : ApiOp)
    (hdelete : ∀ id, op ≠ .delete_job id) (h : op.commit env now jobs = some jobs') {id : JobId}
    (hjob : jobs.get id ≠ none) : jobs'.get id ≠ none := by
  cases op with
  | create_job k payload =>
      simp only [ApiOp.commit] at h
      split at h
      · cases h
      · rw [JobRepository.get_create h]
        split
        · exact Option.some_ne_none _
        · exact hjob
  | update_job k data =>
      simp only [ApiOp.commit] at h
      split at h
      · cases h
      · split at h
        · cases h
        · rw [JobRepository.get_update h]
          split
          · rwa [Ne, Option.map_eq_none_iff]
          · exact hjob
  | delete_job k => exact absurd rfl (hdelete k)

/-! ## A deployment to run examples in -/

/-- croniter on `"* * * * *"`. -/
def every_minute : Croniter where
  is_valid expression := expression = "* * * * *"
  get_next _ base := (base / seconds 60 + 1) * seconds 60
  lt_get_next _ base := by
    show base < (base / (60 * 1000000) + 1) * (60 * 1000000)
    omega
  whole _ base := by
    show (1 * 1000000 : Int) ∣ (base / (60 * 1000000) + 1) * (60 * 1000000)
    omega

/-- `{"command": "true"}`. -/
def example_config : Json := .obj (.cons "command" (.str "true") .nil)

/-- What `_build_runtime_spec` makes of it. -/
def example_spec : Json :=
  .obj (.cons "image" (.str "alpine:3")
    (.cons "command" (.arr (.cons (.str "sh") (.cons (.str "-c") (.cons (.str "true") .nil))))
      (.cons "env" (.obj .nil)
        (.cons "timeout_seconds" (.num 30 0) .nil))))

/-- A deployment in which every job runs `true` once a minute. -/
def example_env : Env where
  croniter := every_minute
  schema_accepts _ _ := true
  build_runtime_spec _ _ := .ok example_spec

/-- `POST /api/v1/jobs` with a cron expression. -/
def example_payload : JobCreate where
  name := "every-minute"
  cron_expression := some "* * * * *"
  action_type := .shell
  action_config := example_config
  enabled := true
  concurrency_policy := .allow
  max_retries := 0

/-- The table after that request, made at time 0. -/
def example_jobs : Table Job :=
  ((ApiOp.create_job 1 example_payload).commit example_env 0 .empty).getD .empty

/-- The same without one: it runs once, right away. -/
def example_one_time : JobCreate := { example_payload with cron_expression := none }

/-- The job whose runs are not to overlap. -/
def example_forbid : JobCreate := { example_payload with concurrency_policy := .forbid }

/-- Three jobs, to be wired as the two upstreams of the third. -/
def example_trio : Table Job :=
  ([(1, "a"), (2, "b"), (3, "c")].foldlM (fun jobs p =>
    (ApiOp.create_job p.1 { example_one_time with name := p.2 }).commit example_env 0 jobs)
    .empty).getD .empty

end Dass
