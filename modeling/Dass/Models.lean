/-
# `Dass.Models` — the rows of `jobs` and `tasks`

A *job* is a definition, a *task* one run of it.  The two records below carry
every column of `backend/app/models/job.py` and `backend/app/models/task.py`;
the enumerated columns, which the source keeps as strings, are inductive types
here, and the `GUID` primary keys are the 128-bit numbers they print.  Their
canonical text orders as the number does, which the scheduler's heap relies on
when two entries share a firing time.

Instants are `Int`s, microseconds since the epoch: the resolution of Python's
`datetime` and of PostgreSQL's `timestamptz`.
-/
import Dass.Lib.Table
import Mathlib.Data.Int.Order.Basic

namespace Dass

/-! ## Scalars -/

/-- A span of `n` seconds. -/
def seconds (n : Int) : Int := n * 1000000

abbrev JobId := Nat
abbrev TaskId := Nat

/-- A row of `job_dependencies` is its two ids. -/
instance : LawfulBEq (JobId × JobId) := inferInstance

/-- `settings.worker_id`; nothing makes it unique among workers. -/
abbrev WorkerId := String

mutual
/-- A JSON value, as an `action_config` or a `runtime_spec` holds it.  The number
`num m e` is `m / 10 ^ e`. -/
inductive Json where
  | null
  | bool (b : Bool)
  | num (m : Int) (e : Nat)
  | str (s : String)
  | arr (items : JsonItems)
  | obj (fields : JsonFields)
/-- The elements of an array. -/
inductive JsonItems where
  | nil
  | cons (head : Json) (tail : JsonItems)
/-- The members of an object, in insertion order. -/
inductive JsonFields where
  | nil
  | cons (name : String) (value : Json) (tail : JsonFields)
end

deriving instance DecidableEq for Json, JsonItems, JsonFields

/-- `job_type`: cron-driven, or one-time. -/
inductive JobType where
  | scheduled | normal
deriving DecidableEq

inductive ActionType where
  | http | shell
deriving DecidableEq

inductive ConcurrencyPolicy where
  | allow | forbid | replace
deriving DecidableEq

/-- `failed` records one attempt; `final_failed` is where a job gave up. -/
inductive TaskStatus where
  | pending | running | success | failed | final_failed
deriving DecidableEq

inductive TriggerType where
  | manual | scheduled | dependency
deriving DecidableEq

/-- The statuses whose message a worker drops (`process_task_id_async`). -/
def TaskStatus.terminal : TaskStatus → Bool
  | .success | .failed | .final_failed => true
  | .pending | .running => false

/-! ## `jobs` -/

/-- A row of `jobs`. -/
structure Job where
  id : JobId
  name : String
  job_type : JobType
  cron_expression : Option String
  action_type : ActionType
  action_config : Json
  runtime_spec : Option Json
  enabled : Bool
  concurrency_policy : ConcurrencyPolicy
  max_retries : Nat
  next_fire_at : Option Int
  created_at : Int
  updated_at : Int
deriving DecidableEq

instance : HasKey Job JobId := ⟨Job.id⟩

@[simp] theorem key_job (job : Job) : key job = job.id := rfl

/-- The columns of `jobs` besides the primary key. -/
inductive Column where
  | name | job_type | cron_expression | action_type | action_config | runtime_spec
  | enabled | concurrency_policy | max_retries | next_fire_at | created_at | updated_at
deriving DecidableEq

/-- What a column holds. -/
def Column.Val : Column → Type
  | .name => String
  | .job_type => JobType
  | .cron_expression => Option String
  | .action_type => ActionType
  | .action_config => Json
  | .runtime_spec => Option Json
  | .enabled => Bool
  | .concurrency_policy => ConcurrencyPolicy
  | .max_retries => Nat
  | .next_fire_at => Option Int
  | .created_at => Int
  | .updated_at => Int

/-- The value a row has in a column. -/
def Job.val (job : Job) : (c : Column) → c.Val
  | .name => job.name
  | .job_type => job.job_type
  | .cron_expression => job.cron_expression
  | .action_type => job.action_type
  | .action_config => job.action_config
  | .runtime_spec => job.runtime_spec
  | .enabled => job.enabled
  | .concurrency_policy => job.concurrency_policy
  | .max_retries => job.max_retries
  | .next_fire_at => job.next_fire_at
  | .created_at => job.created_at
  | .updated_at => job.updated_at

/-! ## `tasks` -/

/-- A row of `tasks`. -/
structure Task where
  id : TaskId
  job_id : JobId
  status : TaskStatus
  trigger_type : TriggerType
  retry_count : Nat
  locked_by : Option WorkerId
  locked_until : Option Int
  started_at : Option Int
  finished_at : Option Int
  stdout : Option String
  stderr : Option String
  created_at : Int
  processed_for_chaining : Bool
deriving DecidableEq

instance : HasKey Task TaskId := ⟨Task.id⟩

@[simp] theorem key_task (task : Task) : key task = task.id := rfl

/-- `Task(job_id=…, status="pending", trigger_type=…, retry_count=…)` as the insert
stores it: the id is the client-side uuid4, `created_at` the server default. -/
def Task.fresh (id : TaskId) (job_id : JobId) (trigger_type : TriggerType)
    (retry_count : Nat) (created_at : Int) : Task where
  id := id
  job_id := job_id
  status := .pending
  trigger_type := trigger_type
  retry_count := retry_count
  locked_by := none
  locked_until := none
  started_at := none
  finished_at := none
  stdout := none
  stderr := none
  created_at := created_at
  processed_for_chaining := false

end Dass
