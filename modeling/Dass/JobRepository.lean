/-
# `Dass.JobRepository` — reading and writing `jobs`

`backend/app/repositories/job_repository.py`, with what SQLAlchemy does beneath
it spelled out.  `create` and `update` commit, and a commit flushes: an `INSERT`
sends every column, an `UPDATE` the columns whose assigned value differs from
the loaded one (`Job.flush`).  `updated_at` has `onupdate=func.now()`, which the
`UPDATE` uses unless the column is itself among those it sends.  That exception
matters to a writer that puts back a copy of the row taken earlier.

`none` is an exception: a taken primary key or name (`uq_jobs_name`), or an
`UPDATE` by primary key that matches no row.
-/
import Dass.Lib.Orm
import Dass.Models

namespace Dass

open Orm

instance : (c : Column) → DecidableEq c.Val
  | .name => inferInstanceAs (DecidableEq String)
  | .job_type => inferInstanceAs (DecidableEq JobType)
  | .cron_expression => inferInstanceAs (DecidableEq (Option String))
  | .action_type => inferInstanceAs (DecidableEq ActionType)
  | .action_config => inferInstanceAs (DecidableEq Json)
  | .runtime_spec => inferInstanceAs (DecidableEq (Option Json))
  | .enabled => inferInstanceAs (DecidableEq Bool)
  | .concurrency_policy => inferInstanceAs (DecidableEq ConcurrencyPolicy)
  | .max_retries => inferInstanceAs (DecidableEq Nat)
  | .next_fire_at => inferInstanceAs (DecidableEq (Option Int))
  | .created_at => inferInstanceAs (DecidableEq Int)
  | .updated_at => inferInstanceAs (DecidableEq Int)

/-! ## Flushing one row -/

/-- The row after the flush of an object `loaded` earlier and `assigned` since, onto
the row now `stored`.  An object nobody assigned sends no `UPDATE` at all. -/
def Job.flush (now : Int) (loaded assigned stored : Job) : Job :=
  if assigned = loaded then stored else
    { id := stored.id
      name := emit loaded.name assigned.name stored.name
      job_type := emit loaded.job_type assigned.job_type stored.job_type
      cron_expression :=
        emit loaded.cron_expression assigned.cron_expression stored.cron_expression
      action_type := emit loaded.action_type assigned.action_type stored.action_type
      action_config := emit loaded.action_config assigned.action_config stored.action_config
      runtime_spec := emit loaded.runtime_spec assigned.runtime_spec stored.runtime_spec
      enabled := emit loaded.enabled assigned.enabled stored.enabled
      concurrency_policy :=
        emit loaded.concurrency_policy assigned.concurrency_policy stored.concurrency_policy
      max_retries := emit loaded.max_retries assigned.max_retries stored.max_retries
      next_fire_at := emit loaded.next_fire_at assigned.next_fire_at stored.next_fire_at
      created_at := emit loaded.created_at assigned.created_at stored.created_at
      updated_at :=
        if assigned.updated_at = loaded.updated_at then now else assigned.updated_at }

@[simp] theorem Job.flush_id (now : Int) (loaded assigned stored : Job) :
    (Job.flush now loaded assigned stored).id = stored.id := by
  unfold Job.flush
  split <;> rfl

/-- Every column but `updated_at` follows the rule of a single column. -/
theorem Job.val_flush (now : Int) (loaded assigned stored : Job) {c : Column}
    (hc : c ≠ .updated_at) :
    (Job.flush now loaded assigned stored).val c
      = emit (loaded.val c) (assigned.val c) (stored.val c) := by
  unfold Job.flush
  split
  · next h => rw [h, emit_clean]
  · cases c <;> first | rfl | exact absurd rfl hc

/-- Flushed with no write in between, every column takes the assigned value. -/
theorem Job.flush_loaded (now : Int) (loaded assigned : Job) (hid : assigned.id = loaded.id) :
    Job.flush now loaded assigned loaded =
      { assigned with
        updated_at :=
          if assigned = loaded then loaded.updated_at
          else if assigned.updated_at = loaded.updated_at then now else assigned.updated_at } := by
  unfold Job.flush
  split
  · next h => subst h; rfl
  · simp [hid]

/-! ## Writes -/

/-- `uq_jobs_name`: another row has the name. -/
def name_taken (jobs : Table Job) (job : Job) : Bool :=
  jobs.rows.any fun row => row.id ≠ job.id && row.name = job.name

/-- `JobRepository.create`, up to the commit. -/
def JobRepository.create (jobs : Table Job) (job : Job) : Option (Table Job) :=
  if jobs.get job.id = none ∧ name_taken jobs job = false then some (jobs.add job) else none

/-- `JobRepository.update`, up to the commit. -/
def JobRepository.update (jobs : Table Job) (now : Int) (loaded assigned : Job) :
    Option (Table Job) :=
  if assigned = loaded then some jobs else
    match jobs.get loaded.id with
    | none => none
    | some stored =>
        let row := Job.flush now loaded assigned stored
        if name_taken jobs row = false then some (jobs.set row) else none

/-- `JobRepository.delete`. -/
def JobRepository.delete (jobs : Table Job) (id : JobId) : Table Job := jobs.erase id

/-- The commit of an object that `Session.merge` copied onto the row it `loaded`, or
onto a new row where it loaded none. -/
def commit_merged (jobs : Table Job) (now : Int) (loaded : Option Job) (assigned : Job) :
    Option (Table Job) :=
  match loaded with
  | some row => JobRepository.update jobs now row assigned
  | none => JobRepository.create jobs assigned

theorem JobRepository.create_eq_some {jobs jobs' : Table Job} {job : Job}
    (h : JobRepository.create jobs job = some jobs') :
    jobs.get job.id = none ∧ jobs' = jobs.add job := by
  unfold JobRepository.create at h
  split at h
  · next hc => exact ⟨hc.1, (Option.some.inj h).symm⟩
  · cases h

/-- What an update leaves in the table: nothing changed, or the one row flushed. -/
theorem JobRepository.update_eq_some {jobs jobs' : Table Job} {now : Int}
    {loaded assigned : Job} (h : JobRepository.update jobs now loaded assigned = some jobs') :
    (assigned = loaded ∧ jobs' = jobs) ∨
    (assigned ≠ loaded ∧ ∃ stored, jobs.get loaded.id = some stored ∧
      jobs' = jobs.set (Job.flush now loaded assigned stored)) := by
  unfold JobRepository.update at h
  split at h
  · next hc => exact .inl ⟨hc, (Option.some.inj h).symm⟩
  · next hc =>
      split at h
      · cases h
      · next stored hs =>
          simp only at h
          split at h
          · exact .inr ⟨hc, stored, hs, (Option.some.inj h).symm⟩
          · cases h

/-- The rows after an update, by primary key. -/
theorem JobRepository.get_update {jobs jobs' : Table Job} {now : Int}
    {loaded assigned : Job} (h : JobRepository.update jobs now loaded assigned = some jobs')
    (k : JobId) :
    jobs'.get k = if loaded.id = k
      then (jobs.get k).map (Job.flush now loaded assigned) else jobs.get k := by
  rcases JobRepository.update_eq_some h with ⟨rfl, hj⟩ | ⟨_, stored, hs, rfl⟩
  · subst hj
    split
    · cases hk : jobs'.get k <;> simp [Job.flush]
    · rfl
  · have hid : stored.id = loaded.id := Table.key_of_get hs
    rw [Table.get_set]
    simp only [key_job, Job.flush_id, hid]
    split
    · next hk => subst hk; rw [hs]; rfl
    · rfl

theorem JobRepository.get_create {jobs jobs' : Table Job} {job : Job}
    (h : JobRepository.create jobs job = some jobs') (k : JobId) :
    jobs'.get k = if job.id = k then some job else jobs.get k := by
  obtain ⟨hn, rfl⟩ := JobRepository.create_eq_some h
  exact Table.get_add hn k

/-! ## Reads -/

/-- `JobRepository.list_updated_since`. -/
def list_updated_since (jobs : Table Job) (since : Option Int) : List Job :=
  jobs.rows.filter fun job =>
    job.job_type = .scheduled && (match since with
      | none => true
      | some t => t ≤ job.updated_at)

theorem mem_list_updated_since {jobs : Table Job} {since : Option Int} {job : Job} :
    job ∈ list_updated_since jobs since ↔
      jobs.get job.id = some job ∧ job.job_type = .scheduled ∧
        ∀ t, since = some t → t ≤ job.updated_at := by
  rw [show jobs.get job.id = some job ↔ job ∈ jobs.rows from
    ⟨Table.mem_of_get, Table.get_of_mem⟩]
  cases since <;> simp [list_updated_since]

/-- The query answers each job at most once. -/
theorem list_updated_since_inj {jobs : Table Job} {since : Option Int} {a b : Job}
    (ha : a ∈ list_updated_since jobs since) (hb : b ∈ list_updated_since jobs since)
    (h : a.id = b.id) : a = b := by
  have h₁ := (mem_list_updated_since.mp ha).1
  have h₂ := (mem_list_updated_since.mp hb).1
  exact Table.eq_of_get h₂ (Table.mem_of_get h₁) h

end Dass
