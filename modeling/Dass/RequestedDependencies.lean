/-
# `Dass.RequestedDependencies` — which of the requested dependencies are stored

A payload lists the upstreams and the downstreams of its job by id.  `_jobs_by_id` asks
for the rows with those ids and gets the ones there are; an id without a row is not an
error, it is just not among them.  So the request succeeds with fewer edges than it was
asked for, and where no upstream is left a one-time job runs at once
(`unknown_upstream_dropped`).

The rows there are depends on where the lookup goes: the ids of a new job may be looked
up in a replica that has not heard of them yet.
-/
import Dass.JobRequests

namespace Dass

/-- The committed members of the relationship are those listed. -/
def Chain.Stores (db : Chain) (side : Side) (id : JobId) (job_ids : List JobId) : Prop :=
  ∀ other, side.row id other ∈ db.job_dependencies ↔ other ∈ job_ids

/-- What a create leaves is what it was asked for, and a job that was given upstreams waits
for them. -/
structure CreatedAsRequested (before after : Chain) (id : JobId) (payload : JobCreate)
    (upstream_job_ids downstream_job_ids : List JobId) : Prop where
  stores : ∀ side : Side, after.Stores side id (side.pick upstream_job_ids downstream_job_ids)
  waits : cron_or_none payload.cron_expression = none → upstream_job_ids ≠ [] →
    after.tasks = before.tasks ∧ after.normal_queue = before.normal_queue

/-- The lists of an update's payload are what it leaves. -/
def UpdatedAsRequested (after : Chain) (id : JobId)
    (upstream_job_ids downstream_job_ids : Option (List JobId)) : Prop :=
  ∀ (side : Side) job_ids, side.pick upstream_job_ids downstream_job_ids = some job_ids →
    after.Stores side id job_ids

/-- Every listed id is a job of the table, other than the one that is written. -/
def Found (jobs : Table Job) (id : JobId) (job_ids : List JobId) : Prop :=
  ∀ other ∈ job_ids, jobs.get other ≠ none ∧ other ≠ id

instance (jobs : Table Job) (id : JobId) (job_ids : List JobId) : Decidable (Found jobs id job_ids) :=
  inferInstanceAs (Decidable (∀ other ∈ job_ids, _))

section Create

variable {env : Env} {column : JSONBCompat} {servers : Servers} {db : Chain} {id : JobId}
  {task_id : TaskId} {payload : JobCreate} {up down : List JobId}

/-- The members of the new job's relationships. -/
theorem create_job_members (hdb : db.ForeignKeys)
    (h : (create_job env column servers db id task_id payload up down).result = .ok ())
    (side : Side) (other : JobId) :
    side.row id other ∈
        (create_job env column servers db id task_id payload up down).db.job_dependencies ↔
      (other ∈ side.pick up down ∧ (servers.create_lookup db.jobs up side).get other ≠ none) ∧
        other ≠ id := by
  obtain ⟨job, jobs, db₁, hrow, hcreate, hcommit, heq⟩ := create_job_ok h
  have hid : (job.inserted column).id = id := (create_job_row_stamp hrow).1
  have hnew : db.jobs.get id = none := hid ▸ (JobRepository.create_eq_some hcreate).1
  rw [heq, Chain._dispatch_if_one_time_dependencies]
  exact Chain.create_members hdb hnew hcommit side other

/-- A new job that has an upstream is not enqueued. -/
theorem create_job_waits (hdb : db.ForeignKeys)
    (h : (create_job env column servers db id task_id payload up down).result = .ok ())
    {other : JobId} (hup : (other, id) ∈
      (create_job env column servers db id task_id payload up down).db.job_dependencies) :
    (create_job env column servers db id task_id payload up down).db.tasks = db.tasks ∧
    (create_job env column servers db id task_id payload up down).db.normal_queue
      = db.normal_queue := by
  obtain ⟨job, jobs, db₁, hrow, hcreate, hcommit, heq⟩ := create_job_ok h
  have hid : (job.inserted column).id = id := (create_job_row_stamp hrow).1
  rw [heq, Chain._dispatch_if_one_time_dependencies] at hup
  have hforeign : db₁.ForeignKeys :=
    Chain.commit_foreignKeys hdb (fun _ hk => Chain.create_keeps hcreate hk) hcommit
  have hnot : ¬ db₁.DispatchesOneTime (job.inserted column) := by
    rintro ⟨_, _, hnone⟩
    rw [hid] at hnone
    exact (Chain.upstream_jobs_eq_nil hforeign).mp hnone other hup
  rw [heq, Chain._dispatch_if_one_time_eq, if_neg hnot]
  obtain ⟨rfl, _, _⟩ := Chain.commit_dependencies_ok hcommit
  exact ⟨rfl, rfl⟩

theorem created_as_requested_iff (hdb : db.ForeignKeys)
    (h : (create_job env column servers db id task_id payload up down).result = .ok ()) :
    CreatedAsRequested db (create_job env column servers db id task_id payload up down).db id
        payload up down ↔
      ∀ side : Side, Found (servers.create_lookup db.jobs up side) id (side.pick up down) := by
  have hmembers := create_job_members hdb h
  constructor
  · intro hstored side other hother
    obtain ⟨⟨_, hfound⟩, hne⟩ :=
      (hmembers side other).mp ((hstored.stores side other).mpr hother)
    exact ⟨hfound, hne⟩
  · intro hfound
    have hstores : ∀ side : Side,
        (create_job env column servers db id task_id payload up down).db.Stores side id
          (side.pick up down) := by
      intro side other
      refine (hmembers side other).trans ⟨fun hmem => hmem.1.1, fun hother => ?_⟩
      obtain ⟨hget, hne⟩ := hfound side other hother
      exact ⟨⟨hother, hget⟩, hne⟩
    refine ⟨hstores, fun _ hup => ?_⟩
    obtain ⟨other, hother⟩ := List.exists_mem_of_ne_nil _ hup
    exact create_job_waits hdb h ((hstores .upstream_jobs other).mpr hother)

end Create

section Update

variable {env : Env} {column : JSONBCompat} {servers : Servers} {db : Chain} {id : JobId}
  {task_id : TaskId} {data : JobUpdate} {up down : Option (List JobId)}

/-- The members of the job's relationships after an update. -/
theorem update_job_members
    (h : (update_job env column servers db id task_id data up down).result = .ok ())
    (side : Side) (other : JobId) :
    side.row id other ∈
        (update_job env column servers db id task_id data up down).db.job_dependencies ↔
      other ∈ db.members_after side id (side.pick up down) (side.pick down up) := by
  obtain ⟨loaded, job, jobs, db₁, row, _, _, _, hcommit, _, heq⟩ := update_job_ok h
  have hdeps : (update_job env column servers db id task_id data up down).db.job_dependencies
      = db₁.job_dependencies := by
    rw [heq]
    split
    · exact Chain._dispatch_if_one_time_dependencies
    · rfl
  rw [hdeps]
  exact Chain.update_members hcommit side other

theorem updated_as_requested_iff
    (h : (update_job env column servers db id task_id data up down).result = .ok ()) :
    UpdatedAsRequested (update_job env column servers db id task_id data up down).db id up down ↔
      ∀ (side : Side) job_ids, side.pick up down = some job_ids → Found db.jobs id job_ids := by
  have hmembers := update_job_members h
  refine forall_congr' fun side => forall_congr' fun job_ids => imp_congr_right fun hpick => ?_
  have hmem : ∀ other, other ∈ db.members_after side id (side.pick up down) (side.pick down up) ↔
      (other ∈ job_ids ∧ db.jobs.get other ≠ none) ∧ other ≠ id := by
    intro other
    rw [Chain.mem_members_after, hpick]
    simp
  constructor
  · intro hstored other hother
    obtain ⟨⟨_, hfound⟩, hne⟩ :=
      (hmem other).mp ((hmembers side other).mp ((hstored other).mpr hother))
    exact ⟨hfound, hne⟩
  · intro hfound other
    refine ((hmembers side other).trans (hmem other)).trans ⟨fun hmem => hmem.1.1, fun hother => ?_⟩
    obtain ⟨hget, hne⟩ := hfound other hother
    exact ⟨⟨hother, hget⟩, hne⟩

end Update

/-- **Requested dependencies are stored exactly if they are found.**  Whatever is in the
database and in the replica, a create that succeeds leaves its job with the dependencies
it asked for, and not enqueued if it asked for upstreams, exactly if each id it names is a
row where the lookup goes (the replica, until something has been loaded from it) and not
the job's own.  The same holds of an update and the lists in its payload, on the primary. -/
theorem requested_dependencies (env : Env) (column : JSONBCompat) (servers : Servers)
    (db : Chain) (hdb : db.ForeignKeys) (id : JobId) (task_id : TaskId) :
    (∀ payload up down,
      (create_job env column servers db id task_id payload up down).result = .ok () →
      (CreatedAsRequested db (create_job env column servers db id task_id payload up down).db id
          payload up down ↔
        ∀ side : Side, Found (servers.create_lookup db.jobs up side) id (side.pick up down))) ∧
    ∀ data up down,
      (update_job env column servers db id task_id data up down).result = .ok () →
      (UpdatedAsRequested (update_job env column servers db id task_id data up down).db id up
          down ↔
        ∀ (side : Side) job_ids, side.pick up down = some job_ids → Found db.jobs id job_ids) :=
  ⟨fun _ _ _ h => created_as_requested_iff hdb h, fun _ _ _ h => updated_as_requested_iff h⟩

/-- Three one-time jobs without dependencies. -/
def example_db : Chain where
  now := 0
  jobs := example_trio
  job_dependencies := []
  tasks := .empty
  normal_queue := []

/-- A job is created with two upstreams that are there, and waits for them. -/
theorem requested_dependencies_found :
    (create_job example_env .json .single example_db 4 1 { example_one_time with name := "d" }
      [1, 2] []).result = .ok () ∧
    CreatedAsRequested example_db (create_job example_env .json .single example_db 4 1
      { example_one_time with name := "d" } [1, 2] []).db 4
      { example_one_time with name := "d" } [1, 2] [] := by
  have hok : (create_job example_env .json .single example_db 4 1
      { example_one_time with name := "d" } [1, 2] []).result = .ok () := rfl
  refine ⟨hok, ((requested_dependencies example_env .json .single example_db nofun 4 1).1 _ _ _
    hok).mpr fun side => ?_⟩
  cases side <;> decide

/-- A job is created with an upstream that is not there: it has none, and runs at once. -/
theorem unknown_upstream_dropped :
    (create_job example_env .json .single example_db 4 1 { example_one_time with name := "d" }
      [9] []).result = .ok () ∧
    (create_job example_env .json .single example_db 4 1 { example_one_time with name := "d" }
      [9] []).db.normal_queue = [1] ∧
    ¬ CreatedAsRequested example_db (create_job example_env .json .single example_db 4 1
      { example_one_time with name := "d" } [9] []).db 4
      { example_one_time with name := "d" } [9] [] := by
  refine ⟨rfl, rfl, fun hcreated => ?_⟩
  have hstored := (hcreated.stores .upstream_jobs 9).mpr (by decide)
  exact absurd hstored (by decide)

end Dass
