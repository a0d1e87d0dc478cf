/-
# `Dass.JobRequests` — the commands of the API, with everything they read and write

`JobService` of `backend/app/services/job_service.py` on the whole database: a request
loads its job, changes the columns its payload names, looks up the jobs that are to be
its upstreams and downstreams, has its dependencies checked, commits, reads the row back
and may enqueue a run.  Requests are executed one at a time here, so each is one function.

What is not one is where a request reads.  Its session is a `RoutingSession` that has
loaded nothing: the first `SELECT` may go to a replica, and what that returns is any
table (`Servers`).  Once an instance is loaded, everything is read from the primary.

    create_job    the first lookup of ids that finds nothing leaves the next one to the
                  replica as well
    update_job    the job itself; the lookups go to the primary
    delete_job    the job itself
    trigger_job   the job itself

Writes go to the primary.  A rejected request leaves what was committed before it.
-/
import Dass.JSONBCompat
import Dass.JobService
import Dass.RoutingSession
import Dass.DependencyGraph
import Dass.DependencyScheduler

namespace Dass

/-! ## Reading -/

/-- A `SELECT` of a request that may go to the replica. -/
inductive Lookup where
  | get_job
  | jobs_by_id (side : Side)

/-- What the `SELECT`s of a request run into. -/
structure Servers where
  engines : Engines
  /-- `jobs` as the replica has it by then -/
  replica : Lookup → Table Job
  /-- what the probe has found -/
  available : Lookup → Bool

/-- There is no replica. -/
def Servers.single : Servers := ⟨⟨false⟩, fun _ => .empty, fun _ => true⟩

/-- The table a `SELECT` of the session reads. -/
def Servers.select (servers : Servers) (session : RoutingSession) (lookup : Lookup)
    (primary : Table Job) : Table Job :=
  match session.get_bind servers.engines false .select (servers.available lookup) with
  | .primary => primary
  | .replica => servers.replica lookup

/-- The session has loaded the jobs, and the request keeps them. -/
def RoutingSession.loads (session : RoutingSession) (jobs : List Job) : RoutingSession :=
  { session with identity_map := session.identity_map ++ jobs.map Job.id }

/-- `_jobs_by_id`. -/
def _jobs_by_id (jobs : Table Job) (job_ids : List JobId) : List Job :=
  jobs.rows.filter fun job => job.id ∈ job_ids

/-- The ids of `_jobs_by_id`, for each relationship the request assigns. -/
def Servers.jobs_by_id (servers : Servers) (primary : Table Job) :
    RoutingSession → List (Side × List JobId) → List (Side × List JobId)
  | _, [] => []
  | session, (side, job_ids) :: todo =>
      let jobs := _jobs_by_id (servers.select session (.jobs_by_id side) primary) job_ids
      (side, jobs.map Job.id) :: servers.jobs_by_id primary (session.loads jobs) todo

/-- The relationships are assigned, one after the other. -/
def Assigned.assign_all (job_id : JobId) (loaded : Side → List Dependency)
    (chosen : List (Side × List JobId)) : Assigned :=
  chosen.foldl (fun a p => a.assign p.1 job_id (loaded p.1) p.2) ⟨[], []⟩

/-! ## Requests -/

/-- What a request leaves, and whether it succeeded. -/
structure Response where
  db : Chain
  result : Except RequestError Unit

namespace Chain

/-- The flush of the dependencies, beside the row that is in `jobs` by now,
`_assert_acyclic`, and the commit. -/
def commit_dependencies (db : Chain) (job_id : JobId) (checks : Bool) (jobs : Table Job)
    (a : Assigned) : Except RequestError Chain :=
  if a.inserted.any fun e => jobs.get e.1 = none || jobs.get e.2 = none then .error .integrity
  else
    let rows := a.apply db.job_dependencies
    if checks = true ∧ job_id ∈ get_all_descendants rows job_id then
      .error (.http 422 "Circular dependency detected")
    else .ok { db with jobs := jobs, job_dependencies := rows }

/-- `_enqueue_task`. -/
def _enqueue_task (db : Chain) (job_id : JobId) (task_id : TaskId) : Response :=
  if db.jobs.get job_id = none then ⟨db, .error .integrity⟩ else
    match TaskRepository.create db.tasks (.fresh task_id job_id .manual 0 db.now) with
    | none => ⟨db, .error .integrity⟩
    | some tasks =>
        ⟨{ db with tasks := tasks, normal_queue := db.normal_queue ++ [task_id] }, .ok ()⟩

/-- `_dispatch_if_one_time`. -/
def _dispatch_if_one_time (db : Chain) (job : Job) (task_id : TaskId) : Response :=
  if job.job_type = .normal ∧ job.enabled = true ∧ db.upstream_jobs job.id = [] then
    db._enqueue_task job.id task_id
  else ⟨db, .ok ()⟩

/-- The refresh after the commit, and the dispatch if the row read back calls for it. -/
def refresh_and_dispatch (db : Chain) (job_id : JobId) (dispatches : Job → Bool)
    (task_id : TaskId) : Response :=
  match db.jobs.get job_id with
  | none => ⟨db, .error .integrity⟩
  | some job => if dispatches job then db._dispatch_if_one_time job task_id else ⟨db, .ok ()⟩

/-- `get_job`. -/
def get_job (db : Chain) (servers : Servers) (job_id : JobId) : Except RequestError Job :=
  match (servers.select .fresh .get_job db.jobs).get job_id with
  | none => .error (.http 404 "Job not found")
  | some job => .ok job

end Chain

section Commands

variable (env : Env) (column : JSONBCompat) (servers : Servers) (db : Chain)

/-- `create_job`; the ids are those of the job and of the task it may enqueue. -/
def create_job (id : JobId) (task_id : TaskId) (payload : JobCreate)
    (upstream_job_ids downstream_job_ids : List JobId) : Response :=
  match create_job_row env db.now id payload with
  | .error e => ⟨db, .error e⟩
  | .ok job =>
      let request := DependencyRequest.create_job upstream_job_ids downstream_job_ids
      let a := Assigned.assign_all id (fun _ => [])
        (servers.jobs_by_id db.jobs .fresh request.assigns)
      match JobRepository.create db.jobs (job.inserted column) with
      | none => ⟨db, .error .integrity⟩
      | some jobs =>
          match db.commit_dependencies id request.checks jobs a with
          | .error e => ⟨db, .error e⟩
          | .ok db => db.refresh_and_dispatch id (fun _ => true) task_id

/-- `update_job`. -/
def update_job (id : JobId) (task_id : TaskId) (data : JobUpdate)
    (upstream_job_ids downstream_job_ids : Option (List JobId)) : Response :=
  match db.get_job servers id with
  | .error e => ⟨db, .error e⟩
  | .ok loaded =>
      match update_job_row env db.now loaded data with
      | .error e => ⟨db, .error e⟩
      | .ok job =>
          let request := DependencyRequest.update_job upstream_job_ids downstream_job_ids
          let a := Assigned.assign_all id (fun side => side.rows id db.job_dependencies)
            (servers.jobs_by_id db.jobs (RoutingSession.fresh.loads [loaded]) request.assigns)
          match JobRepository.update db.jobs db.now loaded (job.assigned column loaded) with
          | none => ⟨db, .error .integrity⟩
          | some jobs =>
              match db.commit_dependencies id request.checks jobs a with
              | .error e => ⟨db, .error e⟩
              | .ok db =>
                  db.refresh_and_dispatch id (fun job => !loaded.enabled && job.enabled) task_id

/-- `delete_job`: its tasks and dependencies go with it. -/
def delete_job (id : JobId) : Response :=
  match db.get_job servers id with
  | .error e => ⟨db, .error e⟩
  | .ok _ =>
      ⟨{ db with
          jobs := JobRepository.delete db.jobs id
          job_dependencies := db.job_dependencies.filter fun e => e.1 ≠ id ∧ e.2 ≠ id
          tasks := db.tasks.filter fun task => task.job_id ≠ id }, .ok ()⟩

/-- `trigger_job`. -/
def trigger_job (id : JobId) (task_id : TaskId) : Response :=
  match db.get_job servers id with
  | .error e => ⟨db, .error e⟩
  | .ok _ => db._enqueue_task id task_id

end Commands

/-! ## What is read -/

theorem mem_jobs_by_id {jobs : Table Job} {job_ids : List JobId} {id : JobId} :
    id ∈ (_jobs_by_id jobs job_ids).map Job.id ↔ id ∈ job_ids ∧ jobs.get id ≠ none := by
  simp only [_jobs_by_id, List.mem_map, List.mem_filter, decide_eq_true_eq]
  constructor
  · rintro ⟨job, ⟨hmem, hid⟩, rfl⟩
    rw [← key_job, Table.get_of_mem hmem]
    exact ⟨hid, Option.some_ne_none _⟩
  · rintro ⟨hid, hget⟩
    obtain ⟨job, hjob⟩ := Option.ne_none_iff_exists'.mp hget
    have hkey : job.id = id := Table.key_of_get hjob
    exact ⟨job, ⟨Table.mem_of_get hjob, hkey ▸ hid⟩, hkey⟩

/-- A session that has loaded something reads from the primary. -/
theorem Servers.select_loaded {servers : Servers} {session : RoutingSession} {lookup : Lookup}
    {primary : Table Job} (h : session.identity_map ≠ []) :
    servers.select session lookup primary = primary := by
  simp [Servers.select, RoutingSession.get_bind, h]

@[simp] theorem Servers.select_single {session : RoutingSession} {lookup : Lookup}
    {primary : Table Job} : Servers.single.select session lookup primary = primary := by
  simp [Servers.select, RoutingSession.get_bind, Servers.single, Engines._replica_available,
    Engines.replica_engine]

/-- So do its lookups of ids. -/
theorem Servers.jobs_by_id_loaded {servers : Servers} {primary : Table Job}
    {session : RoutingSession} (h : session.identity_map ≠ [])
    (assigns : List (Side × List JobId)) :
    servers.jobs_by_id primary session assigns =
      assigns.map fun p => (p.1, (_jobs_by_id primary p.2).map Job.id) := by
  induction assigns generalizing session with
  | nil => rfl
  | cons p todo ih =>
      obtain ⟨side, job_ids⟩ := p
      have hloads : (session.loads (_jobs_by_id primary job_ids)).identity_map ≠ [] :=
        List.append_ne_nil_of_left_ne_nil h _
      simp only [Servers.jobs_by_id, Servers.select_loaded h, ih hloads, List.map_cons]

/-! ## What is written -/

theorem Assigned.mem_inserted {a : Assigned} {e : Dependency} :
    e ∈ a.inserted ↔ e ∈ a.now ∧ e ∉ a.loaded := by
  simp [Assigned.inserted]

/-- The rows after the writes of a request that has loaded what it replaces. -/
theorem Assigned.mem_apply_iff {a : Assigned} {rows : List Dependency}
    (hloaded : ∀ e ∈ a.loaded, e ∈ rows) {e : Dependency} :
    e ∈ a.apply rows ↔ e ∈ a.now ∨ e ∈ rows ∧ e ∉ a.loaded := by
  simp only [Assigned.apply, List.mem_append, List.mem_filter, Assigned.deleted,
    Assigned.mem_inserted, decide_eq_true_eq]
  have := hloaded e
  tauto

namespace Chain

variable {db db' : Chain} {id : JobId} {task_id : TaskId}

theorem commit_dependencies_ok {checks : Bool} {jobs : Table Job} {a : Assigned}
    (h : db.commit_dependencies id checks jobs a = .ok db') :
    db' = { db with jobs := jobs, job_dependencies := a.apply db.job_dependencies } ∧
    (∀ e ∈ a.inserted, jobs.get e.1 ≠ none ∧ jobs.get e.2 ≠ none) ∧
    (checks = true → id ∉ get_all_descendants (a.apply db.job_dependencies) id) := by
  unfold commit_dependencies at h
  split at h
  · cases h
  · next hforeign =>
      simp only at h
      split at h
      · cases h
      · next hcheck =>
          cases h
          refine ⟨rfl, fun e he => ?_, fun hchecks hcycle => hcheck ⟨hchecks, hcycle⟩⟩
          by_contra hmissing
          refine hforeign (List.any_eq_true.mpr ⟨e, he, ?_⟩)
          simp only [Bool.or_eq_true, decide_eq_true_eq]
          by_contra hboth
          exact hmissing (not_or.mp hboth)

/-- No request that is checked leaves a job downstream of itself. -/
theorem commit_dependencies_irrefl {jobs : Table Job} {a : Assigned}
    (h : db.commit_dependencies id true jobs a = .ok db') :
    (id, id) ∉ db'.job_dependencies := by
  obtain ⟨rfl, _, hcheck⟩ := commit_dependencies_ok h
  intro hself
  exact hcheck rfl (mem_get_all_descendants.mpr (.single hself))

theorem _enqueue_task_ok (h : (db._enqueue_task id task_id).result = .ok ()) :
    ∃ tasks, TaskRepository.create db.tasks (.fresh task_id id .manual 0 db.now) = some tasks ∧
      (db._enqueue_task id task_id).db =
        { db with tasks := tasks, normal_queue := db.normal_queue ++ [task_id] } := by
  unfold _enqueue_task at h ⊢
  split at h
  · cases h
  · next hjob =>
      rw [if_neg hjob]
      split at h
      · cases h
      · next tasks htasks => exact ⟨tasks, htasks, rfl⟩

/-- What `_dispatch_if_one_time` looks for. -/
def DispatchesOneTime (db : Chain) (job : Job) : Prop :=
  job.job_type = .normal ∧ job.enabled = true ∧ db.upstream_jobs job.id = []

instance (db : Chain) (job : Job) : Decidable (db.DispatchesOneTime job) :=
  inferInstanceAs (Decidable (_ ∧ _ ∧ _))

theorem _dispatch_if_one_time_eq (job : Job) : db._dispatch_if_one_time job task_id =
    if db.DispatchesOneTime job then db._enqueue_task job.id task_id else ⟨db, .ok ()⟩ := rfl

/-- With a new id, a task of a job that is there is enqueued. -/
theorem _enqueue_task_new (hjob : db.jobs.get id ≠ none) (hnew : db.tasks.get task_id = none) :
    db._enqueue_task id task_id =
      ⟨{ db with
          tasks := db.tasks.add (.fresh task_id id .manual 0 db.now)
          normal_queue := db.normal_queue ++ [task_id] }, .ok ()⟩ := by
  have hcreate : TaskRepository.create db.tasks (.fresh task_id id .manual 0 db.now)
      = some (db.tasks.add (.fresh task_id id .manual 0 db.now)) := if_pos hnew
  simp only [_enqueue_task, if_neg hjob, hcreate]

/-- A dispatch that succeeds has sent a message exactly if the job called for it. -/
theorem dispatched_iff {job : Job} (h : (db._dispatch_if_one_time job task_id).result = .ok ()) :
    (db._dispatch_if_one_time job task_id).db.normal_queue ≠ db.normal_queue ↔
      db.DispatchesOneTime job := by
  rw [_dispatch_if_one_time_eq] at h ⊢
  split
  · next hd =>
      rw [if_pos hd] at h
      obtain ⟨tasks, _, heq⟩ := _enqueue_task_ok h
      rw [heq]
      exact iff_of_true (by simp) hd
  · next hd => exact iff_of_false (fun hne => hne rfl) hd

end Chain

/-! ## Spec lemmas -/

section Spec

variable {env : Env} {column : JSONBCompat} {servers : Servers} {db : Chain} {id : JobId}
  {task_id : TaskId}

/-- A create is rejected, or its row and its dependencies are committed. -/
theorem create_job_cases {payload : JobCreate} {up down : List JobId} :
    (∃ e, create_job env column servers db id task_id payload up down = ⟨db, .error e⟩) ∨
    ∃ job jobs db₁, create_job_row env db.now id payload = .ok job ∧
      JobRepository.create db.jobs (job.inserted column) = some jobs ∧
      db.commit_dependencies id true jobs (.assign_all id (fun _ => [])
        (servers.jobs_by_id db.jobs .fresh (DependencyRequest.create_job up down).assigns))
        = .ok db₁ ∧
      create_job env column servers db id task_id payload up down
        = db₁._dispatch_if_one_time (job.inserted column) task_id := by
  unfold create_job
  split
  · exact .inl ⟨_, rfl⟩
  · next job hrow =>
      simp only
      split
      · exact .inl ⟨_, rfl⟩
      · next jobs hcreate =>
          split
          · exact .inl ⟨_, rfl⟩
          · next db₁ hcommit =>
              refine .inr ⟨job, jobs, db₁, hrow, hcreate, hcommit, ?_⟩
              obtain ⟨rfl, _, _⟩ := Chain.commit_dependencies_ok hcommit
              have hid : (job.inserted column).id = id := (create_job_row_stamp hrow).1
              have hget : jobs.get id = some (job.inserted column) := by
                rw [JobRepository.get_create hcreate, if_pos hid]
              simp only [Chain.refresh_and_dispatch, hget, if_true]

/-- What a create that succeeds has done. -/
theorem create_job_ok {payload : JobCreate} {up down : List JobId}
    (h : (create_job env column servers db id task_id payload up down).result = .ok ()) :
    ∃ job jobs db₁, create_job_row env db.now id payload = .ok job ∧
      JobRepository.create db.jobs (job.inserted column) = some jobs ∧
      db.commit_dependencies id true jobs (.assign_all id (fun _ => [])
        (servers.jobs_by_id db.jobs .fresh (DependencyRequest.create_job up down).assigns))
        = .ok db₁ ∧
      create_job env column servers db id task_id payload up down
        = db₁._dispatch_if_one_time (job.inserted column) task_id := by
  rcases create_job_cases with ⟨e, he⟩ | hdone
  · rw [he] at h
    cases h
  · exact hdone

/-- An update is rejected, or its row and its dependencies are committed. -/
theorem update_job_cases {data : JobUpdate} {up down : Option (List JobId)} :
    (∃ e, update_job env column servers db id task_id data up down = ⟨db, .error e⟩) ∨
    ∃ loaded job jobs db₁,
      (servers.select .fresh .get_job db.jobs).get id = some loaded ∧
      update_job_row env db.now loaded data = .ok job ∧
      JobRepository.update db.jobs db.now loaded (job.assigned column loaded) = some jobs ∧
      db.commit_dependencies id (up.isSome || down.isSome) jobs
        (.assign_all id (fun side => side.rows id db.job_dependencies)
          ((DependencyRequest.update_job up down).assigns.map fun p =>
            (p.1, (_jobs_by_id db.jobs p.2).map Job.id))) = .ok db₁ ∧
      update_job env column servers db id task_id data up down =
        db₁.refresh_and_dispatch id (fun job => !loaded.enabled && job.enabled) task_id := by
  unfold update_job Chain.get_job
  split
  · exact .inl ⟨_, rfl⟩
  · next loaded hloaded =>
      split at hloaded
      · cases hloaded
      · next hget =>
          cases hloaded
          have hsession : (RoutingSession.fresh.loads [loaded]).identity_map ≠ [] := by
            simp [RoutingSession.loads]
          simp only [Servers.jobs_by_id_loaded hsession]
          split
          · exact .inl ⟨_, rfl⟩
          · next job hrow =>
              split
              · exact .inl ⟨_, rfl⟩
              · next jobs hupdate =>
                  split
                  · exact .inl ⟨_, rfl⟩
                  · next db₁ hcommit =>
                      exact .inr ⟨loaded, job, jobs, db₁, hget, hrow, hupdate, hcommit, rfl⟩

/-- What an update that succeeds has done. -/
theorem update_job_ok {data : JobUpdate} {up down : Option (List JobId)}
    (h : (update_job env column servers db id task_id data up down).result = .ok ()) :
    ∃ loaded job jobs db₁ row,
      (servers.select .fresh .get_job db.jobs).get id = some loaded ∧
      update_job_row env db.now loaded data = .ok job ∧
      JobRepository.update db.jobs db.now loaded (job.assigned column loaded) = some jobs ∧
      db.commit_dependencies id (up.isSome || down.isSome) jobs
        (.assign_all id (fun side => side.rows id db.job_dependencies)
          ((DependencyRequest.update_job up down).assigns.map fun p =>
            (p.1, (_jobs_by_id db.jobs p.2).map Job.id))) = .ok db₁ ∧
      db₁.jobs.get id = some row ∧
      update_job env column servers db id task_id data up down =
        if (!loaded.enabled && row.enabled) = true then db₁._dispatch_if_one_time row task_id
        else ⟨db₁, .ok ()⟩ := by
  rcases update_job_cases with ⟨e, he⟩ | ⟨loaded, job, jobs, db₁, hget, hrow, hupdate, hcommit, heq⟩
  · rw [he] at h
    cases h
  · rw [heq] at h ⊢
    unfold Chain.refresh_and_dispatch at h ⊢
    split at h
    · cases h
    · next row hread =>
        exact ⟨loaded, job, jobs, db₁, row, hget, hrow, hupdate, hcommit, hread, rfl⟩

end Spec

/-! ### The relationships after an update -/

/-- The other end of a row. -/
def Side.other : Side → Dependency → JobId
  | .upstream_jobs, e => e.1
  | .downstream_jobs, e => e.2

/-- The side's list, of the two in a payload. -/
def Side.pick {α : Type} (side : Side) (upstream downstream : α) : α :=
  match side with
  | .upstream_jobs => upstream
  | .downstream_jobs => downstream

/-- The members of a job's relationship after an update.  A list in the payload replaces
them by the jobs it names, of those there are; no list leaves the job itself among them. -/
def Chain.members_after (db : Chain) (side : Side) (id : JobId)
    (mine theirs : Option (List JobId)) : List JobId :=
  let members := match mine with
    | none => (side.rows id db.job_dependencies).map side.other
    | some job_ids => job_ids.filter fun other => db.jobs.get other ≠ none
  if mine.isSome || theirs.isSome then members.filter (· ≠ id) else members

theorem Side.mem_rows {side : Side} {id other : JobId} {rows : List Dependency} :
    other ∈ (side.rows id rows).map side.other ↔ side.row id other ∈ rows := by
  cases side <;> simp [Side.rows, Side.row, Side.other]

theorem Chain.mem_members_after {db : Chain} {side : Side} {id other : JobId}
    {mine theirs : Option (List JobId)} :
    other ∈ db.members_after side id mine theirs ↔
      (match mine with
        | none => side.row id other ∈ db.job_dependencies
        | some job_ids => other ∈ job_ids ∧ db.jobs.get other ≠ none) ∧
      ((mine.isSome || theirs.isSome) = true → other ≠ id) := by
  unfold members_after
  cases mine with
  | none => cases theirs <;> simp [Side.mem_rows]
  | some job_ids =>
      rw [if_pos (by simp), List.mem_filter, List.mem_filter]
      simp

section Rows

variable {side asked : Side} {id other : JobId} {ids : List JobId} {rows : List Dependency}
  {loaded : Side → List Dependency}

theorem Side.row_mem_rows : side.row id other ∈ side.rows id rows ↔ side.row id other ∈ rows := by
  cases side <;> simp [Side.rows, Side.row]

theorem Side.row_mem_map : side.row id other ∈ ids.map (side.row id) ↔ other ∈ ids := by
  cases side <;> simp [Side.row]

@[simp] theorem Side.row_self (side : Side) (id : JobId) : side.row id id = (id, id) := by
  cases side <;> rfl

/-- Only the row of the job with itself is on both sides. -/
theorem Side.row_eq_row (h : asked ≠ side) {a : JobId} :
    asked.row id other = side.row id a ↔ other = id ∧ a = id := by
  cases asked <;> cases side <;> first | exact absurd rfl h | simp [Side.row, eq_comm, and_comm]

theorem Side.row_mem_other_rows (h : asked ≠ side) :
    asked.row id other ∈ side.rows id rows ↔ asked.row id other ∈ rows ∧ other = id := by
  cases asked <;> cases side <;> first | exact absurd rfl h | simp [Side.row, Side.rows]

theorem Side.row_mem_other_map (h : asked ≠ side) :
    asked.row id other ∈ ids.map (side.row id) ↔ other = id ∧ id ∈ ids := by
  rw [List.mem_map]
  constructor
  · rintro ⟨a, ha, hrow⟩
    obtain ⟨rfl, rfl⟩ := (Side.row_eq_row h).mp hrow.symm
    exact ⟨rfl, ha⟩
  · rintro ⟨rfl, hid⟩
    exact ⟨_, hid, by simp⟩

/-- One relationship has been assigned. -/
theorem Assigned.mem_assign_one {a : Assigned} (hrows : ∀ side, loaded side = side.rows id rows)
    (ha : a = .assign_all id loaded [(side, ids)]) (hself : (id, id) ∉ a.apply rows) :
    asked.row id other ∈ a.apply rows ↔
      (if asked = side then other ∈ ids else asked.row id other ∈ rows) ∧ other ≠ id := by
  have hloaded : a.loaded = side.rows id rows := by rw [ha, ← hrows]; rfl
  have hnow : a.now = ids.map (side.row id) := by rw [ha]; rfl
  have hmem : ∀ e, e ∈ a.apply rows ↔ e ∈ a.now ∨ e ∈ rows ∧ e ∉ a.loaded := fun e =>
    mem_apply_iff fun e he => by
      rw [hloaded] at he
      exact List.mem_of_mem_filter he
  have hid : id ∉ ids := by
    intro hid
    refine hself ((hmem _).mpr (.inl ?_))
    rw [hnow, ← Side.row_self side, Side.row_mem_map]
    exact hid
  rw [hmem, hnow, hloaded]
  split
  · next hasked =>
      subst hasked
      rw [Side.row_mem_map, Side.row_mem_rows]
      have : other = id → other ∉ ids := fun h => h ▸ hid
      tauto
  · next hasked =>
      rw [Side.row_mem_other_map hasked, Side.row_mem_other_rows hasked]
      tauto

/-- Both have been assigned.  The first loses the job itself with the second. -/
theorem Assigned.mem_assign_both {up down : List JobId} {a : Assigned}
    (hrows : ∀ side, loaded side = side.rows id rows)
    (ha : a = .assign_all id loaded [(.upstream_jobs, up), (.downstream_jobs, down)])
    (hself : (id, id) ∉ a.apply rows) :
    asked.row id other ∈ a.apply rows ↔ other ∈ asked.pick up down ∧ other ≠ id := by
  have hloaded : a.loaded =
      Side.rows .upstream_jobs id rows ++ Side.rows .downstream_jobs id rows := by
    rw [ha, ← hrows, ← hrows]
    rfl
  have hnow : ∀ e, e ∈ a.now ↔
      (e ∈ up.map (Side.row .upstream_jobs id) ∧
        e ∉ Side.rows .downstream_jobs id (up.map (Side.row .upstream_jobs id))) ∨
      e ∈ down.map (Side.row .downstream_jobs id) := by
    intro e
    simp only [ha, assign_all, List.foldl_cons, List.foldl_nil, assign, List.filter_nil,
      List.nil_append, List.mem_append, List.mem_filter, decide_eq_true_eq]
  have hmem : ∀ e, e ∈ a.apply rows ↔ e ∈ a.now ∨ e ∈ rows ∧ e ∉ a.loaded := fun e =>
    mem_apply_iff fun e he => by
      rw [hloaded] at he
      exact (List.mem_append.mp he).elim List.mem_of_mem_filter List.mem_of_mem_filter
  have hid : id ∉ down := by
    intro hid
    refine hself ((hmem _).mpr (.inl ((hnow _).mpr (.inr ?_))))
    rw [← Side.row_self .downstream_jobs, Side.row_mem_map]
    exact hid
  rw [hmem, hnow, hloaded, List.mem_append]
  cases asked with
  | upstream_jobs =>
      have hne : Side.upstream_jobs ≠ .downstream_jobs := nofun
      rw [Side.row_mem_map, Side.row_mem_rows, Side.row_mem_other_rows hne, Side.row_mem_map,
        Side.row_mem_other_map hne, Side.row_mem_other_rows hne]
      show _ ↔ other ∈ up ∧ other ≠ id
      tauto
  | downstream_jobs =>
      have hne : Side.downstream_jobs ≠ .upstream_jobs := nofun
      rw [Side.row_mem_other_map hne, Side.row_mem_rows, Side.row_mem_other_map hne,
        Side.row_mem_map, Side.row_mem_other_rows hne, Side.row_mem_rows]
      show _ ↔ other ∈ down ∧ other ≠ id
      have : other = id → other ∉ down := fun h => h ▸ hid
      tauto

end Rows

/-- **The relationships after an update that succeeds.** -/
theorem Chain.update_members {db db₁ : Chain} {id : JobId} {jobs : Table Job}
    {up down : Option (List JobId)}
    (h : db.commit_dependencies id (up.isSome || down.isSome) jobs
      (.assign_all id (fun side => side.rows id db.job_dependencies)
        ((DependencyRequest.update_job up down).assigns.map fun p =>
          (p.1, (_jobs_by_id db.jobs p.2).map Job.id))) = .ok db₁) (side : Side) (other : JobId) :
    side.row id other ∈ db₁.job_dependencies ↔
      other ∈ db.members_after side id (side.pick up down) (side.pick down up) := by
  have hself : (up.isSome || down.isSome) = true → (id, id) ∉ db₁.job_dependencies := by
    intro hchecks
    rw [hchecks] at h
    exact commit_dependencies_irrefl h
  obtain ⟨rfl, _, _⟩ := commit_dependencies_ok h
  clear h
  rw [mem_members_after]
  cases up with
  | none =>
      cases down with
      | none =>
          have hnone : (Assigned.assign_all id (fun side => side.rows id db.job_dependencies)
              []).apply db.job_dependencies = db.job_dependencies := by
            simp [Assigned.assign_all, Assigned.apply, Assigned.deleted, Assigned.inserted]
          show side.row id other ∈ Assigned.apply _ _ ↔ _
          rw [show (DependencyRequest.update_job none none).assigns.map _ = [] from rfl, hnone]
          cases side <;> simp [Side.pick]
      | some down =>
          refine (Assigned.mem_assign_one (fun _ => rfl) rfl (hself rfl)).trans ?_
          cases side with
          | upstream_jobs => simp [Side.pick]
          | downstream_jobs => simp only [mem_jobs_by_id, if_true, Side.pick, Option.isSome_some,
              Bool.true_or, forall_const]
  | some up =>
      cases down with
      | none =>
          refine (Assigned.mem_assign_one (fun _ => rfl) rfl (hself rfl)).trans ?_
          cases side with
          | upstream_jobs => simp only [mem_jobs_by_id, if_true, Side.pick, Option.isSome_some,
              Bool.true_or, forall_const]
          | downstream_jobs => simp [Side.pick]
      | some down =>
          refine (Assigned.mem_assign_both (fun _ => rfl) rfl (hself rfl)).trans ?_
          cases side <;> simp only [mem_jobs_by_id, Side.pick, Option.isSome_some, Bool.true_or, forall_const]

/-- What every assignment keeps holds of them all. -/
theorem Assigned.assign_all_induct {P : Assigned → Prop} {id : JobId}
    {loaded : Side → List Dependency} {chosen : List (Side × List JobId)} (nil : P ⟨[], []⟩)
    (assign : ∀ a, P a → ∀ p ∈ chosen, P (a.assign p.1 id (loaded p.1) p.2)) :
    P (.assign_all id loaded chosen) :=
  List.foldlRecOn chosen _ nil assign

/-- What a request loads and assigns are rows of its own job. -/
theorem Assigned.assign_all_local {id : JobId} {loaded : Side → List Dependency}
    (hrows : ∀ side, ∀ e ∈ loaded side, e.1 = id ∨ e.2 = id)
    (chosen : List (Side × List JobId)) :
    (∀ e ∈ (assign_all id loaded chosen).loaded, e.1 = id ∨ e.2 = id) ∧
      (assign_all id loaded chosen).Local id := by
  refine assign_all_induct (P := fun a => (∀ e ∈ a.loaded, e.1 = id ∨ e.2 = id) ∧ a.Local id)
    ⟨nofun, nofun⟩ ?_
  rintro a ⟨hl, hn⟩ p _
  refine ⟨fun e he => ?_, hn.assign _ _ _⟩
  rcases List.mem_append.mp he with hold | hnew
  · exact hl e hold
  · exact hrows _ e hnew

/-- Rows of other jobs stay as they are. -/
theorem Chain.update_elsewhere {db db₁ : Chain} {id : JobId} {checks : Bool} {jobs : Table Job}
    {chosen : List (Side × List JobId)}
    (h : db.commit_dependencies id checks jobs
      (.assign_all id (fun side => side.rows id db.job_dependencies) chosen) = .ok db₁)
    {e : Dependency} (hup : e.1 ≠ id) (hdown : e.2 ≠ id) :
    e ∈ db₁.job_dependencies ↔ e ∈ db.job_dependencies := by
  obtain ⟨rfl, _, _⟩ := commit_dependencies_ok h
  have hrows : ∀ side, ∀ e ∈ Side.rows side id db.job_dependencies, e.1 = id ∨ e.2 = id := by
    intro side e he
    have htouch := (List.mem_filter.mp he).2
    cases side with
    | upstream_jobs => exact .inr (of_decide_eq_true htouch)
    | downstream_jobs => exact .inl (of_decide_eq_true htouch)
  obtain ⟨hloaded, hnow⟩ := Assigned.assign_all_local hrows chosen
  have hout : ¬ (e.1 = id ∨ e.2 = id) := fun h => h.elim hup hdown
  simp only [Assigned.apply, List.mem_append, List.mem_filter, Assigned.deleted,
    Assigned.mem_inserted, decide_eq_true_eq]
  have h₁ : e ∉ (Assigned.assign_all id _ chosen).loaded := fun he => hout (hloaded e he)
  have h₂ : e ∉ (Assigned.assign_all id _ chosen).now := fun he => hout (hnow e he)
  tauto

/-! ### The relationships after a create -/

/-- The constraints of `job_dependencies`. -/
def Chain.ForeignKeys (db : Chain) : Prop :=
  ∀ e ∈ db.job_dependencies, db.jobs.get e.1 ≠ none ∧ db.jobs.get e.2 ≠ none

/-- Where `create_job` looks the ids of a relationship up.  The second lookup goes to the
replica too if the first has loaded nothing. -/
def Servers.create_lookup (servers : Servers) (primary : Table Job) (upstream : List JobId) :
    Side → Table Job
  | .upstream_jobs => servers.select .fresh (.jobs_by_id .upstream_jobs) primary
  | .downstream_jobs =>
      let found := _jobs_by_id (servers.select .fresh (.jobs_by_id .upstream_jobs) primary) upstream
      servers.select (RoutingSession.fresh.loads found) (.jobs_by_id .downstream_jobs) primary

/-- With no upstreams asked for, nothing has been loaded before either lookup. -/
theorem Servers.create_lookup_nil {servers : Servers} {primary : Table Job} {side : Side} :
    servers.create_lookup primary [] side = servers.select .fresh (.jobs_by_id side) primary := by
  cases side with
  | upstream_jobs => rfl
  | downstream_jobs => simp [create_lookup, _jobs_by_id, RoutingSession.loads, RoutingSession.fresh]

/-- The rows of a new job. -/
theorem Assigned.mem_apply_new {a : Assigned} {id : JobId} {rows : List Dependency}
    (hloaded : a.loaded = []) (hnew : ∀ e ∈ rows, e.1 ≠ id ∧ e.2 ≠ id) {side : Side}
    {other : JobId} : side.row id other ∈ a.apply rows ↔ side.row id other ∈ a.apply [] := by
  have hrow : side.row id other ∉ rows := by
    intro hmem
    obtain ⟨h₁, h₂⟩ := hnew _ hmem
    exact Side.touches.elim h₁ h₂
  rw [mem_apply_iff (by simp [hloaded]), mem_apply_iff (by simp [hloaded])]
  simp [hrow]

theorem Assigned.assign_all_loaded {id : JobId} {chosen : List (Side × List JobId)} :
    (assign_all id (fun _ => []) chosen).loaded = [] := by
  refine assign_all_induct (P := fun a => a.loaded = []) rfl fun a ha p _ => ?_
  simp [assign, ha]

/-- **The relationships after a create that succeeds.** -/
theorem Chain.create_members {servers : Servers} {db db₁ : Chain} {id : JobId}
    {jobs : Table Job} {up down : List JobId} (hdb : db.ForeignKeys)
    (hnew : db.jobs.get id = none)
    (h : db.commit_dependencies id true jobs (.assign_all id (fun _ => [])
      (servers.jobs_by_id db.jobs .fresh (DependencyRequest.create_job up down).assigns))
      = .ok db₁) (side : Side) (other : JobId) :
    side.row id other ∈ db₁.job_dependencies ↔ (other ∈ side.pick up down ∧
      (servers.create_lookup db.jobs up side).get other ≠ none) ∧ other ≠ id := by
  have hself : (id, id) ∉ db₁.job_dependencies := commit_dependencies_irrefl h
  obtain ⟨rfl, _, _⟩ := commit_dependencies_ok h
  have hrows : ∀ e ∈ db.job_dependencies, e.1 ≠ id ∧ e.2 ≠ id := by
    intro e he
    obtain ⟨h₁, h₂⟩ := hdb e he
    exact ⟨fun heq => h₁ (heq ▸ hnew), fun heq => h₂ (heq ▸ hnew)⟩
  -- a new job has loaded what an empty table would have given it
  have hloaded : ∀ side : Side, ([] : List Dependency) = side.rows id [] := fun _ => rfl
  have happly : ∀ other, side.row id other ∈ (Assigned.assign_all id (fun _ => [])
      (servers.jobs_by_id db.jobs .fresh (DependencyRequest.create_job up down).assigns)).apply
        db.job_dependencies ↔ _ := fun other =>
    Assigned.mem_apply_new Assigned.assign_all_loaded hrows
  have hself' := mt (happly id).mpr (by simpa using hself)
  rw [Side.row_self] at hself'
  refine (happly other).trans ?_
  clear happly hself h
  cases up with
  | nil =>
      cases down with
      | nil =>
          cases side <;>
            simp [DependencyRequest.assigns, Servers.jobs_by_id, Assigned.assign_all,
              Assigned.apply, Assigned.deleted, Assigned.inserted, Side.pick]
      | cons y down =>
          refine (Assigned.mem_assign_one hloaded rfl hself').trans (and_congr_left' ?_)
          cases side with
          | upstream_jobs => simp [Side.pick]
          | downstream_jobs =>
              rw [Servers.create_lookup_nil, if_pos rfl]
              exact mem_jobs_by_id
  | cons x up =>
      cases down with
      | nil =>
          refine (Assigned.mem_assign_one hloaded rfl hself').trans (and_congr_left' ?_)
          cases side with
          | upstream_jobs =>
              rw [if_pos rfl]
              exact mem_jobs_by_id
          | downstream_jobs => simp [Side.pick]
      | cons y down =>
          refine (Assigned.mem_assign_both hloaded rfl hself').trans (and_congr_left' ?_)
          cases side with
          | upstream_jobs => exact mem_jobs_by_id
          | downstream_jobs => exact mem_jobs_by_id

/-! ### What stays -/

namespace Chain

variable {db db₁ : Chain} {id : JobId} {task_id : TaskId}

/-- A commit that takes no job away keeps the constraints. -/
theorem commit_foreignKeys {checks : Bool} {jobs : Table Job} {a : Assigned}
    (hdb : db.ForeignKeys) (hjobs : ∀ k, db.jobs.get k ≠ none → jobs.get k ≠ none)
    (h : db.commit_dependencies id checks jobs a = .ok db₁) : db₁.ForeignKeys := by
  obtain ⟨rfl, hinserted, _⟩ := commit_dependencies_ok h
  intro e he
  rcases List.mem_append.mp he with hold | hnew
  · obtain ⟨h₁, h₂⟩ := hdb e (List.mem_of_mem_filter hold)
    exact ⟨hjobs _ h₁, hjobs _ h₂⟩
  · exact hinserted e hnew

theorem create_keeps {jobs jobs' : Table Job} {job : Job}
    (h : JobRepository.create jobs job = some jobs') {k : JobId} (hk : jobs.get k ≠ none) :
    jobs'.get k ≠ none := by
  rw [JobRepository.get_create h]
  split
  · exact Option.some_ne_none _
  · exact hk

theorem update_keeps {jobs jobs' : Table Job} {now : Int} {loaded assigned : Job}
    (h : JobRepository.update jobs now loaded assigned = some jobs') {k : JobId} :
    jobs'.get k ≠ none ↔ jobs.get k ≠ none := by
  rw [JobRepository.get_update h]
  split
  · rw [Ne, Option.map_eq_none_iff]
  · rfl

@[simp] theorem _enqueue_task_jobs : (db._enqueue_task id task_id).db.jobs = db.jobs := by
  unfold _enqueue_task
  split
  · rfl
  · split <;> rfl

@[simp] theorem _enqueue_task_dependencies :
    (db._enqueue_task id task_id).db.job_dependencies = db.job_dependencies := by
  unfold _enqueue_task
  split
  · rfl
  · split <;> rfl

@[simp] theorem _dispatch_if_one_time_jobs {job : Job} :
    (db._dispatch_if_one_time job task_id).db.jobs = db.jobs := by
  unfold _dispatch_if_one_time
  split <;> simp

@[simp] theorem _dispatch_if_one_time_dependencies {job : Job} :
    (db._dispatch_if_one_time job task_id).db.job_dependencies = db.job_dependencies := by
  unfold _dispatch_if_one_time
  split <;> simp

@[simp] theorem refresh_and_dispatch_jobs {dispatches : Job → Bool} :
    (db.refresh_and_dispatch id dispatches task_id).db.jobs = db.jobs := by
  unfold refresh_and_dispatch
  split
  · rfl
  · split <;> simp

theorem mem_upstream_jobs {db : Chain} {id other : JobId} :
    other ∈ (db.upstream_jobs id).map Job.id ↔
      (other, id) ∈ db.job_dependencies ∧ db.jobs.get other ≠ none := by
  simp only [upstream_jobs, List.mem_map, List.mem_filter, decide_eq_true_eq]
  constructor
  · rintro ⟨job, ⟨hmem, hedge⟩, rfl⟩
    rw [← key_job, Table.get_of_mem hmem]
    exact ⟨hedge, Option.some_ne_none _⟩
  · rintro ⟨hedge, hget⟩
    obtain ⟨job, hjob⟩ := Option.ne_none_iff_exists'.mp hget
    have hkey : job.id = other := Table.key_of_get hjob
    exact ⟨job, ⟨Table.mem_of_get hjob, hkey ▸ hedge⟩, hkey⟩

/-- With the constraints, a job waits exactly if a row says so. -/
theorem upstream_jobs_eq_nil (hdb : db.ForeignKeys) :
    db.upstream_jobs id = [] ↔ ∀ other, (other, id) ∉ db.job_dependencies := by
  rw [← List.map_eq_nil_iff (f := Job.id), List.eq_nil_iff_forall_not_mem]
  refine forall_congr' fun other => not_congr ?_
  rw [mem_upstream_jobs]
  exact and_iff_left_of_imp fun hedge => (hdb _ hedge).1

end Chain

end Dass
