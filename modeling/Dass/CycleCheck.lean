/-
# `Dass.CycleCheck` — the cycle check is exact

`get_all_descendants` of `backend/app/repositories/job_repository.py` and the requests of
`backend/app/services/job_service.py` that call it.  A payload replaces the upstreams of its
job, its downstreams, or both, and the session makes of that the rows it deletes and inserts.
What the tables hold then is the committed graph with these neighbours replaced, the
upstreams first (`edge_apply`): where both lists are given and only the first names the job
itself, the second takes that edge away again.

All edges that differ end at the job.  So where the committed graph has no cycle, the new one
has one exactly if the job is below itself, and that is what the query answers
(`cycle_check_exact`).
-/
import Dass.RequestedDependencies
import Dass.RuntimeSpec

namespace Dass

open EdgeList

/-! ## The graph a request asks for -/

/-- A list of the payload, in terms of the graph. -/
def Side.replace (side : Side) (id : JobId) (job_ids : List JobId) (G : JobId → JobId → Prop) :
    JobId → JobId → Prop :=
  match side with
  | .upstream_jobs => replace_into G id (· ∈ job_ids)
  | .downstream_jobs => replace_out_of G id (· ∈ job_ids)

/-- Both lists, one after the other. -/
def requested (G : JobId → JobId → Prop) (id : JobId) (assigns : List (Side × List JobId)) :
    JobId → JobId → Prop :=
  assigns.foldl (fun G p => p.1.replace id p.2 G) G

theorem Side.mem_rows_iff {side : Side} {id : JobId} {rows : List Dependency} {a b : JobId} :
    (a, b) ∈ side.rows id rows ↔ (a, b) ∈ rows ∧ match side with
      | .upstream_jobs => b = id
      | .downstream_jobs => a = id := by
  cases side <;> simp [Side.rows]

theorem Side.mem_map_row {side : Side} {id : JobId} {job_ids : List JobId} {a b : JobId} :
    (a, b) ∈ job_ids.map (side.row id) ↔ match side with
      | .upstream_jobs => b = id ∧ a ∈ job_ids
      | .downstream_jobs => a = id ∧ b ∈ job_ids := by
  cases side <;> simp [Side.row, and_comm, eq_comm]

/-- One relationship more is assigned: its side of the graph is replaced. -/
theorem Assigned.edge_assign {a : Assigned} {side : Side} {id : JobId} {job_ids : List JobId}
    {rows : List Dependency} (hloaded : ∀ e ∈ a.loaded, e ∈ rows) :
    Edge ((a.assign side id (side.rows id rows) job_ids).apply rows)
      = side.replace id job_ids (Edge (a.apply rows)) := by
  have hmore : ∀ e ∈ (a.assign side id (side.rows id rows) job_ids).loaded, e ∈ rows := by
    intro e he
    exact (List.mem_append.mp he).elim (hloaded e) List.mem_of_mem_filter
  funext x y
  refine propext ((mem_apply_iff hmore).trans ?_)
  have hbefore : Edge (a.apply rows) x y ↔ _ := mem_apply_iff (e := (x, y)) hloaded
  simp only [assign, List.mem_append, List.mem_filter, decide_eq_true_eq, Side.mem_rows_iff,
    Side.mem_map_row]
  -- a row of the side that is in the table has been loaded, and is no longer there unassigned
  cases side with
  | upstream_jobs =>
      simp only [Side.replace, replace_into, hbefore]
      by_cases hy : y = id
      · simp only [hy, not_or, and_true, true_and, ne_eq, not_true_eq_false, false_and, or_false]
        grind
      · simp [hy]
  | downstream_jobs =>
      simp only [Side.replace, replace_out_of, hbefore]
      by_cases hx : x = id
      · simp only [hx, not_or, and_true, true_and, ne_eq, not_true_eq_false, false_and, or_false]
        grind
      · simp [hx]

/-- **What a request writes is what it asks for.** -/
theorem Assigned.edge_apply {id : JobId} {loaded : Side → List Dependency}
    {rows : List Dependency} (hrows : ∀ side, loaded side = side.rows id rows)
    (chosen : List (Side × List JobId)) :
    Edge ((assign_all id loaded chosen).apply rows) = requested (Edge rows) id chosen := by
  have hboth : (∀ e ∈ (assign_all id loaded chosen).loaded, e ∈ rows) ∧
      Edge ((assign_all id loaded chosen).apply rows) = requested (Edge rows) id chosen := by
    induction chosen using List.reverseRecOn with
    | nil =>
        refine ⟨nofun, ?_⟩
        have hnone : (assign_all id loaded []).apply rows = rows := by
          simp [assign_all, apply, deleted, inserted]
        rw [hnone]
        rfl
    | append_singleton chosen p ih =>
        have hlast : assign_all id loaded (chosen ++ [p])
            = (assign_all id loaded chosen).assign p.1 id (loaded p.1) p.2 := by
          rw [assign_all, List.foldl_append]
          rfl
        have hgraph : requested (Edge rows) id (chosen ++ [p])
            = p.1.replace id p.2 (requested (Edge rows) id chosen) := by
          rw [requested, List.foldl_append]
          rfl
        rw [hlast, hgraph, hrows, ← ih.2]
        refine ⟨fun e he => ?_, edge_assign ih.1⟩
        exact (List.mem_append.mp he).elim (ih.1 e) List.mem_of_mem_filter
  exact hboth.2

/-- What a request loads and writes touches its own job, so its check is exact. -/
theorem check_iff_hasCycle (id : JobId) {loaded : Side → List Dependency}
    {rows : List Dependency} (hrows : ∀ side, loaded side = side.rows id rows)
    (hacyclic : Acyclic rows) (chosen : List (Side × List JobId)) :
    id ∈ get_all_descendants ((Assigned.assign_all id loaded chosen).apply rows) id ↔
      HasCycle (requested (Edge rows) id chosen) := by
  have hlocal : ∀ side, ∀ e ∈ loaded side, e.1 = id ∨ e.2 = id := by
    rintro side ⟨x, y⟩ he
    rw [hrows, Side.mem_rows_iff] at he
    cases side with
    | upstream_jobs => exact .inr he.2
    | downstream_jobs => exact .inl he.2
  have hnow := (Assigned.assign_all_local hlocal chosen).2
  rw [← Assigned.edge_apply hrows chosen, hasCycle_iff, mem_get_all_descendants]
  constructor
  · exact fun hcycle h => h id hcycle
  · intro hcycle
    by_contra hnot
    refine hcycle (hacyclic.of_vertex (fun e he => ?_) hnot)
    exact (Assigned.mem_apply he).imp_right (hnow e)

/-! ## The lookups -/

theorem Side.replace_congr {side : Side} {id : JobId} {job_ids job_ids' : List JobId}
    (h : ∀ other, other ∈ job_ids ↔ other ∈ job_ids') (G : JobId → JobId → Prop) :
    side.replace id job_ids G = side.replace id job_ids' G := by
  cases side <;> simp [Side.replace, h]

/-- Only which jobs are named counts. -/
theorem requested_map {f : Side → List JobId → List JobId} {assigns : List (Side × List JobId)}
    (h : ∀ p ∈ assigns, ∀ other, other ∈ f p.1 p.2 ↔ other ∈ p.2) (G : JobId → JobId → Prop)
    (id : JobId) :
    requested G id (assigns.map fun p => (p.1, f p.1 p.2)) = requested G id assigns := by
  induction assigns generalizing G with
  | nil => rfl
  | cons p rest ih =>
      have hhead : p.1.replace id (f p.1 p.2) G = p.1.replace id p.2 G :=
        Side.replace_congr (h p List.mem_cons_self) G
      exact (congrArg (fun G => requested G id (rest.map fun p => (p.1, f p.1 p.2))) hhead).trans
        (ih (fun p hp => h p (List.mem_cons_of_mem _ hp)) _)

/-- The ids a create finds, side by side. -/
theorem create_lookups (servers : Servers) (primary : Table Job) (up down : List JobId) :
    servers.jobs_by_id primary .fresh (DependencyRequest.create_job up down).assigns
      = (DependencyRequest.create_job up down).assigns.map fun p =>
          (p.1, (_jobs_by_id (servers.create_lookup primary up p.1) p.2).map Job.id) := by
  cases up with
  | nil =>
      cases down with
      | nil => rfl
      | cons y down =>
          show [(Side.downstream_jobs, _)] = [(Side.downstream_jobs, _)]
          rw [Servers.create_lookup_nil]
  | cons x up =>
      cases down with
      | nil => rfl
      | cons y down => rfl

theorem mem_create_assigns {up down : List JobId} {p : Side × List JobId}
    (h : p ∈ (DependencyRequest.create_job up down).assigns) : p.2 = p.1.pick up down := by
  rcases List.mem_append.mp h with h | h
  · split at h
    · cases h
    · obtain rfl := List.mem_singleton.mp h
      rfl
  · split at h
    · cases h
    · obtain rfl := List.mem_singleton.mp h
      rfl

theorem mem_update_assigns {up down : Option (List JobId)} {p : Side × List JobId}
    (h : p ∈ (DependencyRequest.update_job up down).assigns) :
    p.1.pick up down = some p.2 := by
  rcases List.mem_append.mp h with h | h
  · obtain ⟨job_ids, hmem, rfl⟩ := List.mem_map.mp h
    exact Option.mem_toList.mp hmem
  · obtain ⟨job_ids, hmem, rfl⟩ := List.mem_map.mp h
    exact Option.mem_toList.mp hmem

/-- Every row a request assigns names a job of its lists. -/
theorem Assigned.assign_all_named (id : JobId) (loaded : Side → List Dependency)
    (chosen : List (Side × List JobId)) :
    ∀ e ∈ (assign_all id loaded chosen).now, ∃ p ∈ chosen, ∃ other ∈ p.2, e = p.1.row id other := by
  refine assign_all_induct (P := fun a => ∀ e ∈ a.now, ∃ p ∈ chosen, ∃ other ∈ p.2,
    e = p.1.row id other) nofun ?_
  intro a ha p hp e he
  rcases List.mem_append.mp he with hold | hnew
  · exact ha e (List.mem_of_mem_filter hold)
  · obtain ⟨other, hother, rfl⟩ := List.mem_map.mp hnew
    exact ⟨p, hp, other, hother, rfl⟩

/-- The ends of a row are its job and the job it names. -/
theorem Side.row_ends {jobs : Table Job} {side : Side} {id other : JobId}
    (hself : jobs.get id ≠ none) (hother : jobs.get other ≠ none) :
    jobs.get (side.row id other).1 ≠ none ∧ jobs.get (side.row id other).2 ≠ none := by
  cases side with
  | upstream_jobs => exact ⟨hother, hself⟩
  | downstream_jobs => exact ⟨hself, hother⟩

/-! ## The rejection -/

/-- What `_assert_acyclic` raises. -/
def circular_dependency : RequestError := .http 422 "Circular dependency detected"

theorem commit_dependencies_circular {db : Chain} {id : JobId} {checks : Bool} {jobs : Table Job}
    {a : Assigned} :
    db.commit_dependencies id checks jobs a = .error circular_dependency ↔
      (∀ e ∈ a.inserted, jobs.get e.1 ≠ none ∧ jobs.get e.2 ≠ none) ∧
        checks = true ∧ id ∈ get_all_descendants (a.apply db.job_dependencies) id := by
  unfold Chain.commit_dependencies
  split
  · next hforeign =>
      refine iff_of_false (by rintro ⟨⟩) ?_
      rintro ⟨hkeys, _⟩
      obtain ⟨e, he, hmissing⟩ := List.any_eq_true.mp hforeign
      obtain ⟨h₁, h₂⟩ := hkeys e he
      simp [h₁, h₂] at hmissing
  · next hforeign =>
      have hkeys : ∀ e ∈ a.inserted, jobs.get e.1 ≠ none ∧ jobs.get e.2 ≠ none := by
        intro e he
        by_contra hmissing
        refine hforeign (List.any_eq_true.mpr ⟨e, he, ?_⟩)
        simp only [Bool.or_eq_true, decide_eq_true_eq]
        by_contra hnone
        exact hmissing (not_or.mp hnone)
      rw [and_iff_right hkeys]
      simp only
      split
      · next hcycle => exact iff_of_true rfl hcycle
      · next hcycle => exact iff_of_false (by rintro ⟨⟩) hcycle

/-- After its commit a request is not rejected for a cycle. -/
theorem dispatch_not_circular {db : Chain} {job : Job} {task_id : TaskId} :
    (db._dispatch_if_one_time job task_id).result ≠ .error circular_dependency := by
  unfold Chain._dispatch_if_one_time
  split
  · unfold Chain._enqueue_task
    split
    · rintro ⟨⟩
    · split <;> rintro ⟨⟩
  · rintro ⟨⟩

theorem refresh_not_circular {db : Chain} {id : JobId} {dispatches : Job → Bool}
    {task_id : TaskId} :
    (db.refresh_and_dispatch id dispatches task_id).result ≠ .error circular_dependency := by
  unfold Chain.refresh_and_dispatch
  split
  · rintro ⟨⟩
  · split
    · exact dispatch_not_circular
    · rintro ⟨⟩

/-- A request is rejected for a cycle where the commit of its dependencies is. -/
theorem answer_circular_iff {db : Chain} {id : JobId} {checks : Bool} {jobs : Table Job}
    {a : Assigned} {answer : Chain → Response}
    (hanswer : ∀ db₁, (answer db₁).result ≠ .error circular_dependency) :
    (match db.commit_dependencies id checks jobs a with
      | .error e => (⟨db, .error e⟩ : Response)
      | .ok db₁ => answer db₁).result = .error circular_dependency ↔
      db.commit_dependencies id checks jobs a = .error circular_dependency := by
  cases hcommit : db.commit_dependencies id checks jobs a with
  | error e => simp only [Except.error.injEq]
  | ok db₁ => exact iff_of_false (hanswer db₁) (by rintro ⟨⟩)

section Deployment

variable {py : Python} {croniter : Croniter} {now : Int}

theorem schedule_not_circular {raw_cron : Option String} :
    _resolve_schedule (py.env croniter) now raw_cron ≠ .error circular_dependency := by
  unfold _resolve_schedule
  split
  · rintro ⟨⟩
  · split
    · rintro ⟨⟩
    · intro h
      exact absurd (RequestError.http.inj (Except.error.inj h)).2 (by decide)

theorem build_not_circular {action_type : ActionType} {config : Json} :
    (py.env croniter).build_runtime_spec action_type config ≠ .error circular_dependency := by
  show py._build_runtime_spec true action_type config ≠ _
  unfold Python._build_runtime_spec
  split
  · next h => cases h.2
  · split
    · split <;> rintro ⟨⟩
    · rintro ⟨⟩

theorem create_row_not_circular {id : JobId} {payload : JobCreate} :
    create_job_row (py.env croniter) now id payload ≠ .error circular_dependency := by
  unfold create_job_row
  refine bind_ne_error schedule_not_circular fun _ => bind_ne_error build_not_circular fun _ => ?_
  rintro ⟨⟩

theorem column_not_circular {α : Type} {f : Field α} {old : α} :
    f.column old ≠ .error circular_dependency := by
  cases f <;> rintro ⟨⟩

theorem spec_not_circular {job : Job} {data : JobUpdate} :
    updated_runtime_spec (py.env croniter) job data ≠ .error circular_dependency := by
  unfold updated_runtime_spec
  split
  · rintro ⟨⟩
  · split
    · intro h
      exact absurd (RequestError.http.inj (Except.error.inj h)).2 (by decide)
    · rintro ⟨⟩
    · next action_type config _ _ =>
        split
        · cases hbuild : (py.env croniter).build_runtime_spec action_type config with
          | ok spec => rintro ⟨⟩
          | error e =>
              intro h
              rw [Except.map, Except.error.injEq] at h
              exact build_not_circular (h ▸ hbuild)
        · rintro ⟨⟩

theorem update_row_not_circular {job : Job} {data : JobUpdate} :
    update_job_row (py.env croniter) now job data ≠ .error circular_dependency := by
  have hschedule : updated_schedule (py.env croniter) now job data.cron_expression
      ≠ .error circular_dependency := by
    cases data.cron_expression with
    | unset => rintro ⟨⟩
    | null => exact (schedule_not_circular : _resolve_schedule (py.env croniter) now none ≠ _)
    | value cron =>
        exact (schedule_not_circular : _resolve_schedule (py.env croniter) now (some cron) ≠ _)
  unfold update_job_row
  refine bind_ne_error hschedule fun _ => bind_ne_error spec_not_circular fun _ => ?_
  refine bind_ne_error column_not_circular fun _ => bind_ne_error column_not_circular fun _ => ?_
  refine bind_ne_error column_not_circular fun _ => bind_ne_error column_not_circular fun _ => ?_
  refine bind_ne_error column_not_circular fun _ => bind_ne_error column_not_circular fun _ => ?_
  rintro ⟨⟩

end Deployment

/-! ## The requests -/

/-- Nothing but its dependencies can keep the create from being committed. -/
def CreateAdmitted (env : Env) (column : JSONBCompat) (db : Chain) (id : JobId)
    (payload : JobCreate) : Prop :=
  ∃ job jobs, create_job_row env db.now id payload = .ok job ∧
    JobRepository.create db.jobs (job.inserted column) = some jobs

/-- Nothing but its dependencies can keep the update from being committed. -/
def UpdateAdmitted (env : Env) (column : JSONBCompat) (servers : Servers) (db : Chain)
    (id : JobId) (data : JobUpdate) : Prop :=
  db.jobs.get id ≠ none ∧ ∃ loaded job jobs, db.get_job servers id = .ok loaded ∧
    update_job_row env db.now loaded data = .ok job ∧
    JobRepository.update db.jobs db.now loaded (job.assigned column loaded) = some jobs

section Requests

variable {py : Python} {croniter : Croniter} {column : JSONBCompat} {servers : Servers}
  {db : Chain} {id : JobId} {task_id : TaskId}

/-- A request whose lookups find the jobs it names, and which is checked if it names any, is
rejected for a cycle exactly if the graph it asks for has one. -/
theorem commit_rejected_iff {checks : Bool} {jobs : Table Job} {loaded : Side → List Dependency}
    {f : Side → List JobId → List JobId} {assigns : List (Side × List JobId)}
    (hrows : ∀ side, loaded side = side.rows id db.job_dependencies)
    (hacyclic : Acyclic db.job_dependencies)
    (hfound : ∀ p ∈ assigns, ∀ other, other ∈ f p.1 p.2 ↔ other ∈ p.2)
    (hself : jobs.get id ≠ none)
    (hthere : ∀ p ∈ assigns, ∀ other ∈ f p.1 p.2, jobs.get other ≠ none)
    (hchecks : checks = true ∨ assigns = []) :
    db.commit_dependencies id checks jobs
        (Assigned.assign_all id loaded (assigns.map fun p => (p.1, f p.1 p.2)))
        = .error circular_dependency ↔
      HasCycle (requested (Edge db.job_dependencies) id assigns) := by
  have hgraph := check_iff_hasCycle id hrows hacyclic (assigns.map fun p => (p.1, f p.1 p.2))
  rw [requested_map hfound] at hgraph
  rw [← hgraph]
  refine commit_dependencies_circular.trans ((and_iff_right fun e he => ?_).trans
    (and_iff_right_of_imp fun hcycle => ?_))
  · obtain ⟨p, hp, other, hother, rfl⟩ :=
      Assigned.assign_all_named id loaded _ e (Assigned.mem_inserted.mp he).1
    obtain ⟨q, hq, rfl⟩ := List.mem_map.mp hp
    exact Side.row_ends hself (hthere q hq other hother)
  · refine hchecks.resolve_right fun hnone => ?_
    -- a request that names no job leaves the graph as it was
    subst hnone
    exact hasCycle_iff.mp (hgraph.mp hcycle) hacyclic

theorem create_rejected_iff (hacyclic : Acyclic db.job_dependencies) (hdb : db.ForeignKeys)
    {payload : JobCreate} {up down : List JobId}
    (hexist : ∀ (side : Side), ∀ other ∈ side.pick up down, db.jobs.get other ≠ none ∧
      (servers.create_lookup db.jobs up side).get other ≠ none) :
    (create_job (py.env croniter) column servers db id task_id payload up down).result
        = .error circular_dependency ↔
      CreateAdmitted (py.env croniter) column db id payload ∧
        HasCycle (requested (Edge db.job_dependencies) id
          (DependencyRequest.create_job up down).assigns) := by
  unfold create_job
  split
  · next e he =>
      refine iff_of_false ?_ ?_
      · rintro ⟨rfl⟩
        exact create_row_not_circular he
      · rintro ⟨⟨job, jobs, hrow, _⟩, _⟩
        rw [hrow] at he
        cases he
  · next job hrow =>
      simp only
      cases hcreate : JobRepository.create db.jobs (job.inserted column) with
      | none =>
          refine iff_of_false (by rintro ⟨⟩) ?_
          rintro ⟨⟨job', jobs, hrow', hcreate'⟩, _⟩
          rw [hrow] at hrow'
          cases hrow'
          rw [hcreate] at hcreate'
          cases hcreate'
      | some jobs =>
          have hadmitted : CreateAdmitted (py.env croniter) column db id payload :=
            ⟨job, jobs, hrow, hcreate⟩
          have hid : (job.inserted column).id = id := (create_job_row_stamp hrow).1
          have hnew : db.jobs.get id = none := hid ▸ (JobRepository.create_eq_some hcreate).1
          -- a new job has no rows to load
          have hrows : ∀ side : Side, [] = side.rows id db.job_dependencies := by
            intro side
            refine (List.filter_eq_nil_iff.mpr fun e he => ?_).symm
            obtain ⟨h₁, h₂⟩ := hdb e he
            cases side with
            | upstream_jobs => simpa using fun heq : e.2 = id => h₂ (heq ▸ hnew)
            | downstream_jobs => simpa using fun heq : e.1 = id => h₁ (heq ▸ hnew)
          have hself : jobs.get id ≠ none := by
            rw [JobRepository.get_create hcreate, if_pos hid]
            exact Option.some_ne_none _
          simp only [create_lookups]
          rw [and_iff_right hadmitted]
          refine (answer_circular_iff fun _ => refresh_not_circular).trans
            (commit_rejected_iff
              (f := fun side ids =>
                (_jobs_by_id (servers.create_lookup db.jobs up side) ids).map Job.id)
              hrows hacyclic (fun p hp other => ?_) hself (fun p hp other hother => ?_) (.inl rfl))
          · rw [mem_jobs_by_id, mem_create_assigns hp]
            exact and_iff_left_of_imp fun hmem => (hexist p.1 other hmem).2
          · have hlisted := (mem_jobs_by_id.mp hother).1
            rw [mem_create_assigns hp] at hlisted
            exact Chain.create_keeps hcreate (hexist p.1 other hlisted).1

/-- A job that the check finds is a row: some edge ends at it. -/
theorem commit_circular_row {checks : Bool} {jobs : Table Job} {a : Assigned}
    (hdb : db.ForeignKeys) (hjobs : ∀ k, jobs.get k ≠ none → db.jobs.get k ≠ none)
    (h : db.commit_dependencies id checks jobs a = .error circular_dependency) :
    db.jobs.get id ≠ none := by
  obtain ⟨hforeign, _, hcycle⟩ := commit_dependencies_circular.mp h
  obtain ⟨other, _, hedge⟩ := Relation.TransGen.tail'_iff.mp (mem_get_all_descendants.mp hcycle)
  rcases List.mem_append.mp hedge with hold | hnew
  · exact (hdb _ (List.mem_of_mem_filter hold)).2
  · exact hjobs id (hforeign _ hnew).2

theorem update_rejected_iff (hacyclic : Acyclic db.job_dependencies) (hdb : db.ForeignKeys)
    {data : JobUpdate} {up down : Option (List JobId)}
    (hexist : ∀ (side : Side) job_ids, side.pick up down = some job_ids →
      ∀ other ∈ job_ids, db.jobs.get other ≠ none) :
    (update_job (py.env croniter) column servers db id task_id data up down).result
        = .error circular_dependency ↔
      UpdateAdmitted (py.env croniter) column servers db id data ∧
        HasCycle (requested (Edge db.job_dependencies) id
          (DependencyRequest.update_job up down).assigns) := by
  unfold update_job
  split
  · next e he =>
      refine iff_of_false ?_ ?_
      · rintro ⟨rfl⟩
        unfold Chain.get_job at he
        split at he
        · exact absurd (RequestError.http.inj (Except.error.inj he)).1 (by decide)
        · cases he
      · rintro ⟨⟨_, loaded, _, _, hget, _⟩, _⟩
        rw [hget] at he
        cases he
  · next loaded hget =>
      split
      · next e he =>
          refine iff_of_false ?_ ?_
          · rintro ⟨rfl⟩
            exact update_row_not_circular he
          · rintro ⟨⟨_, loaded', job, _, hget', hrow, _⟩, _⟩
            rw [hget] at hget'
            cases hget'
            rw [hrow] at he
            cases he
      · next job hrow =>
          have hsession : (RoutingSession.fresh.loads [loaded]).identity_map ≠ [] := by
            simp [RoutingSession.loads]
          simp only [Servers.jobs_by_id_loaded hsession]
          cases hupdate : JobRepository.update db.jobs db.now loaded (job.assigned column loaded) with
          | none =>
              refine iff_of_false (by rintro ⟨⟩) ?_
              rintro ⟨⟨_, loaded', job', jobs, hget', hrow', hupdate'⟩, _⟩
              rw [hget] at hget'
              cases hget'
              rw [hrow] at hrow'
              cases hrow'
              rw [hupdate] at hupdate'
              cases hupdate'
          | some jobs =>
              have hkeeps : ∀ k, jobs.get k ≠ none ↔ db.jobs.get k ≠ none :=
                fun k => Chain.update_keeps hupdate
              by_cases hself : db.jobs.get id = none
              · refine iff_of_false (fun h => ?_) fun h => h.1.1 hself
                exact commit_circular_row hdb (fun k => (hkeeps k).mp)
                  ((answer_circular_iff fun _ => refresh_not_circular).mp h) hself
              · rw [and_iff_right ⟨hself, loaded, job, jobs, hget, hrow, hupdate⟩]
                refine (answer_circular_iff fun _ => refresh_not_circular).trans
                  (commit_rejected_iff (f := fun _ ids => (_jobs_by_id db.jobs ids).map Job.id)
                    (fun _ => rfl) hacyclic (fun p hp other => ?_) ((hkeeps id).mpr hself)
                    (fun p _ other hother => ?_) ?_)
                · rw [mem_jobs_by_id]
                  exact and_iff_left_of_imp fun hmem =>
                    hexist p.1 p.2 (mem_update_assigns hp) other hmem
                · exact (hkeeps other).mpr (mem_jobs_by_id.mp hother).2
                · by_cases hchecks : (DependencyRequest.update_job up down).checks = true
                  · exact .inl hchecks
                  · exact .inr (DependencyRequest.assigns_unchecked (Bool.not_eq_true _ ▸ hchecks))

/-- A create that is rejected leaves what was committed. -/
theorem create_circular_db {env : Env} {payload : JobCreate} {up down : List JobId}
    (h : (create_job env column servers db id task_id payload up down).result
      = .error circular_dependency) :
    (create_job env column servers db id task_id payload up down).db = db := by
  rcases create_job_cases with ⟨e, he⟩ | ⟨job, jobs, db₁, _, _, _, heq⟩
  · rw [he]
  · rw [heq] at h
    exact absurd h dispatch_not_circular

/-- So does an update. -/
theorem update_circular_db {env : Env} {data : JobUpdate} {up down : Option (List JobId)}
    (h : (update_job env column servers db id task_id data up down).result
      = .error circular_dependency) :
    (update_job env column servers db id task_id data up down).db = db := by
  rcases update_job_cases with ⟨e, he⟩ | ⟨loaded, job, jobs, db₁, _, _, _, _, heq⟩
  · rw [he]
  · rw [heq] at h
    exact absurd h refresh_not_circular

end Requests

/-- **The cycle check is exact.**  On every graph the recursive query stops, and it has found
then what is below the job.  On every acyclic database, a create or an update that names jobs
there are, and is otherwise in order, is rejected for a circular dependency exactly if the
graph it asks for has a cycle; rejected, it changes nothing. -/
theorem cycle_check_exact (py : Python) (croniter : Croniter) (column : JSONBCompat) :
    (∀ (rows : List Dependency) (job : JobId), (∃ n, (after rows job n).2 = []) ∧
      ∀ n, (after rows job n).2 = [] → ∀ other,
        (other ∈ get_all_descendants rows job ↔ other ∈ (after rows job n).1) ∧
        (other ∈ get_all_descendants rows job ↔ Below rows job other)) ∧
    ∀ (servers : Servers) (db : Chain) (id : JobId) (task_id : TaskId),
      Acyclic db.job_dependencies → db.ForeignKeys →
      (∀ payload up down,
        (∀ (side : Side), ∀ other ∈ side.pick up down, db.jobs.get other ≠ none ∧
          (servers.create_lookup db.jobs up side).get other ≠ none) →
        ((create_job (py.env croniter) column servers db id task_id payload up down).result
            = .error circular_dependency ↔
          CreateAdmitted (py.env croniter) column db id payload ∧
            HasCycle (requested (Edge db.job_dependencies) id
              (DependencyRequest.create_job up down).assigns)) ∧
        ((create_job (py.env croniter) column servers db id task_id payload up down).result
            = .error circular_dependency →
          (create_job (py.env croniter) column servers db id task_id payload up down).db = db)) ∧
      ∀ data up down,
        (∀ (side : Side) job_ids, side.pick up down = some job_ids →
          ∀ other ∈ job_ids, db.jobs.get other ≠ none) →
        ((update_job (py.env croniter) column servers db id task_id data up down).result
            = .error circular_dependency ↔
          UpdateAdmitted (py.env croniter) column servers db id data ∧
            HasCycle (requested (Edge db.job_dependencies) id
              (DependencyRequest.update_job up down).assigns)) ∧
        ((update_job (py.env croniter) column servers db id task_id data up down).result
            = .error circular_dependency →
          (update_job (py.env croniter) column servers db id task_id data up down).db = db) := by
  refine ⟨fun rows job => ⟨?_, fun n hnil other => ?_⟩, fun servers db id task_id hacyclic hdb =>
    ⟨fun payload up down hexist => ?_, fun data up down hexist => ?_⟩⟩
  · obtain ⟨n, _, hnil⟩ := exists_after_nil rows job
    exact ⟨n, hnil⟩
  · exact ⟨mem_get_all_descendants.trans (mem_after hnil).symm, mem_get_all_descendants⟩
  · exact ⟨create_rejected_iff hacyclic hdb hexist, create_circular_db⟩
  · exact ⟨update_rejected_iff hacyclic hdb hexist, update_circular_db⟩

/-- Job 2 depends on job 1. -/
def example_edge : Chain := { example_db with job_dependencies := [(1, 2)] }

/-- Job 1 is not made to depend on job 2. -/
theorem cycle_check_rejects :
    (update_job (example_python.env every_minute) .json .single example_edge 1 1 {} (some [2])
      none).result = .error circular_dependency ∧
    (update_job (example_python.env every_minute) .json .single example_edge 1 1 {} (some [2])
      none).db = example_edge := by
  have hkeys : example_edge.ForeignKeys := by
    unfold Chain.ForeignKeys
    decide
  have hexist : ∀ (side : Side) job_ids, side.pick (some [2]) none = some job_ids →
      ∀ other ∈ job_ids, example_edge.jobs.get other ≠ none := by
    rintro (_ | _) job_ids ⟨⟩
    decide
  have hadmitted : UpdateAdmitted (example_python.env every_minute) .json .single example_edge 1
      {} := ⟨by decide, (example_trio.get 1).get (by decide), _, _, rfl, rfl, rfl⟩
  have hcycle : HasCycle (requested (Edge example_edge.job_dependencies) 1
      (DependencyRequest.update_job (some [2]) none).assigns) := by
    have hback : requested (Edge example_edge.job_dependencies) 1
        (DependencyRequest.update_job (some [2]) none).assigns 2 1 :=
      .inl ⟨rfl, List.mem_cons_self⟩
    have hforth : requested (Edge example_edge.job_dependencies) 1
        (DependencyRequest.update_job (some [2]) none).assigns 1 2 :=
      .inr ⟨by decide, List.mem_cons_self⟩
    exact ⟨1, (Relation.TransGen.single hforth).tail hback⟩
  obtain ⟨hiff, hsame⟩ := ((cycle_check_exact example_python every_minute .json).2 .single
    example_edge 1 1 (by decide) hkeys).2 {} (some [2]) none hexist
  have hrejected := hiff.mpr ⟨hadmitted, hcycle⟩
  exact ⟨hrejected, hsame hrejected⟩

end Dass
