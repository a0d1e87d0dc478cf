/-
# `Dass.UpdateSteps` — an update of a job, statement by statement

`update_job` once more (`Dass.JobRequests` has it as one function), cut where other
transactions may commit:

    load      `get_job`
    modify    the fields of the payload, the schedule, the runtime spec; `_jobs_by_id`, and
              the collections that are replaced
    flush     the columns that differ from what was loaded, and the rows of the
              collections that differ
    check     `_assert_acyclic`
    commit

Everything is read from the primary, and a statement sees what is committed when it starts.
What another open transaction keeps waiting finds out afterwards, so the constraints on
`job_dependencies` are looked at when the rows are sent and again at the commit.  `alone` is
the request with nothing in between.
-/
import Dass.StaleUpdates

namespace Dass

open Orm

/-! ## One request -/

structure UpdateRequest where
  /-- `utcnow()`, which the first firing is counted from -/
  now : Int
  /-- `now()` of its transaction, which an `UPDATE` of the row sets `updated_at` to -/
  stamp : Int
  data : JobUpdate
  upstream_job_ids : Option (List JobId)
  downstream_job_ids : Option (List JobId)

def UpdateRequest.dependencies (u : UpdateRequest) : DependencyRequest :=
  .update_job u.upstream_job_ids u.downstream_job_ids

/-- The tables that an update writes. -/
structure JobTables where
  jobs : Table Job
  job_dependencies : List Dependency

namespace JobTables

/-- The relationships the request assigns, looked up in these tables. -/
def assigned (db : JobTables) (id : JobId) (u : UpdateRequest) : Assigned :=
  .assign_all id (fun side => side.rows id db.job_dependencies)
    (u.dependencies.assigns.map fun p => (p.1, (_jobs_by_id db.jobs p.2).map Job.id))

/-- The constraints let the dependencies through: what is inserted is new and refers to jobs
that are there, deleted rows are still there. -/
structure Admits (db : JobTables) (a : Assigned) : Prop where
  unique : ∀ e ∈ a.inserted, e ∉ db.job_dependencies
  matched : ∀ e ∈ a.deleted, e ∈ db.job_dependencies
  foreign_key : ∀ e ∈ a.inserted, db.jobs.get e.1 ≠ none ∧ db.jobs.get e.2 ≠ none

instance (db : JobTables) (a : Assigned) : Decidable (db.Admits a) :=
  decidable_of_iff ((∀ e ∈ a.inserted, e ∉ db.job_dependencies) ∧
      (∀ e ∈ a.deleted, e ∈ db.job_dependencies) ∧
      ∀ e ∈ a.inserted, db.jobs.get e.1 ≠ none ∧ db.jobs.get e.2 ≠ none)
    ⟨fun h => ⟨h.1, h.2.1, h.2.2⟩, fun h => ⟨h.unique, h.matched, h.foreign_key⟩⟩

/-- `_assert_acyclic` rejects, with the request's own rows beside those of the table. -/
def Cyclic (db : JobTables) (id : JobId) (u : UpdateRequest) (a : Assigned) : Prop :=
  u.dependencies.checks = true ∧ id ∈ get_all_descendants (a.apply db.job_dependencies) id

instance (db : JobTables) (id : JobId) (u : UpdateRequest) (a : Assigned) :
    Decidable (db.Cyclic id u a) := inferInstanceAs (Decidable (_ ∧ _))

/-- The tables with the writes of the request, if the constraints let them through. -/
def write (column : JSONBCompat) (db : JobTables) (u : UpdateRequest) (loaded job : Job)
    (a : Assigned) : Option JobTables :=
  if db.Admits a then
    (JobRepository.update db.jobs u.stamp loaded (job.assigned column loaded)).map fun jobs =>
      ⟨jobs, a.apply db.job_dependencies⟩
  else none

end JobTables

/-- The point a request has reached; `job` is the object it has loaded and changed. -/
inductive UpdatePc where
  | start
  | loaded (row : Job)
  | modified (row job : Job) (a : Assigned)
  | flushed (row job : Job) (a : Assigned)
  | checked (row job : Job) (a : Assigned)
  | done (ok : Bool)

/-- The next step of the request. -/
def update_step (env : Env) (column : JSONBCompat) (id : JobId) (u : UpdateRequest)
    (db : JobTables) : UpdatePc → JobTables × UpdatePc
  | .start =>
      match db.jobs.get id with
      | none => (db, .done false)
      | some row => (db, .loaded row)
  | .loaded row =>
      match update_job_row env u.now row u.data with
      | .error _ => (db, .done false)
      | .ok job => (db, .modified row job (db.assigned id u))
  | .modified row job a =>
      match db.write column u row job a with
      | none => (db, .done false)
      | some _ => (db, .flushed row job a)
  | .flushed row job a =>
      if db.Cyclic id u a then (db, .done false) else (db, .checked row job a)
  | .checked row job a =>
      match db.write column u row job a with
      | none => (db, .done false)
      | some db => (db, .done true)
  | .done ok => (db, .done ok)

/-- So many steps with nothing in between, from the start. -/
def update_steps (env : Env) (column : JSONBCompat) (id : JobId) (u : UpdateRequest)
    (db : JobTables) : Nat → JobTables × UpdatePc
  | 0 => (db, .start)
  | n + 1 =>
      let p := update_steps env column id u db n
      update_step env column id u p.1 p.2

/-- The request, executed alone. -/
def update_alone (env : Env) (column : JSONBCompat) (id : JobId) (u : UpdateRequest)
    (db : JobTables) : JobTables × UpdatePc :=
  update_steps env column id u db 5

section

variable {env : Env} {column : JSONBCompat} {id : JobId} {u : UpdateRequest} {db db' : JobTables}
  {row job : Job} {a : Assigned} {pc pc' : UpdatePc} {n : Nat} {ok : Bool}

/-! ## The steps -/

/-- How far a request has come. -/
def UpdatePc.rank : UpdatePc → Nat
  | .start => 0
  | .loaded _ => 1
  | .modified _ _ _ => 2
  | .flushed _ _ _ => 3
  | .checked _ _ _ => 4
  | .done _ => 5

variable (env column id u db) in
theorem rank_update_step (pc : UpdatePc) :
    min 5 (pc.rank + 1) ≤ (update_step env column id u db pc).2.rank := by
  cases pc with
  | start | loaded | modified | checked =>
      simp only [update_step]
      split <;> simp [UpdatePc.rank]
  | flushed =>
      simp only [update_step]
      split <;> simp [UpdatePc.rank]
  | done => simp [update_step, UpdatePc.rank]

variable (env column id u db) in
theorem rank_update_steps (n : Nat) : min 5 n ≤ (update_steps env column id u db n).2.rank := by
  induction n with
  | zero => exact Nat.le_refl 0
  | succ n ih =>
      have hstep := rank_update_step env column id u (update_steps env column id u db n).1
        (update_steps env column id u db n).2
      simp only [update_steps]
      omega

variable (env column id u db) in
/-- A request alone comes to its end. -/
theorem update_alone_done : ∃ db' ok, update_alone env column id u db = (db', .done ok) := by
  have hrank := rank_update_steps env column id u db 5
  unfold update_alone
  cases hsteps : update_steps env column id u db 5 with
  | mk db' pc =>
      rw [hsteps] at hrank
      cases pc with
      | done ok => exact ⟨db', ok, rfl⟩
      | start | loaded | modified | flushed | checked => simp [UpdatePc.rank] at hrank

/-- At its end it stays. -/
theorem update_steps_done (h : update_steps env column id u db n = (db', .done ok)) (k : Nat) :
    update_steps env column id u db (n + k) = (db', .done ok) := by
  induction k with
  | zero => exact h
  | succ k ih =>
      show update_step env column id u (update_steps env column id u db (n + k)).1
        (update_steps env column id u db (n + k)).2 = _
      rw [ih]
      rfl

/-- However many steps it took. -/
theorem update_alone_of_steps (h : update_steps env column id u db n = (db', .done ok)) :
    update_alone env column id u db = (db', .done ok) := by
  obtain ⟨db₁, ok₁, halone⟩ := update_alone_done env column id u db
  have h₁ := update_steps_done h 5
  have h₂ := update_steps_done halone n
  rw [Nat.add_comm, h₁] at h₂
  rw [halone, ← h₂]

/-- Only a commit writes. -/
theorem update_step_tables (h : update_step env column id u db pc = (db', pc')) :
    db' = db ∨ pc' = .done true := by
  cases pc with
  | start | loaded | modified | flushed =>
      simp only [update_step] at h
      split at h <;> cases h <;> exact .inl rfl
  | checked =>
      simp only [update_step] at h
      split at h
      · cases h
        exact .inl rfl
      · cases h
        exact .inr rfl
  | done =>
      cases h
      exact .inl rfl

/-! ## What a request holds on to -/

/-- The request has loaded its row, and has not come to its end. -/
def UpdatePc.Under : UpdatePc → Prop
  | .start | .done _ => False
  | .loaded _ | .modified _ _ _ | .flushed _ _ _ | .checked _ _ _ => True

theorem UpdatePc.Under.ne_start (h : pc.Under) : pc ≠ .start := by
  rintro rfl
  exact h

theorem UpdatePc.Under.ne_done (h : pc.Under) (ok : Bool) : pc ≠ .done ok := by
  rintro rfl
  exact h

/-- What the request has loaded is the row of these tables, and what it has assigned comes of
that. -/
def UpdatePc.From (env : Env) (id : JobId) (u : UpdateRequest) (db : JobTables) :
    UpdatePc → Prop
  | .loaded row => db.jobs.get id = some row
  | .modified row job _ | .flushed row job _ | .checked row job _ =>
      db.jobs.get id = some row ∧ update_job_row env u.now row u.data = .ok job
  | .start | .done _ => True

/-- Whatever is committed when the request takes its step, once it has loaded its row. -/
theorem UpdatePc.From.step (column : JSONBCompat) {now : JobTables} (h : pc.From env id u db)
    (hstart : pc = .start → now = db) :
    (update_step env column id u now pc).2.From env id u db := by
  cases pc with
  | start =>
      rw [hstart rfl]
      simp only [update_step]
      split
      · trivial
      · next hget => exact hget
  | loaded row =>
      simp only [update_step]
      split
      · trivial
      · next hrow => exact ⟨h, hrow⟩
  | modified | flushed | checked =>
      simp only [update_step]
      split <;> first | exact h | trivial
  | done => trivial

/-- A request alone, before its commit. -/
theorem from_update_steps (h : update_steps env column id u db n = (db', pc)) :
    pc = .done true ∨ db' = db ∧ pc.From env id u db := by
  induction n generalizing db' pc with
  | zero =>
      cases h
      exact .inr ⟨rfl, trivial⟩
  | succ n ih =>
      cases hp : update_steps env column id u db n with
      | mk db₁ pc₁ =>
          simp only [update_steps, hp] at h
          rcases ih hp with rfl | ⟨rfl, hfrom⟩
          · cases h
            exact .inl rfl
          · have hnext := hfrom.step column (fun _ => rfl : _ → db₁ = db₁)
            rw [h] at hnext
            rcases update_step_tables h with rfl | hdone
            · exact .inr ⟨rfl, hnext⟩
            · exact .inl hdone

/-! ## Tables that differ in one row -/

/-- `jobs'` has the keys of `jobs`, and the names of all jobs but one. -/
structure Beside (id : JobId) (jobs jobs' : Table Job) : Prop where
  ids : ∀ job_ids, (_jobs_by_id jobs' job_ids).map Job.id = (_jobs_by_id jobs job_ids).map Job.id
  taken : ∀ job, job.id = id → name_taken jobs' job = name_taken jobs job

theorem Beside.refl (id : JobId) (jobs : Table Job) : Beside id jobs jobs :=
  ⟨fun _ => rfl, fun _ _ => rfl⟩

theorem Beside.symm_trans {jobs jobs₁ jobs₂ : Table Job} (h₁ : Beside id jobs jobs₁)
    (h₂ : Beside id jobs jobs₂) : Beside id jobs₁ jobs₂ :=
  ⟨fun job_ids => (h₂.ids job_ids).trans (h₁.ids job_ids).symm,
    fun job hid => (h₂.taken job hid).trans (h₁.taken job hid).symm⟩

theorem Beside.assigned (h : Beside id db.jobs db'.jobs)
    (hdeps : db'.job_dependencies = db.job_dependencies) :
    db'.assigned id u = db.assigned id u := by
  unfold JobTables.assigned
  rw [hdeps]
  simp only [h.ids]

theorem beside_set {jobs : Table Job} : Beside row.id jobs (jobs.set row) := by
  constructor
  · intro job_ids
    simp only [_jobs_by_id, Table.set, List.filter_map, List.map_map]
    have hid : ∀ x : Job, (if key x = key row then row else x).id = x.id := by
      intro x
      split
      · next hkey => exact hkey.symm
      · rfl
    simp only [Function.comp_def, hid]
  · intro other hother
    simp only [name_taken, Table.set, List.any_map, Function.comp_def]
    congr 1
    funext x
    split
    · next hkey =>
        have hx : x.id = other.id := Eq.trans hkey hother.symm
        simp [hx, hother]
    · rfl

theorem JobRepository.update_beside {jobs jobs' : Table Job} {now : Int} {loaded assigned : Job}
    (h : JobRepository.update jobs now loaded assigned = some jobs') :
    Beside loaded.id jobs jobs' := by
  rcases JobRepository.update_eq_some h with ⟨_, rfl⟩ | ⟨_, stored, hget, rfl⟩
  · exact .refl _ _
  · have hid : (Job.flush now loaded assigned stored).id = loaded.id := by
      rw [Job.flush_id]
      exact Table.key_of_get hget
    rw [← hid]
    exact beside_set

/-- The name is looked at, and nothing else of the row. -/
theorem name_taken_congr {jobs : Table Job} {a b : Job} (hid : a.id = b.id)
    (hname : a.name = b.name) : name_taken jobs a = name_taken jobs b := by
  unfold name_taken
  rw [hid, hname]

/-- When the row can be updated: nothing is sent, or the name it gets is free. -/
theorem JobRepository.update_isSome {jobs : Table Job} {now : Int} {loaded assigned stored : Job}
    (hget : jobs.get loaded.id = some stored) :
    (JobRepository.update jobs now loaded assigned).isSome ↔ assigned = loaded ∨
      name_taken jobs (Job.flush now loaded assigned stored) = false := by
  unfold JobRepository.update
  split
  · next heq => simp [heq]
  · next hne =>
      simp only [hget, hne, false_or]
      split
      · next hfree => simp [hfree]
      · next htaken => simp [htaken]

/-! ## The request alone -/

/-- The relationships of a request that has just read them are let through. -/
theorem admits_assigned (hget : db.jobs.get id ≠ none) : db.Admits (db.assigned id u) := by
  have h : (∀ e ∈ (db.assigned id u).loaded, e ∈ db.job_dependencies) ∧
      ∀ e ∈ (db.assigned id u).now, (e ∈ db.job_dependencies → e ∈ (db.assigned id u).loaded) ∧
        db.jobs.get e.1 ≠ none ∧ db.jobs.get e.2 ≠ none := by
    refine Assigned.assign_all_induct (P := fun a => (∀ e ∈ a.loaded, e ∈ db.job_dependencies) ∧
      ∀ e ∈ a.now, (e ∈ db.job_dependencies → e ∈ a.loaded) ∧
        db.jobs.get e.1 ≠ none ∧ db.jobs.get e.2 ≠ none) ⟨nofun, nofun⟩ ?_
    rintro a ⟨hloaded, hnow⟩ p hp
    obtain ⟨⟨side, job_ids⟩, _, rfl⟩ := List.mem_map.mp hp
    refine ⟨fun e he => ?_, fun e he => ?_⟩
    · rcases List.mem_append.mp he with hold | hnew
      · exact hloaded e hold
      · exact List.mem_of_mem_filter hnew
    · rcases List.mem_append.mp he with hold | hnew
      · obtain ⟨hrow, hkeys⟩ := hnow e (List.mem_of_mem_filter hold)
        exact ⟨fun hmem => List.mem_append_left _ (hrow hmem), hkeys⟩
      · obtain ⟨other, hother, rfl⟩ := List.mem_map.mp hnew
        have hfound := (mem_jobs_by_id.mp hother).2
        refine ⟨fun hmem => List.mem_append_right _ (Side.row_mem_rows.mpr hmem), ?_⟩
        cases side with
        | upstream_jobs => exact ⟨hfound, hget⟩
        | downstream_jobs => exact ⟨hget, hfound⟩
  refine ⟨fun e he hmem => ?_, fun e he => ?_, fun e he => ?_⟩
  · obtain ⟨hnow, hnew⟩ := Assigned.mem_inserted.mp he
    exact hnew ((h.2 e hnow).1 hmem)
  · exact h.1 e (List.mem_of_mem_filter he)
  · exact (h.2 e (Assigned.mem_inserted.mp he).1).2

/-- The request, alone on `db`, commits and leaves `db'`. -/
structure Commits (env : Env) (column : JSONBCompat) (id : JobId) (u : UpdateRequest)
    (db : JobTables) (row job : Job) (db' : JobTables) : Prop where
  get : db.jobs.get id = some row
  assigned : update_job_row env u.now row u.data = .ok job
  acyclic : ¬ db.Cyclic id u (db.assigned id u)
  free : job.assigned column row = row ∨ name_taken db.jobs job = false
  get' : db'.jobs.get id = some (Job.flush u.stamp row (job.assigned column row) row)
  dependencies : db'.job_dependencies = (db.assigned id u).apply db.job_dependencies
  beside : Beside id db.jobs db'.jobs

/-- The write of a request that is let through. -/
theorem write_some (column : JSONBCompat) (u : UpdateRequest) (job : Job) (ha : db.Admits a)
    (hget : db.jobs.get id = some row) {loaded : Job}
    (hloaded : loaded.id = id) :
    (∀ db', db.write column u loaded job a = some db' →
      db'.jobs.get id = some (Job.flush u.stamp loaded (job.assigned column loaded) row) ∧
      db'.job_dependencies = a.apply db.job_dependencies ∧ Beside id db.jobs db'.jobs) ∧
    ((db.write column u loaded job a).isSome ↔ job.assigned column loaded = loaded ∨
      name_taken db.jobs (Job.flush u.stamp loaded (job.assigned column loaded) row) = false) := by
  subst hloaded
  unfold JobTables.write
  rw [if_pos ha]
  constructor
  · intro db' h
    obtain ⟨jobs, hupdate, rfl⟩ := Option.map_eq_some_iff.mp h
    refine ⟨?_, rfl, JobRepository.update_beside hupdate⟩
    show jobs.get loaded.id = _
    rw [JobRepository.get_update hupdate, if_pos rfl, hget]
    rfl
  · rw [Option.isSome_map]
    exact JobRepository.update_isSome hget

/-- The name of a row that was flushed onto what was loaded. -/
theorem name_taken_flush {jobs : Table Job} {now : Int} (hid : job.id = row.id) :
    name_taken jobs (Job.flush now row (job.assigned column row) row) = name_taken jobs job := by
  refine name_taken_congr ?_ ?_
  · rw [Job.flush_id, hid]
  · have hval : (Job.flush now row (job.assigned column row) row).val .name = job.val .name := by
      rw [Job.val_flush now row (job.assigned column row) row (c := .name) nofun, emit_loaded]
      rfl
    exact hval

/-- The request alone, computed. -/
theorem update_alone_eq (hget : db.jobs.get id = some row)
    (hrow : update_job_row env u.now row u.data = .ok job) :
    update_alone env column id u db =
      if db.Cyclic id u (db.assigned id u) then (db, .done false)
      else match db.write column u row job (db.assigned id u) with
        | none => (db, .done false)
        | some db' => (db', .done true) := by
  simp only [update_alone, update_steps, update_step, hget, hrow]
  cases hwrite : db.write column u row job (db.assigned id u) with
  | none => simp
  | some db' =>
      by_cases hcyclic : db.Cyclic id u (db.assigned id u)
      · simp only [if_pos hcyclic]
      · simp only [if_neg hcyclic, hwrite]

/-- **The spec lemma of a request alone**: when it commits, and what it leaves. -/
theorem commits_of (column : JSONBCompat) (hget : db.jobs.get id = some row)
    (hrow : update_job_row env u.now row u.data = .ok job)
    (hacyclic : ¬ db.Cyclic id u (db.assigned id u))
    (hfree : job.assigned column row = row ∨ name_taken db.jobs job = false) :
    ∃ db', update_alone env column id u db = (db', .done true) ∧
      Commits env column id u db row job db' := by
  have hid : row.id = id := Table.key_of_get hget
  have hjob : job.id = row.id := (update_job_row_stamp hrow).1
  obtain ⟨hwrite, hsome⟩ := write_some column u job
    (admits_assigned (u := u) (hget ▸ Option.some_ne_none row)) hget hid
  rw [name_taken_flush hjob] at hsome
  obtain ⟨db', hdb'⟩ := Option.isSome_iff_exists.mp (hsome.mpr hfree)
  obtain ⟨hget', hdeps, hbeside⟩ := hwrite db' hdb'
  refine ⟨db', ?_, hget, hrow, hacyclic, hfree, hget', hdeps, hbeside⟩
  rw [update_alone_eq hget hrow, if_neg hacyclic, hdb']

/-- A request alone that has committed. -/
theorem commits_of_alone (h : update_alone env column id u db = (db', .done true)) :
    ∃ row job, Commits env column id u db row job db' := by
  cases hget : db.jobs.get id with
  | none =>
      simp only [update_alone, update_steps, update_step, hget] at h
      cases h
  | some row =>
      cases hrow : update_job_row env u.now row u.data with
      | error e =>
          simp only [update_alone, update_steps, update_step, hget, hrow] at h
          cases h
      | ok job =>
          have hid : row.id = id := Table.key_of_get hget
          have hjob : job.id = row.id := (update_job_row_stamp hrow).1
          obtain ⟨hwrite, hsome⟩ := write_some column u job
            (admits_assigned (u := u) (hget ▸ Option.some_ne_none row)) hget hid
          rw [name_taken_flush hjob] at hsome
          rw [update_alone_eq hget hrow] at h
          split at h
          · cases h
          · next hacyclic =>
              split at h
              · cases h
              · next db₁ hdb₁ =>
                  cases h
                  obtain ⟨hget', hdeps, hbeside⟩ := hwrite db' hdb₁
                  exact ⟨row, job, hget, hrow, hacyclic, hsome.mp (by rw [hdb₁]; rfl), hget', hdeps,
                    hbeside⟩

/-- A request alone that is rejected leaves everything. -/
theorem update_alone_refused (h : ∀ row job, db.jobs.get id = some row →
      update_job_row env u.now row u.data = .ok job → ¬ db.Cyclic id u (db.assigned id u) →
      ¬ (job.assigned column row = row ∨ name_taken db.jobs job = false)) :
    update_alone env column id u db = (db, .done false) := by
  obtain ⟨db', ok, halone⟩ := update_alone_done env column id u db
  cases ok with
  | true =>
      obtain ⟨row, job, hcommits⟩ := commits_of_alone halone
      exact absurd hcommits.free (h row job hcommits.get hcommits.assigned hcommits.acyclic)
  | false =>
      rcases from_update_steps halone with hdone | ⟨rfl, _⟩
      · cases hdone
      · exact halone

end

end Dass
