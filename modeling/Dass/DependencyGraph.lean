/-
# `Dass.DependencyGraph` — the edges of `job_dependencies`, under concurrent requests

What `create_job`, `update_job` and `delete_job` do to `job_dependencies`, one
transaction a request, every number of them at a time under READ COMMITTED.  A
relationship is assigned as a whole, so a request reads the jobs its payload
names and the edges it is to replace, writes the difference, asks whether its job
is now its own descendant, and commits:

    choose    `_jobs_by_id`: the jobs of the payload that exist
    load      the collection that is being replaced
    flush     the difference is written, visible to this transaction alone
    check     `_assert_acyclic`
    commit
    abort     a rejection, an exception, the end of the process

Each statement sees what is committed when it starts, and the check sees the
request's own edges besides.  So the check says nothing about edges committed after
it, and two requests can close a cycle together (`cycle_closed_by_two`); where the
check would still pass at the commit, none is ever closed (`acyclic_run`).
-/
import Dass.Models
import Dass.Lib.Graph
import Dass.Lib.Run
import Mathlib.Logic.Function.Basic

namespace Dass

open Lts EdgeList

abbrev RequestId := Nat

/-- A row of `job_dependencies`: the upstream and the downstream. -/
abbrev Dependency := JobId × JobId

/-- `get_all_descendants`. -/
def get_all_descendants (job_dependencies : List Dependency) (job_id : JobId) : List JobId :=
  reachable job_dependencies job_id

/-! ## Requests -/

/-- The two relationships of a job. -/
inductive Side where
  | upstream_jobs | downstream_jobs
deriving DecidableEq

/-- The row that makes `other` a member of the job's relationship. -/
def Side.row (side : Side) (job other : JobId) : Dependency :=
  match side with
  | .upstream_jobs => (other, job)
  | .downstream_jobs => (job, other)

/-- The rows of the job's relationship. -/
def Side.rows (side : Side) (job : JobId) (rows : List Dependency) : List Dependency :=
  rows.filter fun e => match side with
    | .upstream_jobs => e.2 = job
    | .downstream_jobs => e.1 = job

inductive DependencyRequest where
  | create_job (upstream_job_ids downstream_job_ids : List JobId)
  | update_job (upstream_job_ids downstream_job_ids : Option (List JobId))
  | delete_job

/-- The relationships a request assigns: a create those with a nonempty payload, an update
those that are in the payload. -/
def DependencyRequest.assigns : DependencyRequest → List (Side × List JobId)
  | .create_job up down =>
      (if up = [] then [] else [(.upstream_jobs, up)]) ++
      (if down = [] then [] else [(.downstream_jobs, down)])
  | .update_job up down =>
      up.toList.map (Side.upstream_jobs, ·) ++ down.toList.map (Side.downstream_jobs, ·)
  | .delete_job => []

/-- Whether the request calls `_assert_acyclic`. -/
def DependencyRequest.checks : DependencyRequest → Bool
  | .create_job _ _ => true
  | .update_job up down => up.isSome || down.isSome
  | .delete_job => false

/-- The job's rows as the session has loaded them, and as it has them now. -/
structure Assigned where
  loaded : List Dependency
  now : List Dependency

/-- A relationship is replaced.  A row of the job with itself belongs to both. -/
def Assigned.assign (a : Assigned) (side : Side) (job : JobId) (loaded : List Dependency)
    (chosen : List JobId) : Assigned where
  loaded := a.loaded ++ loaded
  now := (a.now.filter (· ∉ side.rows job a.now)) ++ chosen.map (side.row job)

def Assigned.inserted (a : Assigned) : List Dependency := a.now.filter (· ∉ a.loaded)

def Assigned.deleted (a : Assigned) : List Dependency := a.loaded.filter (· ∉ a.now)

/-- The table with the request's own writes. -/
def Assigned.apply (a : Assigned) (rows : List Dependency) : List Dependency :=
  rows.filter (· ∉ a.deleted) ++ a.inserted

/-- The point a request has reached. -/
inductive RequestPc where
  /-- the relationships it has still to assign -/
  | assigning (todo : List (Side × List JobId)) (a : Assigned)
  /-- `_jobs_by_id` has answered -/
  | chosen (side : Side) (jobs : List JobId) (todo : List (Side × List JobId)) (a : Assigned)
  | flushed (a : Assigned)
  /-- the check has passed; `seen` is what was committed then -/
  | checked (a : Assigned) (seen : List Dependency)

/-- A request, in its transaction. -/
structure Request where
  job : JobId
  request : DependencyRequest
  pc : RequestPc

/-! ## The database and the requests on it -/

structure Api where
  /-- the keys of `jobs` -/
  jobs : List JobId
  job_dependencies : List Dependency
  requests : RequestId → Option Request

def Api.start (jobs : List JobId) (job_dependencies : List Dependency) : Api :=
  ⟨jobs, job_dependencies, fun _ => none⟩

inductive Api.Label where
  | begin (r : RequestId) (job : JobId) (request : DependencyRequest)
  | choose (r : RequestId)
  | load (r : RequestId)
  | flush (r : RequestId)
  | check (r : RequestId)
  | commit (r : RequestId)
  | abort (r : RequestId)

/-- `get_job` finds the job; a new one has an id no other has. -/
def Api.accepts (s : Api) (job : JobId) : DependencyRequest → Prop
  | .create_job _ _ => job ∉ s.jobs
  | .update_job _ _ | .delete_job => job ∈ s.jobs

/-- The keys of `jobs` as the request leaves them. -/
def Api.jobs_with (s : Api) (req : Request) : List JobId :=
  match req.request with
  | .create_job _ _ => req.job :: s.jobs
  | .update_job _ _ | .delete_job => s.jobs

/-- The constraints let the writes through: what is inserted is new and refers to jobs that
are there, deleted rows are still there.  A statement that another open transaction keeps
waiting finds out afterwards. -/
structure Api.Admits (s : Api) (req : Request) (a : Assigned) : Prop where
  primary_key : ∀ up down, req.request = .create_job up down → req.job ∉ s.jobs
  unique : ∀ e ∈ a.inserted, e ∉ s.job_dependencies
  matched : ∀ e ∈ a.deleted, e ∈ s.job_dependencies
  foreign_key : ∀ e ∈ a.inserted, e.1 ∈ s.jobs_with req ∧ e.2 ∈ s.jobs_with req

open Function in
inductive Api.Step : Api → Api.Label → Api → Prop
  | begin {s : Api} {r job request} : s.requests r = none → s.accepts job request →
      Api.Step s (.begin r job request) { s with
        requests := update s.requests r
          (some ⟨job, request, .assigning request.assigns ⟨[], []⟩⟩) }
  | choose {s : Api} {r req side ids todo a} : s.requests r = some req →
      req.pc = .assigning ((side, ids) :: todo) a →
      Api.Step s (.choose r) { s with
        requests := update s.requests r
          (some { req with pc := .chosen side (s.jobs.filter (· ∈ ids)) todo a }) }
  | load {s : Api} {r req side jobs todo a} : s.requests r = some req →
      req.pc = .chosen side jobs todo a →
      Api.Step s (.load r) { s with
        requests := update s.requests r (some { req with
          pc := .assigning todo
            (a.assign side req.job (side.rows req.job s.job_dependencies) jobs) }) }
  | flush {s : Api} {r req a} : s.requests r = some req → req.pc = .assigning [] a →
      req.request ≠ .delete_job → s.Admits req a →
      Api.Step s (.flush r) { s with
        requests := update s.requests r (some { req with pc := .flushed a }) }
  | check {s : Api} {r req a} : s.requests r = some req → req.pc = .flushed a →
      (req.request.checks = true →
        req.job ∉ get_all_descendants (a.apply s.job_dependencies) req.job) →
      Api.Step s (.check r) { s with
        requests := update s.requests r
          (some { req with pc := .checked a s.job_dependencies }) }
  | commit {s : Api} {r req a seen} : s.requests r = some req → req.pc = .checked a seen →
      s.Admits req a →
      Api.Step s (.commit r)
        { jobs := s.jobs_with req, job_dependencies := a.apply s.job_dependencies
          requests := update s.requests r none }
  | delete {s : Api} {r req a} : s.requests r = some req → req.pc = .assigning [] a →
      req.request = .delete_job →
      Api.Step s (.commit r)
        { jobs := s.jobs.filter (· ≠ req.job)
          job_dependencies := s.job_dependencies.filter fun e => e.1 ≠ req.job ∧ e.2 ≠ req.job
          requests := update s.requests r none }
  | abort {s : Api} {r} :
      Api.Step s (.abort r) { s with requests := update s.requests r none }

/-- The check of a request that commits would still pass. -/
def Api.StillAcyclic (s : Api) : Api.Label → Prop
  | .commit r => ∀ req a seen, s.requests r = some req → req.pc = .checked a seen →
      req.request.checks = true →
      req.job ∉ get_all_descendants (a.apply s.job_dependencies) req.job
  | _ => True

/-! ## What a request writes -/

theorem mem_get_all_descendants {rows : List Dependency} {a b : JobId} :
    b ∈ get_all_descendants rows a ↔ Below rows a b := mem_reachable

theorem Side.touches {side : Side} {job other : JobId} :
    (side.row job other).1 = job ∨ (side.row job other).2 = job := by
  cases side with
  | upstream_jobs => exact .inr rfl
  | downstream_jobs => exact .inl rfl

/-- A request writes rows of its own job alone. -/
def Assigned.Local (a : Assigned) (job : JobId) : Prop :=
  ∀ e ∈ a.now, e.1 = job ∨ e.2 = job

theorem Assigned.Local.assign {a : Assigned} {job : JobId} (h : a.Local job) (side : Side)
    (loaded : List Dependency) (chosen : List JobId) :
    (a.assign side job loaded chosen).Local job := by
  intro e he
  rcases List.mem_append.mp he with hold | hnew
  · exact h e (List.mem_of_mem_filter hold)
  · obtain ⟨other, _, rfl⟩ := List.mem_map.mp hnew
    exact Side.touches

theorem Assigned.mem_apply {a : Assigned} {rows : List Dependency} {e : Dependency}
    (h : e ∈ a.apply rows) : e ∈ rows ∨ e ∈ a.now := by
  rcases List.mem_append.mp h with hold | hnew
  · exact .inl (List.mem_of_mem_filter hold)
  · exact .inr (List.mem_of_mem_filter hnew)

/-- With fewer rows committed, fewer are there after the writes. -/
theorem Assigned.apply_mono {a : Assigned} {rows rows' : List Dependency}
    (hsub : ∀ e ∈ rows, e ∈ rows') : ∀ e ∈ a.apply rows, e ∈ a.apply rows' := by
  intro e he
  rcases List.mem_append.mp he with hold | hnew
  · obtain ⟨hmem, hkept⟩ := List.mem_filter.mp hold
    exact List.mem_append_left _ (List.mem_filter.mpr ⟨hsub e hmem, hkept⟩)
  · exact List.mem_append_right _ hnew

/-! ## The invariant -/

/-- What a request's session holds.  One that assigns no relationship is not checked. -/
def Request.Ok (req : Request) : Prop :=
  match req.pc with
  | .assigning todo a =>
      a.Local req.job ∧ (req.request.checks = false → todo = [] ∧ a.now = [])
  | .chosen _ _ _ a => a.Local req.job ∧ req.request.checks = true
  | .flushed a => a.Local req.job ∧ (req.request.checks = false → a.now = [])
  | .checked a seen => a.Local req.job ∧ (req.request.checks = false → a.now = []) ∧
      (req.request.checks = true → req.job ∉ get_all_descendants (a.apply seen) req.job)

structure ApiInv (s : Api) : Prop where
  acyclic : Acyclic s.job_dependencies
  request : ∀ r req, s.requests r = some req → req.Ok

theorem DependencyRequest.assigns_unchecked {request : DependencyRequest}
    (h : request.checks = false) : request.assigns = [] := by
  cases request with
  | create_job => cases h
  | update_job up down =>
      cases up with
      | some => cases h
      | none =>
          cases down with
          | some => cases h
          | none => rfl
  | delete_job => rfl

/-- **The lemma of a commit**: it keeps the graph acyclic just where the check would pass. -/
theorem acyclic_apply {rows : List Dependency} {req : Request} {a : Assigned}
    (h : Acyclic rows) (hlocal : a.Local req.job)
    (hnone : req.request.checks = false → a.now = []) :
    Acyclic (a.apply rows) ↔ (req.request.checks = true →
      req.job ∉ get_all_descendants (a.apply rows) req.job) := by
  rw [mem_get_all_descendants]
  refine ⟨fun hacyclic _ => hacyclic req.job, fun hcheck => ?_⟩
  cases hchecks : req.request.checks with
  | true =>
      refine h.of_vertex (fun e he => ?_) (hcheck hchecks)
      rcases Assigned.mem_apply he with hold | hnew
      · exact .inl hold
      · exact .inr (hlocal e hnew)
  | false =>
      refine h.mono fun e he => ?_
      rcases Assigned.mem_apply he with hold | hnew
      · exact hold
      · rw [hnone hchecks] at hnew
        cases hnew

theorem acyclic_commit {s s' : Api} {r : RequestId} (hi : ApiInv s)
    (h : Api.Step s (.commit r) s') :
    Acyclic s'.job_dependencies ↔ s.StillAcyclic (.commit r) := by
  cases h with
  | commit hreq hpc =>
      have hok := hi.request r _ hreq
      unfold Request.Ok at hok
      rw [hpc] at hok
      rw [acyclic_apply hi.acyclic hok.1 hok.2.1]
      constructor
      · rintro hcheck req' a' seen' hreq' hpc'
        rw [hreq] at hreq'
        cases hreq'
        rw [hpc] at hpc'
        cases hpc'
        exact hcheck
      · intro hcheck
        exact hcheck _ _ _ hreq hpc
  | delete hreq hpc =>
      refine iff_of_true (hi.acyclic.mono fun e he => List.mem_of_mem_filter he) ?_
      intro req' a' seen' hreq' hpc'
      rw [hreq] at hreq'
      cases hreq'
      rw [hpc] at hpc'
      cases hpc'

/-- **The step lemma.** -/
theorem apiInv_step {s s' : Api} {l : Api.Label} (hi : ApiInv s) (hl : s.StillAcyclic l)
    (h : Api.Step s l s') : ApiInv s' := by
  -- one request moves, or ends, and nothing is committed
  have moves : ∀ {r : RequestId} {new : Option Request}, (∀ req, new = some req → req.Ok) →
      ∀ r' req, Function.update s.requests r new r' = some req → req.Ok := by
    intro r new hnew r' req hreq
    rw [Function.update_apply] at hreq
    split at hreq
    · exact hnew req hreq
    · exact hi.request r' req hreq
  have hstep := h
  cases h with
  | begin _ _ =>
      refine ⟨hi.acyclic, moves fun req heq => ?_⟩
      cases heq
      refine ⟨?_, fun hchecks => ⟨DependencyRequest.assigns_unchecked hchecks, rfl⟩⟩
      intro e he
      cases he
  | choose hreq hpc =>
      have hok := hi.request _ _ hreq
      unfold Request.Ok at hok
      rw [hpc] at hok
      refine ⟨hi.acyclic, moves fun req heq => ?_⟩
      cases heq
      refine ⟨hok.1, ?_⟩
      by_contra hchecks
      cases (hok.2 (by simpa using hchecks)).1
  | load hreq hpc =>
      have hok := hi.request _ _ hreq
      unfold Request.Ok at hok
      rw [hpc] at hok
      refine ⟨hi.acyclic, moves fun req heq => ?_⟩
      cases heq
      refine ⟨hok.1.assign _ _ _, fun hchecks => ?_⟩
      rw [hok.2] at hchecks
      cases hchecks
  | flush hreq hpc =>
      have hok := hi.request _ _ hreq
      unfold Request.Ok at hok
      rw [hpc] at hok
      refine ⟨hi.acyclic, moves fun req heq => ?_⟩
      cases heq
      exact ⟨hok.1, fun hchecks => (hok.2 hchecks).2⟩
  | check hreq hpc hcheck =>
      have hok := hi.request _ _ hreq
      unfold Request.Ok at hok
      rw [hpc] at hok
      refine ⟨hi.acyclic, moves fun req heq => ?_⟩
      cases heq
      exact ⟨hok.1, hok.2, hcheck⟩
  | commit | delete => exact ⟨(acyclic_commit hi hstep).mpr hl, moves nofun⟩
  | abort => exact ⟨hi.acyclic, moves nofun⟩

/-- **The graph stays acyclic where the check still holds at the commit.**  In every state of
every run, from acyclic rows, in which each request commits while its check would still pass,
the committed rows are acyclic.  A commit keeps them so just then; and it always does where
every row there is at the commit was there at the check. -/
theorem acyclic_run (jobs : List JobId) (rows : List Dependency) (hrows : Acyclic rows)
    {s : Api} (hrun : Run Api.Step Api.StillAcyclic (.start jobs rows) s) :
    Acyclic s.job_dependencies ∧
    (∀ r s', Api.Step s (.commit r) s' →
      (Acyclic s'.job_dependencies ↔ s.StillAcyclic (.commit r))) ∧
    ∀ r req a seen, s.requests r = some req → req.pc = .checked a seen →
      (∀ e ∈ s.job_dependencies, e ∈ seen) → s.StillAcyclic (.commit r) := by
  have hi : ApiInv s :=
    hrun.invariant (fun hi hl h => apiInv_step hi hl h)
      ⟨hrows, by intro _ _ h; cases h⟩
  refine ⟨hi.acyclic, fun r s' h => acyclic_commit hi h, fun r req a seen hreq hpc hsub => ?_⟩
  intro req' a' seen' hreq' hpc' hchecks
  rw [hreq] at hreq'
  cases hreq'
  rw [hpc] at hpc'
  cases hpc'
  have hok := hi.request r req hreq
  unfold Request.Ok at hok
  rw [hpc] at hok
  have hseen := hok.2.2 hchecks
  rw [mem_get_all_descendants] at hseen ⊢
  exact fun hbelow => hseen (hbelow.mono (Assigned.apply_mono hsub))

/-- A job is made the downstream of another. -/
theorem acyclic_run_update : ∃ s,
    Run Api.Step Api.StillAcyclic (.start [1, 2] []) s ∧ s.job_dependencies = [(1, 2)] ∧
    Acyclic s.job_dependencies := by
  have h : Run Api.Step Api.StillAcyclic (.start [1, 2] []) (.start [1, 2] []) := .refl
  have h := h.snoc (l := Api.Label.begin 1 1 (.update_job none (some [2]))) trivial
    (.begin rfl List.mem_cons_self)
  have h := h.snoc (l := Api.Label.choose 1) trivial (.choose rfl rfl)
  have h := h.snoc (l := Api.Label.load 1) trivial (.load rfl rfl)
  have h := h.snoc (l := Api.Label.flush 1) trivial
    (.flush rfl rfl nofun ⟨nofun, by decide, by decide, by decide⟩)
  have h := h.snoc (l := Api.Label.check 1) trivial (.check rfl rfl (by decide))
  have h := h.snoc (l := Api.Label.commit 1)
    (by rintro req a seen ⟨⟩ ⟨⟩; decide)
    (.commit rfl rfl ⟨nofun, by decide, by decide, by decide⟩)
  exact ⟨_, h, rfl, (acyclic_run [1, 2] [] acyclic_nil h).1⟩

/-- Two requests make each of two jobs the downstream of the other; both checks pass before
either commits. -/
theorem cycle_closed_by_two : ∃ s,
    Acyclic ([] : List Dependency) ∧ Run Api.Step Any (.start [1, 2] []) s ∧
    s.job_dependencies = [(1, 2), (2, 1)] ∧ ¬ Acyclic s.job_dependencies := by
  have h : Run Api.Step Any (.start [1, 2] []) (.start [1, 2] []) := .refl
  have h := h.snoc (l := Api.Label.begin 1 1 (.update_job none (some [2]))) trivial
    (.begin rfl List.mem_cons_self)
  have h := h.snoc (l := Api.Label.begin 2 2 (.update_job none (some [1]))) trivial
    (.begin rfl (List.mem_cons_of_mem _ List.mem_cons_self))
  have h := h.snoc (l := Api.Label.choose 1) trivial (.choose rfl rfl)
  have h := h.snoc (l := Api.Label.load 1) trivial (.load rfl rfl)
  have h := h.snoc (l := Api.Label.flush 1) trivial
    (.flush rfl rfl nofun ⟨nofun, by decide, by decide, by decide⟩)
  have h := h.snoc (l := Api.Label.choose 2) trivial (.choose rfl rfl)
  have h := h.snoc (l := Api.Label.load 2) trivial (.load rfl rfl)
  have h := h.snoc (l := Api.Label.flush 2) trivial
    (.flush rfl rfl nofun ⟨nofun, by decide, by decide, by decide⟩)
  have h := h.snoc (l := Api.Label.check 1) trivial (.check rfl rfl (by decide))
  have h := h.snoc (l := Api.Label.check 2) trivial (.check rfl rfl (by decide))
  have h := h.snoc (l := Api.Label.commit 1) trivial
    (.commit rfl rfl ⟨nofun, by decide, by decide, by decide⟩)
  have h := h.snoc (l := Api.Label.commit 2) trivial
    (.commit rfl rfl ⟨nofun, by decide, by decide, by decide⟩)
  refine ⟨_, acyclic_nil, h, rfl, fun hacyclic => hacyclic 1 ?_⟩
  have hedge : Edge [(1, 2), (2, 1)] 1 2 := List.mem_cons_self
  have hback : Edge [(1, 2), (2, 1)] 2 1 := List.mem_cons_of_mem _ List.mem_cons_self
  exact (Relation.TransGen.single hedge).tail hback

end Dass
