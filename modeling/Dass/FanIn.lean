/-
# `Dass.FanIn` — one run of a job per generation of its upstreams

A job with several upstreams, run after run: in a round every upstream gets one
task, which succeeds; a pass observes that, the job runs, and the next round
begins when its run has succeeded.  Passes may come at any time, and so may the
tasks of other jobs.  The job should be dispatched once a round
(`fan_in_once_per_round`), and is, unless a pass comes when one upstream has
succeeded again and another has no task of the round yet: the latter's success of
the round before then counts for this one.  The first round has none before it, so
`fan_in_fires_early` needs two.

The invariant knows when the round began, `b`, and tells the rounds apart by it:
the tasks of an upstream older than `b` belong to earlier rounds, the others to
this one.
-/
import Dass.DependencyRuns
import Dass.JobService
import Dass.Lib.Run

namespace Dass

open Lts
open TaskRepository (latest_task)

/-! ## Rounds -/

/-- The database, and the number of the round it is in. -/
structure Rounds where
  db : Chain
  round : Nat

inductive Rounds.Label where
  | act (l : Chain.Label)
  | next

/-- No task yet, and the first round. -/
def Rounds.start (jobs : Table Job) (job_dependencies : List (JobId × JobId)) (now : Int) :
    Rounds where
  db := ⟨now, jobs, job_dependencies, .empty, []⟩
  round := 1

namespace Rounds

variable (c : JobId)

/-- No upstream has more than one task of this round. -/
def InRound (s : Rounds) : Prop :=
  ∀ up ∈ s.db.upstream_jobs c, (s.db.tasks_of up.id).length ≤ s.round

/-- Every upstream has its task of this round, and it has succeeded. -/
def Complete (s : Rounds) : Prop :=
  ∀ up ∈ s.db.upstream_jobs c, (s.db.tasks_of up.id).length = s.round ∧
    ∀ task ∈ s.db.tasks_of up.id, task.status = .success

/-- No success of an upstream is left unprocessed. -/
def Observed (s : Rounds) : Prop :=
  ∀ up ∈ s.db.upstream_jobs c, ∀ task ∈ s.db.tasks_of up.id, task.status = .success →
    task.processed_for_chaining = true

/-- The job has run, and its latest task is a success. -/
def Succeeded (s : Rounds) : Prop :=
  ∃ task ∈ latest_task s.db.tasks c, task.status = .success

/-- The job gets its tasks from the passes, and from the worker that retries a failed one. -/
def Admits (db : Chain) : Chain.Label → Prop
  | .create _ job_id trigger_type retry_count => job_id = c →
      ∃ task ∈ latest_task db.tasks c, task.status = .failed ∧
        trigger_type = task.trigger_type ∧ retry_count = task.retry_count + 1
  | _ => True

/-- A run in rounds. -/
inductive Step : Rounds → Rounds.Label → Rounds → Prop
  | act {s : Rounds} {l db'} : s.db.Step l db' → Admits c s.db l → InRound c ⟨db', s.round⟩ →
      Step s (.act l) ⟨db', s.round⟩
  | next {s : Rounds} : Complete c s → Observed c s → Succeeded c s →
      Step s .next { s with round := s.round + 1 }

/-- A pass would take a success of the round before for one of this round: every upstream's
latest task is a success, one of them is observed, and some upstream has no task of this
round yet. -/
def Early (s : Rounds) : Prop :=
  (∃ up ∈ s.db.upstream_jobs c, (s.db.tasks_of up.id).length < s.round) ∧
  s.db.UpstreamsSucceeded (latest_task s.db.tasks) c ∧
  ∃ up ∈ s.db.upstream_jobs c, ∃ task ∈ s.db.observed, task.job_id = up.id

/-- No pass comes early, and no task of an upstream succeeds at the instant of its
creation. -/
def Timely (s : Rounds) : Rounds.Label → Prop
  | .act (.pass _) => ¬ Early c s
  | .act (.event id (.success _ _)) => ∀ up ∈ s.db.upstream_jobs c,
      ∀ task ∈ s.db.tasks_of up.id, task.id = id → task.created_at < s.db.now
  | _ => True

end Rounds

/-! ## The invariant -/

section Invariant

variable (c : JobId) (U : List Job) (b : Int)

/-- What holds of the rows in a round that began at `b`, dispatched or not. -/
structure RoundOk (s : Rounds) : Prop where
  began : b ≤ s.db.now
  created : ∀ x ∈ s.db.tasks.rows, x.created_at ≤ s.db.now
  stamps : ∀ x ∈ s.db.tasks.rows, ∀ t ∈ x.finished_at, x.created_at ≤ t ∧ t ≤ s.db.now
  marked : ∀ x ∈ s.db.tasks.rows, x.processed_for_chaining = true → x.status = .success
  late : ∀ up ∈ U, ∀ x ∈ s.db.tasks_of up.id, x.status = .success →
    x.created_at < _completed_at x
  old : ∀ up ∈ U, ∀ x ∈ s.db.tasks_of up.id, x.created_at < b →
    x.status = .success ∧ x.processed_for_chaining = true
  count : ∀ up ∈ U, (s.db.tasks_of up.id).length + 1 = (s.db.given b up.id).length + s.round
  inRound : ∀ up ∈ U, (s.db.tasks_of up.id).length ≤ s.round

/-- The job has not been dispatched in this round: its latest run ended before the round
began, and once all upstreams are done one of their successes is still to be observed. -/
structure Waiting (s : Rounds) : Prop where
  count : s.db.dependency_runs c + 1 = s.round
  own : ∀ x ∈ latest_task s.db.tasks c, x.status = .success ∧ _completed_at x ≤ b
  unseen : (∀ up ∈ U, ∃ x ∈ s.db.given b up.id, x.status = .success) →
    ∃ up ∈ U, ∃ x ∈ s.db.given b up.id, x.status = .success ∧ x.processed_for_chaining = false

/-- Every upstream has its task of this round, and no task of an upstream is unfinished. -/
structure Settled (s : Rounds) : Prop where
  given : ∀ up ∈ U, s.db.given b up.id ≠ []
  success : ∀ up ∈ U, ∀ x ∈ s.db.tasks_of up.id, x.status = .success

/-- The job has been dispatched in this round, after all upstreams had completed. -/
structure Fired (s : Rounds) : Prop where
  count : s.db.dependency_runs c = s.round
  settled : Settled U b s
  own : ∃ y ∈ s.db.tasks_of c, ∀ up ∈ U, ∀ x ∈ s.db.tasks_of up.id,
    _completed_at x ≤ y.created_at

/-- The invariant: `b` is when the round began. -/
structure FanInv (s : Rounds) : Prop where
  ups : s.db.upstream_jobs c = U
  job : ∃ job, s.db.jobs.get c = some job ∧ job.enabled = true
  round : ∃ b, RoundOk U b s ∧ (Waiting c U b s ∨ Fired c U b s)

end Invariant

section Facts

variable {c : JobId} {U : List Job} {b : Int} {s : Rounds}

theorem RoundOk.completed_le (h : RoundOk U b s) {x : Task} (hx : x ∈ s.db.tasks.rows) :
    x.created_at ≤ _completed_at x ∧ _completed_at x ≤ s.db.now := by
  unfold _completed_at
  cases hf : x.finished_at with
  | none => exact ⟨le_rfl, h.created x hx⟩
  | some t => exact h.stamps x hx t hf

/-- An upstream has one task of this round at most. -/
theorem RoundOk.given_le_one (h : RoundOk U b s) {up : Job} (hup : up ∈ U) :
    (s.db.given b up.id).length ≤ 1 := by
  have hcount := h.count up hup
  have hle := h.inRound up hup
  omega

theorem RoundOk.given_unique (h : RoundOk U b s) {up : Job} (hup : up ∈ U) {x y : Task}
    (hx : x ∈ s.db.given b up.id) (hy : y ∈ s.db.given b up.id) : x = y := by
  have hle := h.given_le_one hup
  match hl : s.db.given b up.id with
  | [] => rw [hl] at hx; cases hx
  | [z] => rw [hl, List.mem_singleton] at hx hy; exact hx.trans hy.symm
  | _ :: _ :: _ => rw [hl, List.length_cons, List.length_cons] at hle; omega

/-- The latest task of an upstream that has one of this round is that one. -/
theorem RoundOk.latest_given (h : RoundOk U b s) {up : Job} (hup : up ∈ U) {x : Task}
    (hx : x ∈ s.db.given b up.id) : latest_task s.db.tasks up.id = some x := by
  obtain ⟨hof, hb⟩ := Chain.mem_given.mp hx
  obtain ⟨hrow, hjob⟩ := Chain.mem_tasks_of.mp hof
  cases hl : latest_task s.db.tasks up.id with
  | none => exact absurd hjob (TaskRepository.latest_task_eq_none.mp hl x hrow)
  | some t =>
      obtain ⟨ht, htjob⟩ := TaskRepository.latest_task_mem hl
      have hle := TaskRepository.created_at_le_latest hl hrow hjob
      have hgiven : t ∈ s.db.given b up.id :=
        Chain.mem_given.mpr ⟨Chain.mem_tasks_of.mpr ⟨ht, htjob⟩, le_trans hb hle⟩
      rw [h.given_unique hup hx hgiven]

/-- Where every upstream's task of this round has succeeded, so have all before it. -/
theorem RoundOk.success_of_given (h : RoundOk U b s) {up : Job} (hup : up ∈ U)
    (hgiven : ∀ x ∈ s.db.given b up.id, x.status = .success) :
    ∀ x ∈ s.db.tasks_of up.id, x.status = .success := by
  intro x hx
  rcases lt_or_ge x.created_at b with hlt | hge
  · exact (h.old up hup x hx hlt).1
  · exact hgiven x (Chain.mem_given.mpr ⟨hx, hge⟩)

end Facts

/-! ## Keeping it -/

section Keeping

variable {c : JobId} {U : List Job} {b : Int} {s : Rounds} {db' : Chain} {g : Task → Task}
  {added : List Task}

/-- **The step lemma** for what holds in every phase of a round. -/
theorem RoundOk.grows (hi : RoundOk U b s)
    (h : Grows s.db.now s.db.tasks.rows db'.tasks.rows g added) (hnow : s.db.now ≤ db'.now)
    (hlate : ∀ up ∈ U, ∀ x ∈ s.db.tasks_of up.id, (g x).status = .success →
      x.status = .success ∨ x.created_at < s.db.now)
    (hround : ∀ up ∈ U, (db'.tasks_of up.id).length ≤ s.round) : RoundOk U b ⟨db', s.round⟩ where
  began := le_trans hi.began hnow
  created := by
    intro x' hx'
    rcases h.mem.mp hx' with ⟨x, hx, rfl⟩ | hnew
    · rw [h.created_at]
      exact le_trans (hi.created x hx) hnow
    · obtain ⟨_, _, _, _, rfl⟩ := h.fresh x' hnew
      exact hnow
  stamps := by
    intro x' hx' t ht
    rcases h.mem.mp hx' with ⟨x, hx, rfl⟩ | hnew
    · rw [h.created_at]
      rcases (h.kept x hx).stamp with hsame | hstamp
      · rw [hsame] at ht
        exact ⟨(hi.stamps x hx t ht).1, le_trans (hi.stamps x hx t ht).2 hnow⟩
      · rw [hstamp, Option.mem_some_iff] at ht
        exact ht ▸ ⟨hi.created x hx, hnow⟩
    · obtain ⟨_, _, _, _, rfl⟩ := h.fresh x' hnew
      cases ht
  marked := by
    intro x' hx' hp
    rcases h.mem.mp hx' with ⟨x, hx, rfl⟩ | hnew
    · by_cases hs : x.status = .success
      · exact ((h.kept x hx).success hs).1
      · rw [(h.kept x hx).marked hs] at hp
        exact absurd (hi.marked x hx hp) hs
    · obtain ⟨_, _, _, _, rfl⟩ := h.fresh x' hnew
      cases hp
  late := by
    intro up hup x' hx' hs'
    rcases h.mem_tasks_of hx' with ⟨x, hx, rfl⟩ | ⟨hnew, _⟩
    · have hrow := (Chain.mem_tasks_of.mp hx).1
      by_cases hs : x.status = .success
      · rw [h.completed hrow hs, h.created_at]
        exact hi.late up hup x hx hs
      · have hlt := (hlate up hup x hx hs').resolve_left hs
        have hstamp := ((h.kept x hrow).result hs').resolve_left hs
        rw [_completed_at, hstamp, h.created_at]
        exact hlt
    · obtain ⟨_, _, _, _, rfl⟩ := h.fresh x' hnew
      cases hs'
  old := by
    intro up hup x' hx' hlt
    rcases h.mem_tasks_of hx' with ⟨x, hx, rfl⟩ | ⟨hnew, _⟩
    · rw [h.created_at] at hlt
      obtain ⟨hs, hp⟩ := hi.old up hup x hx hlt
      have hkept := (h.kept x (Chain.mem_tasks_of.mp hx).1).success hs
      exact ⟨hkept.1, hkept.2.2 hp⟩
    · obtain ⟨_, _, _, _, rfl⟩ := h.fresh x' hnew
      exact absurd hi.began (not_le.mpr hlt)
  count := by
    intro up hup
    have hcount := hi.count up hup
    have hof := h.length_tasks_of up.id
    have hgiven := h.length_given hi.began up.id
    simp only
    omega
  inRound := hround

/-- In a settled round no upstream gets another task. -/
theorem Settled.mem_tasks_of (hi : RoundOk U b s) (hs : Settled U b s)
    (h : Grows s.db.now s.db.tasks.rows db'.tasks.rows g added)
    (hround : ∀ up ∈ U, (db'.tasks_of up.id).length ≤ s.round) {up : Job} (hup : up ∈ U)
    {x' : Task} (hx' : x' ∈ db'.tasks_of up.id) : ∃ x ∈ s.db.tasks_of up.id, g x = x' := by
  rcases h.mem_tasks_of hx' with hx | ⟨hnew, hjob⟩
  · exact hx
  · have hmem : x' ∈ added.filter fun task => task.job_id = up.id :=
      List.mem_filter.mpr ⟨hnew, decide_eq_true hjob⟩
    have hadded := List.length_pos_of_mem hmem
    have hcount := hi.count up hup
    have hpos := List.length_pos_of_ne_nil (hs.given up hup)
    have hof := h.length_tasks_of up.id
    have hle := hround up hup
    omega

theorem Settled.grows (hi : RoundOk U b s) (hs : Settled U b s)
    (h : Grows s.db.now s.db.tasks.rows db'.tasks.rows g added)
    (hround : ∀ up ∈ U, (db'.tasks_of up.id).length ≤ s.round) : Settled U b ⟨db', s.round⟩ where
  given := by
    intro up hup
    have hpos := List.length_pos_of_ne_nil (hs.given up hup)
    have hgiven := h.length_given hi.began up.id
    exact List.ne_nil_of_length_pos (by simp only; omega)
  success := by
    intro up hup x' hx'
    obtain ⟨x, hx, rfl⟩ := hs.mem_tasks_of hi h hround hup hx'
    exact ((h.kept x (Chain.mem_tasks_of.mp hx).1).success (hs.success up hup x hx)).1

/-- Its completions stay where they are. -/
theorem Settled.completed (hi : RoundOk U b s) (hs : Settled U b s)
    (h : Grows s.db.now s.db.tasks.rows db'.tasks.rows g added)
    (hround : ∀ up ∈ U, (db'.tasks_of up.id).length ≤ s.round) {up : Job} (hup : up ∈ U)
    {x' : Task} (hx' : x' ∈ db'.tasks_of up.id) :
    ∃ x ∈ s.db.tasks_of up.id, _completed_at x' = _completed_at x := by
  obtain ⟨x, hx, rfl⟩ := hs.mem_tasks_of hi h hround hup hx'
  exact ⟨x, hx, h.completed (Chain.mem_tasks_of.mp hx).1 (hs.success up hup x hx)⟩

/-- Once dispatched, a round stays dispatched. -/
theorem Fired.grows (hi : RoundOk U b s) (hf : Fired c U b s)
    (h : Grows s.db.now s.db.tasks.rows db'.tasks.rows g added)
    (hround : ∀ up ∈ U, (db'.tasks_of up.id).length ≤ s.round)
    (hruns : db'.dependency_runs c = s.db.dependency_runs c) : Fired c U b ⟨db', s.round⟩ := by
  refine ⟨hruns.trans hf.count, hf.settled.grows hi h hround, ?_⟩
  obtain ⟨y, hy, hle⟩ := hf.own
  obtain ⟨hrow, hjob⟩ := Chain.mem_tasks_of.mp hy
  refine ⟨g y, Chain.mem_tasks_of.mpr ⟨h.mem.mpr (.inl ⟨y, hrow, rfl⟩), ?_⟩, ?_⟩
  · exact (h.job_id y).trans hjob
  · intro up hup x' hx'
    obtain ⟨x, hx, heq⟩ := hf.settled.completed hi h hround hup hx'
    rw [heq, h.created_at]
    exact hle up hup x hx

/-- The latest run of a waiting job stays what it is. -/
theorem Waiting.own_grows (hw : Waiting c U b s)
    (h : Grows s.db.now s.db.tasks.rows db'.tasks.rows g added)
    (hnone : ∀ x ∈ added, x.job_id ≠ c) :
    ∀ x ∈ latest_task db'.tasks c, x.status = .success ∧ _completed_at x ≤ b := by
  intro x' hx'
  rw [Option.mem_def, h.latest_task hnone] at hx'
  obtain ⟨x, hx, rfl⟩ := Option.map_eq_some_iff.mp hx'
  obtain ⟨hs, hle⟩ := hw.own x hx
  have hrow := (TaskRepository.latest_task_mem hx).1
  exact ⟨((h.kept x hrow).success hs).1, (h.completed hrow hs).trans_le hle⟩

/-- While nothing is marked, a waiting job waits on. -/
theorem Waiting.grows (hi : RoundOk U b s) (hw : Waiting c U b s)
    (h : Grows s.db.now s.db.tasks.rows db'.tasks.rows g added)
    (hquiet : ∀ x, (g x).processed_for_chaining = x.processed_for_chaining)
    (hnone : ∀ x ∈ added, x.job_id ≠ c)
    (hruns : db'.dependency_runs c = s.db.dependency_runs c) :
    Waiting c U b ⟨db', s.round⟩ := by
  refine ⟨by rw [hruns]; exact hw.count, hw.own_grows h hnone, fun hall => ?_⟩
  by_cases hbefore : ∀ up ∈ U, ∃ x ∈ s.db.given b up.id, x.status = .success
  · obtain ⟨up, hup, x, hx, hs, hp⟩ := hw.unseen hbefore
    have hrow := (Chain.mem_tasks_of.mp (Chain.mem_given.mp hx).1).1
    exact ⟨up, hup, g x, h.given_of_mem hx, ((h.kept x hrow).success hs).1, hquiet x ▸ hp⟩
  · -- an upstream whose task has succeeded just now is not marked
    simp only [not_forall, not_exists, not_and] at hbefore
    obtain ⟨up, hup, hnot⟩ := hbefore
    obtain ⟨x', hx', hs'⟩ := hall up hup
    obtain ⟨x, hx, rfl⟩ := h.mem_given hx' hs'
    have hrow := (Chain.mem_tasks_of.mp (Chain.mem_given.mp hx).1).1
    refine ⟨up, hup, g x, hx', hs', ?_⟩
    rw [hquiet, Bool.eq_false_iff]
    exact fun hp => hnot x hx (hi.marked x hrow hp)

end Keeping

/-! ## The pass -/

section Pass

variable {c : JobId} {U : List Job} {b : Int} {s : Rounds} {db' : Chain} {ids : JobId → TaskId}

/-- A dispatched round is not dispatched again: the job's latest task is no older than
any completion. -/
theorem Fired.not_dispatched (hups : s.db.upstream_jobs c = U) (hi : RoundOk U b s)
    (hf : Fired c U b s) : ¬ s.db.Dispatched c := by
  rintro ⟨job, hmem, rfl⟩
  obtain ⟨_, _, hbefore⟩ := Chain.ready_iff.mp (Chain.mem_dispatched hmem).2
  obtain ⟨y, hy, hle⟩ := hf.own
  obtain ⟨hyrow, hyjob⟩ := Chain.mem_tasks_of.mp hy
  cases hl : latest_task s.db.tasks job.id with
  | none => exact TaskRepository.latest_task_eq_none.mp hl y hyrow hyjob
  | some own =>
      obtain ⟨up, hup, task, htask, hlt⟩ := hbefore own hl
      have hof := Chain.mem_tasks_of.mpr (TaskRepository.latest_task_mem htask)
      have hown := (hi.completed_le (TaskRepository.latest_task_mem hl).1).1
      refine absurd hlt (not_lt.mpr ?_)
      calc _completed_at task ≤ y.created_at := hle up (hups ▸ hup) task hof
        _ ≤ own.created_at := TaskRepository.created_at_le_latest hl hyrow hyjob
        _ ≤ _completed_at own := hown

/-- A pass that dispatches the job, and does not come early, finds the round settled. -/
theorem settled_of_dispatched (hups : s.db.upstream_jobs c = U) (hi : RoundOk U b s)
    (hearly : ¬ Rounds.Early c s) (hd : s.db.Dispatched c) : Settled U b s := by
  obtain ⟨job, hmem, rfl⟩ := hd
  obtain ⟨hcand, hready⟩ := Chain.mem_dispatched hmem
  obtain ⟨_, hsucceeded, _⟩ := Chain.ready_iff.mp hready
  obtain ⟨_, _, hobserved⟩ := Chain.mem_candidates.mp hcand
  refine ⟨fun up hup => ?_, fun up hup => hi.success_of_given hup fun x hx => ?_⟩
  · have hge : ¬ (s.db.tasks_of up.id).length < s.round :=
      fun hlt => hearly ⟨⟨up, hups ▸ hup, hlt⟩, hsucceeded, hobserved⟩
    have hcount := hi.count up hup
    exact List.ne_nil_of_length_pos (by omega)
  · obtain ⟨task, htask, hs⟩ := hsucceeded up (hups ▸ hup)
    rw [hi.latest_given hup hx, Option.mem_some_iff] at htask
    exact htask ▸ hs

/-- A pass that observes a success of this round, once the round is complete, dispatches. -/
theorem Waiting.dispatched (hups : s.db.upstream_jobs c = U)
    (hjob : ∃ job, s.db.jobs.get c = some job ∧ job.enabled = true) (hi : RoundOk U b s)
    (hw : Waiting c U b s) (hall : ∀ up ∈ U, ∃ x ∈ s.db.given b up.id, x.status = .success)
    {up : Job} (hup : up ∈ U) {x : Task} (hx : x ∈ s.db.given b up.id) (hs : x.status = .success)
    (hobserved : x.id ∈ s.db.observed.map Task.id) : s.db.Dispatched c := by
  obtain ⟨job, hrow, henabled⟩ := hjob
  obtain rfl : job.id = c := Table.key_of_get hrow
  obtain ⟨hof, hb⟩ := Chain.mem_given.mp hx
  obtain ⟨hxrow, hxjob⟩ := Chain.mem_tasks_of.mp hof
  have hup' : up ∈ s.db.upstream_jobs job.id := hups ▸ hup
  have hcand : job ∈ s.db.candidates s.db.observed := by
    obtain ⟨task, htask, hid⟩ := List.mem_map.mp hobserved
    obtain rfl : task = x :=
      Table.eq_of_key (TaskRepository.of_mem_get_unprocessed htask).1 hxrow hid
    exact Chain.mem_candidates.mpr
      ⟨Table.mem_of_get hrow, henabled, up, hup', task, htask, hxjob⟩
  refine ⟨job, List.mem_filter.mpr ⟨hcand, Chain.ready_iff.mpr ⟨?_, ?_, ?_⟩⟩, rfl⟩
  · exact List.ne_nil_of_mem hup'
  · intro up' hmem
    have hmem : up' ∈ U := hups ▸ hmem
    obtain ⟨x', hx', hs'⟩ := hall up' hmem
    exact ⟨x', hi.latest_given hmem hx', hs'⟩
  · intro own hown
    refine ⟨up, hup', x, hi.latest_given hup hx, ?_⟩
    calc _completed_at own ≤ b := (hw.own own hown).2
      _ ≤ x.created_at := hb
      _ < _completed_at x := hi.late up hup x hof hs

/-- **A pass in a waiting round** leaves it waiting or dispatches the job. -/
theorem Waiting.pass (hups : s.db.upstream_jobs c = U)
    (hjob : ∃ job, s.db.jobs.get c = some job ∧ job.enabled = true) (hi : RoundOk U b s)
    (hw : Waiting c U b s) (hp : s.db.Passed ids db') (hearly : ¬ Rounds.Early c s)
    (hround : ∀ up ∈ U, (db'.tasks_of up.id).length ≤ s.round) :
    Waiting c U b ⟨db', s.round⟩ ∨ Fired c U b ⟨db', s.round⟩ := by
  have hruns := hp.dependency_runs c
  have hcount := hw.count
  by_cases hd : s.db.Dispatched c
  · have hsettled := settled_of_dispatched hups hi hearly hd
    obtain ⟨job, hmem, rfl⟩ := hd
    have hone := s.db.length_dispatched_le_one job.id
    have hpos : 0 < (s.db.dispatched.filter fun x => x.id = job.id).length :=
      List.length_pos_of_mem (List.mem_filter.mpr ⟨hmem, decide_eq_true rfl⟩)
    refine .inr ⟨by simp only; omega, hsettled.grows hi hp.grows hround, ?_⟩
    refine ⟨.fresh (ids job.id) job.id .dependency 0 s.db.now, Chain.mem_tasks_of.mpr ⟨?_, rfl⟩,
      fun up hup x' hx' => ?_⟩
    · exact hp.grows.mem.mpr (.inr (List.mem_map.mpr ⟨job, hmem, rfl⟩))
    · obtain ⟨x, hx, heq⟩ := hsettled.completed hi hp.grows hround hup hx'
      rw [heq]
      exact (hi.completed_le (Chain.mem_tasks_of.mp hx).1).2
  · have hnone : ∀ x ∈ s.db.dispatched.map (fun job =>
        Task.fresh (ids job.id) job.id .dependency 0 s.db.now), x.job_id ≠ c := by
      intro x hx hid
      obtain ⟨job, hmem, rfl⟩ := List.mem_map.mp hx
      exact hd ⟨job, hmem, hid⟩
    have hnil : s.db.dispatched.filter (fun job => job.id = c) = [] :=
      List.filter_eq_nil_iff.mpr fun job hmem hid => hd ⟨job, hmem, of_decide_eq_true hid⟩
    rw [hnil, List.length_nil] at hruns
    refine .inl ⟨by simp only; omega, hw.own_grows hp.grows hnone, fun hall => ?_⟩
    have hbefore : ∀ up ∈ U, ∃ x ∈ s.db.given b up.id, x.status = .success := by
      intro up hup
      obtain ⟨x', hx', hs'⟩ := hall up hup
      obtain ⟨x, hx, rfl⟩ := hp.grows.mem_given hx' hs'
      exact ⟨x, hx, by rwa [Task.chained_status] at hs'⟩
    obtain ⟨up, hup, x, hx, hs, hunseen⟩ := hw.unseen hbefore
    have hnot : x.id ∉ s.db.observed.map Task.id :=
      fun hmem => hd (hw.dispatched hups hjob hi hbefore hup hx hs hmem)
    refine ⟨up, hup, _, hp.grows.given_of_mem hx, ?_⟩
    rw [Task.chained, if_neg hnot]
    exact ⟨hs, hunseen⟩

end Pass

/-! ## The other steps -/

section Quiet

variable {c : JobId} {U : List Job} {b : Int} {s : Rounds}

/-- A step that marks nothing and dispatches nothing keeps the phase of the round. -/
theorem phase_quiet {db' : Chain} {g : Task → Task} {added : List Task} (hi : RoundOk U b s)
    (hphase : Waiting c U b s ∨ Fired c U b s)
    (h : Grows s.db.now s.db.tasks.rows db'.tasks.rows g added)
    (hquiet : ∀ x, (g x).processed_for_chaining = x.processed_for_chaining)
    (hround : ∀ up ∈ U, (db'.tasks_of up.id).length ≤ s.round)
    (hretry : ∀ x ∈ added, x.job_id = c → x.retry_count ≠ 0 ∧ ¬ Waiting c U b s) :
    Waiting c U b ⟨db', s.round⟩ ∨ Fired c U b ⟨db', s.round⟩ := by
  have hruns : db'.dependency_runs c = s.db.dependency_runs c := by
    have hlen := h.length_filter
      (p := fun task => task.job_id = c ∧ task.trigger_type = .dependency ∧ task.retry_count = 0)
      (fun x => by simp only [h.job_id, h.trigger_type, h.retry_count])
    have hnil : added.filter (fun task =>
        task.job_id = c ∧ task.trigger_type = .dependency ∧ task.retry_count = 0) = [] := by
      refine List.filter_eq_nil_iff.mpr fun x hx hp => ?_
      have hp := of_decide_eq_true hp
      exact (hretry x hx hp.1).1 hp.2.2
    rw [hnil, List.length_nil, Nat.add_zero] at hlen
    exact hlen
  rcases hphase with hw | hf
  · exact .inl (hw.grows hi h hquiet (fun x hx hid => (hretry x hx hid).2 hw) hruns)
  · exact .inr (hf.grows hi h hround hruns)

/-- A waiting job has no failed run to retry. -/
theorem Waiting.no_retry (hw : Waiting c U b s) {task : Task}
    (h : task ∈ latest_task s.db.tasks c) : task.status ≠ .failed := by
  rw [(hw.own task h).1]
  exact nofun

end Quiet

/-! ## Round after round -/

section Run

variable {c : JobId} {U : List Job} {s s' : Rounds}

/-- A round that is complete and observed has been dispatched. -/
theorem fired_of_observed {b : Int} (hups : s.db.upstream_jobs c = U) (hi : RoundOk U b s)
    (hphase : Waiting c U b s ∨ Fired c U b s) (hcomplete : Rounds.Complete c s)
    (hobserved : Rounds.Observed c s) : Fired c U b s := by
  refine hphase.resolve_left fun hw => ?_
  have hall : ∀ up ∈ U, ∃ x ∈ s.db.given b up.id, x.status = .success := by
    intro up hup
    obtain ⟨hlen, hsuccess⟩ := hcomplete up (hups ▸ hup)
    have hcount := hi.count up hup
    obtain ⟨x, hx⟩ := List.exists_mem_of_length_pos
      (show 0 < (s.db.given b up.id).length by omega)
    exact ⟨x, hx, hsuccess x (Chain.mem_given.mp hx).1⟩
  obtain ⟨up, hup, x, hx, hs, hp⟩ := hw.unseen hall
  rw [hobserved up (hups ▸ hup) x (Chain.mem_given.mp hx).1 hs] at hp
  cases hp

/-- A round begins when everything of the one before has ended. -/
theorem fanInv_next (hU : U ≠ []) (hi : FanInv c U s) (hcomplete : Rounds.Complete c s)
    (hobserved : Rounds.Observed c s) (hsucceeded : Rounds.Succeeded c s) :
    FanInv c U { s with round := s.round + 1 } := by
  obtain ⟨hups, hjob, b, hok, hphase⟩ := hi
  have hf := fired_of_observed hups hok hphase hcomplete hobserved
  have hbefore : ∀ up ∈ U, ∀ x ∈ s.db.tasks_of up.id, x.created_at < s.db.now := by
    intro up hup x hx
    have hlate := hok.late up hup x hx (hf.settled.success up hup x hx)
    have hle := (hok.completed_le (Chain.mem_tasks_of.mp hx).1).2
    exact lt_of_lt_of_le hlate hle
  have hnone : ∀ up ∈ U, s.db.given s.db.now up.id = [] := by
    intro up hup
    refine List.eq_nil_iff_forall_not_mem.mpr fun x hx => ?_
    obtain ⟨hof, hge⟩ := Chain.mem_given.mp hx
    exact absurd (hbefore up hup x hof) (not_lt.mpr hge)
  refine ⟨hups, hjob, s.db.now, ⟨le_rfl, hok.created, hok.stamps, hok.marked, hok.late,
    fun up hup x hx _ => ?_, fun up hup => ?_, fun up hup => ?_⟩, .inl ⟨?_, ?_, fun hall => ?_⟩⟩
  · have hs := hf.settled.success up hup x hx
    exact ⟨hs, hobserved up (hups ▸ hup) x hx hs⟩
  · rw [hnone up hup, (hcomplete up (hups ▸ hup)).1, List.length_nil, Nat.zero_add]
  · exact le_trans (hok.inRound up hup) (Nat.le_succ _)
  · rw [hf.count]
  · intro x hx
    obtain ⟨task, htask, hs⟩ := hsucceeded
    obtain rfl : task = x := Option.some.inj (htask.symm.trans hx)
    exact ⟨hs, (hok.completed_le (TaskRepository.latest_task_mem htask).1).2⟩
  · obtain ⟨up, hup⟩ := List.exists_mem_of_ne_nil U hU
    obtain ⟨x, hx, _⟩ := hall up hup
    rw [hnone up hup] at hx
    cases hx

/-- **The step lemma.** -/
theorem fanInv_step {l : Rounds.Label} (hU : U ≠ []) (hi : FanInv c U s)
    (hl : Rounds.Timely c s l) (h : Rounds.Step c s l s') : FanInv c U s' := by
  cases h with
  | @act l db' hstep hadmits hround =>
      obtain ⟨hups, hjob, b, hok, hphase⟩ := hi
      cases hstep with
      | @tick d hd =>
          have hround : ∀ up ∈ U, (s.db.tasks_of up.id).length ≤ s.round := hok.inRound
          have hg := grows_refl s.db.now s.db.tasks.rows
          refine ⟨hups, hjob, b, hok.grows hg ?_ (fun _ _ _ _ hs => .inl hs) hround, ?_⟩
          · simp only
            omega
          · exact phase_quiet hok hphase hg (fun _ => rfl) hround (by intro x hx; cases hx)
      | @create id j trigger_type retry_count tasks hcreate =>
          have hg := grows_create hcreate
          have hround : ∀ up ∈ U, (Chain.tasks_of { s.db with tasks := tasks } up.id).length
              ≤ s.round :=
            fun up hup => hround up (show up ∈ s.db.upstream_jobs c from hups ▸ hup)
          refine ⟨hups, hjob, b, hok.grows hg le_rfl (fun _ _ _ _ hs => .inl hs) hround, ?_⟩
          refine phase_quiet hok hphase hg (fun _ => rfl) hround fun x hx hid => ?_
          obtain rfl := List.mem_singleton.mp hx
          obtain rfl : j = c := hid
          obtain ⟨task, htask, hfailed, _, hretry⟩ := hadmits rfl
          refine ⟨?_, fun hw => hw.no_retry htask hfailed⟩
          show retry_count ≠ 0
          omega
      | @event id e row hrow hs =>
          have hg : Grows s.db.now _ _ _ _ := grows_event hrow hs
          have hround : ∀ up ∈ U, (Chain.tasks_of
              { s.db with tasks := s.db.tasks.set (e.row s.db.now row) } up.id).length
              ≤ s.round :=
            fun up hup => hround up (show up ∈ s.db.upstream_jobs c from hups ▸ hup)
          refine ⟨hups, hjob, b, hok.grows hg le_rfl ?_ hround, ?_⟩
          · intro up hup x hx hs'
            unfold RowEvent.at_ at hs'
            split at hs'
            · next heq =>
                cases e with
                | success => exact .inr (hl up (hups ▸ hup) x hx heq)
                | heartbeat => exact .inl hs'
                | claim | expire => cases hs'
                | failed _ _ final => cases final <;> cases hs'
            · exact .inl hs'
          · refine phase_quiet hok hphase hg ?_ hround (by intro x hx; cases hx)
            exact RowEvent.at_field Task.processed_for_chaining e.row_processed id
      | @pass _ ids n hpass =>
          have hp := (Chain.pass_eq hpass).1
          have hups' : db'.upstream_jobs c = U := by
            rw [Chain.upstream_jobs_congr hp.jobs hp.job_dependencies]
            exact hups
          have hround : ∀ up ∈ U, (db'.tasks_of up.id).length ≤ s.round := hups' ▸ hround
          have hok' := hok.grows hp.grows hp.now.ge (fun _ _ x _ hs => by
            rw [Task.chained_status] at hs
            exact .inl hs) hround
          refine ⟨hups', ?_, b, hok', ?_⟩
          · simp only [hp.jobs]
            exact hjob
          · rcases hphase with hw | hf
            · exact hw.pass hups hjob hok hp hl hround
            · right
              refine hf.grows hok hp.grows hround ?_
              have hnil : s.db.dispatched.filter (fun job => job.id = c) = [] :=
                List.filter_eq_nil_iff.mpr fun job hmem hid =>
                  hf.not_dispatched hups hok ⟨job, hmem, of_decide_eq_true hid⟩
              rw [hp.dependency_runs, hnil, List.length_nil, Nat.add_zero]
  | next hcomplete hobserved hsucceeded => exact fanInv_next hU hi hcomplete hobserved hsucceeded

theorem fanInv_start {jobs : Table Job} {deps : List (JobId × JobId)} {now : Int} {job : Job}
    (hrow : jobs.get c = some job) (henabled : job.enabled = true)
    (hU : (Rounds.start jobs deps now).db.upstream_jobs c ≠ []) :
    FanInv c ((Rounds.start jobs deps now).db.upstream_jobs c) (.start jobs deps now) := by
  refine ⟨rfl, ⟨job, hrow, henabled⟩, now, ⟨le_rfl, ?_, ?_, ?_, ?_, ?_, fun _ _ => rfl, ?_⟩,
    .inl ⟨rfl, ?_, fun hall => ?_⟩⟩
  · intro x hx; cases hx
  · intro x hx; cases hx
  · intro x hx; cases hx
  · intro up _ x hx; cases hx
  · intro up _ x hx; cases hx
  · intro up _
    exact Nat.zero_le 1
  · intro x hx; cases hx
  · obtain ⟨up, hup⟩ := List.exists_mem_of_ne_nil _ hU
    obtain ⟨x, hx, _⟩ := hall up hup
    cases hx

/-- **Once per generation.**  In every run in rounds in which no pass comes early, when a
round is complete and no success of an upstream is left unprocessed, the job has been
dispatched as often as there were rounds. -/
theorem fan_in_once_per_round {jobs : Table Job} {deps : List (JobId × JobId)} {now : Int}
    {job : Job} (hrow : jobs.get c = some job) (henabled : job.enabled = true)
    (hU : (Rounds.start jobs deps now).db.upstream_jobs c ≠ [])
    (hrun : Run (Rounds.Step c) (Rounds.Timely c) (.start jobs deps now) s)
    (hcomplete : Rounds.Complete c s) (hobserved : Rounds.Observed c s) :
    s.db.dependency_runs c = s.round := by
  obtain ⟨hups, _, b, hok, hphase⟩ :=
    hrun.invariant (fun hi hl h => fanInv_step hU hi hl h) (fanInv_start hrow henabled hU)
  exact (fired_of_observed hups hok hphase hcomplete hobserved).count

end Run

/-! ## Two rounds of a diamond -/

section Decide

variable (c : JobId) (s : Rounds)

instance : Decidable (Rounds.InRound c s) :=
  inferInstanceAs (Decidable (∀ up ∈ s.db.upstream_jobs c, _ ≤ _))

instance : Decidable (Rounds.Complete c s) :=
  inferInstanceAs (Decidable (∀ up ∈ s.db.upstream_jobs c, _ ∧ ∀ task ∈ _, _))

instance : Decidable (Rounds.Observed c s) :=
  inferInstanceAs (Decidable (∀ up ∈ s.db.upstream_jobs c, ∀ task ∈ _, _ → _))

instance : Decidable (Rounds.Succeeded c s) :=
  inferInstanceAs (Decidable (∃ task ∈ latest_task s.db.tasks c, _))

instance : Decidable (Rounds.Early c s) :=
  inferInstanceAs (Decidable ((∃ up ∈ s.db.upstream_jobs c, _) ∧ _ ∧
    ∃ up ∈ s.db.upstream_jobs c, ∃ task ∈ s.db.observed, _))

instance (db : Chain) : (l : Chain.Label) → Decidable (Rounds.Admits c db l)
  | .create _ _ _ _ => inferInstanceAs (Decidable (_ → ∃ task ∈ latest_task db.tasks c, _))
  | .tick _ | .event _ _ | .pass _ => isTrue trivial

instance : (l : Rounds.Label) → Decidable (Rounds.Timely c s l)
  | .act (.pass _) => inferInstanceAs (Decidable (¬ _))
  | .act (.event _ (.success _ _)) =>
      inferInstanceAs (Decidable (∀ up ∈ s.db.upstream_jobs c, ∀ task ∈ _, _ → _))
  | .act (.event _ (.claim _)) | .act (.event _ (.heartbeat _))
  | .act (.event _ (.failed _ _ _)) | .act (.event _ .expire)
  | .act (.tick _) | .act (.create _ _ _ _) | .next => isTrue trivial

/-- The step a label stands for. -/
def Rounds.exec : Rounds.Label → Option Rounds
  | .act l => (s.db.exec l).bind fun db' =>
      if Rounds.Admits c s.db l ∧ Rounds.InRound c ⟨db', s.round⟩ then some ⟨db', s.round⟩
      else none
  | .next =>
      if Rounds.Complete c s ∧ Rounds.Observed c s ∧ Rounds.Succeeded c s then
        some { s with round := s.round + 1 }
      else none

variable {c : JobId} {s s' : Rounds}

theorem Rounds.step_of_exec {l : Rounds.Label} (h : s.exec c l = some s') :
    Rounds.Step c s l s' := by
  cases l with
  | act l =>
      obtain ⟨db', hdb, h⟩ := Option.bind_eq_some_iff.mp h
      split at h
      · next hc => cases h; exact .act (Chain.step_of_exec hdb) hc.1 hc.2
      · cases h
  | next =>
      simp only [Rounds.exec] at h
      split at h
      · next hc => cases h; exact .next hc.1 hc.2.1 hc.2.2
      · cases h

end Decide

/-- Jobs 1 and 2 are the upstreams of job 3. -/
def example_rounds : Rounds := .start example_trio [(1, 3), (2, 3)] 0

/-- A task is inserted for a job. -/
def example_create (id : TaskId) (job_id : JobId) : Rounds.Label :=
  .act (.create id job_id .manual 0)

/-- A second passes, and a task is claimed and succeeds. -/
def example_succeed (id : TaskId) : List Rounds.Label :=
  [.act (.tick (seconds 1)), .act (.event id (.claim example_worker)),
    .act (.event id (.success none none))]

/-- A round: the upstreams run one after the other, and a pass dispatches the job. -/
def example_round (id : TaskId) : List Rounds.Label :=
  example_create id 1 :: example_create (id + 1) 2 ::
    (example_succeed id ++ example_succeed (id + 1) ++ [.act (.pass fun _ => id + 2)])

/-- Two rounds, two runs. -/
theorem fan_in_twice_in_two_rounds : ∃ s,
    Run (Rounds.Step 3) (Rounds.Timely 3) example_rounds s ∧ s.round = 2 ∧
      s.db.dependency_runs 3 = 2 := by
  obtain ⟨s, hs, h⟩ := (Option.any_eq_true _ _).mp
    (show (exec (Rounds.exec 3) (Rounds.Timely 3) example_rounds
      (example_round 1 ++ example_succeed 3 ++ [.next] ++ example_round 4)).any (fun s =>
        Rounds.Complete 3 s ∧ Rounds.Observed 3 s ∧ s.round = 2) = true by decide +kernel)
  obtain ⟨hcomplete, hobserved, hround⟩ := of_decide_eq_true h
  have hrun := Run.of_exec Rounds.step_of_exec hs
  refine ⟨s, hrun, hround, ?_⟩
  have hrow : example_trio.get 3 = some ((example_trio.get 3).get (by decide)) := rfl
  rw [fan_in_once_per_round hrow rfl (by decide) hrun hcomplete hobserved, hround]

/-- In the second round a pass comes between the two upstreams, and the first one's success
goes with the second one's of the round before. -/
theorem fan_in_fires_early : ∃ s,
    Run (Rounds.Step 3) Any example_rounds s ∧ Rounds.Complete 3 s ∧ Rounds.Observed 3 s ∧
      s.round = 2 ∧ s.db.dependency_runs 3 = 3 := by
  obtain ⟨s, hs, h⟩ := (Option.any_eq_true _ _).mp
    (show (exec (Rounds.exec 3) Any example_rounds
      (example_round 1 ++ example_succeed 3 ++ [.next, example_create 4 1] ++ example_succeed 4 ++
        [.act (.pass fun _ => 5)] ++ example_succeed 5 ++ [example_create 6 2] ++
        example_succeed 6 ++ [.act (.pass fun _ => 7)])).any (fun s =>
        Rounds.Complete 3 s ∧ Rounds.Observed 3 s ∧ s.round = 2 ∧ s.db.dependency_runs 3 = 3)
      = true by decide +kernel)
  exact ⟨s, Run.of_exec Rounds.step_of_exec hs, of_decide_eq_true h⟩

end Dass
