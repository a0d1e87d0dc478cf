/-
# `Dass.DependencyFaults` — a pass that is cut short

A pass marks every success it has observed, one commit each, before it looks at a
single candidate, and then dispatches the candidates one by one.  Here it ends at
any point, because a call raises or the process stops, and whole passes follow while
nothing else changes.  A job that the pass would have dispatched gets its task if
that was committed before, or if a later pass still comes across the job: it
observes a success of one of its upstreams, and all of them are still done
(`trigger_survives_iff`).

So the job is safe as long as one of its upstreams' successes is not marked, and
lost once all are and its own task is not committed: nothing left in the tables
leads a later pass to it.
-/
import Dass.DependencyGuard
import Dass.DependencyPass
import Dass.DependencyRuns

namespace Dass

open Lts
open TaskRepository (latest_task)

/-! ## The runs -/

inductive Flow.Label where
  | tick (d : Int)
  | call (a : PassAct)

/-- A call of the pass, or the passing of time. -/
inductive Flow.Step : Flow → Flow.Label → Flow → Prop
  | tick {s : Flow} {d} : 0 ≤ d → Flow.Step s (.tick d) ⟨s.db.later d, s.pc⟩
  | call {s s' : Flow} {a} : PassStep s a s' → Flow.Step s (.call a) s'

/-- The pass has read its successes. -/
def Chain.begun (db : Chain) : Flow := ⟨db, .marking db.observed (db.candidates db.observed)⟩

/-- The pass is not over, and no call of it raises. -/
def Flow.Going (s : Flow) : Flow.Label → Prop
  | .tick _ => True
  | .call a => s.pc ≠ .idle ∧ FaultFree s a

/-- Nothing happens but whole passes. -/
def Chain.Quiet (_ : Chain) : Chain.Label → Prop
  | .tick _ | .pass _ => True
  | .create _ _ _ _ | .event _ _ => False

/-- A pass comes across the job: it observes a success of an upstream, and the latest task
of every upstream is a success. -/
def Chain.Sees (db : Chain) (c : JobId) : Prop :=
  (∃ up ∈ db.upstream_jobs c, ∃ task ∈ db.observed, task.job_id = up.id) ∧
    db.UpstreamsSucceeded (latest_task db.tasks) c

/-! ## What passes make of a database -/

/-- Nothing of a row changes but its mark, and that is not taken back. -/
structure OnlyMarked (g : Task → Task) : Prop where
  id : ∀ x, (g x).id = x.id
  job_id : ∀ x, (g x).job_id = x.job_id
  status : ∀ x, (g x).status = x.status
  trigger_type : ∀ x, (g x).trigger_type = x.trigger_type
  retry_count : ∀ x, (g x).retry_count = x.retry_count
  created_at : ∀ x, (g x).created_at = x.created_at
  finished_at : ∀ x, (g x).finished_at = x.finished_at
  marked : ∀ x, x.processed_for_chaining = true → (g x).processed_for_chaining = true

/-- Some rows are marked, and dependency tasks are added. -/
structure Extends (db d : Chain) : Prop where
  jobs : d.jobs = db.jobs
  job_dependencies : d.job_dependencies = db.job_dependencies
  rows : ∃ g added, OnlyMarked g ∧ d.tasks.rows = db.tasks.rows.map g ++ added ∧
    ∀ x ∈ added, x.status ≠ .success ∧ x.trigger_type = .dependency ∧ x.retry_count = 0

theorem onlyMarked_id : OnlyMarked id :=
  ⟨fun _ => rfl, fun _ => rfl, fun _ => rfl, fun _ => rfl, fun _ => rfl, fun _ => rfl,
    fun _ => rfl, fun _ => id⟩

theorem onlyMarked_chained (observed : List TaskId) : OnlyMarked (Task.chained observed) where
  id := Task.chained_id _
  job_id := Task.chained_job_id _
  status := Task.chained_status _
  trigger_type := Task.chained_trigger_type _
  retry_count := Task.chained_retry_count _
  created_at := Task.chained_created_at _
  finished_at := Task.chained_finished_at _
  marked x hp := by
    unfold Task.chained
    split
    · rfl
    · exact hp

theorem OnlyMarked.comp {g h : Task → Task} (hh : OnlyMarked h) (hg : OnlyMarked g) :
    OnlyMarked (h ∘ g) where
  id x := (hh.id _).trans (hg.id x)
  job_id x := (hh.job_id _).trans (hg.job_id x)
  status x := (hh.status _).trans (hg.status x)
  trigger_type x := (hh.trigger_type _).trans (hg.trigger_type x)
  retry_count x := (hh.retry_count _).trans (hg.retry_count x)
  created_at x := (hh.created_at _).trans (hg.created_at x)
  finished_at x := (hh.finished_at _).trans (hg.finished_at x)
  marked x hp := hh.marked _ (hg.marked x hp)

theorem Extends.refl (db : Chain) : Extends db db :=
  ⟨rfl, rfl, id, [], onlyMarked_id, by rw [List.map_id, List.append_nil],
    by intro x hx; cases hx⟩

theorem Extends.trans {a b c : Chain} (h₁ : Extends a b) (h₂ : Extends b c) : Extends a c := by
  obtain ⟨g, added, hg, hrows, hadded⟩ := h₁.rows
  obtain ⟨g', added', hg', hrows', hadded'⟩ := h₂.rows
  refine ⟨h₂.jobs.trans h₁.jobs, h₂.job_dependencies.trans h₁.job_dependencies, g' ∘ g,
    added.map g' ++ added', hg'.comp hg, ?_, fun x hx => ?_⟩
  · rw [hrows', hrows, List.map_append, List.map_map, List.append_assoc]
  · rcases List.mem_append.mp hx with hold | hnew
    · obtain ⟨y, hy, rfl⟩ := List.mem_map.mp hold
      obtain ⟨hs, ht, hn⟩ := hadded y hy
      exact ⟨hg'.status y ▸ hs, (hg'.trigger_type y).trans ht, (hg'.retry_count y).trans hn⟩
    · exact hadded' x hnew

theorem extends_pass {db d : Chain} {ids : JobId → TaskId} (h : db.Passed ids d) :
    Extends db d := by
  refine ⟨h.jobs, h.job_dependencies, _, _, onlyMarked_chained _, h.tasks, fun x hx => ?_⟩
  obtain ⟨job, _, rfl⟩ := List.mem_map.mp hx
  exact ⟨nofun, rfl, rfl⟩

/-- A later pass, or a tick. -/
theorem extends_later {db d : Chain} {l : Chain.Label} (hl : db.Quiet l) (h : db.Step l d) :
    Extends db d := by
  cases h with
  | tick => exact ⟨rfl, rfl, (Extends.refl db).rows⟩
  | create | event => exact hl.elim
  | pass hpass => exact extends_pass (Chain.pass_eq hpass).1

theorem extends_run {db d : Chain} (h : Run Chain.Step Chain.Quiet db d) : Extends db d :=
  h.lift (I := fun _ => True) (fun _ hl hst => ⟨trivial, extends_later hl hst⟩) Extends.refl
    (fun h₁ h₂ => h₁.trans h₂) trivial

section Extends

variable {db d d' : Chain} {c : JobId}

/-- What was created stays. -/
theorem Extends.creates_of_before (h : Extends d d') (hc : db.Creates d c) : db.Creates d' c := by
  obtain ⟨g, added, hg, hrows, _⟩ := h.rows
  obtain ⟨task, hmem, hnew, hjob, htrigger, hn⟩ := hc
  refine ⟨g task, ?_, (hg.id task).symm ▸ hnew, (hg.job_id task).trans hjob,
    (hg.trigger_type task).trans htrigger, (hg.retry_count task).trans hn⟩
  rw [hrows]
  exact List.mem_append_left _ (List.mem_map_of_mem hmem)

/-- What is new to a later database is new to an earlier one. -/
theorem Extends.creates_of_after (h : Extends db d) (hc : d.Creates d' c) : db.Creates d' c := by
  obtain ⟨g, added, hg, hrows, _⟩ := h.rows
  obtain ⟨task, hmem, hnew, hrest⟩ := hc
  refine ⟨task, hmem, Table.get_eq_none.mpr fun x hx hid => ?_, hrest⟩
  have hgx : g x ∈ d.tasks.rows := by
    rw [hrows]
    exact List.mem_append_left _ (List.mem_map_of_mem hx)
  refine Table.get_eq_none.mp hnew (g x) hgx ?_
  exact (hg.id x).trans hid

/-- A row that was added is new. -/
theorem Extends.creates_of_added {g : Task → Task} {added : List Task} (hg : OnlyMarked g)
    (hrows : d.tasks.rows = db.tasks.rows.map g ++ added)
    (hadded : ∀ x ∈ added, x.status ≠ .success ∧ x.trigger_type = .dependency ∧
      x.retry_count = 0) {x : Task} (hx : x ∈ added) : db.Creates d x.job_id := by
  have hnodup := d.tasks.nodup
  rw [hrows, List.map_append, List.nodup_append] at hnodup
  refine ⟨x, by rw [hrows]; exact List.mem_append_right _ hx, ?_, rfl, (hadded x hx).2⟩
  refine Table.get_eq_none.mpr fun y hy hid => ?_
  refine hnodup.2.2 y.id ?_ x.id (List.mem_map.mpr ⟨x, hx, rfl⟩) hid
  exact List.mem_map.mpr ⟨g y, List.mem_map_of_mem hy, hg.id y⟩

/-- A new row of the later database is one of the earlier, or new to that. -/
theorem Extends.creates_cases (h : Extends d d') (hc : db.Creates d' c) :
    db.Creates d c ∨ d.Creates d' c := by
  obtain ⟨g, added, hg, hrows, hadded⟩ := h.rows
  obtain ⟨task, hmem, hnew, hjob, htrigger, hn⟩ := hc
  rw [hrows] at hmem
  rcases List.mem_append.mp hmem with hold | hins
  · obtain ⟨x, hx, rfl⟩ := List.mem_map.mp hold
    exact .inl ⟨x, hx, hg.id x ▸ hnew, (hg.job_id x).symm.trans hjob,
      (hg.trigger_type x).symm.trans htrigger, (hg.retry_count x).symm.trans hn⟩
  · exact .inr (hjob ▸ Extends.creates_of_added hg hrows hadded hins)

/-- The latest task of a job is the one it was, or one that was added. -/
theorem latest_task_extends {g : Task → Task} {added : List Task} (hg : OnlyMarked g)
    (hrows : d.tasks.rows = db.tasks.rows.map g ++ added) (j : JobId) :
    latest_task d.tasks j = (latest_task db.tasks j).map g ∨
      ∃ x ∈ added, x.job_id = j ∧ latest_task d.tasks j = some x := by
  have hfilter : d.tasks.rows.filter (fun task => task.job_id = j)
      = (db.tasks.rows.filter fun task => task.job_id = j).map g ++
        added.filter fun task => task.job_id = j := by
    rw [hrows, List.filter_append, List.filter_map]
    refine congrArg (· ++ _) (congrArg (List.map g) (List.filter_congr fun x _ => ?_))
    simp only [Function.comp_apply, hg.job_id]
  unfold TaskRepository.latest_task
  rw [hfilter]
  rcases List.newest_append Task.created_at
    ((db.tasks.rows.filter fun task => task.job_id = j).map g)
    (added.filter fun task => task.job_id = j) with hsame | ⟨x, hx, hnew⟩
  · rw [hsame]
    exact .inl (List.newest_map hg.created_at _)
  · obtain ⟨hmem, hjob⟩ := List.mem_filter.mp hx
    exact .inr ⟨x, hmem, of_decide_eq_true hjob, hnew⟩

/-- **A job that was to be dispatched and has not been is dispatched by the pass that sees
it.** -/
theorem Extends.dispatched (h : Extends db d) {job : Job} (hjob : job ∈ db.dispatched)
    (hnot : ¬ db.Creates d job.id) (hsees : d.Sees job.id) : job ∈ d.dispatched := by
  obtain ⟨hcand, hready⟩ := Chain.mem_dispatched hjob
  obtain ⟨hrow, henabled, _⟩ := Chain.mem_candidates.mp hcand
  obtain ⟨⟨up, hup, task, htask, hid⟩, hsucceeded⟩ := hsees
  have hups : d.upstream_jobs = db.upstream_jobs :=
    Chain.upstream_jobs_congr h.jobs h.job_dependencies
  obtain ⟨g, added, hg, hrows, hadded⟩ := h.rows
  refine List.mem_filter.mpr ⟨Chain.mem_candidates.mpr ⟨h.jobs ▸ hrow, henabled, up, hup, task,
    htask, hid⟩, ?_⟩
  rw [Chain.ready_congr h.jobs h.job_dependencies, ← hready]
  refine Chain.ready_snapshot hg.status (fun x => ?_) ?_ fun up' hup' => ?_
  · simp only [_completed_at, hg.finished_at, hg.created_at]
  · refine (latest_task_extends hg hrows job.id).resolve_right ?_
    rintro ⟨x, hx, hxjob, _⟩
    exact hnot (hxjob ▸ Extends.creates_of_added hg hrows hadded hx)
  · refine (latest_task_extends hg hrows up'.id).resolve_right ?_
    rintro ⟨x, hx, _, hlatest⟩
    obtain ⟨y, hy, hs⟩ := hsucceeded up' (hups ▸ hup')
    rw [hlatest, Option.mem_some_iff] at hy
    exact (hadded x hx).1 (hy ▸ hs)

end Extends

/-! ## The pass that is cut short -/

/-- What a pass has done to the database it began on. -/
structure Underway (db : Chain) (s : Flow) : Prop where
  ext : Extends db s.db
  marks : ∀ todo candidates, s.pc = .marking todo candidates →
    ∃ done, db.observed = done ++ todo ∧
      s.db.tasks.rows = db.tasks.rows.map (Task.chained (done.map Task.id))

theorem underway_begun (db : Chain) : Underway db db.begun where
  ext := .refl db
  marks := by
    intro todo candidates hpc
    cases hpc
    refine ⟨[], rfl, ?_⟩
    exact (List.map_id'' (fun x => Task.chained_nil x) _).symm

theorem underway_step {db : Chain} {s s' : Flow} {l : Flow.Label} (hi : Underway db s)
    (hl : s.Going l) (h : Flow.Step s l s') : Underway db s' := by
  cases h with
  | tick =>
      exact ⟨hi.ext.trans ⟨rfl, rfl, (Extends.refl s.db).rows⟩, hi.marks⟩
  | call h =>
      obtain ⟨hpc, hfault⟩ := hl
      cases h with
      | observe_none | observe | observe_replica => exact absurd rfl hpc
      | @mark d task todo candidates tasks hmark =>
          obtain ⟨done, hobserved, hrows⟩ := hi.marks _ _ rfl
          have hmem : task ∈ db.observed := by
            rw [hobserved]
            exact List.mem_append_right _ List.mem_cons_self
          have hflush := flush_marked (TaskRepository.of_mem_get_unprocessed hmem).2.2 hmark
          refine ⟨hi.ext.trans ⟨rfl, rfl, _, [], onlyMarked_chained _,
            hflush.trans (List.append_nil _).symm, by intro x hx; cases hx⟩, ?_⟩
          intro todo' candidates' heq
          cases heq
          refine ⟨done ++ [task], by rw [hobserved, List.append_assoc]; rfl, ?_⟩
          refine hflush.trans ?_
          have hrows : d.tasks.rows = db.tasks.rows.map (Task.chained (done.map Task.id)) := hrows
          rw [hrows, List.map_map, List.map_append]
          exact List.map_congr_left fun x _ => Task.chained_chained (done.map Task.id) x [task.id]
      | look_none | finish => exact ⟨hi.ext, by intro todo candidates heq; cases heq⟩
      | start | look | skip => exact ⟨hi.ext, by intro todo candidates heq; cases heq⟩
      | @create d since latest job todo id tasks _ hcreate =>
          refine ⟨hi.ext.trans ⟨rfl, rfl, _,
            [.fresh id job.id .dependency 0 (since.getD d.now)], onlyMarked_id,
            ?_, fun x hx => ?_⟩, by intro todo candidates heq; cases heq⟩
          · exact (grows_create hcreate).eq
          · obtain rfl := List.mem_singleton.mp hx
            exact ⟨nofun, rfl, rfl⟩
      | send =>
          exact ⟨hi.ext.trans ⟨rfl, rfl, (Extends.refl _).rows⟩,
            by intro todo candidates heq; cases heq⟩
      | fail => exact hfault.elim

/-- A success nobody has evaluated. -/
def Task.unseen (task : Task) : Bool :=
  task.status = .success ∧ task.processed_for_chaining = false

/-- The marks take their rows out of what the next pass reads. -/
theorem filter_chained (marks : List TaskId) (rows : List Task) :
    (rows.map (Task.chained marks)).filter Task.unseen
      = (rows.filter Task.unseen).filter fun task => task.id ∉ marks := by
  induction rows with
  | nil => rfl
  | cons x rows ih =>
      rw [List.map_cons, List.filter_cons, List.filter_cons, ih]
      by_cases hx : x.id ∈ marks
      · have hgone : (x.chained marks).unseen = false := by
          simp [Task.chained, hx, Task.unseen, Task.mark_processed_for_chaining]
        rw [hgone, if_neg Bool.false_ne_true]
        split
        · exact (List.filter_cons_of_neg (by simpa using hx)).symm
        · rfl
      · rw [show x.chained marks = x from if_neg hx]
        split
        · exact (List.filter_cons_of_pos (by simpa using hx)).symm
        · rfl

/-- **A success that is not marked yet is observed again.**  The marks are set from the
oldest on, so those that are left come first in the next pass. -/
theorem Underway.observed_again {db : Chain} {s : Flow} (hi : Underway db s) {task : Task}
    (htask : task ∈ s.pc.marks) : task ∈ s.db.observed := by
  cases hpc : s.pc with
  | idle | looking | dispatching | created =>
      rw [hpc] at htask
      cases htask
  | marking todo candidates =>
      rw [hpc] at htask
      have htask : task ∈ todo := htask
      obtain ⟨done, hobserved, hrows⟩ := hi.marks todo candidates hpc
      let oldest : List Task := (db.tasks.rows.filter Task.unseen).insertionSort
        fun a b => a.created_at ≤ b.created_at
      have htake : oldest.take 100 = done ++ todo := hobserved
      have hsplit : oldest = done ++ (todo ++ oldest.drop 100) := by
        rw [← List.append_assoc, ← htake, List.take_append_drop]
      -- no id is there twice, so none that is left has been marked
      have hnodup : (oldest.map Task.id).Nodup := by
        refine ((List.perm_insertionSort _ _).map Task.id).nodup_iff.mpr ?_
        exact db.tasks.nodup.sublist (List.filter_sublist.map _)
      rw [hsplit, List.map_append, List.map_append, List.nodup_append] at hnodup
      have hleft : ∀ x ∈ todo, x.id ∉ done.map Task.id := fun x hx hmem =>
        hnodup.2.2 x.id hmem x.id (List.mem_append_left _ (List.mem_map_of_mem hx)) rfl
      have hnext : s.db.observed = (oldest.filter fun x => x.id ∉ done.map Task.id).take 100 := by
        show ((s.db.tasks.rows.filter Task.unseen).insertionSort _).take 100 = _
        rw [hrows, filter_chained, List.filter_insertionSort]
      have hdone : done.filter (fun x => x.id ∉ done.map Task.id) = [] :=
        List.filter_eq_nil_iff.mpr fun x hx => by simpa using ⟨x, hx, rfl⟩
      have htodo : todo.filter (fun x => x.id ∉ done.map Task.id) = todo :=
        List.filter_eq_self.mpr fun x hx => decide_eq_true (hleft x hx)
      have hlength : todo.length ≤ 100 := by
        have hle := List.length_take_le 100 oldest
        rw [htake, List.length_append] at hle
        omega
      rw [hnext, hsplit, List.filter_append, List.filter_append, hdone, htodo, List.nil_append,
        List.take_append, List.take_of_length_le hlength]
      exact List.mem_append_left _ htask

/-! ## What becomes of a job -/

section Fate

variable {db d d' : Chain} {job : Job}

/-- A pass creates the job's task if and only if it sees the job, where it has not been
created yet. -/
theorem Extends.creates_iff (h : Extends db d) (hjob : job ∈ db.dispatched)
    (hnot : ¬ db.Creates d job.id) {ids : JobId → TaskId} {n : Nat}
    (hpass : d.trigger_dependent_jobs ids = some (d', n)) :
    db.Creates d' job.id ↔ d.Sees job.id := by
  have hp := (Chain.pass_eq hpass).1
  constructor
  · intro hc
    have hnew := ((extends_pass hp).creates_cases hc).resolve_left hnot
    obtain ⟨other, hother, hid⟩ := (hp.creates_iff job.id).mp hnew
    obtain ⟨hcand, hready⟩ := Chain.mem_dispatched hother
    rw [hid] at hready
    obtain ⟨_, _, up, hup, htask⟩ := Chain.mem_candidates.mp hcand
    rw [hid] at hup
    exact ⟨⟨up, hup, htask⟩, (Chain.ready_iff.mp hready).2.1⟩
  · intro hsees
    refine h.creates_of_after ((hp.creates_iff job.id).mpr ⟨job, ?_, rfl⟩)
    exact h.dispatched hjob hnot hsees

/-- Some pass from `d` on, with `d'` at the end, sees the job. -/
def SeenBetween (d d' : Chain) (c : JobId) : Prop :=
  ∃ before after ids n, Run Chain.Step Chain.Quiet d before ∧
    before.trigger_dependent_jobs ids = some (after, n) ∧
    Run Chain.Step Chain.Quiet after d' ∧ before.Sees c

/-- **Over whole passes**, the job gets its task if and only if it had it, or one of them
sees it. -/
theorem Extends.creates_run_iff (h : Extends db d) (hjob : job ∈ db.dispatched)
    (hrun : Run Chain.Step Chain.Quiet d d') :
    db.Creates d' job.id ↔ db.Creates d job.id ∨ SeenBetween d d' job.id := by
  constructor
  · induction hrun with
    | refl => exact .inl
    | @snoc mid last l hmid hl hstep ih =>
        intro hc
        by_cases hbefore : db.Creates mid job.id
        · refine (ih hbefore).imp_right ?_
          rintro ⟨before, after, ids, n, hto, hpass, hfrom, hsees⟩
          exact ⟨before, after, ids, n, hto, hpass, hfrom.snoc hl hstep, hsees⟩
        · have hext := h.trans (extends_run hmid)
          cases hstep with
          | tick => exact absurd hc hbefore
          | create | event => exact hl.elim
          | pass hpass =>
              exact .inr ⟨mid, _, _, _, hmid, hpass, .refl,
                (hext.creates_iff hjob hbefore hpass).mp hc⟩
  · rintro (hc | ⟨before, after, ids, n, hto, hpass, hfrom, hsees⟩)
    · exact (extends_run hrun).creates_of_before hc
    · refine (extends_run hfrom).creates_of_before ?_
      by_cases hbefore : db.Creates before job.id
      · exact (extends_pass (Chain.pass_eq hpass).1).creates_of_before hbefore
      · exact ((h.trans (extends_run hto)).creates_iff hjob hbefore hpass).mpr hsees

/-- Up to the first pass only time goes by. -/
theorem first_pass (hrun : Run Chain.Step Chain.Quiet d d') :
    (∃ now, d' = { d with now := now }) ∨
    ∃ now after ids n, Run Chain.Step Chain.Quiet d { d with now := now } ∧
      Chain.trigger_dependent_jobs { d with now := now } ids = some (after, n) ∧
      Run Chain.Step Chain.Quiet after d' := by
  induction hrun with
  | refl => exact .inl ⟨d.now, rfl⟩
  | @snoc mid last l hmid hl hstep ih =>
      rcases ih with ⟨now, rfl⟩ | ⟨now, after, ids, n, hto, hpass, hfrom⟩
      · cases hstep with
        | tick => exact .inl ⟨_, rfl⟩
        | create | event => exact hl.elim
        | @pass _ ids n hpass => exact .inr ⟨now, last, ids, n, hmid, hpass, .refl⟩
      · exact .inr ⟨now, after, ids, n, hto, hpass, hfrom.snoc hl hstep⟩

/-- A pass that sees the job observes a success that was there and unprocessed. -/
theorem Extends.unseen_of_sees (h : Extends d d') {c : JobId} (hsees : d'.Sees c) :
    ∃ up ∈ d.upstream_jobs c, ∃ x ∈ d.tasks_of up.id,
      x.status = .success ∧ x.processed_for_chaining = false := by
  obtain ⟨⟨up, hup, task, htask, hid⟩, _⟩ := hsees
  rw [Chain.upstream_jobs_congr h.jobs h.job_dependencies] at hup
  obtain ⟨hrow, hs, hp⟩ := TaskRepository.of_mem_get_unprocessed htask
  obtain ⟨g, added, hg, hrows, hadded⟩ := h.rows
  rw [hrows] at hrow
  rcases List.mem_append.mp hrow with hold | hnew
  · obtain ⟨x, hx, rfl⟩ := List.mem_map.mp hold
    refine ⟨up, hup, x, Chain.mem_tasks_of.mpr ⟨hx, (hg.job_id x).symm.trans hid⟩,
      (hg.status x).symm.trans hs, ?_⟩
    rw [Bool.eq_false_iff]
    intro hmarked
    rw [hg.marked x hmarked] at hp
    cases hp
  · exact absurd hs (hadded task hnew).1

end Fate

/-- While a pass is marking, it has created nothing: the upstreams of a job it was to
dispatch are as they were. -/
theorem Underway.sees {db : Chain} {s : Flow} (hi : Underway db s) {job : Job}
    (hjob : job ∈ db.dispatched) {task : Task} (htask : task ∈ s.pc.marks)
    (hup : ∃ up ∈ db.upstream_jobs job.id, task.job_id = up.id) : s.db.Sees job.id := by
  have hups : s.db.upstream_jobs = db.upstream_jobs :=
    Chain.upstream_jobs_congr hi.ext.jobs hi.ext.job_dependencies
  obtain ⟨up, hmem, hid⟩ := hup
  refine ⟨⟨up, by rw [hups]; exact hmem, task, hi.observed_again htask, hid⟩, ?_⟩
  cases hpc : s.pc with
  | idle | looking | dispatching | created =>
      rw [hpc] at htask
      cases htask
  | marking todo candidates =>
      obtain ⟨done, _, hrows⟩ := hi.marks todo candidates hpc
      have hready := (Chain.mem_dispatched hjob).2
      obtain ⟨_, hsucceeded, _⟩ := Chain.ready_iff.mp hready
      intro up' hup'
      rw [hups] at hup'
      obtain ⟨x, hx, hs⟩ := hsucceeded up' hup'
      have hlatest := (latest_task_extends (onlyMarked_chained (done.map Task.id))
        (hrows.trans (List.append_nil _).symm) up'.id).resolve_right
          (by rintro ⟨_, hnil, _⟩; cases hnil)
      rw [Option.mem_def] at hx
      rw [hlatest, hx, Option.map_some]
      exact ⟨_, rfl, (Task.chained_status _ x).trans hs⟩

/-- **Which triggers survive a fault.**  A pass ends at any point, and whole passes follow
while nothing else changes.  A job the pass would have dispatched has its task in the end
if and only if it was committed before the fault, or a later pass observes a success of
one of its upstreams while the latest tasks of all of them are successes.  It is so if
one of the successes the pass had observed of its upstreams was not marked yet, once
nothing is left to observe; and not so if its task was not committed and no success of
its upstreams is unprocessed. -/
theorem trigger_survives_iff {db : Chain} {job : Job} (hjob : job ∈ db.dispatched)
    {s t : Flow} (hpass : Run Flow.Step Flow.Going db.begun s) (hfail : PassStep s .fail t)
    {db' : Chain} (hlater : Run Chain.Step Chain.Quiet t.db db') :
    (db.Creates db' job.id ↔ db.Creates t.db job.id ∨ SeenBetween t.db db' job.id) ∧
    (db'.observed = [] →
      (∃ task ∈ s.pc.marks, ∃ up ∈ db.upstream_jobs job.id, task.job_id = up.id) →
      db.Creates db' job.id) ∧
    (¬ db.Creates t.db job.id →
      (∀ up ∈ db.upstream_jobs job.id, ∀ x ∈ t.db.tasks_of up.id, x.status = .success →
        x.processed_for_chaining = true) →
      ¬ db.Creates db' job.id) := by
  have hi : Underway db s :=
    hpass.invariant (fun hi hl h => underway_step hi hl h) (underway_begun db)
  cases hfail with
  | @fail d pc =>
      have hiff := hi.ext.creates_run_iff hjob hlater
      refine ⟨hiff, fun hnone htask => hiff.mpr (.inr ?_), fun hnot hmarked hc => ?_⟩
      · obtain ⟨task, hmem, hup⟩ := htask
        have hsees := hi.sees hjob hmem hup
        rcases first_pass hlater with ⟨now, rfl⟩ | ⟨now, after, ids, n, hto, hthen, hfrom⟩
        · have hagain := hi.observed_again hmem
          rw [show d.observed = [] from hnone] at hagain
          cases hagain
        · exact ⟨_, after, ids, n, hto, hthen, hfrom, hsees⟩
      · obtain ⟨before, _, _, _, hto, _, _, hsees⟩ := (hiff.mp hc).resolve_left hnot
        obtain ⟨up, hup, x, hx, hs, hp⟩ := (extends_run hto).unseen_of_sees hsees
        rw [Chain.upstream_jobs_congr hi.ext.jobs hi.ext.job_dependencies] at hup
        rw [hmarked up hup x hx hs] at hp
        cases hp

/-! ## One success, one downstream -/

instance (db d : Chain) (c : JobId) : Decidable (db.Creates d c) :=
  inferInstanceAs (Decidable (∃ task ∈ d.tasks.rows, _))

/-- Job 3 depends on job 1, which has succeeded. -/
def example_success : Chain where
  now := seconds 20
  jobs := example_trio
  job_dependencies := [(1, 3)]
  tasks := (TaskRepository.create .empty
    ((Task.fresh 1 1 .manual 0 0).mark_success none none (seconds 10))).getD .empty
  normal_queue := []

/-- The process stops before the mark; the next pass dispatches job 3. -/
theorem trigger_survives_before_mark : ∃ s t db',
    Run Flow.Step Flow.Going example_success.begun s ∧ PassStep s .fail t ∧
    Run Chain.Step Chain.Quiet t.db db' ∧ example_success.Creates db' 3 := by
  have hjob : (example_trio.get 3).get (by decide) ∈ example_success.dispatched := by decide
  obtain ⟨⟨db', n⟩, hpass, hnone⟩ := (Option.any_eq_true _ _).mp
    (show (example_success.trigger_dependent_jobs fun _ => 2).any
      (fun r => r.1.observed = []) = true by decide)
  have hlater : Run Chain.Step Chain.Quiet example_success db' :=
    .single (l := .pass fun _ => 2) trivial (.pass hpass)
  refine ⟨_, _, db', .refl, .fail, hlater, ?_⟩
  exact (trigger_survives_iff hjob .refl .fail hlater).2.1 (of_decide_eq_true hnone) (by decide)

/-- The process stops after the mark.  The next pass observes nothing, and job 3, whose
only upstream has succeeded, has no task. -/
theorem trigger_lost_after_mark : ∃ job s t db',
    job ∈ example_success.dispatched ∧
    Run Flow.Step Flow.Going example_success.begun s ∧ PassStep s .fail t ∧
    t.db.trigger_dependent_jobs (fun _ => 2) = some (db', 0) ∧ db'.observed = [] ∧
    (∀ task ∈ db'.tasks.rows, task.processed_for_chaining = true) ∧
    ¬ example_success.Creates db' job.id := by
  have hmark : Run Flow.Step Flow.Going example_success.begun _ :=
    .single (l := .call .mark) ⟨nofun, trivial⟩ (.call (.mark rfl))
  exact ⟨(example_trio.get 3).get (by decide), _, _, _, by decide, hmark, .fail, rfl, by decide,
    by decide, by decide⟩

end Dass
