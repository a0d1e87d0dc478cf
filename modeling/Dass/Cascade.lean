/-
# `Dass.Cascade` — what triggers cost, and that they end

A success is marked once, by the pass that observes it, and a pass dispatches no job but
those below a success it has marked.  So a job's dependency runs are paid for by marked
successes of its upstreams, one each (`triggers_paid`).  The calls of the pass stand
between any other writes to `tasks` here, and the pass may be cut short at any of them:
then marks are spent and nothing is dispatched for them, but never the other way round.
It takes two things for that (`Steady`): that passes read their successes from the primary,
since a replica shows again what has been marked, and that results and resets are written
to rows that are running, since a late one can make a success of a row once more.

Every task of a job has thus been given to it from outside, or is paid for by a task of a
job right above it.  If the dependencies are acyclic, the tasks a job can ever have are
bounded by what has been given from outside, handed on along the edges
(`cascade_bounded`): a trigger sets off no more than a number of runs that can be told
from the graph, and all of them end.
-/
import Dass.DependencyPass
import Dass.DependencyRuns
import Dass.JobService
import Dass.Lib.Counting
import Dass.Lib.Graph

namespace Dass

open Lts EdgeList
open TaskRepository (latest_task)

/-! ## The runs -/

/-- The pass in progress, and how many tasks each job has been given from outside. -/
structure Cascade where
  flow : Flow
  outside : JobId → Nat

namespace Cascade

inductive Label where
  | act (l : Chain.Label)
  /-- a result or a reset for a row that its writer has lost -/
  | late (id : TaskId) (e : RowEvent)
  | call (a : PassAct)

/-- What happens besides the pass.  Only a pass makes a dependency task that is no retry. -/
def Outside : Chain.Label → Prop
  | .create _ _ trigger_type retry_count => ¬ (trigger_type = .dependency ∧ retry_count = 0)
  | .tick _ | .event _ _ => True
  | .pass _ => False

/-- The tasks given so far, with the one the step gives. -/
def given (outside : JobId → Nat) : Chain.Label → JobId → Nat
  | .create _ job_id _ _ => Function.update outside job_id (outside job_id + 1)
  | .tick _ | .event _ _ | .pass _ => outside

inductive Step : Cascade → Label → Cascade → Prop
  | act {c : Cascade} {l db'} : Outside l → c.flow.db.Step l db' →
      Step c (.act l) ⟨⟨db', c.flow.pc⟩, given c.outside l⟩
  | late {c : Cascade} {id e row} : c.flow.db.tasks.get id = some row →
      Step c (.late id e) ⟨⟨{ c.flow.db with
        tasks := c.flow.db.tasks.set (e.row c.flow.db.now row) }, c.flow.pc⟩, c.outside⟩
  | call {c : Cascade} {a flow} : PassStep c.flow a flow → Step c (.call a) ⟨flow, c.outside⟩

/-- A pass reads the primary, and no writer has lost its row. -/
def Steady (_ : Cascade) : Label → Prop
  | .late _ _ | .call (.observe_replica _) => False
  | _ => True

instance (c : Cascade) : (l : Label) → Decidable (Steady c l)
  | .late _ _ | .call (.observe_replica _) => isFalse id
  | .act _ | .call .observe | .call .mark | .call .start | .call .look | .call .skip
  | .call (.create _) | .call .send | .call .finish | .call .fail => isTrue trivial

/-- No pass is in progress, and nothing has been given yet. -/
def start (db : Chain) : Cascade := ⟨⟨db, .idle⟩, fun _ => 0⟩

end Cascade

/-- The marked successes of the jobs right above `c`. -/
def Chain.paid (db : Chain) (c : JobId) : Nat :=
  db.tasks.rows.countP fun x =>
    x.status = .success ∧ x.processed_for_chaining ∧ (x.job_id, c) ∈ db.job_dependencies

/-- The candidates the pass has not come to. -/
def PassPc.todo : PassPc → List Job
  | .idle => []
  | .marking _ todo | .looking _ todo | .dispatching _ _ todo | .created _ _ todo => todo

/-- The marks for `c` the pass has not set. -/
def Flow.owed (s : Flow) (c : JobId) : Nat :=
  s.pc.marks.countP fun x => (x.job_id, c) ∈ s.db.job_dependencies

/-! ## What the steps do to the counts -/

section Counts

variable {db db' : Chain} {l : Chain.Label} {c : JobId}

/-- What a step outside of the pass leaves of the rows: they keep their mark and what says
whose they are, and the new ones are neither marked nor dispatched by a pass. -/
structure Chain.Beside (db db' : Chain) (outside outside' : JobId → Nat) : Prop where
  jobs : db'.jobs = db.jobs
  job_dependencies : db'.job_dependencies = db.job_dependencies
  rows : ∃ g added, Grows db.now db.tasks.rows db'.tasks.rows g added ∧
    (∀ x, (g x).id = x.id) ∧
    (∀ x, (g x).processed_for_chaining = x.processed_for_chaining) ∧
    (∀ x ∈ added, ¬ (x.trigger_type = .dependency ∧ x.retry_count = 0)) ∧
    ∀ j, (added.filter fun x => x.job_id = j).length + outside j = outside' j

theorem Chain.Step.beside (outside : JobId → Nat) (hl : Cascade.Outside l)
    (h : db.Step l db') : db.Beside db' outside (Cascade.given outside l) := by
  cases h with
  | tick =>
      exact ⟨rfl, rfl, id, [], grows_refl _ _, fun _ => rfl, fun _ => rfl,
        fun x hx => absurd hx List.not_mem_nil, fun j => Nat.zero_add _⟩
  | @create id job_id trigger_type retry_count tasks hcreate =>
      refine ⟨rfl, rfl, _, _, grows_create hcreate, fun _ => rfl, fun _ => rfl, ?_, fun j => ?_⟩
      · intro x hx
        rw [List.mem_singleton.mp hx]
        exact hl
      · by_cases hj : job_id = j
        · subst hj
          simp [Cascade.given, Task.fresh, Nat.add_comm]
        · simp [Cascade.given, Task.fresh, hj, Function.update_of_ne (Ne.symm hj)]
  | @event id e row hrow hs =>
      refine ⟨rfl, rfl, _, _, grows_event hrow hs, fun x => ?_, fun x => ?_,
        fun x hx => absurd hx List.not_mem_nil, fun j => Nat.zero_add _⟩
      · exact RowEvent.at_field Task.id e.row_id id x
      · exact RowEvent.at_field Task.processed_for_chaining e.row_processed id x
  | pass => exact hl.elim

variable {outside outside' : JobId → Nat}

theorem Chain.Beside.dependency_runs (h : db.Beside db' outside outside') (c : JobId) :
    db'.dependency_runs c = db.dependency_runs c := by
  obtain ⟨g, added, hgrows, _, _, hnew, _⟩ := h.rows
  have hlen := hgrows.length_filter
    (p := fun x => x.job_id = c ∧ x.trigger_type = .dependency ∧ x.retry_count = 0)
    (fun x => by simp only [hgrows.job_id, hgrows.trigger_type, hgrows.retry_count])
  have hnone : added.filter (fun x => x.job_id = c ∧ x.trigger_type = .dependency ∧
      x.retry_count = 0) = [] := by
    refine List.filter_eq_nil_iff.mpr fun x hx => ?_
    rw [decide_eq_true_iff]
    exact fun hp => hnew x hx hp.2
  rw [Chain.dependency_runs, hlen, hnone, List.length_nil, Nat.add_zero]
  rfl

/-- A marked success stays one. -/
theorem Chain.Beside.paid (h : db.Beside db' outside outside') (c : JobId) :
    db.paid c ≤ db'.paid c := by
  obtain ⟨g, added, hgrows, _, hmark, _, _⟩ := h.rows
  unfold Chain.paid
  rw [h.job_dependencies, hgrows.eq, List.countP_append, List.countP_map]
  refine Nat.le_add_right_of_le (List.countP_mono_left fun x hx hp => ?_)
  rw [decide_eq_true_iff] at hp
  rw [Function.comp_apply, decide_eq_true_iff, hmark, hgrows.job_id]
  exact ⟨((hgrows.kept x hx).success hp.1).1, hp.2⟩

theorem Chain.Beside.tasks_of (h : db.Beside db' outside outside') (j : JobId) :
    (db'.tasks_of j).length + outside j = (db.tasks_of j).length + outside' j := by
  obtain ⟨g, added, hgrows, _, _, _, hgiven⟩ := h.rows
  have := hgrows.length_tasks_of j
  have := hgiven j
  omega

end Counts

/-! ## The account -/

/-- What the calls of a pass keep, from the database `db` the run began with: the candidates
ahead are each there once, the marks ahead are of rows that are not marked, and every
dependency run since the start, with the one a candidate may still get, is matched by a
mark since the start or one that is ahead. -/
structure Account (db : Chain) (s : Flow) : Prop where
  job_dependencies : s.db.job_dependencies = db.job_dependencies
  todo : (s.pc.todo.map Job.id).Nodup
  marks : (s.pc.marks.map Task.id).Nodup
  unmarked : ∀ x ∈ s.pc.marks, x.processed_for_chaining = false ∧
    ∃ row ∈ s.db.tasks.rows, row.id = x.id ∧ row.job_id = x.job_id ∧
      row.status = .success ∧ row.processed_for_chaining = false
  runs : ∀ c, s.db.dependency_runs c + db.paid c ≤ db.dependency_runs c + s.db.paid c
  ahead : ∀ c ∈ s.pc.todo.map Job.id,
    s.db.dependency_runs c + 1 + db.paid c ≤ db.dependency_runs c + s.db.paid c + s.owed c

theorem account_start (db : Chain) : Account db ⟨db, .idle⟩ where
  job_dependencies := rfl
  todo := List.nodup_nil
  marks := List.nodup_nil
  unmarked := fun _ hx => absurd hx List.not_mem_nil
  runs _ := le_rfl
  ahead := fun _ hc => absurd hc List.not_mem_nil

section Account

variable {db d : Chain} {s s' : Flow} {c : JobId}

/-- A step outside of the pass. -/
theorem Account.beside {pc : PassPc} {outside outside' : JobId → Nat} {d' : Chain}
    (hi : Account db ⟨d, pc⟩) (h : d.Beside d' outside outside') : Account db ⟨d', pc⟩ where
  job_dependencies := h.job_dependencies.trans hi.job_dependencies
  todo := hi.todo
  marks := hi.marks
  unmarked x hx := by
    obtain ⟨hp, row, hrow, hid, hjob, hs, hmark⟩ := hi.unmarked x hx
    obtain ⟨g, added, hgrows, hkey, hkept, _⟩ := h.rows
    refine ⟨hp, g row, hgrows.mem.mpr (.inl ⟨row, hrow, rfl⟩), (hkey row).trans hid, ?_, ?_, ?_⟩
    · exact (hgrows.job_id row).trans hjob
    · exact ((hgrows.kept row hrow).success hs).1
    · exact (hkept row).trans hmark
  runs c := by
    have hruns : d.dependency_runs c + db.paid c ≤ db.dependency_runs c + d.paid c := hi.runs c
    have hpaid := h.paid c
    show d'.dependency_runs c + db.paid c ≤ db.dependency_runs c + d'.paid c
    rw [h.dependency_runs]
    omega
  ahead c hc := by
    have hahead : d.dependency_runs c + 1 + db.paid c
        ≤ db.dependency_runs c + d.paid c + Flow.owed ⟨d, pc⟩ c := hi.ahead c hc
    have hpaid := h.paid c
    have howed : Flow.owed ⟨d', pc⟩ c = Flow.owed ⟨d, pc⟩ c := by
      unfold Flow.owed
      rw [h.job_dependencies]
    show d'.dependency_runs c + 1 + db.paid c
      ≤ db.dependency_runs c + d'.paid c + Flow.owed ⟨d', pc⟩ c
    rw [h.dependency_runs, howed]
    omega

/-- A pass begins: whoever is a candidate has a success to be marked. -/
theorem Account.observe (hi : Account db ⟨d, .idle⟩) :
    Account db ⟨d, .marking d.observed (d.candidates d.observed)⟩ where
  job_dependencies := hi.job_dependencies
  todo := by
    refine List.Nodup.map_on (fun a ha b hb hid => ?_) (Chain.candidates_nodup _)
    exact Table.eq_of_key (Chain.mem_candidates.mp ha).1 (Chain.mem_candidates.mp hb).1 hid
  marks := by
    have hsub : (d.observed.map Task.id).Sublist (((d.tasks.rows.filter fun task =>
        task.status = .success ∧ task.processed_for_chaining = false).insertionSort
          fun a b => a.created_at ≤ b.created_at).map Task.id) :=
      (List.take_sublist _ _).map _
    refine List.Nodup.sublist hsub ?_
    refine ((List.perm_insertionSort _ _).map Task.id).nodup_iff.mpr ?_
    exact d.tasks.nodup.sublist (List.filter_sublist.map _)
  unmarked x hx := by
    obtain ⟨hrow, hs, hp⟩ := TaskRepository.of_mem_get_unprocessed hx
    exact ⟨hp, x, hrow, rfl, rfl, hs, hp⟩
  runs := hi.runs
  ahead c hc := by
    obtain ⟨job, hjob, rfl⟩ := List.mem_map.mp hc
    obtain ⟨_, _, up, hup, task, htask, hid⟩ := Chain.mem_candidates.mp hjob
    have hedge : (up.id, job.id) ∈ d.job_dependencies := of_decide_eq_true (List.mem_filter.mp hup).2
    have hpos : 0 < Flow.owed ⟨d, .marking d.observed (d.candidates d.observed)⟩ job.id := by
      refine List.countP_pos_iff.mpr ⟨task, htask, ?_⟩
      rw [decide_eq_true_iff, hid]
      exact hedge
    have hruns : d.dependency_runs job.id + db.paid job.id
        ≤ db.dependency_runs job.id + d.paid job.id := hi.runs job.id
    show d.dependency_runs job.id + 1 + db.paid job.id
      ≤ db.dependency_runs job.id + d.paid job.id + _
    omega

/-- A mark is set: what was ahead of the pass has been paid. -/
theorem paid_mark {task row : Task} {tasks : Table Task} (hp : task.processed_for_chaining = false)
    (hrow : row ∈ d.tasks.rows) (hid : row.id = task.id) (hjob : row.job_id = task.job_id)
    (hs : row.status = .success) (hmark : row.processed_for_chaining = false)
    (h : TaskRepository.flush d.tasks task task.mark_processed_for_chaining = some tasks)
    (c : JobId) :
    Chain.paid { d with tasks := tasks } c
      = d.paid c + if (task.job_id, c) ∈ d.job_dependencies then 1 else 0 := by
  unfold Chain.paid
  rw [flush_marked hp h]
  refine (List.countP_map_of_one (List.Nodup.of_map _ d.tasks.nodup) hrow ?_ ?_).trans ?_
  · simp [hmark]
  · intro x hx hne
    have hother : x.id ∉ [task.id] := by
      rw [List.mem_singleton]
      exact fun heq => hne (Table.eq_of_key hx hrow (heq.trans hid.symm))
    rw [Task.chained, if_neg hother]
  · have hset : (row.chained [task.id]).processed_for_chaining = true := by
      rw [Task.chained, if_pos (by rw [hid]; exact List.mem_singleton_self _)]
      rfl
    simp only [hset, Task.chained_job_id, Task.chained_status, hjob, hs, true_and,
      decide_eq_true_eq]

theorem Account.mark {task : Task} {todo : List Task} {candidates : List Job}
    {tasks : Table Task} (hi : Account db ⟨d, .marking (task :: todo) candidates⟩)
    (h : TaskRepository.flush d.tasks task task.mark_processed_for_chaining = some tasks) :
    Account db ⟨{ d with tasks := tasks }, .marking todo candidates⟩ := by
  obtain ⟨hp, row, hrow, hid, hjob, hs, hmark⟩ := hi.unmarked task List.mem_cons_self
  obtain ⟨hfresh, hnodup⟩ := List.nodup_cons.mp hi.marks
  have hrows := flush_marked hp h
  have hpaid : ∀ c, Chain.paid { d with tasks := tasks } c
      = d.paid c + if (task.job_id, c) ∈ d.job_dependencies then 1 else 0 :=
    paid_mark hp hrow hid hjob hs hmark h
  have hruns : ∀ c, Chain.dependency_runs { d with tasks := tasks } c = d.dependency_runs c := by
    intro c
    unfold Chain.dependency_runs
    rw [hrows, List.filter_map, List.length_map]
    congr 1
    refine List.filter_congr fun x _ => ?_
    simp only [Function.comp_apply, Task.chained_job_id, Task.chained_trigger_type,
      Task.chained_retry_count]
  refine ⟨hi.job_dependencies, hi.todo, hnodup, fun x hx => ?_, fun c => ?_, fun c hc => ?_⟩
  · obtain ⟨hpx, y, hy, hyid, hyrest⟩ := hi.unmarked x (List.mem_cons_of_mem _ hx)
    have hother : y.id ∉ [task.id] := by
      rw [List.mem_singleton, hyid]
      exact fun heq => hfresh (heq ▸ List.mem_map_of_mem hx)
    refine ⟨hpx, y, ?_, hyid, hyrest⟩
    show y ∈ tasks.rows
    rw [hrows]
    exact List.mem_map.mpr ⟨y, hy, if_neg hother⟩
  · have := hi.runs c
    rw [hruns, hpaid]
    exact this.trans (Nat.le_add_right _ _ |> Nat.add_le_add_left (k := _))
  · have hahead : d.dependency_runs c + 1 + db.paid c ≤ db.dependency_runs c + d.paid c
        + Flow.owed ⟨d, .marking (task :: todo) candidates⟩ c := hi.ahead c hc
    have howed : Flow.owed ⟨d, .marking (task :: todo) candidates⟩ c
        = Flow.owed ⟨{ d with tasks := tasks }, .marking todo candidates⟩ c
          + if (task.job_id, c) ∈ d.job_dependencies then 1 else 0 := by
      unfold Flow.owed
      rw [PassPc.marks, PassPc.marks, List.countP_cons]
      simp only [decide_eq_true_eq]
    rw [howed] at hahead
    rw [hruns, hpaid]
    omega

/-- A candidate is dispatched. -/
theorem Account.create {since : Option Int} {latest : JobId → Option Task} {job : Job}
    {todo : List Job} {id : TaskId} {created_at : Int} {tasks : Table Task}
    (hi : Account db ⟨d, .dispatching since latest (job :: todo)⟩)
    (h : TaskRepository.create d.tasks (.fresh id job.id .dependency 0 created_at)
      = some tasks) :
    Account db ⟨{ d with tasks := tasks }, .created latest id todo⟩ := by
  obtain ⟨hfresh, hnodup⟩ := List.nodup_cons.mp hi.todo
  have hrows : tasks.rows = d.tasks.rows ++ [.fresh id job.id .dependency 0 created_at] := by
    have := (grows_create h).eq
    rwa [List.map_id'] at this
  have hruns : ∀ c, Chain.dependency_runs { d with tasks := tasks } c
      = d.dependency_runs c + if job.id = c then 1 else 0 := by
    intro c
    unfold Chain.dependency_runs
    rw [hrows, List.filter_append, List.length_append]
    congr 1
    by_cases hc : job.id = c <;> simp [Task.fresh, hc]
  have hpaid : ∀ c, Chain.paid { d with tasks := tasks } c = d.paid c := by
    intro c
    unfold Chain.paid
    rw [hrows, List.countP_append]
    simp [Task.fresh]
  have howed : ∀ c, Flow.owed ⟨d, .dispatching since latest (job :: todo)⟩ c = 0 :=
    fun _ => rfl
  refine ⟨hi.job_dependencies, hnodup, List.nodup_nil, fun x hx => absurd hx List.not_mem_nil,
    fun c => ?_, fun c hc => ?_⟩
  · rw [hruns, hpaid]
    by_cases hc : job.id = c
    · subst hc
      have := hi.ahead job.id List.mem_cons_self
      rw [howed] at this
      rw [if_pos rfl]
      omega
    · have := hi.runs c
      rw [if_neg hc]
      exact this
  · have hne : job.id ≠ c := fun heq => hfresh (heq ▸ hc)
    have := hi.ahead c (List.mem_cons_of_mem _ hc)
    rw [hruns, hpaid, if_neg hne]
    exact this

/-- The pass leaves out a candidate, or all that are left. -/
theorem Account.drop {pc pc' : PassPc} (hi : Account db ⟨d, pc⟩) (hmarks : pc'.marks = [])
    (htodo : (pc'.todo.map Job.id).Sublist (pc.todo.map Job.id))
    (hpaid : pc.marks = [] ∨ pc'.todo = []) : Account db ⟨d, pc'⟩ where
  job_dependencies := hi.job_dependencies
  todo := hi.todo.sublist htodo
  marks := by
    rw [show (⟨d, pc'⟩ : Flow).pc.marks = [] from hmarks]
    exact List.nodup_nil
  unmarked x hx := by
    rw [show (⟨d, pc'⟩ : Flow).pc.marks = [] from hmarks] at hx
    cases hx
  runs := hi.runs
  ahead c hc := by
    rcases hpaid with hnone | hnone
    · have hahead := hi.ahead c (htodo.subset hc)
      unfold Flow.owed at hahead ⊢
      rw [show (⟨d, pc⟩ : Flow).pc.marks = [] from hnone] at hahead
      rw [show (⟨d, pc'⟩ : Flow).pc.marks = [] from hmarks]
      exact hahead
    · rw [show (⟨d, pc'⟩ : Flow).pc.todo = [] from hnone] at hc
      cases hc

theorem account_call {outside : JobId → Nat} {a : PassAct} (hi : Account db s)
    (hl : Cascade.Steady ⟨s, outside⟩ (.call a)) (h : PassStep s a s') : Account db s' := by
  cases h with
  | observe_none => exact hi
  | observe => exact hi.observe
  | observe_replica => exact hl.elim
  | mark h => exact hi.mark h
  | look_none | start | look => exact hi.drop rfl (List.Sublist.refl _) (.inl rfl)
  | skip => exact hi.drop rfl (List.sublist_cons_self _ _) (.inl rfl)
  | create _ h => exact hi.create h
  | send =>
      exact ⟨hi.job_dependencies, hi.todo, hi.marks, hi.unmarked, hi.runs, hi.ahead⟩
  | finish => exact hi.drop rfl (List.Sublist.refl _) (.inl rfl)
  | fail => exact hi.drop rfl (List.nil_sublist _) (.inr rfl)

end Account

/-! ## The runs are bounded -/

/-- What a run keeps: the account, and that a job's tasks were there, or given from outside,
or dispatched. -/
structure CascadeInv (db : Chain) (s : Cascade) : Prop where
  account : Account db s.flow
  tasks : ∀ j, (s.flow.db.tasks_of j).length + db.dependency_runs j
    = (db.tasks_of j).length + s.outside j + s.flow.db.dependency_runs j

theorem cascadeInv_start (db : Chain) : CascadeInv db (.start db) :=
  ⟨account_start db, fun _ => rfl⟩

/-- A call of the pass gives a job no task but those it dispatches. -/
theorem PassStep.tasks_of {s s' : Flow} {a : PassAct} (hi : ∀ x ∈ s.pc.marks,
    x.processed_for_chaining = false) (h : PassStep s a s') (j : JobId) :
    (s'.db.tasks_of j).length + s.db.dependency_runs j
      = (s.db.tasks_of j).length + s'.db.dependency_runs j := by
  cases h with
  | @mark d task todo candidates tasks hmark =>
      have hrows := flush_marked (hi task List.mem_cons_self) hmark
      simp only [Chain.tasks_of, Chain.dependency_runs, hrows, List.filter_map, List.length_map]
      simp [Function.comp_def]
  | @create d since latest job todo id tasks _ hcreate =>
      have hrows : tasks.rows
          = d.tasks.rows ++ [.fresh id job.id .dependency 0 (since.getD d.now)] := by
        have := (grows_create hcreate).eq
        rwa [List.map_id'] at this
      simp only [Chain.tasks_of, Chain.dependency_runs, hrows, List.filter_append,
        List.length_append]
      by_cases hj : job.id = j
      · simp only [Task.fresh, hj, decide_true, List.filter_cons_of_pos, List.filter_nil,
          List.length_singleton, and_self]
        omega
      · simp [Task.fresh, hj]
  | send => rfl
  | _ => rfl

theorem cascadeInv_step {db : Chain} {s s' : Cascade} {l : Cascade.Label}
    (hi : CascadeInv db s) (hs : Cascade.Steady s l) (h : Cascade.Step s l s') :
    CascadeInv db s' := by
  cases h with
  | late => exact hs.elim
  | act hl hst =>
      have hbeside := hst.beside s.outside hl
      refine ⟨hi.account.beside hbeside, fun j => ?_⟩
      have htasks := hi.tasks j
      have hgiven := hbeside.tasks_of j
      have hruns := hbeside.dependency_runs j
      dsimp only
      omega
  | call hst =>
      refine ⟨account_call hi.account hs hst, fun j => ?_⟩
      have htasks := hi.tasks j
      have hcall := hst.tasks_of (fun x hx => (hi.account.unmarked x hx).1) j
      dsimp only
      omega

theorem cascadeInv_run {db : Chain} {s : Cascade}
    (hrun : Run Cascade.Step Cascade.Steady (.start db) s) : CascadeInv db s :=
  hrun.invariant (fun hi hl h => cascadeInv_step hi hl h) (cascadeInv_start db)

/-- **Triggers are paid for.**  In every steady run, whatever happens between the calls of
its passes and wherever they are cut short, a job is dispatched no more often than successes
of jobs right above it are marked. -/
theorem triggers_paid {db : Chain} {s : Cascade}
    (hrun : Run Cascade.Step Cascade.Steady (.start db) s) (j : JobId) :
    s.flow.db.dependency_runs j + db.paid j
      ≤ db.dependency_runs j + s.flow.db.paid j :=
  (cascadeInv_run hrun).account.runs j

/-- A marked success is one of the tasks of some job above. -/
theorem Chain.paid_le_handed (db : Chain) (j : JobId) :
    db.paid j ≤ handed db.job_dependencies (fun u => (db.tasks_of u).length) j := by
  have hedges : ∀ edges : List (JobId × JobId),
      db.tasks.rows.countP (fun x => (x.job_id, j) ∈ edges)
        ≤ handed edges (fun u => (db.tasks_of u).length) j := by
    intro edges
    induction edges with
    | nil => simp [handed]
    | cons e edges ih =>
        unfold handed at ih ⊢
        by_cases hj : e.2 = j
        · have hsplit : db.tasks.rows.countP (fun x => (x.job_id, j) ∈ e :: edges)
              = db.tasks.rows.countP fun x =>
                decide (x.job_id = e.1) || decide ((x.job_id, j) ∈ edges) := by
            refine List.countP_congr fun x _ => ?_
            simp [List.mem_cons, Prod.ext_iff, hj]
          have hfirst : (db.tasks_of e.1).length
              = db.tasks.rows.countP fun x => decide (x.job_id = e.1) :=
            List.countP_eq_length_filter.symm
          rw [hsplit, List.filter_cons_of_pos (by simpa using hj), List.map_cons, List.sum_cons]
          exact List.countP_or_le.trans (Nat.add_le_add (le_of_eq hfirst.symm) ih)
        · have hsame : db.tasks.rows.countP (fun x => (x.job_id, j) ∈ e :: edges)
              = db.tasks.rows.countP fun x => (x.job_id, j) ∈ edges := by
            refine List.countP_congr fun x _ => ?_
            simp [List.mem_cons, Prod.ext_iff, Ne.symm hj]
          rw [hsame, List.filter_cons_of_neg (by simpa using hj)]
          exact ih
  refine le_trans (List.countP_mono_left fun x _ hp => ?_) (hedges db.job_dependencies)
  rw [decide_eq_true_iff] at hp ⊢
  exact hp.2.2

/-- **A cascade ends.**  Over acyclic dependencies, the tasks a job has in any state of a
steady run are bounded by the tasks there were at the start and those given from outside,
handed on along the edges: dispatches of dispatches, retries and all. -/
theorem cascade_bounded {db : Chain} {s : Cascade} (hacyclic : Acyclic db.job_dependencies)
    (hrun : Run Cascade.Step Cascade.Steady (.start db) s) (j : JobId) :
    (s.flow.db.tasks_of j).length ≤ spread db.job_dependencies
      (fun i => (db.tasks_of i).length + s.outside i) db.job_dependencies.length j := by
  have hi := cascadeInv_run hrun
  refine hacyclic.le_spread (fun i => (s.flow.db.tasks_of i).length) (fun i => ?_) j
  have htasks := hi.tasks i
  have hruns := hi.account.runs i
  have hpaid := s.flow.db.paid_le_handed i
  rw [hi.account.job_dependencies] at hpaid
  omega

/-! ## A run over a shortcut -/

/-- The step a label stands for. -/
def Cascade.exec (s : Cascade) : Cascade.Label → Option Cascade
  | .act (.create id job_id trigger_type retry_count) =>
      if trigger_type = .dependency ∧ retry_count = 0 then none
      else (s.flow.db.exec (.create id job_id trigger_type retry_count)).map fun db' =>
        ⟨⟨db', s.flow.pc⟩, Cascade.given s.outside (.create id job_id trigger_type retry_count)⟩
  | .act (.tick d) => (s.flow.db.exec (.tick d)).map fun db' => ⟨⟨db', s.flow.pc⟩, s.outside⟩
  | .act (.event id e) =>
      (s.flow.db.exec (.event id e)).map fun db' => ⟨⟨db', s.flow.pc⟩, s.outside⟩
  | .act (.pass _) => none
  | .late id e => (s.flow.db.tasks.get id).map fun row =>
      ⟨⟨{ s.flow.db with tasks := s.flow.db.tasks.set (e.row s.flow.db.now row) }, s.flow.pc⟩,
        s.outside⟩
  | .call a => (s.flow.call a).map fun flow => ⟨flow, s.outside⟩

theorem Cascade.step_of_exec {s s' : Cascade} {l : Cascade.Label} (h : s.exec l = some s') :
    Cascade.Step s l s' := by
  cases l with
  | act l =>
      cases l with
      | create =>
          simp only [Cascade.exec] at h
          split at h
          · cases h
          · next hl =>
              obtain ⟨db', hdb, rfl⟩ := Option.map_eq_some_iff.mp h
              exact .act hl (Chain.step_of_exec hdb)
      | tick | event =>
          obtain ⟨db', hdb, rfl⟩ := Option.map_eq_some_iff.mp h
          exact .act trivial (Chain.step_of_exec hdb)
      | pass => cases h
  | late id e =>
      obtain ⟨row, hrow, rfl⟩ := Option.map_eq_some_iff.mp h
      exact .late hrow
  | call a =>
      obtain ⟨flow, hflow, rfl⟩ := Option.map_eq_some_iff.mp h
      exact .call (passStep_of_call hflow)

/-- Job 2 is below job 1, and job 3 below both. -/
def example_below : Chain := ⟨0, example_trio, [(1, 2), (1, 3), (2, 3)], .empty, []⟩

/-- Job 1 succeeds, and the pass dispatches job 2 and not yet job 3. -/
def example_cascade : List Cascade.Label :=
  [.act (.create 1 1 .manual 0), .act (.event 1 (.claim example_worker)),
    .act (.event 1 (.success none none)), .call .observe, .call .mark, .call .start,
    .call .look, .call (.create 2), .call .send, .call .skip, .call .finish]

theorem triggers_paid_once : ∃ s,
    Run Cascade.Step Cascade.Steady (.start example_below) s ∧
    s.flow.db.dependency_runs 2 = 1 ∧ 1 ≤ s.flow.db.paid 2 := by
  obtain ⟨s, hs, h⟩ := (Option.any_eq_true _ _).mp
    (show (Lts.exec Cascade.exec Cascade.Steady (.start example_below)
      example_cascade).any (fun s => s.flow.db.dependency_runs 2 = 1) = true by decide +kernel)
  have hruns := of_decide_eq_true h
  have hrun := Run.of_exec Cascade.step_of_exec hs
  have hpaid := triggers_paid hrun 2
  have hstart : example_below.dependency_runs 2 = 0 := rfl
  exact ⟨s, hrun, hruns, by omega⟩

theorem cascade_bounded_shortcut : ∃ s,
    Run Cascade.Step Cascade.Steady (.start example_below) s ∧
    s.outside 1 = 1 ∧ (s.flow.db.tasks_of 3).length ≤ 2 := by
  obtain ⟨s, hs, h⟩ := (Option.any_eq_true _ _).mp
    (show (Lts.exec Cascade.exec Cascade.Steady (.start example_below)
      example_cascade).any (fun s => s.outside 1 = 1 ∧ s.outside 2 = 0 ∧ s.outside 3 = 0) = true
      by decide +kernel)
  obtain ⟨h₁, h₂, h₃⟩ := of_decide_eq_true h
  have hrun := Run.of_exec Cascade.step_of_exec hs
  have hbound := cascade_bounded (by decide) hrun 3
  have hspread : spread example_below.job_dependencies
      (fun i => (example_below.tasks_of i).length + s.outside i) 3 3 = 2 := by
    simp [spread, handed, example_below, h₁, h₂, h₃, Chain.tasks_of, Table.empty]
  exact ⟨s, hrun, h₁, hbound.trans (le_of_eq hspread)⟩

end Dass
