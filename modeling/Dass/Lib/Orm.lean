/-
# `Dass.Lib.Orm` — what a flush writes

An object-relational session keeps, for every object, the value each column had
when it was loaded.  A flush sends the columns whose assigned value differs from
that and nothing else, so three values meet in a column: the one *loaded*, the
one *assigned*, and the one *stored* when the `UPDATE` runs, which another
transaction may have changed in between.
-/
import Mathlib.Tactic.TypeStar
import Mathlib.Tactic.ByContra

namespace Orm

variable {α : Type*} [DecidableEq α] {loaded assigned stored : α}

/-- The value a column has after the flush. -/
def emit (loaded assigned stored : α) : α :=
  if assigned = loaded then stored else assigned

/-- A column nobody assigned keeps what is stored. -/
@[simp] theorem emit_clean (loaded stored : α) : emit loaded loaded stored = stored :=
  if_pos rfl

theorem emit_dirty (h : assigned ≠ loaded) : emit loaded assigned stored = assigned :=
  if_neg h

/-- With no write between load and flush, the column takes the assigned value. -/
@[simp] theorem emit_loaded (loaded assigned : α) : emit loaded assigned loaded = assigned := by
  unfold emit
  split
  · next h => exact h.symm
  · rfl

/-- It leaves the assigned value exactly when it sends it, or that is stored anyway. -/
theorem emit_eq_assigned : emit loaded assigned stored = assigned ↔
    assigned ≠ loaded ∨ stored = assigned := by
  unfold emit
  split
  · next h => simp [h]
  · next h => simp [h]

/-- The assignment the flush sends for the column, if it sends one. -/
def sent (loaded assigned : α) : Option α :=
  if assigned = loaded then none else some assigned

/-- What the column holds afterwards is what was sent, or else what was stored. -/
theorem emit_eq_getD_sent : emit loaded assigned stored = (sent loaded assigned).getD stored := by
  unfold emit sent
  split <;> rfl

end Orm
