/-
# `Dass.Lib.RoundLoop` — a loop, round after round

A loop whose `k`-th round goes on to the next one, ends the loop with a result, or waits for
something that does not come.  It ends in round `k` with a result if and only if every round
before goes on and round `k` ends with it (`ended_iff`); so there is one end at most, and there
is one unless the loop goes on for ever or waits (`ended_of_not_for_ever`).
-/
import Mathlib.Data.Nat.Find

namespace RoundLoop

variable {ρ : Type*}

/-- What a round does. -/
inductive Round (ρ : Type*) where
  | goes_on
  | waits
  | ends (result : ρ)

/-- Where a loop is. -/
inductive Progress (ρ : Type*) where
  | at_round (k : Nat)
  | ended (k : Nat) (result : ρ)

/-- One round more. -/
def step (round : Nat → Round ρ) : Progress ρ → Progress ρ
  | .ended k result => .ended k result
  | .at_round k =>
      match round k with
      | .goes_on => .at_round (k + 1)
      | .waits => .at_round k
      | .ends result => .ended k result

/-- The loop after `n` steps. -/
def progress (round : Nat → Round ρ) : Nat → Progress ρ
  | 0 => .at_round 0
  | n + 1 => step round (progress round n)

/-- What is so of every loop on its way: the rounds before went on. -/
def Consistent (round : Nat → Round ρ) : Progress ρ → Prop
  | .at_round k => ∀ j < k, round j = .goes_on
  | .ended k result => (∀ j < k, round j = .goes_on) ∧ round k = .ends result

variable {round : Nat → Round ρ} {k : Nat} {result : ρ}

theorem step_consistent {p : Progress ρ} (h : Consistent round p) :
    Consistent round (step round p) := by
  cases p with
  | ended k result => exact h
  | at_round k =>
      rw [step]
      split
      · next hround =>
          intro j hj
          rcases Nat.lt_succ_iff_lt_or_eq.mp hj with hlt | rfl
          · exact h j hlt
          · exact hround
      · exact h
      · next hround => exact ⟨h, hround⟩

theorem progress_consistent (n : Nat) : Consistent round (progress round n) := by
  induction n with
  | zero => exact fun j hj => absurd hj (Nat.not_lt_zero j)
  | succ n ih => exact step_consistent ih

theorem progress_of_goes_on (h : ∀ j < k, round j = .goes_on) :
    progress round k = .at_round k := by
  induction k with
  | zero => rfl
  | succ k ih =>
      rw [progress, ih fun j hj => h j (Nat.lt_succ_of_lt hj), step, h k (Nat.lt_succ_self k)]

/-- Where a loop ends. -/
theorem ended_iff :
    (∃ n, progress round n = .ended k result) ↔
      (∀ j < k, round j = .goes_on) ∧ round k = .ends result := by
  constructor
  · rintro ⟨n, hn⟩
    have h : Consistent round (progress round n) := progress_consistent n
    rwa [hn] at h
  · rintro ⟨hbefore, hend⟩
    refine ⟨k + 1, ?_⟩
    rw [progress, progress_of_goes_on hbefore, step, hend]

/-- A loop that neither goes on for ever nor waits comes to an end. -/
theorem ended_of_not_for_ever (hon : ∃ k, round k ≠ .goes_on) (hwaits : ∀ k, round k ≠ .waits) :
    ∃ n k result, progress round n = .ended k result := by
  classical
  have hbefore : ∀ j < Nat.find hon, round j = .goes_on := fun j hj =>
    not_not.mp (Nat.find_min hon hj)
  cases hround : round (Nat.find hon) with
  | goes_on => exact absurd hround (Nat.find_spec hon)
  | waits => exact absurd hround (hwaits _)
  | ends result =>
      obtain ⟨n, hn⟩ := ended_iff.mpr ⟨hbefore, hround⟩
      exact ⟨n, _, result, hn⟩

end RoundLoop
