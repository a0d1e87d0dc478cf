/-
# `Dass.Lib.Alternate` — events that another kind of event keeps apart

A log, newest entry first, holds events of a kind `p` and of a kind `q`.  They
*alternate* when no `p` follows a `p` without a `q` between the two.  To a
system that is a check made at each `p` alone, `since p q log = false`; what it
amounts to for the whole log is read off afterwards: a bound on the number of
`p`s (`Alternates.countP_le`), and a `q` between any two of them
(`Alternates.between`).
-/
import Mathlib.Tactic.TypeStar

namespace Log

variable {α : Type*} (p q : α → Bool)

/-- An entry satisfies `p`, and none since satisfies `q`. -/
def since : List α → Bool
  | [] => false
  | a :: log => p a || (!q a && since log)

/-- No `p` came when one had come since the last `q`. -/
def Alternates : List α → Prop
  | [] => True
  | a :: log => (p a = true → since p q log = false) ∧ Alternates log

variable {p q} {a : α} {log : List α}

@[simp] theorem since_cons_left (h : p a = true) : since p q (a :: log) = true := by
  rw [since, h, Bool.true_or]

@[simp] theorem since_cons_right (hp : p a = false) (hq : q a = true) :
    since p q (a :: log) = false := by
  rw [since, hp, hq]
  rfl

@[simp] theorem since_cons_other (hp : p a = false) (hq : q a = false) :
    since p q (a :: log) = since p q log := by
  rw [since, hp, hq]
  simp

theorem Alternates.cons (h : Alternates p q log) (ha : p a = true → since p q log = false) :
    Alternates p q (a :: log) :=
  ⟨ha, h⟩

/-- Each `p` but one is paid for by a `q`. -/
theorem Alternates.countP_le (h : Alternates p q log) :
    log.countP p ≤ log.countP q + if since p q log then 1 else 0 := by
  induction log with
  | nil => exact Nat.zero_le _
  | cons a log ih =>
      have hle := ih h.2
      cases hp : p a with
      | true =>
          have hsince := h.1 hp
          rw [hsince, if_neg Bool.false_ne_true] at hle
          rw [since_cons_left hp, if_pos rfl, List.countP_cons_of_pos hp]
          have hgrow : log.countP q ≤ (a :: log).countP q := by
            rw [List.countP_cons]
            exact Nat.le_add_right _ _
          omega
      | false =>
          have hneg : ¬ p a = true := hp ▸ Bool.false_ne_true
          rw [List.countP_cons_of_neg hneg]
          cases hq : q a with
          | true =>
              rw [since_cons_right hp hq, List.countP_cons_of_pos hq]
              split at hle <;> omega
          | false =>
              have hneg : ¬ q a = true := hq ▸ Bool.false_ne_true
              rw [since_cons_other hp hq, List.countP_cons_of_neg hneg]
              exact hle

/-- Where no `p` has come since the last `q`, every `p` has a `q` after it. -/
theorem exists_of_since {after before : List α} (h : since p q (after ++ a :: before) = false)
    (ha : p a = true) : ∃ r ∈ after, q r = true := by
  induction after with
  | nil =>
      rw [List.nil_append, since_cons_left ha] at h
      cases h
  | cons b after ih =>
      rw [List.cons_append, since, Bool.or_eq_false_iff] at h
      cases hq : q b with
      | true => exact ⟨b, List.mem_cons_self, hq⟩
      | false =>
          rw [hq, Bool.not_false, Bool.true_and] at h
          obtain ⟨r, hr, hqr⟩ := ih h.2
          exact ⟨r, List.mem_cons_of_mem _ hr, hqr⟩

/-- Between two `p`s there is a `q`. -/
theorem Alternates.between {b : α} {newer mid older : List α}
    (h : Alternates p q (newer ++ a :: mid ++ b :: older)) (ha : p a = true) (hb : p b = true) :
    ∃ r ∈ mid, q r = true := by
  induction newer with
  | nil => exact exists_of_since (h.1 ha) hb
  | cons _ _ ih => exact ih h.2

end Log
