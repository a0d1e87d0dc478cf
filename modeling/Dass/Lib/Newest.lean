/-
# `Dass.Lib.Newest` — the newest row of a partition

A program that keeps appending rows and updating them in place asks for the newest
row of a partition: a row with the greatest stamp, among equals the first
(`newest`), of those that satisfy a condition.  Updates that touch neither the stamp
nor what the condition reads pick the same row, and rows of other partitions do not
compete (`newest_filter_grow`); a row that is appended is picked itself or changes
nothing (`newest_append`).  Where it asks for the oldest rows first, those that drop out
leave the others in their order (`filter_insertionSort`), and the first `n` are those with
fewer than `n` older ones (`mem_take_insertionSort`).
-/
import Mathlib.Data.List.MinMax
import Mathlib.Data.List.Sort

namespace List

variable {α β : Type*} [LinearOrder β] {f : α → β} {g : α → α} {p : α → Bool} {l : List α}

/-- A row with the greatest stamp. -/
def newest (f : α → β) (l : List α) : Option α := l.argmax f

theorem newest_mem {x : α} (h : l.newest f = some x) : x ∈ l := argmax_mem h

theorem le_newest {x y : α} (h : l.newest f = some x) (hy : y ∈ l) : f y ≤ f x :=
  le_of_mem_argmax hy h

theorem newest_eq_none : l.newest f = none ↔ l = [] := argmax_eq_none

/-- An update in place that keeps the stamps keeps the choice. -/
theorem newest_map (hf : ∀ x, f (g x) = f x) (l : List α) :
    (l.map g).newest f = (l.newest f).map g := by
  unfold newest
  induction l with
  | nil => rfl
  | cons x xs ih =>
      rw [map_cons, argmax_cons, argmax_cons, ih]
      cases xs.argmax f with
      | none => rfl
      | some y =>
          simp only [Option.map_some, hf]
          split <;> rfl

/-- The newest row of a partition, after updates in place and insertions elsewhere. -/
theorem newest_filter_grow (hf : ∀ x, f (g x) = f x) (hp : ∀ x, p (g x) = p x)
    {added : List α} (hnone : ∀ x ∈ added, p x = false) (l : List α) :
    ((l.map g ++ added).filter p).newest f = ((l.filter p).newest f).map g := by
  have hadded : added.filter p = [] :=
    filter_eq_nil_iff.mpr fun x hx => by rw [hnone x hx]; exact Bool.false_ne_true
  have hmap : (l.map g).filter p = (l.filter p).map g := by
    rw [filter_map]
    exact congrArg (map g) (filter_congr fun x _ => hp x)
  rw [filter_append, hadded, append_nil, hmap, newest_map hf]

/-- Of some rows and some more, the newest of the former or one of the latter. -/
theorem newest_append (f : α → β) (l m : List α) :
    (l ++ m).newest f = l.newest f ∨ ∃ x ∈ m, (l ++ m).newest f = some x := by
  induction m using List.reverseRecOn with
  | nil => exact .inl (by rw [append_nil])
  | append_singleton m a ih =>
      have hlast : (l ++ (m ++ [a])).newest f = (l ++ m).newest f ∨
          (l ++ (m ++ [a])).newest f = some a := by
        rw [← append_assoc]
        unfold newest
        rw [argmax_concat]
        cases (l ++ m).argmax f with
        | none => exact .inr rfl
        | some c =>
            simp only
            split
            · exact .inr rfl
            · exact .inl rfl
      rcases hlast with hsame | hnew
      · rw [hsame]
        exact ih.imp_right fun ⟨x, hx, h⟩ => ⟨x, mem_append_left _ hx, h⟩
      · exact .inr ⟨a, mem_append_right _ (mem_singleton.mpr rfl), hnew⟩

/-! ## The oldest first -/

section Sorted

variable {r : α → α → Prop} [DecidableRel r] [IsTrans α r] {q : α → Bool}

theorem filter_orderedInsert_of_pos {a : α} (ha : q a = true) {l : List α}
    (hl : l.Pairwise r) : (l.orderedInsert r a).filter q = (l.filter q).orderedInsert r a := by
  induction l with
  | nil => simp [ha]
  | cons b l ih =>
      obtain ⟨hb, hl'⟩ := pairwise_cons.mp hl
      by_cases hab : r a b
      · rw [orderedInsert_cons_of_le r l hab, filter_cons_of_pos ha]
        -- everything from `b` on is above `a`
        have hall : ∀ c ∈ (b :: l).filter q, r a c := by
          intro c hc
          rcases mem_cons.mp (mem_of_mem_filter hc) with rfl | hc
          · exact hab
          · exact IsTrans.trans _ _ _ hab (hb c hc)
        cases hf : (b :: l).filter q with
        | nil => rfl
        | cons c l' =>
            rw [orderedInsert_cons_of_le r l' (hall c (hf ▸ mem_cons_self))]
      · rw [orderedInsert_of_not_le r l hab]
        cases hq : q b with
        | true =>
            rw [filter_cons_of_pos hq, filter_cons_of_pos hq, orderedInsert_of_not_le r _ hab,
              ih hl']
        | false =>
            have hq : ¬ q b = true := by rw [hq]; exact Bool.false_ne_true
            rw [filter_cons_of_neg hq, filter_cons_of_neg hq, ih hl']

omit [IsTrans α r] in
theorem filter_orderedInsert_of_neg {a : α} (ha : ¬ q a = true) (l : List α) :
    (l.orderedInsert r a).filter q = l.filter q := by
  induction l with
  | nil => exact filter_cons_of_neg ha
  | cons b l ih =>
      rw [orderedInsert_cons]
      split
      · exact filter_cons_of_neg ha
      · rw [filter_cons, filter_cons, ih]

/-- Sorting is stable: the rows that stay, stay in order. -/
theorem filter_insertionSort [Std.Total r] (q : α → Bool) (l : List α) :
    (l.insertionSort r).filter q = (l.filter q).insertionSort r := by
  induction l with
  | nil => rfl
  | cons a l ih =>
      rw [insertionSort_cons]
      cases ha : q a with
      | true =>
          rw [filter_orderedInsert_of_pos ha (pairwise_insertionSort r l), ih,
            filter_cons_of_pos ha, insertionSort_cons]
      | false =>
          have ha : ¬ q a = true := by rw [ha]; exact Bool.false_ne_true
          rw [filter_orderedInsert_of_neg ha, ih, filter_cons_of_neg ha]

end Sorted

/-- The first rows of a strictly sorted list, by how many come before them. -/
theorem mem_take_of_sorted {l : List α} (h : l.Pairwise fun a b => f a < f b) {n : Nat} {x : α} :
    x ∈ l.take n ↔ x ∈ l ∧ (l.filter fun y => f y < f x).length < n := by
  induction l generalizing n with
  | nil => simp
  | cons a l ih =>
      obtain ⟨ha, hl⟩ := pairwise_cons.mp h
      cases n with
      | zero => simp
      | succ n =>
          rw [take_succ_cons, mem_cons, mem_cons, ih hl]
          by_cases hx : x ∈ l
          · have hlt : f a < f x := ha x hx
            have hne : x ≠ a := fun heq => lt_irrefl _ (heq ▸ hlt)
            simp [hx, hlt, hne]
          · simp only [hx, false_and, or_false]
            refine ⟨fun heq => ⟨heq, ?_⟩, And.left⟩
            subst heq
            have hnone : ((x :: l).filter fun y => f y < f x) = [] := by
              refine filter_eq_nil_iff.mpr fun y hy => ?_
              rcases mem_cons.mp hy with rfl | hy
              · simp
              · simpa using (ha y hy).le
            rw [hnone]
            exact Nat.succ_pos n

/-- **The oldest `n`**, where no two rows have one stamp. -/
theorem mem_take_insertionSort (h : (l.map f).Nodup) {n : Nat} {x : α} :
    x ∈ (l.insertionSort fun a b => f a ≤ f b).take n ↔
      x ∈ l ∧ (l.filter fun y => f y < f x).length < n := by
  have hperm := perm_insertionSort (fun a b : α => f a ≤ f b) l
  have hle : (l.insertionSort fun a b => f a ≤ f b).Pairwise fun a b => f a ≤ f b :=
    pairwise_insertionSort _ l
  have hne : (l.insertionSort fun a b => f a ≤ f b).Pairwise fun a b => f a ≠ f b :=
    pairwise_map.mp ((hperm.map f).nodup_iff.mpr h)
  have hlt : (l.insertionSort fun a b => f a ≤ f b).Pairwise fun a b => f a < f b :=
    hle.imp₂ (fun _ _ => lt_of_le_of_ne) hne
  rw [mem_take_of_sorted hlt, hperm.mem_iff, (hperm.filter _).length_eq]

end List
