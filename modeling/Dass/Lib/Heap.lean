/-
# `Dass.Lib.Heap` — a priority queue as its sorted list of entries

A binary heap shows its user a multiset and its least element, and a sorted
list shows exactly the same: `peek` is the head, `pop` the tail, `push` an
ordered insertion.  That the list is sorted is a field, so "the head is a least
entry" (`Heap.head_le`) needs no invariant of the program that uses the queue.
-/
import Mathlib.Data.List.Sort

/-- A priority queue; duplicates are kept. -/
structure Heap (α : Type*) [LinearOrder α] where
  entries : List α
  sorted : entries.Pairwise (· ≤ ·)

namespace Heap

variable {α : Type*} [LinearOrder α]

/-- The queue without entries. -/
def empty : Heap α := ⟨[], .nil⟩

instance : Membership α (Heap α) := ⟨fun h x => x ∈ h.entries⟩

/-- Insert an entry. -/
def heappush (h : Heap α) (x : α) : Heap α :=
  ⟨h.entries.orderedInsert (· ≤ ·) x, h.sorted.orderedInsert x h.entries⟩

/-- The least entry, which stays in the queue. -/
def peek (h : Heap α) : Option α := h.entries.head?

/-- The queue without its least entry. -/
def heappop (h : Heap α) : Heap α := ⟨h.entries.tail, h.sorted.tail⟩

theorem mem_heappush {h : Heap α} {x y : α} : y ∈ h.heappush x ↔ y = x ∨ y ∈ h :=
  List.mem_orderedInsert _

@[simp] theorem notMem_empty (x : α) : x ∉ (empty : Heap α) := List.not_mem_nil

/-- The least entry comes first. -/
theorem entries_of_peek {h : Heap α} {x : α} (hp : h.peek = some x) :
    h.entries = x :: h.heappop.entries := by
  obtain ⟨entries, sorted⟩ := h
  cases entries with
  | nil => simp [peek] at hp
  | cons z zs =>
      simp only [peek, List.head?_cons, Option.some.injEq] at hp
      subst hp
      rfl

/-- The entries are the least one and those of the popped queue. -/
theorem mem_iff_of_peek {h : Heap α} {x : α} (hp : h.peek = some x) (y : α) :
    y ∈ h ↔ y = x ∨ y ∈ h.heappop := by
  show y ∈ h.entries ↔ _
  rw [entries_of_peek hp]
  exact List.mem_cons

theorem mem_of_mem_heappop {h : Heap α} {y : α} (hy : y ∈ h.heappop) : y ∈ h :=
  List.mem_of_mem_tail hy

/-- The entry `peek` answers is a least one. -/
theorem head_le {h : Heap α} {x y : α} (hp : h.peek = some x) (hy : y ∈ h) : x ≤ y := by
  obtain ⟨entries, sorted⟩ := h
  cases entries with
  | nil => simp [peek] at hp
  | cons z zs =>
      simp only [peek, List.head?_cons, Option.some.injEq] at hp
      subst hp
      rcases List.mem_cons.mp hy with rfl | hz
      · exact le_refl _
      · exact (List.pairwise_cons.mp sorted).1 y hz

end Heap
