/-
# `Dass.Lib.Table` — tables keyed by a primary key

A `Table ρ` is a list of rows no two of which share a key.  The key constraint
is a field of the structure, so every operation has to keep it and no later
proof re-establishes it.  The order of the list stands for the order in which
the database happens to return rows that a query does not order.

The operations are the four a program performs by primary key (`get`, `add`,
`set`, `erase`); each has one lemma that says what `get` answers afterwards,
and proofs about tables use those and never the list underneath.
-/
import Mathlib.Data.List.Nodup

/-- A list without duplicates whose entries are all equal. -/
theorem List.Nodup.length_le_one {α : Type*} {l : List α} (h : l.Nodup)
    (hone : ∀ a ∈ l, ∀ b ∈ l, a = b) : l.length ≤ 1 := by
  match l with
  | [] => exact Nat.zero_le 1
  | [_] => exact Nat.le_refl 1
  | a :: b :: rest =>
      have heq := hone a List.mem_cons_self b (List.mem_cons_of_mem _ List.mem_cons_self)
      rw [heq] at h
      exact absurd List.mem_cons_self (List.nodup_cons.mp h).1

/-- Rows of type `ρ` carry a primary key of type `κ`. -/
class HasKey (ρ : Type*) (κ : outParam (Type*)) where
  key : ρ → κ

export HasKey (key)

/-- Rows with pairwise different primary keys. -/
structure Table (ρ : Type*) {κ : Type*} [HasKey ρ κ] where
  rows : List ρ
  nodup : (rows.map key).Nodup

namespace Table

variable {ρ κ : Type*} [HasKey ρ κ] [DecidableEq κ]

/-- The table without rows. -/
def empty : Table ρ := ⟨[], List.nodup_nil⟩

/-- The row with primary key `k`. -/
def get (t : Table ρ) (k : κ) : Option ρ :=
  t.rows.find? fun r => key r = k

theorem get_eq_some {t : Table ρ} {k : κ} {r : ρ} :
    t.get k = some r ↔ r ∈ t.rows ∧ key r = k := by
  obtain ⟨rows, nodup⟩ := t
  simp only [get]
  induction rows with
  | nil => simp
  | cons x xs ih =>
      simp only [List.map_cons, List.nodup_cons, List.mem_map, not_exists, not_and] at nodup
      simp only [List.find?_cons, List.mem_cons]
      by_cases hx : key x = k
      · simp only [hx, decide_true, Option.some.injEq]
        constructor
        · rintro rfl
          exact ⟨.inl rfl, hx⟩
        · rintro ⟨rfl | hr, hk⟩
          · rfl
          · exact absurd (hk.trans hx.symm) (nodup.1 r hr)
      · simp only [hx, decide_false]
        rw [ih nodup.2]
        constructor
        · rintro ⟨hr, hk⟩
          exact ⟨.inr hr, hk⟩
        · rintro ⟨rfl | hr, hk⟩
          · exact absurd hk hx
          · exact ⟨hr, hk⟩

theorem get_eq_none {t : Table ρ} {k : κ} :
    t.get k = none ↔ ∀ r ∈ t.rows, key r ≠ k := by
  simp [get]

theorem get_of_mem {t : Table ρ} {r : ρ} (h : r ∈ t.rows) : t.get (key r) = some r :=
  get_eq_some.mpr ⟨h, rfl⟩

theorem mem_of_get {t : Table ρ} {k : κ} {r : ρ} (h : t.get k = some r) : r ∈ t.rows :=
  (get_eq_some.mp h).1

theorem key_of_get {t : Table ρ} {k : κ} {r : ρ} (h : t.get k = some r) : key r = k :=
  (get_eq_some.mp h).2

/-- Rows of one key are one row. -/
theorem eq_of_get {t : Table ρ} {k : κ} {r x : ρ} (h : t.get k = some r) (hx : x ∈ t.rows)
    (hk : key x = k) : x = r := by
  subst hk
  exact Option.some.inj ((get_of_mem hx).symm.trans h)

theorem eq_of_key {t : Table ρ} {r x : ρ} (hr : r ∈ t.rows) (hx : x ∈ t.rows)
    (hk : key r = key x) : r = x :=
  eq_of_get (get_of_mem hx) hr hk

@[simp] theorem get_empty (k : κ) : (empty : Table ρ).get k = none := rfl

/-- Insert a row.  A taken primary key leaves the table as it is; callers check
for it first, because the database raises there. -/
def add (t : Table ρ) (r : ρ) : Table ρ :=
  if h : t.get (key r) = none then
    ⟨t.rows ++ [r], by
      have hr := get_eq_none.mp h
      simpa [List.nodup_append, t.nodup] using hr⟩
  else t

theorem rows_add {t : Table ρ} {r : ρ} (h : t.get (key r) = none) :
    (t.add r).rows = t.rows ++ [r] := by
  simp [add, h]

theorem get_add {t : Table ρ} {r : ρ} (h : t.get (key r) = none) (k : κ) :
    (t.add r).get k = if key r = k then some r else t.get k := by
  simp only [get, rows_add h, List.find?_append, List.find?_singleton]
  by_cases hk : key r = k
  · subst hk
    rw [← get, h]
    simp
  · simp [hk]

/-- Replace the row that has the key of `r`, if there is one. -/
def set (t : Table ρ) (r : ρ) : Table ρ :=
  ⟨t.rows.map fun x => if key x = key r then r else x, by
    have hkeys : (t.rows.map fun x => if key x = key r then r else x).map key
        = t.rows.map key := by
      rw [List.map_map]
      refine List.map_congr_left fun x _ => ?_
      by_cases hx : key x = key r <;> simp [hx]
    rw [hkeys]
    exact t.nodup⟩

theorem mem_set {t : Table ρ} {r x : ρ} (h : x ∈ (t.set r).rows) :
    x = r ∨ x ∈ t.rows ∧ key x ≠ key r := by
  simp only [set, List.mem_map] at h
  obtain ⟨y, hy, rfl⟩ := h
  by_cases hk : key y = key r
  · simp [hk]
  · simp [hk, hy]

/-- A row put back. -/
theorem set_of_get {t : Table ρ} {r : ρ} (h : t.get (key r) = some r) : t.set r = t := by
  have hrows : (t.set r).rows = t.rows := by
    refine (List.map_congr_left fun x hx => ?_).trans (List.map_id' _)
    split
    · next hkey => exact (eq_of_key hx (mem_of_get h) hkey).symm
    · rfl
  obtain ⟨rows, nodup⟩ := t
  exact (Table.mk.injEq _ _ _ _).mpr hrows

theorem get_set {t : Table ρ} {r : ρ} (k : κ) :
    (t.set r).get k = if key r = k then (t.get k).map (fun _ => r) else t.get k := by
  by_cases hk : key r = k
  · rw [if_pos hk]
    cases h : t.get k with
    | none =>
        refine get_eq_none.mpr fun x hx => ?_
        rcases mem_set hx with rfl | ⟨hx, hne⟩
        · simp only [set, List.mem_map] at hx
          obtain ⟨y, hy, hyx⟩ := hx
          by_cases hyk : key y = key x
          · exact absurd (hyk.trans hk) (get_eq_none.mp h y hy)
          · rw [if_neg hyk] at hyx
            exact absurd (by rw [hyx]) hyk
        · exact fun hxk => hne (hxk.trans hk.symm)
    | some x =>
        refine get_eq_some.mpr ⟨?_, hk⟩
        obtain ⟨hx, hxk⟩ := get_eq_some.mp h
        exact List.mem_map.mpr ⟨x, hx, if_pos (hxk.trans hk.symm)⟩
  · rw [if_neg hk]
    cases h : t.get k with
    | none =>
        refine get_eq_none.mpr fun x hx => ?_
        rcases mem_set hx with rfl | ⟨hx, _⟩
        · exact hk
        · exact get_eq_none.mp h x hx
    | some x =>
        obtain ⟨hx, hxk⟩ := get_eq_some.mp h
        refine get_eq_some.mpr ⟨List.mem_map.mpr ⟨x, hx, if_neg ?_⟩, hxk⟩
        exact fun hxr => hk (hxr ▸ hxk)

/-- Delete the row with key `k`. -/
def erase (t : Table ρ) (k : κ) : Table ρ :=
  ⟨t.rows.filter fun x => key x ≠ k, t.nodup.sublist (List.filter_sublist.map key)⟩

theorem get_erase {t : Table ρ} (k k' : κ) :
    (t.erase k).get k' = if k = k' then none else t.get k' := by
  by_cases hk : k = k'
  · subst hk
    rw [if_pos rfl]
    exact get_eq_none.mpr fun x hx => by simpa [erase] using (List.mem_filter.mp hx).2
  · rw [if_neg hk]
    cases h : t.get k' with
    | none => exact get_eq_none.mpr fun x hx => get_eq_none.mp h x (List.mem_filter.mp hx).1
    | some x =>
        obtain ⟨hx, hxk⟩ := get_eq_some.mp h
        exact get_eq_some.mpr ⟨List.mem_filter.mpr ⟨hx, by simp [hxk, Ne.symm hk]⟩, hxk⟩

/-- Keep the rows that satisfy `p`. -/
def filter (t : Table ρ) (p : ρ → Bool) : Table ρ :=
  ⟨t.rows.filter p, t.nodup.sublist (List.filter_sublist.map key)⟩

omit [DecidableEq κ] in
/-- A predicate that at most one key satisfies counts at most one row. -/
theorem filter_length_le_one {t : Table ρ} {p : ρ → Bool}
    (h : ∀ a ∈ t.rows, ∀ b ∈ t.rows, p a = true → p b = true → key a = key b) :
    (t.rows.filter p).length ≤ 1 := by
  have hnd : ((t.rows.filter p).map key).Nodup :=
    t.nodup.sublist (List.filter_sublist.map key)
  have hone : ∀ k ∈ (t.rows.filter p).map key, ∀ k' ∈ (t.rows.filter p).map key, k = k' := by
    intro k hk k' hk'
    obtain ⟨a, ha, rfl⟩ := List.mem_map.mp hk
    obtain ⟨b, hb, rfl⟩ := List.mem_map.mp hk'
    obtain ⟨ha, hpa⟩ := List.mem_filter.mp ha
    obtain ⟨hb, hpb⟩ := List.mem_filter.mp hb
    exact h a ha b hb hpa hpb
  rw [← List.length_map key]
  exact hnd.length_le_one hone

end Table
