/-
# `Dass.Lib.Paging` — an ordered query, read page by page

Rows are read a page at a time, each page by a query of its own that orders the rows by a key,
the greatest first, and then skips and takes.  Rows of one key come in any order, and in another
one for every query (`Descending`).

However the rows are ordered, the sizes of the pages are the same.  What is on a page is the same
if no page ends between two rows of one key (`page_perm`), and the pages together are the rows,
for every choice of the orders, only then (`perm_pages_iff`).
-/
import Mathlib.Algebra.Order.Group.Nat
import Mathlib.Data.List.Nodup
import Mathlib.Data.List.Perm.Basic
import Mathlib.Order.Defs.LinearOrder

namespace Paging

variable {α τ : Type*} [LinearOrder τ] {key : α → τ} {rows : List α}

/-- What a query may return of the rows it orders by a key, the greatest first. -/
structure Descending (key : α → τ) (rows : List α) where
  list : List α
  perm : list.Perm rows
  sorted : list.Pairwise fun a b => key b ≤ key a

/-- Rows can be ordered. -/
def Descending.sort (key : α → τ) (rows : List α) : Descending key rows where
  list := rows.mergeSort fun a b => key b ≤ key a
  perm := List.mergeSort_perm _ _
  sorted := by
    refine (List.pairwise_mergeSort (fun a b c hab hbc => ?_) (fun a b => ?_) rows).imp
      of_decide_eq_true
    · exact decide_eq_true ((of_decide_eq_true hbc).trans (of_decide_eq_true hab))
    · simpa using le_total (key b) (key a)

/-- The `n`-th page, from one on. -/
def page (l : List α) (size n : Nat) : List α := (l.drop ((n - 1) * size)).take size

/-! ## Sizes -/

theorem length_page (l : List α) (size n : Nat) :
    (page l size n).length = min size (l.length - (n - 1) * size) := by
  rw [page, List.length_take, List.length_drop]

/-- A page that another one follows is full. -/
theorem length_page_full {l : List α} {size n : Nat} (hn : 1 ≤ n) (h : n * size ≤ l.length) :
    (page l size n).length = size := by
  have hprev : (n - 1) * size + size = n * size := by
    rw [← Nat.succ_mul, Nat.succ_eq_add_one, Nat.sub_add_cancel hn]
  rw [length_page]
  omega

theorem page_eq_nil {l : List α} {size n : Nat} (h : l.length ≤ (n - 1) * size) :
    page l size n = [] := by
  rw [page, List.drop_eq_nil_of_le h, List.take_nil]

/-- The pages of one list are its beginning. -/
theorem flatMap_page (l : List α) (size m : Nat) :
    ((List.range m).flatMap fun i => page l size (i + 1)) = l.take (m * size) := by
  induction m with
  | zero => rw [Nat.zero_mul]; rfl
  | succ m ih =>
      rw [List.range_succ, List.flatMap_append, ih, List.flatMap_singleton, Nat.succ_mul,
        List.take_add, page, Nat.add_sub_cancel]

/-- How much is on the pages, whatever list of that length each is a page of. -/
theorem length_flatMap_page (lists : Nat → List α) {total : Nat}
    (h : ∀ i, (lists i).length = total) (size m : Nat) :
    ((List.range m).flatMap fun i => page (lists i) size (i + 1)).length =
      min (m * size) total := by
  induction m with
  | zero => rw [Nat.zero_mul, Nat.zero_min]; rfl
  | succ m ih =>
      rw [List.range_succ, List.flatMap_append, List.length_append, ih, List.flatMap_singleton,
        length_page, h, Nat.add_sub_cancel, Nat.succ_mul]
      omega

/-! ## Where a row is -/

/-- How many rows come before those of a key. -/
def newer (key : α → τ) (rows : List α) (t : τ) : Nat := rows.countP fun a => t < key a

/-- How many rows have a key. -/
def tied (key : α → τ) (rows : List α) (t : τ) : Nat := rows.countP fun a => key a = t

theorem newer_add_tied (key : α → τ) (rows : List α) (t : τ) :
    newer key rows t + tied key rows t = rows.countP fun a => t ≤ key a := by
  induction rows with
  | nil => rfl
  | cons a rows ih =>
      rw [newer, tied] at ih ⊢
      simp only [List.countP_cons, decide_eq_true_eq, ← ih]
      rcases lt_trichotomy t (key a) with h | h | h
      · rw [if_pos h, if_neg h.ne', if_pos h.le]
        omega
      · rw [if_neg h.not_lt, if_pos h.symm, if_pos h.le]
        omega
      · rw [if_neg h.not_gt, if_neg h.ne, if_neg h.not_ge]
        omega

section Position

variable {n : Nat} {a : α} (d : Descending key rows)

theorem Descending.key_le {b : α} (ha : a ∈ d.list.take n) (hb : b ∈ d.list.drop n) :
    key b ≤ key a := by
  have hsorted := d.sorted
  rw [← List.take_append_drop n d.list] at hsorted
  exact (List.pairwise_append.mp hsorted).2.2 a ha b hb

theorem Descending.countP_eq (p : α → Bool) :
    rows.countP p = (d.list.take n).countP p + (d.list.drop n).countP p := by
  rw [← d.perm.countP_eq, ← List.countP_append, List.take_append_drop]

/-- Fewer than `n` rows come before one of the first `n`. -/
theorem Descending.newer_lt (ha : a ∈ d.list.take n) : newer key rows (key a) < n := by
  have hdrop : (d.list.drop n).countP (fun b => key a < key b) = 0 :=
    List.countP_eq_zero.mpr fun b hb h => (d.key_le ha hb).not_gt (of_decide_eq_true h)
  have htake : (d.list.take n).countP (fun b => key a < key b) < (d.list.take n).length := by
    refine List.countP_le_length.lt_of_ne fun heq => ?_
    exact lt_irrefl _ (of_decide_eq_true (List.countP_eq_length.mp heq a ha))
  rw [newer, d.countP_eq, hdrop]
  exact htake.trans_le (List.length_take_le n _)

/-- A row that is not of the first `n` has `n` and itself before it or with its key. -/
theorem Descending.lt_newer_add_tied (ha : a ∈ d.list.drop n) :
    n < newer key rows (key a) + tied key rows (key a) := by
  have hlen : n < d.list.length := by
    have hpos := List.length_pos_of_mem ha
    rw [List.length_drop] at hpos
    omega
  have htake : (d.list.take n).countP (fun b => key a ≤ key b) = n := by
    rw [List.countP_eq_length.mpr fun b hb => decide_eq_true (d.key_le hb ha),
      List.length_take_of_le hlen.le]
  have hdrop : 0 < (d.list.drop n).countP (fun b => key a ≤ key b) :=
    List.countP_pos_iff.mpr ⟨a, ha, decide_eq_true le_rfl⟩
  rw [newer_add_tied, d.countP_eq, htake]
  omega

/-! ### An order for a key -/

/-- The rows in an order that has those of a key as they are given. -/
def Descending.around (t : τ) (mid : List α) (h : mid.Perm (rows.filter fun a => key a = t)) :
    Descending key rows where
  list := (sort key (rows.filter fun a => t < key a)).list ++
    (mid ++ (sort key (rows.filter fun a => key a < t)).list)
  perm := by
    have hrest : ((rows.filter fun a => key a = t) ++ rows.filter fun a => key a < t).Perm
        (rows.filter fun a => !decide (t < key a)) := by
      have hsplit := List.filter_append_perm (fun a => key a = t)
        (rows.filter fun a => !decide (t < key a))
      rw [List.filter_filter, List.filter_filter] at hsplit
      refine .trans (.of_eq ?_) hsplit
      refine congrArg₂ _ (List.filter_congr fun a _ => ?_) (List.filter_congr fun a _ => ?_)
      · rcases lt_trichotomy (key a) t with hlt | heq | hgt
        · simp [hlt.ne]
        · simp [heq]
        · simp [hgt.ne']
      · rcases lt_trichotomy (key a) t with hlt | heq | hgt
        · simp [hlt, hlt.ne, hlt.le]
        · simp [heq]
        · simp [hgt, hgt.not_gt]
    have hmid := (h.append (sort key (rows.filter fun a => key a < t)).perm).trans hrest
    exact ((sort key _).perm.append hmid).trans (List.filter_append_perm _ rows)
  sorted := by
    have hmid : ∀ a ∈ mid, key a = t := fun a ha =>
      of_decide_eq_true (List.mem_filter.mp (h.mem_iff.mp ha)).2
    have hnewer : ∀ a ∈ (sort key (rows.filter fun a => t < key a)).list, t < key a := fun a ha =>
      of_decide_eq_true (List.mem_filter.mp ((sort key _).perm.mem_iff.mp ha)).2
    have holder : ∀ a ∈ (sort key (rows.filter fun a => key a < t)).list, key a < t := fun a ha =>
      of_decide_eq_true (List.mem_filter.mp ((sort key _).perm.mem_iff.mp ha)).2
    refine List.pairwise_append.mpr ⟨(sort key _).sorted, List.pairwise_append.mpr
      ⟨?_, (sort key _).sorted, ?_⟩, ?_⟩
    · refine List.pairwise_of_forall_mem_list fun a ha b hb => ?_
      rw [hmid a ha, hmid b hb]
    · intro a ha b hb
      exact (holder b hb).le.trans (hmid a ha).ge
    · intro a ha b hb
      rcases List.mem_append.mp hb with hb | hb
      · exact (hmid b hb).le.trans (hnewer a ha).le
      · exact (holder b hb).le.trans (hnewer a ha).le

theorem Descending.length_sort_newer (key : α → τ) (rows : List α) (t : τ) :
    (sort key (rows.filter fun a => t < key a)).list.length = newer key rows t := by
  rw [(sort key _).perm.length_eq, newer, List.countP_eq_length_filter]

section Somewhere

variable [DecidableEq α]

/-- A row may be one of the first `n` if fewer come before its key. -/
theorem exists_mem_take_iff (ha : a ∈ rows) :
    (∃ d : Descending key rows, a ∈ d.list.take n) ↔ newer key rows (key a) < n := by
  refine ⟨fun ⟨d, hd⟩ => d.newer_lt hd, fun h => ?_⟩
  have hmem : a ∈ rows.filter fun b => key b = key a := List.mem_filter.mpr ⟨ha, by simp⟩
  refine ⟨.around (key a) (a :: (rows.filter fun b => key b = key a).erase a)
    (List.perm_cons_erase hmem).symm, ?_⟩
  obtain ⟨k, rfl⟩ := Nat.exists_eq_add_of_lt h
  show a ∈ List.take _
    ((Descending.sort key (rows.filter fun b => key a < key b)).list ++ (a :: _ ++ _))
  rw [List.take_append, Descending.length_sort_newer, show newer key rows (key a) + k + 1 -
    newer key rows (key a) = k + 1 by omega, List.cons_append, List.take_succ_cons]
  exact List.mem_append_right _ List.mem_cons_self

/-- A row is one of the first `n`, in whatever order, if those before its key and of it are. -/
theorem forall_mem_take_iff (hnodup : rows.Nodup) (ha : a ∈ rows) :
    (∀ d : Descending key rows, a ∈ d.list.take n) ↔
      newer key rows (key a) + tied key rows (key a) ≤ n := by
  have hmem : a ∈ rows.filter fun b => key b = key a := List.mem_filter.mpr ⟨ha, by simp⟩
  constructor
  · intro hall
    by_contra hlt
    -- the row comes last of its key
    have hperm : ((rows.filter fun b => key b = key a).erase a ++ [a]).Perm
        (rows.filter fun b => key b = key a) :=
      List.perm_append_comm.trans (List.perm_cons_erase hmem).symm
    have htake := hall (.around (key a) _ hperm)
    have hlength : ((Descending.sort key (rows.filter fun b => key a < key b)).list ++
        (rows.filter fun b => key b = key a).erase a).length =
          newer key rows (key a) + (tied key rows (key a) - 1) := by
      rw [List.length_append, Descending.length_sort_newer, List.length_erase_of_mem hmem, tied,
        List.countP_eq_length_filter]
    change a ∈ List.take n ((Descending.sort key (rows.filter fun b => key a < key b)).list ++
      (((rows.filter fun b => key b = key a).erase a ++ [a]) ++ _)) at htake
    rw [List.append_assoc, ← List.append_assoc, List.take_append_of_le_length (by omega)] at htake
    rcases List.mem_append.mp (List.mem_of_mem_take htake) with hnewer | hother
    · have hkey := (List.mem_filter.mp ((Descending.sort key _).perm.mem_iff.mp hnewer)).2
      exact lt_irrefl _ (of_decide_eq_true hkey)
    · exact (hnodup.filter _).not_mem_erase hother
  · intro hle d
    have hlist : a ∈ d.list.take n ++ d.list.drop n := by
      rw [List.take_append_drop]
      exact d.perm.mem_iff.mpr ha
    exact (List.mem_append.mp hlist).resolve_right fun hdrop =>
      (d.lt_newer_add_tied hdrop).not_ge hle

end Somewhere

end Position

/-! ## A page that ends between two keys -/

/-- No two rows of one key are on both sides of the `n`-th place. -/
def Parts (key : α → τ) (rows : List α) (n : Nat) : Prop :=
  ∀ a ∈ rows, n ≤ newer key rows (key a) ∨ newer key rows (key a) + tied key rows (key a) ≤ n

theorem Descending.take_eq_filter (d : Descending key rows) {n : Nat} (h : Parts key rows n) :
    d.list.take n =
      d.list.filter fun a => newer key rows (key a) + tied key rows (key a) ≤ n := by
  have hsplit := congrArg (List.filter fun a =>
    decide (newer key rows (key a) + tied key rows (key a) ≤ n)) (List.take_append_drop n d.list)
  rw [← hsplit, List.filter_append]
  rw [List.filter_eq_self.mpr, List.filter_eq_nil_iff.mpr, List.append_nil]
  · intro a ha hle
    exact (d.lt_newer_add_tied ha).not_ge (of_decide_eq_true hle)
  · intro a ha
    refine decide_eq_true ((h a (d.perm.subset (List.mem_of_mem_take ha))).resolve_left ?_)
    exact (d.newer_lt ha).not_ge

theorem take_perm (d e : Descending key rows) {n : Nat} (h : Parts key rows n) :
    (d.list.take n).Perm (e.list.take n) := by
  rw [d.take_eq_filter h, e.take_eq_filter h]
  exact (d.perm.trans e.perm.symm).filter _

/-- A page is the same for two orders, but for its own order. -/
theorem page_perm (d e : Descending key rows) {size n : Nat}
    (hfrom : Parts key rows ((n - 1) * size)) (hto : Parts key rows ((n - 1) * size + size)) :
    (page d.list size n).Perm (page e.list size n) := by
  have h := take_perm d e hto
  rw [List.take_add, List.take_add] at h
  exact (List.perm_append_left_iff _).mp
    (h.trans ((take_perm d e hfrom).symm.append_right _))

/-! ## A page that ends within a key -/

theorem mem_page {l : List α} {size n i : Nat} {a : α} (h : l[i]? = some a)
    (hfrom : (n - 1) * size ≤ i) (hto : i < (n - 1) * size + size) : a ∈ page l size n := by
  refine List.mem_of_getElem? (i := i - (n - 1) * size) ?_
  rw [page, List.getElem?_take_of_lt (by omega), List.getElem?_drop, Nat.add_sub_cancel' hfrom, h]

/-- The pages are those of the list. -/
theorem exists_mem_page {l : List α} {size : Nat} (hsize : 0 < size) {a : α} :
    (∃ n, 1 ≤ n ∧ a ∈ page l size n) ↔ a ∈ l := by
  constructor
  · rintro ⟨n, -, ha⟩
    exact List.mem_of_mem_drop (List.mem_of_mem_take ha)
  · intro ha
    obtain ⟨i, hi, rfl⟩ := List.getElem_of_mem ha
    refine ⟨i / size + 1, Nat.succ_pos _, mem_page (List.getElem?_eq_getElem hi) ?_ ?_⟩
    · exact Nat.div_mul_le_self i size
    · exact Nat.lt_div_mul_add hsize

/-- Of two neighbours with one key, the order may be the other one. -/
def Descending.swap {before after : List α} {a b : α} (d : Descending key rows)
    (h : d.list = before ++ a :: b :: after) (hkey : key a = key b) : Descending key rows where
  list := before ++ b :: a :: after
  perm := by
    refine List.Perm.trans ?_ d.perm
    rw [h]
    exact (List.Perm.swap a b after).append_left before
  sorted := by
    have hsorted := d.sorted
    rw [h] at hsorted
    obtain ⟨hbefore, hrest, hcross⟩ := List.pairwise_append.mp hsorted
    obtain ⟨ha, hrest⟩ := List.pairwise_cons.mp hrest
    obtain ⟨hb, hafter⟩ := List.pairwise_cons.mp hrest
    refine List.pairwise_append.mpr ⟨hbefore, ?_, fun x hx y hy => hcross x hx y ?_⟩
    · refine .cons (List.forall_mem_cons.mpr ⟨hkey.le, hb⟩) (.cons ?_ hafter)
      exact fun y hy => ha y (List.mem_cons_of_mem _ hy)
    · simp only [List.mem_cons] at hy ⊢
      tauto

/-- Around a place within a key, two neighbours have one key. -/
theorem Descending.exists_neighbours (d : Descending key rows) {n : Nat}
    (h : ¬ Parts key rows n) :
    ∃ before a b after, d.list = before ++ a :: b :: after ∧ before.length + 1 = n ∧
      key a = key b := by
  rw [Parts] at h
  push Not at h
  obtain ⟨c, hc, hnewer, htied⟩ := h
  obtain ⟨m, rfl⟩ := Nat.exists_eq_add_of_lt (Nat.zero_lt_of_lt hnewer)
  rw [Nat.zero_add] at hnewer htied ⊢
  have hlen : m + 1 < d.list.length := by
    rw [newer_add_tied] at htied
    exact htied.trans_le (d.perm.length_eq ▸ List.countP_le_length)
  have hdrop : d.list.drop m = d.list[m] :: d.list[m + 1] :: d.list.drop (m + 2) := by
    rw [List.drop_eq_getElem_cons (Nat.lt_of_succ_lt hlen), List.drop_eq_getElem_cons hlen]
  have hdrop' : d.list.drop (m + 1) = d.list[m + 1] :: d.list.drop (m + 2) :=
    List.drop_eq_getElem_cons hlen
  have htake : d.list.take (m + 1) = d.list.take m ++ [d.list[m]] := by
    rw [List.take_add_one, List.getElem?_eq_getElem (Nat.lt_of_succ_lt hlen)]
    rfl
  refine ⟨d.list.take m, d.list[m], d.list[m + 1], d.list.drop (m + 2), ?_, ?_, ?_⟩
  · rw [← hdrop, List.take_append_drop]
  · rw [List.length_take_of_le (by omega)]
  · refine le_antisymm (le_trans (b := key c) ?_ ?_) (d.key_le (n := m + 1) ?_ ?_)
    · -- otherwise the first `m + 1` come before the key
      by_contra hlt
      have hall : (d.list.take (m + 1)).countP (fun b => key c < key b) = m + 1 := by
        rw [List.countP_eq_length.mpr fun b hb => ?_, List.length_take_of_le hlen.le]
        refine decide_eq_true ((not_le.mp hlt).trans_le ?_)
        rw [htake, List.mem_append, List.mem_singleton] at hb
        rcases hb with hb | rfl
        · exact d.key_le hb (hdrop ▸ List.mem_cons_self)
        · exact le_rfl
      rw [newer, d.countP_eq (n := m + 1), hall] at hnewer
      omega
    · -- otherwise the key ends with them
      by_contra hlt
      have hnone : (d.list.drop (m + 1)).countP (fun b => key c ≤ key b) = 0 := by
        refine List.countP_eq_zero.mpr fun b hb hle => hlt ((of_decide_eq_true hle).trans ?_)
        rw [hdrop', List.mem_cons] at hb
        rcases hb with rfl | hb
        · exact le_rfl
        · refine d.key_le (n := m + 2) ?_ hb
          rw [List.take_add_one, List.getElem?_eq_getElem hlen]
          exact List.mem_append_right _ (List.mem_singleton_self _)
      have hle := List.length_take_le (m + 1) d.list
      have hcount := (d.list.take (m + 1)).countP_le_length (p := fun b => key c ≤ key b)
      rw [newer_add_tied, d.countP_eq (n := m + 1), hnone] at htied
      omega
    · rw [htake]
      exact List.mem_append_right _ (List.mem_singleton_self _)
    · rw [hdrop']
      exact List.mem_cons_self

/-- **When pages are the rows.**  The pages of some rows, each of an order of its own, are together
the rows, whatever the orders, if and only if no page ends between two rows of one key. -/
theorem perm_pages_iff (hnodup : rows.Nodup) {size m : Nat} (hsize : 0 < size)
    (hm : rows.length ≤ m * size) :
    (∀ d : Nat → Descending key rows,
        ((List.range m).flatMap fun i => page (d (i + 1)).list size (i + 1)).Perm rows) ↔
      ∀ k, Parts key rows (k * size) := by
  have base := Descending.sort key rows
  constructor
  · intro hall k
    by_contra hsplit
    obtain ⟨before, a, b, after, hlist, hlen, hkey⟩ := base.exists_neighbours hsplit
    have hlength : before.length + (after.length + 2) = base.list.length := by
      rw [hlist, List.length_append, List.length_cons, List.length_cons]
    have hk : 0 < k := by
      refine Nat.pos_of_ne_zero fun hzero => ?_
      rw [hzero, Nat.zero_mul] at hlen
      exact Nat.succ_ne_zero _ hlen
    have hkm : k < m := by
      refine Nat.lt_of_mul_lt_mul_right (a := size) ?_
      rw [← hlen]
      rw [base.perm.length_eq] at hlength
      omega
    have hprev : (k - 1) * size + size = k * size := by
      rw [← Nat.succ_mul, Nat.succ_eq_add_one, Nat.sub_add_cancel hk]
    -- the page that begins at the place is of the other order
    have hnodup' := (hall fun n => if n = k then base else base.swap hlist hkey).nodup_iff.mpr
      hnodup
    have hpair := List.pairwise_iff_getElem.mp (List.nodup_flatMap.mp hnodup').2 (k - 1) k
      (by rw [List.length_range]; omega) (by rw [List.length_range]; exact hkm) (by omega)
    rw [List.getElem_range, List.getElem_range] at hpair
    have hdisjoint : List.Disjoint
        (page (if k - 1 + 1 = k then base else base.swap hlist hkey).list size (k - 1 + 1))
        (page (if k + 1 = k then base else base.swap hlist hkey).list size (k + 1)) := hpair
    rw [Nat.sub_add_cancel hk, if_pos rfl, if_neg (by omega)] at hdisjoint
    refine hdisjoint (a := a) (mem_page (i := before.length) ?_ (by omega) (by omega))
      (mem_page (i := before.length + 1) ?_ ?_ ?_)
    · rw [hlist, List.getElem?_append_right (Nat.le_refl _), Nat.sub_self]
      rfl
    · show (before ++ b :: a :: after)[before.length + 1]? = some a
      rw [List.getElem?_append_right (Nat.le_add_right _ 1), Nat.add_sub_cancel_left]
      rfl
    · rw [Nat.add_sub_cancel, hlen]
    · rw [Nat.add_sub_cancel, hlen]
      omega
  · intro hparts d
    have hpage : ∀ i ∈ List.range m,
        (page (d (i + 1)).list size (i + 1)).Perm (page base.list size (i + 1)) := by
      intro i _
      refine page_perm _ _ (hparts _) ?_
      rw [Nat.add_sub_cancel, ← Nat.succ_mul]
      exact hparts _
    refine (List.Perm.flatMap_left _ hpage).trans ?_
    rw [flatMap_page, List.take_of_length_le (base.perm.length_eq ▸ hm)]
    exact base.perm

/-- No page ends between two rows of one key: the first and the last row of the key are on one
page. -/
theorem parts_iff_div {size : Nat} (hsize : 0 < size) :
    (∀ k, Parts key rows (k * size)) ↔
      ∀ a ∈ rows, newer key rows (key a) / size =
        (newer key rows (key a) + tied key rows (key a) - 1) / size := by
  have htied : ∀ a ∈ rows, 0 < tied key rows (key a) := by
    intro a ha
    exact List.countP_pos_iff.mpr ⟨a, ha, decide_eq_true rfl⟩
  constructor
  · intro h a ha
    have hpos := htied a ha
    refine le_antisymm (Nat.div_le_div_right (by omega)) (not_lt.mp fun hlt => ?_)
    -- the page on which the key ends begins within it
    have hfrom := (Nat.div_lt_iff_lt_mul hsize).mp hlt
    have hto := Nat.div_mul_le_self (newer key rows (key a) + tied key rows (key a) - 1) size
    rcases h ((newer key rows (key a) + tied key rows (key a) - 1) / size) a ha with hle | hle
    · omega
    · omega
  · intro h k a ha
    have hpos := htied a ha
    by_contra hsplit
    push Not at hsplit
    have hfrom := (Nat.div_lt_iff_lt_mul hsize).mpr hsplit.1
    have hto : k ≤ (newer key rows (key a) + tied key rows (key a) - 1) / size :=
      (Nat.le_div_iff_mul_le hsize).mpr (by omega)
    rw [h a ha] at hfrom
    omega

end Paging
