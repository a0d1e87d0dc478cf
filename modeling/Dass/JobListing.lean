/-
# `Dass.JobListing` — the jobs, filtered and page by page

`JobRepository.list_paginated` and the endpoint `list_jobs`.  A page is a query of its own, and
`ORDER BY created_at DESC` says nothing of jobs created at one instant: what it returns is any
`Descending` list of the jobs that match, another one for every page.  The sizes of the pages
are right for all that.  What is on them is if no page ends between two jobs of one instant
(`pages_partition_iff`).

The filter by name puts the text sought into a `LIKE` pattern as it is, and the characters `%`,
`_` and `\` mean something there.  Without them the search is for the names that contain the
text, and with one of them it is not (`substring_search_iff`).
-/
import Dass.Lib.Like
import Dass.Lib.Paging
import Dass.Models
import Mathlib.Data.Nat.Basic

namespace Dass

open Paging

/-! ## `list_paginated` -/

theorem toLower_toLower (c : Char) : c.toLower.toLower = c.toLower := by
  by_cases h : c.val ≥ 'A'.val ∧ c.val ≤ 'Z'.val
  · have hlow : c.toLower.val = c.val + ('a'.val - 'A'.val) := congrArg Char.val (dif_pos h)
    have hnot : ¬ (c.toLower.val ≥ 'A'.val ∧ c.toLower.val ≤ 'Z'.val) := by
      rw [hlow]
      rintro ⟨-, hle⟩
      obtain ⟨hA, hZ⟩ := h
      rw [ge_iff_le, UInt32.le_iff_toNat_le] at hA
      rw [UInt32.le_iff_toNat_le] at hZ hle
      rw [UInt32.toNat_add] at hle
      simp at hA hZ hle
      omega
    exact dif_neg hnot
  · have heq : c.toLower = c := dif_neg h
    rw [heq, heq]

/-- Lower-casing, which the database and Python do alike; lower-case text is left alone. -/
structure Lowering where
  lower : String → String
  keeps : Char → Prop
  keeps_of_lower : ∀ text, ∀ c ∈ (lower text).toList, keeps c
  lower_of_keeps : ∀ text, (∀ c ∈ text.toList, keeps c) → lower text = text
  keeps_percent : keeps '%'

/-- The filters of a listing. -/
structure JobFilters where
  enabled : Option Bool
  action_type : Option ActionType
  concurrency_policy : Option ConcurrencyPolicy
  q : Option String

/-- The `conditions` of a listing, on a row. -/
def JobFilters.conditions (filters : JobFilters) (lowering : Lowering) (job : Job) : Bool :=
  filters.enabled.all (job.enabled = ·) && filters.action_type.all (job.action_type = ·) &&
    filters.concurrency_policy.all (job.concurrency_policy = ·) &&
    filters.q.all fun q => q = "" ||
      Like.like ("%" ++ lowering.lower q ++ "%").toList (lowering.lower job.name).toList

/-- `select(Job).where(*conditions)`. -/
def JobRepository.matching (jobs : Table Job) (lowering : Lowering) (filters : JobFilters) :
    List Job :=
  jobs.rows.filter (filters.conditions lowering)

/-- What a query may return that orders the jobs that match by `created_at`. -/
abbrev Ordered (jobs : Table Job) (lowering : Lowering) (filters : JobFilters) :=
  Descending Job.created_at (JobRepository.matching jobs lowering filters)

variable {jobs : Table Job} {lowering : Lowering} {filters : JobFilters}

/-- `JobRepository.list_paginated`, with the order of its query. -/
def JobRepository.list_paginated (ordered : Ordered jobs lowering filters)
    (page page_size : Nat) : List Job × Nat :=
  ((ordered.list.drop ((page - 1) * page_size)).take page_size,
    (matching jobs lowering filters).length)

structure JobListResponse where
  items : List Job
  page : Nat
  page_size : Nat
  total : Nat
  total_pages : Nat
deriving DecidableEq

/-- The endpoint `list_jobs`. -/
def list_jobs (ordered : Ordered jobs lowering filters) (page page_size : Nat) :
    JobListResponse :=
  let listed := JobRepository.list_paginated ordered page page_size
  { items := listed.1
    page := page
    page_size := page_size
    total := listed.2
    total_pages := max ((listed.2 + page_size - 1) / page_size) 1 }

/-! ## Pages -/

/-- The pages, each with an order of its own, are the jobs that match. -/
structure PagesPartition (orders : Nat → Ordered jobs lowering filters) (page_size : Nat) :
    Prop where
  each_once : ((List.range (list_jobs (orders 1) 1 page_size).total_pages).flatMap fun i =>
      (list_jobs (orders (i + 1)) (i + 1) page_size).items).Perm
    (JobRepository.matching jobs lowering filters)
  sizes : ((List.range (list_jobs (orders 1) 1 page_size).total_pages).flatMap fun i =>
      (list_jobs (orders (i + 1)) (i + 1) page_size).items).length =
    (list_jobs (orders 1) 1 page_size).total
  full : ∀ page, 1 ≤ page → page < (list_jobs (orders page) page page_size).total_pages →
    (list_jobs (orders page) page page_size).items.length = page_size
  empty : ∀ page, (list_jobs (orders page) page page_size).total_pages < page →
    (list_jobs (orders page) page page_size).items = []

section Pages

variable {page_size : Nat}

theorem length_ordered (ordered : Ordered jobs lowering filters) :
    ordered.list.length = (JobRepository.matching jobs lowering filters).length :=
  ordered.perm.length_eq

/-- There are pages enough. -/
theorem total_le_pages (h : 1 ≤ page_size) (total : Nat) :
    total ≤ max ((total + page_size - 1) / page_size) 1 * page_size := by
  have hdiv := Nat.lt_mul_div_succ (total + page_size - 1) h
  rw [Nat.mul_comm, Nat.succ_mul] at hdiv
  have hmax := Nat.mul_le_mul_right page_size
    (Nat.le_max_left ((total + page_size - 1) / page_size) 1)
  omega

/-- A page before the last ends within the rows. -/
theorem mul_le_total {total page : Nat} (hpage : 1 ≤ page)
    (h : page < max ((total + page_size - 1) / page_size) 1) : page * page_size ≤ total := by
  have hlt : page + 1 ≤ (total + page_size - 1) / page_size := by omega
  have hmul := (Nat.mul_le_mul_right page_size hlt).trans (Nat.div_mul_le_self _ _)
  have hsucc : (page + 1) * page_size = page * page_size + page_size := Nat.succ_mul _ _
  omega

/-- The pages together, for every choice of the orders. -/
theorem each_once_iff (h : 1 ≤ page_size) :
    (∀ orders : Nat → Ordered jobs lowering filters,
      ((List.range (list_jobs (orders 1) 1 page_size).total_pages).flatMap fun i =>
        (list_jobs (orders (i + 1)) (i + 1) page_size).items).Perm
          (JobRepository.matching jobs lowering filters)) ↔
      ∀ k, Parts Job.created_at (JobRepository.matching jobs lowering filters) (k * page_size) :=
  perm_pages_iff (jobs.nodup.of_map.filter _) h (total_le_pages h _)

theorem pages_sizes (h : 1 ≤ page_size) (orders : Nat → Ordered jobs lowering filters) :
    ((List.range (list_jobs (orders 1) 1 page_size).total_pages).flatMap fun i =>
      (list_jobs (orders (i + 1)) (i + 1) page_size).items).length =
        (list_jobs (orders 1) 1 page_size).total :=
  (length_flatMap_page (fun i => (orders (i + 1)).list) (fun i => length_ordered (orders (i + 1)))
    page_size _).trans (Nat.min_eq_right (total_le_pages h _))

theorem page_full (ordered : Ordered jobs lowering filters) {page : Nat} (hpage : 1 ≤ page)
    (hlast : page < (list_jobs ordered page page_size).total_pages) :
    (list_jobs ordered page page_size).items.length = page_size := by
  refine length_page_full hpage ?_
  rw [length_ordered]
  exact mul_le_total hpage hlast

theorem page_empty (h : 1 ≤ page_size) (ordered : Ordered jobs lowering filters) {page : Nat}
    (hlast : (list_jobs ordered page page_size).total_pages < page) :
    (list_jobs ordered page page_size).items = [] := by
  refine page_eq_nil ?_
  rw [length_ordered]
  exact (total_le_pages h _).trans (Nat.mul_le_mul_right _ (Nat.le_sub_one_of_lt hlast))

end Pages

/-- **When the pages are the jobs that match.**  For every table, all filters and every page size,
the pages hold every job that matches once, whatever the orders of their queries, their sizes
sum to the total, all but the last are full and the ones beyond are empty, if and only if the
jobs that match and were created at one instant are on one page: with so many newer ones before
them, the first and the last of them are. -/
theorem pages_partition_iff (jobs : Table Job) (lowering : Lowering) (filters : JobFilters)
    {page_size : Nat} (h : 1 ≤ page_size) :
    (∀ orders : Nat → Ordered jobs lowering filters, PagesPartition orders page_size) ↔
      ∀ job ∈ JobRepository.matching jobs lowering filters,
        newer Job.created_at (JobRepository.matching jobs lowering filters) job.created_at /
            page_size =
          (newer Job.created_at (JobRepository.matching jobs lowering filters) job.created_at +
            tied Job.created_at (JobRepository.matching jobs lowering filters) job.created_at -
              1) / page_size := by
  rw [← parts_iff_div h, ← each_once_iff h]
  constructor
  · intro hpages orders
    exact (hpages orders).each_once
  · intro hpages orders
    exact ⟨hpages orders, pages_sizes h orders, fun page hpage => page_full (orders page) hpage,
      fun page => page_empty h (orders page)⟩

/-- Lower-casing, where there are no letters but those of ASCII. -/
def ascii : Lowering where
  lower text := .ofList (text.toList.map Char.toLower)
  keeps c := c.toLower = c
  keeps_of_lower := by
    intro text c hc
    rw [String.toList_ofList, List.mem_map] at hc
    obtain ⟨d, -, rfl⟩ := hc
    exact toLower_toLower d
  lower_of_keeps := by
    intro text h
    rw [List.map_congr_left h, List.map_id', String.ofList_toList]
  keeps_percent := rfl

def no_filters : JobFilters := ⟨none, none, none, none⟩

def job_named (id : JobId) (name : String) : Job where
  id := id
  name := name
  job_type := .scheduled
  cron_expression := some "* * * * *"
  action_type := .shell
  action_config := .obj .nil
  runtime_spec := none
  enabled := true
  concurrency_policy := .allow
  max_retries := 0
  next_fire_at := none
  created_at := 0
  updated_at := 0

/-- Two jobs, created at one instant. -/
def example_twins : Table Job := ⟨[job_named 1 "first", job_named 2 "second"], by decide⟩

/-- On one page they are both listed. -/
theorem example_twins_listed :
    PagesPartition (fun _ => (.sort _ _ : Ordered example_twins ascii no_filters)) 2 :=
  (pages_partition_iff example_twins ascii no_filters (by decide)).mpr (by decide) _

/-- On a page each, one of them may be listed twice. -/
theorem twins_on_two_pages :
    ¬ ∀ (jobs : Table Job) (lowering : Lowering) (filters : JobFilters) (page_size : Nat),
      1 ≤ page_size → ∀ orders : Nat → Ordered jobs lowering filters,
        PagesPartition orders page_size := by
  intro hall
  have hparts := (each_once_iff (Nat.le_refl 1)).mp fun orders =>
    (hall example_twins ascii no_filters 1 (Nat.le_refl 1) orders).each_once
  exact absurd (hparts 1 (job_named 1 "first") (by decide)) (by decide)

/-! ## Names -/

/-- The pages list the jobs whose name contains a text, the case of letters apart. -/
def SubstringSearch (lowering : Lowering) (q : String) : Prop :=
  ∀ (jobs : Table Job) (ordered : Ordered jobs lowering ⟨none, none, none, some q⟩)
    (page_size : Nat), 1 ≤ page_size → ∀ job : Job,
      (∃ page, 1 ≤ page ∧ job ∈ (list_jobs ordered page page_size).items) ↔
        job ∈ jobs.rows ∧ (lowering.lower q).toList <:+: (lowering.lower job.name).toList

/-- The pages of one order list the jobs that match. -/
theorem listed_iff {job : Job} (ordered : Ordered jobs lowering filters) {page_size : Nat}
    (h : 1 ≤ page_size) :
    (∃ page, 1 ≤ page ∧ job ∈ (list_jobs ordered page page_size).items) ↔
      job ∈ jobs.rows ∧ filters.conditions lowering job = true :=
  (exists_mem_page h).trans (ordered.perm.mem_iff.trans List.mem_filter)

theorem conditions_name {q : String} {job : Job} :
    (JobFilters.mk none none none (some q)).conditions lowering job = true ↔
      q = "" ∨ Like.like (Like.wrap (lowering.lower q).toList)
        (lowering.lower job.name).toList = true := by
  have hpattern : ("%" ++ lowering.lower q ++ "%").toList =
      Like.wrap (lowering.lower q).toList := by
    rw [String.toList_append, String.toList_append]
    rfl
  simp only [JobFilters.conditions, Option.all_none, Option.all_some, Bool.true_and,
    Bool.or_eq_true, decide_eq_true_eq, hpattern]

/-- A name that the pattern of a text with special characters matches. -/
theorem lower_shortest (lowering : Lowering) (q : String) :
    lowering.lower (.ofList (Like.shortest (lowering.lower q).toList)) =
      .ofList (Like.shortest (lowering.lower q).toList) := by
  refine lowering.lower_of_keeps _ fun c hc => ?_
  rw [String.toList_ofList] at hc
  rcases Like.mem_shortest hc with hc | rfl
  · exact lowering.keeps_of_lower q c hc
  · exact lowering.keeps_percent

/-- **When the search by name is for a part of it.**  For every text sought: whatever the jobs, the
listing has those whose name contains it, both in lower case, and no others, if and only if the
text in lower case has no `%`, no `_` and no backslash. -/
theorem substring_search_iff (lowering : Lowering) (q : String) :
    SubstringSearch lowering q ↔ ∀ c ∈ (lowering.lower q).toList, Like.special c = false := by
  constructor
  · intro hsearch
    by_contra hspecial
    push Not at hspecial
    obtain ⟨c, hc, hne⟩ := hspecial
    let job := job_named 0 (.ofList (Like.shortest (lowering.lower q).toList))
    have hname : (lowering.lower job.name).toList = Like.shortest (lowering.lower q).toList :=
      (congrArg String.toList (lower_shortest lowering q)).trans String.toList_ofList
    have hlisted := hsearch ⟨[job], List.nodup_singleton _⟩ (.sort _ _) 1 (Nat.le_refl 1) job
    rw [listed_iff _ (Nat.le_refl 1), conditions_name, hname] at hlisted
    refine Like.not_infix_shortest ⟨c, hc, eq_true_of_ne_false hne⟩ (hlisted.mp ?_).2
    exact ⟨List.mem_singleton_self job, .inr (Like.like_wrap_shortest _)⟩
  · intro hplain jobs ordered page_size hsize job
    rw [listed_iff ordered hsize, conditions_name, Like.like_wrap hplain]
    refine and_congr_right fun _ => or_iff_right_of_imp fun hempty => ?_
    -- the empty text is not sought, and every name contains it
    have hlower : lowering.lower q = q := by
      refine lowering.lower_of_keeps q fun c hc => ?_
      rw [hempty] at hc
      exact absurd hc List.not_mem_nil
    rw [hlower, hempty]
    exact List.nil_infix

/-- The name `axb` is found for `a_b`. -/
theorem underscore_finds :
    ¬ ∀ (lowering : Lowering) (q : String), 1 ≤ q.length → q.length ≤ 255 →
      SubstringSearch lowering q := by
  intro hall
  have hlisted := hall ascii "a_b" (by decide +kernel) (by decide +kernel)
    ⟨[job_named 1 "axb"], List.nodup_singleton _⟩ (.sort _ _) 1 (Nat.le_refl 1)
    (job_named 1 "axb")
  rw [listed_iff _ (Nat.le_refl 1), conditions_name] at hlisted
  have hfound := (hlisted.mp ⟨List.mem_singleton_self _, .inr (by decide +kernel)⟩).2
  exact absurd hfound (by decide +kernel)

end Dass
