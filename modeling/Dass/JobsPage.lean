/-
# `Dass.JobsPage` — the page that lists the jobs

`frontend/src/app/jobs/_hooks/use-jobs-list-controls.ts` and the pages around it: the controls,
the buttons below the list, and the answers that are kept, each under the controls it was asked
for with.  The table changes while the page is open, and every answer, the count of an answer with
its rows, is of its own moment.

    control    a filter, the page size or the search
    next, previous, jump
    fetched    an answer comes in, of controls that have been set at some time
    forget     an answer is dropped

Whatever is done, what is shown is what the server lists for the controls as they are, and the
label says where in the order of the server it is (`jobs_page_shows`).
-/
import Dass.Lib.Ecma
import Dass.Lib.Run
import Dass.ListRequest
import Mathlib.Logic.Function.Basic

namespace Dass

open Lts

/-! ## The controls -/

inductive EnabledFilter where
  | all | enabled | disabled
deriving DecidableEq

inductive ActionTypeFilter where
  | all
  | only (action_type : ActionType)
deriving DecidableEq

def DEFAULT_JOB_LIST_PAGE_SIZE : Nat := 10

/-- The options of the page size. -/
def page_sizes : List Nat := [5, 10, 20, 50]

/-- `useJobsListControls`. -/
structure JobsListControls where
  page : Nat
  pageSize : Nat
  enabledFilter : EnabledFilter
  actionTypeFilter : ActionTypeFilter
  queryInput : String
  query : String
deriving DecidableEq

namespace JobsListControls

def initial : JobsListControls where
  page := 1
  pageSize := DEFAULT_JOB_LIST_PAGE_SIZE
  enabledFilter := .all
  actionTypeFilter := .all
  queryInput := ""
  query := ""

def enabled (controls : JobsListControls) : Option Bool :=
  if controls.enabledFilter = .all then none else some (controls.enabledFilter = .enabled)

def actionType (controls : JobsListControls) : Option ActionType :=
  match controls.actionTypeFilter with
  | .all => none
  | .only action_type => some action_type

def runSearch (controls : JobsListControls) : JobsListControls :=
  { controls with page := 1, query := Ecma.trim controls.queryInput }

def resetFilters (_ : JobsListControls) : JobsListControls := initial

/-- `setPage`. -/
def setPage (controls : JobsListControls) (page : Nat) : JobsListControls :=
  { controls with page := page }

end JobsListControls

/-- The `queryKey` of a listing. -/
structure JobsKey where
  page : Nat
  pageSize : Nat
  enabled : Option Bool
  actionType : Option ActionType
  query : String
deriving DecidableEq

def JobsListControls.key (controls : JobsListControls) : JobsKey :=
  ⟨controls.page, controls.pageSize, controls.enabled, controls.actionType, controls.query⟩

/-- What its `queryFn` asks for. -/
def JobsKey.params (key : JobsKey) : JobListParams where
  page := some key.page
  page_size := some key.pageSize
  enabled := key.enabled
  action_type := key.actionType
  concurrency_policy := none
  q := if key.query = "" then none else some key.query

/-- The filters that are set. -/
def JobsKey.filters (key : JobsKey) : JobFilters :=
  ⟨key.enabled, key.actionType, none, if key.query = "" then none else some key.query⟩

/-- What the form above the list does. -/
inductive Control where
  | enabledFilter (value : EnabledFilter)
  | actionTypeFilter (value : ActionTypeFilter)
  | pageSize (value : Nat)
  | queryInput (value : String)
  | submit
  | reset

def Control.apply (controls : JobsListControls) : Control → JobsListControls
  | .enabledFilter value => { controls.setPage 1 with enabledFilter := value }
  | .actionTypeFilter value => { controls.setPage 1 with actionTypeFilter := value }
  | .pageSize value => { controls.setPage 1 with pageSize := value }
  | .queryInput value => { controls with queryInput := value }
  | .submit => controls.runSearch
  | .reset => controls.resetFilters

/-! ## The page -/

/-- A page number that is there. -/
def clampPage (totalPages : Nat) (value : Int) : Nat :=
  (min (max value 1) (max (totalPages : Int) 1)).toNat

/-- `getJobsRange`. -/
def getJobsRange (jobsLength page pageSize total : Nat) : Nat × Nat :=
  (if total = 0 then 0 else (page - 1) * pageSize + 1,
    if total = 0 then 0 else (page - 1) * pageSize + jobsLength)

structure JobsPage where
  controls : JobsListControls
  /-- the answers that are kept -/
  data : JobsKey → Option JobListResponse
  /-- what has been asked for -/
  asked : List JobsKey

def JobsPage.initial : JobsPage where
  controls := .initial
  data _ := none
  asked := [JobsListControls.initial.key]

/-- `jobsQuery.data`. -/
def JobsPage.shown (s : JobsPage) : Option JobListResponse := s.data s.controls.key

/-- The controls are set, and the listing is asked for. -/
def JobsPage.set (s : JobsPage) (controls : JobsListControls) : JobsPage :=
  { s with controls := controls, asked := controls.key :: s.asked }

inductive JobsPage.Label where
  | control (control : Control)
  | next
  | previous
  | jump (value : Int)
  | fetched (key : JobsKey)
  | forget (key : JobsKey)

inductive JobsPage.Step (py : Pydantic) (lowering : Lowering) :
    JobsPage → JobsPage.Label → JobsPage → Prop
  | control {s control} : (∀ value, control = .pageSize value → value ∈ page_sizes) →
      JobsPage.Step py lowering s (.control control) (s.set (control.apply s.controls))
  | next {s response} : s.shown = some response → response.items ≠ [] →
      s.controls.page < response.total_pages →
      JobsPage.Step py lowering s .next (s.set (s.controls.setPage
        (min (s.controls.page + 1) (max response.total_pages 1))))
  | previous {s response} : s.shown = some response → response.items ≠ [] →
      1 < s.controls.page →
      JobsPage.Step py lowering s .previous
        (s.set (s.controls.setPage (max (s.controls.page - 1) 1)))
  | jump {s response value} : s.shown = some response → response.items ≠ [] →
      1 < response.total_pages →
      -- the number is clamped where it is entered, and once more where it is set
      JobsPage.Step py lowering s (.jump value) (s.set (s.controls.setPage
        (clampPage response.total_pages (clampPage response.total_pages value))))
  | fetched {s key response} {jobs : Table Job}
      (order : ∀ filters, Ordered jobs lowering filters) : key ∈ s.asked →
      serve py order (listJobs key.params) = some response →
      JobsPage.Step py lowering s (.fetched key)
        { s with data := Function.update s.data key (some response) }
  | forget {s key} :
      JobsPage.Step py lowering s (.forget key)
        { s with data := Function.update s.data key none }

/-! ## What is kept under a key -/

/-- A key the page can come to. -/
structure JobsKey.Valid (key : JobsKey) : Prop where
  page : 1 ≤ key.page
  pageSize : key.pageSize ∈ page_sizes

section Keys

variable {key : JobsKey}

/-- The server takes it unless the text sought is too long. -/
theorem JobsKey.Valid.in_bounds (h : key.Valid) :
    key.params.in_bounds = true ↔ key.query.length ≤ 255 := by
  have hsize : ∀ size ∈ page_sizes, 1 ≤ size ∧ size ≤ 100 := by decide
  obtain ⟨hleast, hmost⟩ := hsize _ h.pageSize
  unfold JobListParams.in_bounds JobsKey.params
  by_cases hempty : key.query = ""
  · simp [hempty, h.page, hleast, hmost]
  · simp [hempty, h.page, hleast, hmost]

theorem JobsKey.asked (key : JobsKey) :
    key.params.asked = (key.page, key.pageSize, key.filters) := by
  unfold JobListParams.asked JobsKey.params JobsKey.filters
  by_cases hempty : key.query = ""
  · simp [hempty]
  · simp [hempty]

/-- What the server reads of the URL that is fetched for a key. -/
theorem JobsKey.Valid.read (h : key.Valid) (py : Pydantic) :
    read_url py (listJobs key.params) =
      if key.query.length ≤ 255 then some (key.page, key.pageSize, key.filters) else none := by
  rw [read_listJobs, JobsKey.asked]
  exact if_congr h.in_bounds rfl rfl

/-- … and what it answers. -/
theorem JobsKey.Valid.served (h : key.Valid) {py : Pydantic} {jobs : Table Job}
    {lowering : Lowering} {order : ∀ filters, Ordered jobs lowering filters}
    {response : JobListResponse} (hserve : serve py order (listJobs key.params) = some response) :
    response = list_jobs (order key.filters) key.page key.pageSize := by
  rw [serve, h.read] at hserve
  split at hserve
  · exact (Option.some.inj hserve).symm
  · cases hserve

theorem JobsKey.Valid.served_length (h : key.Valid) {py : Pydantic} {jobs : Table Job}
    {lowering : Lowering} {order : ∀ filters, Ordered jobs lowering filters}
    {response : JobListResponse} (hserve : serve py order (listJobs key.params) = some response) :
    key.query.length ≤ 255 := by
  by_contra hlong
  rw [serve, h.read, if_neg hlong] at hserve
  cases hserve

end Keys

/-! ## What is shown -/

/-- The rows of a response are those its label says. -/
theorem items_range {jobs : Table Job} {lowering : Lowering} {filters : JobFilters}
    (ordered : Ordered jobs lowering filters) (page page_size : Nat)
    {response : JobListResponse} (h : response = list_jobs ordered page page_size)
    {firstItem lastItem : Nat}
    (hrange : getJobsRange response.items.length page page_size response.total =
      (firstItem, lastItem)) :
    response.items = (ordered.list.take lastItem).drop (firstItem - 1) := by
  have hitems : response.items = (ordered.list.drop ((page - 1) * page_size)).take page_size := by
    rw [h]
    rfl
  have htotal : response.total = ordered.list.length := by
    rw [h, length_ordered]
    rfl
  unfold getJobsRange at hrange
  obtain ⟨rfl, rfl⟩ := Prod.mk.inj hrange
  by_cases hnone : response.total = 0
  · have hnil : ordered.list = [] := List.eq_nil_of_length_eq_zero (htotal.symm.trans hnone)
    rw [hitems, hnil, List.drop_nil, List.take_nil, List.take_nil, List.drop_nil]
  · rw [if_neg hnone, if_neg hnone, Nat.add_sub_cancel, List.drop_take, Nat.add_sub_cancel_left,
      hitems]
    exact List.prefix_iff_eq_take.mp (List.take_prefix _ _)

structure JobsPage.Inv (lowering : Lowering) (s : JobsPage) : Prop where
  current : s.controls.key.Valid
  asked : ∀ key ∈ s.asked, key.Valid
  data : ∀ key response, s.data key = some response → key.query.length ≤ 255 ∧
    ∃ (jobs : Table Job) (ordered : Ordered jobs lowering key.filters),
      response = list_jobs ordered key.page key.pageSize

section Steps

variable {py : Pydantic} {lowering : Lowering} {s t : JobsPage} {l : JobsPage.Label}

theorem initial_valid : JobsListControls.initial.key.Valid := ⟨by decide, by decide⟩

theorem JobsPage.initial_inv (lowering : Lowering) : JobsPage.initial.Inv lowering where
  current := initial_valid
  asked := by
    intro key hkey
    rw [List.mem_singleton.mp hkey]
    exact initial_valid
  data := by intro _ _ h; cases h

theorem JobsPage.Inv.set (hi : s.Inv lowering) {controls : JobsListControls}
    (h : controls.key.Valid) : (s.set controls).Inv lowering where
  current := h
  asked := List.forall_mem_cons.mpr ⟨h, hi.asked⟩
  data := hi.data

/-- The page number is changed, to one that is there. -/
theorem JobsPage.Inv.setPage (hi : s.Inv lowering) {page : Nat} (h : 1 ≤ page) :
    (s.set (s.controls.setPage page)).Inv lowering :=
  hi.set ⟨h, hi.current.pageSize⟩

theorem one_le_clampPage (totalPages : Nat) (value : Int) : 1 ≤ clampPage totalPages value := by
  unfold clampPage
  omega

theorem Control.apply_valid {controls : JobsListControls} (h : controls.key.Valid)
    {control : Control} (hsize : ∀ value, control = .pageSize value → value ∈ page_sizes) :
    (control.apply controls).key.Valid := by
  cases control with
  | pageSize value => exact ⟨Nat.le_refl 1, hsize value rfl⟩
  | queryInput value => exact ⟨h.page, h.pageSize⟩
  | reset => exact initial_valid
  | enabledFilter | actionTypeFilter | submit => exact ⟨Nat.le_refl 1, h.pageSize⟩

theorem JobsPage.Inv.step (hi : s.Inv lowering) (h : JobsPage.Step py lowering s l t) :
    t.Inv lowering := by
  cases h with
  | control hsize => exact hi.set (Control.apply_valid hi.current hsize)
  | next => exact hi.setPage (by omega)
  | previous => exact hi.setPage (by omega)
  | jump => exact hi.setPage (one_le_clampPage _ _)
  | @fetched key response jobs order hasked hserve =>
      refine ⟨hi.current, hi.asked, fun k r hr => ?_⟩
      by_cases hk : k = key
      · subst hk
        dsimp only at hr
        rw [Function.update_self] at hr
        obtain rfl := Option.some.inj hr
        have hvalid := hi.asked k hasked
        exact ⟨hvalid.served_length hserve, jobs, order k.filters, hvalid.served hserve⟩
      · dsimp only at hr
        rw [Function.update_of_ne hk] at hr
        exact hi.data k r hr
  | @forget key =>
      refine ⟨hi.current, hi.asked, fun k r hr => ?_⟩
      by_cases hk : k = key
      · dsimp only at hr
        rw [hk, Function.update_self] at hr
        cases hr
      · dsimp only at hr
        rw [Function.update_of_ne hk] at hr
        exact hi.data k r hr

end Steps

/-- What there is to see. -/
structure JobsPage.Shows (py : Pydantic) (lowering : Lowering) (s : JobsPage) : Prop where
  /-- the listing asked for is that of the controls, refused if the text sought is too long -/
  asks : read_url py (listJobs s.controls.key.params) =
    if s.controls.query.length ≤ 255 then
      some (s.controls.page, s.controls.pageSize, s.controls.key.filters)
    else none
  /-- what is shown is a listing of the controls, and its rows are those of the label -/
  shows : ∀ response, s.shown = some response →
    ∃ (jobs : Table Job) (ordered : Ordered jobs lowering s.controls.key.filters),
      response = list_jobs ordered s.controls.page s.controls.pageSize ∧
      ∀ firstItem lastItem, getJobsRange response.items.length s.controls.page
          s.controls.pageSize response.total = (firstItem, lastItem) →
        response.items = (ordered.list.take lastItem).drop (firstItem - 1)

/-- **The page shows what its controls say.**  In every run of the page, whatever is set and
pressed, and whenever answers come in, of whatever content of the table: the listing it asks for is
that of its controls, which the server refuses only if the text sought is longer than 255
characters; and what it shows is a page that the server has listed for these very controls, the
rows from the first to the last of its label. -/
theorem jobs_page_shows (py : Pydantic) (lowering : Lowering) {s : JobsPage}
    (h : Run (JobsPage.Step py lowering) Any JobsPage.initial s) : s.Shows py lowering := by
  have hi : s.Inv lowering :=
    h.invariant (fun hi _ hst => hi.step hst) (JobsPage.initial_inv lowering)
  refine ⟨hi.current.read py, fun response hshown => ?_⟩
  obtain ⟨-, jobs, ordered, hlisted⟩ := hi.data _ response hshown
  exact ⟨jobs, ordered, hlisted, fun _ _ => items_range ordered _ _ hlisted⟩

/-- Numbers without a sign, and the two words. -/
def example_pydantic : Pydantic where
  int value :=
    if value.toList.all Char.isDigit then some (Nat.ofDigitChars 10 value.toList 0 : Int) else none
  bool value :=
    if value = "true" then some true else if value = "false" then some false else none
  int_toString n := by
    have hdigits : (toString n).toList.all Char.isDigit = true := by
      refine List.all_eq_true.mpr fun c hc => ?_
      exact Nat.isDigit_of_mem_toDigits (by decide) (by decide) (Nat.toList_repr ▸ hc)
    have hvalue : Nat.ofDigitChars 10 (toString n).toList 0 = n := by
      rw [show (toString n).toList = Nat.toDigits 10 n from Nat.toList_repr]
      exact Nat.ofDigitChars_toDigits (by decide) (by decide)
    rw [if_pos hdigits, hvalue]
  bool_toString b := by cases b <;> decide

/-- Two jobs are listed, and a search is being written. -/
theorem jobs_page_shows_two : ∃ s : JobsPage, s.Shows example_pydantic ascii ∧
    s.shown.map JobListResponse.total = some 2 ∧ s.controls.queryInput = " first " := by
  let order (filters : JobFilters) : Ordered example_twins ascii filters := .sort _ _
  have hserve : serve example_pydantic order (listJobs JobsListControls.initial.key.params) =
      some (list_jobs (order JobsListControls.initial.key.filters) 1 10) := by
    rw [serve, initial_valid.read]
    rfl
  have h : Run (JobsPage.Step example_pydantic ascii) Any .initial _ := .single trivial
    (.fetched _ (List.mem_singleton.mpr rfl) hserve)
  have h := h.snoc (l := JobsPage.Label.control (.queryInput " first ")) trivial
    (.control fun _ hsize => by cases hsize)
  exact ⟨_, jobs_page_shows example_pydantic ascii h, by decide +kernel, rfl⟩

end Dass
