/-
# `Dass.JobPicker` — the picker of upstream jobs

`frontend/src/app/jobs/_components/job-dependency-combobox.tsx`, with the queries of the form around
it.  The candidates are the first 50 of the jobs that match what is sought, as the server lists
them, and the comment in the source says that this "caps one page of results rather than the jobs
you can pick".

    type       the text in the search box
    settle     … has not changed for a while, and is asked for
    fetched    an answer comes in
    late       … of the jobs there were at another moment
    forget     an answer that is not shown is dropped
    add        a candidate is picked
    remove     a selected job is removed
    load       the job that is edited comes in, and the form is filled with it
    write      the jobs and their dependencies are changed on the server

An answer is of one table, however that has changed since.

Some jobs no text brings up for all that.  Whatever finds a job by its name finds those that have
this name in theirs (`Like.like_wrap_of_within`), and where 50 of them are newer the job is on no
first page.  Elsewhere there is a text that brings it up (`picker_offers`).
-/
import Dass.DependencyScheduler
import Dass.JobsPage

namespace Dass

open Lts Paging

/-! ## The picker -/

def JOB_DEPENDENCY_COMBOBOX_PAGE_SIZE : Nat := 50

/-- What the `queryFn` of the candidates asks for. -/
def picker_params (query : String) : JobListParams where
  page := some 1
  page_size := some JOB_DEPENDENCY_COMBOBOX_PAGE_SIZE
  enabled := none
  action_type := none
  concurrency_policy := none
  q := if query = "" then none else some query

/-- The filters that are set. -/
def picker_filters (query : String) : JobFilters :=
  ⟨none, none, none, if query = "" then none else some query⟩

structure JobPicker where
  /-- the server's -/
  db : Chain
  currentJobId : Option JobId
  dependencyQuery : String
  debouncedDependencyQuery : String
  /-- the answers that are kept -/
  data : String → Option JobListResponse
  /-- the answer that was shown before the text was asked for -/
  previous : Option JobListResponse
  /-- what has been asked for -/
  asked : List String
  /-- `form.upstream_job_ids` -/
  selectedIds : List JobId

namespace JobPicker

/-- The form is opened, for a new job or for one that is there. -/
def start (db : Chain) (currentJobId : Option JobId) : JobPicker where
  db := db
  currentJobId := currentJobId
  dependencyQuery := ""
  debouncedDependencyQuery := ""
  data _ := none
  previous := none
  asked := [""]
  selectedIds := []

/-- `jobsQuery.data`. -/
def shown (s : JobPicker) : Option JobListResponse :=
  (s.data s.debouncedDependencyQuery).or s.previous

/-- Neither the job itself nor one that is selected. -/
def pickable (s : JobPicker) (job : Job) : Bool :=
  some job.id ≠ s.currentJobId && job.id ∉ s.selectedIds

def availableJobs (s : JobPicker) : List Job :=
  ((s.shown.map JobListResponse.items).getD []).filter s.pickable

def hasMore (s : JobPicker) : Bool :=
  JOB_DEPENDENCY_COMBOBOX_PAGE_SIZE < (s.shown.map JobListResponse.total).getD 0

def addJob (s : JobPicker) (job_id : JobId) : JobPicker :=
  { s with selectedIds := s.selectedIds ++ [job_id], dependencyQuery := "" }

def removeJob (s : JobPicker) (job_id : JobId) : JobPicker :=
  { s with selectedIds := s.selectedIds.filter (· ≠ job_id) }

/-- The text is asked for; what is shown stays until there is an answer. -/
def settle (s : JobPicker) : JobPicker :=
  { s with
    debouncedDependencyQuery := s.dependencyQuery
    previous := s.shown
    asked := s.dependencyQuery :: s.asked }

inductive Label where
  | type (text : String)
  | settle
  | fetched (query : String)
  | late (query : String)
  | forget (query : String)
  | add (job_id : JobId)
  | remove (job_id : JobId)
  | load
  | write

open Function in
inductive Step (py : Pydantic) (lowering : Lowering) : JobPicker → Label → JobPicker → Prop
  | type {s text} : Step py lowering s (.type text) { s with dependencyQuery := text }
  | settle {s} : Step py lowering s .settle s.settle
  | fetched {s query response} (order : ∀ filters, Ordered s.db.jobs lowering filters) :
      query ∈ s.asked → serve py order (listJobs (picker_params query)) = some response →
      Step py lowering s (.fetched query) { s with data := update s.data query (some response) }
  | late {s query response} {jobs : Table Job} (order : ∀ filters, Ordered jobs lowering filters) :
      query ∈ s.asked → serve py order (listJobs (picker_params query)) = some response →
      Step py lowering s (.late query) { s with data := update s.data query (some response) }
  | forget {s query} : query ≠ s.debouncedDependencyQuery →
      Step py lowering s (.forget query) { s with data := update s.data query none }
  | add {s job} : job ∈ s.availableJobs → Step py lowering s (.add job.id) (s.addJob job.id)
  | remove {s job_id} : Step py lowering s (.remove job_id) (s.removeJob job_id)
  | load {s job_id} {db : Chain} : s.currentJobId = some job_id →
      -- the server may have changed since, but it has no job depend on itself
      (job_id, job_id) ∉ db.job_dependencies →
      Step py lowering s .load { s with selectedIds := (db.upstream_jobs job_id).map Job.id }
  | write {s db} : Step py lowering s .write { s with db := db }

/-! ## What is selected -/

/-- No job is selected twice, or is the one that is edited. -/
structure Inv (s : JobPicker) : Prop where
  nodup : s.selectedIds.Nodup
  not_itself : ∀ id, s.currentJobId = some id → id ∉ s.selectedIds

section Steps

variable {py : Pydantic} {lowering : Lowering} {s t : JobPicker} {l : Label} {job : Job}

theorem pickable_iff :
    s.pickable job = true ↔ some job.id ≠ s.currentJobId ∧ job.id ∉ s.selectedIds := by
  rw [pickable, Bool.and_eq_true, decide_eq_true_eq, decide_eq_true_eq]

theorem Inv.step (hi : s.Inv) (h : Step py lowering s l t) : t.Inv := by
  cases h with
  | type | settle | fetched | late | forget | write => exact ⟨hi.nodup, hi.not_itself⟩
  | @add job hjob =>
      obtain ⟨hother, hnew⟩ := pickable_iff.mp (List.mem_filter.mp hjob).2
      refine ⟨List.nodup_append.mpr ⟨hi.nodup, List.nodup_singleton _, ?_⟩, ?_⟩
      · rintro a ha b hb rfl
        exact hnew (List.mem_singleton.mp hb ▸ ha)
      · intro id hid hmem
        rcases List.mem_append.mp hmem with hmem | hmem
        · exact hi.not_itself id hid hmem
        · exact hother (List.mem_singleton.mp hmem ▸ hid.symm)
  | remove =>
      exact ⟨hi.nodup.filter _, fun id hid hmem =>
        hi.not_itself id hid (List.mem_of_mem_filter hmem)⟩
  | @load job_id db hid hirrefl =>
      refine ⟨?_, ?_⟩
      · exact db.jobs.nodup.sublist (List.Sublist.map _ List.filter_sublist)
      · intro id hcurrent hmem
        obtain rfl : job_id = id := Option.some.inj (hid.symm.trans hcurrent)
        obtain ⟨up, hup, hkey⟩ := List.mem_map.mp hmem
        have hrow := of_decide_eq_true (List.mem_filter.mp hup).2
        rw [hkey] at hrow
        exact hirrefl hrow

theorem Inv.run (h : Run (Step py lowering) Any s t) (hs : s.Inv) : t.Inv :=
  h.invariant (fun hi _ hst => hi.step hst) hs

end Steps

end JobPicker

/-! ## What is found with a job -/

/-- The jobs that whatever finds a name finds. -/
def alike (lowering : Lowering) (jobs : Table Job) (name : String) : List Job :=
  jobs.rows.filter fun job =>
    Like.within (lowering.lower name).toList (lowering.lower job.name).toList

/-- What to seek for a name. -/
def seek (lowering : Lowering) (name : String) : String :=
  .ofList (Like.narrowest (lowering.lower name).toList)

section Alike

variable {lowering : Lowering} {jobs : Table Job} {job : Job} {query : String}

theorem picker_conditions : (picker_filters query).conditions lowering job = true ↔
    query = "" ∨ Like.like (Like.wrap (lowering.lower query).toList)
      (lowering.lower job.name).toList = true := by
  unfold picker_filters
  by_cases hquery : query = ""
  · rw [if_pos hquery]
    exact iff_of_true rfl (.inl hquery)
  · rw [if_neg hquery]
    exact conditions_name

/-- A text that finds a job finds those that are alike. -/
theorem alike_sublist (h : job ∈ JobRepository.matching jobs lowering (picker_filters query)) :
    (alike lowering jobs job.name).Sublist
      (JobRepository.matching jobs lowering (picker_filters query)) := by
  have hfound := picker_conditions.mp (List.mem_filter.mp h).2
  refine List.monotone_filter_right _ fun other hother => picker_conditions.mpr ?_
  exact hfound.imp_right fun hlike => Like.like_wrap_of_within hlike hother

/-- … and there is one that finds no others. -/
theorem matching_seek (hkeeps : lowering.keeps '\\') (name : String) :
    JobRepository.matching jobs lowering (picker_filters (seek lowering name)) =
      alike lowering jobs name := by
  have hlower : lowering.lower (seek lowering name) = seek lowering name := by
    refine lowering.lower_of_keeps _ fun c hc => ?_
    rw [seek, String.toList_ofList] at hc
    rcases Like.mem_narrowest hc with hc | rfl
    · exact lowering.keeps_of_lower name c hc
    · exact hkeeps
  refine List.filter_congr fun other _ => Bool.eq_iff_iff.mpr ?_
  rw [picker_conditions, hlower, seek, String.toList_ofList, Like.like_wrap_narrowest]
  refine or_iff_right_of_imp fun hempty => ?_
  rw [← Like.like_wrap_narrowest]
  have hnil : Like.narrowest (lowering.lower name).toList = [] := by
    rw [← String.toList_ofList (l := Like.narrowest _), hempty]
    rfl
  rw [hnil]
  exact (Like.like_wrap (List.forall_mem_nil _)).mpr List.nil_infix

end Alike

/-! ## What is offered -/

namespace JobPicker

/-- A text is written, comes to rest and is answered. -/
def Seeks (py : Pydantic) (lowering : Lowering) (s : JobPicker) (query : String) (t : JobPicker) :
    Prop :=
  ∃ s₁ s₂, Step py lowering s (.type query) s₁ ∧ Step py lowering s₁ .settle s₂ ∧
    Step py lowering s₂ (.fetched query) t

/-- What comes of it. -/
def answered (s : JobPicker) (query : String) (response : JobListResponse) : JobPicker :=
  { s with
    dependencyQuery := query
    debouncedDependencyQuery := query
    previous := s.shown
    asked := query :: s.asked
    data := Function.update s.data query (some response) }

section Seeks

variable {py : Pydantic} {lowering : Lowering} {s t : JobPicker} {query : String} {job : Job}

/-- The server takes every text that is not too long. -/
theorem serve_picker {jobs : Table Job} (py : Pydantic)
    (order : ∀ filters, Ordered jobs lowering filters) (query : String) :
    serve py order (listJobs (picker_params query)) =
      if query.length ≤ 255 then
        some (list_jobs (order (picker_filters query)) 1 JOB_DEPENDENCY_COMBOBOX_PAGE_SIZE)
      else none := by
  have hfilters : (⟨(picker_params query).enabled, (picker_params query).action_type,
      (picker_params query).concurrency_policy, (picker_params query).q.filter (· ≠ "")⟩ :
        JobFilters) = picker_filters query := by
    unfold picker_params picker_filters
    by_cases hquery : query = "" <;> simp [hquery]
  have hbounds : (picker_params query).in_bounds = true ↔ query.length ≤ 255 := by
    unfold JobListParams.in_bounds picker_params
    by_cases hquery : query = "" <;> simp [hquery, JOB_DEPENDENCY_COMBOBOX_PAGE_SIZE]
  rw [listing_served, hfilters]
  simp only [hbounds]
  rfl

theorem seeks_iff : Seeks py lowering s query t ↔ query.length ≤ 255 ∧
    ∃ ordered : Ordered s.db.jobs lowering (picker_filters query),
      t = s.answered query (list_jobs ordered 1 JOB_DEPENDENCY_COMBOBOX_PAGE_SIZE) := by
  constructor
  · rintro ⟨_, _, htype, hsettle, hfetched⟩
    cases htype
    cases hsettle
    cases hfetched with
    | fetched order hasked hserve =>
        have hlisted := (@serve_picker lowering s.db.jobs py order query).symm.trans hserve
        split at hlisted
        · next hlen =>
            cases hlisted
            exact ⟨hlen, order _, rfl⟩
        · cases hlisted
  · rintro ⟨hlen, ordered, rfl⟩
    classical
    let order : ∀ filters, Ordered s.db.jobs lowering filters := fun filters =>
      if h : picker_filters query = filters then h ▸ ordered else .sort _ _
    have horder : order (picker_filters query) = ordered := dif_pos rfl
    have hserve : serve py order (listJobs (picker_params query)) =
        some (list_jobs ordered 1 JOB_DEPENDENCY_COMBOBOX_PAGE_SIZE) := by
      rw [serve_picker, if_pos hlen, horder]
    exact ⟨_, _, .type, .settle, .fetched order List.mem_cons_self hserve⟩

theorem shown_answered (s : JobPicker) (query : String) (response : JobListResponse) :
    (s.answered query response).shown = some response := by
  rw [shown, answered]
  dsimp only
  rw [Function.update_self]
  rfl

/-- The first 50 that match, but for those that cannot be picked. -/
theorem mem_available_iff {ordered : Ordered s.db.jobs lowering (picker_filters query)} :
    job ∈ (s.answered query
        (list_jobs ordered 1 JOB_DEPENDENCY_COMBOBOX_PAGE_SIZE)).availableJobs ↔
      job ∈ ordered.list.take JOB_DEPENDENCY_COMBOBOX_PAGE_SIZE ∧ s.pickable job = true := by
  rw [availableJobs, shown_answered]
  exact List.mem_filter

/-- All that match are shown, or the page says that there are more. -/
theorem take_of_hasMore {ordered : Ordered s.db.jobs lowering (picker_filters query)}
    (h : (s.answered query
      (list_jobs ordered 1 JOB_DEPENDENCY_COMBOBOX_PAGE_SIZE)).hasMore = false) :
    ordered.list.take JOB_DEPENDENCY_COMBOBOX_PAGE_SIZE = ordered.list := by
  rw [hasMore, shown_answered, decide_eq_false_iff_not, Nat.not_lt] at h
  exact List.take_of_length_le ((length_ordered ordered).trans_le h)

end Seeks

/-- What there is to pick. -/
structure Offers (py : Pydantic) (lowering : Lowering) (s : JobPicker) : Prop where
  /-- no job is selected twice -/
  nodup : s.selectedIds.Nodup
  /-- … and the job that is edited is not -/
  not_itself : ∀ id, s.currentJobId = some id → id ∉ s.selectedIds
  /-- some text brings a job up, however the server orders the jobs of one instant -/
  surely : ∀ job ∈ s.db.jobs.rows, (seek lowering job.name).length ≤ 255 →
    s.pickable job = true →
    ((∃ query, query.length ≤ 255 ∧
        ∀ t, Seeks py lowering s query t → job ∈ t.availableJobs) ↔
      newer Job.created_at (alike lowering s.db.jobs job.name) job.created_at +
        tied Job.created_at (alike lowering s.db.jobs job.name) job.created_at ≤
          JOB_DEPENDENCY_COMBOBOX_PAGE_SIZE)
  /-- … or as it may order them -/
  perhaps : ∀ job ∈ s.db.jobs.rows, (seek lowering job.name).length ≤ 255 →
    s.pickable job = true →
    ((∃ query t, Seeks py lowering s query t ∧ job ∈ t.availableJobs) ↔
      newer Job.created_at (alike lowering s.db.jobs job.name) job.created_at <
        JOB_DEPENDENCY_COMBOBOX_PAGE_SIZE)
  /-- where no more jobs are said to match than are shown, all that match are there -/
  tells : ∀ query t, Seeks py lowering s query t → t.hasMore = false → ∀ job ∈ s.db.jobs.rows,
    (picker_filters query).conditions lowering job = true → s.pickable job = true →
      job ∈ t.availableJobs

end JobPicker

section Picks

variable {lowering : Lowering} {jobs : Table Job} {job : Job} {query : String}

/-- The narrowest text finds the job itself. -/
theorem mem_matching_seek (hkeeps : lowering.keeps '\\') (hjob : job ∈ jobs.rows) :
    job ∈ JobRepository.matching jobs lowering (picker_filters (seek lowering job.name)) := by
  rw [matching_seek hkeeps]
  exact List.mem_filter.mpr ⟨hjob, Like.within_self _⟩

theorem mem_matching (hjob : job ∈ jobs.rows)
    (h : (picker_filters query).conditions lowering job = true) :
    job ∈ JobRepository.matching jobs lowering (picker_filters query) :=
  List.mem_filter.mpr ⟨hjob, h⟩

theorem matching_nodup (jobs : Table Job) (filters : JobFilters) :
    (JobRepository.matching jobs lowering filters).Nodup :=
  (List.Nodup.of_map _ jobs.nodup).filter _

/-- A job is on the first page of no text, or of the narrowest. -/
theorem surely_iff (hkeeps : lowering.keeps '\\') (hjob : job ∈ jobs.rows)
    (hlen : (seek lowering job.name).length ≤ 255) (n : Nat) :
    (∃ query, query.length ≤ 255 ∧
        ∀ ordered : Ordered jobs lowering (picker_filters query), job ∈ ordered.list.take n) ↔
      newer Job.created_at (alike lowering jobs job.name) job.created_at +
        tied Job.created_at (alike lowering jobs job.name) job.created_at ≤ n := by
  constructor
  · rintro ⟨query, -, hall⟩
    have hmem : job ∈ JobRepository.matching jobs lowering (picker_filters query) :=
      (Descending.sort _ _).perm.mem_iff.mp (List.mem_of_mem_take (hall (.sort _ _)))
    have hle := (forall_mem_take_iff (matching_nodup jobs _) hmem).mp hall
    rw [newer_add_tied] at hle ⊢
    exact (alike_sublist hmem).countP_le.trans hle
  · intro hle
    refine ⟨seek lowering job.name, hlen, ?_⟩
    refine (forall_mem_take_iff (matching_nodup jobs _) (mem_matching_seek hkeeps hjob)).mpr ?_
    rwa [matching_seek hkeeps]

theorem perhaps_iff (hkeeps : lowering.keeps '\\') (hjob : job ∈ jobs.rows)
    (hlen : (seek lowering job.name).length ≤ 255) (n : Nat) :
    (∃ query, query.length ≤ 255 ∧
        ∃ ordered : Ordered jobs lowering (picker_filters query), job ∈ ordered.list.take n) ↔
      newer Job.created_at (alike lowering jobs job.name) job.created_at < n := by
  constructor
  · rintro ⟨query, -, ordered, htake⟩
    have hmem : job ∈ JobRepository.matching jobs lowering (picker_filters query) :=
      ordered.perm.mem_iff.mp (List.mem_of_mem_take htake)
    exact (alike_sublist hmem).countP_le.trans_lt (ordered.newer_lt htake)
  · intro hlt
    refine ⟨seek lowering job.name, hlen, ?_⟩
    refine (exists_mem_take_iff (mem_matching_seek hkeeps hjob)).mpr ?_
    rwa [matching_seek hkeeps]

end Picks

/-- **Which jobs a text brings up.**  In every state of every run of the picker, on a server whose
jobs change between its answers: no job is selected twice, nor the one that is edited at all, where the server has none
depend on itself.  For each other job that is not selected, with a name that can be sought, there is
a text that, sought now, is sure to bring it up if and only if at most 50 of the jobs that have its name in
theirs (or at their end, for a name that ends with `%`) are as new as it is, with itself among
them; there is one that may bring it up if and only if fewer than 50 of them are newer.  Whatever
is sought, all that match are offered, or the page says that there are more. -/
theorem picker_offers (py : Pydantic) (lowering : Lowering) (hkeeps : lowering.keeps '\\')
    {db : Chain} {currentJobId : Option JobId} {s : JobPicker}
    (h : Run (JobPicker.Step py lowering) Any (JobPicker.start db currentJobId) s) :
    s.Offers py lowering := by
  have hi : s.Inv := JobPicker.Inv.run h ⟨List.nodup_nil, fun _ _ => List.not_mem_nil⟩
  refine ⟨hi.nodup, hi.not_itself, fun job hjob hlen hpick => ?_, fun job hjob hlen hpick => ?_, ?_⟩
  · rw [← surely_iff hkeeps hjob hlen]
    refine exists_congr fun query => and_congr_right fun hquery => ?_
    constructor
    · intro hall ordered
      exact (JobPicker.mem_available_iff.mp
        (hall _ (JobPicker.seeks_iff.mpr ⟨hquery, ordered, rfl⟩))).1
    · intro hall t hseeks
      obtain ⟨-, ordered, rfl⟩ := JobPicker.seeks_iff.mp hseeks
      exact JobPicker.mem_available_iff.mpr ⟨hall ordered, hpick⟩
  · rw [← perhaps_iff hkeeps hjob hlen]
    refine exists_congr fun query => ?_
    constructor
    · rintro ⟨t, hseeks, hmem⟩
      obtain ⟨hquery, ordered, rfl⟩ := JobPicker.seeks_iff.mp hseeks
      exact ⟨hquery, ordered, (JobPicker.mem_available_iff.mp hmem).1⟩
    · rintro ⟨hquery, ordered, htake⟩
      exact ⟨_, JobPicker.seeks_iff.mpr ⟨hquery, ordered, rfl⟩,
        JobPicker.mem_available_iff.mpr ⟨htake, hpick⟩⟩
  · intro query t hseeks hmore job hjob hmatch hpick
    obtain ⟨-, ordered, rfl⟩ := JobPicker.seeks_iff.mp hseeks
    rw [JobPicker.mem_available_iff, JobPicker.take_of_hasMore hmore, ordered.perm.mem_iff]
    exact ⟨mem_matching hjob hmatch, hpick⟩

/-- Two jobs, and no dependencies. -/
def example_picked : Chain := ⟨0, example_twins, [], Table.empty, []⟩

/-- One of them is picked, and there is a text for the other. -/
theorem picker_offers_twins : ∃ s : JobPicker, s.Offers example_pydantic ascii ∧
    s.selectedIds = [1] ∧
    ∃ query, query.length ≤ 255 ∧ ∀ t, s.Seeks example_pydantic ascii query t →
      job_named 2 "second" ∈ t.availableJobs := by
  have hstart : Run (JobPicker.Step example_pydantic ascii) Any
    (JobPicker.start example_picked none) (JobPicker.start example_picked none) := .refl
  have hopen := picker_offers example_pydantic ascii rfl hstart
  obtain ⟨query, hquery, hall⟩ := (hopen.surely (job_named 1 "first") (by decide)
    (by decide +kernel) rfl).mpr (by decide +kernel)
  -- the text is sought, and the job is picked
  have hseeks : JobPicker.Seeks example_pydantic ascii (.start example_picked none) query _ :=
    JobPicker.seeks_iff.mpr ⟨hquery, .sort _ _, rfl⟩
  have hmem := hall _ hseeks
  obtain ⟨_, _, htype, hsettle, hfetched⟩ := hseeks
  have hrun := (((hstart.snoc trivial htype).snoc trivial hsettle).snoc trivial hfetched).snoc
    trivial (.add hmem)
  have hoffers := picker_offers example_pydantic ascii rfl hrun
  have hother : job_named 2 "second" ∈ example_twins.rows := by decide
  have hfew : newer Job.created_at (alike ascii example_twins "second") 0 +
      tied Job.created_at (alike ascii example_twins "second") 0 ≤
        JOB_DEPENDENCY_COMBOBOX_PAGE_SIZE := by
    decide +kernel
  exact ⟨_, hoffers, rfl, (hoffers.surely _ hother (by decide +kernel) rfl).mpr hfew⟩

end Dass
