/-
# `Dass.SyncCursor` — the sync's cursor skips no change

`sync_jobs` takes its clock before it reads, and rewinds the cursor by
`_SYNC_OVERLAP_SECONDS`.  A change that shows to its reads at most that long after the
moment it is stamped with, whatever the delay is made of (the length of the
transaction, the lag of a replica, a clock that is ahead), is answered by the first
read after it shows (`sync_skips_nothing`): the cursor comes from a pass that started
before the change showed.

The pass is that of `Dass.CronScheduler`, cut where its read happens.  The table is what
the reads see, so a change is ordered by the moment it shows, wherever it comes from.
That the cursor is enough is `Poller.never_skips`; here it is the cursor of `sync_jobs`,
and its question is `list_updated_since`.
-/
import Dass.CronScheduler
import Dass.Lib.Poller

namespace Dass

open Lts Poller

/-- A row of `jobs` shows, or none does any longer. -/
abbrev JobChange := Change JobId Job

/-- A scheduler process between its passes and in one, with the table its reads see. -/
structure Sync where
  now : Int
  jobs : Table Job
  /-- what has shown since the last answered read, newest first -/
  unread : List JobChange
  mem : CronScheduler
  /-- `started_at` of the pass in progress -/
  started_at : Option Int

/-- A process that has just started.  It has read nothing of the table it finds. -/
def Sync.start (jobs : Table Job) (now : Int) : Sync where
  now := now
  jobs := jobs
  unread := jobs.rows.map fun row => ⟨row.id, some row⟩
  mem := .init
  started_at := none

/-- What the reads of a pass answer. -/
def Sync.answer (s : Sync) : List Job := list_updated_since s.jobs s.mem.last_sync_at

abbrev Sync.Label := Poller.Label JobId Job Int

open Function in
inductive Sync.Step : Sync → Sync.Label → Sync → Prop
  | tick {s : Sync} {d} : 0 ≤ d → Sync.Step s (.tick d) { s with now := s.now + d }
  /-- a change to a scheduled job shows soon enough after its stamp -/
  | change {s : Sync} {c : JobChange} {jobs' : Table Job} :
      (∀ row, c.row = some row → row.job_type = .scheduled →
        s.now - row.updated_at ≤ seconds _SYNC_OVERLAP_SECONDS) →
      (∀ id, jobs'.get id = update s.jobs.get c.key c.row id) →
      Sync.Step s (.change c) { s with jobs := jobs', unread := c :: s.unread }
  | begin {s : Sync} : s.started_at = none →
      Sync.Step s .begin { s with started_at := some s.now }
  | read {s : Sync} {started_at} : s.started_at = some started_at →
      Sync.Step s .read { s with
        mem := s.mem.sync_jobs started_at s.answer, unread := [], started_at := none }
  | raise {s : Sync} {started_at} : s.started_at = some started_at →
      Sync.Step s .raise { s with started_at := none }

/-! ## The process follows the table as a poller does -/

/-- `list_updated_since`, as a poller's question. -/
def sync_query : Query Job Int where
  stamp := Job.updated_at
  wanted row := row.job_type = .scheduled
  overlap := seconds _SYNC_OVERLAP_SECONDS

def Sync.poller (s : Sync) : Poller.State JobId Job Int where
  now := s.now
  rows := s.jobs.get
  unread := s.unread
  cursor := s.mem.last_sync_at
  started := s.started_at

/-- Every step of the process is one of the poller. -/
theorem Sync.Step.poller {s s' : Sync} {l : Sync.Label} (h : Sync.Step s l s') :
    Poller.Step sync_query s.poller l s'.poller := by
  cases h with
  | tick hd => exact .tick hd
  | @change c jobs' hlag hjobs =>
      have hget : jobs'.get = Function.update s.jobs.get c.key c.row := funext hjobs
      show Poller.Step sync_query s.poller (.change c) ⟨s.now, jobs'.get, _, _, _⟩
      rw [hget]
      exact .change hlag
  | begin hnone => exact .begin hnone
  | read hp => exact .read hp
  | raise hp => exact .raise hp

theorem Sync.poller_run {s t : Sync} (h : Run Sync.Step Any s t) :
    Run (Poller.Step sync_query) Any s.poller t.poller := by
  induction h with
  | refl => exact .refl
  | snoc _ _ hst ih => exact ih.snoc trivial hst.poller

/-- What the poller answers is what the query answers. -/
theorem Sync.mem_answer {s : Sync} {id : JobId} {row : Job} :
    s.poller.Answers sync_query id row ↔ row ∈ s.answer ∧ row.id = id := by
  unfold Sync.answer
  rw [mem_list_updated_since]
  constructor
  · rintro ⟨hrow, hwanted, hcursor⟩
    have hid : row.id = id := Table.key_of_get hrow
    exact ⟨⟨hid ▸ hrow, hwanted, hcursor⟩, hid⟩
  · rintro ⟨⟨hrow, hwanted, hcursor⟩, rfl⟩
    exact ⟨hrow, hwanted, hcursor⟩

theorem Sync.inv_start (jobs : Table Job) (now : Int) :
    Poller.Inv sync_query (Sync.start jobs now).poller := by
  have hcursor : ∀ t, (Sync.start jobs now).poller.cursor ≠ some t := by
    intro t h
    cases h
  refine ⟨fun t h => absurd h (hcursor t), ?_, ?_, fun _ _ _ _ _ t h => absurd h (hcursor t)⟩
  · intro p h
    cases h
  · intro id c hlast
    obtain ⟨hmem, hkey⟩ := last_mem hlast
    obtain ⟨row, hrow, rfl⟩ := List.mem_map.mp hmem
    rw [← hkey]
    exact Table.get_of_mem hrow

/-! ## Passes -/

/-- **The cursor skips no change.**  In every run of passes, with changes showing at any
point and each change to a scheduled job showing at most `_SYNC_OVERLAP_SECONDS` after its
stamp: of the changes that have shown since the last read that was answered, the next one
answers each that left a scheduled row, unless the row has changed again by then, and of
those changes it answers the last.  A pass that raises at its read leaves the cursor where
it is, and what was unread. -/
theorem sync_skips_nothing (jobs : Table Job) (now : Int) {s : Sync}
    (hrun : Run Sync.Step Any (.start jobs now) s) :
    (∀ newer c older row, s.unread = newer ++ c :: older → c.row = some row →
      row.job_type = .scheduled →
      row ∈ s.answer ∨ ∃ c' ∈ newer, c'.key = c.key ∧ s.jobs.get c.key = c'.row ∧
        ∀ row', c'.row = some row' → row'.job_type = .scheduled → row' ∈ s.answer) ∧
    (∀ s', Sync.Step s .read s' → s'.unread = []) ∧
    ∀ s', Sync.Step s .raise s' →
      s'.mem.last_sync_at = s.mem.last_sync_at ∧ s'.unread = s.unread := by
  have hi := Poller.inv_run (Sync.inv_start jobs now) (Sync.poller_run hrun)
  refine ⟨?_, fun s' h => by cases h; rfl, fun s' h => by cases h; exact ⟨rfl, rfl⟩⟩
  intro newer c older row hunread hrow hwanted
  rcases never_skips hi hunread hrow hwanted with hans | ⟨c', hc', hkey, hget, hans⟩
  · exact .inl (Sync.mem_answer.mp hans).1
  · refine .inr ⟨c', hc', hkey, hget, fun row' hrow' hwanted' => ?_⟩
    exact (Sync.mem_answer.mp (hans row' hrow' hwanted')).1

/-- The second pass of a process that started on an empty table: the job that has shown
since the first, five seconds after its stamp, is in its answer. -/
theorem sync_skips_nothing_example : ∃ (s : Sync) (row : Job),
    Run Sync.Step Any (.start .empty 0) s ∧ example_jobs.rows = [row] ∧
    s.now - row.updated_at = seconds 5 ∧ s.mem.last_sync_at = some (-seconds 10) ∧
    row ∈ s.answer := by
  obtain ⟨row, hrows⟩ : ∃ row, example_jobs.rows = [row] := ⟨_, rfl⟩
  have hmem : row ∈ example_jobs.rows := by simp [hrows]
  have hrow : ∀ r ∈ example_jobs.rows, r.id = 1 ∧ r.job_type = .scheduled ∧ r.updated_at = 0 := by
    decide
  obtain ⟨hid, htype, hstamp⟩ := hrow row hmem
  have hshows : ∀ id, example_jobs.get id = Function.update (fun _ => none) 1 (some row) id := by
    intro id
    by_cases h1 : id = 1
    · subst h1
      simpa [hid] using Table.get_of_mem hmem
    · rw [Function.update_of_ne h1]
      exact Table.get_eq_none.mpr fun r hr hrid => h1 (hrid.symm.trans (hrow r hr).1)
  have h : Run Sync.Step Any (.start .empty 0) (.start .empty 0) := .refl
  have h := h.snoc (l := .begin) trivial (.begin rfl)
  have h := h.snoc (l := .read) trivial (.read rfl)
  have h := h.snoc (l := .tick (seconds 5)) trivial (.tick (by decide))
  have h := h.snoc (l := .change ⟨1, some row⟩) trivial
    (.change (by
      rintro _ ⟨⟩ _
      rw [hstamp]
      decide) hshows)
  have h : Run Sync.Step Any (.start .empty 0)
    ⟨seconds 5, example_jobs, [⟨1, some row⟩], CronScheduler.init.sync_jobs 0 [], none⟩ := h
  have hans := (sync_skips_nothing .empty 0 h).1 [] _ [] row rfl rfl htype
  refine ⟨_, row, h, hrows, ?_, rfl, hans.resolve_right ?_⟩
  · rw [hstamp]
    rfl
  · rintro ⟨_, hnone, _⟩
    exact absurd hnone List.not_mem_nil

end Dass
