/-
# `Dass.TaskHistory` — what a row of `tasks` says about its past

A row is written by four statements, from several processes, and some of them send only
the columns that differ from a copy read earlier.  What a reader of the row can still rely
on, in every state of every run, whoever was late and whatever was lost on the way:

    in order     created ≤ started, created ≤ finished, and none of them in the future;
                 a task that is over says when, and did not start after that
    output       kept to `_MAX_OUTPUT_CHARS` and the notice, and there only once the task
                 has finished
    a line       a task with `retry_count` n stands on one of each count below, of the
                 same job and trigger, none of them younger

All processes go by one clock here, and an insert, a claim or a result is stamped as it is
committed.  The columns that order a row only ever grow then (`Task.Grows`), so a copy that a
handler still holds is behind the row and never ahead of it.  That is what makes a late flush
harmless here: the finishing time it leaves out is the one it would have written.
-/
import Dass.Delivery
import Mathlib.Data.String.Basic

namespace Dass

open Lts Orm

/-! ## Output -/

/-- As much output as a column is given. -/
def Fits (text : Option String) : Prop :=
  ∀ t ∈ text, t.length ≤ _MAX_OUTPUT_CHARS + _TRUNCATION_NOTICE.length

theorem fits_none : Fits none := nofun

/-- **`_truncate` keeps to the limit**, whatever a container wrote. -/
theorem fits_truncate (text : Option String) : Fits (_truncate text) := by
  intro t ht
  obtain ⟨out, _, rfl⟩ := Option.map_eq_some_iff.mp (Option.mem_def.mp ht)
  split
  · next hle => exact hle.trans (Nat.le_add_right _ _)
  · rw [String.length_append]
    refine Nat.add_le_add_right ?_ _
    show (out.take _MAX_OUTPUT_CHARS).copy.length ≤ _
    rw [← String.length_toList, String.toList_copy_take, List.length_take]
    exact Nat.min_le_left _ _

/-! ## One row -/

/-- What a row says is in order. -/
structure Task.InOrder (now : Int) (row : Task) : Prop where
  created : row.created_at ≤ now
  started : ∀ t ∈ row.started_at, row.created_at ≤ t ∧ t ≤ now
  finished : ∀ t ∈ row.finished_at, row.created_at ≤ t ∧ t ≤ now
  ended : row.status.terminal = true →
    ∃ t, row.finished_at = some t ∧ ∀ t' ∈ row.started_at, t' ≤ t
  unfinished : row.finished_at = none → row.stdout = none ∧ row.stderr = none
  stdout : Fits row.stdout
  stderr : Fits row.stderr

/-- A later version of a row. -/
structure Task.Grows (row row' : Task) : Prop where
  same_run : row.SameRun row'
  created_at : row'.created_at = row.created_at
  finished_at : ∀ t ∈ row.finished_at, ∃ t' ∈ row'.finished_at, t ≤ t'

section Row

variable {now now' : Int} {row row' row'' loaded stored : Task}

theorem Task.Grows.refl (row : Task) : row.Grows row :=
  ⟨⟨rfl, rfl, rfl⟩, rfl, fun t ht => ⟨t, ht, le_refl t⟩⟩

theorem Task.Grows.trans (h : row.Grows row') (h' : row'.Grows row'') : row.Grows row'' where
  same_run := ⟨h'.same_run.job_id.trans h.same_run.job_id,
    h'.same_run.trigger_type.trans h.same_run.trigger_type,
    h'.same_run.retry_count.trans h.same_run.retry_count⟩
  created_at := h'.created_at.trans h.created_at
  finished_at t ht := by
    obtain ⟨t', ht', hle⟩ := h.finished_at t ht
    obtain ⟨t'', ht'', hle'⟩ := h'.finished_at t' ht'
    exact ⟨t'', ht'', hle.trans hle'⟩

theorem Task.InOrder.mono (h : row.InOrder now) (hle : now ≤ now') : row.InOrder now' where
  created := h.created.trans hle
  started t ht := ⟨(h.started t ht).1, (h.started t ht).2.trans hle⟩
  finished t ht := ⟨(h.finished t ht).1, (h.finished t ht).2.trans hle⟩
  ended := h.ended
  unfinished := h.unfinished
  stdout := h.stdout
  stderr := h.stderr

theorem Task.inOrder_fresh (id : TaskId) (job_id : JobId) (trigger_type : TriggerType)
    (retry_count : Nat) (now : Int) :
    (Task.fresh id job_id trigger_type retry_count now).InOrder now :=
  ⟨le_refl now, nofun, nofun, nofun, fun _ => ⟨rfl, rfl⟩, fits_none, fits_none⟩

theorem Task.InOrder.claimed (h : row.InOrder now) (service : WorkerService) :
    (service.claimed row now).InOrder now where
  created := h.created
  started t ht := by
    cases ht
    exact ⟨h.created, le_refl now⟩
  finished := h.finished
  ended := nofun
  unfinished := h.unfinished
  stdout := h.stdout
  stderr := h.stderr

/-- A heartbeat writes the deadline alone. -/
theorem Task.InOrder.extended (h : row.InOrder now) (service : WorkerService) :
    (service.extended row now).InOrder now :=
  ⟨h.created, h.started, h.finished, h.ended, h.unfinished, h.stdout, h.stderr⟩

/-- A mark writes none of the columns. -/
theorem Task.InOrder.chained (h : stored.InOrder now) :
    (Task.flush loaded loaded.mark_processed_for_chaining stored).InOrder now := by
  simp only [Task.flush, Task.mark_processed_for_chaining, emit_clean]
  exact ⟨h.created, h.started, h.finished, h.ended, h.unfinished, h.stdout, h.stderr⟩

/-- A reset takes the start away, and leaves the end. -/
theorem Task.InOrder.reset (h : stored.InOrder now) :
    (Task.flush loaded loaded.mark_running_expired_pending stored).InOrder now := by
  have hstarted : ∀ t ∈ emit loaded.started_at none stored.started_at,
      t ∈ stored.started_at := by
    intro t ht
    unfold emit at ht
    split at ht
    · exact ht
    · cases ht
  have hstatus : (emit loaded.status .pending stored.status).terminal = true →
      stored.status.terminal = true := by
    intro hterm
    unfold emit at hterm
    split at hterm
    · exact hterm
    · cases hterm
  simp only [Task.flush, Task.mark_running_expired_pending, emit_clean]
  refine ⟨h.created, fun t ht => h.started t (hstarted t ht), h.finished, fun hterm => ?_,
    h.unfinished, h.stdout, h.stderr⟩
  obtain ⟨t, ht, hle⟩ := h.ended (hstatus hterm)
  exact ⟨t, ht, fun t' ht' => hle t' (hstarted t' ht')⟩

/-- A result says when it was recorded, also where the flush leaves the column out. -/
theorem Task.finished_at_flush (status : TaskStatus) (stdout stderr : Option String)
    (h : stored.InOrder now) (hgrows : loaded.Grows stored) :
    (Task.flush loaded (loaded._finish status stdout stderr now) stored).finished_at
      = some now := by
  show emit loaded.finished_at (some now) stored.finished_at = some now
  unfold emit
  split
  · next heq =>
      -- the copy has finished at this very moment, and the row is not behind it
      obtain ⟨t, ht, hle⟩ := hgrows.finished_at now heq.symm
      have hpast := (h.finished t ht).2
      rw [Option.mem_def.mp ht, le_antisymm hpast hle]
  · rfl

theorem Task.InOrder.finish {status : TaskStatus} {stdout stderr : Option String}
    (h : stored.InOrder now) (hgrows : loaded.Grows stored) (hout : Fits stdout)
    (herr : Fits stderr) :
    (Task.flush loaded (loaded._finish status stdout stderr now) stored).InOrder now := by
  have hfinished := Task.finished_at_flush status stdout stderr h hgrows
  have hstarted : (Task.flush loaded (loaded._finish status stdout stderr now) stored).started_at
      = stored.started_at := emit_clean _ _
  have hfits : ∀ {a b c : Option String}, Fits b → Fits c → Fits (emit a b c) := by
    intro a b c hb hc
    unfold emit
    split
    · exact hc
    · exact hb
  refine ⟨h.created, ?_, ?_, fun _ => ⟨now, hfinished, ?_⟩, ?_, hfits hout h.stdout,
    hfits herr h.stderr⟩
  · rw [hstarted]
    exact h.started
  · rw [hfinished]
    intro t ht
    cases ht
    exact ⟨h.created, le_refl now⟩
  · rw [hstarted]
    exact fun t ht => (h.started t ht).2
  · rw [hfinished]
    nofun

/-- What a handler records is a status, two texts that fit, and the time. -/
theorem recorded_eq_finish (task : Task) (job : Job) (result : ExecutionResult) (now : Int) :
    ∃ status, recorded task job result now
      = task._finish status (_truncate result.stdout) (_truncate result.stderr) now := by
  unfold recorded Task.mark_success Task.mark_failed
  split
  · exact ⟨_, rfl⟩
  · exact ⟨_, rfl⟩

theorem recorded_not_found_eq_finish (task : Task) (now : Int) :
    recorded_not_found task now
      = task._finish .final_failed (some "") (some "Job not found") now := rfl

end Row

/-! ## One step -/

/-- The row a handler still has at hand. -/
def HandlerPc.copy : HandlerPc → Option Task
  | .loaded task | .unfound task | .executing task _ | .failed task _ => some task
  | _ => none

/-- The job it has looked up for it. -/
def HandlerPc.job : HandlerPc → Option (Task × Job)
  | .executing task job | .failed task job => some (task, job)
  | _ => none

/-- There is a row of each count below `n`, of the job and the trigger. -/
def Store.Line (st : Store) (job_id : JobId) (trigger_type : TriggerType) (n : Nat)
    (created_at : Int) : Prop :=
  ∀ k < n, ∃ T row, st.tasks.get T = some row ∧ row.job_id = job_id ∧
    row.trigger_type = trigger_type ∧ row.retry_count = k ∧ row.created_at ≤ created_at

/-- What holds after every step. -/
structure HistoryInv (s : Sys) : Prop where
  rows : ∀ T row, s.store.tasks.get T = some row → row.InOrder s.now
  line : ∀ T row, s.store.tasks.get T = some row →
    s.store.Line row.job_id row.trigger_type row.retry_count row.created_at
  creating : ∀ task ∈ s.creating,
    s.store.Line task.job_id task.trigger_type task.retry_count s.now
  copies : ∀ h hd task, s.handlers h = some hd → hd.pc.copy = some task →
    ∃ row, s.store.tasks.get task.id = some row ∧ task.Grows row
  jobs : ∀ h hd task job, s.handlers h = some hd → hd.pc.job = some (task, job) →
    job.id = task.job_id

theorem historyInv_start (jobs : Table Job) (now : Int) : HistoryInv (.start jobs now) where
  rows := by intro _ _ h; cases h
  line := by intro _ _ h; cases h
  creating := by intro _ h; cases h
  copies := by intro _ _ _ h; cases h
  jobs := by intro _ _ _ _ h; cases h

/-- Every row is there later, as a later version. -/
def Store.GrowsTo (st st' : Store) : Prop :=
  ∀ T row, st.tasks.get T = some row → ∃ row', st'.tasks.get T = some row' ∧ row.Grows row'

theorem Store.Line.grow {st st' : Store} {job_id : JobId} {trigger_type : TriggerType} {n : Nat}
    {created_at later : Int} (h : st.Line job_id trigger_type n created_at)
    (hst : st.GrowsTo st') (hle : created_at ≤ later) :
    st'.Line job_id trigger_type n later := by
  intro k hk
  obtain ⟨T, row, hrow, hjob, htrigger, hcount, hcreated⟩ := h k hk
  obtain ⟨row', hrow', hgrows⟩ := hst T row hrow
  refine ⟨T, row', hrow', ?_, ?_, ?_, ?_⟩
  · rw [hgrows.same_run.job_id, hjob]
  · rw [hgrows.same_run.trigger_type, htrigger]
  · rw [hgrows.same_run.retry_count, hcount]
  · rw [hgrows.created_at]
    exact hcreated.trans hle

section Step

variable {env : Env} {s s' : Sys} {l : Sys.Label} {T : TaskId} {row : Task}

/-- The line of a task that is tried once more. -/
theorem HistoryInv.next_line (hi : HistoryInv s) {T : TaskId} {row : Task}
    (hrow : s.store.tasks.get T = some row) :
    s.store.Line row.job_id row.trigger_type (row.retry_count + 1) s.now := by
  have hcreated := (hi.rows T row hrow).created
  intro k hk
  rcases Nat.lt_succ_iff_lt_or_eq.mp hk with hlt | rfl
  · exact (hi.line T row hrow).grow (fun T row h => ⟨row, h, .refl row⟩) hcreated k hlt
  · exact ⟨T, row, hrow, rfl, rfl, rfl, hcreated⟩

/-- One row is written, as a later version of itself. -/
theorem grows_written {st st' : Store} {now : Int} {id : TaskId} {old new : Task}
    (hold : st.tasks.get id = some old)
    (hget : ∀ k, st'.tasks.get k = if id = k then some new else st.tasks.get k)
    (hgrows : old.Grows new) (hnew : new.InOrder now) (hrow : st.tasks.get T = some row)
    (hin : row.InOrder now) :
    ∃ row', st'.tasks.get T = some row' ∧ row.Grows row' ∧ row'.InOrder now := by
  rw [hget]
  split
  · next heq =>
      rw [← heq, hold] at hrow
      cases hrow
      exact ⟨new, rfl, hgrows, hnew⟩
  · exact ⟨row, hrow, .refl row, hin⟩

/-- A row is inserted beside it. -/
theorem grows_created {st st' : Store} {now : Int} {task : Task} {retry_of : Option TaskId}
    (hcreate : st.create task retry_of = some st') (hrow : st.tasks.get T = some row)
    (hin : row.InOrder now) :
    ∃ row', st'.tasks.get T = some row' ∧ row.Grows row' ∧ row'.InOrder now := by
  obtain ⟨hnone, _, _, hget⟩ := Store.create_spec hcreate
  refine ⟨row, ?_, .refl row, hin⟩
  rw [hget, if_neg, hrow]
  rintro rfl
  rw [hnone] at hrow
  cases hrow

/-- A result is recorded. -/
theorem grows_finished {st st' : Store} {now : Int} {what : What} {loaded : Task}
    {status : TaskStatus} {stdout stderr : Option String}
    (hflush : st.flush what loaded (loaded._finish status stdout stderr now) = some st')
    (hcopy : ∃ row, st.tasks.get loaded.id = some row ∧ loaded.Grows row)
    (hrows : ∀ T row, st.tasks.get T = some row → row.InOrder now)
    (hout : Fits stdout) (herr : Fits stderr) (hrow : st.tasks.get T = some row) :
    ∃ row', st'.tasks.get T = some row' ∧ row.Grows row' ∧ row'.InOrder now := by
  obtain ⟨stored, hstored, hgrows⟩ := hcopy
  obtain ⟨stored', hstored', _, hget⟩ := Store.flush_spec hflush
  rw [hstored] at hstored'
  cases hstored'
  have hin := hrows _ _ hstored
  refine grows_written hstored hget ⟨⟨rfl, rfl, rfl⟩, rfl, fun t ht => ⟨now, ?_, ?_⟩⟩
    (hin.finish hgrows hout herr) hrow (hrows _ _ hrow)
  · exact Task.finished_at_flush _ _ _ hin hgrows
  · exact (hin.finished t ht).2

/-- **Rows only grow**, and stay in order. -/
theorem grows_step (hi : HistoryInv s) (h : Sys.Step env s l s')
    (hrow : s.store.tasks.get T = some row) :
    ∃ row', s'.store.tasks.get T = some row' ∧ row.Grows row' ∧ row'.InOrder s'.now := by
  have hin := hi.rows T row hrow
  have same : ∃ row', s.store.tasks.get T = some row' ∧ row.Grows row' ∧ row'.InOrder s.now :=
    ⟨row, hrow, .refl row, hin⟩
  cases h with
  | tick hd => exact ⟨row, hrow, .refl row, hin.mono (le_add_of_nonneg_right hd)⟩
  | create _ _ hcreate => exact grows_created hcreate hrow hin
  | @work i hd _ _ _ hh hstep =>
      cases hstep with
      | claim _ hclaim =>
          obtain ⟨old, hold, _, _, hget⟩ := Store.claim_task_spec hclaim
          exact grows_written hold hget ⟨⟨rfl, rfl, rfl⟩, rfl, fun t ht => ⟨t, ht, le_refl t⟩⟩
            ((hi.rows _ _ hold).claimed hd.service) hrow hin
      | heartbeat _ hbeat =>
          obtain ⟨old, hold, _, _, hget⟩ := Store.heartbeat_spec hbeat
          exact grows_written hold hget ⟨⟨rfl, rfl, rfl⟩, rfl, fun t ht => ⟨t, ht, le_refl t⟩⟩
            ((hi.rows _ _ hold).extended hd.service) hrow hin
      | @finish task job result _ hpc hflush =>
          obtain ⟨status, heq⟩ := recorded_eq_finish task job result s.now
          rw [heq] at hflush
          exact grows_finished hflush (hi.copies i hd task hh (by rw [hpc]; rfl)) hi.rows
            (fits_truncate _) (fits_truncate _) hrow
      | @not_found task _ hpc hflush =>
          rw [recorded_not_found_eq_finish] at hflush
          refine grows_finished hflush (hi.copies i hd task hh (by rw [hpc]; rfl)) hi.rows ?_ ?_
            hrow
          all_goals
            intro t ht
            cases ht
            decide
      | retry _ _ hcreate => exact grows_created hcreate hrow hin
      | _ => exact same
  | recover hstep =>
      generalize s.passes _ = r at hstep
      cases hstep with
      | mark hflush =>
          obtain ⟨old, hold, _, hget⟩ := Store.flush_spec hflush
          refine grows_written hold hget ⟨⟨rfl, rfl, rfl⟩, rfl, fun t ht => ⟨t, ?_, le_refl t⟩⟩
            (hi.rows _ _ hold).reset hrow hin
          rw [Option.mem_def] at ht ⊢
          exact (emit_clean _ _).trans ht
      | _ => exact same
  | chain _ _ hflush =>
      obtain ⟨old, hold, _, hget⟩ := Store.flush_spec hflush
      refine grows_written hold hget ⟨⟨rfl, rfl, rfl⟩, rfl, fun t ht => ⟨t, ?_, le_refl t⟩⟩
        (hi.rows _ _ hold).chained hrow hin
      rw [Option.mem_def] at ht ⊢
      exact (emit_clean _ _).trans ht
  | _ => exact same

/-- What a handler has at hand it had before, or has just read. -/
theorem copy_before (h : Sys.Step env s l s') {i : HandlerId} {hd : Handler} {task : Task}
    (hh : s'.handlers i = some hd) (hpc : hd.pc.copy = some task) :
    (∃ hd₀, s.handlers i = some hd₀ ∧ hd₀.pc.copy = some task) ∨
      s.store.tasks.get task.id = some task := by
  cases h with
  | receive | resend | delete =>
      rcases entries_update hh with ⟨_, rfl⟩ | hh
      · cases hpc
      · exact .inl ⟨hd, hh, hpc⟩
  | @work i₀ hd₀ _ _ _ hh₀ hstep =>
      rcases entries_update hh with ⟨rfl, rfl⟩ | hh
      · cases hstep with
        | load _ hget =>
            cases hpc
            have hid : task.id = hd₀.task_id := Table.key_of_get hget
            exact .inr (hid ▸ hget)
        | @check n =>
            have hnext : (after_check (s.store.tasks.get hd₀.task_id) n).copy = some task := hpc
            rcases after_check_cases (s.store.tasks.get hd₀.task_id) n with ⟨_, heq⟩ | heq <;>
              · rw [heq] at hnext
                cases hnext
        | recheck =>
            dsimp only at hpc
            split at hpc <;> cases hpc
        | lookup hpc₀ | lookup_none hpc₀ =>
            cases hpc
            exact .inl ⟨hd₀, hh₀, by rw [hpc₀]; rfl⟩
        | heartbeat => exact .inl ⟨_, hh₀, hpc⟩
        | finish hpc₀ =>
            dsimp only at hpc
            split at hpc
            · cases hpc
              exact .inl ⟨hd₀, hh₀, by rw [hpc₀]; rfl⟩
            · cases hpc
        | _ => cases hpc
      · exact .inl ⟨hd, hh, hpc⟩
  | _ => exact .inl ⟨hd, hh, hpc⟩

/-- The job at hand is the one of the row at hand. -/
theorem job_before (h : Sys.Step env s l s') {i : HandlerId} {hd : Handler} {task : Task}
    {job : Job} (hh : s'.handlers i = some hd) (hpc : hd.pc.job = some (task, job)) :
    (∃ hd₀, s.handlers i = some hd₀ ∧ hd₀.pc.job = some (task, job)) ∨ job.id = task.job_id := by
  cases h with
  | receive | resend | delete =>
      rcases entries_update hh with ⟨_, rfl⟩ | hh
      · cases hpc
      · exact .inl ⟨hd, hh, hpc⟩
  | @work i₀ hd₀ _ _ _ hh₀ hstep =>
      rcases entries_update hh with ⟨rfl, rfl⟩ | hh
      · cases hstep with
        | @check n =>
            have hnext : (after_check (s.store.tasks.get hd₀.task_id) n).job = some (task, job) :=
              hpc
            rcases after_check_cases (s.store.tasks.get hd₀.task_id) n with ⟨_, heq⟩ | heq <;>
              · rw [heq] at hnext
                cases hnext
        | recheck =>
            dsimp only at hpc
            split at hpc <;> cases hpc
        | lookup _ hjob =>
            cases hpc
            exact .inr (Table.key_of_get hjob)
        | heartbeat => exact .inl ⟨_, hh₀, hpc⟩
        | finish hpc₀ =>
            dsimp only at hpc
            split at hpc
            · cases hpc
              exact .inl ⟨hd₀, hh₀, by rw [hpc₀]; rfl⟩
            · cases hpc
        | _ => cases hpc
      · exact .inl ⟨hd, hh, hpc⟩
  | _ => exact .inl ⟨hd, hh, hpc⟩

/-- What an operation is about to insert stands on a line. -/
theorem line_accept (hi : HistoryInv s) {origin : Origin} {task : NewTask}
    (h : origin.accept s.jobs s.store.tasks = some task) :
    s.store.Line task.job_id task.trigger_type task.retry_count s.now := by
  have first : task.retry_count = 0 →
      s.store.Line task.job_id task.trigger_type task.retry_count s.now := by
    intro hzero k hk
    rw [hzero] at hk
    exact absurd hk (Nat.not_lt_zero k)
  cases origin with
  | trigger id =>
      obtain ⟨job, _, rfl⟩ := Option.map_eq_some_iff.mp h
      exact first rfl
  | one_time id | dependency id =>
      obtain ⟨job, _, h⟩ := Option.bind_eq_some_iff.mp h
      split at h
      · cases h
        exact first rfl
      · cases h
  | cron id =>
      obtain ⟨job, _, h⟩ := Option.bind_eq_some_iff.mp h
      split at h
      · cases h
      · cases h
        exact first rfl
  | retry id =>
      obtain ⟨row, hrow, h⟩ := Option.bind_eq_some_iff.mp h
      split at h
      · cases h
        exact hi.next_line hrow
      · cases h

/-- A row that is new stands on a line. -/
theorem line_new (hi : HistoryInv s) (h : Sys.Step env s l s')
    (hrow : s'.store.tasks.get T = some row) (hnone : s.store.tasks.get T = none) :
    row.InOrder s.now ∧ row.created_at = s.now ∧
      s.store.Line row.job_id row.trigger_type row.retry_count s.now := by
  rcases h.new_row hrow hnone with
    ⟨task, _, hmem, rfl⟩ | ⟨i, hd, task, job, _, hh, hpc, rfl⟩
  · exact ⟨Task.inOrder_fresh _ _ _ _ _, rfl, hi.creating task hmem⟩
  · refine ⟨Task.inOrder_fresh _ _ _ _ _, rfl, ?_⟩
    obtain ⟨copied, hcopied, hgrows⟩ := hi.copies i hd task hh (by rw [hpc]; rfl)
    have hline := hi.next_line hcopied
    rw [hgrows.same_run.job_id, hgrows.same_run.trigger_type, hgrows.same_run.retry_count,
      ← hi.jobs i hd task job hh (by rw [hpc]; rfl)] at hline
    exact hline

/-- **The step lemma.** -/
theorem historyInv_step (hi : HistoryInv s) (h : Sys.Step env s l s') : HistoryInv s' := by
  have hgrows : s.store.GrowsTo s'.store := by
    intro T row hrow
    obtain ⟨row', hrow', hgrow, _⟩ := grows_step hi h hrow
    exact ⟨row', hrow', hgrow⟩
  have hnow : s.now ≤ s'.now := by
    cases h with
    | tick hd => exact le_add_of_nonneg_right hd
    | _ => exact le_refl _
  refine ⟨fun T row hrow => ?_, fun T row hrow => ?_, fun task hmem => ?_,
    fun i hd task hh hpc => ?_, fun i hd task job hh hpc => ?_⟩
  · cases hold : s.store.tasks.get T with
    | none => exact (line_new hi h hrow hold).1.mono hnow
    | some old =>
        obtain ⟨row', hrow', _, hin⟩ := grows_step hi h hold
        rw [hrow] at hrow'
        cases hrow'
        exact hin
  · cases hold : s.store.tasks.get T with
    | none =>
        obtain ⟨_, hcreated, hline⟩ := line_new hi h hrow hold
        exact hline.grow hgrows hcreated.ge
    | some old =>
        obtain ⟨row', hrow', hgrow, _⟩ := grows_step hi h hold
        rw [hrow] at hrow'
        cases hrow'
        rw [hgrow.same_run.job_id, hgrow.same_run.trigger_type, hgrow.same_run.retry_count]
        exact (hi.line T old hold).grow hgrows hgrow.created_at.ge
  · have hkept : task ∈ s.creating →
        s'.store.Line task.job_id task.trigger_type task.retry_count s'.now := fun hmem =>
      (hi.creating task hmem).grow hgrows hnow
    cases h with
    | accept haccept =>
        rcases List.mem_cons.mp hmem with rfl | hmem
        · exact line_accept hi haccept
        · exact hkept hmem
    | create | abandon => exact hkept (List.mem_of_mem_erase hmem)
    | _ => exact hkept hmem
  · rcases copy_before h hh hpc with ⟨hd₀, hh₀, hpc₀⟩ | hread
    · obtain ⟨row, hrow, hgrow⟩ := hi.copies i hd₀ task hh₀ hpc₀
      obtain ⟨row', hrow', hgrow'⟩ := hgrows task.id row hrow
      exact ⟨row', hrow', hgrow.trans hgrow'⟩
    · exact hgrows task.id task hread
  · rcases job_before h hh hpc with ⟨hd₀, hh₀, hpc₀⟩ | hid
    · exact hi.jobs i hd₀ task job hh₀ hpc₀
    · exact hid

end Step

theorem historyInv_run {env : Env} {jobs : Table Job} {now : Int} {s : Sys}
    (h : Run (Sys.Step env) Any (.start jobs now) s) : HistoryInv s :=
  h.invariant (fun hi _ hst => historyInv_step hi hst) (historyInv_start jobs now)

/-! ## The main results -/

/-- **Every row is in order.**  In every state of every run, with results that come late,
resets that hit the wrong row and operations that stop anywhere, and with one clock: a row was
created before it started and before it finished, and neither lies in the future; one that is over says when,
and did not start after that; and its output fits, and is there only once it has finished. -/
theorem rows_in_order (env : Env) (jobs : Table Job) (now : Int) {s : Sys}
    (hrun : Run (Sys.Step env) Any (.start jobs now) s) {T : TaskId} {row : Task}
    (hrow : s.store.tasks.get T = some row) : row.InOrder s.now :=
  (historyInv_run hrun).rows T row hrow

/-- A task that has been waiting for five seconds. -/
theorem rows_in_order_started : ∃ s row,
    Run (Sys.Step example_env) Any (.start .empty 0) s ∧
    s.store.tasks.get 1 = some row ∧ row.created_at = 0 ∧ row.InOrder s.now := by
  have h : Run (Sys.Step example_env) Any (.start .empty 0) (.start .empty 0) := .refl
  have h := h.snoc (l := Sys.Label.request (.create_job 1 example_one_time)) trivial
    (.request nofun rfl)
  have h := h.snoc (l := Sys.Label.accept (.one_time 1)) trivial (.accept rfl)
  have h := h.snoc (l := Sys.Label.create _ 1) trivial
    (.create List.mem_cons_self (by decide) rfl)
  have h := h.snoc (l := Sys.Label.tick (seconds 5)) trivial (.tick (by decide))
  exact ⟨_, _, h, rfl, rfl, rows_in_order example_env .empty 0 h (T := 1) rfl⟩

/-- **Every retry stands on its line.**  In every state of every run in which no job is deleted,
for a task with `retry_count` n there is a task of each count below n, of the same job and with the same
trigger, and none of them is younger; whether workers retried it or requests did. -/
theorem retry_line (env : Env) (jobs : Table Job) (now : Int) {s : Sys}
    (hrun : Run (Sys.Step env) Any (.start jobs now) s) {T : TaskId} {row : Task}
    (hrow : s.store.tasks.get T = some row) {k : Nat} (hk : k < row.retry_count) :
    ∃ T' row', s.store.tasks.get T' = some row' ∧ row'.job_id = row.job_id ∧
      row'.trigger_type = row.trigger_type ∧ row'.retry_count = k ∧
      row'.created_at ≤ row.created_at :=
  (historyInv_run hrun).line T row hrow k hk

/-- A run of a job, its failure after ten seconds, and its retry by hand. -/
theorem retry_line_by_hand : ∃ s row,
    Run (Sys.Step example_env) Any (.start .empty 0) s ∧
    s.store.tasks.get 2 = some row ∧ row.retry_count = 1 ∧
    ∃ T' row', s.store.tasks.get T' = some row' ∧ row'.job_id = row.job_id ∧
      row'.trigger_type = row.trigger_type ∧ row'.retry_count = 0 ∧
      row'.created_at ≤ row.created_at := by
  have h : Run (Sys.Step example_env) Any (.start .empty 0) (.start .empty 0) := .refl
  have h := h.snoc (l := Sys.Label.request (.create_job 1 example_one_time)) trivial
    (.request nofun rfl)
  have h := h.snoc (l := Sys.Label.accept (.one_time 1)) trivial (.accept rfl)
  have h := h.snoc (l := Sys.Label.create _ 1) trivial
    (.create List.mem_cons_self (by decide) rfl)
  have h := h.snoc (l := Sys.Label.send 1 1) trivial (.send List.mem_cons_self rfl)
  have h := h.snoc (l := Sys.Label.receive 1 1 example_worker) trivial (.receive rfl rfl rfl)
  have h := h.snoc (l := Sys.Label.work 1 .claim) trivial (.work rfl (.claim rfl rfl))
  have h := h.snoc (l := Sys.Label.work 1 .load) trivial (.work rfl (.load rfl rfl))
  have h := h.snoc (l := Sys.Label.work 1 .lookup) trivial (.work rfl (.lookup rfl rfl))
  have h := h.snoc (l := Sys.Label.tick (seconds 10)) trivial (.tick (by decide))
  have h := h.snoc (l := Sys.Label.work 1 (.finish ⟨false, none, some "boom"⟩)) trivial
    (.work rfl (.finish rfl rfl))
  have h := h.snoc (l := Sys.Label.accept (.retry 1)) trivial (.accept rfl)
  have h := h.snoc (l := Sys.Label.create _ 2) trivial
    (.create List.mem_cons_self (by decide) rfl)
  exact ⟨_, _, h, rfl, rfl, retry_line example_env .empty 0 h (T := 2) rfl Nat.one_pos⟩

end Dass
