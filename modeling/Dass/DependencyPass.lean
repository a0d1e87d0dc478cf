/-
# `Dass.DependencyPass` — `trigger_dependent_jobs`, call by call

The same pass as `Chain.trigger_dependent_jobs`, cut where another transaction can
land and where a call can raise or the process can stop:

    observe   the successes are read, and the candidates with them; where the query
              goes to a replica, it may show what is marked by now
    mark      one success is marked; a commit of its own
    start     a candidate is there: the query for the latest tasks opens a transaction
    look      they are read, once for all candidates
    skip      a candidate is not ready
    create    a candidate is ready, and its task is committed
    send      `queue.send_task`
    finish    no candidate is left
    fail      any of these raises, or the process stops

Nothing of a pass outlives it, so a raise and a stop come to the same.  A pass in
which nothing happens in between is the function (`pass_run`).

`created_at` is `now()`, the instant a transaction was opened and not that of the
insert.  The first task of a pass is inserted in the transaction of the query before
it; its commit ends that one, and each later insert opens its own.
-/
import Dass.DependencyScheduler
import Dass.Lib.Run

namespace Dass

open Lts

/-- The point a pass has reached. -/
inductive PassPc where
  | idle
  /-- the observed successes that are still to be marked, and the candidates -/
  | marking (todo : List Task) (candidates : List Job)
  /-- the transaction of the query, opened at `since`, and the candidates -/
  | looking (since : Int) (candidates : List Job)
  /-- the snapshot, and the candidates that are still to be looked at; the transaction
  opened at `since` is still open where there is one -/
  | dispatching (since : Option Int) (latest : JobId → Option Task) (todo : List Job)
  /-- the same, with a task that is committed and not sent -/
  | created (latest : JobId → Option Task) (id : TaskId) (todo : List Job)

def PassPc.isIdle : PassPc → Bool
  | .idle => true
  | _ => false

theorem PassPc.eq_idle {pc : PassPc} (h : pc.isIdle = true) : pc = .idle := by
  cases pc with
  | idle => rfl
  | _ => cases h

/-- The successes it is about to mark. -/
def PassPc.marks : PassPc → List Task
  | .marking todo _ => todo
  | _ => []

/-- The clock has moved on. -/
def Chain.later (db : Chain) (d : Int) : Chain := { db with now := db.now + d }

/-- The database, and the pass in progress. -/
structure Flow where
  db : Chain
  pc : PassPc

/-- What a replica that lags shows of the unprocessed successes.  A success stays as it is,
but it may be marked by now; and the newest ones may be missing. -/
structure Chain.Shows (db : Chain) (shown : List Task) : Prop where
  limit : shown.length ≤ 100
  nodup : (shown.map Task.id).Nodup
  rows : ∀ x ∈ shown, ∃ row ∈ db.tasks.rows,
    row.status = .success ∧ x = { row with processed_for_chaining := false }

inductive PassAct where
  | observe
  /-- on a replica, which shows these -/
  | observe_replica (shown : List Task)
  | mark
  | start
  | look
  | skip
  | create (id : TaskId)
  | send
  | finish
  | fail

/-- One call of a pass. -/
inductive PassStep : Flow → PassAct → Flow → Prop
  | observe_none {db} : db.observed = [] → PassStep ⟨db, .idle⟩ .observe ⟨db, .idle⟩
  | observe {db} : db.observed ≠ [] →
      PassStep ⟨db, .idle⟩ .observe ⟨db, .marking db.observed (db.candidates db.observed)⟩
  | observe_replica {db shown} : db.Shows shown →
      PassStep ⟨db, .idle⟩ (.observe_replica shown)
        ⟨db, if shown = [] then .idle else .marking shown (db.candidates shown)⟩
  | mark {db task todo candidates tasks} :
      TaskRepository.flush db.tasks task task.mark_processed_for_chaining = some tasks →
      PassStep ⟨db, .marking (task :: todo) candidates⟩ .mark
        ⟨{ db with tasks := tasks }, .marking todo candidates⟩
  | look_none {db} : PassStep ⟨db, .marking [] []⟩ .look ⟨db, .idle⟩
  | start {db candidates} : candidates ≠ [] →
      PassStep ⟨db, .marking [] candidates⟩ .start ⟨db, .looking db.now candidates⟩
  | look {db since candidates} :
      PassStep ⟨db, .looking since candidates⟩ .look
        ⟨db, .dispatching (some since)
          (TaskRepository.latest_task_per_job db.tasks (db.looked_at candidates)) candidates⟩
  | skip {db since latest job todo} : db.ready latest job.id = false →
      PassStep ⟨db, .dispatching since latest (job :: todo)⟩ .skip
        ⟨db, .dispatching since latest todo⟩
  | create {db since latest job todo id tasks} : db.ready latest job.id = true →
      TaskRepository.create db.tasks
        (.fresh id job.id .dependency 0 (since.getD db.now)) = some tasks →
      PassStep ⟨db, .dispatching since latest (job :: todo)⟩ (.create id)
        ⟨{ db with tasks := tasks }, .created latest id todo⟩
  | send {db latest id todo} :
      PassStep ⟨db, .created latest id todo⟩ .send
        ⟨{ db with normal_queue := db.normal_queue ++ [id] }, .dispatching none latest todo⟩
  | finish {db since latest} :
      PassStep ⟨db, .dispatching since latest []⟩ .finish ⟨db, .idle⟩
  | fail {db pc} : PassStep ⟨db, pc⟩ .fail ⟨db, .idle⟩

/-- No call raises, and the process does not stop. -/
def FaultFree (_ : Flow) : PassAct → Prop
  | .fail => False
  | _ => True

instance (s : Flow) : (a : PassAct) → Decidable (FaultFree s a)
  | .fail => isFalse id
  | .observe | .observe_replica _ | .mark | .start | .look | .skip | .create _ | .send
  | .finish => isTrue trivial

theorem Chain.shows_iff {db : Chain} {shown : List Task} : db.Shows shown ↔
    shown.length ≤ 100 ∧ (shown.map Task.id).Nodup ∧ ∀ x ∈ shown, ∃ row ∈ db.tasks.rows,
      row.status = .success ∧ x = { row with processed_for_chaining := false } :=
  ⟨fun h => ⟨h.limit, h.nodup, h.rows⟩, fun h => ⟨h.1, h.2.1, h.2.2⟩⟩

instance Chain.decidableShows (db : Chain) (shown : List Task) : Decidable (db.Shows shown) :=
  decidable_of_iff _ Chain.shows_iff.symm

/-- The call, as a function. -/
def Flow.call (s : Flow) (a : PassAct) : Option Flow :=
  match a, s.pc with
  | .observe, .idle =>
      some ⟨s.db, if s.db.observed = [] then .idle
        else .marking s.db.observed (s.db.candidates s.db.observed)⟩
  | .observe_replica shown, .idle =>
      if s.db.Shows shown then
        some ⟨s.db, if shown = [] then .idle else .marking shown (s.db.candidates shown)⟩
      else none
  | .mark, .marking (task :: todo) candidates =>
      (TaskRepository.flush s.db.tasks task task.mark_processed_for_chaining).map fun tasks =>
        ⟨{ s.db with tasks := tasks }, .marking todo candidates⟩
  | .look, .marking [] [] => some ⟨s.db, .idle⟩
  | .start, .marking [] (job :: todo) => some ⟨s.db, .looking s.db.now (job :: todo)⟩
  | .look, .looking since candidates =>
      some ⟨s.db, .dispatching (some since)
        (TaskRepository.latest_task_per_job s.db.tasks (s.db.looked_at candidates)) candidates⟩
  | .skip, .dispatching since latest (job :: todo) =>
      if s.db.ready latest job.id = false then some ⟨s.db, .dispatching since latest todo⟩
      else none
  | .create id, .dispatching since latest (job :: todo) =>
      if s.db.ready latest job.id = true then
        (TaskRepository.create s.db.tasks
            (.fresh id job.id .dependency 0 (since.getD s.db.now))).map
          fun tasks => ⟨{ s.db with tasks := tasks }, .created latest id todo⟩
      else none
  | .send, .created latest id todo =>
      some ⟨{ s.db with normal_queue := s.db.normal_queue ++ [id] }, .dispatching none latest todo⟩
  | .finish, .dispatching _ _ [] => some ⟨s.db, .idle⟩
  | .fail, _ => some ⟨s.db, .idle⟩
  | _, _ => none

theorem passStep_of_call {s s' : Flow} {a : PassAct} (h : s.call a = some s') :
    PassStep s a s' := by
  obtain ⟨db, pc⟩ := s
  unfold Flow.call at h
  split at h
  · next hpc =>
      obtain rfl := hpc
      cases h
      split
      · next hnone => exact .observe_none hnone
      · next hne => exact .observe hne
  · next hpc =>
      obtain rfl := hpc
      split at h
      · next hshows => cases h; exact .observe_replica hshows
      · cases h
  · next hpc =>
      obtain rfl := hpc
      obtain ⟨tasks, hmark, rfl⟩ := Option.map_eq_some_iff.mp h
      exact .mark hmark
  · next hpc =>
      obtain rfl := hpc
      cases h
      exact .look_none
  · next hpc =>
      obtain rfl := hpc
      cases h
      exact .start (List.cons_ne_nil _ _)
  · next hpc =>
      obtain rfl := hpc
      cases h
      exact .look
  · next hpc =>
      obtain rfl := hpc
      split at h
      · next hready => cases h; exact .skip hready
      · cases h
  · next hpc =>
      obtain rfl := hpc
      split at h
      · next hready =>
          obtain ⟨tasks, hcreate, rfl⟩ := Option.map_eq_some_iff.mp h
          exact .create hready hcreate
      · cases h
  · next hpc =>
      obtain rfl := hpc
      cases h
      exact .send
  · next hpc =>
      obtain rfl := hpc
      cases h
      exact .finish
  · cases h
    exact .fail
  · cases h

/-! ## A pass that nothing interrupts -/

section Whole

variable {db db' : Chain} {ids : JobId → TaskId}

/-- The marks of a pass, one after the other. -/
theorem run_marks {observed : List Task} {tasks : Table Task} {candidates : List Job}
    (h : Chain.mark_processed db.tasks observed = some tasks) :
    Run PassStep FaultFree ⟨db, .marking observed candidates⟩
      ⟨{ db with tasks := tasks }, .marking [] candidates⟩ := by
  induction observed generalizing db with
  | nil =>
      cases h
      exact .refl
  | cons task rest ih =>
      obtain ⟨mid, hmid, hrest⟩ := Option.bind_eq_some_iff.mp
        (show (TaskRepository.flush db.tasks task task.mark_processed_for_chaining).bind
          (fun tasks => Chain.mark_processed tasks rest) = some tasks from h)
      have hstep : Run PassStep FaultFree ⟨db, .marking (task :: rest) candidates⟩
          ⟨{ db with tasks := mid }, .marking rest candidates⟩ :=
        .single (l := .mark) trivial (.mark hmid)
      exact hstep.trans (@ih { db with tasks := mid } hrest)

/-- The candidates, one after the other; no time passes since the transaction was opened. -/
theorem run_dispatches {latest : JobId → Option Task} {candidates : List Job} {n n' : Nat}
    (h : db.dispatch_ready latest ids candidates n = some (db', n')) {since : Option Int}
    (hsince : since.getD db.now = db.now) :
    ∃ since', Run PassStep FaultFree ⟨db, .dispatching since latest candidates⟩
      ⟨db', .dispatching since' latest []⟩ := by
  induction candidates generalizing db n since with
  | nil =>
      cases h
      exact ⟨since, .refl⟩
  | cons job rest ih =>
      obtain ⟨r, hr, hrest⟩ := Option.bind_eq_some_iff.mp
        (show ((db._dispatch_if_ready latest job (ids job.id)).map fun d =>
          (d.1, n + if d.2 then 1 else 0)).bind
            (fun r => Chain.dispatch_ready r.1 latest ids rest r.2) = some (db', n') from h)
      obtain ⟨⟨mid, fired⟩, hfired, rfl⟩ := Option.map_eq_some_iff.mp hr
      unfold Chain._dispatch_if_ready at hfired
      split at hfired
      · next hready =>
          obtain ⟨tasks, hcreate, heq⟩ := Option.map_eq_some_iff.mp hfired
          cases heq
          have hcreate : TaskRepository.create db.tasks
              (.fresh (ids job.id) job.id .dependency 0 (since.getD db.now)) = some tasks := by
            rw [hsince]
            exact hcreate
          have hstep : Run PassStep FaultFree ⟨db, .dispatching since latest (job :: rest)⟩
              ⟨{ db with tasks := tasks }, .created latest (ids job.id) rest⟩ :=
            .single (l := .create _) trivial (.create hready hcreate)
          obtain ⟨since', hthen⟩ := ih hrest (Option.getD_none (a := db.now))
          exact ⟨since', (hstep.snoc (l := PassAct.send) trivial .send).trans hthen⟩
      · next hready =>
          cases hfired
          obtain ⟨since', hthen⟩ := ih hrest hsince
          have hstep : Run PassStep FaultFree ⟨db, .dispatching since latest (job :: rest)⟩
              ⟨db, .dispatching since latest rest⟩ :=
            .single (l := .skip) trivial (.skip (eq_false_of_ne_true hready))
          exact ⟨since', hstep.trans hthen⟩

/-- **The function is a run of the calls.** -/
theorem pass_run {n : Nat} (h : db.trigger_dependent_jobs ids = some (db', n)) :
    Run PassStep FaultFree ⟨db, .idle⟩ ⟨db', .idle⟩ := by
  have hobserved : TaskRepository.get_unprocessed_successful_tasks db.tasks 100 = db.observed :=
    rfl
  simp only [Chain.trigger_dependent_jobs, hobserved] at h
  split at h
  · next hnone =>
      cases h
      exact .single (l := .observe) trivial (.observe_none hnone)
  · next hne =>
      obtain ⟨tasks, hmark, h⟩ := Option.bind_eq_some_iff.mp h
      have hmarked : Run PassStep FaultFree ⟨db, .idle⟩
          ⟨{ db with tasks := tasks }, .marking [] (db.candidates db.observed)⟩ :=
        (Run.single (l := .observe) trivial (.observe hne)).trans (run_marks hmark)
      split at h
      · next hnone =>
          cases h
          rw [hnone] at hmarked
          exact hmarked.snoc (l := .look) trivial .look_none
      · next hsome =>
          have hopen := hmarked.snoc (l := PassAct.start) trivial (.start hsome)
          have hlooked := hopen.snoc (l := PassAct.look) trivial .look
          obtain ⟨_, hthen⟩ := run_dispatches h (Option.getD_some (a := db.now))
          exact (hlooked.trans hthen).snoc (l := PassAct.finish) trivial .finish

end Whole

end Dass
