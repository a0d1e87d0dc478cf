/-
# `Dass.ClaimLedger` — how often a task is claimed

The first claim of a task takes it out of `pending`, and only a reset brings it
back there: a result is terminal whatever it lands on, a heartbeat and a mark
leave the status alone, and no task is created twice.  So the claims of a task
alternate with its resets (`claim_ledger`), for any number of handlers, however
stale what they write.
-/
import Dass.Lib.Alternate
import Dass.Delivery

namespace Dass

open Lts

/-- The commit is a claim of `T`. -/
def Commit.isClaim (T : TaskId) (c : Commit) : Bool :=
  match c.what with
  | .claimed _ => c.task = T
  | _ => false

/-- The commit is a recovery's reset of `T`. -/
def Commit.isReset (T : TaskId) (c : Commit) : Bool :=
  match c.what with
  | .reset => c.task = T
  | _ => false

/-- The successful claims of a task. -/
def claims (T : TaskId) (log : List Commit) : Nat := log.countP (Commit.isClaim T)

/-- The resets of a task. -/
def resets (T : TaskId) (log : List Commit) : Nat := log.countP (Commit.isReset T)

/-! ## The invariant -/

/-- The claims of a task alternate with its resets, and a task claimed since the last reset
is not pending. -/
structure Ledger (st : Store) (T : TaskId) : Prop where
  alternates : Log.Alternates (Commit.isClaim T) (Commit.isReset T) st.log
  taken : Log.since (Commit.isClaim T) (Commit.isReset T) st.log = true →
    ∃ x, st.status T = some x ∧ x ≠ .pending

theorem Ledger.free {st : Store} {T : TaskId} (hi : Ledger st T)
    (h : st.status T = some .pending) :
    Log.since (Commit.isClaim T) (Commit.isReset T) st.log = false := by
  rw [Bool.eq_false_iff]
  intro hsince
  obtain ⟨x, hx, hne⟩ := hi.taken hsince
  rw [h, Option.some.injEq] at hx
  exact hne hx.symm

/-- **What a commit does to the ledger**: claims are made on pending rows, and only a reset
or an insert makes a row pending that was not. -/
theorem Ledger.write {st st' : Store} {id T : TaskId} {what : What} {x : TaskStatus}
    (hi : Ledger st T) (hw : st.Wrote st' id what x)
    (hclaim : ∀ h, what = .claimed h → st.status id = some .pending ∧ x ≠ .pending)
    (hopen : x = .pending → what = .reset ∨ st.status id = none ∨ st.status id = some .pending) :
    Ledger st' T := by
  obtain ⟨c, hlog, rfl, rfl⟩ := hw.log
  cases hp : c.isClaim T with
  | true =>
      have hc : ∃ h, c.what = .claimed h ∧ c.task = T := by
        unfold Commit.isClaim at hp
        split at hp
        · next h hwhat => exact ⟨h, hwhat, of_decide_eq_true hp⟩
        · cases hp
      obtain ⟨h, hwhat, rfl⟩ := hc
      obtain ⟨hpending, hx⟩ := hclaim h hwhat
      refine ⟨?_, fun _ => ⟨x, hw.self, hx⟩⟩
      rw [hlog]
      exact hi.alternates.cons fun _ => hi.free hpending
  | false =>
      have halt : Log.Alternates (Commit.isClaim T) (Commit.isReset T) st'.log := by
        rw [hlog]
        exact hi.alternates.cons fun h => absurd h (hp ▸ Bool.false_ne_true)
      refine ⟨halt, fun hsince => ?_⟩
      rw [hlog] at hsince
      cases hr : c.isReset T with
      | true =>
          rw [Log.since_cons_right hp hr] at hsince
          cases hsince
      | false =>
          rw [Log.since_cons_other hp hr] at hsince
          obtain ⟨y, hy, hne⟩ := hi.taken hsince
          by_cases hT : c.task = T
          · subst hT
            refine ⟨x, hw.self, fun hx => ?_⟩
            rcases hopen hx with hreset | hnone | hpending
            · simp [Commit.isReset, hreset] at hr
            · rw [hy] at hnone
              cases hnone
            · rw [hy, Option.some.injEq] at hpending
              exact hne hpending
          · exact ⟨y, (hw.other hT).trans hy, hne⟩

/-- A row that has been claimed is there when `claim_task` reads it back. -/
def Sys.ClaimedThere (s : Sys) : Prop :=
  ∀ h hd n, s.handlers h = some hd → hd.pc = .claimed n → s.store.status hd.task_id ≠ none

structure LedgerInv (s : Sys) : Prop where
  task : ∀ T, Ledger s.store T
  there : s.ClaimedThere

theorem ledgerInv_start (jobs : Table Job) (now : Int) : LedgerInv (.start jobs now) where
  task _ := ⟨trivial, nofun⟩
  there := by intro _ _ _ h; cases h

/-! ## The step lemma -/

section Step

variable {env : Env} {s s' : Sys} {l : Sys.Label}

/-- A result written over whatever the row holds does not make it pending. -/
theorem Ledger.result {st st' : Store} {T : TaskId} {h : HandlerId} {task assigned : Task}
    (hi : Ledger st T) (hterm : assigned.status.terminal = true)
    (hflush : st.flush (.finished h) task assigned = some st') : Ledger st' T := by
  obtain ⟨x, hx, hw | hw⟩ := Store.flush_status hflush
  · exact hi.write hw nofun fun heq => .inr (.inr (heq ▸ hx))
  · refine hi.write hw nofun fun heq => ?_
    rw [heq] at hterm
    cases hterm

theorem ledger_step {T : TaskId} (hi : Ledger s.store T) (h : Sys.Step env s l s') :
    Ledger s'.store T := by
  have created : ∀ {st' : Store} {task : Task} {retry_of : Option TaskId},
      s.store.create task retry_of = some st' → Ledger st' T := by
    intro st' task retry_of hcreate
    obtain ⟨hnone, _, hw⟩ := Store.wrote_create hcreate
    exact hi.write hw (by rintro _ ⟨⟩) fun _ => .inr (.inl hnone)
  cases h with
  | create _ _ hcreate => exact created hcreate
  | work _ hstep =>
      cases hstep with
      | claim _ hclaim =>
          obtain ⟨hpending, hw⟩ := Store.wrote_claim hclaim
          exact hi.write hw (fun _ _ => ⟨hpending, by rintro ⟨⟩⟩) (by rintro ⟨⟩)
      | heartbeat _ hbeat =>
          obtain ⟨x, hx, hw⟩ := Store.wrote_heartbeat hbeat
          exact hi.write hw (by rintro _ ⟨⟩) fun heq => .inr (.inr (heq ▸ hx))
      | finish _ hflush => exact hi.result (recorded_terminal _ _ _ _) hflush
      | not_found _ hflush => exact hi.result rfl hflush
      | retry _ _ hcreate => exact created hcreate
      | _ => exact hi
  | recover hstep =>
      generalize s.passes _ = r at hstep
      cases hstep with
      | mark hflush =>
          obtain ⟨x, _, hw⟩ := Store.wrote_flush hflush
          exact hi.write hw (by rintro _ ⟨⟩) fun _ => .inl rfl
      | _ => exact hi
  | chain _ _ hflush =>
      obtain ⟨x, hx, hw⟩ := Store.wrote_flush hflush
      rw [Task.mark_processed_for_chaining, Orm.emit_clean] at hw
      exact hi.write hw (by rintro _ ⟨⟩) fun heq => .inr (.inr (heq ▸ hx))
  | _ => exact hi

/-- Only a claim that went through leads a handler to read its row back. -/
theorem claimed_row {now : Int} {jobs : Table Job} {h : HandlerId} {st st' : Store}
    {hd hd' : Handler} {a : WorkerAct} {n : Nat} (hstep : WorkStep now jobs h st hd a st' hd')
    (hpc : hd'.pc = .claimed n) :
    st'.status hd'.task_id ≠ none ∨ hd'.task_id = hd.task_id ∧ hd.pc = .claimed n := by
  cases hstep with
  | claim _ hclaim => exact .inl ((Store.wrote_claim hclaim).2.self ▸ nofun)
  | @check m =>
      rcases after_check_cases (st.tasks.get hd.task_id) m with ⟨_, hnext⟩ | hnext <;>
        rw [hnext] at hpc <;> cases hpc
  | recheck => cases hd' : deletable (st.tasks.get hd.task_id) <;> rw [hd'] at hpc <;> cases hpc
  | heartbeat => exact .inr ⟨rfl, hpc⟩
  | finish =>
      dsimp only at hpc
      split at hpc <;> cases hpc
  | _ => cases hpc

theorem ledgerInv_step (hi : LedgerInv s) (h : Sys.Step env s l s') : LedgerInv s' := by
  refine ⟨fun T => ledger_step (hi.task T) h, fun h₁ hd₁ n hh hpc => ?_⟩
  have hold : ∀ {h₁ hd₁ n}, s.handlers h₁ = some hd₁ → hd₁.pc = .claimed n →
      s'.store.status hd₁.task_id ≠ none :=
    fun hh hpc => status_ne_none (h.moves _) (hi.there _ _ _ hh hpc)
  cases h with
  | work hwork hstep =>
      rcases entries_update hh with ⟨_, rfl⟩ | hh
      · rcases claimed_row hstep hpc with hrow | ⟨hid, hpc⟩
        · exact hrow
        · exact hid ▸ hold hwork hpc
      · exact hold hh hpc
  | receive | resend | delete =>
      rcases entries_update hh with ⟨_, rfl⟩ | hh
      · cases hpc
      · exact hold hh hpc
  | _ => exact hold hh hpc

end Step

/-! ## The ledger -/

/-- `claim_task` has answered `None`, and changed no row. -/
def Sys.ClaimRefused (s s' : Sys) (h : HandlerId) (hd : Handler) : Prop :=
  s'.store = s.store ∧ ∃ n, s'.handlers h = some { hd with pc := .lost n }

/-- The `UPDATE` has matched: the task runs under the worker's id, it has one claim more, and
no other row has changed. -/
def Sys.ClaimMade (s s' : Sys) (h : HandlerId) (hd : Handler) : Prop :=
  (∃ n, s'.handlers h = some { hd with pc := .claimed n }) ∧
  (∃ row, s'.store.tasks.get hd.task_id = some row ∧ row.status = .running ∧
    row.locked_by = some hd.service.worker_id) ∧
  claims hd.task_id s'.store.log = claims hd.task_id s.store.log + 1 ∧
  ∀ T, T ≠ hd.task_id → s'.store.tasks.get T = s.store.tasks.get T

/-- The row that was claimed is read back, and `claim_task` answers it. -/
def Sys.ClaimAnswered (s s' : Sys) (h : HandlerId) (hd : Handler) : Prop :=
  s'.store = s.store ∧ ∃ row, s'.handlers h = some { hd with pc := .loaded row }

theorem claim_refused_or_made {env : Env} {s s' : Sys} {h : HandlerId} {hd : Handler}
    (hh : s.handlers h = some hd) (hst : Sys.Step env s (.work h .claim) s') :
    s.ClaimRefused s' h hd ∨ s.ClaimMade s' h hd := by
  cases hst with
  | work hh' hstep =>
      rw [hh] at hh'
      cases hh'
      cases hstep with
      | claim hpc hclaim =>
          obtain ⟨row, _, _, hlog, hget⟩ := Store.claim_task_spec hclaim
          refine .inr ⟨⟨_, Function.update_self _ _ _⟩,
            ⟨hd.service.claimed row s.now, ?_, rfl, rfl⟩, ?_, fun T hT => ?_⟩
          · simp only [hget, if_pos]
          · simp only [claims, hlog]
            exact List.countP_cons_of_pos (by simp [Commit.isClaim])
          · simp only [hget, if_neg (Ne.symm hT)]
      | claim_lost => exact .inl ⟨rfl, _, Function.update_self _ _ _⟩

theorem claim_answered {env : Env} {s s' : Sys} {h : HandlerId} {hd : Handler}
    (hi : s.ClaimedThere) (hh : s.handlers h = some hd)
    (hst : Sys.Step env s (.work h .load) s') : s.ClaimAnswered s' h hd := by
  cases hst with
  | work hh' hstep =>
      rw [hh] at hh'
      cases hh'
      cases hstep with
      | load => exact ⟨rfl, _, Function.update_self _ _ _⟩
      | load_none hpc hnone =>
          have hrow := hi h hd _ hh hpc
          rw [Store.status, hnone] at hrow
          exact absurd rfl hrow

/-- **The claim ledger.**  In every state of every run, each task has at most one claim more
than resets, with a reset between any two claims; and each `claim_task` call changes no row
and answers `None`, or takes its own row alone, to `running` under the worker's id, and
answers it. -/
theorem claim_ledger (env : Env) (jobs : Table Job) (now : Int) {s : Sys}
    (hrun : Run (Sys.Step env) Any (.start jobs now) s) :
    (∀ T, claims T s.store.log ≤ 1 + resets T s.store.log) ∧
    (∀ T newer c mid c' older, s.store.log = newer ++ c :: mid ++ c' :: older →
      c.isClaim T = true → c'.isClaim T = true → ∃ r ∈ mid, r.isReset T = true) ∧
    ∀ h hd s', s.handlers h = some hd →
      (Sys.Step env s (.work h .claim) s' → s.ClaimRefused s' h hd ∨ s.ClaimMade s' h hd) ∧
      (Sys.Step env s (.work h .load) s' → s.ClaimAnswered s' h hd) := by
  have hi : LedgerInv s :=
    hrun.invariant (fun hi _ h => ledgerInv_step hi h) (ledgerInv_start jobs now)
  refine ⟨fun T => ?_, fun T newer c mid c' older hlog hc hc' => ?_, fun h hd s' hh => ⟨?_, ?_⟩⟩
  · have hle := (hi.task T).alternates.countP_le
    unfold claims resets
    split at hle <;> omega
  · have halt := (hi.task T).alternates
    rw [hlog] at halt
    exact halt.between hc hc'
  · exact claim_refused_or_made hh
  · exact claim_answered hi.there hh

/-- A worker is never heard of again; its task is reset, and claimed by the next one. -/
theorem claim_ledger_reclaimed : ∃ s,
    Run (Sys.Step example_env) Any (.start .empty 0) s ∧
    claims 1 s.store.log = 2 ∧ resets 1 s.store.log = 1 ∧
    claims 1 s.store.log ≤ 1 + resets 1 s.store.log := by
  have h : Run (Sys.Step example_env) Any (.start .empty 0) (.start .empty 0) := .refl
  have h := h.snoc (l := Sys.Label.request (.create_job 1 example_one_time)) trivial
    (.request nofun rfl)
  have h := h.snoc (l := Sys.Label.accept (.one_time 1)) trivial (.accept rfl)
  have h := h.snoc (l := Sys.Label.create _ 1) trivial
    (.create List.mem_cons_self (by decide) rfl)
  have h := h.snoc trivial (.send (m := 1) List.mem_cons_self rfl)
  have h := h.snoc (l := Sys.Label.receive 1 1 example_worker) trivial (.receive rfl rfl rfl)
  have h := h.snoc trivial (.work (h := 1) rfl (.claim rfl rfl))
  have h := h.snoc trivial (.tick (d := seconds 31) (by decide))
  have h := h.snoc trivial (.recover (p := 1) .begin)
  have h := h.snoc (l := Sys.Label.recover 1 (.list 2)) trivial
    (.recover (.list (by decide) (.refl _)))
  have h := h.snoc (l := Sys.Label.recover 1 .mark) trivial (.recover (.mark rfl))
  have h := h.snoc (l := Sys.Label.receive 1 2 example_worker) trivial (.receive rfl rfl rfl)
  have h := h.snoc trivial (.work (h := 2) rfl (.claim rfl rfl))
  exact ⟨_, h, rfl, rfl, (claim_ledger example_env .empty 0 h).1 1⟩

end Dass
