/-
# `Dass.Completion` — no state is a dead end

Workers stop at any point, their claims run out, replicas lag, requests go on.  Whatever has come
of that, a task that is pending or running can still be finished: its message is sent if it has
not been, its lock runs out and a recovery pass puts it back, and a worker receives the message,
claims the task and records what comes of it.  So the system can come to rest from wherever it is
(`comes_to_rest`), without another task and without a change to those that are over.

This needs what `no_task_stranded` and `running_iff_locked` need of the run: an operation does not
end between its insert and its send, a reset that takes a result away finds the message there and
nobody who relies on it, and `claim_task` reads back the row it has written.
-/
import Dass.Delivery
import Dass.LockColumns

namespace Dass

open Lts

/-- No send is lost, no result is reset under a handler, and a claim is read back. -/
def Sys.Recovers (s : Sys) (l : Sys.Label) : Prop := s.Delivers l ∧ s.ReadsBack l

/-- From some id on there is none. -/
def Ends {ρ : Type} (entries : Nat → Option ρ) : Prop := ∃ N, ∀ n, N ≤ n → entries n = none

theorem Ends.update {ρ : Type} {entries : Nat → Option ρ} (h : Ends entries) (k : Nat)
    (v : Option ρ) : Ends (Function.update entries k v) := by
  obtain ⟨N, hN⟩ := h
  refine ⟨max N (k + 1), fun n hn => ?_⟩
  rw [Function.update_of_ne (by omega)]
  exact hN n (by omega)

theorem Ends.exists_free {ρ : Type} {entries : Nat → Option ρ} (h : Ends entries) :
    ∃ n, entries n = none := by
  obtain ⟨N, hN⟩ := h
  exact ⟨N, hN N (Nat.le_refl N)⟩

/-! ## The invariant -/

structure RestInv (s : Sys) : Prop where
  delivery : DeliveryInv s
  lock : LockInv s
  messages : Ends s.messages
  handlers : Ends s.handlers
  passes : Ends s.passes

section Invariant

variable {env : Env} {s s' : Sys} {l : Sys.Label}

theorem restInv_start (jobs : Table Job) (now : Int) : RestInv (.start jobs now) where
  delivery := deliveryInv_start jobs now
  lock := lockInv_start jobs now
  messages := ⟨0, fun _ _ => rfl⟩
  handlers := ⟨0, fun _ _ => rfl⟩
  passes := ⟨0, fun _ _ => rfl⟩

theorem restInv_step (hi : RestInv s) (hl : s.Recovers l) (h : Sys.Step env s l s') :
    RestInv s' := by
  have hends : Ends s'.messages ∧ Ends s'.handlers ∧ Ends s'.passes := by
    cases h with
    | send => exact ⟨hi.messages.update _ _, hi.handlers, hi.passes⟩
    | receive => exact ⟨hi.messages, hi.handlers.update _ _, hi.passes⟩
    | work => exact ⟨hi.messages, hi.handlers.update _ _, hi.passes⟩
    | resend => exact ⟨hi.messages.update _ _, hi.handlers.update _ _, hi.passes⟩
    | delete => exact ⟨hi.messages.update _ _, hi.handlers.update _ _, hi.passes⟩
    | recover => exact ⟨hi.messages, hi.handlers, hi.passes.update _ _⟩
    | _ => exact ⟨hi.messages, hi.handlers, hi.passes⟩
  exact ⟨deliveryInv_step hi.delivery hl.1 h, lockInv_step hi.lock hl.2 h, hends.1, hends.2.1,
    hends.2.2⟩

theorem restInv_run (h : Run (Sys.Step env) Sys.Recovers s s') (hi : RestInv s) : RestInv s' :=
  h.invariant (fun hi hl hst => restInv_step hi hl hst) hi

end Invariant

/-! ## Finishing one task -/

/-- Steps that write to one task alone. -/
structure Sys.Leads (env : Env) (T : TaskId) (s t : Sys) : Prop where
  run : Run (Sys.Step env) Sys.Recovers s t
  others : ∀ T', T ≠ T' → t.store.status T' = s.store.status T'

section Leads

variable {env : Env} {T : TaskId} {s t u : Sys} {l : Sys.Label}

theorem Sys.Leads.trans (h₁ : Sys.Leads env T s t) (h₂ : Sys.Leads env T t u) :
    Sys.Leads env T s u where
  run := h₁.run.trans h₂.run
  others T' hT := (h₂.others T' hT).trans (h₁.others T' hT)

/-- A step that does not write to `tasks`. -/
theorem Sys.Leads.same (h : Sys.Step env s l t) (hl : s.Recovers l) (hstore : t.store = s.store) :
    Sys.Leads env T s t where
  run := .single hl h
  others T' _ := by rw [hstore]

/-- A step that writes to the task. -/
theorem Sys.Leads.wrote {what : What} {x : TaskStatus} (h : Sys.Step env s l t) (hl : s.Recovers l)
    (hw : s.store.Wrote t.store T what x) : Sys.Leads env T s t where
  run := .single hl h
  others _ hT := hw.other hT

variable (env)

/-- The message that is still to be sent is sent. -/
theorem leads_to_message (hi : RestInv s) (hlive : s.Live T) :
    ∃ t, Sys.Leads env T s t ∧ t.store = s.store ∧ t.HasMessage T := by
  obtain ⟨m, hm⟩ := hi.messages.exists_free
  have sent : ∀ queue, ∃ m' message, Function.update s.messages m
      (some (⟨queue, T, false⟩ : Message)) m' = some message ∧ message.task_id = T ∧
        message.deleted = false :=
    fun queue => ⟨m, _, Function.update_self _ _ _, rfl, rfl⟩
  rcases hi.delivery.delivered T hlive with (⟨queue, hmem⟩ | ⟨h, hd, task, hh, hpc⟩) | hhas
  · exact ⟨_, Sys.Leads.same (.send hmem hm) ⟨trivial, trivial⟩ rfl, rfl,
      sent queue⟩
  · exact ⟨_, Sys.Leads.same (.resend hh hpc hm) ⟨trivial, trivial⟩ rfl, rfl,
      sent .retry⟩
  · exact ⟨s, ⟨.refl, fun _ _ => rfl⟩, rfl, hhas⟩

/-- A replica that does not lag. -/
theorem table_at_length (st : Store) : st.table_at st.log.length = st.tasks := by
  unfold Store.table_at
  cases st.log with
  | nil => rfl
  | cons c cs => exact if_pos (Nat.lt_succ_self cs.length)

/-- A recovery pass lists the running tasks whose locks have run out, this one first. -/
theorem leads_to_listed {row : Task} {p : PassId} (hp : s.passes p = none)
    (hrow : s.store.tasks.get T = some row) (hexp : TaskRepository.expired s.now row = true) :
    ∃ t rest seen, Sys.Leads env T s t ∧ t.store = s.store ∧ t.messages = s.messages ∧
      t.passes p = some (.marking (row :: rest) seen) := by
  have hmem : row ∈ TaskRepository.list_expired_running s.store.tasks s.now :=
    TaskRepository.mem_list_expired_running.mpr
      ⟨Table.get_of_mem (Table.mem_of_get hrow), hexp⟩
  have hbegin : Sys.Step env s (.recover p .begin) { s with
      passes := Function.update s.passes p (some (.begun s.now)) } := by
    refine .recover ?_
    rw [hp]
    exact .begin
  have hlist : Sys.Step env { s with
        passes := Function.update s.passes p (some (.begun s.now)) }
      (.recover p (.list s.store.log.length)) { s with
        passes := Function.update (Function.update s.passes p (some (.begun s.now))) p
          (some (.marking
            (row :: (TaskRepository.list_expired_running s.store.tasks s.now).erase row)
            s.store.log.length)) } := by
    refine .recover ?_
    dsimp only
    rw [Function.update_self]
    refine .list le_rfl ?_
    rw [table_at_length]
    exact (List.perm_cons_erase hmem).symm
  have hleads : Sys.Leads env T s _ := (Sys.Leads.same hbegin ⟨trivial, trivial⟩ rfl).trans
    (Sys.Leads.same hlist ⟨trivial, trivial⟩ rfl)
  exact ⟨_, _, _, hleads, rfl, rfl, Function.update_self _ _ _⟩

/-- The first row of a pass is put back. -/
theorem leads_to_reset {row : Task} {p : PassId} {rest : List Task} {seen : Nat}
    (hp : s.passes p = some (.marking (row :: rest) seen))
    (hrow : s.store.tasks.get T = some row) (hrun : row.status = .running) :
    ∃ t, Sys.Leads env T s t ∧ t.messages = s.messages ∧ t.store.status T = some .pending := by
  obtain rfl : row.id = T := Table.key_of_get hrow
  have hstatus : s.store.status row.id = some .running := hrun ▸ Store.status_of_get hrow
  obtain ⟨st', hflush⟩ := Store.exists_flush hstatus .reset row.mark_running_expired_pending
  obtain ⟨x, -, hw⟩ := Store.wrote_flush hflush
  have hpending : Orm.emit row.status row.mark_running_expired_pending.status x = .pending :=
    Orm.emit_dirty (by rw [hrun]; exact nofun)
  rw [hpending] at hw
  have hstep : Sys.Step env s (.recover p .mark) { s with
      store := st', passes := Function.update s.passes p (some (.marking rest seen)) } := by
    refine .recover ?_
    rw [hp]
    exact .mark hflush
  refine ⟨_, Sys.Leads.wrote hstep ⟨?_, trivial⟩ hw, rfl, hw.self⟩
  -- the task is running, so the pass takes no result away
  rintro task rest' seen' hp' ⟨y, hy, hterm⟩
  rw [hp] at hp'
  cases hp'
  rw [hstatus] at hy
  cases hy
  cases hterm

/-- A running task is put back once its lock has run out. -/
theorem leads_to_pending (hi : RestInv s) (hlive : s.Live T) :
    ∃ t, Sys.Leads env T s t ∧ t.messages = s.messages ∧ t.store.status T = some .pending := by
  obtain ⟨x, hx, hterm⟩ := hlive
  cases x with
  | pending => exact ⟨s, ⟨.refl, fun _ _ => rfl⟩, rfl, hx⟩
  | success | failed | final_failed => cases hterm
  | running =>
      obtain ⟨row, hrow, hrun⟩ := Option.map_eq_some_iff.mp hx
      obtain ⟨deadline, hdeadline⟩ := Option.ne_none_iff_exists'.mp
        ((hi.lock.store.rows T row hrow).deadline.mp hrun)
      obtain ⟨p, hp⟩ := hi.passes.exists_free
      have htick : Sys.Step env s (.tick (max 0 (deadline + 1 - s.now))) { s with
          now := s.now + max 0 (deadline + 1 - s.now) } := .tick (le_max_left _ _)
      have hexp : TaskRepository.expired (s.now + max 0 (deadline + 1 - s.now)) row = true :=
        expired_iff.mpr ⟨hrun, deadline, hdeadline, by omega⟩
      obtain ⟨t, rest, seen, hlisted, hstore, hmessages, hpass⟩ :=
        leads_to_listed env (s := { s with
          now := s.now + max 0 (deadline + 1 - s.now) }) hp hrow hexp
      obtain ⟨u, hreset, hmessages', hpending⟩ :=
        leads_to_reset env hpass (by rw [hstore]; exact hrow) hrun
      exact ⟨u, ((Sys.Leads.same htick ⟨trivial, trivial⟩ rfl).trans hlisted).trans hreset,
        hmessages'.trans hmessages, hpending⟩

/-- A pending task can be claimed. -/
theorem exists_claim {st : Store} (service : WorkerService) (h : HandlerId) (now : Int)
    (hT : st.status T = some .pending) : ∃ st', st.claim_task service h T now = some st' := by
  obtain ⟨row, hrow, hpending⟩ := Option.map_eq_some_iff.mp hT
  unfold Store.claim_task
  rw [hrow]
  dsimp only
  rw [if_pos hpending]
  exact ⟨_, rfl⟩

/-- A worker receives the message and claims the task. -/
theorem leads_to_claimed (hi : RestInv s) (hT : s.store.status T = some .pending)
    (hmsg : s.HasMessage T) :
    ∃ t h hd n, Sys.Leads env T s t ∧ t.handlers h = some hd ∧ hd.task_id = T ∧
      hd.pc = .claimed n ∧ t.store.status T = some .running := by
  obtain ⟨m, message, hm, rfl, hdel⟩ := hmsg
  obtain ⟨h, hh⟩ := hi.handlers.exists_free
  obtain ⟨st', hclaim⟩ := exists_claim example_worker h s.now hT
  obtain ⟨-, hw⟩ := Store.wrote_claim hclaim
  have hreceive : Sys.Step env s (.receive m h example_worker) { s with
      handlers := Function.update s.handlers h
        (some ⟨example_worker, m, message.task_id, .claiming 0⟩) } := .receive hm hdel hh
  have hwork : Sys.Step env { s with
      handlers := Function.update s.handlers h
        (some ⟨example_worker, m, message.task_id, .claiming 0⟩) } (.work h .claim) _ :=
    .work (Function.update_self _ _ _) (.claim rfl hclaim)
  have hleads : Sys.Leads env message.task_id s _ :=
    (Sys.Leads.same hreceive ⟨trivial, trivial⟩ rfl).trans
      (Sys.Leads.wrote hwork ⟨trivial, trivial⟩ hw)
  exact ⟨_, h, _, 0, hleads, Function.update_self _ _ _, rfl, rfl, hw.self⟩

/-- It reads the row back. -/
theorem leads_to_loaded {h : HandlerId} {hd : Handler} {n : Nat} (hh : s.handlers h = some hd)
    (hpc : hd.pc = .claimed n) (hT : s.store.status hd.task_id = some .running) :
    ∃ t hd' row, Sys.Leads env hd.task_id s t ∧ t.store = s.store ∧ t.handlers h = some hd' ∧
      hd'.pc = .loaded row ∧ row.id = hd.task_id ∧ row.status = .running := by
  obtain ⟨row, hrow, hrun⟩ := Option.map_eq_some_iff.mp hT
  have hwork : Sys.Step env s (.work h .load) _ := .work hh (.load hpc hrow)
  have hleads : Sys.Leads env hd.task_id s _ := Sys.Leads.same hwork ⟨trivial, ?_⟩ rfl
  · exact ⟨_, _, row, hleads, rfl, Function.update_self _ _ _, rfl, Table.key_of_get hrow, hrun⟩
  · intro hd' row' hh' hrow'
    rw [hh] at hh'
    cases hh'
    rw [hrow] at hrow'
    cases hrow'
    exact hrun

/-- A result is recorded on a row that was loaded running. -/
theorem exists_result {st : Store} {row : Task} (assigned : Task) {x : TaskStatus} (what : What)
    (hT : st.status row.id = some x) (hrun : row.status = .running)
    (hterm : assigned.status.terminal = true) :
    ∃ st', st.flush what row assigned = some st' ∧ st.Wrote st' row.id what assigned.status := by
  obtain ⟨st', hflush⟩ := Store.exists_flush hT what assigned
  obtain ⟨y, -, hw⟩ := Store.wrote_flush hflush
  have hsent : Orm.emit row.status assigned.status y = assigned.status := by
    refine Orm.emit_dirty fun heq => ?_
    rw [heq, hrun] at hterm
    cases hterm
  rw [hsent] at hw
  exact ⟨st', hflush, hw⟩

/-- It runs the container, or finds that there is no job, and records that. -/
theorem leads_to_over {h : HandlerId} {hd : Handler} {row : Task} (hh : s.handlers h = some hd)
    (hpc : hd.pc = .loaded row) (hrun : row.status = .running) {x : TaskStatus}
    (hT : s.store.status row.id = some x) :
    ∃ t, Sys.Leads env row.id s t ∧ t.store.Over row.id := by
  cases hjob : s.jobs.get row.job_id with
  | some job =>
      have hlookup : Sys.Step env s (.work h .lookup) _ := .work hh (.lookup hpc hjob)
      have hterm := recorded_terminal row job ⟨true, none, none⟩ s.now
      obtain ⟨st', hflush, hw⟩ := exists_result _ (.finished h) hT hrun hterm
      have hfinish : Sys.Step env { s with
          handlers := Function.update s.handlers h (some { hd with pc := .executing row job }) }
          (.work h (.finish ⟨true, none, none⟩)) _ :=
        .work (Function.update_self _ _ _) (.finish rfl hflush)
      exact ⟨_, (Sys.Leads.same hlookup ⟨trivial, trivial⟩ rfl).trans
        (Sys.Leads.wrote hfinish ⟨trivial, trivial⟩ hw), _, hw.self, hterm⟩
  | none =>
      have hlookup : Sys.Step env s (.work h .lookup) _ := .work hh (.lookup_none hpc hjob)
      obtain ⟨st', hflush, hw⟩ := exists_result (recorded_not_found row s.now)
        (.finished h) hT hrun rfl
      have hfinish : Sys.Step env { s with
          handlers := Function.update s.handlers h (some { hd with pc := .unfound row }) }
          (.work h .not_found) _ :=
        .work (Function.update_self _ _ _) (.not_found rfl hflush)
      exact ⟨_, (Sys.Leads.same hlookup ⟨trivial, trivial⟩ rfl).trans
        (Sys.Leads.wrote hfinish ⟨trivial, trivial⟩ hw), _, hw.self, rfl⟩

/-- A live task can be finished, and the others left as they are. -/
theorem leads_to_finish (hi : RestInv s) (hlive : s.Live T) :
    ∃ t, Sys.Leads env T s t ∧ t.store.Over T := by
  obtain ⟨s₁, h₁, hstore, hmsg⟩ := leads_to_message env hi hlive
  have hlive₁ : s₁.Live T := by rwa [Sys.Live, hstore]
  have hi₁ := restInv_run h₁.run hi
  obtain ⟨s₂, h₂, hmessages, hpending⟩ := leads_to_pending env hi₁ hlive₁
  have hmsg₂ : s₂.HasMessage T := by rwa [Sys.HasMessage, hmessages]
  obtain ⟨s₃, h, hd, n, h₃, hh, rfl, hpc, hrun⟩ :=
    leads_to_claimed env (restInv_run h₂.run hi₁) hpending hmsg₂
  obtain ⟨s₄, hd', row, h₄, hstore₄, hh', hpc', hid, hrow⟩ := leads_to_loaded env hh hpc hrun
  rw [← hid] at h₁ h₂ h₃ h₄ hrun ⊢
  obtain ⟨s₅, h₅, hover⟩ := leads_to_over env hh' hpc' hrow (by rw [hstore₄]; exact hrun)
  exact ⟨s₅, (((h₁.trans h₂).trans h₃).trans h₄).trans h₅, hover⟩

end Leads

/-! ## Coming to rest -/

/-- Some tasks are finished, one after another. -/
theorem finish_all {env : Env} (tasks : List TaskId) {s : Sys} (hi : RestInv s)
    (hall : ∀ T, s.Live T → T ∈ tasks) :
    ∃ t, Run (Sys.Step env) Sys.Recovers s t ∧ (∀ T, ¬ t.Live T) ∧
      ∀ T, ¬ s.Live T → t.store.status T = s.store.status T := by
  induction tasks generalizing s with
  | nil => exact ⟨s, .refl, fun T hT => List.not_mem_nil (hall T hT), fun _ _ => rfl⟩
  | cons T₀ tasks ih =>
      by_cases hlive : s.Live T₀
      · obtain ⟨t, hleads, hover⟩ := leads_to_finish env hi hlive
        have hsame : ∀ T, T₀ ≠ T → (t.Live T ↔ s.Live T) := by
          intro T hT
          rw [Sys.Live, Sys.Live, hleads.others T hT]
        have hdone : ¬ t.Live T₀ := fun h => live_not_over h hover
        obtain ⟨u, hrun, hrest, hkept⟩ := ih (restInv_run hleads.run hi) fun T hT => by
          have hne : T₀ ≠ T := fun heq => hdone (heq ▸ hT)
          exact (List.mem_cons.mp (hall T ((hsame T hne).mp hT))).resolve_left (Ne.symm hne)
        refine ⟨u, hleads.run.trans hrun, hrest, fun T hT => ?_⟩
        have hne : T₀ ≠ T := fun heq => hT (heq ▸ hlive)
        rw [hkept T (mt (hsame T hne).mp hT), hleads.others T hne]
      · refine ih hi fun T hT => (List.mem_cons.mp (hall T hT)).resolve_left ?_
        rintro rfl
        exact hlive hT

/-- **No state is a dead end.**  After every run in which no operation ends between its insert and
its send, a reset that takes a result away finds the message there and nobody who relies on it, and
claims are read back, whatever else has failed or stopped, the system can come to rest: every task that is pending or running gets
its result, no other task is made, and those that are over keep theirs. -/
theorem comes_to_rest (env : Env) (jobs : Table Job) (now : Int) {s : Sys}
    (hrun : Run (Sys.Step env) Sys.Recovers (.start jobs now) s) :
    ∃ t, Run (Sys.Step env) Sys.Recovers s t ∧ (∀ T, ¬ t.Live T) ∧
      ∀ T, ¬ s.Live T → t.store.status T = s.store.status T := by
  refine finish_all (s.store.tasks.rows.map Task.id) (restInv_run hrun (restInv_start jobs now)) ?_
  rintro T ⟨x, hx, -⟩
  obtain ⟨row, hrow, -⟩ := Option.map_eq_some_iff.mp hx
  exact List.mem_map.mpr ⟨row, Table.mem_of_get hrow, Table.key_of_get hrow⟩

/-- A worker stops with the task it has claimed. -/
theorem comes_to_rest_abandoned : ∃ s, s.Live 1 ∧
    ∃ t, Run (Sys.Step example_env) Sys.Recovers s t ∧ (∀ T, ¬ t.Live T) ∧
      ∀ T, ¬ s.Live T → t.store.status T = s.store.status T := by
  have h : Run (Sys.Step example_env) Sys.Recovers (.start .empty 0) (.start .empty 0) := .refl
  have h := h.snoc (l := Sys.Label.request (.create_job 1 example_one_time)) ⟨trivial, trivial⟩
    (.request nofun rfl)
  have h := h.snoc (l := Sys.Label.accept (.one_time 1)) ⟨trivial, trivial⟩ (.accept rfl)
  have h := h.snoc (l := Sys.Label.create _ 1) ⟨trivial, trivial⟩
    (.create List.mem_cons_self (by decide) rfl)
  have h := h.snoc (l := Sys.Label.send 1 1) ⟨trivial, trivial⟩ (.send List.mem_cons_self rfl)
  have h := h.snoc (l := Sys.Label.receive 1 1 example_worker) ⟨trivial, trivial⟩
    (.receive rfl rfl rfl)
  have h := h.snoc (l := Sys.Label.work 1 .claim) ⟨trivial, trivial⟩ (.work rfl (.claim rfl rfl))
  have h := h.snoc (l := Sys.Label.work 1 .fail) ⟨by rintro _ _ _ ⟨⟩; exact nofun, trivial⟩
    (.work rfl .fail)
  exact ⟨_, ⟨.running, rfl, rfl⟩, comes_to_rest example_env .empty 0 h⟩

end Dass
