/-
# `Dass.Delivery` — whether every live task has a message

A task is inserted in one commit and sent in a later call, a message is deleted
after the result is committed, and recovery resets rows without sending
anything.  So a pending or running row keeps a message (`no_task_stranded`) as
long as nothing comes between an insert and its send, and no reset brings a task
back whose result is recorded already: whoever recorded it deletes the message.
Everything else may fail or stop at any point.
-/
import Dass.OrphanRecovery

namespace Dass

open Lts

/-- The task is pending or running. -/
def Sys.Live (s : Sys) (T : TaskId) : Prop :=
  ∃ x, s.store.status T = some x ∧ x.terminal = false

/-- The task has its result. -/
def Store.Over (st : Store) (T : TaskId) : Prop :=
  ∃ x, st.status T = some x ∧ x.terminal = true

/-- Some queue holds a message for the task, visible or in flight. -/
def Sys.HasMessage (s : Sys) (T : TaskId) : Prop :=
  ∃ m message, s.messages m = some message ∧ message.task_id = T ∧ message.deleted = false

/-- The task waits for a message that nobody will send. -/
def Sys.Stranded (s : Sys) (T : TaskId) : Prop :=
  s.Live T ∧ ¬ s.InProgress T ∧ ¬ s.HasMessage T

/-- The handler goes by a result that the row has: it will record none, or has recorded
one, and then deletes the message. -/
def HandlerPc.relies : HandlerPc → Bool
  | .loaded task | .unfound task | .executing task _ => task.status.terminal
  | .failed _ _ | .resending _ _ | .done => true
  | _ => false

/-- No operation ends between its insert and its send, and a reset that takes a result
away finds the message still there and no handler that goes by that result. -/
def Sys.Delivers (s : Sys) : Sys.Label → Prop
  | .lose _ => False
  | .work h .fail => ∀ hd task id, s.handlers h = some hd → hd.pc ≠ .resending task id
  | .recover p .mark => ∀ task rest seen, s.passes p = some (.marking (task :: rest) seen) →
      s.store.Over task.id → s.HasMessage task.id ∧
        ∀ h hd, s.handlers h = some hd → hd.task_id = task.id → hd.pc.relies = false
  | _ => True

/-! ## The invariant -/

/-- What a handler knows of its task: the row it has loaded, and that it is over where
the handler goes by that. -/
def HandlerPc.Knows (st : Store) (T : TaskId) (pc : HandlerPc) : Prop :=
  (match pc with
    | .loaded task | .unfound task | .executing task _ => task.id = T
    | _ => True) ∧
  (pc.relies = true → st.Over T)

structure DeliveryInv (s : Sys) : Prop where
  message : ∀ m message, s.messages m = some message → s.store.status message.task_id ≠ none
  received : ∀ h hd, s.handlers h = some hd →
    ∃ message, s.messages hd.message = some message ∧ message.task_id = hd.task_id
  knows : ∀ h hd, s.handlers h = some hd → hd.pc.Knows s.store hd.task_id
  unsent : ∀ T, s.InProgress T → s.store.status T ≠ none
  delivered : ∀ T, s.Live T → s.InProgress T ∨ s.HasMessage T

theorem deliveryInv_start (jobs : Table Job) (now : Int) : DeliveryInv (.start jobs now) where
  message := by intro _ _ h; cases h
  received := by intro _ _ h; cases h
  knows := by intro _ _ h; cases h
  unsent := by
    rintro T (⟨_, h⟩ | ⟨_, _, _, h, _⟩)
    · cases h
    · cases h
  delivered := by
    rintro T ⟨x, h, _⟩
    cases h

/-! ## What a step does to each part -/

section Step

variable {env : Env} {s s' : Sys} {l : Sys.Label} {T : TaskId}

/-- A row that is there stays there. -/
theorem status_ne_none (h : s.Moves s' T l) (hT : s.store.status T ≠ none) :
    s'.store.status T ≠ none := by
  cases h with
  | stays heq => rwa [heq]
  | created hnone => exact absurd hnone hT
  | claimed _ _ _ hnew | result _ _ _ _ hnew | reset _ _ _ hnew => rw [hnew]; exact nofun

/-- A task keeps having a result, unless a reset takes it away. -/
theorem over_kept (h : s.Moves s' T l) (hT : s.store.Over T) :
    s'.store.Over T ∨ ∃ p task rest seen, l = .recover p .mark ∧
      s.passes p = some (.marking (task :: rest) seen) ∧ task.id = T := by
  obtain ⟨x, hx, hterm⟩ := hT
  cases h with
  | stays heq => exact .inl ⟨x, by rw [heq, hx], hterm⟩
  | created hnone => rw [hx] at hnone; cases hnone
  | claimed _ _ hpending =>
      rw [hx, Option.some.injEq] at hpending
      rw [hpending] at hterm
      cases hterm
  | result _ _ _ _ hnew hy => exact .inl ⟨_, hnew, hy⟩
  | reset hp hid => exact .inr ⟨_, _, _, _, rfl, hp, hid⟩

theorem over_kept_work {h : HandlerId} {a : WorkerAct} (hm : s.Moves s' T (.work h a))
    (hT : s.store.Over T) : s'.store.Over T := by
  rcases over_kept hm hT with hover | ⟨_, _, _, _, heq, _⟩
  · exact hover
  · cases heq

/-- A task that is live was live, or is just being created, or has just been reset. -/
theorem live_before (hl : s.Delivers l) (h : s.Moves s' T l) (hT : s'.Live T) :
    s.Live T ∨ s'.InProgress T ∨ (s.HasMessage T ∧ ∀ h, l ≠ .delete h) := by
  obtain ⟨y, hy, hlive⟩ := hT
  cases h with
  | stays heq => exact .inl ⟨y, by rw [← heq, hy], hlive⟩
  | created _ _ hprog => exact .inr (.inl hprog)
  | claimed _ _ hpending _ => exact .inl ⟨_, hpending, rfl⟩
  | result _ _ _ _ hnew hterm =>
      rw [hy, Option.some.injEq] at hnew
      rw [hnew, hterm] at hlive
      cases hlive
  | @reset _ _ _ _ x hp hid hx _ =>
      by_cases hterm : x.terminal = true
      · exact .inr (.inr ⟨hid ▸ (hl _ _ _ hp ⟨x, hid ▸ hx, hterm⟩).1, nofun⟩)
      · exact .inl ⟨x, hx, by simpa using hterm⟩

/-- An entry of an updated map: the new one, or one that was there. -/
theorem entries_update {ι ρ : Type*} [DecidableEq ι] {entries : ι → Option ρ} {k k' : ι}
    {new r : ρ} (h : Function.update entries k (some new) k' = some r) :
    (k' = k ∧ r = new) ∨ entries k' = some r := by
  rw [Function.update_apply] at h
  split at h
  · next heq => cases h; exact .inl ⟨heq, rfl⟩
  · exact .inr h

/-- A message keeps its task; one that is new is for a task whose operation was in progress. -/
theorem messages_before (h : Sys.Step env s l s') {m : MessageId} {message : Message}
    (hm : s'.messages m = some message) :
    (∃ old, s.messages m = some old ∧ old.task_id = message.task_id) ∨
      s.InProgress message.task_id := by
  cases h with
  | send hmem _ | resend hh hpc _ =>
      simp only [Function.update_apply] at hm
      split at hm
      · cases hm
        first | exact .inr (.inl ⟨_, hmem⟩) | exact .inr (.inr ⟨_, _, _, hh, hpc⟩)
      · exact .inl ⟨_, hm, rfl⟩
  | @delete _ _ old _ _ hmsg =>
      simp only [Function.update_apply] at hm
      split at hm
      · next heq => cases hm; exact .inl ⟨old, heq ▸ hmsg, rfl⟩
      · exact .inl ⟨_, hm, rfl⟩
  | _ => exact .inl ⟨_, hm, rfl⟩

/-- A message stays, and stays in its queue unless this step deletes it. -/
theorem messages_after (h : Sys.Step env s l s') {m : MessageId} {message : Message}
    (hm : s.messages m = some message) :
    ∃ new, s'.messages m = some new ∧ new.task_id = message.task_id ∧
      new.queue = message.queue ∧ (new.deleted = message.deleted ∨
        ∃ h hd, l = .delete h ∧ s.handlers h = some hd ∧ hd.pc = .done ∧ hd.message = m) := by
  cases h with
  | send _ hfree | resend _ _ hfree =>
      refine ⟨message, ?_, rfl, rfl, .inl rfl⟩
      simp only [Function.update_apply]
      split
      · next heq => rw [heq, hfree] at hm; cases hm
      · exact hm
  | @delete h hd old hh hpc hmsg =>
      simp only [Function.update_apply]
      split
      · next heq =>
          subst heq
          rw [hm] at hmsg
          cases hmsg
          exact ⟨_, rfl, rfl, rfl, .inr ⟨h, hd, rfl, hh, hpc, rfl⟩⟩
      · exact ⟨message, hm, rfl, rfl, .inl rfl⟩
  | _ => exact ⟨message, hm, rfl, rfl, .inl rfl⟩

/-- Only the insert of a retry task leads a handler to send. -/
theorem resending_row {now : Int} {jobs : Table Job} {h : HandlerId} {st st' : Store}
    {hd hd' : Handler} {a : WorkerAct} {task : Task} (hstep : WorkStep now jobs h st hd a st' hd')
    (hpc : hd'.pc = .resending task T) : st.status T = none ∧ st'.status T ≠ none := by
  cases hstep with
  | @check n =>
      rcases after_check_cases (st.tasks.get hd.task_id) n with ⟨_, hnext⟩ | hnext <;>
        rw [hnext] at hpc <;> cases hpc
  | recheck => cases hd' : deletable (st.tasks.get hd.task_id) <;> rw [hd'] at hpc <;> cases hpc
  | heartbeat hexec => rw [hexec] at hpc; cases hpc
  | finish =>
      dsimp only at hpc
      split at hpc <;> cases hpc
  | retry _ _ hcreate =>
      cases hpc
      obtain ⟨hnone, _, hw⟩ := Store.wrote_create hcreate
      exact ⟨hnone, hw.self ▸ nofun⟩
  | _ => cases hpc

/-- An operation in progress was in progress before, or has just made its task. -/
theorem inProgress_before (h : Sys.Step env s l s') (hT : s'.InProgress T) :
    s.InProgress T ∨ s.store.status T = none ∧ s'.store.status T ≠ none := by
  rcases hT with ⟨queue, hmem⟩ | ⟨h₁, hd₁, task, hh₁, hpc₁⟩
  · cases h with
    | create _ _ hcreate =>
        rcases List.mem_cons.mp hmem with heq | hmem
        · cases heq
          obtain ⟨hnone, _, hw⟩ := Store.wrote_create hcreate
          exact .inr ⟨hnone, hw.self ▸ nofun⟩
        · exact .inl (.inl ⟨queue, hmem⟩)
    | send | lose => exact .inl (.inl ⟨queue, List.mem_of_mem_erase hmem⟩)
    | _ => exact .inl (.inl ⟨queue, hmem⟩)
  · cases h with
    | receive | resend | delete =>
        rcases entries_update hh₁ with ⟨_, rfl⟩ | hh
        · cases hpc₁
        · exact .inl (.inr ⟨h₁, hd₁, task, hh, hpc₁⟩)
    | work _ hstep =>
        rcases entries_update hh₁ with ⟨_, rfl⟩ | hh
        · exact .inr (resending_row hstep hpc₁)
        · exact .inl (.inr ⟨h₁, hd₁, task, hh, hpc₁⟩)
    | _ => exact .inl (.inr ⟨h₁, hd₁, task, hh₁, hpc₁⟩)

/-- An operation stays in progress until it has sent its message. -/
theorem inProgress_after (hl : s.Delivers l) (h : Sys.Step env s l s') (hT : s.InProgress T) :
    s'.InProgress T ∨ s'.HasMessage T := by
  rcases hT with ⟨queue, hmem⟩ | ⟨h₁, hd₁, task, hh₁, hpc₁⟩
  · cases h with
    | create => exact .inl (.inl ⟨queue, List.mem_cons_of_mem _ hmem⟩)
    | @send id queue' m =>
        by_cases hid : id = T
        · exact .inr ⟨m, ⟨queue', id, false⟩, Function.update_self _ _ _, hid, rfl⟩
        · refine .inl (.inl ⟨queue, (List.mem_erase_of_ne fun heq => hid ?_).mpr hmem⟩)
          cases heq
          rfl
    | lose => exact hl.elim
    | _ => exact .inl (.inl ⟨queue, hmem⟩)
  · have other : ∀ {h hd'}, (h = h₁ → False) →
        Function.update s.handlers h (some hd') h₁ = some hd₁ := fun hne => by
      rw [Function.update_of_ne fun heq => hne heq.symm, hh₁]
    cases h with
    | receive _ _ hfree =>
        refine .inl (.inr ⟨h₁, hd₁, task, other fun heq => ?_, hpc₁⟩)
        rw [heq, hh₁] at hfree
        cases hfree
    | @work h hd a _ _ hh hstep =>
        refine .inl (.inr ⟨h₁, hd₁, task, other fun heq => ?_, hpc₁⟩)
        subst heq
        rw [hh₁] at hh
        cases hh
        cases hstep with
        | fail => exact hl hd₁ task T hh₁ hpc₁
        | _ => simp_all
    | @resend h hd _ id m hh hpc =>
        by_cases heq : h = h₁
        · subst heq
          rw [hh₁] at hh
          cases hh
          rw [hpc₁] at hpc
          cases hpc
          exact .inr ⟨m, _, Function.update_self _ _ _, rfl, rfl⟩
        · exact .inl (.inr ⟨h₁, hd₁, task, other heq, hpc₁⟩)
    | @delete h hd _ hh hpc =>
        refine .inl (.inr ⟨h₁, hd₁, task, other fun heq => ?_, hpc₁⟩)
        subst heq
        rw [hh₁] at hh
        cases hh
        rw [hpc₁] at hpc
        cases hpc
    | _ => exact .inl (.inr ⟨h₁, hd₁, task, hh₁, hpc₁⟩)

/-- A finished handler's message is one whose task is over. -/
theorem live_not_over (hT : s.Live T) : ¬ s.store.Over T := by
  rintro ⟨x, hx, hterm⟩
  obtain ⟨y, hy, hlive⟩ := hT
  rw [hx, Option.some.injEq] at hy
  rw [hy, hlive] at hterm
  cases hterm

/-- Recording a result leaves the task with one, sent or not. -/
theorem over_of_flush {st st' : Store} {what : What} {loaded assigned : Task}
    (hflush : st.flush what loaded assigned = some st')
    (hid : loaded.id = T) (hover : loaded.status.terminal = true → st.Over T)
    (hterm : assigned.status.terminal = true) : st'.Over T := by
  subst hid
  obtain ⟨x, hx, hw⟩ := Store.wrote_flush hflush
  by_cases heq : assigned.status = loaded.status
  · -- the status is not sent, so the row was over when it was loaded
    obtain ⟨y, hy, hyterm⟩ := hover (heq ▸ hterm)
    rw [heq, Orm.emit_clean] at hw
    rw [hx, Option.some.injEq] at hy
    exact ⟨x, hw.self, hy ▸ hyterm⟩
  · rw [Orm.emit_dirty heq] at hw
    exact ⟨_, hw.self, hterm⟩

theorem knows_work {now : Int} {jobs : Table Job} {h : HandlerId} {st st' : Store}
    {hd hd' : Handler} {a : WorkerAct} (hstep : WorkStep now jobs h st hd a st' hd')
    (hrow : st.status hd.task_id ≠ none) (hknows : hd.pc.Knows st hd.task_id)
    (hover : st.Over hd.task_id → st'.Over hd.task_id) :
    hd'.task_id = hd.task_id ∧ hd'.message = hd.message ∧ hd'.pc.Knows st' hd.task_id := by
  cases hstep with
  | load hpc hget =>
      exact ⟨rfl, rfl, Table.key_of_get hget, fun ht => ⟨_, Store.status_of_get hget, ht⟩⟩
  | @check n =>
      rcases after_check_cases (st.tasks.get hd.task_id) n with ⟨_, hnext⟩ | hnext <;>
        exact ⟨rfl, rfl, by rw [hnext]; exact ⟨trivial, by rintro ⟨⟩⟩⟩
  | recheck =>
      refine ⟨rfl, rfl, ?_⟩
      split
      · next hdel =>
          refine ⟨trivial, fun _ => ?_⟩
          cases hget : st.tasks.get hd.task_id with
          | none => exact absurd (by rw [Store.status, hget]; rfl) hrow
          | some row =>
              rw [hget] at hdel
              exact ⟨_, Store.status_of_get hget, hdel⟩
      · exact ⟨trivial, by rintro ⟨⟩⟩
  | lookup hpc | lookup_none hpc =>
      rw [hpc] at hknows
      exact ⟨rfl, rfl, hknows⟩
  | heartbeat => exact ⟨rfl, rfl, hknows.1, fun ht => hover (hknows.2 ht)⟩
  | finish hpc hflush =>
      rw [hpc] at hknows
      have hdone := over_of_flush hflush hknows.1 hknows.2 (recorded_terminal _ _ _ _)
      refine ⟨rfl, rfl, ?_⟩
      dsimp only
      split <;> exact ⟨trivial, fun _ => hdone⟩
  | not_found hpc hflush =>
      rw [hpc] at hknows
      exact ⟨rfl, rfl, trivial, fun _ => over_of_flush hflush hknows.1 hknows.2 rfl⟩
  | retry hpc =>
      rw [hpc] at hknows
      exact ⟨rfl, rfl, trivial, fun _ => hover (hknows.2 rfl)⟩
  | _ => exact ⟨rfl, rfl, trivial, by rintro ⟨⟩⟩

/-- **The step lemma.** -/
theorem deliveryInv_step (hi : DeliveryInv s) (hl : s.Delivers l) (h : Sys.Step env s l s') :
    DeliveryInv s' := by
  have hmoves := h.moves
  have hhandler : ∀ h₁ hd₁, s'.handlers h₁ = some hd₁ →
      (∃ message, s'.messages hd₁.message = some message ∧ message.task_id = hd₁.task_id) ∧
      hd₁.pc.Knows s'.store hd₁.task_id := by
    -- a handler that did not move
    have hold : ∀ h₁ hd₁, s.handlers h₁ = some hd₁ →
        (∃ message, s'.messages hd₁.message = some message ∧ message.task_id = hd₁.task_id) ∧
        hd₁.pc.Knows s'.store hd₁.task_id := by
      intro h₁ hd₁ hh
      obtain ⟨message, hm, hid⟩ := hi.received h₁ hd₁ hh
      obtain ⟨new, hnew, hsame, _⟩ := messages_after h hm
      have hknows := hi.knows h₁ hd₁ hh
      refine ⟨⟨new, hnew, hsame.trans hid⟩, hknows.1, fun hrel => ?_⟩
      rcases over_kept (hmoves _) (hknows.2 hrel) with hover | ⟨p, task, _, _, rfl, hp, hid'⟩
      · exact hover
      · -- a reset leaves alone the tasks whose handlers go by their result
        have hnot := (hl _ _ _ hp (hid' ▸ hknows.2 hrel)).2 h₁ hd₁ hh hid'.symm
        rw [hrel] at hnot
        cases hnot
    intro h₁ hd₁ hh
    cases h with
    | receive hm =>
        rcases entries_update hh with ⟨_, rfl⟩ | hh
        · exact ⟨⟨_, hm, rfl⟩, trivial, nofun⟩
        · exact hold h₁ hd₁ hh
    | work hold' hstep =>
        rcases entries_update hh with ⟨_, rfl⟩ | hh
        · obtain ⟨⟨message, hm, hid⟩, _⟩ := hold _ _ hold'
          have hrow := hid ▸ hi.message _ _ hm
          obtain ⟨htask, hmessage, hknows⟩ :=
            knows_work hstep hrow (hi.knows _ _ hold') (over_kept_work (hmoves _))
          rw [htask, hmessage]
          exact ⟨⟨message, hm, hid⟩, hknows⟩
        · exact hold h₁ hd₁ hh
    | resend hold' hpc =>
        rcases entries_update hh with ⟨_, rfl⟩ | hh
        · have hnow := hold _ _ hold'
          rw [hpc] at hnow
          exact ⟨hnow.1, trivial, hnow.2.2⟩
        · exact hold h₁ hd₁ hh
    | delete hold' =>
        rcases entries_update hh with ⟨_, rfl⟩ | hh
        · exact ⟨(hold _ _ hold').1, trivial, nofun⟩
        · exact hold h₁ hd₁ hh
    | _ => exact hold h₁ hd₁ hh
  exact {
    message := by
      intro m message hm
      refine status_ne_none (hmoves _) ?_
      rcases messages_before h hm with ⟨old, hold, hid⟩ | hprog
      · exact hid ▸ hi.message m old hold
      · exact hi.unsent _ hprog
    received := fun h₁ hd₁ hh => (hhandler h₁ hd₁ hh).1
    knows := fun h₁ hd₁ hh => (hhandler h₁ hd₁ hh).2
    unsent := by
      intro T hT
      rcases inProgress_before h hT with hprog | ⟨_, hnew⟩
      · exact status_ne_none (hmoves T) (hi.unsent T hprog)
      · exact hnew
    delivered := by
      intro T hT
      rcases live_before hl (hmoves T) hT with hlive | hprog | ⟨⟨m, message, hm, hid, hdel⟩, hlab⟩
      · rcases hi.delivered T hlive with hprog | ⟨m, message, hm, hid, hdel⟩
        · exact inProgress_after hl h hprog
        · obtain ⟨new, hnew, hsame, _, hkept | ⟨h₁, hd₁, _, hh, hpc, hmid⟩⟩ := messages_after h hm
          · exact .inr ⟨m, new, hnew, hsame.trans hid, hkept.trans hdel⟩
          · -- whoever deletes the message knows that the task is over
            obtain ⟨message', hm', hid'⟩ := hi.received h₁ hd₁ hh
            rw [hmid, hm] at hm'
            cases hm'
            have hover := (hi.knows h₁ hd₁ hh).2 (by rw [hpc]; rfl)
            rw [← hid', hid] at hover
            exact absurd hover (live_not_over hlive)
      · exact .inl hprog
      · obtain ⟨new, hnew, hsame, _, hkept | ⟨h₁, _, heq, _⟩⟩ := messages_after h hm
        · exact .inr ⟨m, new, hnew, hsame.trans hid, hkept.trans hdel⟩
        · exact absurd heq (hlab h₁) }

end Step

/-- **No accepted task is stranded.**  In every state of every run in which no operation
ends between its insert and its send, and no reset takes a result away from a handler
that goes by it or from a task without a message, every pending or running task whose
creating operation is over has a message in some queue. -/
theorem no_task_stranded (env : Env) (jobs : Table Job) (now : Int) {s : Sys}
    (hrun : Run (Sys.Step env) Sys.Delivers (.start jobs now) s) (T : TaskId) :
    ¬ s.Stranded T := by
  have hi : DeliveryInv s :=
    hrun.invariant (fun hi hl h => deliveryInv_step hi hl h) (deliveryInv_start jobs now)
  rintro ⟨hlive, hprog, hmsg⟩
  rcases hi.delivered T hlive with h | h
  · exact hprog h
  · exact hmsg h

/-- A one-time job is created; its task is inserted, sent and received. -/
theorem received_task_not_stranded : ∃ s,
    Run (Sys.Step example_env) Sys.Delivers (.start .empty 0) s ∧ s.Live 1 ∧ ¬ s.Stranded 1 := by
  have h : Run (Sys.Step example_env) Sys.Delivers (.start .empty 0) (.start .empty 0) := .refl
  have h := h.snoc (l := Sys.Label.request (.create_job 1 example_one_time)) trivial
    (.request nofun rfl)
  have h := h.snoc (l := Sys.Label.accept (.one_time 1)) trivial (.accept rfl)
  have h := h.snoc (l := Sys.Label.create _ 1) trivial
    (.create List.mem_cons_self (by decide) rfl)
  have h := h.snoc (l := Sys.Label.send 1 1) trivial (.send List.mem_cons_self rfl)
  have h := h.snoc (l := Sys.Label.receive 1 1 example_worker) trivial
    (.receive rfl rfl rfl)
  exact ⟨_, h, ⟨.pending, rfl, rfl⟩, no_task_stranded example_env .empty 0 h 1⟩

/-- Its task is inserted, and `send_task` raises. -/
theorem unsent_task_stranded : ∃ s,
    Run (Sys.Step example_env) Any (.start .empty 0) s ∧ s.Stranded 1 := by
  have h : Run (Sys.Step example_env) Any (.start .empty 0) (.start .empty 0) := .refl
  have h := h.snoc (l := Sys.Label.request (.create_job 1 example_one_time)) trivial
    (.request nofun rfl)
  have h := h.snoc (l := Sys.Label.accept (.one_time 1)) trivial (.accept rfl)
  have h := h.snoc (l := Sys.Label.create _ 1) trivial
    (.create List.mem_cons_self (by decide) rfl)
  have h := h.snoc trivial (.lose List.mem_cons_self)
  refine ⟨_, h, ⟨.pending, rfl, rfl⟩, ?_, ?_⟩
  · rintro (⟨_, hmem⟩ | ⟨_, _, _, hh, _⟩)
    · cases hmem
    · cases hh
  · rintro ⟨_, _, hm, _⟩
    cases hm

end Dass
