/-
# `Dass.Routing` — which queue a task is sent to, and how often

Six operations make a task, each with the queue client it was handed:

    trigger, one_time       the normal queue      `manual`
    cron                    the scheduled queue   `scheduled`
    dependency              the normal queue      `dependency`
    POST /tasks/{id}/retry  the retry queue       the parent's
    `_handle_failure`       the retry queue       the parent's

An operation sends the task it has just made, once, and nobody else knows the
id; a redelivered message runs a task again without a send.  So a run keeps the
list of its `send_task` calls (`Traffic.calls`) without a task twice, and every
call goes where the row says (`sent_once`).  A call that raises counts too.
-/
import Dass.Delivery

namespace Dass

open Lts

/-- The queue a task belongs in, by what it was created with. -/
def queue_of (trigger_type : TriggerType) (retry_count : Nat) : QueueName :=
  if 0 < retry_count then .retry else
    match trigger_type with
    | .scheduled => .scheduled
    | .manual | .dependency => .normal

theorem queue_of_retry (trigger_type : TriggerType) (n : Nat) :
    queue_of trigger_type (n + 1) = .retry :=
  if_pos (Nat.succ_pos n)

/-- The queue of a row. -/
def Task.queue (row : Task) : QueueName := queue_of row.trigger_type row.retry_count

/-- What makes a task hands it to its queue, and only a cron dispatch makes a `scheduled`
task that is no retry. -/
structure NewTask.Routed (task : NewTask) : Prop where
  queue : task.queue = queue_of task.trigger_type task.retry_count
  cron : task.retry_count = 0 → task.trigger_type = .scheduled → ∃ j, task.origin = .cron j

theorem accept_routed {jobs : Table Job} {tasks : Table Task} {origin : Origin} {task : NewTask}
    (h : origin.accept jobs tasks = some task) : task.Routed := by
  cases origin with
  | trigger id =>
      obtain ⟨job, _, rfl⟩ := Option.map_eq_some_iff.mp h
      exact ⟨rfl, by rintro _ ⟨⟩⟩
  | one_time id | dependency id =>
      obtain ⟨job, _, h⟩ := Option.bind_eq_some_iff.mp h
      split at h
      · cases h
        exact ⟨rfl, by rintro _ ⟨⟩⟩
      · cases h
  | cron id =>
      obtain ⟨job, _, h⟩ := Option.bind_eq_some_iff.mp h
      split at h
      · cases h
      · cases h
        exact ⟨rfl, fun _ _ => ⟨id, rfl⟩⟩
  | retry id =>
      obtain ⟨row, _, h⟩ := Option.bind_eq_some_iff.mp h
      split at h
      · cases h
        exact ⟨(queue_of_retry _ _).symm, by rintro ⟨⟩⟩
      · cases h

/-! ## The calls of a run -/

/-- The calls of `send_task` in a step.  An operation that ends between its insert and the
return of its send may have made the call. -/
def Sys.sends (s : Sys) : Sys.Label → List (TaskId × QueueName)
  | .send id _ | .lose id => s.outbox.filter (·.1 = id)
  | .resend h _ | .work h .fail =>
      match (s.handlers h).map Handler.pc with
      | some (.resending _ id) => [(id, .retry)]
      | _ => []
  | _ => []

/-- The task a step makes, and what started it; a worker's retry is started by none of the
operations of `Origin`. -/
def Sys.Label.makes : Sys.Label → List (TaskId × Origin)
  | .create task id => [(id, task.origin)]
  | _ => []

/-- The system, with the calls and the creations of the run so far. -/
structure Traffic where
  sys : Sys
  calls : List (TaskId × QueueName)
  made : List (TaskId × Origin)

def Traffic.start (jobs : Table Job) (now : Int) : Traffic := ⟨.start jobs now, [], []⟩

inductive Traffic.Step (env : Env) : Traffic → Sys.Label → Traffic → Prop
  | step {t : Traffic} {l s'} : Sys.Step env t.sys l s' →
      Traffic.Step env t l ⟨s', t.calls ++ t.sys.sends l, t.made ++ l.makes⟩

/-! ## The invariant -/

/-- Who is to send a task, and where: its creating operation, from the outbox, or the
handler that made it as a retry. -/
def Sys.Owes (s : Sys) (e : TaskId × QueueName) : Option HandlerId → Prop
  | none => e ∈ s.outbox
  | some h => (∃ hd task, s.handlers h = some hd ∧ hd.pc = .resending task e.1) ∧ e.2 = .retry

/-- The entry is for a row, and names its queue. -/
def Sys.Right (s : Sys) (e : TaskId × QueueName) : Prop :=
  ∃ row, s.store.tasks.get e.1 = some row ∧ e.2 = row.queue

structure TrafficInv (t : Traffic) : Prop where
  calls : (t.calls.map Prod.fst).Nodup
  outbox : (t.sys.outbox.map Prod.fst).Nodup
  owner : ∀ e e' o o', t.sys.Owes e o → t.sys.Owes e' o' → e.1 = e'.1 → o = o'
  unsent : ∀ e o, t.sys.Owes e o → e.1 ∉ t.calls.map Prod.fst
  right : ∀ e, (e ∈ t.calls ∨ ∃ o, t.sys.Owes e o) → t.sys.Right e
  creating : ∀ task ∈ t.sys.creating, task.Routed
  cron : ∀ T row, t.sys.store.tasks.get T = some row → row.retry_count = 0 →
    row.trigger_type = .scheduled → ∃ j, (T, Origin.cron j) ∈ t.made
  sent : ∀ m message, t.sys.messages m = some message →
    (message.task_id, message.queue) ∈ t.calls

theorem trafficInv_start (jobs : Table Job) (now : Int) : TrafficInv (.start jobs now) where
  calls := List.nodup_nil
  outbox := List.nodup_nil
  owner := by
    rintro e e' (_ | h) o' ho
    · cases ho
    · obtain ⟨⟨_, _, hh, _⟩, _⟩ := ho
      cases hh
  unsent _ _ _ := List.not_mem_nil
  right := by
    rintro e (h | ⟨_ | h, ho⟩)
    · cases h
    · cases ho
    · obtain ⟨⟨_, _, hh, _⟩, _⟩ := ho
      cases hh
  creating := by intro _ h; cases h
  cron := by intro _ _ h; cases h
  sent := by intro _ _ h; cases h

/-! ## What a step changes -/

section Step

variable {env : Env} {t : Traffic} {s' : Sys} {l : Sys.Label}

/-- A row keeps its queue. -/
theorem Sys.Right.next {s s' : Sys} {e : TaskId × QueueName} (hst : s.store.Next s'.store)
    (h : s.Right e) : s'.Right e := by
  obtain ⟨row, hrow, hq⟩ := h
  obtain ⟨row', hrow', hsame⟩ := hst.same_run hrow
  refine ⟨row', hrow', ?_⟩
  rw [hq, Task.queue, Task.queue, hsame.trigger_type, hsame.retry_count]

/-- **The step lemma**: who owes a send owed it before or has made the task just now, and a
call discharges what was owed. -/
theorem TrafficInv.step (hi : TrafficInv t) (h : Sys.Step env t.sys l s')
    (houtbox : (s'.outbox.map Prod.fst).Nodup)
    (howes : ∀ e o, s'.Owes e o → t.sys.Owes e o ∨
      t.sys.store.tasks.get e.1 = none ∧ s'.Right e ∧ ∀ e' o', s'.Owes e' o' → e.1 = e'.1 → o = o')
    (hsends : t.sys.sends l = [] ∨ ∃ e o, t.sys.sends l = [e] ∧ t.sys.Owes e o ∧
      ∀ e' o', s'.Owes e' o' → e.1 ≠ e'.1)
    (hcreating : ∀ task ∈ s'.creating, task.Routed)
    (hsent : ∀ m message, s'.messages m = some message → (message.task_id, message.queue)
      ∈ t.calls ++ t.sys.sends l) :
    TrafficInv ⟨s', t.calls ++ t.sys.sends l, t.made ++ l.makes⟩ := by
  have hst := h.store
  have hright : ∀ e, (e ∈ t.calls ++ t.sys.sends l ∨ ∃ o, s'.Owes e o) → s'.Right e := by
    rintro e (hmem | ⟨o, ho⟩)
    · rcases List.mem_append.mp hmem with hold | hnew
      · exact (hi.right e (.inl hold)).next hst
      · rcases hsends with hnil | ⟨e', o, hone, ho, _⟩
        · rw [hnil] at hnew
          cases hnew
        · rw [hone, List.mem_singleton] at hnew
          exact (hi.right e (.inr ⟨o, hnew ▸ ho⟩)).next hst
    · rcases howes e o ho with hold | ⟨_, hr, _⟩
      · exact (hi.right e (.inr ⟨o, hold⟩)).next hst
      · exact hr
  refine ⟨?_, houtbox, fun e e' o o' ho ho' heq => ?_, fun e o ho => ?_, hright, hcreating,
    fun T row hrow hretry htrigger => ?_, hsent⟩
  · rcases hsends with hnil | ⟨e, o, hone, ho, _⟩
    · rw [hnil, List.append_nil]
      exact hi.calls
    · rw [hone, List.map_append, List.nodup_append]
      refine ⟨hi.calls, List.nodup_singleton _, fun a ha b hb hab => ?_⟩
      rw [List.map_singleton, List.mem_singleton] at hb
      exact hi.unsent e o ho (hb ▸ hab ▸ ha)
  · rcases howes e o ho with hold | ⟨_, _, hone⟩
    · rcases howes e' o' ho' with hold' | ⟨_, _, hone⟩
      · exact hi.owner e e' o o' hold hold' heq
      · exact (hone e o ho heq.symm).symm
    · exact hone e' o' ho' heq
  · rw [List.map_append, List.mem_append, not_or]
    refine ⟨fun hmem => ?_, fun hmem => ?_⟩
    · rcases howes e o ho with hold | ⟨hnone, _⟩
      · exact hi.unsent e o hold hmem
      · obtain ⟨e', he', heq⟩ := List.mem_map.mp hmem
        obtain ⟨row, hrow, _⟩ := hi.right e' (.inl he')
        rw [heq, hnone] at hrow
        cases hrow
    · rcases hsends with hnil | ⟨e', _, hone, _, hoff⟩
      · rw [hnil] at hmem
        cases hmem
      · rw [hone, List.map_singleton, List.mem_singleton] at hmem
        exact hoff e o ho hmem.symm
  · cases hold : t.sys.store.tasks.get T with
    | none =>
        rcases h.new_row hrow hold with ⟨task, rfl, hmem, rfl⟩ | ⟨_, _, _, _, _, _, _, rfl⟩
        · obtain ⟨j, hj⟩ := (hi.creating task hmem).cron hretry htrigger
          exact ⟨j, List.mem_append_right _ (hj ▸ List.mem_singleton_self _)⟩
        · cases hretry
    | some old =>
        obtain ⟨row', hrow', hsame⟩ := hst.same_run hold
        rw [hrow, Option.some.injEq] at hrow'
        subst hrow'
        obtain ⟨j, hj⟩ := hi.cron T old hold (hsame.retry_count ▸ hretry)
          (hsame.trigger_type ▸ htrigger)
        exact ⟨j, List.mem_append_left _ hj⟩

/-- A handler that moves to a point where it sends nothing owes nothing. -/
theorem owes_of_update {s s' : Sys} {h : HandlerId} {hd : Handler} {e : TaskId × QueueName}
    {o : Option HandlerId} (hhandlers : s'.handlers = Function.update s.handlers h (some hd))
    (houtbox : s'.outbox = s.outbox) (hpc : ∀ task id, hd.pc ≠ .resending task id)
    (ho : s'.Owes e o) : s.Owes e o ∧ o ≠ some h := by
  cases o with
  | none =>
      have hmem : e ∈ s'.outbox := ho
      exact ⟨show e ∈ s.outbox from houtbox ▸ hmem, nofun⟩
  | some h' =>
      obtain ⟨⟨hd', task, hh, hpc'⟩, hq⟩ := ho
      rw [hhandlers] at hh
      by_cases heq : h' = h
      · rw [heq, Function.update_self, Option.some.injEq] at hh
        exact absurd (hh ▸ hpc') (hpc task e.1)
      · rw [Function.update_of_ne heq] at hh
        exact ⟨⟨⟨hd', task, hh, hpc'⟩, hq⟩, fun h => heq (Option.some.inj h)⟩

/-- In the outbox, as elsewhere, a task stands once. -/
theorem filter_outbox {outbox : List (TaskId × QueueName)} (hnd : (outbox.map Prod.fst).Nodup)
    {e : TaskId × QueueName} (he : e ∈ outbox) :
    outbox.filter (·.1 = e.1) = [e] ∧ ∀ e' ∈ outbox.erase e, e.1 ≠ e'.1 := by
  induction outbox with
  | nil => cases he
  | cons x xs ih =>
      rw [List.map_cons, List.nodup_cons] at hnd
      rcases List.mem_cons.mp he with rfl | hmem
      · have hnone : ∀ y ∈ xs, e.1 ≠ y.1 :=
          fun y hy heq => hnd.1 (heq ▸ List.mem_map_of_mem hy)
        have hnil : xs.filter (·.1 = e.1) = [] :=
          List.filter_eq_nil_iff.mpr fun y hy h => hnone y hy (of_decide_eq_true h).symm
        refine ⟨?_, by rw [List.erase_cons_head]; exact hnone⟩
        rw [List.filter_cons_of_pos (by simp), hnil]
      · obtain ⟨hfilter, herase⟩ := ih hnd.2 hmem
        have hne : x.1 ≠ e.1 := fun heq => hnd.1 (heq ▸ List.mem_map_of_mem hmem)
        rw [List.filter_cons_of_neg (by simpa using hne), hfilter,
          List.erase_cons_tail (by simpa using fun heq : x = e => hne (heq ▸ rfl))]
        refine ⟨rfl, fun y hy => ?_⟩
        rcases List.mem_cons.mp hy with rfl | hy
        · exact hne.symm
        · exact herase y hy

/-- What is owed is owed for a row that is there. -/
theorem TrafficInv.known (hi : TrafficInv t) {e : TaskId × QueueName} {o : Option HandlerId}
    (ho : t.sys.Owes e o) {T : TaskId} (hnone : t.sys.store.tasks.get T = none) : e.1 ≠ T := by
  rintro rfl
  obtain ⟨row, hrow, _⟩ := hi.right e (.inr ⟨o, ho⟩)
  rw [hnone] at hrow
  cases hrow

/-- A step that inserts and sends nothing. -/
theorem TrafficInv.quiet (hi : TrafficInv t) (h : Sys.Step env t.sys l s')
    (houtbox : s'.outbox = t.sys.outbox) (howes : ∀ e o, s'.Owes e o → t.sys.Owes e o)
    (hsends : t.sys.sends l = []) (hcreating : ∀ task ∈ s'.creating, task.Routed)
    (hmessages : s'.messages = t.sys.messages) :
    TrafficInv ⟨s', t.calls ++ t.sys.sends l, t.made ++ l.makes⟩ := by
  refine hi.step h (houtbox ▸ hi.outbox) (fun e o ho => .inl (howes e o ho)) (.inl hsends)
    hcreating fun m message hm => ?_
  exact List.mem_append_left _ (hi.sent m message (hmessages ▸ hm))

/-- An operation is over: the outbox loses its entry. -/
theorem TrafficInv.by_operation (hi : TrafficInv t) (h : Sys.Step env t.sys l s')
    {e : TaskId × QueueName} (he : e ∈ t.sys.outbox)
    (houtbox : s'.outbox = t.sys.outbox.erase e) (hhandlers : s'.handlers = t.sys.handlers)
    (hsends : t.sys.sends l = t.sys.outbox.filter (·.1 = e.1))
    (hcreating : s'.creating = t.sys.creating)
    (hsent : ∀ m message, s'.messages m = some message → t.sys.messages m = some message ∨
      (message.task_id, message.queue) = e) :
    TrafficInv ⟨s', t.calls ++ t.sys.sends l, t.made ++ l.makes⟩ := by
  obtain ⟨hone, herase⟩ := filter_outbox hi.outbox he
  have howes : ∀ e' o, s'.Owes e' o → t.sys.Owes e' o := by
    rintro e' (_ | h) ho
    · have hmem : e' ∈ s'.outbox := ho
      exact List.mem_of_mem_erase (houtbox ▸ hmem)
    · obtain ⟨⟨hd, task, hh, hpc⟩, hq⟩ := ho
      exact ⟨⟨hd, task, hhandlers ▸ hh, hpc⟩, hq⟩
  have hoff : ∀ e' o, s'.Owes e' o → e.1 ≠ e'.1 := by
    intro e' o ho heq
    obtain rfl : none = o := hi.owner e e' none o he (howes e' o ho) heq
    have hmem : e' ∈ s'.outbox := ho
    exact herase e' (houtbox ▸ hmem) heq
  refine hi.step h ?_ (fun e o ho => .inl (howes e o ho))
    (.inr ⟨e, none, hsends.trans hone, he, hoff⟩) (hcreating ▸ hi.creating)
    fun m message hm => ?_
  · rw [houtbox]
    exact hi.outbox.sublist (List.erase_sublist.map _)
  · rcases hsent m message hm with hold | hnew
    · exact List.mem_append_left _ (hi.sent m message hold)
    · rw [hsends, hone, hnew]
      exact List.mem_append_right _ (List.mem_singleton_self e)

/-- A handler moves to a point where it sends nothing, perhaps from the send of its retry
task: then nobody is to send that one any more. -/
theorem TrafficInv.by_handler (hi : TrafficInv t) (h : Sys.Step env t.sys l s')
    {i : HandlerId} {hd' : Handler} (houtbox : s'.outbox = t.sys.outbox)
    (hhandlers : s'.handlers = Function.update t.sys.handlers i (some hd'))
    (hnext : ∀ task id, hd'.pc ≠ .resending task id)
    (hsends : t.sys.sends l = [] ∨ ∃ hd task id, t.sys.handlers i = some hd ∧
      hd.pc = .resending task id ∧ t.sys.sends l = [(id, .retry)])
    (hcreating : s'.creating = t.sys.creating)
    (hsent : ∀ m message, s'.messages m = some message →
      (∃ old, t.sys.messages m = some old ∧ old.task_id = message.task_id ∧
        old.queue = message.queue) ∨
      (message.task_id, message.queue) ∈ t.sys.sends l) :
    TrafficInv ⟨s', t.calls ++ t.sys.sends l, t.made ++ l.makes⟩ := by
  have howes : ∀ e o, s'.Owes e o → t.sys.Owes e o ∧ o ≠ some i :=
    fun e o ho => owes_of_update hhandlers houtbox hnext ho
  refine hi.step h (houtbox ▸ hi.outbox) (fun e o ho => .inl (howes e o ho).1) ?_
    (hcreating ▸ hi.creating) fun m message hm => ?_
  · rcases hsends with hnil | ⟨hd, task, id, hh, hpc, hone⟩
    · exact .inl hnil
    · have howed : t.sys.Owes (id, .retry) (some i) := ⟨⟨hd, task, hh, hpc⟩, rfl⟩
      refine .inr ⟨_, some i, hone, howed, fun e o ho heq => ?_⟩
      obtain ⟨hold, hne⟩ := howes e o ho
      exact hne (hi.owner _ e _ o howed hold heq).symm
  · rcases hsent m message hm with ⟨old, hold, hid, hq⟩ | hnew
    · rw [← hid, ← hq]
      exact List.mem_append_left _ (hi.sent m old hold)
    · exact List.mem_append_right _ hnew

/-- The step in which a handler makes a retry task: it is to send it. -/
theorem owes_retry (hi : TrafficInv t) {h : HandlerId} {hd : Handler} {task : Task} {job : Job}
    {id : TaskId} {st' : Store}
    (hcreate : t.sys.store.create (retry_task task job id t.sys.now) (some task.id) = some st')
    (hstore : s'.store = st') (houtbox : s'.outbox = t.sys.outbox)
    (hhandlers : s'.handlers
      = Function.update t.sys.handlers h (some { hd with pc := .resending task id })) :
    ∀ e o, s'.Owes e o → t.sys.Owes e o ∨ t.sys.store.tasks.get e.1 = none ∧ s'.Right e ∧
      ∀ e' o', s'.Owes e' o' → e.1 = e'.1 → o = o' := by
  obtain ⟨hnone, _, _, hget⟩ := Store.create_spec hcreate
  -- whoever owes a send owed it before, or is this handler with this task
  have howes : ∀ e o, s'.Owes e o → t.sys.Owes e o ∨ o = some h ∧ e.1 = id ∧ e.2 = .retry := by
    rintro e (_ | h₁) ho
    · have hmem : e ∈ s'.outbox := ho
      exact .inl (show e ∈ t.sys.outbox from houtbox ▸ hmem)
    · obtain ⟨⟨hd₁, task₁, hh₁, hpc₁⟩, hq⟩ := ho
      rw [hhandlers] at hh₁
      rcases entries_update hh₁ with ⟨rfl, rfl⟩ | hold
      · have hpc : HandlerPc.resending task id = .resending task₁ e.1 := hpc₁
        cases hpc
        exact .inr ⟨rfl, rfl, hq⟩
      · exact .inl ⟨⟨hd₁, task₁, hold, hpc₁⟩, hq⟩
  intro e o ho
  rcases howes e o ho with hold | ⟨rfl, rfl, hq⟩
  · exact .inl hold
  · refine .inr ⟨hnone, ⟨retry_task task job e.1 t.sys.now, ?_, ?_⟩, fun e' o' ho' heq => ?_⟩
    · rw [hstore, hget]
      exact if_pos rfl
    · rw [hq]
      exact (queue_of_retry _ _).symm
    · rcases howes e' o' ho' with hold | ⟨rfl, _⟩
      · exact absurd heq.symm (hi.known hold hnone)
      · rfl

/-- A step of a handler that neither makes a retry task nor stops at its send. -/
theorem work_quiet {now : Int} {jobs : Table Job} {h : HandlerId} {st st' : Store}
    {hd hd' : Handler} {a : WorkerAct} (hstep : WorkStep now jobs h st hd a st' hd')
    (hretry : ∀ id, a ≠ .retry id) (task : Task) (id : TaskId) : hd'.pc ≠ .resending task id := by
  cases hstep with
  | @check n =>
      show after_check _ _ ≠ _
      rcases after_check_cases (st.tasks.get hd.task_id) n with ⟨_, hnext⟩ | hnext
      · rw [hnext]
        rintro ⟨⟩
      · rw [hnext]
        rintro ⟨⟩
  | recheck | finish =>
      dsimp only
      split <;> rintro ⟨⟩
  | heartbeat hpc =>
      rw [hpc]
      rintro ⟨⟩
  | retry => exact absurd rfl (hretry _)
  | _ => rintro ⟨⟩

/-- A handler that stops at its send may have made the call. -/
theorem sends_work {h : HandlerId} {hd : Handler} (a : WorkerAct)
    (hh : t.sys.handlers h = some hd) : t.sys.sends (.work h a) = [] ∨ ∃ hd task id,
      t.sys.handlers h = some hd ∧ hd.pc = .resending task id ∧
        t.sys.sends (.work h a) = [(id, .retry)] := by
  cases a with
  | fail =>
      cases hpc : hd.pc with
      | resending task id => exact .inr ⟨hd, task, id, hh, hpc, by simp [Sys.sends, hh, hpc]⟩
      | _ => exact .inl (by simp [Sys.sends, hh, hpc])
  | _ => exact .inl rfl

theorem trafficInv_step {t' : Traffic} (hi : TrafficInv t) (h : Traffic.Step env t l t') :
    TrafficInv t' := by
  obtain ⟨h⟩ := h
  have hstep := h
  have hkept : ∀ m message, t.sys.messages m = some message →
      (∃ old, t.sys.messages m = some old ∧ old.task_id = message.task_id ∧
        old.queue = message.queue) ∨ (message.task_id, message.queue) ∈ t.sys.sends l :=
    fun m message hm => .inl ⟨message, hm, rfl, rfl⟩
  cases h with
  | accept haccept =>
      refine hi.quiet hstep rfl (fun _ _ ho => ho) rfl (fun task hmem => ?_) rfl
      rcases List.mem_cons.mp hmem with rfl | hmem
      · exact accept_routed haccept
      · exact hi.creating task hmem
  | abandon =>
      exact hi.quiet hstep rfl (fun _ _ ho => ho) rfl
        (fun task hmem => hi.creating task (List.mem_of_mem_erase hmem)) rfl
  | @create task id st' hmem _ hcreate =>
      obtain ⟨hnone, _, _, hget⟩ := Store.create_spec hcreate
      have hnew : ∀ e o, t.sys.Owes e o → e.1 ≠ id := fun e o ho => hi.known ho hnone
      refine hi.step hstep ?_ (fun e o ho => ?_) (.inl rfl)
        (fun task' hmem' => hi.creating task' (List.mem_of_mem_erase hmem'))
        fun m message hm => List.mem_append_left _ (hi.sent m message hm)
      · rw [List.map_cons, List.nodup_cons]
        refine ⟨fun hin => ?_, hi.outbox⟩
        obtain ⟨e, he, heq⟩ := List.mem_map.mp hin
        exact hnew e none he heq
      · cases o with
        | some h => exact .inl ho
        | none =>
            rcases List.mem_cons.mp ho with rfl | hold
            · have hqueue := (hi.creating task hmem).queue
              refine .inr ⟨hnone, ⟨_, (hget id).trans (if_pos rfl), hqueue⟩, ?_⟩
              rintro e' (_ | h) ho' heq
              · rfl
              · exact absurd heq.symm (hnew e' (some h) ho')
            · exact .inl hold
  | @send id queue m hmem =>
      refine hi.by_operation hstep hmem rfl rfl rfl rfl fun m' message hm => ?_
      rcases entries_update hm with ⟨_, rfl⟩ | hold
      · exact .inr rfl
      · exact .inl hold
  | lose hmem => exact hi.by_operation hstep hmem rfl rfl rfl rfl fun _ _ hm => .inl hm
  | receive =>
      exact hi.by_handler hstep rfl rfl (fun _ _ => by rintro ⟨⟩) (.inl rfl) rfl hkept
  | @work h hd a st' hd' hh hwork =>
      by_cases hretry : ∃ id, a = .retry id
      · obtain ⟨id, rfl⟩ := hretry
        cases hwork with
        | retry _ _ hcreate =>
            exact hi.step hstep hi.outbox (owes_retry hi hcreate rfl rfl rfl) (.inl rfl)
              hi.creating fun m message hm => List.mem_append_left _ (hi.sent m message hm)
      · exact hi.by_handler hstep rfl rfl (work_quiet hwork fun id heq => hretry ⟨id, heq⟩)
          (sends_work a hh) rfl hkept
  | @resend h hd task id m hh hpc hm =>
      have hone : t.sys.sends (.resend h m) = [(id, .retry)] := by
        simp only [Sys.sends, hh, Option.map_some, hpc]
      refine hi.by_handler hstep rfl rfl (fun _ _ => by rintro ⟨⟩)
        (.inr ⟨hd, task, id, hh, hpc, hone⟩) rfl fun m' message hm' => ?_
      rcases entries_update hm' with ⟨_, rfl⟩ | hold
      · exact .inr (hone ▸ List.mem_singleton_self _)
      · exact hkept m' message hold
  | delete hh hpc hm =>
      refine hi.by_handler hstep rfl rfl (fun _ _ => by rintro ⟨⟩) (.inl rfl) rfl
        fun m message hm' => ?_
      rcases entries_update hm' with ⟨rfl, rfl⟩ | hold
      · exact .inl ⟨_, hm, rfl, rfl⟩
      · exact hkept m message hold
  | _ => exact hi.quiet hstep rfl (fun _ _ ho => ho) rfl hi.creating rfl

end Step

/-- **Every task id is sent at most once, to its own queue.**  In every run, `send_task` is
called at most once with a task's id; the row is there, and the queue is the retry queue for
a retry, the scheduled queue for a `scheduled` task and the normal queue for a `manual` or
`dependency` one; a `scheduled` task that is no retry was made by the cron scheduler; every
message comes from such a call; and a recovery pass sends nothing. -/
theorem sent_once (env : Env) (jobs : Table Job) (now : Int) {t : Traffic}
    (hrun : Run (Traffic.Step env) Any (.start jobs now) t) :
    (t.calls.map Prod.fst).Nodup ∧
    (∀ T queue, (T, queue) ∈ t.calls → ∃ row, t.sys.store.tasks.get T = some row ∧
      (0 < row.retry_count → queue = .retry) ∧
      (row.retry_count = 0 → row.trigger_type = .scheduled → queue = .scheduled) ∧
      (row.retry_count = 0 → row.trigger_type = .manual ∨ row.trigger_type = .dependency →
        queue = .normal)) ∧
    (∀ T row, t.sys.store.tasks.get T = some row → row.retry_count = 0 →
      row.trigger_type = .scheduled → ∃ j, (T, Origin.cron j) ∈ t.made) ∧
    (∀ m message, t.sys.messages m = some message →
      (message.task_id, message.queue) ∈ t.calls) ∧
    ∀ p a t', Traffic.Step env t (.recover p a) t' → t'.calls = t.calls ∧
      t'.sys.messages = t.sys.messages ∧ t'.sys.outbox = t.sys.outbox := by
  have hi : TrafficInv t :=
    hrun.invariant (fun hi _ h => trafficInv_step hi h) (trafficInv_start jobs now)
  refine ⟨hi.calls, fun T queue hmem => ?_, hi.cron, hi.sent, ?_⟩
  · obtain ⟨row, hrow, hq⟩ := hi.right _ (.inl hmem)
    have hq : queue = queue_of row.trigger_type row.retry_count := hq
    refine ⟨row, hrow, fun hpos => ?_, fun hzero htrigger => ?_, fun hzero htrigger => ?_⟩
    · rw [hq]
      exact if_pos hpos
    · rw [hq, hzero, htrigger]
      rfl
    · rcases htrigger with htrigger | htrigger
      · rw [hq, hzero, htrigger]
        rfl
      · rw [hq, hzero, htrigger]
        rfl
  · rintro p a t' ⟨h⟩
    cases h with
    | recover => exact ⟨List.append_nil _, rfl, rfl⟩

/-- A one-time job is created, its task is inserted and sent: one call, to the normal queue. -/
theorem sent_once_normal : ∃ t,
    Run (Traffic.Step example_env) Any (.start .empty 0) t ∧ t.calls = [(1, .normal)] ∧
    (t.calls.map Prod.fst).Nodup := by
  have h : Run (Traffic.Step example_env) Any (.start .empty 0) (.start .empty 0) := .refl
  have h := h.snoc (l := Sys.Label.request (.create_job 1 example_one_time)) trivial
    ⟨.request nofun rfl⟩
  have h := h.snoc (l := Sys.Label.accept (.one_time 1)) trivial ⟨.accept rfl⟩
  have h := h.snoc (l := Sys.Label.create _ 1) trivial
    ⟨.create List.mem_cons_self (by decide) rfl⟩
  have h := h.snoc (l := Sys.Label.send 1 1) trivial ⟨.send List.mem_cons_self rfl⟩
  exact ⟨_, h, rfl, (sent_once example_env .empty 0 h).1⟩

end Dass
