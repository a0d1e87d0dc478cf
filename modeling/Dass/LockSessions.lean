/-
# `Dass.LockSessions` — the leader lock, with the session behind it

`LeaderLock` of `backend/app/cli.py` once more, on the pool of one connection that
`run_scheduler` gives it.  `Dass.SchedulerLoop` has it with a connection that is there or not;
here is what the object does not see.  PostgreSQL counts an advisory lock for each session, and
only an unlock, which nobody sends, or the session's end takes it away.  `Connection.close`
gives a session that is alive back to the pool, with what it holds, and the next `connect`
takes it out again.

So standing down is not letting go.  An exception whose session is dead is harmless: the pool
discards the connection and the server the lock.  One that leaves the session alive (a timeout,
a cancelled statement) puts a leader's lock into the pool; the scheduler says it is no leader,
nobody else can become one, and at its next cycle it locks a second time.  The books are right
exactly as long as that does not happen (`lock_accounting`).
-/
import Dass.SchedulerLoop
import Mathlib.Data.List.Induction

namespace Dass

/-- A session as the server has it, with the number of times it holds the lock. -/
structure ServerSession where
  alive : Bool
  held : Nat
deriving DecidableEq

/-- The pool of one connection, and whether `_conn` has it. -/
inductive OnePool where
  /-- no connection; `connect` opens one -/
  | empty
  /-- `_conn is None`, and the pool keeps a session -/
  | idle (session : ServerSession)
  /-- `_conn` is a connection on the session -/
  | out (session : ServerSession)
deriving DecidableEq

/-- What comes of a statement on a session that is alive. -/
inductive Outcome where
  | ok
  /-- it raises, and the session lives; `executed` if the server had carried it out -/
  | error (executed : Bool)
  /-- it raises a disconnect; `orphaned` if the server keeps the session, and the lock with it -/
  | disconnect (orphaned : Bool)
deriving DecidableEq

/-- What comes of the calls `is_leader` may make. -/
structure Outcomes where
  connect : Bool
  select_1 : Outcome
  try_lock : Outcome
deriving DecidableEq

/-- A `LeaderLock`, its pool, and whether a session that is none of its own holds the lock. -/
structure PooledLock where
  pool : OnePool
  _is_leader : Bool
  others : Bool
deriving DecidableEq

namespace PooledLock

/-- `_reset`, where the session lives on. -/
def _reset (lock : PooledLock) (session : ServerSession) : PooledLock :=
  { lock with pool := .idle session, _is_leader := false }

/-- `_reset`, where the pool has discarded the connection. -/
def discarded (lock : PooledLock) (orphaned : Bool) : PooledLock :=
  { pool := .empty, _is_leader := false, others := lock.others || orphaned }

/-- The session after `pg_try_advisory_lock`, which a session that holds the lock gets again. -/
def locked (lock : PooledLock) (session : ServerSession) : ServerSession :=
  if lock.others then session else { session with held := session.held + 1 }

/-- `SELECT 1`, and what follows. -/
def check (lock : PooledLock) (session : ServerSession) (o : Outcomes) : PooledLock × Bool :=
  if session.alive then
    match o.select_1 with
    | .ok => (lock, true)
    | .error _ => (lock._reset session, false)
    | .disconnect orphaned => (lock.discarded orphaned, false)
  else (lock.discarded false, false)

/-- `SELECT pg_try_advisory_lock(:key)`, and what follows. -/
def try_lock (lock : PooledLock) (session : ServerSession) (o : Outcomes) : PooledLock × Bool :=
  if session.alive then
    match o.try_lock with
    | .ok => ({ lock with pool := .out (lock.locked session), _is_leader := !lock.others },
        !lock.others)
    | .error executed =>
        (lock._reset (if executed then lock.locked session else session), false)
    | .disconnect orphaned => (lock.discarded orphaned, false)
  else (lock.discarded false, false)

/-- `is_leader`. -/
def is_leader (lock : PooledLock) (o : Outcomes) : PooledLock × Bool :=
  match lock.pool with
  | .out session => if lock._is_leader then lock.check session o else lock.try_lock session o
  | .idle session =>
      if o.connect then { lock with _is_leader := false }.try_lock session o
      else ({ lock with _is_leader := false }, false)
  | .empty =>
      if o.connect then { lock with _is_leader := false }.try_lock ⟨true, 0⟩ o
      else ({ lock with _is_leader := false }, false)

/-- How often the sessions of the pool hold the lock. -/
def held (lock : PooledLock) : Nat :=
  match lock.pool with
  | .empty => 0
  | .idle session | .out session => session.held

/-- What happens between and besides the calls. -/
inductive Event where
  | is_leader (o : Outcomes)
  /-- the server ends the session, which lets go of the lock -/
  | die
  /-- another session takes the lock, where it can -/
  | take
  | release

def step (lock : PooledLock) : Event → PooledLock
  | .is_leader o => (lock.is_leader o).1
  | .die =>
      match lock.pool with
      | .empty => lock
      | .idle _ => { lock with pool := .idle ⟨false, 0⟩ }
      | .out _ => { lock with pool := .out ⟨false, 0⟩ }
  | .take => if lock.held = 0 then { lock with others := true } else lock
  | .release => { lock with others := false }

/-- After a run of events. -/
def after (lock : PooledLock) (events : List Event) : PooledLock := events.foldl step lock

/-- `LeaderLock.__init__`, in a world where another session may hold the lock already. -/
def start (others : Bool) : PooledLock := ⟨.empty, false, others⟩

/-! ## The accounting -/

/-- After a call: the lock is held once if it answered `True`, and not if `False`. -/
def Exact (r : PooledLock × Bool) : Prop := r.1.held = if r.2 then 1 else 0

/-- The session the call uses, if it gets one. -/
def session (lock : PooledLock) (o : Outcomes) : Option ServerSession :=
  match lock.pool with
  | .out session => some session
  | .idle session => if o.connect then some session else none
  | .empty => if o.connect then some ⟨true, 0⟩ else none

/-- The call asks for the session only, the lock being held. -/
def checks (lock : PooledLock) : Bool :=
  match lock.pool with
  | .out _ => lock._is_leader
  | _ => false

/-- No error leaves a session alive that holds the lock: neither a failed check of a leader's
session, nor a lock the server had granted. -/
def Clean (lock : PooledLock) (o : Outcomes) : Prop :=
  ∀ s ∈ lock.session o, s.alive = true →
    if lock.checks then ∀ executed, o.select_1 ≠ .error executed
    else lock.others = false → o.try_lock ≠ .error true

/-- The books: one hold for a leader whose session lives, none for anybody else, and the lock
is not held twice. -/
def Balanced (lock : PooledLock) : Prop :=
  match lock.pool with
  | .empty => lock._is_leader = false
  | .idle session => lock._is_leader = false ∧ session.held = 0
  | .out session =>
      session.held = (if session.alive && lock._is_leader then 1 else 0) ∧
      (session.alive = true → lock._is_leader = true → lock.others = false)

theorem balanced_start (others : Bool) : (start others).Balanced := rfl

section Call

variable {lock : PooledLock} {s : ServerSession} {o : Outcomes}

theorem discarded_balanced (orphaned : Bool) : (lock.discarded orphaned).Balanced := rfl

/-- Asking for the lock on a session without it. -/
theorem try_lock_exact (hs : s.held = 0) :
    (Exact (lock.try_lock s o) ↔
      (s.alive = true → lock.others = false → o.try_lock ≠ .error true)) ∧
    (Exact (lock.try_lock s o) → (lock.try_lock s o).1.Balanced) := by
  unfold try_lock
  cases halive : s.alive with
  | false => exact ⟨iff_of_true rfl nofun, fun _ => discarded_balanced false⟩
  | true =>
      rw [if_pos rfl]
      cases htry : o.try_lock with
      | ok =>
          cases hothers : lock.others with
          | true =>
              have hlocked : lock.locked s = s := if_pos hothers
              simp only [hlocked, Bool.not_true]
              refine ⟨iff_of_true hs nofun, fun _ => ⟨?_, nofun⟩⟩
              rw [hs, Bool.and_false]
              rfl
          | false =>
              have hlocked : lock.locked s = ⟨s.alive, s.held + 1⟩ := by
                rw [locked, if_neg (by rw [hothers]; exact Bool.false_ne_true)]
              simp only [hlocked, hs, halive, Bool.not_false]
              exact ⟨iff_of_true rfl fun _ _ => nofun, fun _ => ⟨rfl, fun _ _ => rfl⟩⟩
      | error executed =>
          cases executed with
          | false =>
              exact ⟨iff_of_true hs fun _ _ => by decide, fun _ => ⟨rfl, hs⟩⟩
          | true =>
              cases hothers : lock.others with
              | true =>
                  have hlocked : lock.locked s = s := if_pos hothers
                  simp only [if_true, hlocked]
                  exact ⟨iff_of_true hs nofun, fun _ => ⟨rfl, hs⟩⟩
              | false =>
                  have hlocked : lock.locked s = ⟨s.alive, s.held + 1⟩ := by
                    rw [locked, if_neg (by rw [hothers]; exact Bool.false_ne_true)]
                  have hexact : ¬ Exact (lock._reset (lock.locked s), false) := by
                    rw [hlocked]
                    intro h
                    cases h
                  exact ⟨iff_of_false hexact fun h => h rfl rfl rfl, fun h => absurd h hexact⟩
      | disconnect orphaned =>
          exact ⟨iff_of_true rfl fun _ _ => nofun, fun _ => discarded_balanced orphaned⟩

/-- Asking for the session of a leader. -/
theorem check_exact (hpool : lock.pool = .out s) (hleader : lock._is_leader = true)
    (hb : lock.Balanced) :
    (Exact (lock.check s o) ↔
      (s.alive = true → ∀ executed, o.select_1 ≠ .error executed)) ∧
    (Exact (lock.check s o) → (lock.check s o).1.Balanced) := by
  have hheld : s.held = if s.alive then 1 else 0 := by
    unfold Balanced at hb
    rw [hpool] at hb
    simpa only [hleader, Bool.and_true] using hb.1
  unfold check
  cases halive : s.alive with
  | false => exact ⟨iff_of_true rfl nofun, fun _ => discarded_balanced false⟩
  | true =>
      rw [halive] at hheld
      rw [if_pos rfl]
      cases hselect : o.select_1 with
      | ok =>
          have hlock : lock.held = 1 := by
            rw [held, hpool]
            exact hheld
          exact ⟨iff_of_true hlock fun _ _ => nofun, fun _ => hb⟩
      | error executed =>
          have hexact : ¬ Exact (lock._reset s, false) := by
            intro h
            have hzero : s.held = 0 := h
            rw [hheld] at hzero
            cases hzero
          exact ⟨iff_of_false hexact fun h => h rfl executed rfl, fun h => absurd h hexact⟩
      | disconnect orphaned =>
          exact ⟨iff_of_true rfl fun _ _ => nofun, fun _ => discarded_balanced orphaned⟩

/-- A call that uses the session `s`. -/
theorem clean_of_session (hs : lock.session o = some s) :
    lock.Clean o ↔ (s.alive = true →
      if lock.checks then ∀ executed, o.select_1 ≠ .error executed
      else lock.others = false → o.try_lock ≠ .error true) := by
  unfold Clean
  rw [hs]
  exact ⟨fun h => h s rfl, fun h _ hmem => by cases hmem; exact h⟩

/-- A call that gets no connection. -/
theorem clean_of_no_session (hs : lock.session o = none) : lock.Clean o := by
  unfold Clean
  rw [hs]
  nofun

/-- **One call**: with balanced books its answer is right if and only if it is clean, and
leaves the books balanced. -/
theorem is_leader_exact (hb : lock.Balanced) (o : Outcomes) :
    (Exact (lock.is_leader o) ↔ lock.Clean o) ∧
    (Exact (lock.is_leader o) → (lock.is_leader o).1.Balanced) := by
  obtain ⟨pool, leader, others⟩ := lock
  cases pool with
  | empty =>
      cases hconnect : o.connect with
      | false =>
          have hnone : session ⟨.empty, leader, others⟩ o = none := by
            simp [session, hconnect]
          have hcall : is_leader ⟨.empty, leader, others⟩ o = (⟨.empty, false, others⟩, false) := by
            simp [is_leader, hconnect]
          rw [hcall]
          exact ⟨iff_of_true rfl (clean_of_no_session hnone), fun _ => rfl⟩
      | true =>
          have hsome : session ⟨.empty, leader, others⟩ o = some ⟨true, 0⟩ := by
            simp [session, hconnect]
          have hcall : is_leader ⟨.empty, leader, others⟩ o
              = try_lock ⟨.empty, false, others⟩ ⟨true, 0⟩ o := by
            simp [is_leader, hconnect]
          rw [hcall, clean_of_session hsome]
          exact try_lock_exact rfl
  | idle s =>
      obtain ⟨_, hheld⟩ : _ ∧ s.held = 0 := hb
      cases hconnect : o.connect with
      | false =>
          have hnone : session ⟨.idle s, leader, others⟩ o = none := by
            simp [session, hconnect]
          have hcall : is_leader ⟨.idle s, leader, others⟩ o
              = (⟨.idle s, false, others⟩, false) := by
            simp [is_leader, hconnect]
          rw [hcall]
          exact ⟨iff_of_true hheld (clean_of_no_session hnone), fun _ => ⟨rfl, hheld⟩⟩
      | true =>
          have hsome : session ⟨.idle s, leader, others⟩ o = some s := by
            simp [session, hconnect]
          have hcall : is_leader ⟨.idle s, leader, others⟩ o
              = try_lock ⟨.idle s, false, others⟩ s o := by
            simp [is_leader, hconnect]
          rw [hcall, clean_of_session hsome]
          exact try_lock_exact hheld
  | out s =>
      rw [clean_of_session rfl]
      cases leader with
      | true => exact check_exact rfl rfl hb
      | false =>
          obtain ⟨hheld, _⟩ := hb
          rw [Bool.and_false] at hheld
          exact try_lock_exact hheld

/-- What the others and the server do keeps the books balanced. -/
theorem step_balanced {e : Event} (hb : lock.Balanced) (he : ∀ o, e ≠ .is_leader o) :
    (lock.step e).Balanced := by
  obtain ⟨pool, leader, others⟩ := lock
  cases e with
  | is_leader o => exact absurd rfl (he o)
  | die =>
      cases pool with
      | empty => exact hb
      | idle s => exact ⟨hb.1, rfl⟩
      | out s => exact ⟨rfl, nofun⟩
  | take =>
      simp only [step]
      split
      · next hzero =>
          cases pool with
          | empty => exact hb
          | idle s => exact hb
          | out s =>
              obtain ⟨hheld, _⟩ := hb
              refine ⟨hheld, fun halive hleader => ?_⟩
              have hs : s.held = 0 := hzero
              rw [halive, hleader, hs] at hheld
              cases hheld
      · exact hb
  | release =>
      cases pool with
      | empty => exact hb
      | idle s => exact hb
      | out s => exact ⟨hb.1, fun _ _ => rfl⟩

end Call

/-! ## Every run -/

/-- What holds of every call of a run, in the state it is made in. -/
def Calls (P : PooledLock → Outcomes → Prop) (lock : PooledLock) (events : List Event) : Prop :=
  ∀ before o, before ++ [.is_leader o] <+: events → P (lock.after before) o

theorem after_concat (lock : PooledLock) (before : List Event) (e : Event) :
    lock.after (before ++ [e]) = (lock.after before).step e := by
  rw [after, List.foldl_append]
  rfl

/-- As long as every call answers right the books are balanced. -/
theorem balanced_of_calls {P : PooledLock → Outcomes → Prop}
    (hP : ∀ {lock o}, Balanced lock → P lock o → Exact (lock.is_leader o)) {lock : PooledLock}
    {events : List Event} (hb : lock.Balanced) (hcalls : Calls P lock events)
    (before : List Event) (h : before <+: events) : (lock.after before).Balanced := by
  induction before using List.reverseRecOn with
  | nil => exact hb
  | append_singleton before e ih =>
      have hbefore := ih ((List.prefix_append before [e]).trans h)
      rw [after_concat]
      by_cases hcall : ∃ o, e = .is_leader o
      · obtain ⟨o, rfl⟩ := hcall
        exact (is_leader_exact hbefore o).2 (hP hbefore (hcalls before o h))
      · exact step_balanced hbefore fun o ho => hcall ⟨o, ho⟩

/-- **The books of the leader lock.**  Along any run of calls, with connections and statements
failing in any way, sessions ending, and others taking and releasing the lock: after every call
the sessions of the pool hold the lock once where the call answered `True` and not at all where
it answered `False`, if and only if no call of the run has left a session alive that holds the
lock and raised. -/
theorem lock_accounting (others : Bool) (events : List Event) :
    Calls (fun lock o => Exact (lock.is_leader o)) (start others) events ↔
      Calls Clean (start others) events := by
  constructor
  · intro hexact before o h
    have hb := balanced_of_calls (fun _ hcall => hcall) (balanced_start others) hexact before
      ((List.prefix_append _ _).trans h)
    exact (is_leader_exact hb o).1.mp (hexact before o h)
  · intro hclean before o h
    have hb := balanced_of_calls (fun hb hcall => (is_leader_exact hb _).1.mpr hcall)
      (balanced_start others) hclean before ((List.prefix_append _ _).trans h)
    exact (is_leader_exact hb o).1.mpr (hclean before o h)

/-- A call that goes well. -/
def example_call : Outcomes := ⟨true, .ok, .ok⟩

/-- A call whose check of the session is cancelled. -/
def example_cancelled : Outcomes := ⟨true, .error false, .ok⟩

/-- The scheduler leads, its check is cancelled, and it says it is no leader: its pool holds
the lock.  At the next call it leads again, and holds the lock twice. -/
theorem cancelled_check_keeps_lock :
    (¬ Calls (fun lock o => Exact (lock.is_leader o)) (start false)
      [.is_leader example_call, .is_leader example_cancelled, .is_leader example_call]) ∧
    ((start false).after [.is_leader example_call]).is_leader example_cancelled
      = (⟨.idle ⟨true, 1⟩, false, false⟩, false) ∧
    ((start false).after [.is_leader example_call, .is_leader example_cancelled]).is_leader
      example_call = (⟨.out ⟨true, 2⟩, true, false⟩, true) := by
  refine ⟨fun hexact => ?_, by decide, by decide⟩
  have h := hexact [.is_leader example_call] example_cancelled ⟨[.is_leader example_call], rfl⟩
  cases h

/-! ## The lock of `Dass.SchedulerLoop` -/

/-- The lock as `Dass.SchedulerLoop` has it. -/
def view (lock : PooledLock) : LeaderLock where
  _conn :=
    match lock.pool with
    | .empty | .idle _ => .closed
    | .out session => if session.alive then .alive else .dead
  _is_leader := lock._is_leader

/-- Where the lock is won, nobody else holds it, and the session is alive and out. -/
theorem try_lock_won {lock lock' : PooledLock} {s : ServerSession} {o : Outcomes}
    (h : lock.try_lock s o = (lock', true)) :
    s.alive = true ∧ lock.others = false ∧ lock'.view = ⟨.alive, true⟩ := by
  unfold try_lock at h
  cases halive : s.alive with
  | false =>
      rw [halive] at h
      cases h
  | true =>
      rw [halive, if_pos rfl] at h
      cases htry : o.try_lock with
      | ok =>
          rw [htry] at h
          obtain ⟨hlock, hothers⟩ := Prod.mk.inj h
          have hfree : lock.others = false := by simpa using hothers
          refine ⟨rfl, hfree, ?_⟩
          rw [← hlock, hothers]
          simp only [view, locked, hfree, halive, if_true, Bool.false_eq_true, if_false]
      | error executed | disconnect orphaned =>
          rw [htry] at h
          cases h

theorem check_won {lock lock' : PooledLock} {s : ServerSession} {o : Outcomes}
    (h : lock.check s o = (lock', true)) : s.alive = true ∧ lock' = lock := by
  unfold check at h
  cases halive : s.alive with
  | false =>
      rw [halive] at h
      cases h
  | true =>
      rw [halive, if_pos rfl] at h
      cases hselect : o.select_1 with
      | ok =>
          rw [hselect] at h
          exact ⟨rfl, (Prod.mk.inj h).1.symm⟩
      | error executed | disconnect orphaned =>
          rw [hselect] at h
          cases h

/-- **A call that answers `True` is a call of the plain lock that does**, when it is asked
whether the others leave the lock free. -/
theorem is_leader_view {lock lock' : PooledLock} {o : Outcomes}
    (h : lock.is_leader o = (lock', true)) :
    lock.view.is_leader (!lock.others) = (lock'.view, true) := by
  obtain ⟨pool, leader, others⟩ := lock
  have won : ∀ {s}, try_lock ⟨pool, false, others⟩ s o = (lock', true) →
      others = false ∧ lock'.view = ⟨.alive, true⟩ :=
    fun hwon => ⟨(try_lock_won hwon).2.1, (try_lock_won hwon).2.2⟩
  cases pool with
  | empty | idle s =>
      simp only [is_leader] at h
      split at h
      · obtain ⟨hothers, hview⟩ := won h
        rw [hview]
        simp only [view, LeaderLock.is_leader, hothers, Bool.not_false]
      · cases h
  | out s =>
      cases leader with
      | true =>
          obtain ⟨halive, rfl⟩ := check_won h
          simp only [view, LeaderLock.is_leader, halive, if_true]
      | false =>
          obtain ⟨halive, hothers, hview⟩ := try_lock_won h
          have hfree : others = false := hothers
          rw [hview]
          simp only [view, LeaderLock.is_leader, halive, hfree, if_true, Bool.false_eq_true,
            if_false, Bool.not_false]

end PooledLock

end Dass
