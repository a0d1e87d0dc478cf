/-
# `Dass.QueuePool` — how many messages a pool has at a time

`_run_queue_pool` of `backend/app/cli.py`, on its event loop.  The loop works out a
budget, awaits `receive_tasks`, makes a coroutine of every message and goes
straight back to its budget; a coroutine runs only while the loop awaits
something:

    wait       the budget is spent: the loop sleeps
    request    there is room: it awaits `receive_tasks`
    receive    messages arrive, at most as many as were asked for
    raise      … or the call raises, and the loop sleeps
    wake       the sleep is over
    start      a scheduled coroutine runs for the first time, and is counted
    finish     it ends, and is no longer counted
    cancel     the loop is cancelled

The counter is bumped by the coroutine, so the budget worked out right after a
batch does not know of the batch.  A pool holds up to twice what it is meant to
(`at_most_twice`, `four_at_once`), and stays within its budget as long as the call
made on such a budget brings no more than there is room for (`within_budget`).
-/
import Dass.Lib.Run
import Mathlib.Data.List.Basic

namespace Dass

open Lts

/-- Where the loop of a pool stands. -/
inductive PoolPc where
  | computing
  | sleeping
  /-- awaiting `receive_tasks` with this budget; `unstarted` coroutines had been scheduled and
  had not run when it was worked out -/
  | receiving (available : Int) (unstarted : Nat)
  | cancelled
deriving DecidableEq

/-- The loop awaits something: the other coroutines may run. -/
def PoolPc.yielded : PoolPc → Bool
  | .computing => false
  | .sleeping | .receiving _ _ | .cancelled => true

/-- A pool, with the messages its coroutines handle. -/
structure Pool (μ : Type) where
  pc : PoolPc
  in_flight : Int
  scheduled : List μ
  running : List μ

variable {μ : Type}

def Pool.start : Pool μ := ⟨.computing, 0, [], []⟩

/-- The messages that were received and are not done with. -/
def Pool.unfinished (pool : Pool μ) : Nat := pool.scheduled.length + pool.running.length

inductive Pool.Label (μ : Type) where
  | wait | request
  | receive (messages : List μ)
  | raise | wake
  | start (message : μ)
  | finish (message : μ)
  | cancel

/-- `available`. -/
def Pool.available (MAX_CONCURRENT_PER_QUEUE : Nat) (pool : Pool μ) : Int :=
  MAX_CONCURRENT_PER_QUEUE - pool.in_flight

inductive Pool.Step [DecidableEq μ] (MAX_CONCURRENT_PER_QUEUE : Nat) :
    Pool μ → Pool.Label μ → Pool μ → Prop
  | wait {pool} : pool.pc = .computing → pool.available MAX_CONCURRENT_PER_QUEUE ≤ 0 →
      Pool.Step _ pool .wait { pool with pc := .sleeping }
  | request {pool} : pool.pc = .computing → ¬ pool.available MAX_CONCURRENT_PER_QUEUE ≤ 0 →
      Pool.Step _ pool .request { pool with
        pc := .receiving (pool.available MAX_CONCURRENT_PER_QUEUE) pool.scheduled.length }
  | receive {pool available unstarted messages} : pool.pc = .receiving available unstarted →
      messages.length ≤ available →
      Pool.Step _ pool (.receive messages) { pool with
        pc := .computing, scheduled := pool.scheduled ++ messages }
  | raise {pool available unstarted} : pool.pc = .receiving available unstarted →
      Pool.Step _ pool .raise { pool with pc := .sleeping }
  | wake {pool} : pool.pc = .sleeping → Pool.Step _ pool .wake { pool with pc := .computing }
  | start {pool message} : pool.pc.yielded = true → message ∈ pool.scheduled →
      Pool.Step _ pool (.start message) { pool with
        in_flight := pool.in_flight + 1
        scheduled := pool.scheduled.erase message
        running := message :: pool.running }
  | finish {pool message} : pool.pc.yielded = true → message ∈ pool.running →
      Pool.Step _ pool (.finish message) { pool with
        in_flight := pool.in_flight - 1
        running := pool.running.erase message }
  | cancel {pool} : pool.pc.yielded = true →
      Pool.Step _ pool .cancel { pool with pc := .cancelled }

/-- A call made while coroutines were waiting to start brings no more messages than there is
room for by then. -/
def Pool.HasRoom (MAX_CONCURRENT_PER_QUEUE : Nat) (pool : Pool μ) : Pool.Label μ → Prop
  | .receive messages => ∀ available unstarted, pool.pc = .receiving available unstarted →
      unstarted ≠ 0 → pool.unfinished + messages.length ≤ MAX_CONCURRENT_PER_QUEUE
  | _ => True

/-- The loop goes on only when every coroutine it had scheduled has run. -/
def Pool.StartsFirst (pool : Pool μ) : Pool.Label μ → Prop
  | .receive _ | .raise | .wake => pool.scheduled = []
  | _ => True

/-! ## The invariants -/

/-- The counter counts the coroutines that run; a budget worked out when none was waiting to
start stays within the room there is. -/
structure PoolInv (MAX_CONCURRENT_PER_QUEUE : Nat) (pool : Pool μ) : Prop where
  counted : pool.in_flight = pool.running.length
  budget : ∀ available, pool.pc = .receiving available 0 →
    pool.scheduled = [] ∧ pool.running.length + available ≤ MAX_CONCURRENT_PER_QUEUE
  room : pool.unfinished ≤ MAX_CONCURRENT_PER_QUEUE

theorem poolInv_start (M : Nat) : PoolInv M (Pool.start : Pool μ) where
  counted := rfl
  budget := nofun
  room := Nat.zero_le M

section Step

variable {M : Nat} {pool pool' : Pool μ} {l : Pool.Label μ}

theorem unfinished_receive (messages : List μ) (pc : PoolPc) :
    Pool.unfinished { pool with pc := pc, scheduled := pool.scheduled ++ messages }
      = pool.unfinished + messages.length := by
  simp only [Pool.unfinished, List.length_append]
  omega

/-- A coroutine that starts goes from one list to the other. -/
theorem unfinished_start [DecidableEq μ] {message : μ} (h : message ∈ pool.scheduled) :
    (pool.scheduled.erase message).length + (pool.running.length + 1) = pool.unfinished := by
  have hpos := List.length_pos_of_mem h
  rw [List.length_erase_of_mem h, Pool.unfinished]
  omega

/-- What a call brings fits, where the condition asks for no more than the budget does. -/
theorem room_receive (hi : PoolInv M pool) {messages : List μ} {available : Int}
    {unstarted : Nat} (hpc : pool.pc = .receiving available unstarted)
    (hlen : messages.length ≤ available) (hl : pool.HasRoom M (.receive messages)) :
    pool.unfinished + messages.length ≤ M := by
  cases hzero : unstarted with
  | succ n => exact hl available unstarted hpc (hzero ▸ Nat.succ_ne_zero n)
  | zero =>
      obtain ⟨hnone, hbudget⟩ := hi.budget available (hzero ▸ hpc)
      rw [Pool.unfinished, hnone, List.length_nil]
      omega

variable [DecidableEq μ]

theorem poolInv_step (hi : PoolInv M pool) (hl : pool.HasRoom M l)
    (h : Pool.Step M pool l pool') : PoolInv M pool' := by
  obtain ⟨hcounted, hbudget, hroom⟩ := hi
  cases h with
  | wait | raise | wake | cancel => exact ⟨hcounted, nofun, hroom⟩
  | request hpc hpos =>
      refine ⟨hcounted, fun available hnext => ?_, hroom⟩
      obtain ⟨rfl, hzero⟩ := PoolPc.receiving.inj hnext
      refine ⟨List.length_eq_zero_iff.mp hzero, ?_⟩
      rw [Pool.available]
      dsimp only
      omega
  | @receive available unstarted messages hpc hlen =>
      refine ⟨hcounted, nofun, ?_⟩
      rw [unfinished_receive]
      exact room_receive ⟨hcounted, hbudget, hroom⟩ hpc hlen hl
  | @start message _ hmem =>
      refine ⟨?_, fun available hpc => ?_, ?_⟩
      · dsimp only
        rw [hcounted, List.length_cons]
        omega
      · rw [(hbudget available hpc).1] at hmem
        cases hmem
      · have hsame := unfinished_start hmem
        rw [Pool.unfinished, List.length_cons, hsame]
        exact hroom
  | @finish message _ hmem =>
      have hpos := List.length_pos_of_mem hmem
      have hlen := List.length_erase_of_mem hmem
      refine ⟨?_, fun available hpc => ?_, ?_⟩
      · dsimp only
        rw [hcounted, hlen]
        omega
      · obtain ⟨hnone, hle⟩ := hbudget available hpc
        dsimp only
        rw [hlen]
        exact ⟨hnone, by omega⟩
      · rw [Pool.unfinished] at hroom ⊢
        dsimp only
        rw [hlen]
        omega

/-! ### Where the scheduled coroutines start first -/

/-- A budget is wrong by no more than the batch that was waiting to start. -/
structure TwiceInv (M : Nat) (pool : Pool μ) : Prop where
  counted : pool.in_flight = pool.running.length
  batch : pool.scheduled.length ≤ M
  budget : ∀ available unstarted, pool.pc = .receiving available unstarted →
    available ≤ M ∧ unstarted ≤ M ∧ pool.unfinished + available ≤ M + unstarted
  twice : pool.unfinished ≤ 2 * M

theorem twiceInv_step (hi : TwiceInv M pool) (hl : pool.StartsFirst l)
    (h : Pool.Step M pool l pool') : TwiceInv M pool' := by
  obtain ⟨hcounted, hbatch, hbudget, htwice⟩ := hi
  cases h with
  | wait | raise | wake | cancel => exact ⟨hcounted, hbatch, nofun, htwice⟩
  | request hpc hpos =>
      refine ⟨hcounted, hbatch, fun available unstarted hnext => ?_, htwice⟩
      obtain ⟨rfl, rfl⟩ := PoolPc.receiving.inj hnext
      simp only [Pool.available, Pool.unfinished]
      omega
  | @receive available unstarted messages hpc hlen =>
      obtain ⟨hle, hstarted, hfit⟩ := hbudget available unstarted hpc
      have hnone : pool.scheduled = [] := hl
      refine ⟨hcounted, ?_, nofun, ?_⟩
      · rw [hnone]
        dsimp only [List.nil_append]
        omega
      · rw [unfinished_receive]
        omega
  | @start message _ hmem =>
      have hsame := unfinished_start hmem
      have hlen := List.length_erase_of_mem hmem
      refine ⟨?_, ?_, fun available unstarted hpc => ?_, ?_⟩
      · dsimp only
        rw [hcounted, List.length_cons]
        omega
      · dsimp only
        omega
      · rw [Pool.unfinished, List.length_cons, hsame]
        exact hbudget available unstarted hpc
      · rw [Pool.unfinished, List.length_cons, hsame]
        exact htwice
  | @finish message _ hmem =>
      have hpos := List.length_pos_of_mem hmem
      have hlen := List.length_erase_of_mem hmem
      refine ⟨?_, hbatch, fun available unstarted hpc => ?_, ?_⟩
      · dsimp only
        rw [hcounted, hlen]
        omega
      · obtain ⟨hle, hstarted, hfit⟩ := hbudget available unstarted hpc
        simp only [Pool.unfinished, hlen] at hfit ⊢
        exact ⟨hle, hstarted, by omega⟩
      · simp only [Pool.unfinished, hlen] at htwice ⊢
        omega

/-- Where the loop goes on only after the coroutines it scheduled have started, as it does on
an event loop that runs them in order, a pool has at most twice the limit. -/
theorem at_most_twice (hrun : Run (Pool.Step M) Pool.StartsFirst .start pool) :
    pool.unfinished ≤ 2 * M := by
  have hi : TwiceInv M pool :=
    hrun.invariant (fun hi hl h => twiceInv_step hi hl h)
      ⟨rfl, Nat.zero_le M, nofun, Nat.zero_le _⟩
  exact hi.twice

end Step

/-- **A pool stays within its budget while the calls made on a stale one do.**  In every run
in which such calls bring no more than there is room for, the messages received and not done
with never exceed the limit; and a call exceeds it exactly when it breaks the condition. -/
theorem within_budget [DecidableEq μ] (M : Nat) {pool : Pool μ}
    (hrun : Run (Pool.Step M) (Pool.HasRoom M) .start pool) :
    pool.unfinished ≤ M ∧
    ∀ messages pool', Pool.Step M pool (.receive messages) pool' →
      (pool'.unfinished ≤ M ↔ pool.HasRoom M (.receive messages)) := by
  have hi : PoolInv M pool :=
    hrun.invariant (fun hi hl h => poolInv_step hi hl h) (poolInv_start M)
  refine ⟨hi.room, fun messages pool' h => ⟨fun hle => ?_, fun hl => (poolInv_step hi hl h).room⟩⟩
  cases h with
  | receive =>
      intro _ _ _ _
      rwa [unfinished_receive] at hle

/-- A message arrives; the loop works out its budget before the coroutine of the first one has
run and asks for two more, and one comes. -/
theorem within_budget_two : ∃ mid pool : Pool Nat,
    Run (Pool.Step 2) (Pool.HasRoom 2) .start mid ∧ mid.pc = .receiving 2 1 ∧
    Pool.Step 2 mid (.receive [2]) pool ∧ Run (Pool.Step 2) (Pool.HasRoom 2) .start pool ∧
    pool.running = [1] ∧ pool.scheduled = [2] ∧ pool.unfinished ≤ 2 := by
  have h : Run (Pool.Step 2) (Pool.HasRoom 2) (.start : Pool Nat) .start := .refl
  have h := h.snoc (l := Pool.Label.request) trivial (.request rfl (by decide))
  have h := h.snoc (l := Pool.Label.receive [1]) (by rintro _ _ ⟨⟩ hne; exact absurd rfl hne)
    (.receive rfl (by decide))
  have h := h.snoc (l := Pool.Label.request) trivial (.request rfl (by decide))
  have hmid := h.snoc (l := Pool.Label.start 1) trivial (.start rfl (by decide))
  have hroom := ((within_budget 2 hmid).2 [2] _ (.receive rfl (by decide))).mp (by decide)
  have h := hmid.snoc (l := Pool.Label.receive [2]) hroom (.receive rfl (by decide))
  exact ⟨_, _, hmid, rfl, .receive rfl (by decide), h, rfl, rfl, (within_budget 2 h).1⟩

/-- Two messages arrive; the loop asks for two more before the coroutines of the first two
have run; these start, and the next two arrive. -/
theorem four_at_once : ∃ pool : Pool Nat,
    Run (Pool.Step 2) Pool.StartsFirst .start pool ∧ ¬ pool.unfinished ≤ 2 := by
  have h : Run (Pool.Step 2) Pool.StartsFirst (.start : Pool Nat) .start := .refl
  have h := h.snoc (l := Pool.Label.request) trivial (.request rfl (by decide))
  have h := h.snoc (l := Pool.Label.receive [1, 2]) rfl (.receive rfl (by decide))
  have h := h.snoc (l := Pool.Label.request) trivial (.request rfl (by decide))
  have h := h.snoc (l := Pool.Label.start 1) trivial (.start rfl (by decide))
  have h := h.snoc (l := Pool.Label.start 2) trivial (.start rfl (by decide))
  have h := h.snoc (l := Pool.Label.receive [3, 4]) rfl (.receive rfl (by decide))
  exact ⟨_, h, by decide⟩

end Dass
