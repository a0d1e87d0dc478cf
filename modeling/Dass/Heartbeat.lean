/-
# `Dass.Heartbeat` — the lock of a row and the invisibility of its message

While a task executes, `_heartbeat` wakes up every 60 % of `claim_seconds` and
extends two deadlines, the row's lock and then the message's invisibility.  Each of
the two calls may raise, which is logged, and the `UPDATE` may match no row, which
nobody looks at.  So the message may stay hidden while the lock runs out: the row is
reset, and the only message that would lead a worker to it is not delivered.

`expire_together_iff` says when the two run out together.  An execution is given by
the moments of its calls and by what came of each, in microseconds.
-/
import Dass.WorkerService

namespace Dass

/-! ## Deadlines that are written again and again -/

/-- The last of the moments before `t`, or where it began. -/
def lastBefore (first : Int) (times : List Int) (t : Int) : Int :=
  times.foldl (fun last s => if s < t then s else last) first

/-- The moments come in order. -/
def InOrder : Int → List Int → Prop
  | _, [] => True
  | since, s :: rest => since ≤ s ∧ InOrder s rest

section LastBefore

variable {first t t' s : Int} {times : List Int}

theorem lastBefore_cons : lastBefore first (s :: times) t
    = lastBefore (if s < t then s else first) times t := rfl

theorem lastBefore_mem : lastBefore first times t = first ∨
    lastBefore first times t ∈ times ∧ lastBefore first times t < t := by
  induction times generalizing first with
  | nil => exact .inl rfl
  | cons s rest ih =>
      rw [lastBefore_cons]
      rcases @ih (if s < t then s else first) with heq | ⟨hmem, hlt⟩
      · rw [heq]
        split
        · next hlt => exact .inr ⟨List.mem_cons_self, hlt⟩
        · exact .inl rfl
      · exact .inr ⟨List.mem_cons_of_mem _ hmem, hlt⟩

theorem InOrder.weaken {first' : Int} (hle : first' ≤ first) (h : InOrder first times) :
    InOrder first' times := by
  cases times with
  | nil => trivial
  | cons s rest => exact ⟨hle.trans h.1, h.2⟩

theorem InOrder.first_le (h : InOrder first times) : first ≤ lastBefore first times t := by
  induction times generalizing first with
  | nil => exact le_rfl
  | cons s rest ih =>
      rw [lastBefore_cons]
      split
      · exact h.1.trans (ih h.2)
      · exact ih (h.2.weaken h.1)

/-- A moment before `t` is no later than the last one. -/
theorem InOrder.le_lastBefore (h : InOrder first times) (hs : s ∈ times) (hlt : s < t) :
    s ≤ lastBefore first times t := by
  induction times generalizing first with
  | nil => cases hs
  | cons x rest ih =>
      rw [lastBefore_cons]
      rcases List.mem_cons.mp hs with rfl | hmem
      · rw [if_pos hlt]
        exact h.2.first_le
      · split
        · exact ih h.2 hmem
        · exact ih (h.2.weaken h.1) hmem

theorem InOrder.lastBefore_mono (h : InOrder first times) (hle : t ≤ t') :
    lastBefore first times t ≤ lastBefore first times t' := by
  rcases @lastBefore_mem first t times with heq | ⟨hmem, hlt⟩
  · rw [heq]
    exact h.first_le
  · exact h.le_lastBefore hmem (hlt.trans_le hle)

/-- Nothing happens between the two moments. -/
theorem lastBefore_congr (h : ∀ s ∈ times, s < t ↔ s < t') :
    lastBefore first times t = lastBefore first times t' := by
  induction times generalizing first with
  | nil => rfl
  | cons s rest ih =>
      rw [lastBefore_cons, lastBefore_cons,
        ih fun x hx => h x (List.mem_cons_of_mem _ hx)]
      simp only [h s List.mem_cons_self]

end LastBefore

/-! ## The loop -/

/-- `interval`, in seconds. -/
def heartbeat_interval (claim_seconds : Int) : Int := max 1 (claim_seconds * 3 / 5)

inductive DbExtend where
  | extended | no_row | raised
deriving DecidableEq

inductive QueueExtend where
  | extended | raised
deriving DecidableEq

/-- One turn of the loop: when it makes its two calls, and what comes of them. -/
structure Iteration where
  db_at : Int
  db : DbExtend
  queue_at : Int
  queue : QueueExtend

/-- The turns follow one another, each after a sleep. -/
def Beats (interval : Int) : Int → List Iteration → Prop
  | _, [] => True
  | since, it :: rest =>
      since + interval ≤ it.db_at ∧ it.db_at ≤ it.queue_at ∧ Beats interval it.queue_at rest

/-- A task's execution, from the message that was received to the end of its container. -/
structure Execution where
  service : WorkerService
  received_at : Int
  claimed_at : Int
  started_at : Int
  iterations : List Iteration
  ended_at : Int

namespace Execution

variable (x : Execution)

def interval : Int := seconds (heartbeat_interval x.service.claim_seconds)

/-- The execution is one of the loop's. -/
structure Ordered : Prop where
  claimed : x.received_at ≤ x.claimed_at
  started : x.claimed_at ≤ x.started_at
  beats : Beats x.interval x.started_at x.iterations

/-- When the `UPDATE` matched the row. -/
def db_times : List Int := (x.iterations.filter (·.db = .extended)).map Iteration.db_at

/-- When `change_message_visibility` took effect. -/
def queue_times : List Int := (x.iterations.filter (·.queue = .extended)).map Iteration.queue_at

/-- `locked_until` of this claim, as it is at `t`. -/
def locked_until (t : Int) : Int :=
  lastBefore x.claimed_at x.db_times t + seconds x.service.claim_seconds

/-- The end of the message's invisibility, as it is at `t`. -/
def invisible_until (t : Int) : Int :=
  lastBefore x.received_at x.queue_times t + seconds x.service.claim_seconds

/-- Whenever the lock has expired, the invisibility ends within a heartbeat of it. -/
def ExpireTogether : Prop :=
  ∀ t, x.started_at ≤ t → t ≤ x.ended_at → x.locked_until t < t →
    x.invisible_until t ≤ x.locked_until t + x.interval

/-- Every extension of the invisibility comes within a heartbeat of the lock's last one, or
the lock is extended again, or the execution ends, before the lock runs out. -/
def LockedInTime : Prop :=
  ∀ q ∈ x.queue_times, q < x.ended_at →
    -- the lock as the turn of `q` leaves it
    q + seconds x.service.claim_seconds ≤ x.locked_until (q + 1) + x.interval ∨
    x.ended_at ≤ x.locked_until (q + 1) ∨
    ∃ d ∈ x.db_times, q < d ∧ d ≤ x.locked_until (q + 1)

end Execution

theorem interval_pos (x : Execution) : 0 < x.interval := by
  have hpos : 1 ≤ heartbeat_interval x.service.claim_seconds := le_max_left _ _
  rw [Execution.interval, seconds]
  omega

theorem Beats.calls {interval since : Int} {its : List Iteration} {it : Iteration}
    (h : Beats interval since its) (hit : it ∈ its) : it.db_at ≤ it.queue_at := by
  induction its generalizing since with
  | nil => cases hit
  | cons x rest ih =>
      obtain ⟨_, hcalls, hrest⟩ := h
      rcases List.mem_cons.mp hit with rfl | hmem
      · exact hcalls
      · exact ih hrest hmem

/-- The calls of one kind that took effect come in order. -/
theorem Beats.inOrder {interval since : Int} {its : List Iteration} (hpos : 0 < interval)
    (h : Beats interval since its) (p : Iteration → Bool) :
    InOrder since ((its.filter p).map Iteration.db_at) ∧
      InOrder since ((its.filter p).map Iteration.queue_at) := by
  induction its generalizing since with
  | nil => exact ⟨trivial, trivial⟩
  | cons it rest ih =>
      obtain ⟨hsleep, hcalls, hrest⟩ := h
      obtain ⟨hdb, hqueue⟩ := ih hrest
      rw [List.filter_cons]
      split
      · exact ⟨⟨by omega, hdb.weaken hcalls⟩, by omega, hqueue⟩
      · exact ⟨hdb.weaken (by omega), hqueue.weaken (by omega)⟩

section Ordered

variable {x : Execution}

theorem Execution.Ordered.db_times (hx : x.Ordered) : InOrder x.claimed_at x.db_times :=
  (hx.beats.inOrder (interval_pos x) _).1.weaken hx.started

theorem Execution.Ordered.queue_times (hx : x.Ordered) : InOrder x.started_at x.queue_times :=
  (hx.beats.inOrder (interval_pos x) _).2

/-- No call is made before the loop starts. -/
theorem InOrder.le_of_mem {first s : Int} {times : List Int} (h : InOrder first times)
    (hs : s ∈ times) : first ≤ s := by
  induction times generalizing first with
  | nil => cases hs
  | cons x rest ih =>
      rcases List.mem_cons.mp hs with rfl | hmem
      · exact h.1
      · exact h.1.trans (ih h.2 hmem)

theorem locked_until_mono (hx : x.Ordered) {t t' : Int} (hle : t ≤ t') :
    x.locked_until t ≤ x.locked_until t' := by
  have hmono := hx.db_times.lastBefore_mono hle
  rw [Execution.locked_until, Execution.locked_until]
  omega

/-- The message is first hidden when it is received, and the row locked after that. -/
theorem received_le_locked (hx : x.Ordered) (t : Int) :
    x.received_at + seconds x.service.claim_seconds ≤ x.locked_until t := by
  have hfirst := hx.db_times.first_le (t := t)
  have hclaimed := hx.claimed
  rw [Execution.locked_until]
  omega

theorem expireTogether_of_lockedInTime (hx : x.Ordered) (h : x.LockedInTime) :
    x.ExpireTogether := by
  intro t hstart hend hexpired
  have hpos := interval_pos x
  rcases @lastBefore_mem x.received_at t x.queue_times with heq | ⟨hmem, hlt⟩
  · -- the message was never extended
    have hle := received_le_locked hx t
    rw [Execution.invisible_until, heq]
    omega
  · have hmono : x.locked_until (_ + 1) ≤ x.locked_until t := locked_until_mono hx hlt
    rcases h _ hmem (hlt.trans_le hend) with hin | hended | ⟨d, hd, hafter, hbefore⟩
    · rw [Execution.invisible_until]
      omega
    · omega
    · -- the lock was extended later than the message
      have hdt : d < t := by omega
      have hlast := hx.db_times.le_lastBefore hd hdt
      rw [Execution.invisible_until, Execution.locked_until]
      omega

theorem lockedInTime_of_expireTogether (hx : x.Ordered) (h : x.ExpireTogether) :
    x.LockedInTime := by
  intro q hq hend
  by_contra hnot
  rw [not_or, not_or, not_exists] at hnot
  obtain ⟨hlate, hrunning, hnone⟩ := hnot
  obtain ⟨t, ht⟩ : ∃ t, t = max (q + 1) (x.locked_until (q + 1) + 1) := ⟨_, rfl⟩
  -- the moment after the extension of the message and after the end of the lock
  have hsame : x.locked_until t = x.locked_until (q + 1) := by
    rw [Execution.locked_until, Execution.locked_until]
    congr 1
    refine lastBefore_congr fun d hd => ⟨fun hlt => ?_, fun hlt => by omega⟩
    by_contra hafter
    exact hnone d ⟨hd, by omega, by omega⟩
  have hqueue := hx.queue_times
  have hq₀ := hqueue.le_of_mem hq
  have hlast : q ≤ lastBefore x.received_at x.queue_times t :=
    (hqueue.weaken (hx.claimed.trans hx.started)).le_lastBefore hq (by omega)
  have hnow := h t (by omega) (by omega) (by omega)
  rw [hsame, Execution.invisible_until] at hnow
  omega

/-- **When the two deadlines run out together.**  For every execution of the loop, however
long, and whatever comes of its calls: whenever the lock of the claim has expired, the
message's invisibility ends within a heartbeat of it, if and only if every extension of the
invisibility comes within a heartbeat of the lock's last extension, or the lock is extended
again, or the execution ends, before the lock runs out. -/
theorem expire_together_iff (x : Execution) (hx : x.Ordered) :
    x.ExpireTogether ↔ x.LockedInTime :=
  ⟨lockedInTime_of_expireTogether hx, expireTogether_of_lockedInTime hx⟩

end Ordered

/-- Where a turn extends the message only if it has extended the lock, within a heartbeat,
the two run out together. -/
theorem expire_together_of_paired {x : Execution} (hx : x.Ordered)
    (h : ∀ it ∈ x.iterations, it.queue = .extended →
      it.db = .extended ∧ it.queue_at ≤ it.db_at + x.interval) : x.ExpireTogether := by
  refine expireTogether_of_lockedInTime hx fun q hq _ => .inl ?_
  obtain ⟨it, hmem, rfl⟩ := List.mem_map.mp hq
  obtain ⟨hit, hqueue⟩ := List.mem_filter.mp hmem
  obtain ⟨hdb, hwithin⟩ := h it hit (of_decide_eq_true hqueue)
  have hmem : it.db_at ∈ x.db_times :=
    List.mem_map_of_mem (List.mem_filter.mpr ⟨hit, decide_eq_true hdb⟩)
  have hcalls := hx.beats.calls hit
  have hlast := hx.db_times.le_lastBefore (t := it.queue_at + 1) hmem (by omega)
  rw [Execution.locked_until]
  omega

/-- Thirty seconds, and one turn after eighteen in which both calls take effect. -/
def example_beat : Execution where
  service := example_worker
  received_at := 0
  claimed_at := 0
  started_at := 0
  iterations := [⟨seconds 18, .extended, seconds 18, .extended⟩]
  ended_at := seconds 40

theorem expire_together_beat : example_beat.Ordered ∧ example_beat.LockedInTime ∧
    example_beat.ExpireTogether := by
  have hx : example_beat.Ordered := ⟨by decide, by decide, ⟨by decide, by decide, trivial⟩⟩
  have h : example_beat.LockedInTime := by
    intro q hq _
    obtain rfl : q = seconds 18 := List.mem_singleton.mp hq
    exact .inl (by decide)
  exact ⟨hx, h, (expire_together_iff example_beat hx).mpr h⟩

/-- The database is away for two turns, the queue is not. -/
def example_missed : Execution where
  service := example_worker
  received_at := 0
  claimed_at := 0
  started_at := 0
  iterations := [⟨seconds 18, .raised, seconds 18, .extended⟩,
    ⟨seconds 36, .no_row, seconds 36, .extended⟩]
  ended_at := seconds 60

/-- The lock runs out after 30 s, and the message stays hidden until 66 s. -/
theorem hidden_without_lock : example_missed.Ordered ∧
    example_missed.locked_until (seconds 40) = seconds 30 ∧
    example_missed.invisible_until (seconds 40) = seconds 66 ∧
    ¬ example_missed.ExpireTogether := by
  refine ⟨⟨by decide, by decide, by decide, by decide, by decide, by decide, trivial⟩,
    by decide, by decide, fun h => ?_⟩
  have hnow := h (seconds 40) (by decide) (by decide) (by decide)
  revert hnow
  decide

end Dass
