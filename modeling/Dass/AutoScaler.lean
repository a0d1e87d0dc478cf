/-
# `Dass.AutoScaler` — sizing the fleet

`backend/app/services/autoscaler_service.py`: the depths of the three queues are read and added
up, every twenty messages want a worker, one at least and ten at most, and the fleet is brought
to that size.  A read that raises counts as a depth of zero, "rather than letting one bad read
resize the fleet".  Zero does resize it: less work wants fewer workers, and those too many are
terminated.

A failed read does no harm exactly where no number of workers between the baseline and the
fleet is enough for the depths that were read and too small for all (`keeps_workers_iff`).
-/
import Dass.System
import Dass.VMService
import Mathlib.Algebra.Order.Floor.Div

namespace Dass

/-! ## `decide` -/

def MIN_VMS : Nat := 1
def MAX_VMS : Nat := 10
def DEPTH_PER_VM : Nat := 20

/-- The attributes of a queue that are asked for. -/
structure QueueAttributes where
  ApproximateNumberOfMessages : Option Nat
  ApproximateNumberOfMessagesNotVisible : Option Nat

/-- `_depth`, of what the queue answers or raises. -/
def _depth : Except String QueueAttributes → Nat
  | .ok attrs => attrs.ApproximateNumberOfMessages.getD 0 +
      attrs.ApproximateNumberOfMessagesNotVisible.getD 0
  | .error _ => 0

/-- What the three queues answer. -/
abbrev DepthReads := QueueName → Except String QueueAttributes

/-- `sum(depths.values())`. -/
def DepthReads.total (reads : DepthReads) : Nat :=
  _depth (reads .normal) + _depth (reads .scheduled) + _depth (reads .retry)

/-- What is logged of a decision. -/
structure Snapshot where
  depth : QueueName → Nat
  depth_vms : Nat
  desired : Nat

/-- `max(MIN_VMS, min(MAX_VMS, needed))`. -/
def clamp (needed : Nat) : Nat := max MIN_VMS (min MAX_VMS needed)

/-- `AutoScaler.decide`; the ceiling of the quotient is the number of workers needed. -/
def AutoScaler.decide (reads : DepthReads) : Nat × Snapshot :=
  let needed := if reads.total = 0 then 0 else reads.total ⌈/⌉ DEPTH_PER_VM
  (clamp needed, ⟨fun q => _depth (reads q), needed, clamp needed⟩)

/-! ## `apply` -/

structure AutoScaler where
  queue_backend : String
  vm_service : VMService

def AutoScaler.enabled (scaler : AutoScaler) : Bool := scaler.queue_backend = "sqs"

/-- `AutoScaler.apply`, on a fleet. -/
def AutoScaler.apply (scaler : AutoScaler) (births : Nat → Birth) (reads : DepthReads)
    (fleet : Fleet) : Fleet :=
  if scaler.enabled then
    let desired := (AutoScaler.decide reads).1
    let current := fleet.get_active_vms.length
    if current < desired then scaler.vm_service.create_vms births fleet (desired - current)
    else if desired < current then fleet.terminate_vms (current - desired)
    else fleet
  else fleet

/-! ## Two runs -/

/-- All reads succeed. -/
def succeeding (attrs : QueueName → QueueAttributes) : DepthReads := fun q => .ok (attrs q)

/-- Some reads raise. -/
def failing (attrs : QueueName → QueueAttributes) (errors : QueueName → Option String) :
    DepthReads := fun q =>
  match errors q with
  | some error => .error error
  | none => .ok (attrs q)

/-- Of the workers of the fleet, `apply` with the failing reads keeps what it would have kept
with all reads succeeding. -/
def AutoScaler.KeepsWorkers (scaler : AutoScaler) (attrs : QueueName → QueueAttributes)
    (errors : QueueName → Option String) (fleet : Fleet) : Prop :=
  ∀ (births births' : Nat → Birth), ∀ c ∈ fleet.containers,
    c ∈ (scaler.apply births (succeeding attrs) fleet).containers →
      c ∈ (scaler.apply births' (failing attrs errors) fleet).containers

/-! ## How many workers a depth wants -/

/-- A number of workers is enough: it is the largest fleet, or has twenty messages a worker at
most. -/
theorem desired_le_iff {reads : DepthReads} {n : Nat} :
    (AutoScaler.decide reads).1 ≤ n ↔
      MIN_VMS ≤ n ∧ (MAX_VMS ≤ n ∨ reads.total ≤ DEPTH_PER_VM * n) := by
  have hneeded : (if reads.total = 0 then 0 else reads.total ⌈/⌉ DEPTH_PER_VM) ≤ n ↔
      reads.total ≤ DEPTH_PER_VM * n := by
    split
    · next hzero => simp [hzero]
    · rw [ceilDiv_le_iff_le_mul (by decide), Nat.mul_comm]
  rw [AutoScaler.decide, clamp, max_le_iff, min_le_iff, hneeded]

/-- A read that raises takes its queue's depth from the total. -/
theorem total_failing_le (attrs : QueueName → QueueAttributes)
    (errors : QueueName → Option String) :
    (failing attrs errors).total ≤ (succeeding attrs).total := by
  have hdepth : ∀ q, _depth (failing attrs errors q) ≤ _depth (succeeding attrs q) := by
    intro q
    unfold failing
    split
    · exact Nat.zero_le _
    · exact Nat.le_refl _
  exact Nat.add_le_add (Nat.add_le_add (hdepth _) (hdepth _)) (hdepth _)

/-! ## Which workers go -/

/-- Of a list without repetition, one beginning is within another if and only if it is no
longer. -/
theorem take_subset_take_iff {α : Type} {l : List α} (h : l.Nodup) (m n : Nat) :
    l.take m ⊆ l.take n ↔ min m l.length ≤ min n l.length := by
  constructor
  · intro hsub
    have hlen := ((h.sublist (List.take_sublist m l)).subperm hsub).length_le
    rwa [List.length_take, List.length_take] at hlen
  · intro hle
    have htake : ∀ k, l.take k = l.take (min k l.length) := by
      intro k
      rw [← List.take_take, List.take_length]
    rw [htake m, htake n]
    exact List.take_subset_take_left _ hle

/-- What `apply` leaves of a fleet. -/
theorem mem_apply {scaler : AutoScaler} {births : Nat → Birth} {reads : DepthReads}
    {fleet : Fleet} {c : Container} (hc : c ∈ fleet.containers) :
    c ∈ (scaler.apply births reads fleet).containers ↔
      scaler.enabled = false ∨
        c ∉ fleet.by_age.take (fleet.get_active_vms.length - (AutoScaler.decide reads).1) := by
  unfold AutoScaler.apply
  split
  · next he =>
      rw [he]
      dsimp only
      split
      · next hlt =>
          rw [Nat.sub_eq_zero_of_le hlt.le]
          simp [mem_create_vms hc]
      · split
        · simp [mem_terminate_vms, hc]
        · next hge hle =>
            rw [Nat.sub_eq_zero_of_le (not_lt.mp hle)]
            simp [hc]
  · next he => simp [hc, Bool.eq_false_of_not_eq_true he]

/-- A failed read never asks for more workers. -/
theorem desired_failing_le (attrs : QueueName → QueueAttributes)
    (errors : QueueName → Option String) :
    (AutoScaler.decide (failing attrs errors)).1 ≤
      (AutoScaler.decide (succeeding attrs)).1 := by
  obtain ⟨hmin, henough⟩ :=
    desired_le_iff.mp (Nat.le_refl (AutoScaler.decide (succeeding attrs)).1)
  exact desired_le_iff.mpr
    ⟨hmin, henough.imp_right fun h => (total_failing_le attrs errors).trans h⟩

/-- An enabled scaler keeps the workers if and only if the failing run terminates, of the oldest
ones, no more. -/
theorem keeps_workers_iff_take {scaler : AutoScaler} (he : scaler.enabled = true)
    {attrs : QueueName → QueueAttributes} {errors : QueueName → Option String} {fleet : Fleet} :
    scaler.KeepsWorkers attrs errors fleet ↔
      fleet.by_age.take
          (fleet.get_active_vms.length - (AutoScaler.decide (failing attrs errors)).1) ⊆
        fleet.by_age.take
          (fleet.get_active_vms.length - (AutoScaler.decide (succeeding attrs)).1) := by
  have hnot : ¬ scaler.enabled = false := by simp [he]
  constructor
  · intro hkeeps c hc
    have hmem : c ∈ fleet.containers :=
      Fleet.mem_containers_of_by_age (List.mem_of_mem_take hc)
    by_contra hkept
    -- whatever the clones would be
    have hfailing := hkeeps (fun _ => ⟨"", ""⟩) (fun _ => ⟨"", ""⟩) c hmem
      ((mem_apply hmem).mpr (.inr hkept))
    exact ((mem_apply hmem).mp hfailing).resolve_left hnot hc
  · intro hsub births births' c hmem hkept
    have htrue := ((mem_apply hmem).mp hkept).resolve_left hnot
    exact (mem_apply hmem).mpr (.inr fun hc => htrue (hsub hc))

/-- The last `a` of `b + a` go first: as many as are too many for `d` are no more than for `d'`
if and only if every number from `b` on that is enough for `d` is for `d'`. -/
theorem min_sub_le_min_sub_iff {b a d d' : Nat} :
    min (b + a - d) a ≤ min (b + a - d') a ↔ ∀ n, b ≤ n → n < b + a → d ≤ n → d' ≤ n := by
  constructor
  · intro hle n hb hn hd
    omega
  · intro h
    by_contra hlt
    have hn := h (max b d) (Nat.le_max_left _ _) (by omega) (Nat.le_max_right _ _)
    omega

/-- **When a failed depth read keeps the fleet.**  For every fleet, all depths and every choice
of reads that raise, `apply` with these failing terminates no worker that it would have kept
with all succeeding, if and only if it is disabled or, for every number of workers from the
baseline up to one less than the fleet, and from one up to nine, the depths that were read want
more, or all the depths do not. -/
theorem keeps_workers_iff (scaler : AutoScaler) (attrs : QueueName → QueueAttributes)
    (errors : QueueName → Option String) (fleet : Fleet) :
    scaler.KeepsWorkers attrs errors fleet ↔
      scaler.enabled = false ∨
        ∀ n, MIN_VMS ≤ n → n < MAX_VMS → fleet.baseline.length ≤ n →
          n < fleet.get_active_vms.length →
          DEPTH_PER_VM * n < (failing attrs errors).total ∨
            (succeeding attrs).total ≤ DEPTH_PER_VM * n := by
  by_cases he : scaler.enabled = true
  · have hcurrent : fleet.get_active_vms.length =
        fleet.baseline.length + fleet.by_age.length := by
      rw [Fleet.get_active_vms, List.length_map, fleet.length_list_workers]
    rw [keeps_workers_iff_take he, take_subset_take_iff fleet.nodup_by_age, hcurrent,
      min_sub_le_min_sub_iff]
    simp only [desired_le_iff, he, Bool.true_eq_false, false_or]
    constructor
    · intro h n hmin hmax hbase hfleet
      by_cases henough : (failing attrs errors).total ≤ DEPTH_PER_VM * n
      · exact .inr ((h n hbase hfleet ⟨hmin, .inr henough⟩).2.resolve_left hmax.not_ge)
      · exact .inl (not_le.mp henough)
    · rintro h n hbase hfleet ⟨hmin, hmax | henough⟩
      · exact ⟨hmin, .inl hmax⟩
      · refine ⟨hmin, ?_⟩
        by_cases hmax : MAX_VMS ≤ n
        · exact .inl hmax
        · exact .inr ((h n hmin (not_le.mp hmax) hbase hfleet).resolve_left henough.not_gt)
  · refine iff_of_true (fun births births' c hc _ => ?_) (.inl (Bool.eq_false_of_not_eq_true he))
    exact (mem_apply hc).mpr (.inl (Bool.eq_false_of_not_eq_true he))

/-! ## A queue that cannot be read -/

/-- A worker, with more labels than the first two. -/
def example_container_named (name created : String) (labels : List String) : Container :=
  ⟨name, true, _PROJECT_LABEL :: _SERVICE_LABEL :: labels, some created, "dass-worker", none, none,
    ["dass_dass-net"]⟩

/-- A baseline worker and an autoscaled one. -/
def example_fleet : Fleet where
  containers := [example_container_named "dass-worker-1" "2024-01-01" [],
    example_container_named "dass-worker-autoscaled-0" "2024-01-02" [_AUTOSCALED_LABEL]]
  names := by decide

/-- Forty messages in the first queue. -/
def example_attributes : QueueName → QueueAttributes
  | .normal => ⟨some 30, some 10⟩
  | _ => ⟨some 0, some 0⟩

/-- The first queue cannot be read. -/
def example_errors : QueueName → Option String
  | .normal => some "connection refused"
  | _ => none

/-- Two workers are wanted and there are two; with the read of the first queue failing one is
wanted, and the other is terminated. -/
theorem failed_read_terminates :
    ¬ ∀ (scaler : AutoScaler) (attrs : QueueName → QueueAttributes)
      (errors : QueueName → Option String) (fleet : Fleet),
      scaler.KeepsWorkers attrs errors fleet := by
  intro hall
  have hsub := (keeps_workers_iff_take rfl).mp
    (hall ⟨"sqs", ⟨"dass-worker-1"⟩⟩ example_attributes example_errors example_fleet)
  rw [take_subset_take_iff example_fleet.nodup_by_age, example_fleet.length_by_age] at hsub
  exact absurd hsub (by decide)

end Dass
