/-
# `Dass.KubernetesExecution` — waiting for a Kubernetes Job

`run` of `backend/app/services/kubernetes_execution_service.py`: a Job is created, its status is
read every `poll_interval` until the Job has succeeded or failed or the deadline has passed.
Reading the logs swallows what is raised.  Reading the status does not: the error leaves the
loop, and `run` reports it as a failure of the container (`reported_when_over_iff`).  So does an
interval `time.sleep` refuses: one that is negative or no number, and one that ends beyond the
nanoseconds of 64 bits.

Every answer of the API and every reading of the clock is open: a `Cluster` is what a `run` is
answered.  A read that is never answered leaves `run` waiting.
-/
import Dass.ExecutionOutcome
import Dass.Lib.RoundLoop
import Mathlib.Algebra.Order.Archimedean.Basic
import Mathlib.Data.Rat.Floor

namespace Dass

open RoundLoop Utf8

/-! ## What the cluster answers -/

/-- What a read of the status comes to. -/
inductive StatusRead where
  | status (succeeded failed : Option Int)
  | raised (error : String)

/-- The `data` of a response. -/
inductive LogData where
  | bytes (data : List UInt8)
  | text (data : String)
  | nothing

structure Cluster where
  /-- what the creation comes to, of a Job with these `activeDeadlineSeconds` -/
  create_namespaced_job : Int → Except String Unit
  /-- they are an `int64` -/
  int64 : ∀ seconds, create_namespaced_job seconds = .ok () → -2 ^ 63 ≤ seconds ∧ seconds < 2 ^ 63
  /-- `time.monotonic()` as the deadline is set -/
  created_at : ℚ
  /-- and at the `k`-th look at the deadline -/
  monotonic : Nat → ℚ
  /-- and in the `k`-th sleep -/
  sleeping_at : Nat → ℚ
  /-- the `k`-th answer, if it comes -/
  read_namespaced_job_status : Nat → Option StatusRead
  /-- the names of the pods -/
  list_namespaced_pod : Except String (List String)
  read_namespaced_pod_log : String → Except String LogData

/-- A `float` of seconds. -/
inductive Interval where
  | seconds (length : ℚ)
  | infinite (negative : Bool)
  | nan

structure KubernetesExecutionService where
  poll_interval : Interval

/-! ## Sleeping -/

/-- What `time.sleep` raises where the clock shows `now`: the length has to fit into 64 bits of
nanoseconds, and so has the time it ends at. -/
def sleep_error (now : ℚ) : Interval → Option String
  | .nan => some "Invalid value NaN (not a number)"
  | .infinite _ => some "timestamp out of range for platform time_t"
  | .seconds length =>
      if length * 10 ^ 9 < -2 ^ 63 ∨ 2 ^ 63 ≤ length * 10 ^ 9 then
        some "timestamp out of range for platform time_t"
      else if length < 0 then some "sleep length must be non-negative"
      else if 2 ^ 63 ≤ (now + length) * 10 ^ 9 then some "[Errno 22] Invalid argument"
      else none

/-- It can sleep so long. -/
def Interval.Sleeps (now : ℚ) : Interval → Prop
  | .seconds length =>
      0 ≤ length ∧ length * 10 ^ 9 < 2 ^ 63 ∧ (now + length) * 10 ^ 9 < 2 ^ 63
  | _ => False

theorem sleep_error_of_sleeps {now : ℚ} {interval : Interval} (h : interval.Sleeps now) :
    sleep_error now interval = none := by
  cases interval with
  | infinite negative => cases h
  | nan => cases h
  | seconds length =>
      obtain ⟨hnonneg, hfits, hend⟩ := h
      have hrange : ¬ (length * 10 ^ 9 < -2 ^ 63 ∨ 2 ^ 63 ≤ length * 10 ^ 9) := by
        rintro (hlt | hle)
        · linarith
        · exact hle.not_gt hfits
      rw [sleep_error, if_neg hrange, if_neg hnonneg.not_gt, if_neg hend.not_ge]

theorem sleep_error_of_not_sleeps {now : ℚ} {interval : Interval} (h : ¬ interval.Sleeps now) :
    ∃ error, sleep_error now interval = some error := by
  cases interval with
  | infinite negative => exact ⟨_, rfl⟩
  | nan => exact ⟨_, rfl⟩
  | seconds length =>
      rw [sleep_error]
      by_cases hrange : length * 10 ^ 9 < -2 ^ 63 ∨ 2 ^ 63 ≤ length * 10 ^ 9
      · exact ⟨_, if_pos hrange⟩
      · rw [if_neg hrange]
        by_cases hneg : length < 0
        · exact ⟨_, if_pos hneg⟩
        · rw [if_neg hneg]
          by_cases hend : 2 ^ 63 ≤ (now + length) * 10 ^ 9
          · exact ⟨_, if_pos hend⟩
          · exact absurd ⟨not_lt.mp hneg, not_le.mp (not_or.mp hrange).2, not_le.mp hend⟩ h

/-! ## Logs -/

/-- `_read_pod_log`. -/
def Cluster._read_pod_log (cluster : Cluster) (pod_name : String) : Except String String :=
  match cluster.read_namespaced_pod_log pod_name with
  | .error error => .error error
  | .ok (.bytes data) => .ok (.ofList (decode_replace data))
  | .ok (.text data) => .ok data
  | .ok .nothing => .ok ""

/-- `_get_pod_logs`. -/
def Cluster._get_pod_logs (cluster : Cluster) : String × String :=
  match cluster.list_namespaced_pod with
  | .error _ => ("", "")
  | .ok [] => ("", "")
  | .ok (pod_name :: _) =>
      match cluster._read_pod_log pod_name with
      | .error _ => ("", "")
      | .ok logs => (logs, "")

/-! ## `run` -/

/-- The report of a Job that is over. -/
def Cluster.report (cluster : Cluster) (success : Bool) (exit_code : Int) : ExecutionReport :=
  ⟨⟨success, some cluster._get_pod_logs.1, some cluster._get_pod_logs.2⟩, some exit_code⟩

/-- `time.monotonic() + spec.timeout_seconds + 30`. -/
def Cluster.deadline (cluster : Cluster) (timeout_seconds : Int) : ℚ :=
  cluster.created_at + timeout_seconds + 30

section Run

variable (service : KubernetesExecutionService) (cluster : Cluster) (timeout_seconds : Int)

/-- The body of the loop of `_run_k8s_job` in its `k`-th round: it ends with a result, or with
what is raised. -/
def KubernetesExecutionService.body (k : Nat) :
    Option StatusRead → Round (Except String ExecutionReport)
  | none => .waits
  | some (.raised error) => .ends (.error error)
  | some (.status succeeded failed) =>
      if 0 < succeeded.getD 0 then .ends (.ok (cluster.report true 0))
      else if 0 < failed.getD 0 then .ends (.ok (cluster.report false 1))
      else
        match sleep_error (cluster.sleeping_at k) service.poll_interval with
        | some error => .ends (.error error)
        | none => .goes_on

/-- A round of the loop, with its look at the clock. -/
def KubernetesExecutionService.round (k : Nat) : Round (Except String ExecutionReport) :=
  if cluster.monotonic k < cluster.deadline timeout_seconds then
    service.body cluster k (cluster.read_namespaced_job_status k)
  else .ends (.ok (.failure "" (timed_out_text timeout_seconds)))

/-- `except Exception as exc`. -/
def reported : Except String ExecutionReport → ExecutionReport
  | .ok report => report
  | .error error => .failure "" error

/-- `run` returns `report`, in round `k`.  Setting the deadline raises where no double is near
the timeout. -/
def KubernetesExecutionService.Returns (k : Nat) (report : ExecutionReport) : Prop :=
  match cluster.create_namespaced_job timeout_seconds with
  | .error error => k = 0 ∧ report = .failure "" error
  | .ok () =>
      if TooLarge timeout_seconds then
        k = 0 ∧ report = .failure "" "int too large to convert to float"
      else ∃ n result, progress (service.round cluster timeout_seconds) n = .ended k result ∧
        report = reported result

end Run

/-! ## When a Job is over -/

namespace Cluster

variable (cluster : Cluster) (timeout_seconds : Int) (k : Nat)

/-- The `k`-th read is before the deadline. -/
def Early : Prop := cluster.monotonic k < cluster.deadline timeout_seconds

def Succeeded : Prop :=
  ∃ succeeded failed, cluster.read_namespaced_job_status k = some (.status succeeded failed) ∧
    0 < succeeded.getD 0

/-- `failed` is looked at only where `succeeded` is not positive. -/
def Failed : Prop :=
  ∃ succeeded failed, cluster.read_namespaced_job_status k = some (.status succeeded failed) ∧
    succeeded.getD 0 ≤ 0 ∧ 0 < failed.getD 0

def Pending : Prop :=
  ∃ succeeded failed, cluster.read_namespaced_job_status k = some (.status succeeded failed) ∧
    succeeded.getD 0 ≤ 0 ∧ failed.getD 0 ≤ 0

def Raised : Prop :=
  ∃ error, cluster.read_namespaced_job_status k = some (.raised error)

/-- The first decisive answer before the deadline is the `k`-th: those before it are pending or
raised. -/
def FirstDecisive : Prop :=
  (∀ j < k, cluster.Early timeout_seconds j ∧ (cluster.Pending j ∨ cluster.Raised j)) ∧
    cluster.Early timeout_seconds k ∧ (cluster.Succeeded k ∨ cluster.Failed k)

end Cluster

/-- `run` reports a Job when it is over. -/
structure KubernetesExecutionService.ReportedWhenOver (service : KubernetesExecutionService)
    (cluster : Cluster) (timeout_seconds : Int) : Prop where
  /-- a success, if that is the first decisive answer -/
  success : ∀ k, cluster.FirstDecisive timeout_seconds k → cluster.Succeeded k →
    ∃ report, service.Returns cluster timeout_seconds k report ∧
      report.success = true ∧ report.exit_code = some 0
  /-- a failure only if that is the first decisive answer, or the deadline has passed -/
  failure : ∀ k report, service.Returns cluster timeout_seconds k report →
    report.success = false → (cluster.FirstDecisive timeout_seconds k ∧ cluster.Failed k) ∨
      ¬ cluster.Early timeout_seconds k
  /-- and nothing before the deadline while the Job may still be running -/
  early : ∀ k report, service.Returns cluster timeout_seconds k report →
    cluster.Early timeout_seconds k → cluster.Succeeded k ∨ cluster.Failed k

/-- Nothing but an answer or the deadline ends the loop: no read that comes before raises, and
the sleep after it does not. -/
def KubernetesExecutionService.Undisturbed (service : KubernetesExecutionService)
    (cluster : Cluster) (timeout_seconds : Int) : Prop :=
  ∀ k, (∀ j < k, cluster.Early timeout_seconds j ∧ cluster.Pending j) →
    cluster.Early timeout_seconds k →
      ¬ cluster.Raised k ∧
        (cluster.Pending k → service.poll_interval.Sleeps (cluster.sleeping_at k))

/-! ## What a round does -/

section Round

variable {service : KubernetesExecutionService} {cluster : Cluster} {timeout_seconds : Int}
  {k : Nat} {result : Except String ExecutionReport} {report : ExecutionReport}

theorem round_of_late (h : ¬ cluster.Early timeout_seconds k) :
    service.round cluster timeout_seconds k =
      .ends (.ok (.failure "" (timed_out_text timeout_seconds))) :=
  if_neg h

theorem round_of_early (he : cluster.Early timeout_seconds k) :
    service.round cluster timeout_seconds k =
      service.body cluster k (cluster.read_namespaced_job_status k) :=
  if_pos he

theorem round_of_succeeded (he : cluster.Early timeout_seconds k) (h : cluster.Succeeded k) :
    service.round cluster timeout_seconds k = .ends (.ok (cluster.report true 0)) := by
  obtain ⟨succeeded, failed, hread, hs⟩ := h
  rw [round_of_early he, hread]
  exact if_pos hs

theorem round_of_pending (he : cluster.Early timeout_seconds k) (h : cluster.Pending k) :
    service.round cluster timeout_seconds k =
      match sleep_error (cluster.sleeping_at k) service.poll_interval with
      | some error => .ends (.error error)
      | none => .goes_on := by
  obtain ⟨succeeded, failed, hread, hs, hf⟩ := h
  rw [round_of_early he, hread]
  exact (if_neg hs.not_gt).trans (if_neg hf.not_gt)

variable (service) in
theorem round_of_raised (he : cluster.Early timeout_seconds k) (h : cluster.Raised k) :
    ∃ error, service.round cluster timeout_seconds k = .ends (.error error) := by
  obtain ⟨error, hread⟩ := h
  exact ⟨error, by rw [round_of_early he, hread, KubernetesExecutionService.body]⟩

/-- What a round of the loop can do. -/
inductive RoundCase (service : KubernetesExecutionService) (cluster : Cluster)
    (timeout_seconds : Int) (k : Nat) : Round (Except String ExecutionReport) → Prop
  | late (hlate : ¬ cluster.Early timeout_seconds k) : RoundCase service cluster timeout_seconds k
      (.ends (.ok (.failure "" (timed_out_text timeout_seconds))))
  | waits (he : cluster.Early timeout_seconds k)
      (hnone : cluster.read_namespaced_job_status k = none) :
      RoundCase service cluster timeout_seconds k .waits
  | raised (he : cluster.Early timeout_seconds k) (hr : cluster.Raised k) (error : String) :
      RoundCase service cluster timeout_seconds k (.ends (.error error))
  | succeeded (he : cluster.Early timeout_seconds k) (hs : cluster.Succeeded k) :
      RoundCase service cluster timeout_seconds k (.ends (.ok (cluster.report true 0)))
  | failed (he : cluster.Early timeout_seconds k) (hf : cluster.Failed k) :
      RoundCase service cluster timeout_seconds k (.ends (.ok (cluster.report false 1)))
  | no_sleep (he : cluster.Early timeout_seconds k) (hp : cluster.Pending k)
      (hwake : ¬ service.poll_interval.Sleeps (cluster.sleeping_at k)) (error : String) :
      RoundCase service cluster timeout_seconds k (.ends (.error error))
  | goes_on (he : cluster.Early timeout_seconds k) (hp : cluster.Pending k)
      (hsleep : service.poll_interval.Sleeps (cluster.sleeping_at k)) :
      RoundCase service cluster timeout_seconds k .goes_on

variable (service cluster timeout_seconds k) in
theorem round_case :
    RoundCase service cluster timeout_seconds k (service.round cluster timeout_seconds k) := by
  by_cases he : cluster.Early timeout_seconds k
  · rw [round_of_early he]
    cases hread : cluster.read_namespaced_job_status k with
    | none => exact .waits he hread
    | some answer =>
        cases answer with
        | raised error => exact .raised he ⟨error, hread⟩ error
        | status succeeded failed =>
            rw [KubernetesExecutionService.body]
            split
            · next hs => exact .succeeded he ⟨_, _, hread, hs⟩
            · next hs =>
                split
                · next hf => exact .failed he ⟨_, _, hread, not_lt.mp hs, hf⟩
                · next hf =>
                    have hp : cluster.Pending k := ⟨_, _, hread, not_lt.mp hs, not_lt.mp hf⟩
                    by_cases hsleep : service.poll_interval.Sleeps (cluster.sleeping_at k)
                    · rw [sleep_error_of_sleeps hsleep]
                      exact .goes_on he hp hsleep
                    · obtain ⟨error, herror⟩ := sleep_error_of_not_sleeps hsleep
                      rw [herror]
                      exact .no_sleep he hp hsleep error
  · rw [round_of_late he]
    exact .late he

/-- The loop goes on exactly after a pending answer before the deadline. -/
theorem round_goes_on_iff :
    service.round cluster timeout_seconds k = .goes_on ↔
      cluster.Early timeout_seconds k ∧ cluster.Pending k ∧
        service.poll_interval.Sleeps (cluster.sleeping_at k) := by
  constructor
  · intro h
    have hcase := round_case service cluster timeout_seconds k
    rw [h] at hcase
    cases hcase with
    | goes_on he hp hsleep => exact ⟨he, hp, hsleep⟩
  · rintro ⟨he, hp, hsleep⟩
    rw [round_of_pending he hp, sleep_error_of_sleeps hsleep]

/-- The loop waits for an answer only. -/
theorem answer_of_waits (h : service.round cluster timeout_seconds k = .waits) :
    cluster.read_namespaced_job_status k = none := by
  have hcase := round_case service cluster timeout_seconds k
  rw [h] at hcase
  cases hcase with
  | waits _ hnone => exact hnone

/-- A Job that is created has a deadline. -/
theorem not_tooLarge_of_created
    (hcreate : cluster.create_namespaced_job timeout_seconds = .ok ()) :
    ¬ TooLarge timeout_seconds := by
  obtain ⟨hlow, hhigh⟩ := cluster.int64 timeout_seconds hcreate
  have hdouble : 2 ^ 63 < double_overflow := by
    decide +kernel
  intro hlarge
  have : double_overflow ≤ timeout_seconds.natAbs := hlarge
  omega

/-- A `run` whose Job is created returns where its loop ends. -/
theorem returns_iff (hcreate : cluster.create_namespaced_job timeout_seconds = .ok ()) :
    service.Returns cluster timeout_seconds k report ↔
      ∃ result, ((∀ j < k, service.round cluster timeout_seconds j = .goes_on) ∧
        service.round cluster timeout_seconds k = .ends result) ∧ report = reported result := by
  unfold KubernetesExecutionService.Returns
  rw [hcreate]
  simp only [if_neg (not_tooLarge_of_created hcreate)]
  constructor
  · rintro ⟨n, result, hended, hreport⟩
    exact ⟨result, ended_iff.mp ⟨n, hended⟩, hreport⟩
  · rintro ⟨result, hended, hreport⟩
    obtain ⟨n, hn⟩ := ended_iff.mpr hended
    exact ⟨n, result, hn, hreport⟩

theorem Cluster.Pending.not_over (h : cluster.Pending k) :
    ¬ (cluster.Succeeded k ∨ cluster.Failed k) := by
  obtain ⟨succeeded, failed, hread, hs, hf⟩ := h
  rintro (⟨_, _, hread', hs'⟩ | ⟨_, _, hread', _, hf'⟩)
  · cases hread.symm.trans hread'
    exact absurd hs' hs.not_gt
  · cases hread.symm.trans hread'
    exact absurd hf' hf.not_gt

theorem Cluster.Raised.not_over (h : cluster.Raised k) :
    ¬ (cluster.Succeeded k ∨ cluster.Failed k) := by
  obtain ⟨error, hread⟩ := h
  rintro (⟨_, _, hread', _⟩ | ⟨_, _, hread', _⟩)
  · cases hread.symm.trans hread'
  · cases hread.symm.trans hread'

end Round

/-! ## When a failure is one -/

section Over

variable {service : KubernetesExecutionService} {cluster : Cluster} {timeout_seconds : Int}
  {k : Nat} {report : ExecutionReport}

/-- After pending answers an undisturbed loop goes on. -/
theorem goes_on_of_pending (h : service.Undisturbed cluster timeout_seconds)
    (hbefore : ∀ j < k, cluster.Early timeout_seconds j ∧ cluster.Pending j) :
    ∀ j < k, service.round cluster timeout_seconds j = .goes_on := by
  intro j hj
  obtain ⟨he, hp⟩ := hbefore j hj
  have hsleep := (h j (fun i hi => hbefore i (hi.trans hj)) he).2 hp
  exact round_goes_on_iff.mpr ⟨he, hp, hsleep⟩

/-- Before the first decisive answer an undisturbed loop has pending answers only. -/
theorem pending_of_firstDecisive (h : service.Undisturbed cluster timeout_seconds)
    (hfirst : cluster.FirstDecisive timeout_seconds k) :
    ∀ j < k, cluster.Early timeout_seconds j ∧ cluster.Pending j := by
  intro j
  induction j using Nat.strong_induction_on with
  | _ j ih =>
      intro hj
      obtain ⟨he, hp | hr⟩ := hfirst.1 j hj
      · exact ⟨he, hp⟩
      · exact absurd hr (h j (fun i hi => ih i hi (hi.trans hj)) he).1

/-- What an undisturbed `run` returns before the deadline is the answer it has got. -/
theorem returns_of_undisturbed (hcreate : cluster.create_namespaced_job timeout_seconds = .ok ())
    (h : service.Undisturbed cluster timeout_seconds)
    (hreturns : service.Returns cluster timeout_seconds k report)
    (he : cluster.Early timeout_seconds k) :
    cluster.FirstDecisive timeout_seconds k ∧
      ((cluster.Succeeded k ∧ report = cluster.report true 0) ∨
        (cluster.Failed k ∧ report = cluster.report false 1)) := by
  obtain ⟨result, ⟨hon, hends⟩, hreport⟩ := (returns_iff hcreate).mp hreturns
  have hbefore : ∀ j < k, cluster.Early timeout_seconds j ∧ cluster.Pending j := fun j hj =>
    have hj := round_goes_on_iff.mp (hon j hj)
    ⟨hj.1, hj.2.1⟩
  have hpast : ∀ j < k, cluster.Early timeout_seconds j ∧ (cluster.Pending j ∨ cluster.Raised j) :=
    fun j hj => ⟨(hbefore j hj).1, .inl (hbefore j hj).2⟩
  have hcase := round_case service cluster timeout_seconds k
  rw [hends] at hcase
  cases hcase with
  | late hlate => exact absurd he hlate
  | raised _ hr => exact absurd hr (h k hbefore he).1
  | succeeded _ hs => exact ⟨⟨hpast, he, .inl hs⟩, .inl ⟨hs, hreport⟩⟩
  | failed _ hf => exact ⟨⟨hpast, he, .inr hf⟩, .inr ⟨hf, hreport⟩⟩
  | no_sleep _ hp hwake => exact absurd ((h k hbefore he).2 hp) hwake

/-- A loop that reports a Job only when it is over is undisturbed, as far as it gets. -/
theorem undisturbed_of_early (hcreate : cluster.create_namespaced_job timeout_seconds = .ok ())
    (hover : ∀ k report, service.Returns cluster timeout_seconds k report →
      cluster.Early timeout_seconds k → cluster.Succeeded k ∨ cluster.Failed k) :
    service.Undisturbed cluster timeout_seconds := by
  -- in the round the loop gets to
  have hround : ∀ k, (∀ j < k, service.round cluster timeout_seconds j = .goes_on) →
      cluster.Early timeout_seconds k →
      ¬ cluster.Raised k ∧
        (cluster.Pending k → service.poll_interval.Sleeps (cluster.sleeping_at k)) := by
    intro k hon he
    refine ⟨fun hr => ?_, fun hp => ?_⟩
    · obtain ⟨error, hends⟩ := round_of_raised service he hr
      exact hr.not_over (hover k _ ((returns_iff hcreate).mpr ⟨_, ⟨hon, hends⟩, rfl⟩) he)
    · by_contra hwake
      obtain ⟨error, herror⟩ := sleep_error_of_not_sleeps hwake
      have hends : service.round cluster timeout_seconds k = _ := round_of_pending he hp
      rw [herror] at hends
      exact hp.not_over (hover k _ ((returns_iff hcreate).mpr ⟨_, ⟨hon, hends⟩, rfl⟩) he)
  -- and it gets to the rounds that have pending answers before them
  have hon : ∀ k, (∀ j < k, cluster.Early timeout_seconds j ∧ cluster.Pending j) →
      ∀ j < k, service.round cluster timeout_seconds j = .goes_on := by
    intro k hbefore j
    induction j using Nat.strong_induction_on with
    | _ j ih =>
        intro hj
        obtain ⟨he, hp⟩ := hbefore j hj
        have hsleep := (hround j (fun i hi => ih i hi (hi.trans hj)) he).2 hp
        exact round_goes_on_iff.mpr ⟨he, hp, hsleep⟩
  exact fun k hbefore => hround k (hon k hbefore)

end Over

variable (service : KubernetesExecutionService) (cluster : Cluster) (timeout_seconds : Int) in
/-- **When a Kubernetes run is reported failed only when it is over.**  After a successful
create, for every interval, timeout, readings of the clock and answers, `run` reports a success
where that is the first decisive answer before the deadline, a failure only where that is it or
the deadline has passed, and nothing before, if and only if no read of the status raises that
comes, before the deadline, after pending answers only, and `time.sleep` can sleep for the
interval where such an answer is pending. -/
theorem reported_when_over_iff (hcreate : cluster.create_namespaced_job timeout_seconds = .ok ()) :
    service.ReportedWhenOver cluster timeout_seconds ↔
      service.Undisturbed cluster timeout_seconds := by
  refine ⟨fun h => undisturbed_of_early hcreate h.early, fun h => ⟨?_, ?_, ?_⟩⟩
  · intro k hfirst hs
    have hon := goes_on_of_pending h (pending_of_firstDecisive h hfirst)
    have hends : service.round cluster timeout_seconds k = _ :=
      round_of_succeeded hfirst.2.1 hs
    exact ⟨_, (returns_iff hcreate).mpr ⟨_, ⟨hon, hends⟩, rfl⟩, rfl, rfl⟩
  · intro k report hreturns hfailure
    by_cases he : cluster.Early timeout_seconds k
    · obtain ⟨hfirst, ⟨_, hreport⟩ | ⟨hf, _⟩⟩ := returns_of_undisturbed hcreate h hreturns he
      · subst hreport
        cases hfailure
      · exact .inl ⟨hfirst, hf⟩
    · exact .inr he
  · intro k report hreturns he
    obtain ⟨_, ⟨hs, _⟩ | ⟨hf, _⟩⟩ := returns_of_undisturbed hcreate h hreturns he
    · exact .inl hs
    · exact .inr hf

/-! ## Runs with a clock -/

variable {service : KubernetesExecutionService} {cluster : Cluster} in
/-- Where every read is answered and the clock goes on by the interval at least, `run` comes to
an end. -/
theorem returns_of_ticks (timeout_seconds : Int) {length : ℚ} (hwait : 0 < length)
    (hclock : ∀ k, cluster.monotonic k + length ≤ cluster.monotonic (k + 1))
    (hanswered : ∀ k, cluster.read_namespaced_job_status k ≠ none) :
    ∃ k report, service.Returns cluster timeout_seconds k report := by
  cases hcreate : cluster.create_namespaced_job timeout_seconds with
  | error error =>
      refine ⟨0, .failure "" error, ?_⟩
      rw [KubernetesExecutionService.Returns, hcreate]
      exact ⟨rfl, rfl⟩
  | ok _ =>
      have htime : ∀ k : Nat, cluster.monotonic 0 + k * length ≤ cluster.monotonic k := by
        intro k
        induction k with
        | zero => simp
        | succ k ih =>
            have := hclock k
            push_cast
            linarith
      obtain ⟨n, hn⟩ := exists_lt_nsmul hwait
        (cluster.deadline timeout_seconds - cluster.monotonic 0)
      have hlate : ¬ cluster.Early timeout_seconds n := by
        have := htime n
        rw [nsmul_eq_mul] at hn
        exact not_lt.mpr (by linarith)
      have hon : ∃ k, service.round cluster timeout_seconds k ≠ .goes_on :=
        ⟨n, fun h => hlate (round_goes_on_iff.mp h).1⟩
      have hwaits : ∀ k, service.round cluster timeout_seconds k ≠ .waits := fun k h =>
        hanswered k (answer_of_waits h)
      obtain ⟨m, k, result, hm⟩ := ended_of_not_for_ever hon hwaits
      exact ⟨k, reported result, (returns_iff hcreate).mpr ⟨result, ended_iff.mp ⟨m, hm⟩, rfl⟩⟩

/-- A Job in a cluster whose logs cannot be read. -/
def example_cluster (answers : List StatusRead) : Cluster where
  create_namespaced_job seconds :=
    if 0 < seconds ∧ seconds < 2 ^ 63 then .ok () else .error "Unprocessable Entity"
  int64 seconds h := by
    split at h
    · omega
    · cases h
  created_at := 0
  monotonic k := 2 * k
  sleeping_at k := 2 * k
  read_namespaced_job_status k := answers[k]?
  list_namespaced_pod := .ok ["pod-abc"]
  read_namespaced_pod_log _ := .error "Not Found"

/-- A Job that is pending, and then succeeds. -/
theorem reported_polls_until_succeeded :
    (KubernetesExecutionService.mk (.seconds 2)).ReportedWhenOver
      (example_cluster [.status none none, .status (some 1) none]) 300 := by
  refine (reported_when_over_iff _ _ _ rfl).mpr fun k _ _ => ⟨?_, ?_⟩
  · rintro ⟨error, hread⟩
    have hmem := List.mem_of_getElem? hread
    simp at hmem
  · rintro ⟨succeeded, failed, hread, hs, _⟩
    match k with
    | 0 => norm_num [Interval.Sleeps, example_cluster]
    | 1 => cases hread; cases hs
    | _ + 2 => cases hread

/-- A Job whose first read raises, and which succeeds. -/
theorem raised_read_ends_run :
    ¬ ∀ (service : KubernetesExecutionService) (cluster : Cluster) (timeout_seconds : Int),
      cluster.create_namespaced_job timeout_seconds = .ok () →
        service.ReportedWhenOver cluster timeout_seconds := by
  intro hall
  have hover := (hall ⟨.seconds 2⟩ (example_cluster [.raised "connection reset", .status (some 1) none])
    300 rfl).early
  have hearly : (example_cluster [.raised "connection reset", .status (some 1) none]).Early 300
      0 := by
    norm_num [Cluster.Early, Cluster.deadline, example_cluster]
  have hraised : (example_cluster [.raised "connection reset",
      .status (some 1) none]).Raised 0 := ⟨_, rfl⟩
  obtain ⟨error, hends⟩ := round_of_raised ⟨.seconds 2⟩ hearly hraised
  exact hraised.not_over (hover 0 _
    ((returns_iff rfl).mpr ⟨_, ⟨fun j hj => absurd hj (Nat.not_lt_zero j), hends⟩, rfl⟩) hearly)

end Dass
