/-
# `Dass.ReplicaHealth` — how old an answer of `_replica_available` can be

`_replica_health` of `backend/app/db/session.py` is one dictionary that every thread of a
process reads and writes without a lock.  A call reads the clock first and returns last,
and other threads run in between:

    call      `now = time.monotonic()`
    fresh     the last stamp is less than the TTL old: what is cached will do
    stale     it is not: the replica is probed
    connect   the probe ends, one way or the other
    store     `_replica_health["ok"] = …`
    stamp     `_replica_health["checked_at"] = now`
    answer    `return _replica_health["ok"]`

The stamp of one thread can end up beside the result of another, and an older stamp over a
newer one.  What an answer says is a recent result all the same (`answers_recent`): the result
was stored after the stamp's own probe began.  How recent depends on how promptly a probe's
result is stored, so that is a parameter (`Prompt`); nothing else is asked of the threads.

That a replica is probed once per TTL holds of calls that do not overlap (`probes_spaced`).
-/
import Dass.RoutingSession
import Dass.Models
import Mathlib.Algebra.Order.Group.Int
import Mathlib.Order.Basic
import Mathlib.Logic.Function.Basic

namespace Dass

open Lts

/-- `_REPLICA_HEALTH_TTL_SECONDS`. -/
def _REPLICA_HEALTH_TTL_SECONDS : Int := 5

/-- `_replica_health`. -/
structure ReplicaHealth where
  ok : Bool
  checked_at : Int

/-- Where a call of `_replica_available` is; `now` is the clock it read. -/
inductive Probing where
  | idle
  | called (now : Int)
  | fresh (now : Int)
  | connecting (now : Int)
  /-- the probe has ended, at `ended` -/
  | connected (now ended : Int) (up : Bool)
  | stored (now : Int)
  | stamped (now : Int)

/-- A probe whose result was stored; it began as its call read the clock, before it connected. -/
structure Probe where
  began : Int
  ended : Int
  up : Bool

/-- What a call that read the clock at `began` has returned. -/
structure Answer where
  began : Int
  ok : Bool

/-- A process with a replica.  `probes` and `answers` have the last one first. -/
structure Prober (P : Type) where
  clock : Int
  _replica_health : ReplicaHealth
  calls : P → Probing
  probes : List Probe
  answers : List Answer

namespace Prober

variable {P : Type}

inductive Label (P : Type) where
  | tick (d : Int)
  | call (p : P)
  | fresh (p : P)
  | stale (p : P)
  | connect (p : P) (up : Bool)
  | store (p : P)
  | stamp (p : P)
  | answer (p : P)

/-- The module is loaded; no call is made yet. -/
def start (clock : Int) : Prober P where
  clock := clock
  _replica_health := ⟨true, 0⟩
  calls _ := .idle
  probes := []
  answers := []

/-- The thread goes on. -/
def at_ [DecidableEq P] (s : Prober P) (p : P) (pc : Probing) : Prober P :=
  { s with calls := Function.update s.calls p pc }

inductive Step [DecidableEq P] : Prober P → Label P → Prober P → Prop
  | tick {s d} : 0 ≤ d → Step s (.tick d) { s with clock := s.clock + d }
  | call {s p} : s.calls p = .idle → Step s (.call p) (s.at_ p (.called s.clock))
  | fresh {s p now} : s.calls p = .called now →
      now - s._replica_health.checked_at < seconds _REPLICA_HEALTH_TTL_SECONDS →
      Step s (.fresh p) (s.at_ p (.fresh now))
  | stale {s p now} : s.calls p = .called now →
      ¬ now - s._replica_health.checked_at < seconds _REPLICA_HEALTH_TTL_SECONDS →
      Step s (.stale p) (s.at_ p (.connecting now))
  | connect {s p now up} : s.calls p = .connecting now →
      Step s (.connect p up) (s.at_ p (.connected now s.clock up))
  | store {s p now ended up} : s.calls p = .connected now ended up →
      Step s (.store p) { s.at_ p (.stored now) with
        _replica_health := { s._replica_health with ok := up }
        probes := ⟨now, ended, up⟩ :: s.probes }
  | stamp {s p now} : s.calls p = .stored now →
      Step s (.stamp p) { s.at_ p (.stamped now) with
        _replica_health := { s._replica_health with checked_at := now } }
  | answer {s p now} : s.calls p = .fresh now ∨ s.calls p = .stamped now →
      Step s (.answer p) { s.at_ p .idle with
        answers := ⟨now, s._replica_health.ok⟩ :: s.answers }

/-- The result of a probe is stored at most `delay` after it has ended. -/
def Prompt (delay : Int) (s : Prober P) : Label P → Prop
  | .store p => ∀ now ended up, s.calls p = .connected now ended up → s.clock ≤ ended + delay
  | _ => True

/-- A call begins when no other is in progress. -/
def Alone (s : Prober P) : Label P → Prop
  | .call _ => ∀ q, s.calls q = .idle
  | _ => True

/-! ## What an answer goes back to -/

/-- The last stored result is that of a probe that ended after `t`, or `t` lies before the
first stamp could be. -/
def Since (s : Prober P) (delay t : Int) : Prop :=
  match s.probes with
  | [] => t < seconds _REPLICA_HEALTH_TTL_SECONDS
  | probe :: _ => t - seconds _REPLICA_HEALTH_TTL_SECONDS - delay < probe.ended

/-- What a thread knows at each point. -/
def KnowsAt (s : Prober P) (delay : Int) : Probing → Prop
  | .idle => True
  | .called now | .connecting now => now ≤ s.clock
  | .connected now ended _ => now ≤ ended ∧ ended ≤ s.clock
  | .fresh now => now ≤ s.clock ∧ s.Since delay now
  | .stored now | .stamped now =>
      now ≤ s.clock ∧ ∃ probe rest, s.probes = probe :: rest ∧ now ≤ probe.ended + delay

/-- An answer is that of a stored probe that ended recently, or that of a module that has
just been loaded. -/
def Recent (s : Prober P) (delay : Int) (a : Answer) : Prop :=
  (∃ probe ∈ s.probes, a.ok = probe.up ∧
    a.began - seconds _REPLICA_HEALTH_TTL_SECONDS - delay < probe.ended) ∨
  (a.ok = true ∧ a.began < seconds _REPLICA_HEALTH_TTL_SECONDS)

/-- What holds after every step. -/
structure Inv (delay : Int) (s : Prober P) : Prop where
  clock : 0 ≤ s.clock
  checked : s._replica_health.checked_at ≤ s.clock
  ok : s._replica_health.ok = (s.probes.head?.map Probe.up).getD true
  stamp : match s.probes with
    | [] => s._replica_health.checked_at = 0
    | probe :: _ => s._replica_health.checked_at ≤ probe.ended + delay
  calls : ∀ p, s.KnowsAt delay (s.calls p)
  answers : ∀ a ∈ s.answers, s.Recent delay a

section Step

variable {delay : Int} {s s' : Prober P} {l : Label P}

theorem inv_start {clock : Int} (hclock : 0 ≤ clock) : Inv delay (start (P := P) clock) where
  clock := hclock
  checked := hclock
  ok := rfl
  stamp := rfl
  calls _ := trivial
  answers := by intro a ha; cases ha

/-- Time passes, and nothing that is known is lost. -/
theorem KnowsAt.later {pc : Probing} (h : s.KnowsAt delay pc) (hclock : s.clock ≤ s'.clock)
    (hprobes : s'.probes = s.probes) : s'.KnowsAt delay pc := by
  cases pc with
  | idle => trivial
  | called now | connecting now => exact le_trans (show now ≤ s.clock from h) hclock
  | connected now ended up => exact ⟨h.1, h.2.trans hclock⟩
  | fresh now =>
      refine ⟨h.1.trans hclock, ?_⟩
      have hsince := h.2
      unfold Since at hsince ⊢
      rwa [hprobes]
  | stored now | stamped now =>
      obtain ⟨hle, probe, rest, heq, hended⟩ := h
      exact ⟨hle.trans hclock, probe, rest, hprobes.trans heq, hended⟩

/-- One thread has moved; the others know what they knew. -/
theorem knowsAt_update [DecidableEq P] {p : P} {pc : Probing} (hcalls : ∀ q, s.KnowsAt delay (s.calls q))
    (hclock : s.clock ≤ s'.clock) (hprobes : s'.probes = s.probes)
    (heq : s'.calls = Function.update s.calls p pc) (hpc : s'.KnowsAt delay pc) (q : P) :
    s'.KnowsAt delay (s'.calls q) := by
  rw [heq, Function.update_apply]
  split
  · exact hpc
  · exact (hcalls q).later hclock hprobes

/-- **A new result is as good as the one before it**, for whoever read the clock by then. -/
theorem KnowsAt.stored {pc : Probing} (probe : Probe) (h : s.KnowsAt delay pc)
    (hclock : s'.clock = s.clock) (hprobes : s'.probes = probe :: s.probes)
    (hprompt : s.clock ≤ probe.ended + delay) : s'.KnowsAt delay pc := by
  have hpositive : 0 < seconds _REPLICA_HEALTH_TTL_SECONDS := by decide
  cases pc with
  | idle => trivial
  | called now | connecting now => exact le_of_le_of_eq h hclock.symm
  | connected now ended up => exact ⟨h.1, h.2.trans hclock.ge⟩
  | fresh now =>
      have hle : now ≤ s.clock := h.1
      refine ⟨hle.trans hclock.ge, ?_⟩
      unfold Since
      rw [hprobes]
      show now - _ - delay < probe.ended
      omega
  | stored now | stamped now =>
      exact ⟨h.1.trans hclock.ge, probe, s.probes, hprobes, h.1.trans hprompt⟩

/-- What a call may answer once it has seen a recent stamp. -/
theorem Inv.since (hi : Inv delay s) {now : Int}
    (hfresh : now - s._replica_health.checked_at < seconds _REPLICA_HEALTH_TTL_SECONDS) :
    s.Since delay now := by
  have hstamp := hi.stamp
  unfold Since
  cases hprobes : s.probes with
  | nil =>
      rw [hprobes] at hstamp
      simp only at hstamp ⊢
      omega
  | cons probe rest =>
      rw [hprobes] at hstamp
      simp only at hstamp ⊢
      omega

theorem Inv.recent (hi : Inv delay s) {now : Int}
    (h : s.Since delay now) : s.Recent delay ⟨now, s._replica_health.ok⟩ := by
  have hok := hi.ok
  unfold Since at h
  cases hprobes : s.probes with
  | nil =>
      rw [hprobes] at h hok
      exact .inr ⟨hok, h⟩
  | cons probe rest =>
      rw [hprobes] at h hok
      refine .inl ⟨probe, ?_, hok, h⟩
      rw [hprobes]
      exact List.mem_cons_self

theorem Recent.more {a : Answer} (h : s.Recent delay a)
    (hprobes : ∀ probe ∈ s.probes, probe ∈ s'.probes) : s'.Recent delay a := by
  rcases h with ⟨probe, hprobe, hrest⟩ | h
  · exact .inl ⟨probe, hprobes probe hprobe, hrest⟩
  · exact .inr h

/-- **The step lemma.** -/
theorem inv_step [DecidableEq P] (hi : Inv delay s) (hl : s.Prompt delay l) (h : Step s l s') :
    Inv delay s' := by
  have hkeep : ∀ a ∈ s.answers, s.Recent delay a := hi.answers
  cases h with
  | @tick d hd =>
      have hlater : s.clock ≤ s.clock + d := le_add_of_nonneg_right hd
      exact ⟨hi.clock.trans hlater, hi.checked.trans hlater, hi.ok, hi.stamp,
        fun q => (hi.calls q).later hlater rfl, hkeep⟩
  | @call p hp =>
      refine ⟨hi.clock, hi.checked, hi.ok, hi.stamp, ?_, hkeep⟩
      exact knowsAt_update hi.calls le_rfl rfl rfl (le_refl s.clock)
  | @fresh p now hp hfresh =>
      have hknown := hi.calls p
      rw [hp] at hknown
      refine ⟨hi.clock, hi.checked, hi.ok, hi.stamp, ?_, hkeep⟩
      exact knowsAt_update hi.calls le_rfl rfl rfl ⟨hknown, hi.since hfresh⟩
  | @stale p now hp _ =>
      have hknown := hi.calls p
      rw [hp] at hknown
      refine ⟨hi.clock, hi.checked, hi.ok, hi.stamp, ?_, hkeep⟩
      exact knowsAt_update hi.calls le_rfl rfl rfl hknown
  | @connect p now up hp =>
      have hknown := hi.calls p
      rw [hp] at hknown
      refine ⟨hi.clock, hi.checked, hi.ok, hi.stamp, ?_, hkeep⟩
      exact knowsAt_update hi.calls le_rfl rfl rfl ⟨hknown, le_refl s.clock⟩
  | @store p now ended up hp =>
      have hprompt : s.clock ≤ ended + delay := hl now ended up hp
      have hknown := hi.calls p
      rw [hp] at hknown
      have hnow : now ≤ s.clock := hknown.1.trans hknown.2
      refine ⟨hi.clock, hi.checked, rfl, hi.checked.trans hprompt, fun q => ?_,
        fun a ha => (hkeep a ha).more fun probe hp => List.mem_cons_of_mem _ hp⟩
      show KnowsAt _ delay (Function.update s.calls p (.stored now) q)
      rw [Function.update_apply]
      split
      · exact ⟨hnow, ⟨now, ended, up⟩, s.probes, rfl, hnow.trans hprompt⟩
      · exact (hi.calls q).stored ⟨now, ended, up⟩ rfl rfl hprompt
  | @stamp p now hp =>
      have hknown := hi.calls p
      rw [hp] at hknown
      obtain ⟨hnow, probe, rest, hprobes, hended⟩ := hknown
      refine ⟨hi.clock, hnow, hi.ok, ?_, ?_, hkeep⟩
      · show match s.probes with
          | [] => now = 0
          | probe :: _ => now ≤ probe.ended + delay
        rw [hprobes]
        exact hended
      · exact knowsAt_update hi.calls le_rfl rfl rfl ⟨hnow, probe, rest, hprobes, hended⟩
  | @answer p now hp =>
      have hsince : s.Since delay now := by
        have hknown := hi.calls p
        rcases hp with hp | hp
        · rw [hp] at hknown
          exact hknown.2
        · rw [hp] at hknown
          obtain ⟨_, probe, rest, hprobes, hended⟩ := hknown
          have hpositive : 0 < seconds _REPLICA_HEALTH_TTL_SECONDS := by decide
          unfold Since
          rw [hprobes]
          show now - _ - delay < probe.ended
          omega
      refine ⟨hi.clock, hi.checked, hi.ok, hi.stamp, ?_, fun a ha => ?_⟩
      · exact knowsAt_update hi.calls le_rfl rfl rfl trivial
      · rcases List.mem_cons.mp ha with rfl | ha
        · exact hi.recent hsince
        · exact hkeep a ha

end Step

/-! ## Calls that do not overlap -/

/-- The stamp is that of the last probe. -/
def Stamped (s : Prober P) : Prop :=
  ∀ probe ∈ s.probes.head?, s._replica_health.checked_at = probe.began

/-- What is known at each point of a call that is alone. -/
def SoloAt (s : Prober P) : Probing → Prop
  | .connecting now | .connected now _ _ =>
      ∀ probe ∈ s.probes, probe.began + seconds _REPLICA_HEALTH_TTL_SECONDS ≤ now
  | .stored now => ∀ probe ∈ s.probes.head?, probe.began = now
  | .idle | .called _ | .fresh _ | .stamped _ => s.Stamped

/-- What one call after another leaves. -/
structure SoloInv (s : Prober P) : Prop where
  one : ∀ p q, s.calls p ≠ .idle → s.calls q ≠ .idle → p = q
  spaced : s.probes.Pairwise fun newer older =>
    older.began + seconds _REPLICA_HEALTH_TTL_SECONDS ≤ newer.began
  call : ∀ p, s.calls p ≠ .idle → s.SoloAt (s.calls p)
  idle : (∀ p, s.calls p = .idle) → s.Stamped

section Solo

variable {s s' : Prober P} {l : Label P}

theorem soloInv_start (clock : Int) : SoloInv (start (P := P) clock) where
  one p q h := absurd rfl h
  spaced := List.Pairwise.nil
  call p h := absurd rfl h
  idle _ := by intro probe h; cases h

/-- The one call goes on. -/
theorem soloInv_move [DecidableEq P] {p : P} {pc : Probing}
    (hothers : ∀ q, q ≠ p → s.calls q = .idle) (heq : s'.calls = Function.update s.calls p pc)
    (hspaced : s'.probes.Pairwise fun newer older =>
      older.began + seconds _REPLICA_HEALTH_TTL_SECONDS ≤ newer.began)
    (hpc : s'.SoloAt pc) : SoloInv s' := by
  have hidle : ∀ q, q ≠ p → s'.calls q = .idle := by
    intro q hq
    rw [heq, Function.update_of_ne hq]
    exact hothers q hq
  have hself : s'.calls p = pc := by
    rw [heq, Function.update_self]
  refine ⟨fun q r hq hr => ?_, hspaced, fun q hq => ?_, fun hall => ?_⟩
  · have hqp : q = p := not_not.mp fun hne => hq (hidle q hne)
    have hrp : r = p := not_not.mp fun hne => hr (hidle r hne)
    exact hqp.trans hrp.symm
  · have hqp : q = p := not_not.mp fun hne => hq (hidle q hne)
    rw [hqp, hself]
    exact hpc
  · have hnow := hall p
    rw [hself] at hnow
    rw [hnow] at hpc
    exact hpc

/-- A probe begins a TTL after the last one, and so after all of them. -/
theorem SoloInv.after {now : Int} (hi : SoloInv s) (hstamped : s.Stamped)
    (hstale : ¬ now - s._replica_health.checked_at < seconds _REPLICA_HEALTH_TTL_SECONDS) :
    ∀ probe ∈ s.probes, probe.began + seconds _REPLICA_HEALTH_TTL_SECONDS ≤ now := by
  intro probe hmem
  have hspaced := hi.spaced
  have hpositive : 0 < seconds _REPLICA_HEALTH_TTL_SECONDS := by decide
  unfold Stamped at hstamped
  cases hprobes : s.probes with
  | nil =>
      rw [hprobes] at hmem
      cases hmem
  | cons last rest =>
      rw [hprobes] at hmem hspaced hstamped
      have hlast : s._replica_health.checked_at = last.began := hstamped last rfl
      rcases List.mem_cons.mp hmem with rfl | hmem
      · omega
      · have hle := (List.pairwise_cons.mp hspaced).1 probe hmem
        omega

theorem soloInv_step [DecidableEq P] (hi : SoloInv s) (hl : s.Alone l) (h : Step s l s') :
    SoloInv s' := by
  have alone : ∀ {p : P} {pc : Probing}, s.calls p = pc → pc ≠ .idle →
      (∀ q, q ≠ p → s.calls q = .idle) ∧ s.SoloAt pc := by
    intro p pc hp hpc
    have hbusy : s.calls p ≠ .idle := by rwa [hp]
    refine ⟨fun q hq => ?_, hp ▸ hi.call p hbusy⟩
    by_contra hne
    exact hq (hi.one q p hne hbusy)
  cases h with
  | tick _ => exact ⟨hi.one, hi.spaced, hi.call, hi.idle⟩
  | @call p hp =>
      have hall : ∀ q, s.calls q = .idle := hl
      exact soloInv_move (fun q _ => hall q) rfl hi.spaced (hi.idle hall)
  | @fresh p now hp _ =>
      obtain ⟨hothers, hstamped⟩ := alone hp nofun
      exact soloInv_move hothers rfl hi.spaced hstamped
  | @stale p now hp hstale =>
      obtain ⟨hothers, hstamped⟩ := alone hp nofun
      exact soloInv_move hothers rfl hi.spaced (hi.after hstamped hstale)
  | @connect p now up hp =>
      obtain ⟨hothers, hafter⟩ := alone hp nofun
      exact soloInv_move hothers rfl hi.spaced hafter
  | @store p now ended up hp =>
      obtain ⟨hothers, hafter⟩ := alone hp nofun
      refine soloInv_move hothers rfl (List.pairwise_cons.mpr ⟨hafter, hi.spaced⟩) ?_
      intro probe hprobe
      cases hprobe
      rfl
  | @stamp p now hp =>
      obtain ⟨hothers, hlast⟩ := alone hp nofun
      exact soloInv_move hothers rfl hi.spaced fun probe hprobe => (hlast probe hprobe).symm
  | @answer p now hp =>
      rcases hp with hp | hp
      · obtain ⟨hothers, hstamped⟩ := alone hp nofun
        exact soloInv_move hothers rfl hi.spaced hstamped
      · obtain ⟨hothers, hstamped⟩ := alone hp nofun
        exact soloInv_move hothers rfl hi.spaced hstamped

end Solo

/-! ## The main results -/

/-- **An answer is a recent result, whatever the threads do.**  In every run of any number of
threads that store what they find within `delay`, each answer is the result of a probe that
ended less than the TTL and the delay before the call began; one before any probe says that
the replica is up, and is given in the first TTL of the clock alone.  So once the probes that
end from `d` on all find the replica up, or all find it down, the calls that begin a TTL and
a delay later say so; and where it is down, every session sends every statement to the
primary. -/
theorem answers_recent [DecidableEq P] {delay clock : Int} {s : Prober P} (hclock : 0 ≤ clock)
    (hdelay : 0 ≤ delay) (hrun : Run Step (Prompt delay) (start clock) s) :
    (∀ a ∈ s.answers, s.Recent delay a) ∧
    ∀ d up, 0 ≤ d → (∀ probe ∈ s.probes, d ≤ probe.ended → probe.up = up) →
      ∀ a ∈ s.answers, d + seconds _REPLICA_HEALTH_TTL_SECONDS + delay ≤ a.began →
        a.ok = up ∧ (up = false → ∀ (session : RoutingSession) flushing clause,
          session.get_bind ⟨true⟩ flushing clause a.ok = .primary) := by
  have hi : Inv delay s :=
    hrun.invariant (fun hi hl h => inv_step hi hl h) (inv_start hclock)
  refine ⟨hi.answers, fun d up hd hall a ha hbegan => ?_⟩
  have hok : a.ok = up := by
    rcases hi.answers a ha with ⟨probe, hprobe, hsame, hended⟩ | ⟨_, hearly⟩
    · rw [hsame]
      exact hall probe hprobe (by omega)
    · omega
  refine ⟨hok, fun hdown session flushing clause => ?_⟩
  rw [hok, hdown]
  unfold RoutingSession.get_bind Engines._replica_available
  repeat' split
  all_goals first | rfl | contradiction

/-- One thread probes a replica that is down, and a second one goes by its answer. -/
theorem answers_recent_down : ∃ s : Prober Bool,
    Run Step (Prompt (seconds 1)) (start (seconds 10)) s ∧
    s.answers.map (fun a => (a.began, a.ok)) = [(seconds 14, false), (seconds 10, false)] ∧
    s.Recent (seconds 1) ⟨seconds 14, false⟩ := by
  have h : Run Step (Prompt (seconds 1)) (start (seconds 10)) (start (P := Bool) (seconds 10)) :=
    .refl
  have h := h.snoc (l := Label.call true) trivial (.call rfl)
  have h := h.snoc (l := Label.stale true) trivial (.stale rfl (by decide))
  have h := h.snoc (l := Label.tick (seconds 2)) trivial (.tick (by decide))
  have h := h.snoc (l := Label.connect true false) trivial (.connect rfl)
  have h := h.snoc (l := Label.store true)
    (by rintro now ended up ⟨⟩; decide) (.store rfl)
  have h := h.snoc (l := Label.stamp true) trivial (.stamp rfl)
  have h := h.snoc (l := Label.answer true) trivial (.answer (.inr rfl))
  have h := h.snoc (l := Label.tick (seconds 2)) trivial (.tick (by decide))
  have h := h.snoc (l := Label.call false) trivial (.call rfl)
  have h := h.snoc (l := Label.fresh false) trivial (.fresh rfl (by decide))
  have h := h.snoc (l := Label.answer false) trivial (.answer (.inl rfl))
  refine ⟨_, h, rfl, ?_⟩
  exact (answers_recent (by decide) (by decide) h).1 _ List.mem_cons_self

/-- **A replica is probed at most once per TTL**, by the clock as it is read before a probe, by calls
that do not overlap, as those of a process with one loop. -/
theorem probes_spaced [DecidableEq P] {clock : Int} {s : Prober P}
    (hrun : Run Step Alone (start clock) s) :
    s.probes.Pairwise fun newer older =>
      older.began + seconds _REPLICA_HEALTH_TTL_SECONDS ≤ newer.began :=
  (hrun.invariant (fun hi hl h => soloInv_step hi hl h) (soloInv_start clock)).spaced

/-- Two probes, one right after the TTL of the other. -/
theorem probes_spaced_twice : ∃ s : Prober Unit,
    Run Step Alone (start (seconds 10)) s ∧
    s.probes.map Probe.began = [seconds 15, seconds 10] ∧
    s.probes.Pairwise fun newer older =>
      older.began + seconds _REPLICA_HEALTH_TTL_SECONDS ≤ newer.began := by
  have h : Run Step Alone (start (seconds 10)) (start (P := Unit) (seconds 10)) := .refl
  have h := h.snoc (l := Label.call ()) (fun _ => rfl) (.call rfl)
  have h := h.snoc (l := Label.stale ()) trivial (.stale rfl (by decide))
  have h := h.snoc (l := Label.connect () true) trivial (.connect rfl)
  have h := h.snoc (l := Label.store ()) trivial (.store rfl)
  have h := h.snoc (l := Label.stamp ()) trivial (.stamp rfl)
  have h := h.snoc (l := Label.answer ()) trivial (.answer (.inr rfl))
  have h := h.snoc (l := Label.tick (seconds 5)) trivial (.tick (by decide))
  have h := h.snoc (l := Label.call ()) (fun _ => rfl) (.call rfl)
  have h := h.snoc (l := Label.stale ()) trivial (.stale rfl (by decide))
  have h := h.snoc (l := Label.connect () true) trivial (.connect rfl)
  have h := h.snoc (l := Label.store ()) trivial (.store rfl)
  exact ⟨_, h, rfl, probes_spaced h⟩

end Prober

end Dass
