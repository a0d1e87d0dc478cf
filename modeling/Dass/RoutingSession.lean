/-
# `Dass.RoutingSession` — which engine a statement is sent to

`backend/app/db/session.py`.  A session has two engines and picks one for every
statement: the replica for a plain `SELECT`, the primary for everything else.  A session
that has written has to go on with the primary, or a replica that lags hides its own
write from it.  `get_bind` does not know whether the session has written.  It goes by
two signs of it, the flag of `force_primary` and an identity map that is not empty.

    select     a plain `SELECT`
    load       a `SELECT` that brings in an instance
    add        `Session.add`
    modify     an attribute of an instance is changed
    delete     `Session.delete`
    flush      `Session.flush`
    dml        a Core `INSERT`, `UPDATE` or `DELETE`
    commit     `Session.commit`, with the flush in it
    rollback   `Session.rollback`
    drop       the caller's last reference to an instance goes
    enter      a block of `force_primary` is entered
    exit       … and left

The identity map is weak: it holds an instance as long as something else does, the
caller or a change that is still to be flushed.  A session that has deleted its last
instance, or has written through Core and loaded none, or whose caller has kept none,
has an empty one (`select_bound_iff`), and reads from the replica
(`delete_reads_from_replica`).
-/
import Dass.Lib.Run
import Mathlib.Data.List.Basic

namespace Dass

open Lts

inductive Engine where
  | primary | replica
deriving DecidableEq

/-- What the module brings up: `_HAS_REPLICA`. -/
structure Engines where
  has_replica : Bool

/-- `replica_engine`: the primary, where there is no replica. -/
def Engines.replica_engine (e : Engines) : Engine :=
  if e.has_replica then .replica else .primary

/-- `_replica_available`; `ok` is what the last probe found. -/
def Engines._replica_available (e : Engines) (ok : Bool) : Bool :=
  if e.has_replica then ok else true

/-- What `get_bind` is asked about. -/
inductive Clause where
  | select
  /-- DML, DDL, raw text, or none -/
  | other
deriving DecidableEq

/-- A mapped object in the process. -/
abbrev InstanceId := Nat

/-! ## The session -/

structure RoutingSession where
  /-- `info.get("force_primary")` -/
  force_primary : Option Bool
  /-- the persistent instances, as far as something holds them -/
  identity_map : List InstanceId
  new : List InstanceId
  dirty : List InstanceId
  deleted : List InstanceId
  /-- what the transaction in progress has inserted -/
  inserted : List InstanceId
  /-- what it has deleted -/
  removed : List InstanceId
  /-- it has sent a statement that writes -/
  wrote : Bool

namespace RoutingSession

/-- `SessionLocal()`. -/
def fresh : RoutingSession where
  force_primary := none
  identity_map := []
  new := []
  dirty := []
  deleted := []
  inserted := []
  removed := []
  wrote := false

/-- `get_bind`. -/
def get_bind (s : RoutingSession) (e : Engines) (flushing : Bool) (clause : Clause) (ok : Bool) :
    Engine :=
  if flushing then .primary else
    match clause with
    | .other => .primary
    | .select =>
        if s.force_primary.getD false ∨ s.identity_map ≠ [] then .primary
        else if e._replica_available ok then e.replica_engine else .primary

/-- `Session.add`. -/
def add (s : RoutingSession) (i : InstanceId) : RoutingSession :=
  if i ∈ s.identity_map then s else { s with new := s.new.insert i }

/-- `Session.flush`.  An instance leaves the map with the flush that deletes its row. -/
def flush (s : RoutingSession) : RoutingSession :=
  { s with
    identity_map := (s.identity_map.filter (· ∉ s.deleted)) ++ s.new
    new := []
    dirty := []
    deleted := []
    inserted := s.inserted ++ s.new
    removed := s.removed ++ s.deleted
    wrote := s.wrote || !(s.new ++ s.dirty ++ s.deleted).isEmpty }

/-- `Session.commit`.  `expire_on_commit` is off, so the instances stay as they are. -/
def commit (s : RoutingSession) : RoutingSession :=
  { s.flush with inserted := [], removed := [], wrote := false }

/-- `Session.rollback`: what was inserted is expunged, and what was deleted is back. -/
def rollback (s : RoutingSession) : RoutingSession :=
  { s with
    identity_map := (s.identity_map.filter (· ∉ s.inserted)) ++
      s.removed.filter (· ∉ s.inserted)
    new := []
    dirty := []
    deleted := []
    inserted := []
    removed := []
    wrote := false }

/-- The instances that nothing holds are collected; the session itself holds those with a
change to flush. -/
def collect (s : RoutingSession) (held : List InstanceId) : RoutingSession :=
  { s with identity_map := s.identity_map.filter fun i => i ∈ held ∨ i ∈ s.dirty ∨ i ∈ s.deleted }

end RoutingSession

/-! ## Its caller -/

/-- A `SELECT` the session has executed. -/
structure Selected where
  /-- the session had committed a write -/
  after_write : Bool
  engine : Engine
deriving DecidableEq

/-- A session and its caller. -/
structure Usage where
  session : RoutingSession
  /-- the instances the caller refers to -/
  held : List InstanceId
  /-- the blocks of `force_primary` it is in, innermost first, with what each restores -/
  blocks : List (Option Bool)
  /-- the session has committed a write -/
  committed : Bool
  selects : List Selected

inductive Usage.Op where
  | select (ok : Bool)
  | load (i : InstanceId) (ok : Bool)
  | add (i : InstanceId)
  | modify (i : InstanceId)
  | delete (i : InstanceId)
  | flush
  | dml
  | commit
  | rollback
  | drop (i : InstanceId)
  | enter
  | exit

namespace Usage

/-- A session that has just been opened. -/
def start : Usage where
  session := .fresh
  held := []
  blocks := []
  committed := false
  selects := []

/-- A `SELECT` is executed. -/
def selected (u : Usage) (e : Engines) (ok : Bool) : Usage :=
  { u with selects := ⟨u.committed, u.session.get_bind e false .select ok⟩ :: u.selects }

/-- One call. -/
def step (e : Engines) (u : Usage) : Op → Usage
  | .select ok => u.selected e ok
  | .load i ok =>
      let u := u.selected e ok
      { u with
        session := { u.session with identity_map := u.session.identity_map.insert i }
        held := u.held.insert i }
  | .add i => { u with session := u.session.add i, held := u.held.insert i }
  | .modify i =>
      if i ∈ u.held ∧ i ∈ u.session.identity_map then
        { u with session := { u.session with dirty := u.session.dirty.insert i } }
      else u
  | .delete i =>
      if i ∈ u.held ∧ i ∈ u.session.identity_map then
        { u with session := { u.session with deleted := u.session.deleted.insert i } }
      else u
  | .flush => { u with session := u.session.flush.collect u.held }
  | .dml => { u with session := { u.session with wrote := true } }
  | .commit => { u with
      session := u.session.commit.collect u.held
      committed := u.committed || u.session.flush.wrote }
  | .rollback => { u with session := u.session.rollback.collect u.held }
  | .drop i =>
      let held := u.held.filter (· ≠ i)
      { u with session := u.session.collect held, held := held }
  | .enter => { u with
      session := { u.session with force_primary := some true }
      blocks := u.session.force_primary :: u.blocks }
  | .exit =>
      match u.blocks with
      | [] => u
      | previous :: blocks =>
          { u with session := { u.session with force_primary := previous }, blocks := blocks }

/-- The calls, as steps. -/
def Step (e : Engines) (u : Usage) (op : Op) (u' : Usage) : Prop := u.step e op = u'

/-- The `SELECT`s after a committed write have gone to the primary. -/
def ReadsWrites (u : Usage) : Prop :=
  ∀ r ∈ u.selects, r.after_write = true → r.engine = .primary

/-- The caller is in a block of `force_primary`, or holds an instance of the session, or has
changed one and not flushed it, or there is no replica to read from. -/
def Pinned (u : Usage) (e : Engines) (ok : Bool) : Prop :=
  u.blocks ≠ [] ∨
  (∃ i ∈ u.session.identity_map, i ∈ u.held ∨ i ∈ u.session.dirty ∨ i ∈ u.session.deleted) ∨
  e.has_replica = false ∨ ok = false

/-- The probe a call goes by, if it executes a `SELECT`. -/
def Op.select? : Op → Option Bool
  | .select ok | .load _ ok => some ok
  | _ => none

/-- After a committed write, a call that executes a `SELECT` is pinned. -/
def Careful (e : Engines) (u : Usage) (op : Op) : Prop :=
  u.committed = true → ∀ ok, op.select? = some ok → u.Pinned e ok

/-! ## The flag and the map -/

/-- Every open block restores what it found. -/
def Nested : List (Option Bool) → Prop
  | [] => True
  | previous :: blocks => previous = (if blocks = [] then none else some true) ∧ Nested blocks

structure Inv (u : Usage) : Prop where
  flag : u.session.force_primary = if u.blocks = [] then none else some true
  nested : Nested u.blocks
  referenced : ∀ i ∈ u.session.identity_map,
    i ∈ u.held ∨ i ∈ u.session.dirty ∨ i ∈ u.session.deleted

theorem inv_start : Inv .start where
  flag := rfl
  nested := trivial
  referenced := by intro i hi; cases hi

variable {e : Engines} {u u' : Usage} {op : Op}

/-- What is left in the map after a collection is referred to. -/
theorem mem_collect {s : RoutingSession} {held : List InstanceId} {i : InstanceId} :
    i ∈ (s.collect held).identity_map ↔
      i ∈ s.identity_map ∧ (i ∈ held ∨ i ∈ s.dirty ∨ i ∈ s.deleted) := by
  simp [RoutingSession.collect]

theorem inv_collect (hi : Inv u) {s : RoutingSession} {held : List InstanceId}
    {committed : Bool} (hflag : s.force_primary = u.session.force_primary) :
    Inv { u with session := s.collect held, held := held, committed := committed } where
  flag := hflag.trans hi.flag
  nested := hi.nested
  referenced := fun _ hmem => (mem_collect.mp hmem).2

/-- **The step lemma.**  The flag is set in a block and nowhere else, and the map holds what
something else holds. -/
theorem inv_step (hi : Inv u) (h : Step e u op u') : Inv u' := by
  obtain rfl := h
  cases op with
  | select ok => exact ⟨hi.flag, hi.nested, hi.referenced⟩
  | load i ok =>
      refine ⟨hi.flag, hi.nested, fun k hk => ?_⟩
      show k ∈ u.held.insert i ∨ _
      rcases List.mem_insert_iff.mp hk with rfl | hk
      · exact .inl (List.mem_insert_iff.mpr (.inl rfl))
      · exact (hi.referenced k hk).imp_left fun hheld => List.mem_insert_iff.mpr (.inr hheld)
  | add i =>
      have hsame : (u.session.add i).force_primary = u.session.force_primary ∧
          (u.session.add i).identity_map = u.session.identity_map ∧
          (u.session.add i).dirty = u.session.dirty ∧
          (u.session.add i).deleted = u.session.deleted := by
        unfold RoutingSession.add
        split <;> exact ⟨rfl, rfl, rfl, rfl⟩
      obtain ⟨hflag, hmap, hdirty, hdeleted⟩ := hsame
      refine ⟨hflag.trans hi.flag, hi.nested, fun k hk => ?_⟩
      show k ∈ u.held.insert i ∨ k ∈ (u.session.add i).dirty ∨ k ∈ (u.session.add i).deleted
      rw [hdirty, hdeleted]
      exact (hi.referenced k (hmap ▸ hk)).imp_left fun hheld => List.mem_insert_iff.mpr (.inr hheld)
  | modify i =>
      simp only [step]
      split
      · refine ⟨hi.flag, hi.nested, fun k hk => ?_⟩
        refine (hi.referenced k hk).imp_right fun h => h.imp_left fun hdirty => ?_
        exact List.mem_insert_iff.mpr (.inr hdirty)
      · exact hi
  | delete i =>
      simp only [step]
      split
      · refine ⟨hi.flag, hi.nested, fun k hk => ?_⟩
        refine (hi.referenced k hk).imp_right fun h => h.imp_right fun hdeleted => ?_
        exact List.mem_insert_iff.mpr (.inr hdeleted)
      · exact hi
  | flush => exact inv_collect hi rfl
  | dml => exact ⟨hi.flag, hi.nested, hi.referenced⟩
  | commit => exact inv_collect hi rfl
  | rollback => exact inv_collect hi rfl
  | drop i => exact inv_collect hi rfl
  | enter =>
      refine ⟨(if_neg (List.cons_ne_nil _ _)).symm, ⟨hi.flag, hi.nested⟩, hi.referenced⟩
  | exit =>
      have hnested := hi.nested
      simp only [step]
      split
      · exact hi
      · next previous blocks hblocks =>
          rw [hblocks] at hnested
          exact ⟨hnested.1, hnested.2, hi.referenced⟩

/-- The run lemma. -/
theorem inv_run {C : Usage → Op → Prop} (h : Run (Step e) C .start u) : Inv u :=
  h.invariant (fun hi _ hst => inv_step hi hst) inv_start

/-- **Where a `SELECT` goes**: to the primary exactly if it is pinned. -/
theorem select_bound_iff (hi : Inv u) (e : Engines) (ok : Bool) :
    u.session.get_bind e false .select ok = .primary ↔ u.Pinned e ok := by
  have hflag : u.session.force_primary.getD false = true ↔ u.blocks ≠ [] := by
    rw [hi.flag]
    by_cases hblocks : u.blocks = [] <;> simp [hblocks]
  have hmap : u.session.identity_map ≠ [] ↔ ∃ i ∈ u.session.identity_map,
      i ∈ u.held ∨ i ∈ u.session.dirty ∨ i ∈ u.session.deleted := by
    constructor
    · intro hne
      obtain ⟨i, hmem⟩ := List.exists_mem_of_ne_nil _ hne
      exact ⟨i, hmem, hi.referenced i hmem⟩
    · rintro ⟨i, hmem, _⟩
      exact List.ne_nil_of_mem hmem
  have hreplica : (if e._replica_available ok = true then e.replica_engine else .primary)
      = .primary ↔ e.has_replica = false ∨ ok = false := by
    unfold Engines._replica_available Engines.replica_engine
    cases e.has_replica <;> cases ok <;> simp
  unfold RoutingSession.get_bind Pinned
  simp only [Bool.false_eq_true, if_false, hflag, hmap]
  split
  · next hpin => exact iff_of_true rfl (or_assoc.mp (.inl hpin))
  · next hnot =>
      rw [hreplica, ← or_assoc, ← or_assoc, or_assoc (c := ok = false)]
      exact (or_iff_right hnot).symm

/-! ## Runs -/

/-- A call executes the `SELECT` its label says, or none. -/
theorem selects_step (h : Step e u op u') : u'.selects = u.selects ∨
    ∃ ok, op.select? = some ok ∧
      u'.selects = ⟨u.committed, u.session.get_bind e false .select ok⟩ :: u.selects := by
  obtain rfl := h
  cases op with
  | select ok | load _ ok => exact .inr ⟨ok, rfl, rfl⟩
  | modify | delete | exit =>
      simp only [step]
      split <;> exact .inl rfl
  | _ => exact .inl rfl

theorem readsWrites_step (hi : Inv u) (hreads : u.ReadsWrites) (hop : u.Careful e op)
    (h : Step e u op u') : u'.ReadsWrites := by
  rcases selects_step h with hsame | ⟨ok, hok, hnew⟩
  · unfold ReadsWrites
    rw [hsame]
    exact hreads
  · intro r hr hafter
    rw [hnew] at hr
    rcases List.mem_cons.mp hr with rfl | hr
    · exact (select_bound_iff hi e ok).mpr (hop hafter ok hok)
    · exact hreads r hr hafter

theorem readsWrites_run (h : Run (Step e) (Careful e) .start u) : u.ReadsWrites := by
  induction h with
  | refl => intro r hr; cases hr
  | snoc hrun hop hst ih => exact readsWrites_step (inv_run hrun) ih hop hst

/-! ### A caller that keeps an instance -/

/-- The caller holds an instance whose row is committed. -/
structure Keeps (u : Usage) (i : InstanceId) : Prop where
  held : i ∈ u.held
  mapped : i ∈ u.session.identity_map
  not_new : i ∉ u.session.new
  not_inserted : i ∉ u.session.inserted
  not_deleted : i ∉ u.session.deleted

/-- The call neither drops the instance nor deletes it. -/
def Op.Spares (i : InstanceId) : Op → Prop
  | .drop k | .delete k => k ≠ i
  | _ => True

theorem keeps_step {i : InstanceId} (hk : u.Keeps i) (hop : op.Spares i) (h : Step e u op u') :
    u'.Keeps i := by
  obtain rfl := h
  have hflushed : i ∈ u.session.flush.identity_map :=
    List.mem_append_left _ (List.mem_filter.mpr ⟨hk.mapped, decide_eq_true hk.not_deleted⟩)
  cases op with
  | select ok => exact ⟨hk.held, hk.mapped, hk.not_new, hk.not_inserted, hk.not_deleted⟩
  | load k ok =>
      exact ⟨List.mem_insert_iff.mpr (.inr hk.held), List.mem_insert_iff.mpr (.inr hk.mapped),
        hk.not_new, hk.not_inserted, hk.not_deleted⟩
  | add k =>
      have hheld : i ∈ u.held.insert k := List.mem_insert_iff.mpr (.inr hk.held)
      simp only [step, RoutingSession.add]
      split
      · exact ⟨hheld, hk.mapped, hk.not_new, hk.not_inserted, hk.not_deleted⟩
      · next hnot =>
          refine ⟨hheld, hk.mapped, fun hnew => ?_, hk.not_inserted, hk.not_deleted⟩
          rcases List.mem_insert_iff.mp hnew with rfl | hnew
          · exact hnot hk.mapped
          · exact hk.not_new hnew
  | modify k =>
      simp only [step]
      split
      · exact ⟨hk.held, hk.mapped, hk.not_new, hk.not_inserted, hk.not_deleted⟩
      · exact hk
  | delete k =>
      simp only [step]
      split
      · refine ⟨hk.held, hk.mapped, hk.not_new, hk.not_inserted, fun hdel => ?_⟩
        rcases List.mem_insert_iff.mp hdel with rfl | hdel
        · exact hop rfl
        · exact hk.not_deleted hdel
      · exact hk
  | flush =>
      refine ⟨hk.held, mem_collect.mpr ⟨hflushed, .inl hk.held⟩, List.not_mem_nil, ?_,
        List.not_mem_nil⟩
      intro hins
      rcases List.mem_append.mp hins with hins | hnew
      · exact hk.not_inserted hins
      · exact hk.not_new hnew
  | dml => exact ⟨hk.held, hk.mapped, hk.not_new, hk.not_inserted, hk.not_deleted⟩
  | commit =>
      exact ⟨hk.held, mem_collect.mpr ⟨hflushed, .inl hk.held⟩, List.not_mem_nil,
        List.not_mem_nil, List.not_mem_nil⟩
  | rollback =>
      refine ⟨hk.held, mem_collect.mpr ⟨List.mem_append_left _ ?_, .inl hk.held⟩,
        List.not_mem_nil, List.not_mem_nil, List.not_mem_nil⟩
      exact List.mem_filter.mpr ⟨hk.mapped, decide_eq_true hk.not_inserted⟩
  | drop k =>
      have hheld : i ∈ u.held.filter (· ≠ k) :=
        List.mem_filter.mpr ⟨hk.held, decide_eq_true (Ne.symm hop)⟩
      exact ⟨hheld, mem_collect.mpr ⟨hk.mapped, .inl hheld⟩, hk.not_new, hk.not_inserted,
        hk.not_deleted⟩
  | enter => exact ⟨hk.held, hk.mapped, hk.not_new, hk.not_inserted, hk.not_deleted⟩
  | exit =>
      simp only [step]
      split
      · exact hk
      · exact ⟨hk.held, hk.mapped, hk.not_new, hk.not_inserted, hk.not_deleted⟩

/-- **Reads after a write.**  In every history of a session, a `SELECT` goes to the primary
exactly if it is pinned; so where every `SELECT` after a committed write is, the session
reads its own writes.  A caller that keeps one committed instance, and does not delete it,
keeps every `SELECT` pinned. -/
theorem reads_after_write (e : Engines) :
    (∀ u, Run (Step e) Any .start u → ∀ ok,
      u.session.get_bind e false .select ok = .primary ↔ u.Pinned e ok) ∧
    (∀ u, Run (Step e) (Careful e) .start u → u.ReadsWrites) ∧
    ∀ u u' i, u.Keeps i → Run (Step e) (fun _ op => op.Spares i) u u' →
      ∀ ok, u'.Pinned e ok := by
  refine ⟨fun u h ok => select_bound_iff (inv_run h) e ok, fun u h => readsWrites_run h, ?_⟩
  intro u u' i hk h ok
  have hk' : u'.Keeps i := h.invariant (I := fun u => u.Keeps i)
    (fun hk hop hst => keeps_step hk hop hst) hk
  exact .inr (.inl ⟨i, hk'.mapped, .inl hk'.held⟩)

/-- A job is created in a block of `force_primary`, read back, and kept: a `SELECT` after the
block goes to the primary. -/
theorem reads_after_create : ∃ u, Run (Step ⟨true⟩) (Careful ⟨true⟩) .start u ∧
    u.selects = [⟨true, .primary⟩, ⟨true, .primary⟩] ∧ u.ReadsWrites := by
  have h : Run (Step ⟨true⟩) (Careful ⟨true⟩) .start .start := .refl
  have h := h.snoc (l := .enter) (by rintro ⟨⟩) rfl
  have h := h.snoc (l := .add 1) (by rintro ⟨⟩) rfl
  have h := h.snoc (l := .commit) (by rintro ⟨⟩) rfl
  have h := h.snoc (l := .load 1 true) (by rintro _ ok ⟨⟩; exact .inl (by decide)) rfl
  have h := h.snoc (l := .exit) (by rintro _ ok ⟨⟩) rfl
  have h := h.snoc (l := .select true) (by rintro _ ok ⟨⟩; exact .inr (.inl (by decide))) rfl
  exact ⟨_, h, rfl, (reads_after_write ⟨true⟩).2.1 _ h⟩

/-- The session deletes the one job it has loaded; its next `SELECT` goes to the replica. -/
theorem delete_reads_from_replica : ¬ ∀ e u, Run (Step e) Any .start u → u.ReadsWrites := by
  intro hall
  have h : Run (Step ⟨true⟩) Any .start .start := .refl
  have h := h.snoc (l := .load 1 true) trivial rfl
  have h := h.snoc (l := .delete 1) trivial rfl
  have h := h.snoc (l := .commit) trivial rfl
  have h := h.snoc (l := .select true) trivial rfl
  cases hall _ _ h _ List.mem_cons_self rfl

end Usage

end Dass
