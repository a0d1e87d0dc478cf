/-
# `Dass.Lib.Poller` — following a table by a rewound cursor

A reader follows a table that others write by asking, pass after pass, for the rows
stamped at or after a cursor.  A row's stamp is older than the moment the row shows,
so a cursor that is simply the start of the last pass skips rows for good.  Rewound
by an `overlap`, it skips none that shows within the overlap of its stamp
(`never_skips`): at a read, every change nobody has read yet is answered, or the same
row has changed once more and that change is.

    tick     time passes
    change   a row with this key shows, another one instead of it, or none
    begin    a pass starts
    read     its read is answered; the cursor is the pass's start, rewound
    raise    its read raises; the cursor stays

Nothing orders the changes against the passes.
-/
import Dass.Lib.Run
import Mathlib.Algebra.Order.Group.Defs
import Mathlib.Algebra.Order.Sub.Basic
import Mathlib.Logic.Function.Basic

namespace Poller

open Lts

variable {κ ρ τ : Type*}

/-- What shows under a key from now on. -/
structure Change (κ ρ : Type*) where
  key : κ
  row : Option ρ

/-- What the reader asks for. -/
structure Query (ρ τ : Type*) where
  stamp : ρ → τ
  wanted : ρ → Prop
  overlap : τ

structure State (κ ρ τ : Type*) where
  now : τ
  rows : κ → Option ρ
  /-- what has changed since the last answered read, newest first -/
  unread : List (Change κ ρ)
  cursor : Option τ
  /-- when the pass in progress started -/
  started : Option τ

inductive Label (κ ρ τ : Type*) where
  | tick (d : τ)
  | change (c : Change κ ρ)
  | begin
  | read
  | raise

variable [DecidableEq κ]

/-- The last change of a row among some. -/
def last (key : κ) (changes : List (Change κ ρ)) : Option (Change κ ρ) :=
  changes.find? fun c => c.key = key

theorem last_cons_self (c : Change κ ρ) (changes : List (Change κ ρ)) :
    last c.key (c :: changes) = some c := by
  simp [last]

theorem last_cons_of_ne {c : Change κ ρ} {key : κ} (h : c.key ≠ key)
    (changes : List (Change κ ρ)) : last key (c :: changes) = last key changes := by
  simp [last, h]

theorem last_mem {key : κ} {changes : List (Change κ ρ)} {c : Change κ ρ}
    (h : last key changes = some c) : c ∈ changes ∧ c.key = key := by
  have hkey := List.find?_some h
  exact ⟨List.mem_of_find?_eq_some h, by simpa using hkey⟩

/-- The change of a row is its last one, or one of the newer ones is. -/
theorem last_append (newer older : List (Change κ ρ)) (c : Change κ ρ) :
    last c.key (newer ++ c :: older) = some c ∨
      ∃ c' ∈ newer, c'.key = c.key ∧ last c.key (newer ++ c :: older) = some c' := by
  induction newer with
  | nil => exact .inl (last_cons_self c older)
  | cons x newer ih =>
      by_cases hx : x.key = c.key
      · refine .inr ⟨x, List.mem_cons_self, hx, ?_⟩
        rw [← hx]
        exact last_cons_self x _
      · rw [List.cons_append, last_cons_of_ne hx]
        rcases ih with ih | ⟨c', hc', hkey, ih⟩
        · exact .inl ih
        · exact .inr ⟨c', List.mem_cons_of_mem _ hc', hkey, ih⟩

/-! ## The reader -/

variable [AddCommGroup τ] [LinearOrder τ]

open Function in
inductive Step (q : Query ρ τ) : State κ ρ τ → Label κ ρ τ → State κ ρ τ → Prop
  | tick {s d} : 0 ≤ d → Step q s (.tick d) { s with now := s.now + d }
  | change {s c} : (∀ row, c.row = some row → q.wanted row → s.now - q.stamp row ≤ q.overlap) →
      Step q s (.change c) { s with
        rows := update s.rows c.key c.row, unread := c :: s.unread }
  | begin {s} : s.started = none → Step q s .begin { s with started := some s.now }
  | read {s p} : s.started = some p → Step q s .read { s with
      unread := [], cursor := some (p - q.overlap), started := none }
  | raise {s p} : s.started = some p → Step q s .raise { s with started := none }

/-- A read would answer the row. -/
def State.Answers (q : Query ρ τ) (s : State κ ρ τ) (key : κ) (row : ρ) : Prop :=
  s.rows key = some row ∧ q.wanted row ∧ ∀ t, s.cursor = some t → t ≤ q.stamp row

/-! ## The invariant -/

/-- Whatever has not been read is stamped at or after the cursor. -/
structure Inv (q : Query ρ τ) (s : State κ ρ τ) : Prop where
  cursor : ∀ t, s.cursor = some t → t ≤ s.now - q.overlap
  started : ∀ p, s.started = some p → p ≤ s.now
  rows : ∀ key c, last key s.unread = some c → s.rows key = c.row
  unread : ∀ c ∈ s.unread, ∀ row, c.row = some row → q.wanted row →
    ∀ t, s.cursor = some t → t ≤ q.stamp row

/-- **The step lemma.** -/
theorem inv_step [IsOrderedAddMonoid τ] {q : Query ρ τ} {s s' : State κ ρ τ}
    {l : Label κ ρ τ} (hi : Inv q s) (h : Step q s l s') : Inv q s' := by
  cases h with
  | tick hd =>
      have hle : s.now ≤ s.now + _ := le_add_of_nonneg_right hd
      refine ⟨fun t ht => ?_, fun p hp => (hi.started p hp).trans hle, hi.rows, hi.unread⟩
      exact (hi.cursor t ht).trans (sub_le_sub_right hle _)
  | @change c hlag =>
      refine ⟨hi.cursor, hi.started, ?_, ?_⟩
      · intro key c' hlast
        by_cases hkey : c.key = key
        · subst hkey
          rw [last_cons_self] at hlast
          cases hlast
          exact Function.update_self _ _ _
        · rw [last_cons_of_ne hkey] at hlast
          show Function.update s.rows c.key c.row key = c'.row
          rw [Function.update_of_ne (Ne.symm hkey)]
          exact hi.rows key c' hlast
      · intro c' hc' row hrow hwanted t ht
        rcases List.mem_cons.mp hc' with rfl | hc'
        · -- the stamp is at most the overlap old, and the cursor at least that
          have hcursor := hi.cursor t ht
          have hstamp : s.now - q.overlap ≤ q.stamp row := sub_le_comm.mp (hlag row hrow hwanted)
          exact hcursor.trans hstamp
        · exact hi.unread c' hc' row hrow hwanted t ht
  | begin hnone =>
      refine ⟨hi.cursor, fun p hp => ?_, hi.rows, hi.unread⟩
      cases hp
      exact le_refl _
  | @read p hp =>
      refine ⟨fun t ht => ?_, nofun, nofun, nofun⟩
      cases ht
      exact sub_le_sub_right (hi.started p hp) _
  | raise hp => exact ⟨hi.cursor, nofun, hi.rows, hi.unread⟩

/-- The run lemma. -/
theorem inv_run [IsOrderedAddMonoid τ] {q : Query ρ τ} {s t : State κ ρ τ} (hs : Inv q s)
    (h : Run (Step q) Any s t) : Inv q t :=
  h.invariant (fun hi _ hst => inv_step hi hst) hs

/-- The last change of a row is answered. -/
theorem Inv.answers {q : Query ρ τ} {s : State κ ρ τ} (hi : Inv q s) {key : κ} {c : Change κ ρ}
    (hlast : last key s.unread = some c) {row : ρ} (hrow : c.row = some row)
    (hwanted : q.wanted row) : s.Answers q key row :=
  ⟨(hi.rows key c hlast).trans hrow, hwanted,
    hi.unread c (last_mem hlast).1 row hrow hwanted⟩

/-- **No change is skipped.**  Of the changes nobody has read, each is answered, or the row
has changed once more since, and the last of those changes is answered. -/
theorem never_skips {q : Query ρ τ} {s : State κ ρ τ} (hi : Inv q s)
    {newer older : List (Change κ ρ)} {c : Change κ ρ} (hunread : s.unread = newer ++ c :: older)
    {row : ρ} (hrow : c.row = some row) (hwanted : q.wanted row) :
    s.Answers q c.key row ∨ ∃ c' ∈ newer, c'.key = c.key ∧ s.rows c.key = c'.row ∧
      ∀ row', c'.row = some row' → q.wanted row' → s.Answers q c.key row' := by
  rcases last_append newer older c with hlast | ⟨c', hc', hkey, hlast⟩
  · rw [← hunread] at hlast
    exact .inl (hi.answers hlast hrow hwanted)
  · rw [← hunread] at hlast
    exact .inr ⟨c', hc', hkey, hi.rows _ _ hlast, fun row' hrow' => hi.answers hlast hrow'⟩

end Poller
