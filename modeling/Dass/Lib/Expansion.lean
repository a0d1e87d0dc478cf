/-
# `Dass.Lib.Expansion` — references to variables in a text

A text may refer to variables, and whoever reads it puts their values in.  `Marks` are the signs
for that.  With `$`, `(` and `)`,

    $$         stands for `$`
    $(NAME)    stands for the value of the variable, or for itself where there is none

and everything else for itself, a `$` that begins neither of the two included.  A text is read
from the left, and what is between the brackets of a reference is its name, whatever it is.

A text in which all stands for itself is left as it is.  Where no value has a `$` in it no other
text is (`expand_eq_self_iff`): whatever stands for something else takes a `$` away, and nothing
puts one in.
-/
import Mathlib.Data.List.Basic

namespace Expansion

/-- The signs. -/
structure Marks (α : Type*) where
  operator : α
  opener : α
  closer : α

/-- What a text is made of. -/
inductive Piece (α : Type*) where
  | char (a : α)
  | escaped
  | reference (name : List α)
deriving DecidableEq

variable {α : Type*} [DecidableEq α]

/-- A piece as it is written. -/
def Marks.source (m : Marks α) : Piece α → List α
  | .char a => [a]
  | .escaped => [m.operator, m.operator]
  | .reference name => m.operator :: m.opener :: (name ++ [m.closer])

/-- What it stands for. -/
def Marks.stands_for (m : Marks α) (value : List α → Option (List α)) : Piece α → List α
  | .char a => [a]
  | .escaped => [m.operator]
  | .reference name => (value name).getD (m.source (.reference name))

/-- It stands for itself. -/
def Piece.itself (value : List α → Option (List α)) : Piece α → Bool
  | .char _ => true
  | .escaped => false
  | .reference name => (value name).isNone

/-- The piece a text begins with, and how much it takes of the rest. -/
def Marks.first (m : Marks α) (a : α) (rest : List α) : Piece α × Nat :=
  match rest with
  | [] => (.char a, 0)
  | b :: text =>
      if a = m.operator ∧ b = m.operator then (.escaped, 1)
      else if a = m.operator ∧ b = m.opener ∧ m.closer ∈ text then
        (.reference (text.takeWhile (· ≠ m.closer)),
          (text.takeWhile (· ≠ m.closer)).length + 2)
      else (.char a, 0)

/-- The pieces of a text, of which some is taken already. -/
def Marks.read (m : Marks α) : Nat → List α → List (Piece α)
  | _, [] => []
  | taken + 1, _ :: rest => m.read taken rest
  | 0, a :: rest => (m.first a rest).1 :: m.read (m.first a rest).2 rest

def Marks.pieces (m : Marks α) (text : List α) : List (Piece α) := m.read 0 text

/-- The text with the values in it. -/
def Marks.expand (m : Marks α) (value : List α → Option (List α)) (text : List α) : List α :=
  (m.pieces text).flatMap (m.stands_for value)

/-- All of the text stands for itself. -/
def Marks.Plain (m : Marks α) (value : List α → Option (List α)) (text : List α) : Prop :=
  ∀ p ∈ m.pieces text, p.itself value = true

instance (m : Marks α) (value : List α → Option (List α)) (text : List α) :
    Decidable (m.Plain value text) :=
  inferInstanceAs (Decidable (∀ p ∈ m.pieces text, _))

section

variable {m : Marks α} {value : List α → Option (List α)} {text : List α}

/-! ## The pieces are the text -/

/-- What is up to a sign, with the sign. -/
theorem take_takeWhile_ne {c : α} (h : c ∈ text) :
    text.take ((text.takeWhile (· ≠ c)).length + 1) = text.takeWhile (· ≠ c) ++ [c] := by
  induction text with
  | nil => cases h
  | cons a rest ih =>
      by_cases hac : a = c
      · simp [hac]
      · have hrest : c ∈ rest := (List.mem_cons.mp h).resolve_left (Ne.symm hac)
        rw [List.takeWhile_cons_of_pos (by simpa using hac), List.length_cons,
          List.take_succ_cons, ih hrest, List.cons_append]

theorem source_first (m : Marks α) (a : α) (rest : List α) :
    m.source (m.first a rest).1 = a :: rest.take (m.first a rest).2 := by
  unfold Marks.first
  split
  · rfl
  · next b text =>
      split
      · next h =>
          rw [h.1, h.2]
          rfl
      · split
        · next h =>
            rw [List.take_succ_cons, take_takeWhile_ne h.2.2, h.1, h.2.1]
            rfl
        · rfl

theorem flatMap_source_read (m : Marks α) (taken : Nat) (text : List α) :
    (m.read taken text).flatMap m.source = text.drop taken := by
  induction text generalizing taken with
  | nil => simp [Marks.read]
  | cons a rest ih =>
      cases taken with
      | zero =>
          rw [Marks.read, List.flatMap_cons, ih, source_first, List.cons_append,
            List.take_append_drop, List.drop_zero]
      | succ taken => rw [Marks.read, ih, List.drop_succ_cons]

theorem flatMap_source (m : Marks α) (text : List α) :
    (m.pieces text).flatMap m.source = text :=
  flatMap_source_read m 0 text

/-- A text without the operator is read sign by sign. -/
theorem pieces_of_notMem (h : m.operator ∉ text) : m.pieces text = text.map .char := by
  unfold Marks.pieces
  induction text with
  | nil => rfl
  | cons a rest ih =>
      rw [List.mem_cons, not_or] at h
      have hfirst : m.first a rest = (.char a, 0) := by
        unfold Marks.first
        split
        · rfl
        · rw [if_neg fun hop => h.1 hop.1.symm, if_neg fun hop => h.1 hop.1.symm]
      rw [Marks.read, hfirst, ih h.2, List.map_cons]

/-! ## What is left as it is -/

theorem plain_of_notMem (h : m.operator ∉ text) : m.Plain value text := by
  intro p hp
  rw [pieces_of_notMem h] at hp
  obtain ⟨a, _, rfl⟩ := List.mem_map.mp hp
  rfl

omit [DecidableEq α] in
theorem stands_for_itself {p : Piece α} (h : p.itself value = true) :
    m.stands_for value p = m.source p := by
  cases p with
  | char a => rfl
  | escaped => cases h
  | reference name =>
      rw [Marks.stands_for, Option.isNone_iff_eq_none.mp h]
      rfl

theorem expand_of_plain (h : m.Plain value text) : m.expand value text = text := by
  rw [Marks.expand, List.flatMap_congr fun p hp => stands_for_itself (h p hp), flatMap_source]

/-- What stands for something else takes an operator away. -/
theorem count_stands_for_lt {p : Piece α}
    (hvalue : ∀ name v, value name = some v → m.operator ∉ v) (h : p.itself value = false) :
    (m.stands_for value p).count m.operator < (m.source p).count m.operator := by
  cases p with
  | char a => cases h
  | escaped => simp [Marks.stands_for, Marks.source]
  | reference name =>
      obtain ⟨v, hv⟩ : ∃ v, value name = some v :=
        Option.isSome_iff_exists.mp (by simpa [Piece.itself] using h)
      rw [Marks.stands_for, hv, Option.getD_some, List.count_eq_zero.mpr (hvalue name v hv)]
      exact List.count_pos_iff.mpr List.mem_cons_self

theorem count_stands_for_le (hvalue : ∀ name v, value name = some v → m.operator ∉ v)
    (p : Piece α) :
    (m.stands_for value p).count m.operator ≤ (m.source p).count m.operator := by
  cases h : p.itself value with
  | true => exact Nat.le_of_eq (congrArg (List.count m.operator) (stands_for_itself h))
  | false => exact Nat.le_of_lt (count_stands_for_lt hvalue h)

theorem count_flatMap_le (hvalue : ∀ name v, value name = some v → m.operator ∉ v)
    (pieces : List (Piece α)) : (pieces.flatMap (m.stands_for value)).count m.operator ≤
      (pieces.flatMap m.source).count m.operator := by
  induction pieces with
  | nil => exact Nat.le_refl _
  | cons p rest ih =>
      rw [List.flatMap_cons, List.flatMap_cons, List.count_append, List.count_append]
      exact Nat.add_le_add (count_stands_for_le hvalue p) ih

/-- Where no operator is taken away, all stands for itself. -/
theorem itself_of_count (hvalue : ∀ name v, value name = some v → m.operator ∉ v)
    {pieces : List (Piece α)}
    (h : (pieces.flatMap m.source).count m.operator ≤
      (pieces.flatMap (m.stands_for value)).count m.operator) :
    ∀ p ∈ pieces, p.itself value = true := by
  induction pieces with
  | nil => exact List.forall_mem_nil _
  | cons p rest ih =>
      rw [List.flatMap_cons, List.flatMap_cons, List.count_append, List.count_append] at h
      have hp := count_stands_for_le hvalue p
      have hrest := count_flatMap_le hvalue rest
      refine List.forall_mem_cons.mpr ⟨?_, ih (by omega)⟩
      by_contra hother
      have hlt := count_stands_for_lt hvalue (Bool.of_not_eq_true hother)
      omega

/-- **A text is left as it is** exactly if all of it stands for itself. -/
theorem expand_eq_self_iff (hvalue : ∀ name v, value name = some v → m.operator ∉ v) :
    m.expand value text = text ↔ m.Plain value text := by
  refine ⟨fun h => itself_of_count hvalue ?_, expand_of_plain⟩
  rw [flatMap_source]
  exact Nat.le_of_eq (congrArg (List.count m.operator) h.symm)

end

end Expansion
