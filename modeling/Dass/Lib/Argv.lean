/-
# `Dass.Lib.Argv` — how a program reads its arguments

A command line is a list of words, and a program reads it from the left: a word that looks
like an option is one, alone or with the next word as its value, whatever that word is; `--`
ends the options; any other word is an operand.  Some programs take options between operands,
some take everything from the first operand on as operands (`interspersed`).

What a word that looks like an option means is up to the program (`option`), so whoever writes
a command line has to know two things: that the options it writes are read as it means them
(`read_options`), and that none of its operands looks like an option.  One that does is lost as
an operand (`operands_length`).
-/
import Mathlib.Tactic.TypeStar

namespace Argv

/-- The option grammar of a program. -/
structure Grammar where
  /-- the word looks like an option -/
  looks : String → Bool
  /-- how such a word is read: not at all, alone (`some false`), or with a value -/
  option : String → Option Bool
  /-- options may follow operands -/
  interspersed : Bool

/-- What was read. -/
structure Reading where
  options : List (String × Option String)
  operands : List String
deriving DecidableEq

/-- One more option in front. -/
def Reading.cons (o : String × Option String) (r : Reading) : Reading :=
  { r with options := o :: r.options }

variable (g : Grammar)

/-- Reads a command line; `none` where the program refuses it. -/
def Grammar.read : List String → Option Reading
  | [] => some ⟨[], []⟩
  | w :: rest =>
      if g.looks w = false then
        if g.interspersed then (read rest).map fun r => { r with operands := w :: r.operands }
        else some ⟨[], w :: rest⟩
      else if w = "--" then some ⟨[], rest⟩
      else
        match g.option w with
        | none => none
        | some false => (read rest).map (.cons (w, none))
        | some true =>
            match rest with
            | [] => none
            | v :: rest => (read rest).map (.cons (w, some v))

/-- The words of an option. -/
def words : String × Option String → List String
  | (w, none) => [w]
  | (w, some v) => [w, v]

/-- The program reads the option as it is written. -/
def Grammar.Knows (o : String × Option String) : Prop :=
  g.looks o.1 = true ∧ o.1 ≠ "--" ∧ g.option o.1 = some o.2.isSome

variable {g}

theorem Grammar.read_option {o : String × Option String} (h : g.Knows o) (rest : List String) :
    g.read (words o ++ rest) = (g.read rest).map (.cons o) := by
  obtain ⟨hlooks, hend, hoption⟩ := h
  have hne : ¬ g.looks o.1 = false := by rw [hlooks]; decide
  obtain ⟨w, v⟩ := o
  cases v with
  | none =>
      rw [words, List.singleton_append, read.eq_def]
      simp only [if_neg hne, if_neg hend, hoption, Option.isSome_none]
  | some v =>
      rw [words, List.cons_append, List.singleton_append, read.eq_def]
      simp only [if_neg hne, if_neg hend, hoption, Option.isSome_some]

/-- Options that are written in front are read in front, whatever their values look like. -/
theorem Grammar.read_options {os : List (String × Option String)} (h : ∀ o ∈ os, g.Knows o)
    (rest : List String) :
    g.read (os.flatMap words ++ rest) =
      (g.read rest).map fun r => { r with options := os ++ r.options } := by
  induction os with
  | nil =>
      rw [List.flatMap_nil, List.nil_append]
      exact (Option.map_id' (x := g.read rest)).symm
  | cons o os ih =>
      rw [List.flatMap_cons, List.append_assoc, read_option (h o List.mem_cons_self),
        ih fun o ho => h o (List.mem_cons_of_mem _ ho), Option.map_map]
      rfl

theorem Grammar.read_operand {w : String} (hlooks : g.looks w = false)
    (h : g.interspersed = false) (rest : List String) :
    g.read (w :: rest) = some ⟨[], w :: rest⟩ := by
  rw [read.eq_def]
  simp only [hlooks, h, if_true, Bool.false_eq_true, if_false]

/-- There are no more operands than words. -/
theorem Grammar.operands_le {ws : List String} {r : Reading} (h : g.read ws = some r) :
    r.operands.length ≤ ws.length := by
  fun_induction Grammar.read g ws generalizing r with
  | case1 =>
      cases h
      exact Nat.le_refl _
  | case2 w rest _ _ ih =>
      obtain ⟨r', hr', rfl⟩ := Option.map_eq_some_iff.mp h
      exact Nat.succ_le_succ (ih hr')
  | case3 =>
      cases h
      exact Nat.le_refl _
  | case4 =>
      cases h
      exact Nat.le_succ _
  | case5 => cases h
  | case6 w rest _ _ _ ih =>
      obtain ⟨r', hr', rfl⟩ := Option.map_eq_some_iff.mp h
      have hle := ih hr'
      exact Nat.le_trans hle (Nat.le_succ _)
  | case7 => cases h
  | case8 w v rest _ _ _ ih =>
      obtain ⟨r', hr', rfl⟩ := Option.map_eq_some_iff.mp h
      have hle := ih hr'
      exact Nat.le_trans hle (Nat.le_add_right _ 2)

/-- A word that looks like an option is no operand. -/
theorem Grammar.operands_length {w : String} {rest : List String} {r : Reading}
    (hlooks : g.looks w = true) (h : g.read (w :: rest) = some r) :
    r.operands.length ≤ rest.length := by
  have hne : ¬ g.looks w = false := by rw [hlooks]; decide
  rw [read.eq_def] at h
  simp only [if_neg hne] at h
  split at h
  · cases h
    exact Nat.le_refl _
  · split at h
    · cases h
    · obtain ⟨r', hr', rfl⟩ := Option.map_eq_some_iff.mp h
      have hle := operands_le hr'
      exact hle
    · split at h
      · cases h
      · obtain ⟨r', hr', rfl⟩ := Option.map_eq_some_iff.mp h
        have hle := operands_le hr'
        exact Nat.le_trans hle (Nat.le_succ _)

/-- The values an option was given. -/
def Reading.values (r : Reading) (w : String) : List String :=
  r.options.filterMap fun o => if o.1 = w then o.2 else none

end Argv
