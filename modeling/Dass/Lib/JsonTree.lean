/-
# `Dass.Lib.JsonTree` — JSON text as a tree, and back

A tree is what a JSON text says and no more: a number is its numeral, and the members of an object
are in the order of the text, a name as often as it is there.  What a program makes of numbers and
of names given twice is its own.

`read` takes a text, with one value and blanks around it.  Its fuel is the length of the text, and
more of it does not matter (`value_fuel`).  A numeral is read to its end, since whatever is in it is
a character of numerals (`isNumeral_chars`).
-/
import Dass.Lib.JsonText
import Mathlib.Data.List.TakeWhile
import Mathlib.Tactic.IntervalCases

namespace JsonTree

open JsonText

/-! ## Trees -/

mutual
inductive Tree where
  | null
  | bool (b : Bool)
  | num (numeral : List Char)
  | str (s : String)
  | arr (items : Trees)
  | obj (members : Members)
inductive Trees where
  | nil
  | cons (head : Tree) (tail : Trees)
inductive Members where
  | nil
  | cons (name : String) (value : Tree) (tail : Members)
end

deriving instance DecidableEq for Tree, Trees, Members

/-- The members as a list. -/
def Members.pairs : Members → List (String × Tree)
  | .nil => []
  | .cons name v ms => (name, v) :: ms.pairs

def Members.ofPairs : List (String × Tree) → Members
  | [] => .nil
  | p :: ps => .cons p.1 p.2 (.ofPairs ps)

@[simp] theorem Members.pairs_ofPairs (ps : List (String × Tree)) : (ofPairs ps).pairs = ps := by
  induction ps with
  | nil => rfl
  | cons p ps ih => exact congrArg (List.cons p) ih

@[simp] theorem Members.ofPairs_pairs : (ms : Members) → ofPairs ms.pairs = ms
  | .nil => rfl
  | .cons name v ms => congrArg (Members.cons name v) ms.ofPairs_pairs

/-! ## Numerals -/

/-- The characters of a numeral. -/
def numeralChar (c : Char) : Bool :=
  c.isDigit || c = '-' || c = '+' || c = '.' || c = 'e' || c = 'E'

/-- The text is a number of JSON, without a sign. -/
def isUnsigned (s : List Char) : Bool :=
  match scan_int s with
  | none => false
  | some (_, rest) =>
      let rest := ((scan_frac rest).getD ([], rest)).2
      ((scan_exp rest).getD (0, rest)).2.isEmpty

/-- The text is a number of JSON. -/
def isNumeral (s : List Char) : Bool := isUnsigned (if s.head? = some '-' then s.tail else s)

/-- The numeral at the front. -/
def numeral (s : List Char) : Option (List Char × List Char) :=
  if isNumeral (s.takeWhile numeralChar) then
    some (s.takeWhile numeralChar, s.dropWhile numeralChar)
  else none

/-! ## Reading -/

/-- A string, from behind its opening quote. -/
def string (s : List Char) : Option (String × List Char) :=
  match scanstring s with
  | .ok p => some p
  | .error _ => none

/-- A word at the front. -/
def word (w : List Char) (v : Tree) (s : List Char) : Option (Tree × List Char) :=
  if w.isPrefixOf s then some (v, s.drop w.length) else none

/-- A value that is no string and no container. -/
def atom (s : List Char) : Option (Tree × List Char) :=
  ((word ['n', 'u', 'l', 'l'] .null s).or (word ['t', 'r', 'u', 'e'] (.bool true) s)).or
    ((word ['f', 'a', 'l', 's', 'e'] (.bool false) s).or
      ((numeral s).map fun p => (.num p.1, p.2)))

/-- The name, the colon and the value of a member. -/
def member (scan : List Char → Option (Tree × List Char)) :
    List Char → Option ((String × Tree) × List Char)
  | [] => none
  | c :: s =>
      if c = '"' then (string s).bind fun p =>
        match skip p.2 with
        | [] => none
        | c :: rest =>
            if c = ':' then (scan (skip rest)).map fun q => ((p.1, q.1), q.2) else none
      else none

mutual
/-- A value, from its first character. -/
def value : Nat → List Char → Option (Tree × List Char)
  | 0, _ => none
  | _ + 1, [] => none
  | n + 1, c :: s =>
      if c = '"' then (string s).map fun p => (.str p.1, p.2)
      else if c = '[' then
        if (skip s).head? = some ']' then some (.arr .nil, (skip s).tail)
        else (value n (skip s)).bind fun p => (items n p.2).map fun q => (.arr (.cons p.1 q.1), q.2)
      else if c = '\x7b' then
        if (skip s).head? = some '\x7d' then some (.obj .nil, (skip s).tail)
        else (member (value n) (skip s)).bind fun p => (members n p.2).map fun q =>
          (.obj (.cons p.1.1 p.1.2 q.1), q.2)
      else atom (c :: s)

/-- The elements that follow, up to the bracket. -/
def items : Nat → List Char → Option (Trees × List Char)
  | 0, _ => none
  | n + 1, s =>
      match skip s with
      | [] => none
      | c :: s =>
          if c = ']' then some (.nil, s)
          else if c = ',' then
            (value n (skip s)).bind fun p => (items n p.2).map fun q => (.cons p.1 q.1, q.2)
          else none

/-- The members that follow, up to the brace. -/
def members : Nat → List Char → Option (Members × List Char)
  | 0, _ => none
  | n + 1, s =>
      match skip s with
      | [] => none
      | c :: s =>
          if c = '\x7d' then some (.nil, s)
          else if c = ',' then
            (member (value n) (skip s)).bind fun p => (members n p.2).map fun q =>
              (.cons p.1.1 p.1.2 q.1, q.2)
          else none
end

/-- The tree of a text. -/
def read (text : List Char) : Option Tree :=
  match value (text.length + 1) (skip text) with
  | some (v, rest) => if (skip rest).isEmpty then some v else none
  | none => none

theorem value_brace {n : Nat} {s rest : List Char} {v : Tree}
    (h : value n ('\x7b' :: s) = some (v, rest)) : ∃ ms, v = .obj ms := by
  cases n with
  | zero => cases h
  | succ n =>
      rw [value, if_neg (by decide), if_neg (by decide), if_pos rfl] at h
      split at h
      · cases h
        exact ⟨_, rfl⟩
      · obtain ⟨p, -, hrest⟩ := Option.bind_eq_some_iff.mp h
        obtain ⟨q, -, hq⟩ := Option.map_eq_some_iff.mp hrest
        exact ⟨_, (congrArg Prod.fst hq).symm⟩

theorem value_bracket {n : Nat} {s rest : List Char} {v : Tree}
    (h : value n ('[' :: s) = some (v, rest)) : ∃ vs, v = .arr vs := by
  cases n with
  | zero => cases h
  | succ n =>
      rw [value, if_neg (by decide), if_pos rfl] at h
      split at h
      · cases h
        exact ⟨_, rfl⟩
      · obtain ⟨p, -, hrest⟩ := Option.bind_eq_some_iff.mp h
        obtain ⟨q, -, hq⟩ := Option.map_eq_some_iff.mp hrest
        exact ⟨_, (congrArg Prod.fst hq).symm⟩

theorem value_of_read {c : Char} {s : List Char} {v : Tree} (hc : blank c = false)
    (h : read (c :: s) = some v) :
    ∃ rest, value ((c :: s).length + 1) (c :: s) = some (v, rest) := by
  have hskip : skip (c :: s) = c :: s := List.dropWhile_cons_of_neg (by rw [hc]; decide)
  rw [read, hskip] at h
  split at h
  · next w rest hvalue =>
      split at h
      · cases h
        exact ⟨rest, hvalue⟩
      · cases h
  · cases h

/-! ## Reading takes characters -/

/-- What was read took a character at least. -/
def Shrinks {α : Type} (s : List Char) (r : Option (α × List Char)) : Prop :=
  ∀ p, r = some p → p.2.length < s.length

section Shrinks

variable {α β γ : Type} {s t : List Char}

theorem shrinks_none : Shrinks (α := α) s none := fun p hp => by cases hp

theorem Shrinks.map {r : Option (α × List Char)} (h : Shrinks s r) (f : α → β) :
    Shrinks s (r.map fun p => (f p.1, p.2)) := by
  intro q hq
  obtain ⟨p, hp, rfl⟩ := Option.map_eq_some_iff.mp hq
  exact h p hp

theorem Shrinks.mono {r : Option (α × List Char)} (h : Shrinks t r) (hle : t.length ≤ s.length) :
    Shrinks s r := fun p hp => (h p hp).trans_le hle

/-- The first part takes a character, and the second one too. -/
theorem Shrinks.bind {r : Option (α × List Char)} {k : List Char → Option (β × List Char)}
    (h : Shrinks s r) (hk : ∀ rest, Shrinks rest (k rest)) (f : α → β → γ) :
    Shrinks s (r.bind fun p => (k p.2).map fun q => (f p.1 q.1, q.2)) := by
  intro w hw
  obtain ⟨p, hp, hrest⟩ := Option.bind_eq_some_iff.mp hw
  obtain ⟨q, hq, rfl⟩ := Option.map_eq_some_iff.mp hrest
  exact (hk p.2 q hq).trans (h p hp)

theorem string_shrinks (s : List Char) : Shrinks s (string s) := by
  intro p hp
  rw [string] at hp
  cases hs : scanstring s with
  | error e =>
      rw [hs] at hp
      cases hp
  | ok q =>
      rw [hs] at hp
      cases hp
      exact scanstring_shrinks s _ _ hs

theorem word_shrinks {w : List Char} (hw : w ≠ []) (v : Tree) (s : List Char) :
    Shrinks s (word w v s) := by
  intro p hp
  rw [word] at hp
  split at hp
  · next hbegins =>
      obtain rfl := Option.some.inj hp
      obtain ⟨rest, rfl⟩ := List.isPrefixOf_iff_prefix.mp hbegins
      have hpos := List.length_pos_of_ne_nil hw
      show (List.drop _ _).length < _
      rw [List.drop_left, List.length_append]
      omega
  · cases hp

theorem numeral_shrinks (s : List Char) : Shrinks s (numeral s) := by
  intro p hp
  rw [numeral] at hp
  split at hp
  · next hnum =>
      obtain rfl := Option.some.inj hp
      have hlen := congrArg List.length
        (List.takeWhile_append_dropWhile (p := numeralChar) (l := s))
      have hne : (s.takeWhile numeralChar) ≠ [] := by
        intro hnil
        rw [hnil] at hnum
        exact absurd hnum (by decide)
      have hpos := List.length_pos_of_ne_nil hne
      rw [List.length_append] at hlen
      show (s.dropWhile numeralChar).length < s.length
      omega
  · cases hp

theorem Shrinks.or {r r' : Option (α × List Char)} (h : Shrinks s r) (h' : Shrinks s r') :
    Shrinks s (r.or r') := by
  cases r with
  | none => exact h'
  | some p => exact h

theorem atom_shrinks (s : List Char) : Shrinks s (atom s) :=
  .or (.or (word_shrinks (by simp) _ s) (word_shrinks (by simp) _ s))
    (.or (word_shrinks (by simp) _ s) ((numeral_shrinks s).map Tree.num))

theorem member_shrinks {scan : List Char → Option (Tree × List Char)}
    (hscan : ∀ s, Shrinks s (scan s)) (s : List Char) : Shrinks s (member scan s) := by
  cases s with
  | nil => exact shrinks_none
  | cons c s =>
      intro w hw
      rw [member] at hw
      split at hw
      · obtain ⟨p, hp, hrest⟩ := Option.bind_eq_some_iff.mp hw
        have hname := string_shrinks s p hp
        have hskip := skip_length p.2
        cases hcolon : skip p.2 with
        | nil =>
            rw [hcolon] at hrest
            cases hrest
        | cons d rest =>
            rw [hcolon] at hrest hskip
            dsimp only at hrest
            split at hrest
            · obtain ⟨q, hq, rfl⟩ := Option.map_eq_some_iff.mp hrest
              have hvalue := hscan _ q hq
              have hskip' := skip_length rest
              rw [List.length_cons] at hskip
              show q.2.length < s.length + 1
              omega
            · cases hrest
      · cases hw

/-- A step that skips blanks. -/
theorem Shrinks.skip {r : Option (α × List Char)} {c : Char} (h : Shrinks (JsonText.skip s) r) :
    Shrinks (c :: s) r :=
  h.mono ((skip_length s).trans (Nat.le_succ _))

theorem reading_shrinks (n : Nat) : (∀ s, Shrinks s (value n s)) ∧
    (∀ s, Shrinks s (items n s)) ∧ ∀ s, Shrinks s (members n s) := by
  induction n with
  | zero =>
      refine ⟨fun s => ?_, fun s => ?_, fun s => ?_⟩
      · rw [value]
        exact shrinks_none
      · rw [items]
        exact shrinks_none
      · rw [members]
        exact shrinks_none
  | succ n ih =>
      obtain ⟨hvalue, hitems, hmembers⟩ := ih
      refine ⟨fun s => ?_, fun s => ?_, fun s => ?_⟩
      · cases s with
        | nil =>
            rw [value]
            exact shrinks_none
        | cons c s =>
            have hskip := skip_length s
            rw [value]
            split
            · exact ((string_shrinks s).map Tree.str).mono (Nat.le_succ _)
            · split
              · split
                · rintro p ⟨⟩
                  show (JsonText.skip s).tail.length < s.length + 1
                  rw [List.length_tail]
                  omega
                · exact ((hvalue _).bind hitems fun v vs => Tree.arr (.cons v vs)).skip
              · split
                · split
                  · rintro p ⟨⟩
                    show (JsonText.skip s).tail.length < s.length + 1
                    rw [List.length_tail]
                    omega
                  · exact ((member_shrinks hvalue _).bind hmembers
                      fun m ms => Tree.obj (.cons m.1 m.2 ms)).skip
                · exact atom_shrinks _
      · have hskip := skip_length s
        rw [items]
        split
        · exact shrinks_none
        · next c rest heq =>
            rw [heq] at hskip
            refine Shrinks.mono (t := c :: rest) ?_ hskip
            split
            · rintro p ⟨⟩
              exact Nat.lt_succ_self _
            · split
              · exact ((hvalue _).bind hitems fun v vs => Trees.cons v vs).skip
              · exact shrinks_none
      · have hskip := skip_length s
        rw [members]
        split
        · exact shrinks_none
        · next c rest heq =>
            rw [heq] at hskip
            refine Shrinks.mono (t := c :: rest) ?_ hskip
            split
            · rintro p ⟨⟩
              exact Nat.lt_succ_self _
            · split
              · exact ((member_shrinks hvalue _).bind hmembers
                  fun m ms => Members.cons m.1 m.2 ms).skip
              · exact shrinks_none

end Shrinks

/-! ## Fuel -/

section Fuel

variable {α β γ : Type} {s : List Char}

theorem bind_congr_rest {r r' : Option (α × List Char)}
    {k k' : List Char → Option (β × List Char)} (h : r = r')
    (hk : ∀ p, r' = some p → k p.2 = k' p.2) (f : α → β → γ) :
    (r.bind fun p => (k p.2).map fun q => (f p.1 q.1, q.2)) =
      r'.bind fun p => (k' p.2).map fun q => (f p.1 q.1, q.2) := by
  subst h
  cases r with
  | none => rfl
  | some p => exact congrArg (Option.map _) (hk p rfl)

/-- A member is read by what reads the values in it. -/
theorem member_congr {scan scan' : List Char → Option (Tree × List Char)}
    (h : ∀ t, t.length < s.length → scan t = scan' t) : member scan s = member scan' s := by
  cases s with
  | nil => rfl
  | cons c s =>
      rw [member, member]
      refine if_congr Iff.rfl ?_ rfl
      cases hname : string s with
      | none => rfl
      | some p =>
          have hrest := string_shrinks s p hname
          have hskip := skip_length p.2
          simp only [Option.bind_some]
          cases hcolon : skip p.2 with
          | nil => rfl
          | cons d rest =>
              rw [hcolon, List.length_cons] at hskip
              have hskip' := skip_length rest
              dsimp only
              rw [h (skip rest) (by rw [List.length_cons]; omega)]

theorem reading_fuel (n : Nat) : (∀ s, s.length < n → value (n + 1) s = value n s) ∧
    (∀ s, s.length < n → items (n + 1) s = items n s) ∧
      ∀ s, s.length < n → members (n + 1) s = members n s := by
  induction n with
  | zero => exact ⟨fun _ h => absurd h (Nat.not_lt_zero _), fun _ h => absurd h (Nat.not_lt_zero _),
      fun _ h => absurd h (Nat.not_lt_zero _)⟩
  | succ n ih =>
      obtain ⟨hvalue, hitems, hmembers⟩ := ih
      obtain ⟨hshrinks, -, -⟩ := reading_shrinks n
      -- what follows an element, and what follows a member
      have helements : ∀ s, s.length < n →
          ((value (n + 1) s).bind fun p => (items (n + 1) p.2).map fun q =>
            (Trees.cons p.1 q.1, q.2)) =
          (value n s).bind fun p => (items n p.2).map fun q => (Trees.cons p.1 q.1, q.2) := by
        intro s hs
        refine bind_congr_rest (hvalue s hs) (fun p hp => hitems p.2 ?_) Trees.cons
        exact (hshrinks s p hp).trans hs
      have hfields : ∀ s, s.length < n →
          ((member (value (n + 1)) s).bind fun p => (members (n + 1) p.2).map fun q =>
            (Members.cons p.1.1 p.1.2 q.1, q.2)) =
          (member (value n) s).bind fun p => (members n p.2).map fun q =>
            (Members.cons p.1.1 p.1.2 q.1, q.2) := by
        intro s hs
        refine bind_congr_rest (member_congr fun t ht => hvalue t (ht.trans hs))
          (fun p hp => hmembers p.2 ?_) fun m ms => Members.cons m.1 m.2 ms
        exact (member_shrinks hshrinks s p hp).trans hs
      refine ⟨fun s hs => ?_, fun s hs => ?_, fun s hs => ?_⟩
      · cases s with
        | nil => rw [value, value]
        | cons c s =>
            have hskip : (skip s).length < n :=
              (skip_length s).trans_lt (Nat.lt_of_succ_lt_succ hs)
            rw [value, value]
            refine if_congr Iff.rfl rfl (if_congr Iff.rfl ?_ (if_congr Iff.rfl ?_ rfl))
            · refine if_congr Iff.rfl rfl ?_
              exact bind_congr_rest (hvalue _ hskip)
                (fun p hp => hitems p.2 ((hshrinks _ p hp).trans hskip))
                fun v vs => Tree.arr (.cons v vs)
            · refine if_congr Iff.rfl rfl ?_
              exact bind_congr_rest (member_congr fun t ht => hvalue t (ht.trans hskip))
                (fun p hp => hmembers p.2 ((member_shrinks hshrinks _ p hp).trans hskip))
                fun m ms => Tree.obj (.cons m.1 m.2 ms)
      · have hskip := skip_length s
        rw [items, items]
        cases hs' : skip s with
        | nil => rfl
        | cons c rest =>
            rw [hs', List.length_cons] at hskip
            have hskip' := skip_length rest
            refine if_congr Iff.rfl rfl (if_congr Iff.rfl (helements (skip rest) ?_) rfl)
            omega
      · have hskip := skip_length s
        rw [members, members]
        cases hs' : skip s with
        | nil => rfl
        | cons c rest =>
            rw [hs', List.length_cons] at hskip
            have hskip' := skip_length rest
            refine if_congr Iff.rfl rfl (if_congr Iff.rfl (hfields (skip rest) ?_) rfl)
            omega

/-- **More fuel than characters does not matter.** -/
theorem value_fuel {n : Nat} (h : s.length < n) (k : Nat) : value (n + k) s = value n s := by
  induction k with
  | zero => rfl
  | succ k ih => exact ((reading_fuel (n + k)).1 s (h.trans_le (Nat.le_add_right n k))).trans ih

end Fuel

/-! ## Numerals are read to their end -/

/-- The text is characters of a numeral, and the rest. -/
def Takes (s rest : List Char) : Prop := ∃ front, s = front ++ rest ∧ front.all numeralChar = true

section Takes

variable {s t rest : List Char}

theorem Takes.refl (s : List Char) : Takes s s := ⟨[], rfl, rfl⟩

theorem Takes.trans (h : Takes s t) (h' : Takes t rest) : Takes s rest := by
  obtain ⟨front, rfl, hfront⟩ := h
  obtain ⟨middle, rfl, hmiddle⟩ := h'
  refine ⟨front ++ middle, (List.append_assoc ..).symm, ?_⟩
  rw [List.all_append, hfront, hmiddle]
  rfl

theorem Takes.cons {c : Char} (hc : numeralChar c = true) (h : Takes s rest) :
    Takes (c :: s) rest := by
  obtain ⟨front, rfl, hfront⟩ := h
  refine ⟨c :: front, rfl, ?_⟩
  rw [List.all_cons, hc, hfront]
  rfl

theorem numeralChar_of_isDigit {c : Char} (h : c.isDigit = true) : numeralChar c = true := by
  simp only [numeralChar, h, Bool.true_or]

theorem takes_digits (s : List Char) : Takes s (digits s).2 := by
  refine ⟨(digits s).1, List.takeWhile_append_dropWhile.symm, ?_⟩
  rw [List.all_eq_true]
  intro c hc
  exact numeralChar_of_isDigit (List.all_eq_true.mp List.all_takeWhile c hc)

theorem takes_scan_int {ds : List Char} (h : scan_int s = some (ds, rest)) : Takes s rest := by
  cases s with
  | nil => cases h
  | cons c s =>
      rw [scan_int] at h
      split at h
      · next hzero =>
          cases h
          exact (Takes.refl _).cons (by rw [hzero]; decide)
      · split at h
        · obtain rfl := congrArg Prod.snd (Option.some.inj h)
          exact takes_digits _
        · cases h

theorem takes_scan_frac (s : List Char) : Takes s ((scan_frac s).getD ([], s)).2 := by
  rw [scan_frac.eq_def]
  split
  · next d rest =>
      split
      · exact (takes_digits (d :: rest)).cons (by decide)
      · exact .refl _
  · exact .refl _

theorem takes_scan_sign (s : List Char) : Takes s (scan_sign s).2 := by
  cases s with
  | nil => exact .refl _
  | cons c s =>
      rw [scan_sign]
      split
      · next hc => exact (Takes.refl s).cons (by rw [hc]; decide)
      · split
        · next hc => exact (Takes.refl s).cons (by rw [hc]; decide)
        · exact .refl _

theorem takes_scan_exp (s : List Char) : Takes s ((scan_exp s).getD (0, s)).2 := by
  cases s with
  | nil => exact .refl _
  | cons e s =>
      rw [scan_exp]
      split
      · next he =>
          dsimp only
          split
          · exact .refl _
          · refine ((takes_scan_sign s).trans (takes_digits _)).cons ?_
            rcases he with rfl | rfl <;> decide
      · exact .refl _

/-- Without a sign, a numeral has a digit first, and characters of a numeral only. -/
theorem isUnsigned_chars (h : isUnsigned s = true) :
    (∃ c ∈ s.head?, c.isDigit = true) ∧ s.all numeralChar = true := by
  rw [isUnsigned] at h
  cases hint : scan_int s with
  | none =>
      rw [hint] at h
      cases h
  | some p =>
      rw [hint] at h
      have htakes := ((takes_scan_int hint).trans (takes_scan_frac p.2)).trans (takes_scan_exp _)
      rw [List.isEmpty_iff.mp h] at htakes
      obtain ⟨front, rfl, hfront⟩ := htakes
      rw [List.append_nil] at hint ⊢
      refine ⟨?_, hfront⟩
      cases front with
      | nil => cases hint
      | cons c front =>
          refine ⟨c, rfl, ?_⟩
          rw [scan_int] at hint
          split at hint
          · next hzero => rw [hzero]; decide
          · split at hint
            · assumption
            · cases hint

theorem isNumeral_chars (h : isNumeral s = true) :
    (∃ c ∈ s.head?, c = '-' ∨ c.isDigit = true) ∧ s.all numeralChar = true := by
  rw [isNumeral] at h
  split at h
  · next hminus =>
      obtain ⟨t, rfl⟩ := List.head?_eq_some_iff.mp hminus
      have hall : t.all numeralChar = true := (isUnsigned_chars h).2
      refine ⟨⟨_, rfl, .inl rfl⟩, ?_⟩
      rw [List.all_cons, hall]
      decide
  · obtain ⟨⟨d, hd, hdigit⟩, hall⟩ := isUnsigned_chars h
    exact ⟨⟨d, hd, .inr hdigit⟩, hall⟩

end Takes

/-! ## The numerals of whole numbers -/

theorem digits_of_all {s : List Char} (h : ∀ c ∈ s, c.isDigit = true) : digits s = (s, []) := by
  rw [digits, List.takeWhile_eq_self_iff.mpr h, List.dropWhile_eq_nil_iff.mpr h]

theorem toDigits_isDigit {n : Nat} : ∀ c ∈ Nat.toDigits 10 n, c.isDigit = true :=
  fun _ => Nat.isDigit_of_mem_toDigits (by decide) (by decide)

/-- No digit in front is zero, apart from zero itself. -/
theorem toDigits_head {n : Nat} (h : 0 < n) : ∀ c ∈ (Nat.toDigits 10 n).head?, c ≠ '0' := by
  induction n using Nat.strong_induction_on with
  | _ n ih =>
      intro c hc
      by_cases hsmall : n < 10
      · rw [Nat.toDigits_of_lt_base hsmall] at hc
        obtain rfl := Option.some.inj hc
        interval_cases n <;> decide
      · have hten : 10 ≤ n := Nat.not_lt.mp hsmall
        rw [Nat.toDigits_of_base_le (by decide) hten,
          List.head?_append_of_ne_nil _ Nat.toDigits_ne_nil] at hc
        exact ih (n / 10) (by omega) (by omega) c hc

theorem digits_append {s rest : List Char} (h : ∀ c ∈ s, c.isDigit = true)
    (hrest : ∀ c ∈ rest.head?, c.isDigit = false) : digits (s ++ rest) = (s, rest) := by
  rw [digits, List.takeWhile_append_of_pos h, List.dropWhile_append_of_pos h]
  cases rest with
  | nil => exact congrArg (·, []) (List.append_nil s)
  | cons c rest =>
      have hc := hrest c rfl
      rw [List.takeWhile_cons, List.dropWhile_cons, hc]
      exact congrArg (·, c :: rest) (List.append_nil s)

theorem scan_int_append (n : Nat) {rest : List Char}
    (hrest : ∀ c ∈ rest.head?, c.isDigit = false) :
    scan_int (Nat.toDigits 10 n ++ rest) = some (Nat.toDigits 10 n, rest) := by
  cases Nat.eq_zero_or_pos n with
  | inl hzero =>
      rw [hzero, Nat.toDigits_zero]
      rfl
  | inr hpos =>
      have hhead := toDigits_head hpos
      have hdigits := digits_append (toDigits_isDigit (n := n)) hrest
      have hfirst := toDigits_isDigit (n := n)
      cases htext : Nat.toDigits 10 n with
      | nil => exact absurd htext Nat.toDigits_ne_nil
      | cons c s =>
          rw [htext] at hhead hdigits hfirst
          rw [List.cons_append] at hdigits ⊢
          rw [scan_int, if_neg (hhead c rfl), if_pos (hfirst c List.mem_cons_self), hdigits]

theorem scan_int_toDigits (n : Nat) :
    scan_int (Nat.toDigits 10 n) = some (Nat.toDigits 10 n, []) := by
  have h : scan_int (Nat.toDigits 10 n ++ []) = some (Nat.toDigits 10 n, []) :=
    scan_int_append n fun _ hc => by cases hc
  rwa [List.append_nil] at h

theorem isUnsigned_toDigits (n : Nat) : isUnsigned (Nat.toDigits 10 n) = true := by
  rw [isUnsigned, scan_int_toDigits]
  rfl

/-- Digits, a point, and digits again. -/
theorem isUnsigned_point (n : Nat) {d : Char} {ds : List Char}
    (hds : ∀ c ∈ d :: ds, c.isDigit = true) :
    isUnsigned (Nat.toDigits 10 n ++ '.' :: d :: ds) = true := by
  have hfrac : scan_frac ('.' :: d :: ds) = some (d :: ds, []) := by
    rw [scan_frac, if_pos (hds d List.mem_cons_self), digits_of_all hds]
  rw [isUnsigned, scan_int_append n (by rintro c ⟨⟩; decide)]
  dsimp only
  rw [hfrac]
  rfl

theorem isNumeral_minus {s : List Char} (h : isUnsigned s = true) :
    isNumeral ('-' :: s) = true := by
  rw [isNumeral, List.head?_cons, if_pos rfl, List.tail_cons]
  exact h

theorem isNumeral_of_unsigned {s : List Char} (h : isUnsigned s = true) : isNumeral s = true := by
  have hminus : s.head? ≠ some '-' := by
    intro heq
    obtain ⟨⟨c, hc, hdigit⟩, -⟩ := isUnsigned_chars h
    rw [heq] at hc
    cases hc
    exact absurd hdigit (by decide)
  rw [isNumeral, if_neg hminus]
  exact h

theorem isNumeral_toDigits (n : Nat) : isNumeral (Nat.toDigits 10 n) = true :=
  isNumeral_of_unsigned (isUnsigned_toDigits n)

theorem value_of_toDigits (n : Nat) : value_of_digits (Nat.toDigits 10 n) = n := by
  have h := Nat.ofDigitChars_toDigits (n := n) (b := 10) (by decide) (by decide)
  rw [Nat.ofDigitChars_eq_foldl] at h
  rw [value_of_digits]
  refine Eq.trans ?_ h
  congr 1
  funext k c
  rw [Nat.mul_comm]
  rfl

end JsonTree
