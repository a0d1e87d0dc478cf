/-
# `Dass.Lib.Ecma` — strings, objects and numbers of ECMAScript, as JSON meets them

`JSON.parse` and `JSON.stringify` are not inverse to each other.  A number becomes the double
nearest to it, and the text of that double is what is written; a member that is named like an index
of an array moves to the front; a name given twice keeps its last value; an infinity is written as
`null`.  `normal` is the first half of this and `encoded` the second one, and after both of them
nothing changes any more (`normal_through`): so what `JSON.stringify` wrote is parsed to what goes
through (`parse_stringify`).

How a double is found and printed is taken from outside (`Numbers`), with what is documented of it.
-/
import Dass.Lib.JsonStyle
import Mathlib.Data.List.DropRight
import Mathlib.Data.List.Sort

namespace Ecma

open JsonText JsonTree

/-! ## Strings -/

/-- White space and line terminators, the characters `trim` removes. -/
def space (c : Char) : Bool :=
  let n := c.toNat
  (9 ≤ n && n ≤ 13) || n = 0x20 || n = 0xa0 || n = 0x1680 || (0x2000 ≤ n && n ≤ 0x200a) ||
    n = 0x2028 || n = 0x2029 || n = 0x202f || n = 0x205f || n = 0x3000 || n = 0xfeff

/-- `String.prototype.trim`. -/
def trim (s : String) : String := String.ofList ((s.toList.dropWhile space).rdropWhile space)

/-- `Number.parseInt` with a radix of ten; `none` is `NaN`. -/
def parseInt (s : String) : Option Int :=
  let (negative, s) := scan_sign (s.toList.dropWhile space)
  let ds := (digits s).1
  let n : Int := value_of_digits ds
  if ds.isEmpty then none else some (if negative then -n else n)

theorem trim_of_ends {cs : List Char} {c d : Char} (hc : space c = false) (hd : space d = false) :
    trim (String.ofList (c :: (cs ++ [d]))) = String.ofList (c :: (cs ++ [d])) := by
  have hlast : (c :: (cs ++ [d])).rdropWhile space = c :: (cs ++ [d]) := by
    rw [List.rdropWhile_eq_self_iff]
    intro hne
    rw [List.getLast_cons (by simp), List.getLast_append_singleton, hd]
    decide
  rw [trim, String.toList_ofList, List.dropWhile_cons_of_neg (by rw [hc]; decide), hlast]

theorem not_space_of_isDigit {c : Char} (h : c.isDigit = true) : space c = false := by
  rw [Char.isDigit, Bool.and_eq_true, decide_eq_true_eq, decide_eq_true_eq] at h
  have hlow : 48 ≤ c.toNat := h.1
  have hhigh : c.toNat ≤ 57 := h.2
  simp only [space, Bool.or_eq_false_iff, Bool.and_eq_false_iff, decide_eq_false_iff_not]
  omega

/-- An integer in digits is read back. -/
theorem parseInt_toDigits (n : Nat) : parseInt (String.ofList (Nat.toDigits 10 n)) = some n := by
  have hdigits := toDigits_isDigit (n := n)
  have hhead : ((Nat.toDigits 10 n).dropWhile space) = Nat.toDigits 10 n := by
    cases htext : Nat.toDigits 10 n with
    | nil => rfl
    | cons c s =>
        rw [htext] at hdigits
        have hc := not_space_of_isDigit (hdigits c List.mem_cons_self)
        exact List.dropWhile_cons_of_neg (by rw [hc]; decide)
  have hsign : scan_sign (Nat.toDigits 10 n) = (false, Nat.toDigits 10 n) := by
    cases htext : Nat.toDigits 10 n with
    | nil => rfl
    | cons c s =>
        rw [htext] at hdigits
        have hc := hdigits c List.mem_cons_self
        have hne : ∀ d : Char, d.isDigit = false → c ≠ d := by
          rintro d hd rfl
          rw [hd] at hc
          cases hc
        rw [scan_sign, if_neg (hne '-' (by decide)), if_neg (hne '+' (by decide))]
  have hne : (Nat.toDigits 10 n).isEmpty = false :=
    List.isEmpty_eq_false_iff.mpr Nat.toDigits_ne_nil
  simp only [parseInt, String.toList_ofList, hhead, hsign, digits_of_all hdigits,
    value_of_toDigits, hne]
  rfl

/-! ## The members of an object -/

section Order

variable {α β : Type}

/-- A member is set: at its place if there is one of its name, at the end if not. -/
def put : List (String × α) → String × α → List (String × α)
  | [], p => [p]
  | q :: qs, p => if q.1 = p.1 then p :: qs else q :: put qs p

/-- The members one after the other. -/
def object (ps : List (String × α)) : List (String × α) := ps.foldl put []

/-- The number of a name that is an index of an array. -/
def index (name : String) : Option Nat :=
  let n := value_of_digits name.toList
  if Nat.toDigits 10 n = name.toList ∧ n < 4294967295 then some n else none

def indexed (p : String × α) : Bool := (index p.1).isSome

def before (p q : String × α) : Prop := (index p.1).getD 0 ≤ (index q.1).getD 0

instance : DecidableRel (before (α := α)) := fun p q =>
  inferInstanceAs (Decidable ((index p.1).getD 0 ≤ (index q.1).getD 0))

instance : Std.Total (before (α := α)) := ⟨fun _ _ => Nat.le_total _ _⟩

instance : IsTrans (String × α) before := ⟨fun _ _ _ h h' => Nat.le_trans h h'⟩

/-- The order in which the members of an object are enumerated: indexes by number, then the
others as they were set. -/
def order (ps : List (String × α)) : List (String × α) :=
  ((object ps).filter indexed).insertionSort before ++ (object ps).filter fun p => !indexed p

/-- The members with other values. -/
def onValues (f : α → β) (ps : List (String × α)) : List (String × β) :=
  ps.map fun p => (p.1, f p.2)

theorem put_onValues (f : α → β) (ps : List (String × α)) (p : String × α) :
    put (onValues f ps) (p.1, f p.2) = onValues f (put ps p) := by
  induction ps with
  | nil => rfl
  | cons q ps ih =>
      show (if q.1 = p.1 then _ else _) = onValues f (if q.1 = p.1 then _ else _)
      split
      · rfl
      · exact congrArg (List.cons _) ih

theorem object_onValues (f : α → β) (ps : List (String × α)) :
    object (onValues f ps) = onValues f (object ps) := by
  have hfold : ∀ ps acc : List (String × α),
      (onValues f ps).foldl put (onValues f acc) = onValues f (ps.foldl put acc) := by
    intro ps
    induction ps with
    | nil => exact fun _ => rfl
    | cons p ps ih =>
        intro acc
        show (onValues f ps).foldl put (put (onValues f acc) (p.1, f p.2)) = _
        rw [put_onValues]
        exact ih _
  exact hfold ps []

/-- The order is in the names. -/
theorem order_onValues (f : α → β) (ps : List (String × α)) :
    order (onValues f ps) = onValues f (order ps) := by
  have hsort := List.map_insertionSort before before (fun p : String × α => (p.1, f p.2))
    ((object ps).filter indexed) fun _ _ _ _ => Iff.rfl
  have hfront : (onValues f (object ps)).filter indexed = onValues f ((object ps).filter indexed) :=
    List.filter_map ..
  have hback : ((onValues f (object ps)).filter fun p => !indexed p) =
      onValues f ((object ps).filter fun p => !indexed p) := List.filter_map ..
  rw [order, order, object_onValues, hfront, hback]
  calc (onValues f ((object ps).filter indexed)).insertionSort before ++ _
      = onValues f (((object ps).filter indexed).insertionSort before) ++ _ :=
        congrArg (· ++ _) hsort.symm
    _ = _ := (List.map_append ..).symm

/-! ### Names are there once -/

/-- The names of the members. -/
def names (ps : List (String × α)) : List String := ps.map Prod.fst

theorem names_onValues (f : α → β) (ps : List (String × α)) : names (onValues f ps) = names ps :=
  List.map_map

theorem names_put (ps : List (String × α)) (p : String × α) :
    names (put ps p) = if p.1 ∈ names ps then names ps else names ps ++ [p.1] := by
  induction ps with
  | nil => rfl
  | cons q ps ih =>
      show names (if q.1 = p.1 then _ else _) = if p.1 ∈ q.1 :: names ps then _ else _
      by_cases h : q.1 = p.1
      · rw [if_pos h, if_pos (h ▸ List.mem_cons_self)]
        show p.1 :: names ps = q.1 :: names ps
        rw [h]
      · rw [if_neg h]
        show q.1 :: names (put ps p) = _
        rw [ih]
        by_cases hmem : p.1 ∈ names ps
        · rw [if_pos hmem, if_pos (List.mem_cons_of_mem _ hmem)]
          rfl
        · have hmem' : ¬ p.1 ∈ q.1 :: names ps := by
            rw [List.mem_cons]
            rintro (heq | hin)
            · exact h heq.symm
            · exact hmem hin
          rw [if_neg hmem, if_neg hmem']
          rfl

theorem put_of_not_mem {ps : List (String × α)} {p : String × α} (h : p.1 ∉ names ps) :
    put ps p = ps ++ [p] := by
  induction ps with
  | nil => rfl
  | cons q ps ih =>
      obtain ⟨hne, hnot⟩ := not_or.mp (mt List.mem_cons.mpr h)
      show (if q.1 = p.1 then _ else _) = _
      rw [if_neg (Ne.symm hne), ih hnot]
      rfl

theorem names_object_nodup (ps : List (String × α)) : (names (object ps)).Nodup := by
  have hfold : ∀ ps acc : List (String × α), (names acc).Nodup →
      (names (ps.foldl put acc)).Nodup := by
    intro ps
    induction ps with
    | nil => exact fun _ h => h
    | cons p ps ih =>
        intro acc hacc
        refine ih (put acc p) ?_
        rw [names_put]
        split
        · exact hacc
        · next hnot => exact List.concat_eq_append ▸ hacc.concat hnot
  exact hfold ps [] List.nodup_nil

/-- Members whose names differ stay as they are. -/
theorem object_of_nodup {ps : List (String × α)} (h : (names ps).Nodup) : object ps = ps := by
  have hfold : ∀ ps acc : List (String × α), (names (acc ++ ps)).Nodup →
      ps.foldl put acc = acc ++ ps := by
    intro ps
    induction ps with
    | nil => exact fun acc _ => (List.append_nil acc).symm
    | cons p ps ih =>
        intro acc hacc
        have hnot : p.1 ∉ names acc := by
          intro hmem
          rw [names, List.map_append] at hacc
          exact (List.nodup_append.mp hacc).2.2 _ hmem _ List.mem_cons_self rfl
        show ps.foldl put (put acc p) = _
        rw [put_of_not_mem hnot, ih (acc ++ [p]) (by rwa [List.append_assoc]),
          List.append_assoc]
        rfl
  exact hfold ps [] h

theorem order_perm (ps : List (String × α)) : (order ps).Perm (object ps) := by
  have hsort := List.perm_insertionSort before ((object ps).filter indexed)
  have hsplit := List.filter_append_perm indexed (object ps)
  exact (hsort.append_right _).trans hsplit

theorem names_order_nodup (ps : List (String × α)) : (names (order ps)).Nodup :=
  ((order_perm ps).map Prod.fst).nodup_iff.mpr (names_object_nodup ps)

/-- Members that differ in their names are told apart by them. -/
theorem eq_of_names {ps qs : List (String × α)} (hperm : ps.Perm qs) (hnames : names ps = names qs)
    (hnodup : (names qs).Nodup) : ps = qs := by
  induction ps generalizing qs with
  | nil => exact (List.nil_perm.mp hperm).symm
  | cons p ps ih =>
      cases qs with
      | nil => cases hnames
      | cons q qs =>
          obtain ⟨hfst, htail⟩ := List.cons_eq_cons.mp hnames
          obtain ⟨hnot, hrest⟩ := List.nodup_cons.mp hnodup
          rcases List.mem_cons.mp (hperm.mem_iff.mp List.mem_cons_self) with heq | hmem
          · subst heq
            rw [ih (List.perm_cons p |>.mp hperm) htail hrest]
          · exact absurd (hfst ▸ List.mem_map_of_mem hmem) hnot

/-- Whether members are in order can be seen from their names. -/
theorem order_eq_self {ps : List (String × α)} (h : names (order ps) = names ps) :
    order ps = ps := by
  have hnodup : (names ps).Nodup := h ▸ names_order_nodup ps
  have hperm := order_perm ps
  rw [object_of_nodup hnodup] at hperm
  exact eq_of_names hperm h hnodup

/-- **What is in order stays so.** -/
theorem order_order (ps : List (String × α)) : order (order ps) = order ps := by
  have hobject := object_of_nodup (names_order_nodup ps)
  let front := ((object ps).filter indexed).insertionSort before
  let back := (object ps).filter fun p => !indexed p
  have hin : ∀ p ∈ front, indexed p = true := by
    intro p hp
    exact (List.mem_filter.mp ((List.mem_insertionSort before).mp hp)).2
  have hout : ∀ p ∈ back, (!indexed p) = true := by
    intro p hp
    exact (List.mem_filter.mp hp).2
  have hfront : (front ++ back).filter indexed = front := by
    have hnone : back.filter indexed = [] := List.filter_eq_nil_iff.mpr fun p hp hp' => by
      have hnot := hout p hp
      rw [hp'] at hnot
      cases hnot
    rw [List.filter_append, List.filter_eq_self.mpr hin, hnone, List.append_nil]
  have hback : ((front ++ back).filter fun p => !indexed p) = back := by
    have hnone : (front.filter fun p => !indexed p) = [] :=
      List.filter_eq_nil_iff.mpr fun p hp hp' => by
        rw [hin p hp] at hp'
        cases hp'
    rw [List.filter_append, List.filter_eq_self.mpr hout, hnone, List.nil_append]
  have hsorted := List.pairwise_insertionSort before ((object ps).filter indexed)
  have hstep : order (order ps) = ((order ps).filter indexed).insertionSort before ++
      (order ps).filter fun p => !indexed p := by
    rw [order, hobject]
  calc order (order ps) = ((front ++ back).filter indexed).insertionSort before ++
        (front ++ back).filter fun p => !indexed p := hstep
    _ = front.insertionSort before ++ back := by rw [hfront, hback]
    _ = front ++ back := by rw [hsorted.insertionSort_eq]

/-! ### Looking a member up -/

/-- The value of a member. -/
def get (ps : List (String × α)) (key : String) : Option α :=
  (ps.find? fun p => p.1 = key).map Prod.snd

theorem get_onValues (f : α → β) (ps : List (String × α)) (key : String) :
    get (onValues f ps) key = (get ps key).map f := by
  rw [get, get, onValues, List.find?_map, Option.map_map, Option.map_map]
  rfl

theorem get_eq_some {ps : List (String × α)} (h : (names ps).Nodup) {key : String} {a : α} :
    get ps key = some a ↔ (key, a) ∈ ps := by
  induction ps with
  | nil => exact ⟨fun hnone => (by cases hnone), fun hmem => (by cases hmem)⟩
  | cons p ps ih =>
      obtain ⟨hnot, hrest⟩ := List.nodup_cons.mp h
      by_cases hkey : p.1 = key
      · have hget : get (p :: ps) key = some p.2 := by
          simp only [get, List.find?_cons, hkey, decide_true, Option.map_some]
        rw [hget, List.mem_cons]
        constructor
        · intro heq
          refine .inl ?_
          rw [← hkey, ← Option.some.inj heq]
        · rintro (heq | hmem)
          · rw [← heq]
          · exact absurd (List.mem_map_of_mem (f := Prod.fst) hmem) (hkey ▸ hnot)
      · have hget : get (p :: ps) key = get ps key := by
          simp only [get, List.find?_cons, hkey, decide_false]
        rw [hget, ih hrest, List.mem_cons]
        exact ⟨.inr, fun hmem => hmem.resolve_left fun heq => hkey (congrArg Prod.fst heq).symm⟩

/-- The order of the members does not matter to who looks one up. -/
theorem get_order {ps : List (String × α)} (h : (names ps).Nodup) (key : String) :
    get (order ps) key = get ps key := by
  have hperm := order_perm ps
  rw [object_of_nodup h] at hperm
  apply Option.ext
  intro a
  rw [get_eq_some (names_order_nodup ps), get_eq_some h, hperm.mem_iff]

end Order

/-! ## Numbers -/

/-- Doubles, as far as JSON shows them. -/
structure Numbers where
  /-- `String(Number(text))` -/
  number : List Char → List Char
  /-- the double nearest to an integer; `none` is infinite -/
  nearest : Nat → Option Nat
  again : ∀ s, isNumeral (number s) = true → number (number s) = number s
  whole : ∀ n, n ≤ 2 ^ 53 → nearest n = some n
  positive : ∀ n m, 0 < n → nearest n = some m → 0 < m
  /-- below `10 ^ 21` a whole number is printed digit by digit -/
  small : ∀ n m, nearest n = some m → m < 10 ^ 21 → number (Nat.toDigits 10 n) = Nat.toDigits 10 m
  /-- from there on with an exponent -/
  large : ∀ n m, nearest n = some m → 10 ^ 21 ≤ m →
    isNumeral (number (Nat.toDigits 10 n)) = true ∧
    ∃ (k : Int) (e : Nat), scan_number false (number (Nat.toDigits 10 n)) = .ok (.float k e, []) ∧
      10 ^ 21 ≤ k * 10 ^ e

/-- An integer, as a number. -/
def Numbers.integer (js : Numbers) (i : Int) : Tree := .num (js.number (toString i).toList)

/-- The number nearest to an integer is no infinity. -/
def Numbers.finite (js : Numbers) (i : Int) : Bool := (js.nearest i.natAbs).isSome

theorem Numbers.integer_ofNat (js : Numbers) (n : Nat) :
    js.integer n = .num (js.number (Nat.toDigits 10 n)) :=
  congrArg (fun text => Tree.num (js.number text)) Nat.toList_repr

/-! ## Values -/

mutual
/-- The value `JSON.parse` makes of a tree: the numbers are printed as `String` prints them, the
members are in the order of the object. -/
def Numbers.normal (js : Numbers) : Tree → Tree
  | .num numeral => .num (js.number numeral)
  | .arr vs => .arr (js.normal_items vs)
  | .obj ms => .obj (.ofPairs (order (js.normal_members ms).pairs))
  | .null => .null
  | .bool b => .bool b
  | .str s => .str s

def Numbers.normal_items (js : Numbers) : Trees → Trees
  | .nil => .nil
  | .cons v vs => .cons (js.normal v) (js.normal_items vs)

def Numbers.normal_members (js : Numbers) : Members → Members
  | .nil => .nil
  | .cons name v ms => .cons name (js.normal v) (js.normal_members ms)
end

mutual
/-- What `JSON.stringify` writes: a number that is not finite is `null`. -/
def encoded : Tree → Tree
  | .num numeral => if isNumeral numeral then .num numeral else .null
  | .arr vs => .arr (encoded_items vs)
  | .obj ms => .obj (encoded_members ms)
  | .null => .null
  | .bool b => .bool b
  | .str s => .str s

def encoded_items : Trees → Trees
  | .nil => .nil
  | .cons v vs => .cons (encoded v) (encoded_items vs)

def encoded_members : Members → Members
  | .nil => .nil
  | .cons name v ms => .cons name (encoded v) (encoded_members ms)
end

/-- What is left of a tree that is parsed and written again. -/
def Numbers.through (js : Numbers) (v : Tree) : Tree := encoded (js.normal v)

/-- `JSON.parse`; `none` is a `SyntaxError`. -/
def Numbers.parse (js : Numbers) (text : String) : Option Tree := (read text.toList).map js.normal

/-- `JSON.stringify(value, null, 2)`. -/
def stringify (v : Tree) : String := String.ofList ((encoded v).write ecma 0)

mutual
/-- `String(value)`. -/
def string : Tree → String
  | .null => "null"
  | .bool b => if b then "true" else "false"
  | .num numeral => String.ofList numeral
  | .str s => s
  | .arr vs => joined vs
  | .obj _ => "[object Object]"

/-- `join` of an array; null is left out. -/
def joined : Trees → String
  | .nil => ""
  | .cons .null .nil => ""
  | .cons v .nil => string v
  | .cons .null vs => "," ++ joined vs
  | .cons v vs => string v ++ "," ++ joined vs
end

/-! ## What goes through stays -/

variable {js : Numbers}

theorem Numbers.pairs_normal : (ms : Members) →
    (js.normal_members ms).pairs = onValues js.normal ms.pairs
  | .nil => rfl
  | .cons name v ms => congrArg (List.cons (name, js.normal v)) (pairs_normal ms)

theorem pairs_encoded : (ms : Members) → (encoded_members ms).pairs = onValues encoded ms.pairs
  | .nil => rfl
  | .cons name v ms => congrArg (List.cons (name, encoded v)) (pairs_encoded ms)

theorem encoded_obj (ps : List (String × Tree)) :
    encoded (.obj (.ofPairs ps)) = .obj (.ofPairs (onValues encoded ps)) := by
  have h := congrArg Members.ofPairs (pairs_encoded (.ofPairs ps))
  rw [Members.ofPairs_pairs, Members.pairs_ofPairs] at h
  exact congrArg Tree.obj h

theorem Numbers.normal_obj (ms : Members) :
    js.normal (.obj ms) = .obj (.ofPairs (order (onValues js.normal ms.pairs))) := by
  rw [normal, pairs_normal]

/-- The members that go through, in the order of the object. -/
theorem Numbers.through_obj (ms : Members) :
    js.through (.obj ms) = .obj (.ofPairs (order (onValues js.through ms.pairs))) := by
  have hover : onValues encoded (onValues js.normal ms.pairs) = onValues js.through ms.pairs :=
    List.map_map
  rw [through, normal_obj, encoded_obj, ← order_onValues, hover]

mutual
theorem encoded_numerals : (v : Tree) → (encoded v).numerals = true
  | .null => rfl
  | .bool _ => rfl
  | .str _ => rfl
  | .num numeral => by
      rw [encoded]
      split
      · next h => exact h
      · rfl
  | .arr vs => items_numerals vs
  | .obj ms => members_numerals ms

theorem items_numerals : (vs : Trees) → (encoded_items vs).numerals = true
  | .nil => rfl
  | .cons v vs => by
      rw [encoded_items, Trees.numerals, encoded_numerals v, items_numerals vs]
      rfl

theorem members_numerals : (ms : Members) → (encoded_members ms).numerals = true
  | .nil => rfl
  | .cons name v ms => by
      rw [encoded_members, Members.numerals, encoded_numerals v, members_numerals ms]
      rfl
end

mutual
/-- **Parsing changes nothing in what goes through.** -/
theorem Numbers.normal_through : (v : Tree) → js.normal (js.through v) = js.through v
  | .null => rfl
  | .bool _ => rfl
  | .str _ => rfl
  | .num numeral => by
      show js.normal (if isNumeral (js.number numeral) = true then _ else _) = _
      show _ = (if isNumeral (js.number numeral) = true then _ else _)
      split
      · next h => exact congrArg Tree.num (js.again numeral h)
      · rfl
  | .arr vs => congrArg Tree.arr (normal_through_items vs)
  | .obj ms => by
      rw [through_obj, normal_obj, Members.pairs_ofPairs, ← order_onValues, order_order,
        normal_through_members ms]

theorem Numbers.normal_through_items : (vs : Trees) →
    js.normal_items (encoded_items (js.normal_items vs)) = encoded_items (js.normal_items vs)
  | .nil => rfl
  | .cons v vs => congrArg₂ Trees.cons (normal_through v) (normal_through_items vs)

theorem Numbers.normal_through_members : (ms : Members) →
    onValues js.normal (onValues js.through ms.pairs) = onValues js.through ms.pairs
  | .nil => rfl
  | .cons name v ms =>
      congrArg₂ List.cons (congrArg (Prod.mk name) (normal_through v)) (normal_through_members ms)
end

/-- **What was written is parsed to what goes through.** -/
theorem Numbers.parse_stringify (v : Tree) :
    js.parse (stringify (js.normal v)) = some (js.through v) := by
  have hread := read_write ecma (encoded_numerals (js.normal v)) 0
  rw [parse, stringify, String.toList_ofList, hread]
  exact congrArg some (normal_through v)

/-- An object that was written stands in braces, with nothing around it. -/
theorem stringify_obj (ms : Members) :
    (stringify (.obj ms)).toList.head? = some '\x7b' ∧
      trim (stringify (.obj ms)) = stringify (.obj ms) := by
  obtain ⟨inside, hwrite⟩ := Tree.write_braces ecma (encoded_members ms) 0
  have htext : stringify (.obj ms) = String.ofList ('\x7b' :: (inside ++ ['\x7d'])) :=
    congrArg String.ofList hwrite
  rw [htext]
  refine ⟨?_, trim_of_ends (by decide) (by decide)⟩
  rw [String.toList_ofList]
  rfl

mutual
theorem encoded_encoded : (v : Tree) → encoded (encoded v) = encoded v
  | .null => rfl
  | .bool _ => rfl
  | .str _ => rfl
  | .num numeral => by
      by_cases h : isNumeral numeral = true
      · have hself : encoded (.num numeral) = .num numeral := if_pos h
        rw [hself, hself]
      · have hnull : encoded (.num numeral) = .null := if_neg h
        rw [hnull]
        rfl
  | .arr vs => congrArg Tree.arr (items_encoded vs)
  | .obj ms => congrArg Tree.obj (members_encoded ms)

theorem items_encoded : (vs : Trees) →
    encoded_items (encoded_items vs) = encoded_items vs
  | .nil => rfl
  | .cons v vs => congrArg₂ Trees.cons (encoded_encoded v) (items_encoded vs)

theorem members_encoded : (ms : Members) →
    encoded_members (encoded_members ms) = encoded_members ms
  | .nil => rfl
  | .cons name v ms => congrArg₂ (Members.cons name) (encoded_encoded v) (members_encoded ms)
end

/-! ## An instance -/

/-- Numbers that are exact up to `10 ^ 21` and infinite from there on; what is no whole number
is printed as it is written. -/
def plain : Numbers where
  number s :=
    if s ≠ [] ∧ s.all Char.isDigit then
      if value_of_digits s < 10 ^ 21 then Nat.toDigits 10 (value_of_digits s)
      else ['I', 'n', 'f', 'i', 'n', 'i', 't', 'y']
    else s
  nearest n := if n < 10 ^ 21 then some n else none
  again s h := by
    have htext : ∀ n : Nat, n < 10 ^ 21 →
        (if Nat.toDigits 10 n ≠ [] ∧ (Nat.toDigits 10 n).all Char.isDigit then
          if value_of_digits (Nat.toDigits 10 n) < 10 ^ 21 then
            Nat.toDigits 10 (value_of_digits (Nat.toDigits 10 n))
          else ['I', 'n', 'f', 'i', 'n', 'i', 't', 'y']
        else Nat.toDigits 10 n) = Nat.toDigits 10 n := by
      intro n hn
      rw [if_pos ⟨Nat.toDigits_ne_nil, List.all_eq_true.mpr toDigits_isDigit⟩, value_of_toDigits,
        if_pos hn]
    by_cases hdigits : s ≠ [] ∧ s.all Char.isDigit
    · simp only [if_pos hdigits] at h ⊢
      by_cases hsmall : value_of_digits s < 10 ^ 21
      · simp only [if_pos hsmall] at h ⊢
        exact htext _ hsmall
      · simp only [if_neg hsmall] at h
        exact absurd h (by decide)
    · simp only [if_neg hdigits]
  whole n h := if_pos (h.trans_lt (by decide))
  positive n m hn h := by
    split at h
    · cases h
      exact hn
    · cases h
  small n m h _ := by
    split at h
    · next hn =>
        cases h
        rw [if_pos ⟨Nat.toDigits_ne_nil, List.all_eq_true.mpr toDigits_isDigit⟩, value_of_toDigits,
          if_pos hn]
    · cases h
  large n m h hm := by
    split at h
    · next hn =>
        cases h
        exact absurd hn (Nat.not_lt.mpr hm)
    · cases h

end Ecma
