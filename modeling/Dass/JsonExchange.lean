/-
# `Dass.JsonExchange` — values between the API and the browser

The API writes a value with `json.dumps`, the browser parses the text, and what it writes itself is
read with `json.loads`.  Between them stands the tree of the text: `Python.tree` is what a value is
written as, `Json.ofTree` is the value a tree is read as.  `dumps` writes the tree
(`Python.dumps_tree`), so it tells apart what differs in the tree.

A value that is read in the browser and written again need not come back.  It does when every
number is printed by the browser as Python prints it and every object has its members in the order
in which the browser enumerates them (`Python.survives_iff`).
-/
import Dass.Lib.Ecma
import Dass.RuntimeSpec

namespace Dass

open JsonTree (Tree Trees Members isNumeral)

/-! ## Trees of values -/

/-- What is documented of the parts taken from Python. -/
structure Python.Documented (py : Python) : Prop where
  dumps_str : ∀ s, py.dumps_str s = String.ofList (JsonText.dumps_str s)
  float_repr : ∀ m e, e ≠ 0 → isNumeral (py.float_repr m e).toList = true
  /-- pydantic takes an `int` as it is -/
  validate_int : ∀ m, py.validate_int (.num m 0) = some m
  /-- a `float` is taken up to 64 bits only -/
  validate_float : ∀ (m : Int) (e : Nat), e ≠ 0 → 10 ^ 21 * 10 ^ e ≤ m →
    py.validate_int (.num m e) = none

/-- The text of a number. -/
def Python.numeral (py : Python) (m : Int) (e : Nat) : List Char :=
  (if e = 0 then toString m else py.float_repr m e).toList

mutual
/-- What `json.dumps` writes of a value. -/
def Python.tree (py : Python) : Json → Tree
  | .null => .null
  | .bool b => .bool b
  | .num m e => .num (py.numeral m e)
  | .str s => .str s
  | .arr items => .arr (py.tree_items items)
  | .obj fields => .obj (py.tree_fields fields)

def Python.tree_items (py : Python) : JsonItems → Trees
  | .nil => .nil
  | .cons head tail => .cons (py.tree head) (py.tree_items tail)

def Python.tree_fields (py : Python) : JsonFields → Members
  | .nil => .nil
  | .cons name value tail => .cons name (py.tree value) (py.tree_fields tail)
end

/-- A number as `json.loads` reads it; `num m 0` is an `int`, the others are `float`. -/
def Json.ofDecimal : JsonText.Value → Json
  | .int i => .num i 0
  | .float m (.ofNat e) => .num (m * 10 ^ (e + 1)) 1
  | .float m (.negSucc e) => .num m (e + 1)
  | _ => .null

/-- `_match_number`. -/
def Json.ofNumeral : List Char → Json
  | '-' :: s => match JsonText.scan_number true s with
      | .ok p => .ofDecimal p.1
      | .error _ => .null
  | s => match JsonText.scan_number false s with
      | .ok p => .ofDecimal p.1
      | .error _ => .null

mutual
/-- The value `json.loads` reads.  No name is in an object twice here, the browser wrote it. -/
def Json.ofTree : Tree → Json
  | .null => .null
  | .bool b => .bool b
  | .num numeral => .ofNumeral numeral
  | .str s => .str s
  | .arr vs => .arr (.ofTrees vs)
  | .obj ms => .obj (.ofMembers ms)

def JsonItems.ofTrees : Trees → JsonItems
  | .nil => .nil
  | .cons v vs => .cons (.ofTree v) (.ofTrees vs)

def JsonFields.ofMembers : Members → JsonFields
  | .nil => .nil
  | .cons name v ms => .cons name (.ofTree v) (.ofMembers ms)
end

/-- The members as a list. -/
def JsonFields.pairs : JsonFields → List (String × Json)
  | .nil => []
  | .cons name value tail => (name, value) :: tail.pairs

def JsonFields.ofPairs : List (String × Json) → JsonFields
  | [] => .nil
  | p :: ps => .cons p.1 p.2 (.ofPairs ps)

section Trees

variable {py : Python}

theorem Python.pairs_tree : (fields : JsonFields) →
    (py.tree_fields fields).pairs = Ecma.onValues py.tree fields.pairs
  | .nil => rfl
  | .cons name value tail => congrArg (List.cons (name, py.tree value)) (pairs_tree tail)

theorem JsonFields.pairs_ofMembers (ms : Members) :
    (ofMembers ms).pairs = Ecma.onValues Json.ofTree ms.pairs := by
  have hpairs : ∀ ps : List (String × Tree),
      (ofMembers (.ofPairs ps)).pairs = Ecma.onValues Json.ofTree ps := by
    intro ps
    induction ps with
    | nil => rfl
    | cons p ps ih => exact congrArg (List.cons (p.1, Json.ofTree p.2)) ih
  have h := hpairs ms.pairs
  rwa [Members.ofPairs_pairs] at h

theorem JsonFields.names_pairs : (fields : JsonFields) → Ecma.names fields.pairs = fields.names
  | .nil => rfl
  | .cons name _ tail => congrArg (List.cons name) tail.names_pairs

theorem JsonFields.ofPairs_pairs : (fields : JsonFields) → ofPairs fields.pairs = fields
  | .nil => rfl
  | .cons name value tail => congrArg (JsonFields.cons name value) tail.ofPairs_pairs

theorem JsonFields.all_pairs {p : String → Json → Bool} : (fields : JsonFields) →
    (fields.all p = true ↔ ∀ q ∈ fields.pairs, p q.1 q.2 = true)
  | .nil => ⟨fun _ _ hq => (by cases hq), fun _ => rfl⟩
  | .cons name value tail => by
      rw [all, pairs, Bool.and_eq_true, all_pairs tail, List.forall_mem_cons]

/-! ### Numerals -/

theorem Python.isNumeral_numeral (hpy : py.Documented) (m : Int) (e : Nat) :
    isNumeral (py.numeral m e) = true := by
  rw [numeral]
  split
  · cases m with
    | ofNat n =>
        show isNumeral n.repr.toList = true
        rw [Nat.toList_repr]
        exact JsonTree.isNumeral_toDigits n
    | negSucc n =>
        show isNumeral ("-" ++ (n + 1).repr).toList = true
        rw [String.toList_append, Nat.toList_repr]
        exact JsonTree.isNumeral_minus (JsonTree.isUnsigned_toDigits (n + 1))
  · next he => exact hpy.float_repr m e he

mutual
theorem Python.tree_numerals (hpy : py.Documented) : (value : Json) →
    (py.tree value).numerals = true
  | .null => rfl
  | .bool _ => rfl
  | .str _ => rfl
  | .num m e => isNumeral_numeral hpy m e
  | .arr items => items_numerals hpy items
  | .obj fields => fields_numerals hpy fields

theorem Python.items_numerals (hpy : py.Documented) : (items : JsonItems) →
    (py.tree_items items).numerals = true
  | .nil => rfl
  | .cons head tail => by
      rw [tree_items, Trees.numerals, tree_numerals hpy head, items_numerals hpy tail]
      rfl

theorem Python.fields_numerals (hpy : py.Documented) : (fields : JsonFields) →
    (py.tree_fields fields).numerals = true
  | .nil => rfl
  | .cons name value tail => by
      rw [tree_fields, Members.numerals, tree_numerals hpy value, fields_numerals hpy tail]
      rfl
end

/-! ### `dumps` writes the tree -/

theorem Python.quote_dumps (hpy : py.Documented) (s : String) :
    JsonTree.python.quote s = (py.dumps_str s).toList := by
  rw [hpy.dumps_str, String.toList_ofList]
  rfl

theorem Python.dumps_items_cons (head next : Json) (tail : JsonItems) :
    py.dumps_items (.cons head (.cons next tail)) =
      py.dumps head ++ ", " ++ py.dumps_items (.cons next tail) := by
  rw [dumps_items]
  intro heq
  cases heq

theorem Python.dumps_fields_cons (name second : String) (value next : Json) (tail : JsonFields) :
    py.dumps_fields (.cons name value (.cons second next tail)) =
      py.dumps_str name ++ ": " ++ py.dumps value ++ ", " ++
        py.dumps_fields (.cons second next tail) := by
  rw [dumps_fields]
  intro heq
  cases heq

mutual
theorem Python.write_tree (hpy : py.Documented) : (value : Json) → (d : Nat) →
    (py.tree value).write JsonTree.python d = (py.dumps value).toList
  | .null, _ => by
      rw [dumps]
      rfl
  | .bool true, _ => by
      rw [dumps]
      rfl
  | .bool false, _ => by
      rw [dumps]
      rfl
  | .num m e, _ => by
      rw [dumps]
      rfl
  | .str s, _ => by
      rw [dumps]
      exact quote_dumps hpy s
  | .arr .nil, _ => by
      rw [dumps, dumps_items]
      rfl
  | .arr (.cons head tail), d => by
      have hitems := write_items hpy tail d head (write_tree hpy head (d + 1))
      rw [tree, tree_items, Tree.write, dumps]
      simp only [String.toList_append]
      exact congrArg (List.cons '[') hitems
  | .obj .nil, _ => by
      rw [dumps, dumps_fields]
      rfl
  | .obj (.cons name value tail), d => by
      have hfields := write_fields hpy tail d name value (write_tree hpy value (d + 1))
      rw [tree, tree_fields, Tree.write, dumps]
      simp only [String.toList_append]
      exact congrArg (List.cons '\x7b') hfields

/-- The elements behind the bracket. -/
theorem Python.write_items (hpy : py.Documented) : (tail : JsonItems) → (d : Nat) → (head : Json) →
    (py.tree head).write JsonTree.python (d + 1) = (py.dumps head).toList →
    (py.tree head).write JsonTree.python (d + 1) ++
        (py.tree_items tail).write JsonTree.python d =
      (py.dumps_items (.cons head tail)).toList ++ [']']
  | .nil, d, head, hhead => by
      rw [hhead, dumps_items]
      rfl
  | .cons next tail, d, head, hhead => by
      have hitems := write_items hpy tail d next (write_tree hpy next (d + 1))
      rw [hhead, tree_items, Trees.write, hitems, dumps_items_cons]
      simp only [String.toList_append, List.append_assoc]
      rfl

/-- The members behind the brace. -/
theorem Python.write_fields (hpy : py.Documented) : (tail : JsonFields) → (d : Nat) →
    (name : String) → (value : Json) →
    (py.tree value).write JsonTree.python (d + 1) = (py.dumps value).toList →
    JsonTree.python.quote name ++ (':' :: ' ' :: ((py.tree value).write JsonTree.python (d + 1) ++
        (py.tree_fields tail).write JsonTree.python d)) =
      (py.dumps_fields (.cons name value tail)).toList ++ ['\x7d']
  | .nil, d, name, value, hvalue => by
      rw [quote_dumps hpy, hvalue, dumps_fields]
      simp only [String.toList_append, List.append_assoc]
      rfl
  | .cons second next tail, d, name, value, hvalue => by
      have hfields := write_fields hpy tail d second next (write_tree hpy next (d + 1))
      rw [quote_dumps hpy, hvalue, tree_fields, Members.write, hfields, dumps_fields_cons]
      simp only [String.toList_append, List.append_assoc]
      rfl
end

/-- **`dumps` is the text of the tree.** -/
theorem Python.dumps_tree (hpy : py.Documented) {a b : Json} :
    py.dumps a = py.dumps b ↔ py.tree a = py.tree b := by
  rw [← String.toList_inj, ← write_tree hpy a 0, ← write_tree hpy b 0]
  constructor
  · exact JsonTree.write_injective JsonTree.python (tree_numerals hpy a) (tree_numerals hpy b)
  · intro h
    rw [h]

end Trees

/-! ### An instance -/

/-- The digits behind the point. -/
def decimals (r e : Nat) : List Char :=
  List.replicate (e - (Nat.toDigits 10 r).length) '0' ++ Nat.toDigits 10 r

/-- Python with the strings and the numerals that `json.dumps` writes. -/
def example_cpython : Python where
  upper := example_python.upper
  int_of_str := example_python.int_of_str
  float_repr m e := (if m < 0 then "-" else "") ++ String.ofList
    (Nat.toDigits 10 (m.natAbs / 10 ^ e) ++ '.' :: decimals (m.natAbs % 10 ^ e) e)
  dumps_str s := String.ofList (JsonText.dumps_str s)
  validate_int := example_python.validate_int

theorem decimals_isDigit (r e : Nat) : ∀ c ∈ decimals r e, c.isDigit = true := by
  intro c hc
  rcases List.mem_append.mp hc with hzero | hdigit
  · rw [(List.mem_replicate.mp hzero).2]
    decide
  · exact JsonTree.toDigits_isDigit c hdigit

theorem example_documented : example_cpython.Documented where
  dumps_str _ := rfl
  float_repr m e _ := by
    have hunsigned : JsonTree.isUnsigned
        (Nat.toDigits 10 (m.natAbs / 10 ^ e) ++ '.' :: decimals (m.natAbs % 10 ^ e) e) = true := by
      have hdigits := decimals_isDigit (m.natAbs % 10 ^ e) e
      cases hds : decimals (m.natAbs % 10 ^ e) e with
      | nil => exact absurd (List.append_eq_nil_iff.mp hds).2 Nat.toDigits_ne_nil
      | cons d ds =>
          rw [hds] at hdigits
          exact JsonTree.isUnsigned_point _ hdigits
    show isNumeral ((if m < 0 then "-" else "") ++ String.ofList _).toList = true
    rw [String.toList_append, String.toList_ofList]
    split
    · exact JsonTree.isNumeral_minus hunsigned
    · exact JsonTree.isNumeral_of_unsigned hunsigned
  validate_int _ := rfl
  validate_float m e he _ := by
    cases e with
    | zero => exact absurd rfl he
    | succ e => rfl

/-! ## What the browser leaves as it is -/

/-- A value that the browser parses, writes and sends back. -/
def Python.returned (py : Python) (js : Ecma.Numbers) (value : Json) : Json :=
  .ofTree (js.through (py.tree value))

mutual
/-- Each number is printed alike again, and each object has its members in the order of the
browser. -/
def Python.survives (py : Python) (js : Ecma.Numbers) : Json → Bool
  | .num m e => py.tree (py.returned js (.num m e)) = py.tree (.num m e)
  | .arr items => py.survives_items js items
  | .obj fields =>
      decide (Ecma.names (Ecma.order fields.pairs) = fields.names) && py.survives_fields js fields
  | .null | .bool _ | .str _ => true

def Python.survives_items (py : Python) (js : Ecma.Numbers) : JsonItems → Bool
  | .nil => true
  | .cons head tail => py.survives js head && py.survives_items js tail

def Python.survives_fields (py : Python) (js : Ecma.Numbers) : JsonFields → Bool
  | .nil => true
  | .cons _ value tail => py.survives js value && py.survives_fields js tail
end

section Survives

variable {py : Python} {js : Ecma.Numbers}

theorem Python.tree_ofMembers (ps : List (String × Tree)) :
    py.tree_fields (.ofMembers (.ofPairs ps)) =
      .ofPairs (Ecma.onValues (fun v => py.tree (.ofTree v)) ps) := by
  rw [← (py.tree_fields (.ofMembers (.ofPairs ps))).ofPairs_pairs, pairs_tree,
    JsonFields.pairs_ofMembers, Members.pairs_ofPairs]
  exact congrArg Members.ofPairs List.map_map

/-- The members that are sent back, each of them and in the order of the browser. -/
theorem Python.tree_returned_obj (fields : JsonFields) :
    py.tree (py.returned js (.obj fields)) =
      .obj (.ofPairs (Ecma.order
        (Ecma.onValues (fun value => py.tree (py.returned js value)) fields.pairs))) := by
  have hvalues : Ecma.onValues (fun v => py.tree (.ofTree v)) (Ecma.onValues js.through
      (Ecma.onValues py.tree fields.pairs)) =
        Ecma.onValues (fun value => py.tree (py.returned js value)) fields.pairs := by
    simp only [Ecma.onValues, List.map_map]
    rfl
  rw [returned, tree, Ecma.Numbers.through_obj, pairs_tree, Json.ofTree, tree, tree_ofMembers,
    ← Ecma.order_onValues, hvalues]

theorem Python.survives_obj {fields : JsonFields}
    (h : py.survives_fields js fields = true ↔
      Ecma.onValues (fun value => py.tree (py.returned js value)) fields.pairs =
        Ecma.onValues py.tree fields.pairs) :
    py.survives js (.obj fields) = true ↔
      py.tree (py.returned js (.obj fields)) = py.tree (.obj fields) := by
  let returned := Ecma.onValues (fun value => py.tree (py.returned js value)) fields.pairs
  let written := Ecma.onValues py.tree fields.pairs
  have hpairs : py.tree (.obj fields) = .obj (.ofPairs written) := by
    rw [tree, ← (py.tree_fields fields).ofPairs_pairs, pairs_tree]
  have horder : Ecma.order returned =
      Ecma.onValues (fun value => py.tree (py.returned js value)) (Ecma.order fields.pairs) :=
    Ecma.order_onValues _ _
  have hsame : py.tree (py.returned js (.obj fields)) = py.tree (.obj fields) ↔
      Ecma.order returned = written := by
    rw [tree_returned_obj, hpairs, Tree.obj.injEq]
    constructor
    · intro heq
      have hlist := congrArg Members.pairs heq
      rwa [Members.pairs_ofPairs, Members.pairs_ofPairs] at hlist
    · exact congrArg Members.ofPairs
  rw [hsame, survives, Bool.and_eq_true, decide_eq_true_eq, h]
  constructor
  · rintro ⟨hnames, hvalues⟩
    have hself := Ecma.order_eq_self (hnames.trans fields.names_pairs.symm)
    rw [horder, hself]
    exact hvalues
  · intro heq
    have hnames : Ecma.names (Ecma.order fields.pairs) = fields.names := by
      have hwritten := congrArg Ecma.names heq
      rw [horder, Ecma.names_onValues, Ecma.names_onValues, fields.names_pairs] at hwritten
      exact hwritten
    have hself := Ecma.order_eq_self (hnames.trans fields.names_pairs.symm)
    rw [horder, hself] at heq
    exact ⟨hnames, heq⟩

mutual
/-- **A value comes back as it was** exactly if it survives. -/
theorem Python.survives_iff : (value : Json) →
    (py.survives js value = true ↔ py.tree (py.returned js value) = py.tree value)
  | .null => ⟨fun _ => rfl, fun _ => rfl⟩
  | .bool _ => ⟨fun _ => rfl, fun _ => rfl⟩
  | .str _ => ⟨fun _ => rfl, fun _ => rfl⟩
  | .num m e => decide_eq_true_iff
  | .arr items => by
      show py.survives_items js items = true ↔ Tree.arr _ = Tree.arr _
      rw [Tree.arr.injEq]
      exact survives_items_iff items
  | .obj fields => survives_obj (survives_fields_iff fields)

theorem Python.survives_items_iff : (items : JsonItems) →
    (py.survives_items js items = true ↔
      py.tree_items (.ofTrees (Ecma.encoded_items (js.normal_items (py.tree_items items)))) =
        py.tree_items items)
  | .nil => ⟨fun _ => rfl, fun _ => rfl⟩
  | .cons head tail => by
      rw [survives_items, Bool.and_eq_true, survives_iff head, survives_items_iff tail]
      exact (Trees.cons.injEq ..).symm ▸ Iff.rfl

theorem Python.survives_fields_iff : (fields : JsonFields) →
    (py.survives_fields js fields = true ↔
      Ecma.onValues (fun value => py.tree (py.returned js value)) fields.pairs =
        Ecma.onValues py.tree fields.pairs)
  | .nil => ⟨fun _ => rfl, fun _ => rfl⟩
  | .cons name value tail => by
      rw [survives_fields, Bool.and_eq_true, survives_iff value, survives_fields_iff tail]
      show _ ↔ (name, _) :: _ = (name, _) :: _
      rw [List.cons.injEq, Prod.mk.injEq]
      exact ⟨fun h => ⟨⟨rfl, h.1⟩, h.2⟩, fun h => ⟨h.1.2, h.2⟩⟩
end

end Survives

end Dass
