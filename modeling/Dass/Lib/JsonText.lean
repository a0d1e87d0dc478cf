/-
# `Dass.Lib.JsonText` — JSON text, as CPython's `json` writes and reads it

The reader is the C scanner of `json.loads`: one value, blanks around it, nothing after it.
What it refuses it refuses with `JSONDecodeError`; two things it raises otherwise, for an
integer of too many digits and for containers nested too deep, and those are kept apart
(`Raised`).  It takes `NaN` and the infinities, and a container is read by the loop that is
told how its elements are read, so the depth is the recursion.

The writer is `json.dumps` of a string with `ensure_ascii`.  What it writes is read back as
the string (`scanstring_dumps`): the escapes are code units, two of them where a character is
outside the basic plane.

A lone surrogate, which `"\\ud800"` is in Python, is no `Char`; it is read as U+FFFD.
-/
import Mathlib.Data.List.Basic
import Mathlib.Data.Nat.Digits.Defs

namespace JsonText

/-- What `json.loads` answers.  A float is `m * 10 ^ e`, as the text has it. -/
inductive Value where
  | null
  | bool (b : Bool)
  | int (i : Int)
  | float (m e : Int)
  | nan
  | infinity (negative : Bool)
  | str (s : String)
  | arr (items : List Value)
  | obj (fields : List (String × Value))

inductive Raised where
  /-- `JSONDecodeError` -/
  | decode
  /-- `ValueError`, an integer has more than `int_max_str_digits` digits -/
  | digits
  /-- `RecursionError` -/
  | recursion
deriving DecidableEq

/-- A part that was read, and what is left of the text. -/
abbrev Read (α : Type) := Except Raised (α × List Char)

/-- Read on from where a part ends. -/
def Read.next {α β : Type} (r : Read α) (k : α → List Char → Read β) : Read β :=
  match r with
  | .error e => .error e
  | .ok (a, rest) => k a rest

/-! ## Strings -/

/-- The value of a hex digit. -/
def hexValue (c : Char) : Option Nat :=
  if '0' ≤ c ∧ c ≤ '9' then some (c.toNat - 48)
  else if 'a' ≤ c ∧ c ≤ 'f' then some (c.toNat - 87)
  else if 'A' ≤ c ∧ c ≤ 'F' then some (c.toNat - 55)
  else none

/-- The code unit of `\uXXXX`. -/
def hex4 (a b c d : Char) : Option Nat := do
  return ((← hexValue a) * 16 + (← hexValue b)) * 256 + ((← hexValue c) * 16 + (← hexValue d))

/-- The escapes of one letter. -/
def escaped (c : Char) : Option Nat :=
  if c = '"' ∨ c = '\\' ∨ c = '/' then some c.toNat
  else if c = 'b' then some 8
  else if c = 'f' then some 12
  else if c = 'n' then some 10
  else if c = 'r' then some 13
  else if c = 't' then some 9
  else none

def Read.cons {α : Type} (a : α) (r : Read (List α)) : Read (List α) :=
  r.next fun as rest => .ok (a :: as, rest)

/-- The code units of a string, from behind its opening quote. -/
def scanunits : List Char → Read (List Nat)
  | [] => .error .decode
  | c :: rest =>
      if c = '"' then .ok ([], rest)
      else if c = '\\' then
        match rest with
        | [] => .error .decode
        | e :: rest =>
            if e = 'u' then
              match rest with
              | x :: y :: z :: w :: rest =>
                  match hex4 x y z w with
                  | some n => (scanunits rest).cons n
                  | none => .error .decode
              | _ => .error .decode
            else
              match escaped e with
              | some n => (scanunits rest).cons n
              | none => .error .decode
      else if c.toNat < 32 then .error .decode
      else (scanunits rest).cons c.toNat

def high (n : Nat) : Bool := 0xd800 ≤ n ∧ n < 0xdc00

def low (n : Nat) : Bool := 0xdc00 ≤ n ∧ n < 0xe000

/-- A code unit on its own. -/
def char (n : Nat) : Char := if high n || low n then '\uFFFD' else .ofNat n

/-- The characters the code units stand for. -/
def join : List Nat → List Char
  | [] => []
  | [n] => [char n]
  | n :: k :: rest =>
      if high n && low k then
        .ofNat (0x10000 + (n - 0xd800) * 0x400 + (k - 0xdc00)) :: join rest
      else char n :: join (k :: rest)

/-- `scanstring`. -/
def scanstring (s : List Char) : Read String :=
  (scanunits s).next fun us rest => .ok (String.ofList (join us), rest)

/-! ## Numbers and words -/

/-- The digits at the front. -/
def digits (s : List Char) : List Char × List Char :=
  (s.takeWhile Char.isDigit, s.dropWhile Char.isDigit)

def value_of_digits (ds : List Char) : Nat := ds.foldl (fun n c => n * 10 + (c.toNat - 48)) 0

/-- `sys.int_info.default_max_str_digits`. -/
def int_max_str_digits : Nat := 4300

/-- The digits before the point, if there is an integer. -/
def scan_int : List Char → Option (List Char × List Char)
  | [] => none
  | c :: rest =>
      if c = '0' then some (['0'], rest)
      else if c.isDigit then some (digits (c :: rest)) else none

/-- The digits behind the point; without one no float. -/
def scan_frac : List Char → Option (List Char × List Char)
  | '.' :: d :: rest => if d.isDigit then some (digits (d :: rest)) else none
  | _ => none

/-- The sign of an exponent, if it has one. -/
def scan_sign : List Char → Bool × List Char
  | [] => (false, [])
  | c :: rest =>
      if c = '-' then (true, rest) else if c = '+' then (false, rest) else (false, c :: rest)

/-- The exponent. -/
def scan_exp : List Char → Option (Int × List Char)
  | [] => none
  | e :: rest =>
      if e = 'e' ∨ e = 'E' then
        let (negative, rest) := scan_sign rest
        let (ds, rest) := digits rest
        let n : Int := value_of_digits ds
        if ds.isEmpty then none else some (if negative then -n else n, rest)
      else none

/-- `_match_number`, behind the sign. -/
def scan_number (negative : Bool) (s : List Char) : Read Value :=
  match scan_int s with
  | none => .error .decode
  | some (ds, s₁) =>
      let (fs, s₂) := (scan_frac s₁).getD ([], s₁)
      let (e, s₃) := (scan_exp s₂).getD (0, s₂)
      let n : Int := value_of_digits (ds ++ fs)
      let m := if negative then -n else n
      if (scan_frac s₁).isNone && (scan_exp s₂).isNone then
        if int_max_str_digits < ds.length then .error .digits else .ok (.int m, s₁)
      else .ok (.float m (e - fs.length), s₃)

/-- The words that are values. -/
def words : List (List Char × Value) :=
  [(['n', 'u', 'l', 'l'], .null), (['t', 'r', 'u', 'e'], .bool true),
    (['f', 'a', 'l', 's', 'e'], .bool false), (['N', 'a', 'N'], .nan),
    (['I', 'n', 'f', 'i', 'n', 'i', 't', 'y'], .infinity false),
    (['-', 'I', 'n', 'f', 'i', 'n', 'i', 't', 'y'], .infinity true)]

def scan_word (s : List Char) : Option (Value × List Char) :=
  words.findSome? fun w => if w.1.isPrefixOf s then some (w.2, s.drop w.1.length) else none

/-- A value that is no string and no container. -/
def scan_atom (s : List Char) : Read Value :=
  match scan_word s with
  | some p => .ok p
  | none =>
      match s with
      | '-' :: rest => scan_number true rest
      | _ => scan_number false s

/-! ## Containers -/

def blank (c : Char) : Bool := c = ' ' || c = '\t' || c = '\n' || c = '\r'

/-- Without the blanks in front. -/
def skip (s : List Char) : List Char := s.dropWhile blank

/-- The elements of an array, up to its bracket.  Each round takes a character, so as many
rounds as there are characters will do (`scan_items_rounds`). -/
def scan_items (scan : List Char → Read Value) : Nat → List Char → Read (List Value)
  | 0, _ => .error .decode
  | n + 1, s => (scan s).next fun v rest =>
      match skip rest with
      | [] => .error .decode
      | c :: rest =>
          if c = ']' then .ok ([v], rest)
          else if c = ',' then (scan_items scan n (skip rest)).cons v
          else .error .decode

/-- The name, the colon and the value of a member. -/
def scan_member (scan : List Char → Read Value) : List Char → Read (String × Value)
  | [] => .error .decode
  | c :: s =>
      if c = '"' then (scanstring s).next fun name rest =>
        match skip rest with
        | [] => .error .decode
        | c :: rest =>
            if c = ':' then (scan (skip rest)).next fun v rest => .ok ((name, v), rest)
            else .error .decode
      else .error .decode

/-- The members of an object, up to its brace. -/
def scan_members (scan : List Char → Read Value) : Nat → List Char → Read (List (String × Value))
  | 0, _ => .error .decode
  | n + 1, s => (scan_member scan s).next fun member rest =>
      match skip rest with
      | [] => .error .decode
      | c :: rest =>
          if c = '\x7d' then .ok ([member], rest)
          else if c = ',' then (scan_members scan n (skip rest)).cons member
          else .error .decode

/-- `dict(pairs)`: a name keeps its first place and its last value. -/
def dict (pairs : List (String × Value)) : List (String × Value) :=
  pairs.foldl (fun fields p =>
    if fields.any (·.1 = p.1) then fields.map fun q => if q.1 = p.1 then p else q
    else fields ++ [p]) []

def scan_array (scan : List Char → Read Value) (s : List Char) : Read Value :=
  match skip s with
  | [] => .error .decode
  | c :: rest =>
      if c = ']' then .ok (.arr [], rest)
      else (scan_items scan (s.length + 1) (c :: rest)).next fun vs rest => .ok (.arr vs, rest)

def scan_object (scan : List Char → Read Value) (s : List Char) : Read Value :=
  match skip s with
  | [] => .error .decode
  | c :: rest =>
      if c = '\x7d' then .ok (.obj [], rest)
      else (scan_members scan (s.length + 1) (c :: rest)).next fun ps rest =>
        .ok (.obj (dict ps), rest)

/-- A value; `nested` reads what is inside a container, where the depth allows one. -/
def scan_value (nested : Option (List Char → Read Value)) : List Char → Read Value
  | [] => .error .decode
  | c :: s =>
      if c = '"' then (scanstring s).next fun name rest => .ok (.str name, rest)
      else if c = '[' then
        match nested with
        | none => .error .recursion
        | some scan => scan_array scan s
      else if c = '\x7b' then
        match nested with
        | none => .error .recursion
        | some scan => scan_object scan s
      else scan_atom (c :: s)

/-- `scan_once`, with room for `depth` containers inside each other. -/
def scan_once : Nat → List Char → Read Value
  | 0 => scan_value none
  | depth + 1 => scan_value (some (scan_once depth))

/-- `json.loads`. -/
def loads (depth : Nat) (text : String) : Except Raised Value :=
  let s := text.toList
  if s.head? = some '\uFEFF' then .error .decode
  else
    match scan_once depth (skip s) with
    | .error e => .error e
    | .ok (v, rest) => if (skip rest).isEmpty then .ok v else .error .decode

/-! ## Writing -/

def hexDigit (n : Nat) : Char := if n < 10 then .ofNat (48 + n) else .ofNat (87 + n)

/-- `\uXXXX`. -/
def escape_unit (n : Nat) : List Char :=
  ['\\', 'u', hexDigit (n / 4096), hexDigit (n / 256 % 16), hexDigit (n / 16 % 16),
    hexDigit (n % 16)]

/-- What `ESCAPE_ASCII` makes of a character. -/
def escape (c : Char) : List Char :=
  if c = '"' then ['\\', '"']
  else if c = '\\' then ['\\', '\\']
  else if c = '\n' then ['\\', 'n']
  else if c = '\r' then ['\\', 'r']
  else if c = '\t' then ['\\', 't']
  else if c = '\x0c' then ['\\', 'f']
  else if c = '\x08' then ['\\', 'b']
  else if ' ' ≤ c ∧ c ≤ '~' then [c]
  else if c.toNat < 0x10000 then escape_unit c.toNat
  else escape_unit (0xd800 + (c.toNat - 0x10000) / 0x400) ++
    escape_unit (0xdc00 + (c.toNat - 0x10000) % 0x400)

/-- `json.dumps` of a string. -/
def dumps_str (s : String) : List Char := '"' :: s.toList.flatMap escape ++ ['"']

/-- `json.dumps` of a dict of one string. -/
def dumps_member (name s : String) : String :=
  String.ofList ('\x7b' :: dumps_str name ++ [':', ' '] ++ dumps_str s ++ ['\x7d'])

/-! ## Reading takes characters -/

/-- What was read took a character at least. -/
def Read.Shrinks {α : Type} (s : List Char) (r : Read α) : Prop :=
  ∀ a rest, r = .ok (a, rest) → rest.length < s.length

section Shrinks

variable {α β : Type} {s : List Char}

theorem Read.shrinks_error (e : Raised) : Read.Shrinks (α := α) s (.error e) :=
  fun _ _ h => by cases h

theorem Read.shrinks_ok {a : α} {rest : List Char} (h : rest.length < s.length) :
    Read.Shrinks s (.ok (a, rest)) := by
  rintro _ _ ⟨⟩
  exact h

theorem Read.Shrinks.mono {r : Read α} {t : List Char} (h : r.Shrinks t)
    (hle : t.length ≤ s.length) : r.Shrinks s :=
  fun a rest hr => Nat.lt_of_lt_of_le (h a rest hr) hle

/-- The first part takes a character; the others may take none. -/
theorem Read.Shrinks.next {r : Read α} {k : α → List Char → Read β} (h : r.Shrinks s)
    (hk : ∀ a rest, rest.length < s.length → (k a rest).Shrinks s) : (r.next k).Shrinks s := by
  cases r with
  | error e => exact shrinks_error e
  | ok p => exact hk p.1 p.2 (h _ _ rfl)

theorem skip_length (s : List Char) : (skip s).length ≤ s.length :=
  (List.dropWhile_sublist blank).length_le

theorem Read.Shrinks.cons {a : α} {r : Read (List α)} (h : r.Shrinks s) :
    (r.cons a).Shrinks s :=
  h.next fun _ _ hrest => shrinks_ok hrest

theorem scanunits_shrinks (s : List Char) : (scanunits s).Shrinks s := by
  fun_induction scanunits s with
  | case2 rest => exact Read.shrinks_ok (Nat.lt_succ_self _)
  | case4 x y z w rest n hn hquote ih =>
      exact (ih.mono (by simp only [List.length_cons]; omega)).cons
  | case7 e rest hu n hn hquote ih =>
      exact (ih.mono (by simp only [List.length_cons]; omega)).cons
  | case10 _ _ _ _ _ ih => exact (ih.mono (Nat.le_succ _)).cons
  | _ => exact Read.shrinks_error _

theorem scanstring_shrinks (s : List Char) : (scanstring s).Shrinks s :=
  (scanunits_shrinks s).next fun _ _ hrest => Read.shrinks_ok hrest

theorem digits_length (s : List Char) : (digits s).2.length ≤ s.length :=
  (List.dropWhile_sublist Char.isDigit).length_le

theorem scan_int_length {ds rest : List Char} (h : scan_int s = some (ds, rest)) :
    rest.length < s.length := by
  cases s with
  | nil => cases h
  | cons c s =>
      simp only [scan_int] at h
      split at h
      · cases h
        exact Nat.lt_succ_self _
      · split at h
        · next hdigit =>
            simp only [digits, List.dropWhile_cons, hdigit, if_true, Option.some.injEq,
              Prod.mk.injEq] at h
            rw [← h.2]
            exact Nat.lt_succ_of_le (digits_length s)
        · cases h

theorem scan_frac_length (s : List Char) :
    ((scan_frac s).getD ([], s)).2.length ≤ s.length := by
  unfold scan_frac
  split
  · next d rest =>
      split
      · exact (digits_length (d :: rest)).trans (Nat.le_succ _)
      · exact Nat.le_refl _
  · exact Nat.le_refl _

theorem scan_sign_length (s : List Char) : (scan_sign s).2.length ≤ s.length := by
  cases s with
  | nil => exact Nat.le_refl _
  | cons c s =>
      simp only [scan_sign]
      split
      · exact Nat.le_succ _
      · split
        · exact Nat.le_succ _
        · exact Nat.le_refl _

theorem scan_exp_length (s : List Char) : ((scan_exp s).getD (0, s)).2.length ≤ s.length := by
  cases s with
  | nil => exact Nat.le_refl _
  | cons e s =>
      simp only [scan_exp]
      split
      · split
        · exact Nat.le_refl _
        · exact ((digits_length _).trans (scan_sign_length s)).trans (Nat.le_succ _)
      · exact Nat.le_refl _

theorem scan_number_shrinks (negative : Bool) (s : List Char) :
    (scan_number negative s).Shrinks s := by
  unfold scan_number
  split
  · exact Read.shrinks_error _
  · next ds s₁ hint =>
      have hlen := scan_int_length hint
      dsimp only
      split
      · split
        · exact Read.shrinks_error _
        · exact Read.shrinks_ok hlen
      · exact Read.shrinks_ok
          (((scan_exp_length _).trans (scan_frac_length s₁)).trans_lt hlen)

theorem scan_word_length {v : Value} {rest : List Char} (h : scan_word s = some (v, rest)) :
    rest.length < s.length := by
  obtain ⟨w, hw, hword⟩ := List.exists_of_findSome?_eq_some h
  have hpos : ∀ w ∈ words, 0 < w.1.length := by decide
  split at hword
  · next hprefix =>
      cases hword
      have hle := (List.isPrefixOf_iff_prefix.mp hprefix).length_le
      have hlen := hpos w hw
      rw [List.length_drop]
      omega
  · cases hword

theorem scan_atom_shrinks (s : List Char) : (scan_atom s).Shrinks s := by
  unfold scan_atom
  split
  · next p hword => exact Read.shrinks_ok (scan_word_length hword)
  · split
    · exact (scan_number_shrinks true _).mono (Nat.le_succ _)
    · exact scan_number_shrinks false _

section Nested

variable {scan : List Char → Read Value} (hscan : ∀ s, (scan s).Shrinks s)
include hscan

theorem scan_items_shrinks (n : Nat) (s : List Char) : (scan_items scan n s).Shrinks s := by
  induction n generalizing s with
  | zero => exact Read.shrinks_error _
  | succ n ih =>
      refine (hscan s).next fun v rest hrest => ?_
      have hskip := skip_length rest
      split
      · exact Read.shrinks_error _
      · next c rest' heq =>
          rw [heq, List.length_cons] at hskip
          split
          · exact Read.shrinks_ok (by omega)
          · split
            · have hskip' := skip_length rest'
              exact ((ih (skip rest')).mono (by omega)).cons
            · exact Read.shrinks_error _

theorem scan_member_shrinks (s : List Char) : (scan_member scan s).Shrinks s := by
  cases s with
  | nil => exact Read.shrinks_error _
  | cons c s =>
      simp only [scan_member]
      split
      · refine ((scanstring_shrinks s).mono (Nat.le_succ _)).next fun name rest hrest => ?_
        have hskip := skip_length rest
        split
        · exact Read.shrinks_error _
        · next c' rest' heq =>
            rw [heq, List.length_cons] at hskip
            split
            · have hskip' := skip_length rest'
              refine ((hscan (skip rest')).mono (by omega)).next fun v rest'' hrest'' => ?_
              exact Read.shrinks_ok hrest''
            · exact Read.shrinks_error _
      · exact Read.shrinks_error _

theorem scan_members_shrinks (n : Nat) (s : List Char) : (scan_members scan n s).Shrinks s := by
  induction n generalizing s with
  | zero => exact Read.shrinks_error _
  | succ n ih =>
      refine (scan_member_shrinks hscan s).next fun member rest hrest => ?_
      have hskip := skip_length rest
      split
      · exact Read.shrinks_error _
      · next c rest' heq =>
          rw [heq, List.length_cons] at hskip
          split
          · exact Read.shrinks_ok (by omega)
          · split
            · have hskip' := skip_length rest'
              exact ((ih (skip rest')).mono (by omega)).cons
            · exact Read.shrinks_error _

/-- Where there are more rounds than characters, it does not matter how many. -/
theorem scan_items_rounds {n m : Nat} {s : List Char} (hn : s.length < n) (hm : s.length < m) :
    scan_items scan n s = scan_items scan m s := by
  induction n generalizing m s with
  | zero => omega
  | succ n ih =>
      obtain ⟨m, rfl⟩ := Nat.exists_eq_add_one.mpr (Nat.zero_lt_of_lt hm)
      cases hs : scan s with
      | error e => simp only [scan_items, hs, Read.next]
      | ok p =>
          have hrest := hscan s p.1 p.2 hs
          have hskip := skip_length p.2
          simp only [scan_items, hs, Read.next]
          split
          · rfl
          · next c rest heq =>
              have hskip' := skip_length rest
              rw [heq, List.length_cons] at hskip
              rw [ih (m := m) (s := skip rest) (by omega) (by omega)]

theorem scan_members_rounds {n m : Nat} {s : List Char} (hn : s.length < n)
    (hm : s.length < m) : scan_members scan n s = scan_members scan m s := by
  induction n generalizing m s with
  | zero => omega
  | succ n ih =>
      obtain ⟨m, rfl⟩ := Nat.exists_eq_add_one.mpr (Nat.zero_lt_of_lt hm)
      cases hs : scan_member scan s with
      | error e => simp only [scan_members, hs, Read.next]
      | ok p =>
          have hrest := scan_member_shrinks hscan s p.1 p.2 hs
          have hskip := skip_length p.2
          simp only [scan_members, hs, Read.next]
          split
          · rfl
          · next c rest heq =>
              have hskip' := skip_length rest
              rw [heq, List.length_cons] at hskip
              rw [ih (m := m) (s := skip rest) (by omega) (by omega)]

theorem scan_array_shrinks (s : List Char) : (scan_array scan s).Shrinks s := by
  have hskip := skip_length s
  unfold scan_array
  split
  · exact Read.shrinks_error _
  · next c rest heq =>
      rw [heq, List.length_cons] at hskip
      split
      · exact Read.shrinks_ok (by omega)
      · refine ((scan_items_shrinks hscan _ (c :: rest)).mono ?_).next
          fun vs rest' hrest => Read.shrinks_ok hrest
        rw [List.length_cons]
        exact hskip

theorem scan_object_shrinks (s : List Char) : (scan_object scan s).Shrinks s := by
  have hskip := skip_length s
  unfold scan_object
  split
  · exact Read.shrinks_error _
  · next c rest heq =>
      rw [heq, List.length_cons] at hskip
      split
      · exact Read.shrinks_ok (by omega)
      · refine ((scan_members_shrinks hscan _ (c :: rest)).mono ?_).next
          fun vs rest' hrest => Read.shrinks_ok hrest
        rw [List.length_cons]
        exact hskip

end Nested

theorem scan_value_shrinks {nested : Option (List Char → Read Value)}
    (h : ∀ scan ∈ nested, ∀ s, (scan s).Shrinks s) (s : List Char) :
    (scan_value nested s).Shrinks s := by
  cases s with
  | nil => exact Read.shrinks_error _
  | cons c s =>
      simp only [scan_value]
      split
      · refine ((scanstring_shrinks s).mono (Nat.le_succ _)).next fun name rest hrest => ?_
        exact Read.shrinks_ok hrest
      · split
        · cases nested with
          | none => exact Read.shrinks_error _
          | some scan => exact (scan_array_shrinks (h scan rfl) s).mono (Nat.le_succ _)
        · split
          · cases nested with
            | none => exact Read.shrinks_error _
            | some scan => exact (scan_object_shrinks (h scan rfl) s).mono (Nat.le_succ _)
          · exact scan_atom_shrinks (c :: s)

/-- A value that was read took a character at least, at any depth; so the rounds that
`scan_array` and `scan_object` grant are enough. -/
theorem scan_once_shrinks (depth : Nat) (s : List Char) : (scan_once depth s).Shrinks s := by
  induction depth generalizing s with
  | zero => exact scan_value_shrinks (fun _ h => by cases h) s
  | succ depth ih =>
      refine scan_value_shrinks (fun scan h => ?_) s
      cases h
      exact ih

end Shrinks

/-! ## What was written is read back -/

theorem hexValue_hexDigit : ∀ n < 16, hexValue (hexDigit n) = some n := by decide

theorem hex4_escape_unit {n : Nat} (h : n < 0x10000) :
    hex4 (hexDigit (n / 4096)) (hexDigit (n / 256 % 16)) (hexDigit (n / 16 % 16))
      (hexDigit (n % 16)) = some n := by
  rw [hex4, hexValue_hexDigit _ (by omega), hexValue_hexDigit _ (by omega),
    hexValue_hexDigit _ (by omega), hexValue_hexDigit _ (by omega)]
  refine congrArg some ?_
  omega

theorem scanunits_quote (rest : List Char) : scanunits ('"' :: rest) = .ok ([], rest) := by
  rw [scanunits.eq_def]
  exact if_pos rfl

theorem scanunits_plain {c : Char} (hquote : c ≠ '"') (hslash : c ≠ '\\') (h : 32 ≤ c.toNat)
    (rest : List Char) : scanunits (c :: rest) = (scanunits rest).cons c.toNat := by
  rw [scanunits.eq_def]
  simp only [if_neg hquote, if_neg hslash, if_neg (Nat.not_lt.mpr h)]

theorem scanunits_escaped {c e : Char} (he : e ≠ 'u') (h : escaped e = some c.toNat)
    (rest : List Char) : scanunits (['\\', e] ++ rest) = (scanunits rest).cons c.toNat := by
  rw [scanunits.eq_def]
  simp only [List.cons_append, List.nil_append, if_neg he, h]
  rfl

theorem scanunits_escape_unit {n : Nat} (h : n < 0x10000) (rest : List Char) :
    scanunits (escape_unit n ++ rest) = (scanunits rest).cons n := by
  rw [scanunits.eq_def]
  simp only [escape_unit, List.cons_append, List.nil_append, hex4_escape_unit h]
  rfl

/-- The code units of a character. -/
def units (c : Char) : List Nat :=
  if c.toNat < 0x10000 then [c.toNat]
  else [0xd800 + (c.toNat - 0x10000) / 0x400, 0xdc00 + (c.toNat - 0x10000) % 0x400]

theorem toNat_lt (c : Char) : c.toNat < 0x110000 := by
  rcases c.valid with h | h
  · exact Nat.lt_trans h (by decide)
  · exact h.2

theorem scanunits_escape (c : Char) (rest : List Char) :
    scanunits (escape c ++ rest) =
      (scanunits rest).next fun us rest => .ok (units c ++ us, rest) := by
  by_cases hsmall : c.toNat < 0x10000
  · have hunits : units c = [c.toNat] := if_pos hsmall
    rw [hunits]
    show _ = (scanunits rest).cons c.toNat
    unfold escape
    split
    · next h => subst h; exact scanunits_escaped (by decide) rfl rest
    split
    · next h => subst h; exact scanunits_escaped (by decide) rfl rest
    split
    · next h => subst h; exact scanunits_escaped (by decide) rfl rest
    split
    · next h => subst h; exact scanunits_escaped (by decide) rfl rest
    split
    · next h => subst h; exact scanunits_escaped (by decide) rfl rest
    split
    · next h => subst h; exact scanunits_escaped (by decide) rfl rest
    split
    · next h => subst h; exact scanunits_escaped (by decide) rfl rest
    split
    · next hquote hslash _ _ _ _ _ hprint =>
        have hge : 32 ≤ c.toNat := hprint.1
        exact scanunits_plain hquote hslash hge rest
    · exact scanunits_escape_unit hsmall rest
  · have hlt := toNat_lt c
    have hunits : units c = _ := if_neg hsmall
    have hescape : escape c = escape_unit (0xd800 + (c.toNat - 0x10000) / 0x400) ++
        escape_unit (0xdc00 + (c.toNat - 0x10000) % 0x400) := by
      have hne : ∀ d : Char, d.toNat < 0x10000 → c ≠ d := by
        rintro d hd rfl
        exact hsmall hd
      have hle : ¬ (' ' ≤ c ∧ c ≤ '~') := by
        rintro ⟨_, hle⟩
        have : c.toNat ≤ 126 := hle
        omega
      unfold escape
      rw [if_neg (hne _ (by decide)), if_neg (hne _ (by decide)), if_neg (hne _ (by decide)),
        if_neg (hne _ (by decide)), if_neg (hne _ (by decide)), if_neg (hne _ (by decide)),
        if_neg (hne _ (by decide)), if_neg hle, if_neg hsmall]
    rw [hescape, hunits, List.append_assoc, scanunits_escape_unit (by omega),
      scanunits_escape_unit (by omega)]
    cases scanunits rest with
    | error e => rfl
    | ok p => rfl

/-- **What `dumps_str` writes, `scanunits` reads**, up to the closing quote. -/
theorem scanunits_dumps (cs rest : List Char) :
    scanunits (cs.flatMap escape ++ '"' :: rest) = .ok (cs.flatMap units, rest) := by
  induction cs with
  | nil => exact scanunits_quote rest
  | cons c cs ih =>
      rw [List.flatMap_cons, List.append_assoc, scanunits_escape, ih]
      rfl

/-! ### Code units and characters -/

theorem char_toNat {c : Char} : char c.toNat = c := by
  have hvalid : (high c.toNat || low c.toNat) = false := by
    simp only [high, low, Bool.or_eq_false_iff, decide_eq_false_iff_not, not_and, not_lt]
    rcases c.valid with h | h
    · have : c.toNat < 0xd800 := h
      omega
    · have : 0xdfff < c.toNat := h.1
      omega
  rw [char, if_neg (by rw [hvalid]; decide), Char.ofNat_toNat]

theorem join_cons {n : Nat} (h : high n = false) (us : List Nat) :
    join (n :: us) = char n :: join us := by
  cases us with
  | nil => rfl
  | cons k rest =>
      rw [join, h, Bool.false_and, if_neg Bool.false_ne_true]

theorem high_toNat (c : Char) : high c.toNat = false := by
  simp only [high, decide_eq_false_iff_not, not_and, not_lt]
  rcases c.valid with h | h
  · have : c.toNat < 0xd800 := h
    omega
  · have : 0xdfff < c.toNat := h.1
    omega

/-- The code units of a text stand for it. -/
theorem join_units (cs : List Char) : join (cs.flatMap units) = cs := by
  induction cs with
  | nil => rfl
  | cons c cs ih =>
      rw [List.flatMap_cons, units]
      by_cases hsmall : c.toNat < 0x10000
      · rw [if_pos hsmall, List.singleton_append, join_cons (high_toNat c), char_toNat, ih]
      · have hlt := toNat_lt c
        have hpair : (high (0xd800 + (c.toNat - 0x10000) / 0x400) &&
            low (0xdc00 + (c.toNat - 0x10000) % 0x400)) = true := by
          simp only [high, low, Bool.and_eq_true, decide_eq_true_eq]
          omega
        have hchar : 0x10000 + (0xd800 + (c.toNat - 0x10000) / 0x400 - 0xd800) * 0x400 +
            (0xdc00 + (c.toNat - 0x10000) % 0x400 - 0xdc00) = c.toNat := by omega
        rw [if_neg hsmall, List.cons_append, List.cons_append, List.nil_append, join,
          if_pos hpair, hchar, Char.ofNat_toNat, ih]

/-- **A string that was written is read back.** -/
theorem scanstring_dumps (s : String) (rest : List Char) :
    scanstring (s.toList.flatMap escape ++ '"' :: rest) = .ok (s, rest) := by
  rw [scanstring, scanunits_dumps, Read.next, join_units, String.ofList_toList]

theorem dumps_str_append (s : String) (rest : List Char) :
    dumps_str s ++ rest = '"' :: (s.toList.flatMap escape ++ '"' :: rest) := by
  simp only [dumps_str, List.cons_append, List.append_assoc, List.nil_append]

theorem skip_cons {c : Char} (h : blank c = false) (s : List Char) : skip (c :: s) = c :: s := by
  rw [skip, List.dropWhile_cons, h, if_neg Bool.false_ne_true]

theorem skip_dumps (s : String) (rest : List Char) :
    skip (dumps_str s ++ rest) = dumps_str s ++ rest := by
  rw [dumps_str_append]
  exact skip_cons (by decide) _

theorem scan_value_dumps (nested : Option (List Char → Read Value)) (s : String)
    (rest : List Char) : scan_value nested (dumps_str s ++ rest) = .ok (.str s, rest) := by
  rw [dumps_str_append, scan_value.eq_def]
  dsimp only
  rw [if_pos rfl, scanstring_dumps, Read.next]

theorem scan_once_dumps (depth : Nat) (s : String) (rest : List Char) :
    scan_once depth (dumps_str s ++ rest) = .ok (.str s, rest) := by
  cases depth with
  | zero => exact scan_value_dumps _ s rest
  | succ depth => exact scan_value_dumps _ s rest

section Members

variable {scan : List Char → Read Value} {name s : String} {rest : List Char}

theorem scan_member_dumps (hscan : scan (dumps_str s ++ rest) = .ok (.str s, rest)) :
    scan_member scan (dumps_str name ++ ':' :: ' ' :: (dumps_str s ++ rest)) =
      .ok ((name, .str s), rest) := by
  have hblank : skip (' ' :: (dumps_str s ++ rest)) = dumps_str s ++ rest := skip_dumps s rest
  rw [dumps_str_append, scan_member.eq_def]
  dsimp only
  rw [if_pos rfl, scanstring_dumps, Read.next, skip_cons (c := ':') (by decide)]
  dsimp only
  rw [if_pos rfl, hblank, hscan]
  rfl

theorem scan_members_dumps (name : String)
    (hscan : scan (dumps_str s ++ '\x7d' :: rest) = .ok (.str s, '\x7d' :: rest)) (n : Nat) :
    scan_members scan (n + 1) (dumps_str name ++ ':' :: ' ' :: (dumps_str s ++ '\x7d' :: rest)) =
      .ok ([(name, .str s)], rest) := by
  rw [scan_members, scan_member_dumps hscan, Read.next, skip_cons (c := '\x7d') (by decide)]
  exact if_pos rfl

theorem scan_object_dumps (name : String)
    (hscan : scan (dumps_str s ++ '\x7d' :: rest) = .ok (.str s, '\x7d' :: rest)) :
    scan_object scan (dumps_str name ++ ':' :: ' ' :: (dumps_str s ++ '\x7d' :: rest)) =
      .ok (.obj [(name, .str s)], rest) := by
  have hmembers := scan_members_dumps name hscan
  unfold scan_object
  rw [skip_dumps]
  rw [dumps_str_append] at hmembers ⊢
  dsimp only
  rw [if_neg (by decide), hmembers]
  rfl

end Members

/-- **A dict of one string that was written is read back.** -/
theorem loads_dumps_member (depth : Nat) (name s : String) :
    loads (depth + 1) (dumps_member name s) = .ok (.obj [(name, .str s)]) := by
  have htext : (dumps_member name s).toList =
      '\x7b' :: (dumps_str name ++ ':' :: ' ' :: (dumps_str s ++ ['\x7d'])) := by
    simp only [dumps_member, String.toList_ofList, List.cons_append, List.append_assoc,
      List.nil_append]
  have hobject := scan_object_dumps name (scan_once_dumps depth s ['\x7d'])
  have hscan : scan_once (depth + 1) (dumps_member name s).toList =
      .ok (.obj [(name, .str s)], []) := by
    rw [htext, scan_once, scan_value.eq_def]
    dsimp only
    rw [if_neg (by decide), if_neg (by decide), if_pos rfl, hobject]
  have hskip : skip (dumps_member name s).toList = (dumps_member name s).toList := by
    rw [htext]
    exact skip_cons (by decide) _
  unfold loads
  dsimp only
  rw [if_neg, hskip, hscan]
  · rfl
  · rw [htext]
    exact fun h => absurd (Option.some.inj h) (by decide)

end JsonText
