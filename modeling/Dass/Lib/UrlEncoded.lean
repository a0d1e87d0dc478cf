/-
# `Dass.Lib.UrlEncoded` — names and values in a query string

`application/x-www-form-urlencoded`, as browsers write it (`serialize`) and as `parse_qsl` of
Python's `urllib.parse` reads it, blank values kept.  A writer escapes the bytes of the text but
for the letters, the digits and four marks, so neither a `&` nor a `=` of the text is left, and
what is between them is read back: `parse_qsl` is a left inverse of `serialize`
(`parse_qsl_serialize`).

A reader takes more than a writer makes: characters that are no ASCII stand for themselves, and a
`%` without two digits behind it does.
-/
import Dass.Lib.Utf8
import Mathlib.Data.List.TakeDrop

namespace UrlEncoded

/-! ## Writing -/

/-- A byte that stands for itself: a letter, a digit, or one of `*-._`. -/
def unescaped (b : UInt8) : Bool :=
  (0x30 ≤ b && b ≤ 0x39) || (0x41 ≤ b && b ≤ 0x5A) || (0x61 ≤ b && b ≤ 0x7A) ||
    b = 0x2A || b = 0x2D || b = 0x2E || b = 0x5F

def hex_digit (n : Nat) : Char := if n < 10 then .ofNat (48 + n) else .ofNat (55 + n)

def escape_byte (b : UInt8) : List Char :=
  if b = 0x20 then ['+']
  else if unescaped b then [.ofNat b.toNat]
  else ['%', hex_digit (b.toNat / 16), hex_digit (b.toNat % 16)]

def escape (text : List Char) : List Char := (Utf8.encode text).flatMap escape_byte

/-- `name=value`. -/
def serialize_pair (p : List Char × List Char) : List Char := escape p.1 ++ '=' :: escape p.2

/-- `URLSearchParams.prototype.toString`. -/
def serialize (pairs : List (List Char × List Char)) : List Char :=
  ['&'].intercalate (pairs.map serialize_pair)

/-! ## Reading -/

/-- A hexadecimal digit, of either case. -/
def hex_value (c : Char) : Option Nat :=
  if '0' ≤ c ∧ c ≤ '9' then some (c.toNat - 48)
  else if 'A' ≤ c ∧ c ≤ 'F' then some (c.toNat - 55)
  else if 'a' ≤ c ∧ c ≤ 'f' then some (c.toNat - 87)
  else none

/-- The bytes of ASCII text up to a character that is none, and the text from there on. -/
def unquote_go (bytes : List UInt8) : List Char → List Char
  | [] => Utf8.decode_replace bytes
  | '%' :: a :: b :: rest =>
      match hex_value a, hex_value b with
      | some high, some low => unquote_go (bytes ++ [.ofNat (high * 16 + low)]) rest
      | _, _ => unquote_go (bytes ++ [0x25]) (a :: b :: rest)
  | c :: rest =>
      if c.toNat < 128 then unquote_go (bytes ++ [.ofNat c.toNat]) rest
      else Utf8.decode_replace bytes ++ c :: unquote_go [] rest
termination_by text => text.length

/-- `unquote(text)`. -/
def unquote (text : List Char) : List Char := unquote_go [] text

/-- `text.replace("+", " ")`. -/
def plus_to_space (text : List Char) : List Char := text.map fun c => if c = '+' then ' ' else c

def read (text : List Char) : List Char := unquote (plus_to_space text)

/-- `text.split("=", 1)`, without a value a blank one. -/
def parse_pair (text : List Char) : List Char × List Char :=
  (read (text.takeWhile (· ≠ '=')), read ((text.dropWhile (· ≠ '=')).drop 1))

/-- `parse_qsl(text, keep_blank_values=True)`. -/
def parse_qsl (text : List Char) : List (List Char × List Char) :=
  ((text.splitOn '&').filter (· ≠ [])).map parse_pair

/-! ## What is written is read back -/

theorem hex_value_hex_digit : ∀ n < 16, hex_value (hex_digit n) = some n := by
  decide

theorem hex_digit_ne : ∀ n < 16, hex_digit n ≠ '+' ∧ hex_digit n ≠ '&' ∧ hex_digit n ≠ '=' := by
  decide

/-- What stands for itself is ASCII and means nothing else. -/
theorem unescaped_char {b : UInt8} (h : unescaped b = true) :
    (Char.ofNat b.toNat ≠ '+' ∧ Char.ofNat b.toNat ≠ '%' ∧ Char.ofNat b.toNat ≠ '&' ∧
      Char.ofNat b.toNat ≠ '=') ∧ (Char.ofNat b.toNat).toNat = b.toNat ∧ b.toNat < 128 := by
  have key : ∀ n < 256, unescaped (.ofNat n) = true →
      (Char.ofNat n ≠ '+' ∧ Char.ofNat n ≠ '%' ∧ Char.ofNat n ≠ '&' ∧ Char.ofNat n ≠ '=') ∧
        (Char.ofNat n).toNat = n ∧ n < 128 := by
    decide +kernel
  exact key b.toNat b.toNat_lt (by rwa [UInt8.ofNat_toNat])

/-- A character that is no `%` is a byte. -/
theorem unquote_go_ascii {c : Char} (hne : c ≠ '%') (hlt : c.toNat < 128) (bytes : List UInt8)
    (rest : List Char) :
    unquote_go bytes (c :: rest) = unquote_go (bytes ++ [.ofNat c.toNat]) rest := by
  rw [unquote_go.eq_def]
  split
  · next h => cases h
  · next h =>
      cases h
      exact absurd rfl hne
  · next h =>
      cases h
      rw [if_pos hlt]

/-- A byte is read back from what it is escaped to. -/
theorem unquote_go_escape_byte (b : UInt8) (bytes : List UInt8) (rest : List Char) :
    unquote_go bytes (plus_to_space (escape_byte b) ++ rest) = unquote_go (bytes ++ [b]) rest := by
  unfold escape_byte
  split
  · next h =>
      rw [h]
      exact unquote_go_ascii (by decide) (by decide) bytes rest
  · split
    · next h =>
        obtain ⟨⟨hplus, hpercent, -⟩, hnat, hlt⟩ := unescaped_char h
        have hspace : plus_to_space [Char.ofNat b.toNat] = [Char.ofNat b.toNat] := by
          rw [plus_to_space, List.map_singleton, if_neg hplus]
        rw [hspace, List.singleton_append, unquote_go_ascii hpercent (by omega), hnat,
          UInt8.ofNat_toNat]
    · have hlt : b.toNat < 256 := b.toNat_lt
      have hhigh : b.toNat / 16 < 16 := by omega
      have hlow : b.toNat % 16 < 16 := Nat.mod_lt _ (by decide)
      have hspace : plus_to_space ['%', hex_digit (b.toNat / 16), hex_digit (b.toNat % 16)] =
          ['%', hex_digit (b.toNat / 16), hex_digit (b.toNat % 16)] := by
        simp only [plus_to_space, List.map_cons, List.map_nil, (hex_digit_ne _ hhigh).1,
          (hex_digit_ne _ hlow).1, if_false]
        rfl
      rw [hspace]
      change unquote_go bytes ('%' :: hex_digit (b.toNat / 16) :: hex_digit (b.toNat % 16) :: rest)
        = _
      rw [unquote_go, hex_value_hex_digit _ hhigh, hex_value_hex_digit _ hlow]
      dsimp only
      rw [show b.toNat / 16 * 16 + b.toNat % 16 = b.toNat by omega, UInt8.ofNat_toNat]

theorem unquote_go_escape (bs bytes : List UInt8) :
    unquote_go bytes (plus_to_space (bs.flatMap escape_byte)) =
      Utf8.decode_replace (bytes ++ bs) := by
  induction bs generalizing bytes with
  | nil =>
      rw [List.append_nil, List.flatMap_nil, plus_to_space, List.map_nil, unquote_go]
  | cons b bs ih =>
      rw [List.flatMap_cons, plus_to_space, List.map_append, ← plus_to_space, ← plus_to_space,
        unquote_go_escape_byte, ih, List.append_assoc, List.singleton_append]

theorem read_escape (text : List Char) : read (escape text) = text := by
  rw [read, unquote, escape, unquote_go_escape, List.nil_append, Utf8.decode_replace_encode]

/-- Neither of the separators is left. -/
theorem separators_not_mem (text : List Char) : '&' ∉ escape text ∧ '=' ∉ escape text := by
  have key : ∀ b : UInt8, '&' ∉ escape_byte b ∧ '=' ∉ escape_byte b := by
    intro b
    unfold escape_byte
    split
    · decide
    · split
      · next h =>
          obtain ⟨⟨-, -, hamp, heq⟩, -⟩ := unescaped_char h
          simp [hamp.symm, heq.symm]
      · have hlt : b.toNat < 256 := b.toNat_lt
        obtain ⟨-, hamp, heq⟩ := hex_digit_ne (b.toNat / 16) (by omega)
        obtain ⟨-, hamp', heq'⟩ := hex_digit_ne (b.toNat % 16) (Nat.mod_lt _ (by decide))
        simp [hamp.symm, heq.symm, hamp'.symm, heq'.symm]
  constructor
  · intro h
    obtain ⟨b, -, hb⟩ := List.mem_flatMap.mp h
    exact (key b).1 hb
  · intro h
    obtain ⟨b, -, hb⟩ := List.mem_flatMap.mp h
    exact (key b).2 hb

theorem parse_pair_serialize_pair (p : List Char × List Char) :
    parse_pair (serialize_pair p) = p := by
  have hname : ∀ c ∈ escape p.1, (decide (c ≠ '=')) = true := by
    intro c hc
    refine decide_eq_true ?_
    rintro rfl
    exact (separators_not_mem p.1).2 hc
  unfold parse_pair serialize_pair
  rw [List.takeWhile_append_of_pos hname, List.dropWhile_append_of_pos hname]
  simp [read_escape]

/-- **What is serialized is read back**, name for name and value for value. -/
theorem parse_qsl_serialize (pairs : List (List Char × List Char)) :
    parse_qsl (serialize pairs) = pairs := by
  unfold parse_qsl serialize
  cases pairs with
  | nil => rfl
  | cons p pairs =>
      rw [List.splitOn_intercalate]
      · rw [List.filter_eq_self.mpr, List.map_map]
        · exact (List.map_congr_left fun p _ => parse_pair_serialize_pair p).trans (List.map_id _)
        · intro text htext
          obtain ⟨p, -, rfl⟩ := List.mem_map.mp htext
          simp [serialize_pair]
      · intro text htext
        obtain ⟨p, -, rfl⟩ := List.mem_map.mp htext
        simp [serialize_pair, (separators_not_mem _).1]
      · simp

end UrlEncoded
