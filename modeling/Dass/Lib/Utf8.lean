/-
# `Dass.Lib.Utf8` — decoding UTF-8, strictly or with replacement

CPython's decoder of UTF-8, byte for byte.  It reads a text as characters and errors
(`items`): an error takes one byte that can start nothing, or the bytes of a character up to
the one that does not continue it, or all that is left where the text ends inside a character.
The error handlers differ only in what becomes of an error: `strict` raises the first one,
`replace` puts U+FFFD for each.  So what can be decoded strictly is decoded the same with
replacement (`decode_replace_of_strict`), and what has been encoded is decoded as it was
(`decode_replace_encode`).
-/
import Mathlib.Data.List.Basic

namespace Utf8

/-- Why a text is no UTF-8. -/
inductive Reason where
  | invalid_start
  | invalid_continuation
  | unexpected_end
deriving DecidableEq

def Reason.text : Reason → String
  | .invalid_start => "invalid start byte"
  | .invalid_continuation => "invalid continuation byte"
  | .unexpected_end => "unexpected end of data"

/-- `UnicodeDecodeError`: the bytes from `start`, the first of which is `byte`. -/
structure DecodeError where
  byte : UInt8
  start : Nat
  length : Nat
  reason : Reason
deriving DecidableEq

def hex_digit (n : Nat) : Char := if n < 10 then .ofNat (48 + n) else .ofNat (87 + n)

/-- `str(exc)`. -/
def DecodeError.str (e : DecodeError) : String :=
  let byte := String.ofList [hex_digit (e.byte.toNat / 16), hex_digit (e.byte.toNat % 16)]
  if e.length = 1 then
    "'utf-8' codec can't decode byte 0x" ++ byte ++ " in position " ++ toString e.start ++ ": " ++
      e.reason.text
  else
    "'utf-8' codec can't decode bytes in position " ++ toString e.start ++ "-" ++
      toString (e.start + e.length - 1) ++ ": " ++ e.reason.text

/-- `10xxxxxx`. -/
def continues (b : UInt8) : Bool := 0x80 ≤ b && b < 0xC0

/-- The second byte continues the first: no overlong form, no surrogate, nothing above
U+10FFFF. -/
def follows (b₁ b₂ : UInt8) : Bool :=
  continues b₂ && !(b₁ = 0xE0 && b₂ < 0xA0) && !(b₁ = 0xED && 0xA0 ≤ b₂) &&
    !(b₁ = 0xF0 && b₂ < 0x90) && !(b₁ = 0xF4 && 0x90 ≤ b₂)

/-- The bits a continuation byte carries. -/
def bits (b : UInt8) : Nat := b.toNat % 64

/-- What the decoder makes of the bytes, the first of them at `pos`. -/
def items (pos : Nat) : List UInt8 → List (Except DecodeError Char)
  | [] => []
  | b₁ :: rest₁ =>
      if b₁ < 0x80 then .ok (.ofNat b₁.toNat) :: items (pos + 1) rest₁
      else if b₁ < 0xC2 then .error ⟨b₁, pos, 1, .invalid_start⟩ :: items (pos + 1) rest₁
      else if b₁ < 0xF5 then
        match rest₁ with
        | [] => [.error ⟨b₁, pos, 1, .unexpected_end⟩]
        | b₂ :: rest₂ =>
            if follows b₁ b₂ = false then
              .error ⟨b₁, pos, 1, .invalid_continuation⟩ :: items (pos + 1) (b₂ :: rest₂)
            else if b₁ < 0xE0 then
              .ok (.ofNat (b₁.toNat % 32 * 64 + bits b₂)) :: items (pos + 2) rest₂
            else
              match rest₂ with
              | [] => [.error ⟨b₁, pos, 2, .unexpected_end⟩]
              | b₃ :: rest₃ =>
                  if continues b₃ = false then
                    .error ⟨b₁, pos, 2, .invalid_continuation⟩ :: items (pos + 2) (b₃ :: rest₃)
                  else if b₁ < 0xF0 then
                    .ok (.ofNat ((b₁.toNat % 16 * 64 + bits b₂) * 64 + bits b₃)) ::
                      items (pos + 3) rest₃
                  else
                    match rest₃ with
                    | [] => [.error ⟨b₁, pos, 3, .unexpected_end⟩]
                    | b₄ :: rest₄ =>
                        if continues b₄ = false then
                          .error ⟨b₁, pos, 3, .invalid_continuation⟩ ::
                            items (pos + 3) (b₄ :: rest₄)
                        else
                          .ok (.ofNat (((b₁.toNat % 8 * 64 + bits b₂) * 64 + bits b₃) * 64 +
                            bits b₄)) :: items (pos + 4) rest₄
      else .error ⟨b₁, pos, 1, .invalid_start⟩ :: items (pos + 1) rest₁

/-- The characters, or the first error. -/
def raise_first : List (Except DecodeError Char) → Except DecodeError (List Char)
  | [] => .ok []
  | .error e :: _ => .error e
  | .ok c :: rest => (raise_first rest).map (c :: ·)

/-- U+FFFD for an error. -/
def replaced : Except DecodeError Char → Char
  | .ok c => c
  | .error _ => '\uFFFD'

/-- `data.decode()`. -/
def decode_strict (bytes : List UInt8) : Except DecodeError (List Char) :=
  raise_first (items 0 bytes)

/-- `data.decode(errors="replace")`. -/
def decode_replace (bytes : List UInt8) : List Char := (items 0 bytes).map replaced

theorem replaced_of_raise_first {is : List (Except DecodeError Char)} {cs : List Char}
    (h : raise_first is = .ok cs) : is.map replaced = cs := by
  induction is generalizing cs with
  | nil =>
      cases h
      rfl
  | cons i is ih =>
      cases i with
      | error e => cases h
      | ok c =>
          cases hrest : raise_first is with
          | error e =>
              rw [raise_first, hrest] at h
              cases h
          | ok cs' =>
              rw [raise_first, hrest] at h
              cases h
              rw [List.map_cons, ih hrest]
              rfl

/-- **What is decoded strictly is decoded the same with replacement.** -/
theorem decode_replace_of_strict {bytes : List UInt8} {cs : List Char}
    (h : decode_strict bytes = .ok cs) : decode_replace bytes = cs :=
  replaced_of_raise_first h

/-! ## Encoding -/

/-- The bytes of a character. -/
def encode_char (c : Char) : List UInt8 :=
  let n := c.toNat
  if n < 0x80 then [.ofNat n]
  else if n < 0x800 then [.ofNat (0xC0 + n / 64), .ofNat (0x80 + n % 64)]
  else if n < 0x10000 then
    [.ofNat (0xE0 + n / 4096), .ofNat (0x80 + n / 64 % 64), .ofNat (0x80 + n % 64)]
  else
    [.ofNat (0xF0 + n / 262144), .ofNat (0x80 + n / 4096 % 64), .ofNat (0x80 + n / 64 % 64),
      .ofNat (0x80 + n % 64)]

/-- `text.encode()`. -/
def encode (text : List Char) : List UInt8 := text.flatMap encode_char

theorem char_cases (c : Char) : c.toNat < 0xD800 ∨ 0xDFFF < c.toNat ∧ c.toNat < 0x110000 := c.valid

theorem toNat_ofNat {n : Nat} (h : n < 256) : (UInt8.ofNat n).toNat = n := by
  simp [Nat.mod_eq_of_lt h]

theorem ofNat_lt {n : Nat} (h : n < 256) (b : UInt8) : UInt8.ofNat n < b ↔ n < b.toNat := by
  rw [UInt8.lt_iff_toNat_lt, toNat_ofNat h]

/-- A continuation byte and what it carries. -/
theorem continues_ofNat {n : Nat} (h : n < 64) :
    continues (.ofNat (0x80 + n)) = true ∧ bits (.ofNat (0x80 + n)) = n := by
  have hnat : (UInt8.ofNat (0x80 + n)).toNat = 0x80 + n := toNat_ofNat (by omega)
  constructor
  · simp [continues, UInt8.lt_iff_toNat_lt, UInt8.le_iff_toNat_le]
    omega
  · rw [bits, hnat]
    omega

theorem ofNat_eq {n : Nat} (h : n < 256) (b : UInt8) : UInt8.ofNat n = b ↔ n = b.toNat := by
  rw [← UInt8.toNat_inj, toNat_ofNat h]

/-- The second byte of a character that has its shortest form, and is no surrogate. -/
theorem follows_ofNat {a n : Nat} (ha : a < 256) (h : n < 64) (hE0 : a = 0xE0 → 0x20 ≤ n)
    (hED : a = 0xED → n < 0x20) (hF0 : a = 0xF0 → 0x10 ≤ n) (hF4 : a = 0xF4 → n < 0x10) :
    follows (.ofNat a) (.ofNat (0x80 + n)) = true := by
  have hn : 0x80 + n < 256 := by omega
  have hle : ∀ b : UInt8, b ≤ .ofNat (0x80 + n) ↔ b.toNat ≤ 0x80 + n := fun b => by
    rw [UInt8.le_iff_toNat_le, toNat_ofNat hn]
  simp only [follows, (continues_ofNat h).1, ofNat_eq ha, ofNat_lt hn, hle, Bool.true_and,
    Bool.and_eq_true, Bool.not_eq_true', Bool.and_eq_false_iff, decide_eq_false_iff_not]
  simp
  omega

section Items

variable {n : Nat} (pos : Nat) (rest : List UInt8)

theorem items_one (h : n < 0x80) :
    items pos (.ofNat n :: rest) = .ok (.ofNat n) :: items (pos + 1) rest := by
  rw [items.eq_def]
  dsimp only
  rw [if_pos (by rw [ofNat_lt (by omega)]; exact h), toNat_ofNat (by omega)]

theorem items_two (h₁ : ¬ n < 0x80) (h₂ : n < 0x800) :
    items pos (.ofNat (0xC0 + n / 64) :: .ofNat (0x80 + n % 64) :: rest) =
      .ok (.ofNat n) :: items (pos + 2) rest := by
  have hb : 0xC0 + n / 64 < 256 := by omega
  have hlast : n % 64 < 64 := Nat.mod_lt _ (by decide)
  have hfollows := follows_ofNat hb hlast (by omega) (by omega) (by omega) (by omega)
  have hn : (0xC0 + n / 64) % 32 * 64 + n % 64 = n := by omega
  rw [items.eq_def]
  simp only [ofNat_lt hb, hfollows, continues_ofNat hlast, toNat_ofNat hb, hn]
  rw [if_neg (by simp; omega), if_neg (by simp; omega), if_pos (by simp; omega),
    if_neg (by decide), if_pos (by simp; omega)]

theorem items_three (h₂ : ¬ n < 0x800) (h₃ : n < 0x10000) (hc : n < 0xD800 ∨ 0xDFFF < n) :
    items pos (.ofNat (0xE0 + n / 4096) :: .ofNat (0x80 + n / 64 % 64) ::
        .ofNat (0x80 + n % 64) :: rest) =
      .ok (.ofNat n) :: items (pos + 3) rest := by
  have hb : 0xE0 + n / 4096 < 256 := by omega
  have hmid : n / 64 % 64 < 64 := Nat.mod_lt _ (by decide)
  have hlast : n % 64 < 64 := Nat.mod_lt _ (by decide)
  have hfollows := follows_ofNat hb hmid (by omega) (by omega) (by omega) (by omega)
  have hn : ((0xE0 + n / 4096) % 16 * 64 + n / 64 % 64) * 64 + n % 64 = n := by omega
  rw [items.eq_def]
  simp only [ofNat_lt hb, hfollows, continues_ofNat hmid, continues_ofNat hlast, toNat_ofNat hb,
    hn]
  rw [if_neg (by simp; omega), if_neg (by simp; omega), if_pos (by simp; omega),
    if_neg (by decide), if_neg (by simp), if_neg (by decide), if_pos (by simp; omega)]

theorem items_four (h₃ : ¬ n < 0x10000) (h₄ : n < 0x110000) :
    items pos (.ofNat (0xF0 + n / 262144) :: .ofNat (0x80 + n / 4096 % 64) ::
        .ofNat (0x80 + n / 64 % 64) :: .ofNat (0x80 + n % 64) :: rest) =
      .ok (.ofNat n) :: items (pos + 4) rest := by
  have hb : 0xF0 + n / 262144 < 256 := by omega
  have hsecond : n / 4096 % 64 < 64 := Nat.mod_lt _ (by decide)
  have hmid : n / 64 % 64 < 64 := Nat.mod_lt _ (by decide)
  have hlast : n % 64 < 64 := Nat.mod_lt _ (by decide)
  have hfollows := follows_ofNat hb hsecond (by omega) (by omega) (by omega) (by omega)
  have hn : (((0xF0 + n / 262144) % 8 * 64 + n / 4096 % 64) * 64 + n / 64 % 64) * 64 + n % 64 =
      n := by omega
  rw [items.eq_def]
  simp only [ofNat_lt hb, hfollows, continues_ofNat hsecond, continues_ofNat hmid,
    continues_ofNat hlast, toNat_ofNat hb, hn]
  rw [if_neg (by simp; omega), if_neg (by simp; omega), if_pos (by simp; omega),
    if_neg (by decide), if_neg (by simp; omega), if_neg (by decide), if_neg (by simp),
    if_neg (by decide)]

/-- A character is read back from its bytes. -/
theorem items_encode_char (c : Char) :
    items pos (encode_char c ++ rest) = .ok c :: items (pos + (encode_char c).length) rest := by
  have hc := char_cases c
  have hof : Char.ofNat c.toNat = c := Char.ofNat_toNat c
  unfold encode_char
  dsimp only
  split
  · next h₁ => exact (items_one pos rest h₁).trans (by rw [hof]; rfl)
  · next h₁ =>
      split
      · next h₂ => exact (items_two pos rest h₁ h₂).trans (by rw [hof]; rfl)
      · next h₂ =>
          split
          · next h₃ => exact (items_three pos rest h₂ h₃ (by omega)).trans (by rw [hof]; rfl)
          · next h₃ => exact (items_four pos rest h₃ (by omega)).trans (by rw [hof]; rfl)

end Items

theorem items_encode (text : List Char) (pos : Nat) :
    items pos (encode text) = text.map .ok := by
  induction text generalizing pos with
  | nil => rfl
  | cons c text ih =>
      rw [encode, List.flatMap_cons, items_encode_char, List.map_cons]
      exact congrArg _ (ih _)

/-- **What is encoded is decoded.** -/
theorem decode_replace_encode (text : List Char) : decode_replace (encode text) = text := by
  rw [decode_replace, items_encode, List.map_map]
  exact List.map_id'' (fun _ => rfl) text

end Utf8
