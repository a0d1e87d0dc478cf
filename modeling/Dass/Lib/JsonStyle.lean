/-
# `Dass.Lib.JsonStyle` — writing a JSON tree

Writers of JSON differ in the blanks they put between the parts and in what they escape in a
string.  A `Style` says both, and what makes it one: blanks are blanks, and a string that was
escaped is scanned as itself.  Whatever the style, a tree whose numbers are numerals is read back
(`read_write`), so two trees that are written alike are the same (`write_injective`).

Two styles are here: what `json.dumps` of Python does by default, and what `JSON.stringify` of
ECMAScript does with an indent of two.
-/
import Dass.Lib.JsonTree

namespace JsonTree

open JsonText

/-! ## Styles -/

/-- The blanks and the escapes of a writer; blanks depend on how deep the container is. -/
structure Style where
  /-- behind the bracket that opens a container -/
  opening : Nat → List Char
  /-- behind a comma -/
  separator : Nat → List Char
  /-- before the bracket that closes it -/
  closing : Nat → List Char
  escape : Char → List Char
  blanks : ∀ d, (opening d ++ separator d ++ closing d).all blank = true
  scan : ∀ (s : String) (rest : List Char),
    scanstring (s.toList.flatMap escape ++ '"' :: rest) = .ok (s, rest)

/-- A string in quotes. -/
def Style.quote (style : Style) (s : String) : List Char :=
  '"' :: (s.toList.flatMap style.escape ++ ['"'])

mutual
/-- The text of a tree at a depth. -/
def Tree.write (style : Style) (d : Nat) : Tree → List Char
  | .null => ['n', 'u', 'l', 'l']
  | .bool true => ['t', 'r', 'u', 'e']
  | .bool false => ['f', 'a', 'l', 's', 'e']
  | .num numeral => numeral
  | .str s => style.quote s
  | .arr .nil => ['[', ']']
  | .arr (.cons v vs) => '[' :: (style.opening d ++ (v.write style (d + 1) ++ vs.write style d))
  | .obj .nil => ['\x7b', '\x7d']
  | .obj (.cons name v ms) =>
      '\x7b' :: (style.opening d ++
        (style.quote name ++ (':' :: ' ' :: (v.write style (d + 1) ++ ms.write style d))))

/-- The elements that follow, and the bracket. -/
def Trees.write (style : Style) (d : Nat) : Trees → List Char
  | .nil => style.closing d ++ [']']
  | .cons v vs => ',' :: (style.separator d ++ (v.write style (d + 1) ++ vs.write style d))

/-- The members that follow, and the brace. -/
def Members.write (style : Style) (d : Nat) : Members → List Char
  | .nil => style.closing d ++ ['\x7d']
  | .cons name v ms =>
      ',' :: (style.separator d ++
        (style.quote name ++ (':' :: ' ' :: (v.write style (d + 1) ++ ms.write style d))))
end

mutual
/-- All its numbers are numerals. -/
def Tree.numerals : Tree → Bool
  | .num numeral => isNumeral numeral
  | .arr vs => vs.numerals
  | .obj ms => ms.numerals
  | _ => true

def Trees.numerals : Trees → Bool
  | .nil => true
  | .cons v vs => v.numerals && vs.numerals

def Members.numerals : Members → Bool
  | .nil => true
  | .cons _ v ms => v.numerals && ms.numerals
end

mutual
/-- The fuel that reading it takes. -/
def Tree.size : Tree → Nat
  | .arr (.cons v vs) => 1 + v.size + vs.size
  | .obj (.cons _ v ms) => 1 + v.size + ms.size
  | _ => 1

def Trees.size : Trees → Nat
  | .nil => 1
  | .cons v vs => 1 + v.size + vs.size

def Members.size : Members → Nat
  | .nil => 1
  | .cons _ v ms => 1 + v.size + ms.size
end

/-! ## Sizes -/

section Sizes

variable (style : Style)

mutual
/-- The text is as long as reading it takes fuel. -/
theorem Tree.size_le_length : (v : Tree) → v.numerals = true → (d : Nat) →
    v.size ≤ (v.write style d).length
  | .null, _, _ => Nat.succ_le_succ (Nat.zero_le _)
  | .bool true, _, _ => Nat.succ_le_succ (Nat.zero_le _)
  | .bool false, _, _ => Nat.succ_le_succ (Nat.zero_le _)
  | .num numeral, h, _ => by
      rw [Tree.numerals] at h
      cases numeral with
      | nil => cases h
      | cons c s => exact Nat.succ_le_succ (Nat.zero_le _)
  | .str s, _, _ => Nat.succ_le_succ (Nat.zero_le _)
  | .arr .nil, _, _ => Nat.succ_le_succ (Nat.zero_le _)
  | .arr (.cons v vs), h, d => by
      rw [Tree.numerals, Trees.numerals, Bool.and_eq_true] at h
      have hv := v.size_le_length h.1 (d + 1)
      have hvs := vs.size_le_length h.2 d
      simp only [Tree.size, Tree.write, List.length_cons, List.length_append]
      omega
  | .obj .nil, _, _ => Nat.succ_le_succ (Nat.zero_le _)
  | .obj (.cons name v ms), h, d => by
      rw [Tree.numerals, Members.numerals, Bool.and_eq_true] at h
      have hv := v.size_le_length h.1 (d + 1)
      have hms := ms.size_le_length h.2 d
      simp only [Tree.size, Tree.write, List.length_cons, List.length_append]
      omega

theorem Trees.size_le_length : (vs : Trees) → vs.numerals = true → (d : Nat) →
    vs.size ≤ (vs.write style d).length
  | .nil, _, d => by
      rw [Trees.size, Trees.write, List.length_append]
      exact Nat.le_add_left 1 _
  | .cons v vs, h, d => by
      rw [Trees.numerals, Bool.and_eq_true] at h
      have hv := v.size_le_length h.1 (d + 1)
      have hvs := vs.size_le_length h.2 d
      simp only [Trees.size, Trees.write, List.length_cons, List.length_append]
      omega

theorem Members.size_le_length : (ms : Members) → ms.numerals = true → (d : Nat) →
    ms.size ≤ (ms.write style d).length
  | .nil, _, d => by
      rw [Members.size, Members.write, List.length_append]
      exact Nat.le_add_left 1 _
  | .cons name v ms, h, d => by
      rw [Members.numerals, Bool.and_eq_true] at h
      have hv := v.size_le_length h.1 (d + 1)
      have hms := ms.size_le_length h.2 d
      simp only [Members.size, Members.write, List.length_cons, List.length_append]
      omega
end

end Sizes

/-! ## What stands at the front -/

section Front

variable {style : Style} {s rest : List Char}

theorem skip_blanks {bs : List Char} (h : bs.all blank = true) (s : List Char) :
    skip (bs ++ s) = skip s := by
  rw [skip, List.dropWhile_append_of_pos (List.all_eq_true.mp h)]
  rfl

theorem Style.skip_opening (style : Style) (d : Nat) (s : List Char) :
    skip (style.opening d ++ s) = skip s := by
  have h := style.blanks d
  rw [List.all_append, List.all_append, Bool.and_eq_true, Bool.and_eq_true] at h
  exact skip_blanks h.1.1 s

theorem Style.skip_separator (style : Style) (d : Nat) (s : List Char) :
    skip (style.separator d ++ s) = skip s := by
  have h := style.blanks d
  rw [List.all_append, List.all_append, Bool.and_eq_true, Bool.and_eq_true] at h
  exact skip_blanks h.1.2 s

theorem Style.skip_closing (style : Style) (d : Nat) (s : List Char) :
    skip (style.closing d ++ s) = skip s := by
  have h := style.blanks d
  rw [List.all_append, Bool.and_eq_true] at h
  exact skip_blanks h.2 s

/-- The text does not go on with a numeral. -/
def Stops (rest : List Char) : Prop := ∀ c ∈ rest.head?, numeralChar c = false

theorem stops_cons {c : Char} (h : numeralChar c = false) (s : List Char) : Stops (c :: s) := by
  rintro _ ⟨⟩
  exact h

theorem stops_of_blank {bs : List Char} (h : bs.all blank = true) (hs : Stops s) :
    Stops (bs ++ s) := by
  cases bs with
  | nil => exact hs
  | cons c bs =>
      rw [List.all_cons, Bool.and_eq_true] at h
      refine stops_cons ?_ _
      have hc := h.1
      simp only [blank, Bool.or_eq_true, decide_eq_true_eq] at hc
      rcases hc with ((rfl | rfl) | rfl) | rfl <;> decide

theorem Style.stops_closing (style : Style) (d : Nat) (hs : Stops s) :
    Stops (style.closing d ++ s) := by
  have h := style.blanks d
  rw [List.all_append, Bool.and_eq_true] at h
  exact stops_of_blank h.2 hs

theorem Trees.stops (vs : Trees) (d : Nat) (rest : List Char) :
    Stops (vs.write style d ++ rest) := by
  cases vs with
  | nil =>
      rw [Trees.write, List.append_assoc]
      exact style.stops_closing d (stops_cons (by decide) _)
  | cons v vs =>
      rw [Trees.write, List.cons_append]
      exact stops_cons (by decide) _

theorem Members.stops (ms : Members) (d : Nat) (rest : List Char) :
    Stops (ms.write style d ++ rest) := by
  cases ms with
  | nil =>
      rw [Members.write, List.append_assoc]
      exact style.stops_closing d (stops_cons (by decide) _)
  | cons name v ms =>
      rw [Members.write, List.cons_append]
      exact stops_cons (by decide) _

/-- A character a value can begin with. -/
def begins (c : Char) : Bool :=
  c = 'n' || c = 't' || c = 'f' || c = '"' || c = '[' || c = '\x7b' || c = '-' || c.isDigit

theorem blank_of_begins {c : Char} (h : begins c = true) : blank c = false := by
  rw [Bool.eq_false_iff]
  intro hblank
  simp only [blank, Bool.or_eq_true, decide_eq_true_eq] at hblank
  rcases hblank with ((rfl | rfl) | rfl) | rfl <;> exact absurd h (by decide)

theorem isNumeral_begins (h : isNumeral s = true) :
    ∃ c t, s = c :: t ∧ (c = '-' ∨ c.isDigit = true) := by
  obtain ⟨⟨c, hc, hbegins⟩, -⟩ := isNumeral_chars h
  cases s with
  | nil => cases hc
  | cons d t =>
      obtain rfl := Option.some.inj hc
      exact ⟨d, t, rfl, hbegins⟩

variable (style) in
theorem Tree.write_begins (v : Tree) (h : v.numerals = true) (d : Nat) :
    ∃ c t, v.write style d = c :: t ∧ begins c = true := by
  cases v with
  | null => exact ⟨_, _, rfl, by decide⟩
  | bool b => cases b <;> exact ⟨_, _, rfl, by decide⟩
  | num numeral =>
      obtain ⟨c, t, hs, hc⟩ := isNumeral_begins h
      refine ⟨c, t, hs, ?_⟩
      rcases hc with rfl | hc
      · decide
      · rw [begins, hc, Bool.or_true]
  | str s => exact ⟨_, _, rfl, by decide⟩
  | arr vs => cases vs <;> exact ⟨_, _, rfl, by decide⟩
  | obj ms => cases ms <;> exact ⟨_, _, rfl, by decide⟩

variable (style) in
theorem Members.write_ends : (ms : Members) → (d : Nat) →
    ∃ front, ms.write style d = front ++ ['\x7d']
  | .nil, d => ⟨style.closing d, rfl⟩
  | .cons name v ms, d => by
      obtain ⟨front, hfront⟩ := ms.write_ends d
      rw [Members.write, hfront]
      refine ⟨',' :: (style.separator d ++ (style.quote name ++
        (':' :: ' ' :: (v.write style (d + 1) ++ front)))), ?_⟩
      simp only [List.cons_append, List.append_assoc]

variable (style) in
/-- An object stands in braces. -/
theorem Tree.write_braces (ms : Members) (d : Nat) :
    ∃ inside, (Tree.obj ms).write style d = '\x7b' :: (inside ++ ['\x7d']) := by
  cases ms with
  | nil => exact ⟨[], rfl⟩
  | cons name v ms =>
      obtain ⟨front, hfront⟩ := ms.write_ends style d
      rw [Tree.write, hfront]
      refine ⟨style.opening d ++ (style.quote name ++
        (':' :: ' ' :: (v.write style (d + 1) ++ front))), ?_⟩
      simp only [List.cons_append, List.append_assoc]

/-- A value that was written has no blanks in front. -/
theorem Tree.skip_write {v : Tree} (h : v.numerals = true) (d : Nat) (rest : List Char) :
    skip (v.write style d ++ rest) = v.write style d ++ rest := by
  obtain ⟨c, t, hwrite, hc⟩ := v.write_begins style h d
  rw [hwrite]
  exact skip_cons (blank_of_begins hc) _

theorem Style.skip_quote (style : Style) (name : String) (s : List Char) :
    skip (style.quote name ++ s) = style.quote name ++ s :=
  skip_cons (by decide) _

end Front

/-! ## Reading what was written -/

section Reading

variable {style : Style} {s rest : List Char}

theorem takeWhile_stops (h : Stops rest) :
    rest.takeWhile numeralChar = [] ∧ rest.dropWhile numeralChar = rest := by
  cases rest with
  | nil => exact ⟨rfl, rfl⟩
  | cons c rest =>
      have hc := h c rfl
      rw [List.takeWhile_cons, List.dropWhile_cons, hc]
      exact ⟨rfl, rfl⟩

theorem numeral_append (h : isNumeral s = true) (hrest : Stops rest) :
    numeral (s ++ rest) = some (s, rest) := by
  have hall := List.all_eq_true.mp (isNumeral_chars h).2
  obtain ⟨htake, hdrop⟩ := takeWhile_stops hrest
  rw [numeral, List.takeWhile_append_of_pos hall, List.dropWhile_append_of_pos hall, htake, hdrop,
    List.append_nil, if_pos h]

/-- No word begins as a numeral does. -/
theorem word_of_head {c w : Char} {ws : List Char} (h : w ≠ c) (v : Tree) (s : List Char) :
    word (w :: ws) v (c :: s) = none := by
  have hne : (w == c) = false := beq_eq_false_iff_ne.mpr h
  rw [word, List.isPrefixOf, hne, Bool.false_and]
  rfl

theorem ne_of_sign_or_digit {c d : Char} (h : c = '-' ∨ c.isDigit = true) (hd : d ≠ '-')
    (hdigit : d.isDigit = false) : d ≠ c := by
  rintro rfl
  rcases h with h | h
  · exact hd h
  · rw [hdigit] at h
    cases h

theorem value_numeral (n : Nat) (h : isNumeral s = true) (hrest : Stops rest) :
    value (n + 1) (s ++ rest) = some (.num s, rest) := by
  have hnumeral := numeral_append h hrest
  obtain ⟨c, t, rfl, hc⟩ := isNumeral_begins h
  have hne : ∀ d : Char, d ≠ '-' → d.isDigit = false → d ≠ c := fun _ hd hdigit =>
    ne_of_sign_or_digit hc hd hdigit
  rw [List.cons_append] at hnumeral ⊢
  rw [value, if_neg (hne '"' (by decide) (by decide)).symm,
    if_neg (hne '[' (by decide) (by decide)).symm,
    if_neg (hne '\x7b' (by decide) (by decide)).symm, atom,
    word_of_head (hne 'n' (by decide) (by decide)), word_of_head (hne 't' (by decide) (by decide)),
    word_of_head (hne 'f' (by decide) (by decide)), hnumeral]
  rfl

theorem string_quote (style : Style) (s : String) (rest : List Char) :
    string (s.toList.flatMap style.escape ++ '"' :: rest) = some (s, rest) := by
  rw [string, style.scan]

theorem quote_append (style : Style) (s : String) (rest : List Char) :
    style.quote s ++ rest = '"' :: (s.toList.flatMap style.escape ++ '"' :: rest) := by
  rw [Style.quote, List.cons_append, List.append_assoc]
  rfl

theorem member_quote {scan : List Char → Option (Tree × List Char)} (style : Style) (name : String)
    {v : Tree} {text : List Char} (htext : skip text = text) (hscan : scan text = some (v, rest)) :
    member scan (style.quote name ++ (':' :: ' ' :: text)) = some ((name, v), rest) := by
  have hcolon : skip (':' :: ' ' :: text) = ':' :: ' ' :: text := skip_cons (by decide) _
  have hspace : List.all [' '] blank = true := by decide
  have hblank : skip (' ' :: text) = text := (skip_blanks hspace text).trans htext
  rw [quote_append, member, if_pos rfl, string_quote, Option.bind_some, hcolon]
  show Option.map _ (scan (skip (' ' :: text))) = _
  rw [hblank, hscan]
  rfl

/-- An array that was written, when its elements are read back. -/
theorem value_array {n d : Nat} {v : Tree} {vs : Trees} (hv : v.numerals = true)
    (hvalue : value n (v.write style (d + 1) ++ (vs.write style d ++ rest)) =
      some (v, vs.write style d ++ rest))
    (hitems : items n (vs.write style d ++ rest) = some (vs, rest)) :
    value (n + 1) ((Tree.arr (.cons v vs)).write style d ++ rest) =
      some (.arr (.cons v vs), rest) := by
  have hopening := style.skip_opening d (v.write style (d + 1) ++ (vs.write style d ++ rest))
  rw [Tree.skip_write hv] at hopening
  obtain ⟨c, t, hwrite, hc⟩ := v.write_begins style hv (d + 1)
  have hbracket : (v.write style (d + 1) ++ (vs.write style d ++ rest)).head? ≠ some ']' := by
    rw [hwrite]
    intro heq
    obtain rfl : c = ']' := Option.some.inj heq
    exact absurd hc (by decide)
  rw [Tree.write, List.cons_append, List.append_assoc, List.append_assoc, value,
    if_neg (by decide), if_pos rfl, hopening, if_neg hbracket, hvalue, Option.bind_some, hitems]
  rfl

/-- An object that was written, when its members are read back. -/
theorem value_object {n d : Nat} {name : String} {v : Tree} {ms : Members} (hv : v.numerals = true)
    (hvalue : value n (v.write style (d + 1) ++ (ms.write style d ++ rest)) =
      some (v, ms.write style d ++ rest))
    (hmembers : members n (ms.write style d ++ rest) = some (ms, rest)) :
    value (n + 1) ((Tree.obj (.cons name v ms)).write style d ++ rest) =
      some (.obj (.cons name v ms), rest) := by
  have hmember := member_quote style name (Tree.skip_write hv _ _) hvalue
  have hopening := style.skip_opening d
    (style.quote name ++ (':' :: ' ' :: (v.write style (d + 1) ++ (ms.write style d ++ rest))))
  rw [style.skip_quote] at hopening
  have hbrace : (style.quote name ++
      (':' :: ' ' :: (v.write style (d + 1) ++ (ms.write style d ++ rest)))).head? ≠
        some '\x7d' := by
    intro heq
    cases heq
  simp only [Tree.write, List.cons_append, List.append_assoc]
  rw [value, if_neg (by decide), if_neg (by decide), if_pos rfl, hopening, if_neg hbrace, hmember,
    Option.bind_some, hmembers]
  rfl

mutual
theorem Tree.value_write : (v : Tree) → (n d : Nat) → (rest : List Char) → v.size ≤ n →
    v.numerals = true → Stops rest → value n (v.write style d ++ rest) = some (v, rest)
  | .null, n + 1, _, _, _, _, _ => rfl
  | .bool true, n + 1, _, _, _, _, _ => rfl
  | .bool false, n + 1, _, _, _, _, _ => rfl
  | .num numeral, n + 1, _, _, _, hnum, hrest => value_numeral n hnum hrest
  | .str s, n + 1, d, rest, _, _, _ => by
      show value (n + 1) (style.quote s ++ rest) = _
      rw [quote_append, value, if_pos rfl, string_quote]
      rfl
  | .arr .nil, n + 1, _, _, _, _, _ => rfl
  | .arr (.cons v vs), n + 1, d, rest, hsize, hnum, hrest => by
      rw [Tree.size] at hsize
      rw [Tree.numerals, Trees.numerals, Bool.and_eq_true] at hnum
      have hvalue := v.value_write n (d + 1) (vs.write style d ++ rest) (by omega) hnum.1
        (vs.stops d rest)
      exact value_array hnum.1 hvalue (vs.items_write n d rest (by omega) hnum.2)
  | .arr (.cons v vs), 0, _, _, hsize, _, _ => by
      rw [Tree.size] at hsize
      omega
  | .obj .nil, n + 1, _, _, _, _, _ => rfl
  | .obj (.cons name v ms), n + 1, d, rest, hsize, hnum, hrest => by
      rw [Tree.size] at hsize
      rw [Tree.numerals, Members.numerals, Bool.and_eq_true] at hnum
      have hvalue := v.value_write n (d + 1) (ms.write style d ++ rest) (by omega) hnum.1
        (ms.stops d rest)
      exact value_object hnum.1 hvalue (ms.members_write n d rest (by omega) hnum.2)
  | .obj (.cons _ v ms), 0, _, _, hsize, _, _ => by
      rw [Tree.size] at hsize
      omega

theorem Trees.items_write : (vs : Trees) → (n d : Nat) → (rest : List Char) → vs.size ≤ n →
    vs.numerals = true → items n (vs.write style d ++ rest) = some (vs, rest)
  | .nil, n + 1, d, rest, _, _ => by
      have hskip : skip (style.closing d ++ (']' :: rest)) = ']' :: rest :=
        (style.skip_closing d _).trans (skip_cons (by decide) _)
      rw [Trees.write, List.append_assoc, items]
      show (match skip (style.closing d ++ (']' :: rest)) with | [] => none | c :: s => _) = _
      rw [hskip]
      rfl
  | .cons v vs, n + 1, d, rest, hsize, hnum => by
      rw [Trees.size] at hsize
      rw [Trees.numerals, Bool.and_eq_true] at hnum
      have hvalue := v.value_write n (d + 1) (vs.write style d ++ rest) (by omega) hnum.1
        (vs.stops d rest)
      have hitems := vs.items_write n d rest (by omega) hnum.2
      have hseparator :=
        style.skip_separator d (v.write style (d + 1) ++ (vs.write style d ++ rest))
      rw [Tree.skip_write hnum.1] at hseparator
      simp only [Trees.write, List.cons_append, List.append_assoc]
      rw [items, skip_cons (by decide)]
      dsimp only
      rw [if_neg (by decide), if_pos rfl, hseparator, hvalue, Option.bind_some, hitems]
      rfl
  | .cons v vs, 0, _, _, hsize, _ => by
      rw [Trees.size] at hsize
      omega

theorem Members.members_write : (ms : Members) → (n d : Nat) → (rest : List Char) → ms.size ≤ n →
    ms.numerals = true → members n (ms.write style d ++ rest) = some (ms, rest)
  | .nil, n + 1, d, rest, _, _ => by
      have hskip : skip (style.closing d ++ ('\x7d' :: rest)) = '\x7d' :: rest :=
        (style.skip_closing d _).trans (skip_cons (by decide) _)
      rw [Members.write, List.append_assoc, members]
      show (match skip (style.closing d ++ ('\x7d' :: rest)) with | [] => none | c :: s => _) = _
      rw [hskip]
      rfl
  | .cons name v ms, n + 1, d, rest, hsize, hnum => by
      rw [Members.size] at hsize
      rw [Members.numerals, Bool.and_eq_true] at hnum
      have hvalue := v.value_write n (d + 1) (ms.write style d ++ rest) (by omega) hnum.1
        (ms.stops d rest)
      have hmember := member_quote style name (Tree.skip_write hnum.1 _ _) hvalue
      have hmembers := ms.members_write n d rest (by omega) hnum.2
      have hseparator := style.skip_separator d
        (style.quote name ++ (':' :: ' ' :: (v.write style (d + 1) ++ (ms.write style d ++ rest))))
      rw [style.skip_quote] at hseparator
      simp only [Members.write, List.cons_append, List.append_assoc]
      rw [members, skip_cons (by decide)]
      dsimp only
      rw [if_neg (by decide), if_pos rfl, hseparator, hmember, Option.bind_some, hmembers]
      rfl
  | .cons _ v ms, 0, _, _, hsize, _ => by
      rw [Members.size] at hsize
      omega
end

/-- **A tree that was written is read back**, whatever the style. -/
theorem read_write (style : Style) {v : Tree} (h : v.numerals = true) (d : Nat) :
    read (v.write style d) = some v := by
  have hsize := v.size_le_length style h d
  have hvalue : value ((v.write style d).length + 1) (v.write style d ++ []) = some (v, []) :=
    v.value_write _ d [] (Nat.le_succ_of_le hsize) h fun _ hc => by cases hc
  have hskip : skip (v.write style d ++ []) = v.write style d ++ [] := Tree.skip_write h d []
  rw [List.append_nil] at hvalue hskip
  rw [read, hskip, hvalue]
  rfl

/-- **Trees that are written alike are the same.** -/
theorem write_injective (style : Style) {v w : Tree} (hv : v.numerals = true)
    (hw : w.numerals = true) {d e : Nat} (h : v.write style d = w.write style e) : v = w := by
  have hread := read_write style hv d
  rw [h, read_write style hw e] at hread
  exact (Option.some.inj hread).symm

end Reading

/-! ## Two styles -/

/-- `json.dumps` of Python, as it is called without options. -/
def python : Style where
  opening _ := []
  separator _ := [' ']
  closing _ := []
  escape := JsonText.escape
  blanks _ := rfl
  scan := scanstring_dumps

/-- `QuoteJSONString` of ECMAScript: a character stands for itself, apart from control
characters, the quote and the backslash. -/
def ecma_escape (c : Char) : List Char :=
  if c = '"' then ['\\', '"']
  else if c = '\\' then ['\\', '\\']
  else if c = '\x08' then ['\\', 'b']
  else if c = '\x0c' then ['\\', 'f']
  else if c = '\n' then ['\\', 'n']
  else if c = '\r' then ['\\', 'r']
  else if c = '\t' then ['\\', 't']
  else if c.toNat < 32 then escape_unit c.toNat
  else [c]

theorem scanunits_ecma (c : Char) (rest : List Char) :
    scanunits (ecma_escape c ++ rest) = (scanunits rest).cons c.toNat := by
  rw [ecma_escape]
  split
  · next h => subst h; exact scanunits_escaped (by decide) rfl rest
  · next hquote =>
    split
    · next h => subst h; exact scanunits_escaped (by decide) rfl rest
    · next hslash =>
      split
      · next h => subst h; exact scanunits_escaped (by decide) rfl rest
      split
      · next h => subst h; exact scanunits_escaped (by decide) rfl rest
      split
      · next h => subst h; exact scanunits_escaped (by decide) rfl rest
      split
      · next h => subst h; exact scanunits_escaped (by decide) rfl rest
      split
      · next h => subst h; exact scanunits_escaped (by decide) rfl rest
      split
      · next hcontrol => exact scanunits_escape_unit (by omega) rest
      · next hplain => exact scanunits_plain hquote hslash (Nat.not_lt.mp hplain) rest

/-- Every character is one unit here, whatever plane it is from. -/
theorem scanunits_ecma_string (cs rest : List Char) :
    scanunits (cs.flatMap ecma_escape ++ '"' :: rest) = .ok (cs.map Char.toNat, rest) := by
  induction cs with
  | nil => exact scanunits_quote rest
  | cons c cs ih =>
      rw [List.flatMap_cons, List.append_assoc, scanunits_ecma, ih]
      rfl

theorem join_toNat (cs : List Char) : join (cs.map Char.toNat) = cs := by
  induction cs with
  | nil => rfl
  | cons c cs ih => rw [List.map_cons, join_cons (high_toNat c), char_toNat, ih]

/-- The indent of a depth. -/
def indent (d : Nat) : List Char := '\n' :: List.replicate (2 * d) ' '

theorem blank_indent (d : Nat) : (indent d).all blank = true := by
  rw [indent, List.all_cons, List.all_replicate]
  split <;> rfl

/-- `JSON.stringify` with an indent of two. -/
def ecma : Style where
  opening d := indent (d + 1)
  separator d := indent (d + 1)
  closing d := indent d
  escape := ecma_escape
  blanks d := by
    rw [List.all_append, List.all_append, blank_indent, blank_indent]
    rfl
  scan s rest := by
    rw [scanstring, scanunits_ecma_string, Read.next, join_toNat, String.ofList_toList]

end JsonTree
