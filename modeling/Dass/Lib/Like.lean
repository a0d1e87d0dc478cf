/-
# `Dass.Lib.Like` — the patterns of SQL

In a pattern `%` stands for any text and `_` for any one character, and a backslash takes the next
character as itself.  `parts` takes a pattern apart, and `Part.Matches` says which texts match.

A program that wants the texts that contain another one writes a `%` on both sides of it.  That is
right for a text with none of the three characters (`like_wrap`).  With one of them the pattern
matches a text that does not contain it: the one in which every part of the pattern stands for as
little as it can (`shortest`) is no longer than the text sought, and another one.

Of all texts that find a given one, one finds the fewest (`like_wrap_narrowest`,
`like_wrap_of_within`).  It is the given text with its special characters escaped, unless that ends
with `%`: then a backslash does for it, which takes the `%` of the pattern as itself.
-/
import Mathlib.Data.List.Infix

namespace Like

/-- A part of a pattern. -/
inductive Part where
  | any
  | one
  | lit (c : Char)
deriving DecidableEq

/-- The parts of a pattern; there are none if it ends with a backslash that escapes nothing. -/
def parts : List Char → Option (List Part)
  | [] => some []
  | '%' :: p => (parts p).map (Part.any :: ·)
  | '_' :: p => (parts p).map (Part.one :: ·)
  | ['\\'] => none
  | '\\' :: c :: p => (parts p).map (Part.lit c :: ·)
  | c :: p => (parts p).map (Part.lit c :: ·)

/-- A text matches the parts. -/
def Part.Matches : List Part → List Char → Bool
  | [], text => text.isEmpty
  | .any :: ps, text => text.tails.any (Part.Matches ps)
  | .one :: ps, text =>
      match text with
      | [] => false
      | _ :: text => Part.Matches ps text
  | .lit c :: ps, text =>
      match text with
      | [] => false
      | d :: text => c == d && Part.Matches ps text

/-- `text LIKE pattern`. -/
def like (pattern text : List Char) : Bool := (parts pattern).any fun ps => Part.Matches ps text

/-- The characters that do not stand for themselves. -/
def special (c : Char) : Bool := c = '%' || c = '_' || c = '\\'

/-- The pattern for the texts that contain another one. -/
def wrap (sought : List Char) : List Char := '%' :: (sought ++ ['%'])

/-! ## A text without special characters -/

theorem parts_cons_of_not_special {c : Char} (h : special c = false) (p : List Char) :
    parts (c :: p) = (parts p).map (Part.lit c :: ·) := by
  simp only [special, Bool.or_eq_false_iff, decide_eq_false_iff_not] at h
  obtain ⟨⟨hpercent, hunderscore⟩, hbackslash⟩ := h
  rw [parts]
  · exact fun heq => absurd heq hpercent
  · exact fun heq => absurd heq hunderscore
  · exact fun heq => absurd heq hbackslash
  · exact fun _ _ heq => absurd heq hbackslash

theorem parts_plain {sought : List Char} (h : ∀ c ∈ sought, special c = false) :
    parts (sought ++ ['%']) = some (sought.map Part.lit ++ [Part.any]) := by
  induction sought with
  | nil => rfl
  | cons c sought ih =>
      obtain ⟨hc, hrest⟩ := List.forall_mem_cons.mp h
      rw [List.cons_append, parts_cons_of_not_special hc, ih hrest]
      rfl

theorem matches_any {ps : List Part} {text : List Char} :
    Part.Matches (.any :: ps) text = true ↔
      ∃ rest, rest <:+ text ∧ Part.Matches ps rest = true := by
  rw [Part.Matches, List.any_eq_true]
  simp only [List.mem_tails]

theorem matches_any_self (text : List Char) : Part.Matches [.any] text = true :=
  matches_any.mpr ⟨[], List.nil_suffix, rfl⟩

theorem matches_lits {sought text : List Char} :
    Part.Matches (sought.map Part.lit ++ [.any]) text = true ↔ sought <+: text := by
  induction sought generalizing text with
  | nil => exact iff_of_true (matches_any_self text) List.nil_prefix
  | cons c sought ih =>
      cases text with
      | nil => exact iff_of_false Bool.false_ne_true (by simp)
      | cons d text =>
          rw [List.map_cons, List.cons_append, Part.Matches, Bool.and_eq_true, beq_iff_eq, ih,
            List.cons_prefix_cons]

/-- A text without special characters is contained where its pattern matches. -/
theorem like_wrap {sought text : List Char} (h : ∀ c ∈ sought, special c = false) :
    like (wrap sought) text = true ↔ sought <:+: text := by
  have hparts : parts (wrap sought) = some (.any :: (sought.map Part.lit ++ [.any])) := by
    rw [wrap, parts, parts_plain h]
    rfl
  rw [like, hparts, Option.any_some, matches_any]
  simp only [matches_lits]
  constructor
  · rintro ⟨rest, hsuffix, hbegins⟩
    exact hbegins.isInfix.trans hsuffix.isInfix
  · rintro ⟨before, after, rfl⟩
    exact ⟨sought ++ after, by rw [List.append_assoc]; exact List.suffix_append _ _,
      List.prefix_append _ _⟩

/-! ## A text with special characters -/

/-- What the pattern of a text matches with as little as it can, a `%` for any one character. -/
def shortest : List Char → List Char
  | [] => []
  | '%' :: p => shortest p
  | '_' :: p => '%' :: shortest p
  | ['\\'] => ['%']
  | '\\' :: c :: p => c :: shortest p
  | c :: p => c :: shortest p

theorem shortest_cons_of_not_special {c : Char} (h : special c = false) (p : List Char) :
    shortest (c :: p) = c :: shortest p := by
  simp only [special, Bool.or_eq_false_iff, decide_eq_false_iff_not] at h
  obtain ⟨⟨hpercent, hunderscore⟩, hbackslash⟩ := h
  rw [shortest]
  · exact fun heq => absurd heq hpercent
  · exact fun heq => absurd heq hunderscore
  · exact fun heq => absurd heq hbackslash
  · exact fun _ _ heq => absurd heq hbackslash

/-- The cases of a text, by what its first character stands for. -/
theorem special_cases {P : List Char → Prop} (nil : P []) (any : ∀ p, P p → P ('%' :: p))
    (one : ∀ p, P p → P ('_' :: p)) (last : P ['\\']) (escaped : ∀ c p, P p → P ('\\' :: c :: p))
    (lit : ∀ c p, special c = false → P p → P (c :: p)) : ∀ p, P p := by
  intro p
  induction p using shortest.induct with
  | case1 => exact nil
  | case2 p ih => exact any p ih
  | case3 p ih => exact one p ih
  | case4 => exact last
  | case5 c p ih => exact escaped c p ih
  | case6 c p hpercent hunderscore hlast hescaped ih =>
      have hbackslash : c ≠ '\\' := by
        intro heq
        cases p with
        | nil => exact hlast heq rfl
        | cons d p => exact hescaped d p heq rfl
      refine lit c p ?_ ih
      simp only [special, Bool.or_eq_false_iff, decide_eq_false_iff_not]
      exact ⟨⟨hpercent, hunderscore⟩, hbackslash⟩

/-- The pattern of a text matches its shortest match. -/
theorem matches_shortest (sought : List Char) :
    ∃ ps, parts (sought ++ ['%']) = some ps ∧ Part.Matches ps (shortest sought) = true := by
  induction sought using special_cases with
  | nil => exact ⟨[.any], rfl, rfl⟩
  | any p ih =>
      obtain ⟨ps, hparts, hmatches⟩ := ih
      refine ⟨.any :: ps, by rw [List.cons_append, parts, hparts]; rfl, ?_⟩
      exact matches_any.mpr ⟨_, List.suffix_rfl, hmatches⟩
  | one p ih =>
      obtain ⟨ps, hparts, hmatches⟩ := ih
      exact ⟨.one :: ps, by rw [List.cons_append, parts, hparts]; rfl, hmatches⟩
  | last => exact ⟨[.lit '%'], rfl, rfl⟩
  | escaped c p ih =>
      obtain ⟨ps, hparts, hmatches⟩ := ih
      refine ⟨.lit c :: ps, by rw [List.cons_append, List.cons_append, parts, hparts]; rfl, ?_⟩
      rw [shortest, Part.Matches, hmatches, beq_self_eq_true, Bool.true_and]
  | lit c p hc ih =>
      obtain ⟨ps, hparts, hmatches⟩ := ih
      refine ⟨.lit c :: ps, ?_, ?_⟩
      · rw [List.cons_append, parts_cons_of_not_special hc, hparts]
        rfl
      · rw [shortest_cons_of_not_special hc, Part.Matches, hmatches, beq_self_eq_true,
          Bool.true_and]

theorem like_wrap_shortest (sought : List Char) :
    like (wrap sought) (shortest sought) = true := by
  obtain ⟨ps, hparts, hmatches⟩ := matches_shortest sought
  have hwrap : parts (wrap sought) = some (.any :: ps) := by
    rw [wrap, parts, hparts]
    rfl
  rw [like, hwrap, Option.any_some]
  exact matches_any.mpr ⟨_, List.suffix_rfl, hmatches⟩

theorem length_shortest_le (sought : List Char) : (shortest sought).length ≤ sought.length := by
  induction sought using special_cases with
  | nil => exact Nat.le_refl _
  | any p ih => exact Nat.le_succ_of_le ih
  | one p ih => exact Nat.succ_le_succ ih
  | last => exact Nat.le_refl _
  | escaped c p ih => exact Nat.le_succ_of_le (Nat.succ_le_succ ih)
  | lit c p hc ih =>
      rw [shortest_cons_of_not_special hc]
      exact Nat.succ_le_succ ih

theorem shortest_ne {sought : List Char} (h : ∃ c ∈ sought, special c = true) :
    shortest sought ≠ sought := by
  induction sought using special_cases with
  | nil =>
      obtain ⟨c, hc, -⟩ := h
      exact absurd hc List.not_mem_nil
  | any p ih =>
      intro heq
      have hlen := congrArg List.length heq
      have hle := length_shortest_le p
      rw [shortest, List.length_cons] at hlen
      omega
  | one p ih =>
      intro heq
      exact absurd (List.cons.inj heq).1 (by decide)
  | last => decide
  | escaped c p ih =>
      intro heq
      have hlen := congrArg List.length heq
      have hle := length_shortest_le p
      rw [shortest, List.length_cons, List.length_cons, List.length_cons] at hlen
      omega
  | lit c p hc ih =>
      obtain ⟨d, hd, hspecial⟩ := h
      rcases List.mem_cons.mp hd with rfl | hd
      · exact absurd hspecial (by rw [hc]; exact Bool.false_ne_true)
      · rw [shortest_cons_of_not_special hc]
        exact fun heq => ih ⟨d, hd, hspecial⟩ (List.cons.inj heq).2

/-- It does not contain the text. -/
theorem not_infix_shortest {sought : List Char} (h : ∃ c ∈ sought, special c = true) :
    ¬ sought <:+: shortest sought :=
  fun hcontains => shortest_ne h (hcontains.eq_of_length_le (length_shortest_le sought)).symm

theorem mem_shortest {c : Char} {sought : List Char} (h : c ∈ shortest sought) :
    c ∈ sought ∨ c = '%' := by
  induction sought using special_cases with
  | nil => exact absurd h List.not_mem_nil
  | any p ih => exact (ih h).imp_left (List.mem_cons_of_mem _)
  | one p ih =>
      rcases List.mem_cons.mp h with h | h
      · exact .inr h
      · exact (ih h).imp_left (List.mem_cons_of_mem _)
  | last => exact .inr (List.mem_singleton.mp h)
  | escaped d p ih =>
      rcases List.mem_cons.mp h with rfl | h
      · exact .inl (List.mem_cons_of_mem _ List.mem_cons_self)
      · exact (ih h).imp_left fun h => List.mem_cons_of_mem _ (List.mem_cons_of_mem _ h)
  | lit d p hd ih =>
      rw [shortest_cons_of_not_special hd] at h
      rcases List.mem_cons.mp h with rfl | h
      · exact .inl List.mem_cons_self
      · exact (ih h).imp_left (List.mem_cons_of_mem _)

/-! ## The text that finds the fewest -/

/-- A text that stands for itself. -/
def escape : List Char → List Char
  | [] => []
  | c :: p => if special c = true then '\\' :: c :: escape p else c :: escape p

/-- The text ends with `%`. -/
def ends_any (sought : List Char) : Bool := sought.getLast? = some '%'

/-- It is a part of the other one, or the end of it if it ends with `%`. -/
def within (sought text : List Char) : Bool :=
  if ends_any sought = true then sought.isSuffixOf text else decide (sought <:+: text)

/-- What is sought to find a text, and as few others as can be. -/
def narrowest (sought : List Char) : List Char :=
  if ends_any sought = true then escape sought.dropLast ++ ['\\'] else escape sought

section Narrowest

variable {sought text more : List Char} {ps : List Part}

theorem parts_escape (sought rest : List Char) :
    parts (escape sought ++ rest) = (parts rest).map (sought.map Part.lit ++ ·) := by
  induction sought with
  | nil => simp [escape]
  | cons c sought ih =>
      have hstep : parts (escape (c :: sought) ++ rest) =
          (parts (escape sought ++ rest)).map (Part.lit c :: ·) := by
        by_cases hc : special c = true
        · rw [escape, if_pos hc]
          rfl
        · rw [escape, if_neg hc, List.cons_append,
            parts_cons_of_not_special (Bool.of_not_eq_true hc)]
      rw [hstep, ih, Option.map_map]
      rfl

theorem mem_escape {c : Char} (h : c ∈ escape sought) : c ∈ sought ∨ c = '\\' := by
  induction sought with
  | nil => exact absurd h List.not_mem_nil
  | cons d sought ih =>
      by_cases hd : special d = true
      · rw [escape, if_pos hd] at h
        rcases List.mem_cons.mp h with rfl | h
        · exact .inr rfl
        · rcases List.mem_cons.mp h with rfl | h
          · exact .inl List.mem_cons_self
          · exact (ih h).imp_left (List.mem_cons_of_mem _)
      · rw [escape, if_neg hd] at h
        rcases List.mem_cons.mp h with rfl | h
        · exact .inl List.mem_cons_self
        · exact (ih h).imp_left (List.mem_cons_of_mem _)

theorem mem_narrowest {c : Char} (h : c ∈ narrowest sought) : c ∈ sought ∨ c = '\\' := by
  unfold narrowest at h
  split at h
  · rcases List.mem_append.mp h with h | h
    · exact (mem_escape h).imp_left List.mem_of_mem_dropLast
    · exact .inr (List.mem_singleton.mp h)
  · exact mem_escape h

theorem matches_lits_only : Part.Matches (sought.map Part.lit) text = true ↔ sought = text := by
  induction sought generalizing text with
  | nil => cases text <;> simp [Part.Matches]
  | cons c sought ih =>
      cases text with
      | nil => simp [Part.Matches]
      | cons d text => rw [List.map_cons, Part.Matches, Bool.and_eq_true, beq_iff_eq, ih,
          List.cons.injEq]

theorem ends_any_iff : ends_any sought = true ↔ ∃ init, sought = init ++ ['%'] := by
  rw [ends_any, decide_eq_true_eq, List.getLast?_eq_some_iff]

/-- The narrowest text finds what a text is within. -/
theorem like_wrap_narrowest : like (wrap (narrowest sought)) text = within sought text := by
  refine Bool.eq_iff_iff.mpr ?_
  by_cases hends : ends_any sought = true
  · obtain ⟨init, rfl⟩ := ends_any_iff.mp hends
    have hparts : parts (wrap (narrowest (init ++ ['%']))) =
        some (.any :: (init ++ ['%']).map Part.lit) := by
      rw [narrowest, if_pos hends, List.dropLast_concat, wrap, parts, List.append_assoc,
        parts_escape, List.map_append]
      rfl
    rw [like, hparts, Option.any_some, matches_any, within, if_pos hends,
      List.isSuffixOf_iff_suffix]
    constructor
    · rintro ⟨rest, hsuffix, hmatches⟩
      rwa [matches_lits_only.mp hmatches]
    · exact fun hsuffix => ⟨_, hsuffix, matches_lits_only.mpr rfl⟩
  · have hparts : parts (wrap (narrowest sought)) =
        some (.any :: (sought.map Part.lit ++ [.any])) := by
      rw [narrowest, if_neg hends, wrap, parts, parts_escape]
      rfl
    rw [like, hparts, Option.any_some, matches_any, within, if_neg hends, decide_eq_true_eq]
    constructor
    · rintro ⟨rest, hsuffix, hmatches⟩
      exact (matches_lits.mp hmatches).isInfix.trans hsuffix.isInfix
    · rintro ⟨before, after, rfl⟩
      refine ⟨sought ++ after, ?_, matches_lits.mpr (List.prefix_append _ _)⟩
      rw [List.append_assoc]
      exact List.suffix_append _ _

/-- The `%` that is written behind a text stands for any other, or is escaped by its end. -/
theorem parts_wrapped (sought : List Char) (h : parts (sought ++ ['%']) = some ps) :
    ∃ init, ps = init ++ [.any] ∨ ps = init ++ [.lit '%'] := by
  -- a part before
  have hcons : ∀ (part : Part) (p : List Char), (∀ ps, parts (p ++ ['%']) = some ps →
      ∃ init, ps = init ++ [.any] ∨ ps = init ++ [.lit '%']) →
      ∀ ps, (parts (p ++ ['%'])).map (part :: ·) = some ps →
        ∃ init, ps = init ++ [.any] ∨ ps = init ++ [.lit '%'] := by
    intro part p ih ps hps
    obtain ⟨rest, hrest, rfl⟩ := Option.map_eq_some_iff.mp hps
    obtain ⟨init, rfl | rfl⟩ := ih rest hrest
    · exact ⟨part :: init, .inl rfl⟩
    · exact ⟨part :: init, .inr rfl⟩
  induction sought using special_cases generalizing ps with
  | nil =>
      cases h
      exact ⟨[], .inl rfl⟩
  | any p ih => exact hcons .any p (fun _ => ih) ps h
  | one p ih => exact hcons .one p (fun _ => ih) ps h
  | last =>
      cases h
      exact ⟨[], .inr rfl⟩
  | escaped c p ih => exact hcons (.lit c) p (fun _ => ih) ps h
  | lit c p hc ih =>
      rw [List.cons_append, parts_cons_of_not_special hc] at h
      exact hcons (.lit c) p (fun _ => ih) ps h

/-- What a `%` at the end stands for may be longer. -/
theorem matches_append (h : Part.Matches (ps ++ [.any]) text = true) (more : List Char) :
    Part.Matches (ps ++ [.any]) (text ++ more) = true := by
  induction ps generalizing text with
  | nil => exact matches_any_self _
  | cons part ps ih =>
      cases part with
      | any =>
          obtain ⟨rest, ⟨before, rfl⟩, hrest⟩ := matches_any.mp h
          refine matches_any.mpr ⟨rest ++ more, ?_, ih hrest⟩
          rw [List.append_assoc]
          exact List.suffix_append _ _
      | one =>
          cases text with
          | nil => cases h
          | cons d text => exact ih h
      | lit c =>
          cases text with
          | nil => cases h
          | cons d text =>
              rw [List.cons_append, Part.Matches, Bool.and_eq_true] at h
              rw [List.cons_append, List.cons_append, Part.Matches, Bool.and_eq_true]
              exact ⟨h.1, ih h.2⟩

/-- A text that ends a longer one ends it with the same. -/
theorem ends_any_of_suffix (h : sought <:+ text) (hends : ends_any sought = true) :
    ends_any text = true := by
  obtain ⟨init, rfl⟩ := ends_any_iff.mp hends
  obtain ⟨before, rfl⟩ := h
  exact ends_any_iff.mpr ⟨before ++ init, (List.append_assoc _ _ _).symm⟩

theorem ends_any_of_matches (h : Part.Matches (ps ++ [.lit '%']) text = true) :
    ends_any text = true := by
  induction ps generalizing text with
  | nil =>
      cases text with
      | nil => cases h
      | cons d text =>
          rw [List.nil_append, Part.Matches, Bool.and_eq_true, beq_iff_eq] at h
          obtain ⟨rfl, hrest⟩ := h
          have hnil : text = [] := List.isEmpty_iff.mp hrest
          rw [hnil]
          rfl
  | cons part ps ih =>
      have htail : ∀ d (rest : List Char), Part.Matches (ps ++ [.lit '%']) rest = true →
          ends_any (d :: rest) = true :=
        fun d rest hrest => ends_any_of_suffix (List.suffix_cons d rest) (ih hrest)
      cases part with
      | any =>
          obtain ⟨rest, hsuffix, hrest⟩ := matches_any.mp h
          exact ends_any_of_suffix hsuffix (ih hrest)
      | one =>
          cases text with
          | nil => cases h
          | cons d text => exact htail d text h
      | lit c =>
          cases text with
          | nil => cases h
          | cons d text =>
              rw [List.cons_append, Part.Matches, Bool.and_eq_true] at h
              exact htail d text h.2

theorem isInfix_of_within (h : within sought text = true) : sought <:+: text := by
  unfold within at h
  split at h
  · exact (List.isSuffixOf_iff_suffix.mp h).isInfix
  · exact of_decide_eq_true h

theorem within_self (sought : List Char) : within sought sought = true := by
  unfold within
  split
  · exact List.isSuffixOf_iff_suffix.mpr List.suffix_rfl
  · exact decide_eq_true List.infix_rfl

/-- What finds a text finds all that it is within. -/
theorem like_wrap_of_within {q : List Char} (h : like (wrap q) sought = true)
    (hwithin : within sought text = true) : like (wrap q) text = true := by
  obtain ⟨ps, hparts, hmatches⟩ : ∃ ps, parts (q ++ ['%']) = some ps ∧
      Part.Matches (.any :: ps) sought = true := by
    rw [like, wrap, parts, Option.any_map, Option.any_eq_true] at h
    exact h
  have hlike : Part.Matches (.any :: ps) text = true → like (wrap q) text = true := by
    intro hall
    rw [like, wrap, parts, hparts]
    exact hall
  obtain ⟨rest, hsuffix, hrest⟩ := matches_any.mp hmatches
  obtain ⟨init, rfl | rfl⟩ := parts_wrapped q hparts
  · obtain ⟨before, after, rfl⟩ := isInfix_of_within hwithin
    obtain ⟨first, rfl⟩ := hsuffix
    refine hlike (matches_any.mpr ⟨rest ++ after, ?_, matches_append hrest after⟩)
    exact ⟨before ++ first, by simp⟩
  · -- the text ends with `%`, and so does what it is found within
    have hends : ends_any sought = true := ends_any_of_suffix hsuffix (ends_any_of_matches hrest)
    rw [within, if_pos hends] at hwithin
    exact hlike (matches_any.mpr
      ⟨rest, hsuffix.trans (List.isSuffixOf_iff_suffix.mp hwithin), hrest⟩)

end Narrowest

end Like
