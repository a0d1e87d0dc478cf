/-
# `Dass.JSONBCompat` — the JSON columns of `jobs`

`backend/app/db/types.py`.  `action_config` and `runtime_spec` hold JSON: `JSONB` on
PostgreSQL, `JSON` elsewhere.  The type says nothing of how two values compare, so a
flush goes by Python's `==`, and that identifies more than JSON does.  `True`, `1` and
`1.0` are equal, and so are two dicts that list the same members in another order.  A
column assigned a value that is `==` to the loaded one is not written.

`JSONB` keeps no order of members; what it reads back is `==` to what it was given,
and is not otherwise known here (`JSONBCompat.stored`).
-/
import Dass.JobRepository
import Mathlib.Tactic.Ring

namespace Dass

/-! ## Equality of Python values -/

/-- `dict.get`. -/
def JsonFields.get : JsonFields → String → Option Json
  | .nil, _ => none
  | .cons name value tail, key => if name = key then some value else tail.get key

def JsonFields.names : JsonFields → List String
  | .nil => []
  | .cons name _ tail => name :: tail.names

/-- A number is a `bool`, an `int` or a `float`. -/
def Json.number : Json → Option (Int × Nat)
  | .bool b => some (if b then 1 else 0, 0)
  | .num m e => some (m, e)
  | _ => none

/-- `m / 10 ^ e = m' / 10 ^ e'`. -/
def sameNumber (p q : Int × Nat) : Bool := p.1 * 10 ^ q.2 = q.1 * 10 ^ p.2

mutual
/-- Numbers by value, sequences element by element, dicts by their members. -/
def Json.like : Json → Json → Bool
  | .null, b => b = .null
  | .str s, b => b = .str s
  | .bool t, b => b.number.any (sameNumber (if t then 1 else 0, 0))
  | .num m e, b => b.number.any (sameNumber (m, e))
  | .arr a, .arr b => a.like b
  | .obj a, .obj b => a.within b && b.names.all (· ∈ a.names)
  | .arr _, _ => false
  | .obj _, _ => false

def JsonItems.like : JsonItems → JsonItems → Bool
  | .nil, .nil => true
  | .cons a as, .cons b bs => a.like b && as.like bs
  | .nil, .cons _ _ => false
  | .cons _ _, .nil => false

/-- Every member has an equal one under its name. -/
def JsonFields.within : JsonFields → JsonFields → Bool
  | .nil, _ => true
  | .cons name value tail, b =>
      (match b.get name with
        | some other => value.like other
        | none => false) && tail.within b
end

/-- `==`. -/
def Json.same (a b : Json) : Bool := a = b || a.like b

@[simp] theorem Json.same_refl (a : Json) : a.same a = true := by simp [Json.same]

theorem sameNumber_trans {p q r : Int × Nat} (hpq : sameNumber p q = true)
    (hqr : sameNumber q r = true) : sameNumber p r = true := by
  simp only [sameNumber, decide_eq_true_eq] at *
  have hpos : (10 : Int) ^ q.2 ≠ 0 := pow_ne_zero _ (by decide)
  refine mul_right_cancel₀ hpos ?_
  calc p.1 * 10 ^ r.2 * 10 ^ q.2 = p.1 * 10 ^ q.2 * 10 ^ r.2 := by ring
    _ = q.1 * 10 ^ r.2 * 10 ^ p.2 := by rw [hpq]; ring
    _ = r.1 * 10 ^ p.2 * 10 ^ q.2 := by rw [hqr]; ring

/-- A number is like the same number. -/
theorem Json.like_number {a b : Json} {p : Int × Nat} (ha : a.number = some p) :
    a.like b = true ↔ ∃ q, b.number = some q ∧ sameNumber p q = true := by
  cases a with
  | bool t | num m e =>
      cases ha
      cases hb : b.number <;> simp [Json.like, hb]
  | null | str | arr | obj => cases ha

theorem Json.number_trans {a b c : Json} {p : Int × Nat} (ha : a.number = some p)
    (hab : a.like b = true) (hbc : b.like c = true) : a.like c = true := by
  obtain ⟨q, hb, hpq⟩ := (like_number ha).mp hab
  obtain ⟨r, hc, hqr⟩ := (like_number hb).mp hbc
  exact (like_number ha).mpr ⟨r, hc, sameNumber_trans hpq hqr⟩

theorem JsonFields.mem_names : ∀ {f : JsonFields} {key : String},
    key ∈ f.names ↔ ∃ value, f.get key = some value
  | .nil, _ => by simp [names, get]
  | .cons name value tail, key => by
      by_cases h : name = key
      · simp [names, get, h]
      · simp [names, get, h, Ne.symm h, mem_names (f := tail)]

/-- What `within` says of one member. -/
theorem JsonFields.within_get : ∀ {f g : JsonFields} {key : String} {value : Json},
    f.within g = true → f.get key = some value →
      ∃ other, g.get key = some other ∧ value.like other = true
  | .nil, _, _, _, _, hget => by cases hget
  | .cons name first tail, g, key, value, hwithin, hget => by
      simp only [within, Bool.and_eq_true] at hwithin
      simp only [get] at hget
      split at hget
      · next hname =>
          cases hget
          subst hname
          cases hother : g.get name with
          | none => simp [hother] at hwithin
          | some other => exact ⟨other, rfl, by simpa [hother] using hwithin.1⟩
      · exact within_get hwithin.2 hget

mutual
theorem Json.like_trans : ∀ {a b c : Json}, a.like b = true → b.like c = true → a.like c = true
  | .null, b, c, hab, hbc => by
      simp only [Json.like, decide_eq_true_eq] at hab
      rw [hab] at hbc
      exact hbc
  | .str s, b, c, hab, hbc => by
      simp only [Json.like, decide_eq_true_eq] at hab
      rw [hab] at hbc
      exact hbc
  | .bool t, b, c, hab, hbc => Json.number_trans rfl hab hbc
  | .num m e, b, c, hab, hbc => Json.number_trans rfl hab hbc
  | .arr a, .arr b, .arr c, hab, hbc => JsonItems.like_trans (a := a) hab hbc
  | .obj a, .obj b, .obj c, hab, hbc => by
      simp only [Json.like, Bool.and_eq_true, List.all_eq_true, decide_eq_true_eq] at hab hbc ⊢
      exact ⟨JsonFields.within_trans hab.1 hbc.1, fun name hname => hab.2 name (hbc.2 name hname)⟩

theorem JsonItems.like_trans : ∀ {a b c : JsonItems},
    a.like b = true → b.like c = true → a.like c = true
  | .nil, .nil, .nil, _, _ => rfl
  | .cons a as, .cons b bs, .cons c cs, hab, hbc => by
      simp only [JsonItems.like, Bool.and_eq_true] at hab hbc ⊢
      exact ⟨Json.like_trans hab.1 hbc.1, JsonItems.like_trans hab.2 hbc.2⟩

theorem JsonFields.within_trans : ∀ {a b c : JsonFields},
    a.within b = true → b.within c = true → a.within c = true
  | .nil, _, _, _, _ => rfl
  | .cons name value tail, b, c, hab, hbc => by
      simp only [JsonFields.within, Bool.and_eq_true] at hab ⊢
      refine ⟨?_, JsonFields.within_trans hab.2 hbc⟩
      cases hother : b.get name with
      | none => simp [hother] at hab
      | some other =>
          obtain ⟨third, hthird, hlike⟩ := JsonFields.within_get hbc hother
          rw [hthird]
          exact Json.like_trans (by simpa [hother] using hab.1) hlike
end

theorem Json.same_trans {a b c : Json} (hab : a.same b = true) (hbc : b.same c = true) :
    a.same c = true := by
  simp only [same, Bool.or_eq_true, decide_eq_true_eq] at *
  rcases hab with rfl | hab
  · exact hbc
  · rcases hbc with rfl | hbc
    · exact .inr hab
    · exact .inr (like_trans hab hbc)

/-- What equals a dict is a dict. -/
theorem Json.same_obj {f : JsonFields} {b : Json} (h : (Json.obj f).same b = true) :
    ∃ g, b = .obj g := by
  simp only [same, Bool.or_eq_true, decide_eq_true_eq] at h
  rcases h with rfl | h
  · exact ⟨f, rfl⟩
  · cases b with
    | obj g => exact ⟨g, rfl⟩
    | null | bool | num | str | arr => simp [like] at h

/-- Equal dicts have equal members under every name. -/
theorem Json.same_get {f g : JsonFields} (h : (Json.obj f).same (.obj g) = true) (key : String) :
    (f.get key = none ∧ g.get key = none) ∨
    ∃ value other, f.get key = some value ∧ g.get key = some other ∧ value.same other = true := by
  simp only [same, Bool.or_eq_true, decide_eq_true_eq] at h
  rcases h with heq | hlike
  · cases heq
    cases hget : f.get key with
    | none => exact .inl ⟨rfl, rfl⟩
    | some value => exact .inr ⟨value, value, rfl, rfl, same_refl value⟩
  · simp only [like, Bool.and_eq_true, List.all_eq_true, decide_eq_true_eq] at hlike
    cases hget : f.get key with
    | none =>
        cases hother : g.get key with
        | none => exact .inl ⟨rfl, rfl⟩
        | some other =>
            obtain ⟨value, hvalue⟩ :=
              JsonFields.mem_names.mp (hlike.2 key (JsonFields.mem_names.mpr ⟨other, hother⟩))
            rw [hget] at hvalue
            cases hvalue
    | some value =>
        obtain ⟨other, hother, hsame⟩ := JsonFields.within_get hlike.1 hget
        exact .inr ⟨value, other, rfl, hother, by simp [same, hsame]⟩

/-- What equals a string is the string. -/
theorem Json.same_str {s : String} {b : Json} : (Json.str s).same b = true ↔ b = .str s := by
  simp [same, like, eq_comm]

/-! ## The column -/

/-- `JSONBCompat`, as a dialect implements it. -/
structure JSONBCompat where
  /-- what a value reads back as -/
  stored : Json → Json
  same_stored : ∀ value : Json, value.same (stored value) = true
  stored_stored : ∀ value : Json, stored (stored value) = stored value

/-- `JSON`: the text is kept. -/
def JSONBCompat.json : JSONBCompat := ⟨id, Json.same_refl, fun _ => rfl⟩

/-- What a flush makes of a column that was `loaded` and is assigned `value`. -/
def JSONBCompat.assigned (column : JSONBCompat) (loaded value : Json) : Json :=
  if value.same loaded then loaded else column.stored value

/-- The same where null is allowed. -/
def JSONBCompat.assigned? (column : JSONBCompat) (loaded value : Option Json) : Option Json :=
  match loaded, value with
  | some loaded, some value => some (column.assigned loaded value)
  | none, value => value.map column.stored
  | some _, none => none

/-- A new job, as its `INSERT` stores it. -/
def Job.inserted (column : JSONBCompat) (job : Job) : Job :=
  { job with
    action_config := column.stored job.action_config
    runtime_spec := job.runtime_spec.map column.stored }

/-- The object a flush compares with the `loaded` one, column by column. -/
def Job.assigned (job : Job) (column : JSONBCompat) (loaded : Job) : Job :=
  { job with
    action_config := column.assigned loaded.action_config job.action_config
    runtime_spec := column.assigned? loaded.runtime_spec job.runtime_spec }

end Dass
