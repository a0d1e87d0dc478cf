/-
# `Dass.ListRequest` — the URL of a listing, and what the server reads of it

`api.listJobs` of `frontend/src/api/client.ts` puts the filters of a listing into a query string,
with `withQuery` leaving out those that are `undefined` or empty; `list_jobs` of
`backend/app/api/v1/jobs.py` declares what it takes out of it again, with its defaults and bounds.
Browser and server agree on every listing (`read_listJobs`): what the one asks for, the other
reads, whatever characters the text sought has, and it is refused exactly if a page or a page size
is out of bounds or the text is longer than 255 characters.

pydantic's reading of a number and of a truth value are parameters, with what it reads of their
usual texts.  A number is written in digits, as JavaScript writes it below `10 ^ 21`, and PostgreSQL
takes it for an offset while it is one of its integers.
-/
import Dass.JobListing
import Dass.Lib.UrlEncoded
import Mathlib.Data.List.TakeWhile

namespace Dass

open UrlEncoded

/-! ## The browser -/

def ActionType.text : ActionType → String
  | .http => "http"
  | .shell => "shell"

def ConcurrencyPolicy.text : ConcurrencyPolicy → String
  | .allow => "allow"
  | .forbid => "forbid"
  | .replace => "replace"

structure JobListParams where
  page : Option Nat
  page_size : Option Nat
  enabled : Option Bool
  action_type : Option ActionType
  concurrency_policy : Option ConcurrencyPolicy
  q : Option String

/-- A parameter that is neither `undefined` nor empty. -/
def present (p : String × Option String) : Option (List Char × List Char) :=
  match p.2 with
  | none | some "" => none
  | some value => some (p.1.toList, value.toList)

/-- `withQuery`; the values are what `String` makes of them. -/
def withQuery (path : String) (params : List (String × Option String)) : List Char :=
  let query := serialize (params.filterMap present)
  if query = [] then path.toList else path.toList ++ '?' :: query

/-- The parameters `listJobs` names. -/
def JobListParams.entries (params : JobListParams) : List (String × Option String) :=
  [("page", params.page.map toString),
    ("page_size", params.page_size.map toString),
    ("enabled", params.enabled.map toString),
    ("action_type", params.action_type.map ActionType.text),
    ("concurrency_policy", params.concurrency_policy.map ConcurrencyPolicy.text),
    ("q", params.q)]

/-- `api.listJobs`: the URL it fetches. -/
def listJobs (params : JobListParams) : List Char := withQuery "/api/v1/jobs" params.entries

/-! ## The server -/

/-- What pydantic reads of the texts of numbers and truth values. -/
structure Pydantic where
  int : String → Option Int
  bool : String → Option Bool
  int_toString : ∀ n : Nat, int (toString n) = some (n : Int)
  bool_toString : ∀ b : Bool, bool (toString b) = some b

/-- The part of a URL behind its `?`. -/
def query_string (url : List Char) : List Char := (url.dropWhile (· ≠ '?')).drop 1

/-- `request.query_params.get(name)`; the last value counts. -/
def query_param (query : List (List Char × List Char)) (name : String) : Option String :=
  (query.reverse.lookup name.toList).map String.ofList

/-- A parameter with a default; `none` is a value that is refused. -/
def Fastapi.Query {α : Type} (default : α) (read : String → Option α) : Option String → Option α
  | none => some default
  | some value => read value

/-- A number with bounds. -/
def Pydantic.bounded (py : Pydantic) (ge : Nat) (le : Option Nat) (value : String) : Option Nat :=
  (py.int value).bind fun i =>
    if (ge : Int) ≤ i ∧ le.all (fun most : Nat => decide (i ≤ (most : Int))) = true then
      some i.toNat
    else none

def read_action_type (value : String) : Option ActionType :=
  if value = "http" then some .http else if value = "shell" then some .shell else none

def read_concurrency_policy (value : String) : Option ConcurrencyPolicy :=
  if value = "allow" then some .allow
  else if value = "forbid" then some .forbid
  else if value = "replace" then some .replace
  else none

/-- A text with bounds on its length. -/
def read_q (value : String) : Option String :=
  if 1 ≤ value.length ∧ value.length ≤ 255 then some value else none

/-- What `list_jobs` declares; `none` is the answer 422. -/
def read_list_query (py : Pydantic) (query : List (List Char × List Char)) :
    Option (Nat × Nat × JobFilters) := do
  let page ← Fastapi.Query 1 (py.bounded 1 none) (query_param query "page")
  let page_size ← Fastapi.Query 20 (py.bounded 1 (some 100)) (query_param query "page_size")
  let enabled ← Fastapi.Query none (fun v => (py.bool v).map some) (query_param query "enabled")
  let action_type ← Fastapi.Query none (fun v => (read_action_type v).map some)
    (query_param query "action_type")
  let concurrency_policy ← Fastapi.Query none (fun v => (read_concurrency_policy v).map some)
    (query_param query "concurrency_policy")
  let q ← Fastapi.Query none (fun v => (read_q v).map some) (query_param query "q")
  return (page, page_size, ⟨enabled, action_type, concurrency_policy, q⟩)

/-- The server reads a URL. -/
def read_url (py : Pydantic) (url : List Char) : Option (Nat × Nat × JobFilters) :=
  read_list_query py (parse_qsl (query_string url))

/-- The server answers a URL, with the orders its queries have. -/
def serve {jobs : Table Job} {lowering : Lowering} (py : Pydantic)
    (order : ∀ filters, Ordered jobs lowering filters) (url : List Char) :
    Option JobListResponse :=
  (read_url py url).map fun r => list_jobs (order r.2.2) r.1 r.2.1

/-! ## Reading what was asked for -/

section Read

/-- A key occurs once: it is looked up from either end. -/
theorem lookup_reverse_iff {α β : Type} [BEq α] [LawfulBEq α] {entries : List (α × β)}
    (h : (entries.map Prod.fst).Nodup) {k : α} {v : β} :
    entries.reverse.lookup k = some v ↔ (k, v) ∈ entries := by
  have key : ∀ {l : List (α × β)}, (l.map Prod.fst).Nodup →
      (l.lookup k = some v ↔ (k, v) ∈ l) := by
    intro l hl
    induction l with
    | nil => simp
    | cons p l ih =>
        obtain ⟨hnot, hrest⟩ := List.nodup_cons.mp hl
        rw [List.lookup_cons, List.mem_cons]
        by_cases hk : k = p.1
        · subst hk
          have hmem : (p.1, v) ∉ l := fun hmem => hnot (List.mem_map.mpr ⟨_, hmem, rfl⟩)
          simp [Prod.ext_iff, hmem, eq_comm]
        · rw [beq_false_of_ne hk]
          simp [hk, Prod.ext_iff, ih hrest]
  rw [key (by rwa [List.map_reverse, List.nodup_reverse]), List.mem_reverse]

variable {params : List (String × Option String)}

theorem present_eq_some {p : String × Option String} {name value : List Char} :
    present p = some (name, value) ↔
      p = (String.ofList name, some (String.ofList value)) ∧ value ≠ [] := by
  obtain ⟨n, o⟩ := p
  unfold present
  split
  · next h =>
      obtain rfl : o = none := h
      simp
  · next h =>
      obtain rfl : o = some "" := h
      refine iff_of_false nofun ?_
      rintro ⟨heq, hne⟩
      exact hne (String.ofList_eq_empty_iff.mp (Option.some.inj (Prod.ext_iff.mp heq).2).symm)
  · next v hv h =>
      obtain rfl : o = some v := h
      have hne : v ≠ "" := fun heq => hv (by rw [heq])
      simp only [Option.some.injEq, Prod.mk.injEq]
      constructor
      · rintro ⟨rfl, rfl⟩
        exact ⟨⟨String.ofList_toList.symm, String.ofList_toList.symm⟩, by simpa using hne⟩
      · rintro ⟨⟨rfl, rfl⟩, -⟩
        exact ⟨String.toList_ofList, String.toList_ofList⟩

/-- A parameter is read as it was given, if it was. -/
theorem query_param_present (h : (params.map Prod.fst).Nodup) {name value : String} :
    query_param (params.filterMap present) name = some value ↔
      (name, some value) ∈ params ∧ value ≠ "" := by
  have hnodup : ((params.filterMap present).map Prod.fst).Nodup := by
    rw [List.Nodup, List.pairwise_map, List.pairwise_filterMap]
    refine (List.pairwise_map.mp h).imp fun hne b hb b' hb' heq => hne ?_
    rw [(present_eq_some.mp hb).1, (present_eq_some.mp hb').1, heq]
  rw [query_param, Option.map_eq_some_iff]
  constructor
  · rintro ⟨text, htext, rfl⟩
    obtain ⟨p, hp, hpresent⟩ := List.mem_filterMap.mp ((lookup_reverse_iff hnodup).mp htext)
    obtain ⟨rfl, hne⟩ := present_eq_some.mp hpresent
    rw [String.ofList_toList] at hp
    exact ⟨hp, by simpa using hne⟩
  · rintro ⟨hmem, hne⟩
    refine ⟨value.toList, (lookup_reverse_iff hnodup).mpr ?_, String.ofList_toList⟩
    refine List.mem_filterMap.mpr ⟨_, hmem, present_eq_some.mpr ⟨?_, by simpa using hne⟩⟩
    rw [String.ofList_toList, String.ofList_toList]

/-- … a name has one. -/
theorem query_param_of_mem (h : (params.map Prod.fst).Nodup) {name : String} {value : Option String}
    (hmem : (name, value) ∈ params) :
    query_param (params.filterMap present) name = value.filter (· ≠ "") := by
  refine Option.ext fun text => ?_
  rw [query_param_present h, Option.filter_eq_some_iff, decide_eq_true_iff]
  refine and_congr_left fun _ => ⟨fun htext => ?_, fun htext => htext ▸ hmem⟩
  exact (Prod.ext_iff.mp (List.inj_on_of_nodup_map h hmem htext rfl)).2

end Read

/-- The server reads what `withQuery` was given. -/
theorem parse_withQuery {path : String} (hpath : '?' ∉ path.toList)
    (params : List (String × Option String)) :
    parse_qsl (query_string (withQuery path params)) = params.filterMap present := by
  have hpos : ∀ c ∈ path.toList, (decide (c ≠ '?')) = true := by
    intro c hc
    refine decide_eq_true ?_
    rintro rfl
    exact hpath hc
  have hparse := parse_qsl_serialize (params.filterMap present)
  unfold query_string withQuery
  dsimp only
  split
  · next h =>
      rw [h] at hparse
      rw [← hparse, List.dropWhile_eq_nil_iff.mpr hpos]
      rfl
  · rw [List.dropWhile_append_of_pos hpos, List.dropWhile_cons_of_neg (by simp)]
    exact hparse

theorem entries_nodup (params : JobListParams) : (params.entries.map Prod.fst).Nodup := by
  simp only [JobListParams.entries, List.map_cons, List.map_nil]
  decide

/-! ## The request and the listing -/

/-- The listing is within the bounds that `list_jobs` declares. -/
def JobListParams.in_bounds (params : JobListParams) : Bool :=
  params.page.all (1 ≤ ·) && params.page_size.all (fun n => 1 ≤ n && n ≤ 100) &&
    params.q.all (·.length ≤ 255)

/-- What is asked for, with the defaults of `list_jobs`. -/
def JobListParams.asked (params : JobListParams) : Nat × Nat × JobFilters :=
  (params.page.getD 1, params.page_size.getD 20,
    ⟨params.enabled, params.action_type, params.concurrency_policy, params.q.filter (· ≠ "")⟩)

section Params

variable (py : Pydantic)

/-- Texts that are never empty. -/
theorem Query_map {α β : Type} {text : α → String} (htext : ∀ a, text a ≠ "") (default : β)
    (read : String → Option β) (value : Option α) :
    Fastapi.Query default read ((value.map text).filter (· ≠ "")) =
      value.elim (some default) fun a => read (text a) := by
  cases value with
  | none => rfl
  | some a =>
      rw [Option.map_some, Option.filter_some, if_pos (decide_eq_true (htext a))]
      rfl

theorem bounded_toString (ge : Nat) (le : Option Nat) (n : Nat) :
    py.bounded ge le (toString n) =
      if ge ≤ n ∧ le.all (n ≤ ·) = true then some n else none := by
  rw [Pydantic.bounded, py.int_toString, Option.bind_some]
  cases le <;> simp

theorem toString_ne_empty (n : Nat) : toString n ≠ "" := Nat.repr_ne_empty

theorem read_page (page : Option Nat) :
    Fastapi.Query 1 (py.bounded 1 none) ((page.map toString).filter (· ≠ "")) =
      if page.all (1 ≤ ·) = true then some (page.getD 1) else none := by
  rw [Query_map toString_ne_empty]
  cases page with
  | none => rfl
  | some n =>
      rw [Option.elim_some, bounded_toString]
      simp

theorem read_page_size (page_size : Option Nat) :
    Fastapi.Query 20 (py.bounded 1 (some 100)) ((page_size.map toString).filter (· ≠ "")) =
      if page_size.all (fun n => 1 ≤ n && n ≤ 100) = true then some (page_size.getD 20)
      else none := by
  rw [Query_map toString_ne_empty]
  cases page_size with
  | none => rfl
  | some n =>
      rw [Option.elim_some, bounded_toString]
      simp

theorem read_enabled (enabled : Option Bool) :
    Fastapi.Query none (fun v => (py.bool v).map some) ((enabled.map toString).filter (· ≠ "")) =
      some enabled := by
  rw [Query_map fun b => by cases b <;> decide]
  cases enabled with
  | none => rfl
  | some b => simp [py.bool_toString]

theorem read_action_type_text (action_type : Option ActionType) :
    Fastapi.Query none (fun v => (read_action_type v).map some)
      ((action_type.map ActionType.text).filter (· ≠ "")) = some action_type := by
  rw [Query_map fun a => by cases a <;> decide]
  cases action_type with
  | none => rfl
  | some a => cases a <;> decide

theorem read_concurrency_policy_text (policy : Option ConcurrencyPolicy) :
    Fastapi.Query none (fun v => (read_concurrency_policy v).map some)
      ((policy.map ConcurrencyPolicy.text).filter (· ≠ "")) = some policy := by
  rw [Query_map fun a => by cases a <;> decide]
  cases policy with
  | none => rfl
  | some a => cases a <;> decide

theorem read_q_filter (q : Option String) :
    Fastapi.Query none (fun v => (read_q v).map some) (q.filter (· ≠ "")) =
      if q.all (·.length ≤ 255) = true then some (q.filter (· ≠ "")) else none := by
  cases q with
  | none => rfl
  | some text =>
      by_cases hempty : text = ""
      · subst hempty
        rfl
      · have hlen : 1 ≤ text.length := by
          rw [Nat.one_le_iff_ne_zero]
          simpa using hempty
        rw [Option.filter_some, if_pos (decide_eq_true hempty), Fastapi.Query, read_q]
        by_cases hmax : text.length ≤ 255
        · simp [hlen, hmax]
        · simp [hmax]

end Params

/-- The server reads what was asked for, within the bounds. -/
theorem read_listJobs (py : Pydantic) (params : JobListParams) :
    read_url py (listJobs params) =
      if params.in_bounds = true then some params.asked else none := by
  have hparam : ∀ name value, (name, value) ∈ params.entries →
      query_param (params.entries.filterMap present) name = value.filter (· ≠ "") :=
    fun _ _ => query_param_of_mem (entries_nodup params)
  rw [read_url, listJobs, parse_withQuery (by decide), read_list_query,
    hparam "page" (params.page.map toString) (by simp [JobListParams.entries]),
    hparam "page_size" (params.page_size.map toString) (by simp [JobListParams.entries]),
    hparam "enabled" (params.enabled.map toString) (by simp [JobListParams.entries]),
    hparam "action_type" (params.action_type.map ActionType.text)
      (by simp [JobListParams.entries]),
    hparam "concurrency_policy" (params.concurrency_policy.map ConcurrencyPolicy.text)
      (by simp [JobListParams.entries]),
    hparam "q" params.q (by simp [JobListParams.entries]),
    read_page, read_page_size, read_enabled, read_action_type_text, read_concurrency_policy_text,
    read_q_filter]
  unfold JobListParams.in_bounds JobListParams.asked
  cases params.page.all (1 ≤ ·) with
  | false => rfl
  | true =>
      cases params.page_size.all (fun n => 1 ≤ n && n ≤ 100) with
      | false => rfl
      | true => cases params.q.all (·.length ≤ 255) <;> rfl

/-- **What a browser asks for is what the server lists.**  Whatever the parameters of a listing
are, and whatever characters the text sought has: the server answers the URL that `api.listJobs`
fetches with the page of the jobs that match just these, with the defaults for those that are
missing and without an empty text; and it refuses if and only if a bound is broken. -/
theorem listing_served {jobs : Table Job} {lowering : Lowering} (py : Pydantic)
    (order : ∀ filters, Ordered jobs lowering filters) (params : JobListParams) :
    serve py order (listJobs params) =
      if params.in_bounds = true then
        some (list_jobs (order ⟨params.enabled, params.action_type, params.concurrency_policy,
          params.q.filter (· ≠ "")⟩) (params.page.getD 1) (params.page_size.getD 20))
      else none := by
  rw [serve, read_listJobs]
  split
  · rfl
  · rfl

/-- A text with the separators in it arrives. -/
example : parse_qsl (query_string (listJobs ⟨some 2, none, some true, none, none, some "a&b=c +%é"⟩))
    = [("page".toList, "2".toList), ("enabled".toList, "true".toList),
      ("q".toList, "a&b=c +%é".toList)] :=
  parse_withQuery (by decide) _

end Dass
