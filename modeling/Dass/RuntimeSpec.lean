/-
# `Dass.RuntimeSpec` — from an action to the container that runs it

`_build_runtime_spec` of `backend/app/services/job_service.py`, the two action schemas of
`backend/app/schemas/job.py`, and the `ContainerSpec` that a worker makes of the result.
Building reads the raw dict of the payload; the schema has looked at it before, so that the
command of a shell action and the url, the method and the headers of an HTTP action are
strings here.

What is compared with `==` builds the same image, environment and timeout, and for a shell
action the same command (`build_shell_same`).  For an HTTP action the command is text made
of the config: the order of the headers shows in it, and so does whether a number in the
body is `1`, `1.0` or `true` (`build_http_same`).
-/
import Dass.JSONBCompat
import Dass.JobService

namespace Dass

/-! ## Python -/

/-- What is taken from the standard library and from pydantic as it is. -/
structure Python where
  /-- `str.upper` -/
  upper : String → String
  /-- `int` of a string; `none` is a `ValueError` -/
  int_of_str : String → Option Int
  /-- `float.__repr__` of `m / 10 ^ e` -/
  float_repr : Int → Nat → String
  /-- `json.dumps` of a string -/
  dumps_str : String → String
  /-- an `int` field of a pydantic model -/
  validate_int : Json → Option Int

/-- `int(value)`. -/
def Python.int (py : Python) : Json → Option Int
  | .bool b => some (if b then 1 else 0)
  | .num m e => some (m.tdiv (10 ^ e))
  | .str s => py.int_of_str s
  | .null | .arr _ | .obj _ => none

mutual
/-- `json.dumps(value)`. -/
def Python.dumps (py : Python) : Json → String
  | .null => "null"
  | .bool b => if b then "true" else "false"
  | .num m e => if e = 0 then toString m else py.float_repr m e
  | .str s => py.dumps_str s
  | .arr items => "[" ++ py.dumps_items items ++ "]"
  | .obj fields => "\x7b" ++ py.dumps_fields fields ++ "\x7d"

def Python.dumps_items (py : Python) : JsonItems → String
  | .nil => ""
  | .cons head .nil => py.dumps head
  | .cons head tail => py.dumps head ++ ", " ++ py.dumps_items tail

def Python.dumps_fields (py : Python) : JsonFields → String
  | .nil => ""
  | .cons name value .nil => py.dumps_str name ++ ": " ++ py.dumps value
  | .cons name value tail =>
      py.dumps_str name ++ ": " ++ py.dumps value ++ ", " ++ py.dumps_fields tail
end

/-! ## The schemas -/

def JsonFields.all (p : String → Json → Bool) : JsonFields → Bool
  | .nil => true
  | .cons name value tail => p name value && tail.all p

def Json.isStr : Json → Bool
  | .str _ => true
  | _ => false

/-- `timeout_seconds: int = Field(default=30, ge=1)`. -/
def Python.validate_timeout (py : Python) (config : JsonFields) : Bool :=
  match config.get "timeout_seconds" with
  | none => true
  | some value => (py.validate_int value).any (1 ≤ ·)

/-- `HttpActionConfig.model_validate`. -/
def Python.HttpActionConfig (py : Python) (config : JsonFields) : Bool :=
  (config.get "method").all Json.isStr &&
  (config.get "url").any Json.isStr &&
  (match config.get "headers" with
    | none => true
    | some (.obj headers) => headers.all fun _ value => value.isStr
    | some _ => false) &&
  (match config.get "body" with
    | none | some .null | some (.str _) | some (.obj _) => true
    | some _ => false) &&
  py.validate_timeout config

/-- `ShellActionConfig.model_validate`. -/
def Python.ShellActionConfig (py : Python) (config : JsonFields) : Bool :=
  (config.get "command").any Json.isStr && py.validate_timeout config

/-- `_ACTION_CONFIG_SCHEMAS[action_type].model_validate(action_config)`. -/
def Python.schema_accepts (py : Python) (action_type : ActionType) : Json → Bool
  | .obj config =>
      match action_type with
      | .http => py.HttpActionConfig config
      | .shell => py.ShellActionConfig config
  | _ => false

/-! ## `_build_runtime_spec` -/

def _SHELL_IMAGE : String := "alpine:3"

def _HTTP_IMAGE : String := "curlimages/curl:8.6.0"

def JsonFields.str (config : JsonFields) (key : String) : Option String :=
  match config.get key with
  | some (.str s) => some s
  | _ => none

/-- `["-H", f"{key}: {value}"]` for each header. -/
def JsonFields.header_args : JsonFields → List String
  | .nil => []
  | .cons key (.str value) tail => "-H" :: (key ++ ": " ++ value) :: tail.header_args
  | .cons _ _ tail => tail.header_args

/-- `(action_config.get("headers") or {}).items()`, as arguments. -/
def JsonFields.headers (config : JsonFields) : List String :=
  match config.get "headers" with
  | some (.obj headers) => headers.header_args
  | _ => []

/-- `["-d", …]`, unless the body is `None`. -/
def Python.body_args (py : Python) (config : JsonFields) : List String :=
  match config.get "body" with
  | some (.str s) => ["-d", s]
  | some (.obj fields) => ["-d", py.dumps (.obj fields)]
  | some (.arr items) => ["-d", py.dumps (.arr items)]
  | _ => []

/-- The command of an HTTP action. -/
def Python.http_command (py : Python) (config : JsonFields) : Option (List String) := do
  let method ← match config.get "method" with
    | none => some "GET"
    | some _ => config.str "method"
  let url ← config.str "url"
  return ["curl", "-fsS", "-X", py.upper method] ++ config.headers ++ py.body_args config ++ [url]

/-- The command of a shell action. -/
def JsonFields.shell_command (config : JsonFields) : Option (List String) := do
  let command ← config.str "command"
  return ["sh", "-c", command]

/-- `int(action_config.get("timeout_seconds", 30))`. -/
def Python.timeout_seconds (py : Python) (config : JsonFields) : Option Int :=
  match config.get "timeout_seconds" with
  | none => some 30
  | some value => py.int value

def JsonItems.ofStrings : List String → JsonItems
  | [] => .nil
  | s :: rest => .cons (.str s) (.ofStrings rest)

/-- The dict that is stored. -/
def runtime_spec (image : String) (command : List String) (timeout_seconds : Int) : Json :=
  .obj (.cons "image" (.str image)
    (.cons "command" (.arr (.ofStrings command))
      (.cons "env" (.obj .nil)
        (.cons "timeout_seconds" (.num timeout_seconds 0) .nil))))

/-- The command, and the image it runs in. -/
def Python.action (py : Python) (action_type : ActionType) (config : JsonFields) :
    Option (String × List String) :=
  match action_type with
  | .shell => config.shell_command.map (_SHELL_IMAGE, ·)
  | .http => (py.http_command config).map (_HTTP_IMAGE, ·)

/-- `_build_runtime_spec`.  A config that is no dict, lacks a key or has a timeout that
`int` does not take raises. -/
def Python._build_runtime_spec (py : Python) (shell_execution_enabled : Bool)
    (action_type : ActionType) (action_config : Json) : Except RequestError Json :=
  if action_type = .shell ∧ shell_execution_enabled = false then
    .error (.http 422 "Shell actions are disabled. Set DASS_SHELL_EXECUTION_ENABLED=true to allow them.")
  else
    match action_config with
    | .obj config =>
        match py.action action_type config, py.timeout_seconds config with
        | some (image, command), some timeout => .ok (runtime_spec image command timeout)
        | _, _ => .error .validation
    | _ => .error .validation

/-- A deployment with shell execution enabled. -/
def Python.env (py : Python) (croniter : Croniter) : Env where
  croniter := croniter
  schema_accepts := py.schema_accepts
  build_runtime_spec := py._build_runtime_spec true

/-! ## What `==` leaves to be told apart -/

section Same

variable {py : Python}

theorem Python.int_number {value : Json} {p : Int × Nat} (h : value.number = some p) :
    py.int value = some (p.1.tdiv (10 ^ p.2)) := by
  cases value with
  | bool b =>
      cases h
      cases b <;> rfl
  | num m e =>
      cases h
      rfl
  | null | str | arr | obj => cases h

theorem tdiv_of_sameNumber {p q : Int × Nat} (h : sameNumber p q = true) :
    p.1.tdiv (10 ^ p.2) = q.1.tdiv (10 ^ q.2) := by
  simp only [sameNumber, decide_eq_true_eq] at h
  have hp : (0 : Int) < 10 ^ p.2 := Int.pow_pos (by decide)
  have hq : (0 : Int) < 10 ^ q.2 := Int.pow_pos (by decide)
  calc p.1.tdiv (10 ^ p.2) = (p.1 * 10 ^ q.2).tdiv (10 ^ p.2 * 10 ^ q.2) :=
        (Int.mul_tdiv_mul_of_pos_left _ _ hq).symm
    _ = (q.1 * 10 ^ p.2).tdiv (10 ^ q.2 * 10 ^ p.2) := by rw [h, mul_comm (10 ^ p.2)]
    _ = q.1.tdiv (10 ^ q.2) := Int.mul_tdiv_mul_of_pos_left _ _ hp

/-- `int` answers the same for equal values. -/
theorem Python.int_same {a b : Json} (h : a.same b = true) : py.int a = py.int b := by
  simp only [Json.same, Bool.or_eq_true, decide_eq_true_eq] at h
  rcases h with rfl | h
  · rfl
  · cases hnum : a.number with
    | some p =>
        obtain ⟨q, hb, hpq⟩ := (Json.like_number hnum).mp h
        rw [int_number hnum, int_number hb, tdiv_of_sameNumber hpq]
    | none =>
        cases a with
        | bool | num => cases hnum
        | null | str =>
            simp only [Json.like, decide_eq_true_eq] at h
            rw [h]
        | arr items =>
            cases b with
            | arr => rfl
            | _ => simp [Json.like] at h
        | obj fields =>
            cases b with
            | obj => rfl
            | _ => simp [Json.like] at h

/-- A string equals itself and nothing else. -/
theorem Json.str_of_same {a b : Json} {s : String} (h : a.same b = true) (hb : b = .str s) :
    a = .str s := by
  subst hb
  simp only [same, Bool.or_eq_true, decide_eq_true_eq] at h
  rcases h with h | h
  · exact h
  · cases a <;> simp_all [like, number]

variable {f g : JsonFields}

theorem JsonFields.str_same (h : (Json.obj f).same (.obj g) = true) (key : String) :
    f.str key = g.str key := by
  unfold str
  rcases Json.same_get h key with ⟨hf, hg⟩ | ⟨value, other, hf, hg, hsame⟩
  · rw [hf, hg]
  · rw [hf, hg]
    by_cases hstr : ∃ s, value = .str s
    · obtain ⟨s, rfl⟩ := hstr
      rw [Json.same_str.mp hsame]
    · have hother : ¬ ∃ s, other = .str s := by
        rintro ⟨s, hs⟩
        exact hstr ⟨s, Json.str_of_same hsame hs⟩
      split
      · next s heq => exact absurd ⟨s, Option.some.inj heq⟩ hstr
      · split
        · next s heq => exact absurd ⟨s, Option.some.inj heq⟩ hother
        · rfl

theorem Python.timeout_same (h : (Json.obj f).same (.obj g) = true) :
    py.timeout_seconds f = py.timeout_seconds g := by
  unfold timeout_seconds
  rcases Json.same_get h "timeout_seconds" with ⟨hf, hg⟩ | ⟨value, other, hf, hg, hsame⟩
  · rw [hf, hg]
  · rw [hf, hg]
    exact int_same hsame

/-- The command of an HTTP action with this config, if it has one. -/
def Python.command (py : Python) : Json → Option (List String)
  | .obj config => py.http_command config
  | _ => none

/-- **Equal configs build equal specs**, as far as the command of an HTTP action is the same. -/
theorem Python.build_same {shell : Bool} {action_type : ActionType} {a b : Json}
    (h : a.same b = true) (hcommand : action_type = .http → py.command a = py.command b) :
    py._build_runtime_spec shell action_type a = py._build_runtime_spec shell action_type b := by
  cases a with
  | obj f =>
      obtain ⟨g, rfl⟩ := Json.same_obj h
      have haction : py.action action_type f = py.action action_type g := by
        cases action_type with
        | shell => simp only [action, JsonFields.shell_command, JsonFields.str_same h]
        | http => exact congrArg (Option.map (_HTTP_IMAGE, ·)) (hcommand rfl)
      simp only [_build_runtime_spec, haction, timeout_same h]
  | null | bool | num | str | arr =>
      have hb : ∀ g, b ≠ .obj g := by
        rintro g rfl
        simp [Json.same, Json.like, Json.number] at h
      cases b with
      | obj g => exact absurd rfl (hb g)
      | _ => rfl

end Same

/-! ## `ContainerSpec` -/

/-- The fields of the dataclass. -/
def ContainerSpec.fields : List String :=
  ["image", "command", "env", "timeout_seconds", "cpu", "memory_mb", "working_dir"]

/-- `ContainerSpec(**spec)` is a value: every key is a field, and the one without a default
is there. -/
def ContainerSpec.constructible : Json → Bool
  | .obj spec => spec.names.all (· ∈ ContainerSpec.fields) && "image" ∈ spec.names
  | _ => false

theorem Python.build_shape {py : Python} {shell : Bool} {action_type : ActionType}
    {config spec : Json} (h : py._build_runtime_spec shell action_type config = .ok spec) :
    ∃ image command timeout, spec = runtime_spec image command timeout := by
  unfold _build_runtime_spec at h
  split at h
  · cases h
  · split at h
    · split at h
      · next image command timeout _ _ =>
          cases h
          exact ⟨image, command, timeout, rfl⟩
      · cases h
    · cases h

/-- What is `==` to a spec that was built can be passed to `ContainerSpec`. -/
theorem constructible_of_same {image : String} {command : List String} {timeout : Int}
    {stored : Json} (h : (runtime_spec image command timeout).same stored = true) :
    ContainerSpec.constructible stored = true := by
  obtain ⟨g, rfl⟩ := Json.same_obj h
  have hget := Json.same_get h
  simp only [ContainerSpec.constructible, Bool.and_eq_true, List.all_eq_true, decide_eq_true_eq]
  constructor
  · intro name hname
    obtain ⟨value, hvalue⟩ := JsonFields.mem_names.mp hname
    rcases hget name with ⟨_, hnone⟩ | ⟨built, _, hbuilt, _⟩
    · rw [hnone] at hvalue
      cases hvalue
    · have hmem := JsonFields.mem_names.mpr ⟨built, hbuilt⟩
      simp only [JsonFields.names, List.mem_cons, List.not_mem_nil, or_false] at hmem
      rcases hmem with rfl | rfl | rfl | rfl <;> decide
  · rcases hget "image" with ⟨hnone, _⟩ | ⟨_, other, _, hother, _⟩
    · cases hnone
    · exact JsonFields.mem_names.mpr ⟨other, hother⟩

/-- Python on ASCII, without escapes. -/
def example_python : Python where
  upper s := String.ofList (s.toList.map Char.toUpper)
  int_of_str := String.toInt?
  float_repr m e := toString (m / 10 ^ e) ++ "." ++ toString (m % 10 ^ e)
  dumps_str s := "\"" ++ s ++ "\""
  validate_int
    | .num m 0 => some m
    | _ => none

end Dass
