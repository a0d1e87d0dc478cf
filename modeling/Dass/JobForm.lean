/-
# `Dass.JobForm` — the form of a job, and what the API makes of it

`validateForm` and the submission of
`frontend/src/app/jobs/_components/job-form-page.tsx`, against the two schemas of
`backend/app/schemas/job.py`.  The fields of the form are text.  What the form submits is a tree,
which the API reads after `JSON.stringify` wrote it.

The checks of the form are weaker than the schemas, in three places.  The headers are any JSON
object, where the schema asks for strings in it; the body may be an array; and a timeout from
`10 ^ 21` on is written with an exponent, which is a `float` for Python that does not fit 64 bits.
Nothing else is missed (`validated_accepted_iff`).
-/
import Dass.JsonExchange

namespace Dass

open JsonTree (Tree Trees Members)
open Ecma (trim parseInt)

/-! ## The form -/

/-- The part of the form for HTTP actions. -/
structure HttpForm where
  method : String
  url : String
  headers : String
  body : String
  timeout_seconds : String
deriving DecidableEq

/-- The part for shell actions. -/
structure ShellForm where
  command : String
  timeout_seconds : String
deriving DecidableEq

structure JobFormState where
  name : String
  cron_expression : String
  action_type : ActionType
  enabled : Bool
  concurrency_policy : ConcurrencyPolicy
  max_retries : String
  upstream_job_ids : List JobId
  http : HttpForm
  shell : ShellForm
deriving DecidableEq

/-- A field, and its message. -/
abbrev JobFormErrors := List (String × String)

/-- A check that leaves a message. -/
def check (ok : Bool) (field message : String) : JobFormErrors :=
  if ok then [] else [(field, message)]

/-- `normalizeCronExpression` -/
def normalizeCronExpression (value : String) : Option String :=
  let trimmed := trim value
  if trimmed = "" then none else some trimmed

/-- `parseJsonObject`; the error is the one it sets. -/
def parseJsonObject (js : Ecma.Numbers) (value fieldLabel : String) :
    Except (String × String) Members :=
  let trimmed := trim value
  if trimmed = "" then .ok .nil
  else
    match js.parse trimmed with
    | none => .error (fieldLabel, "Must be valid JSON.")
    | some (.obj parsed) => .ok parsed
    | some _ => .error (fieldLabel, "Must be a JSON object.")

/-- The text goes on as JSON does that is no plain text here. -/
def startsJson (trimmed : String) : Bool :=
  trimmed.toList.head? = some '\x7b' || trimmed.toList.head? = some '['

/-- `parseBody`; `none` is `undefined`. -/
def parseBody (js : Ecma.Numbers) (value : String) : Except (String × String) (Option Tree) :=
  let trimmed := trim value
  if trimmed = "" then .ok none
  else if startsJson trimmed then
    match js.parse trimmed with
    | none => .error ("action_body", "Body must be valid JSON or plain text.")
    | some parsed => .ok (some parsed)
  else .ok (some (.str value))

/-- `Number.isInteger(parsed)`, with a lower bound. -/
def isInteger (js : Ecma.Numbers) (least : Int) (parsed : Option Int) : Bool :=
  parsed.any fun i => js.finite i && least ≤ i

/-- The checks of an HTTP action. -/
def validateHttp (js : Ecma.Numbers) (http : HttpForm) : JobFormErrors :=
  check (trim http.url ≠ "") "http_url" "URL is required for HTTP jobs." ++
  check (trim http.method ≠ "") "http_method" "Method is required." ++
  check (isInteger js 1 (parseInt http.timeout_seconds)) "http_timeout_seconds"
    "Timeout must be a positive integer." ++
  match parseJsonObject js http.headers "http_headers" with
  | .error e => [e]
  | .ok _ =>
      match parseBody js http.body with
      | .error e => [e]
      | .ok _ => []

/-- The checks of a shell action. -/
def validateShell (js : Ecma.Numbers) (shell : ShellForm) : JobFormErrors :=
  check (trim shell.command ≠ "") "shell_command" "Command is required for shell jobs." ++
  check (isInteger js 1 (parseInt shell.timeout_seconds)) "shell_timeout_seconds"
    "Timeout must be a positive integer."

/-- `validateForm`; a job that depends on itself is not looked at any further. -/
def validateForm (js : Ecma.Numbers) (form : JobFormState) (currentJobId : Option JobId) :
    JobFormErrors :=
  check (trim form.name ≠ "") "name" "Job name is required." ++
  check (isInteger js 0 (parseInt form.max_retries)) "max_retries"
    "Max retries must be a non-negative integer." ++
  if currentJobId.any (· ∈ form.upstream_job_ids) then
    [("upstream_job_ids", "A job cannot depend on itself.")]
  else
    match form.action_type with
    | .http => validateHttp js form.http
    | .shell => validateShell js form.shell

/-! ## The submission -/

/-- What is sent to the API, before it is written. -/
structure JobWritePayload where
  name : String
  cron_expression : Option String
  action_type : ActionType
  action_config : Tree
  enabled : Bool
  concurrency_policy : ConcurrencyPolicy
  max_retries : Tree
  upstream_job_ids : List JobId
deriving DecidableEq

/-- A number that was parsed; `NaN` is written as `null`. -/
def parsedNumber (js : Ecma.Numbers) (value : String) : Tree :=
  match parseInt value with
  | some i => js.integer i
  | none => .num ['N', 'a', 'N']

/-- `Number.isFinite(maxRetries) ? maxRetries : 0` -/
def finiteNumber (js : Ecma.Numbers) (value : String) : Tree :=
  if (parseInt value).any js.finite then parsedNumber js value else js.integer 0

/-- The `action_config` of an HTTP action; a body that is `undefined` is not written. -/
def httpConfig (js : Ecma.Numbers) (http : HttpForm) (headers : Members) (body : Option Tree) :
    Members :=
  .cons "method" (.str (if trim http.method = "" then "GET" else trim http.method))
    (.cons "url" (.str (trim http.url))
      (.cons "headers" (.obj headers)
        (let timeout := .cons "timeout_seconds" (parsedNumber js http.timeout_seconds) .nil
        match body with
        | none => timeout
        | some body => .cons "body" body timeout)))

/-- The `action_config` of a shell action. -/
def shellConfig (js : Ecma.Numbers) (shell : ShellForm) : Members :=
  .cons "command" (.str (trim shell.command))
    (.cons "timeout_seconds" (parsedNumber js shell.timeout_seconds) .nil)

/-- The payload around an `action_config`. -/
def payloadOf (js : Ecma.Numbers) (form : JobFormState) (action_config : Members) :
    JobWritePayload where
  name := trim form.name
  cron_expression := normalizeCronExpression form.cron_expression
  action_type := form.action_type
  action_config := .obj action_config
  enabled := form.enabled
  concurrency_policy := form.concurrency_policy
  max_retries := finiteNumber js form.max_retries
  upstream_job_ids := form.upstream_job_ids

/-- `mutationFn`, up to the request; the error is what the form shows. -/
def mutationFn (js : Ecma.Numbers) (form : JobFormState) (currentJobId : Option JobId) :
    Except JobFormErrors JobWritePayload :=
  let validationErrors := validateForm js form currentJobId
  if validationErrors ≠ [] then .error validationErrors
  else
    match form.action_type with
    | .shell => .ok (payloadOf js form (shellConfig js form.shell))
    | .http =>
        match parseJsonObject js form.http.headers "http_headers", parseBody js form.http.body with
        | .ok headers, .ok body => .ok (payloadOf js form (httpConfig js form.http headers body))
        | .error e, .ok _ => .error [e]
        | .ok _, .error e => .error [e]
        | .error e, .error e' => .error [e, e']

/-- The `action_config` as the API reads it. -/
def JobWritePayload.received (payload : JobWritePayload) : Json :=
  .ofTree (Ecma.encoded payload.action_config)

/-! ## What a form without errors has -/

section Validated

variable {js : Ecma.Numbers} {form : JobFormState} {currentJobId : Option JobId}

theorem check_eq_nil {ok : Bool} {field message : String} :
    check ok field message = [] ↔ ok = true := by
  cases ok with
  | true => exact ⟨fun _ => rfl, fun _ => rfl⟩
  | false => exact ⟨fun h => (by cases h), fun h => (by cases h)⟩

/-- An HTTP action without errors. -/
structure HttpForm.Valid (js : Ecma.Numbers) (http : HttpForm) : Prop where
  url : trim http.url ≠ ""
  method : trim http.method ≠ ""
  timeout : isInteger js 1 (parseInt http.timeout_seconds) = true
  headers : ∃ headers, parseJsonObject js http.headers "http_headers" = .ok headers
  body : ∃ body, parseBody js http.body = .ok body

/-- A shell action without errors. -/
structure ShellForm.Valid (js : Ecma.Numbers) (shell : ShellForm) : Prop where
  command : trim shell.command ≠ ""
  timeout : isInteger js 1 (parseInt shell.timeout_seconds) = true

theorem validateHttp_nil {http : HttpForm} (h : validateHttp js http = []) : http.Valid js := by
  rw [validateHttp] at h
  simp only [List.append_eq_nil_iff, check_eq_nil, decide_eq_true_eq] at h
  obtain ⟨⟨⟨hurl, hmethod⟩, htimeout⟩, hrest⟩ := h
  cases hheaders : parseJsonObject js http.headers "http_headers" with
  | error e =>
      rw [hheaders] at hrest
      cases hrest
  | ok headers =>
      rw [hheaders] at hrest
      cases hbody : parseBody js http.body with
      | error e =>
          rw [hbody] at hrest
          cases hrest
      | ok body => exact ⟨hurl, hmethod, htimeout, ⟨headers, hheaders⟩, ⟨body, hbody⟩⟩

theorem validateShell_nil {shell : ShellForm} (h : validateShell js shell = []) :
    shell.Valid js := by
  rw [validateShell] at h
  simp only [List.append_eq_nil_iff, check_eq_nil, decide_eq_true_eq] at h
  exact ⟨h.1, h.2⟩

theorem validateForm_nil (h : validateForm js form currentJobId = []) :
    trim form.name ≠ "" ∧ isInteger js 0 (parseInt form.max_retries) = true ∧
      (form.action_type = .http → form.http.Valid js) ∧
      (form.action_type = .shell → form.shell.Valid js) := by
  rw [validateForm] at h
  simp only [List.append_eq_nil_iff, check_eq_nil, decide_eq_true_eq] at h
  obtain ⟨⟨hname, hretries⟩, hrest⟩ := h
  split at hrest
  · cases hrest
  · refine ⟨hname, hretries, fun hhttp => ?_, fun hshell => ?_⟩
    · rw [hhttp] at hrest
      exact validateHttp_nil hrest
    · rw [hshell] at hrest
      exact validateShell_nil hrest

theorem mutationFn_http (h : validateForm js form currentJobId = [])
    (hhttp : form.action_type = .http) {headers : Members} {body : Option Tree}
    (hheaders : parseJsonObject js form.http.headers "http_headers" = .ok headers)
    (hbody : parseBody js form.http.body = .ok body) :
    mutationFn js form currentJobId =
      .ok (payloadOf js form (httpConfig js form.http headers body)) := by
  simp only [mutationFn, h, ne_eq, not_true_eq_false, if_false, hhttp, hheaders, hbody]

theorem mutationFn_shell (h : validateForm js form currentJobId = [])
    (hshell : form.action_type = .shell) :
    mutationFn js form currentJobId = .ok (payloadOf js form (shellConfig js form.shell)) := by
  simp only [mutationFn, h, ne_eq, not_true_eq_false, if_false, hshell]

end Validated

/-! ## What the schemas say to it -/

section Schemas

variable {py : Python} {js : Ecma.Numbers}

/-- The number that is submitted is less than `10 ^ 21`. -/
def belowE21 (js : Ecma.Numbers) (timeout_seconds : String) : Prop :=
  ∀ i m, parseInt timeout_seconds = some i → js.nearest i.natAbs = some m → m < 10 ^ 21

def isString : Tree → Bool
  | .str _ => true
  | _ => false

/-- What the schemas ask for, and the form does not. -/
def JobFormState.Fits (js : Ecma.Numbers) (form : JobFormState) : Prop :=
  match form.action_type with
  | .http =>
      (∀ headers, js.parse (trim form.http.headers) = some (.obj headers) →
        ∀ p ∈ headers.pairs, isString p.2 = true) ∧
      (trim form.http.body).toList.head? ≠ some '[' ∧
      belowE21 js form.http.timeout_seconds
  | .shell => belowE21 js form.shell.timeout_seconds

theorem scan_number_digits {n : Nat} (h : n < 10 ^ 21) :
    JsonText.scan_number false (Nat.toDigits 10 n) = .ok (.int n, []) := by
  have hlength : (Nat.toDigits 10 n).length ≤ JsonText.int_max_str_digits :=
    (Nat.toDigits_length 10 n 21 (by decide) h).trans (by decide)
  rw [JsonText.scan_number, JsonTree.scan_int_toDigits]
  show (if JsonText.int_max_str_digits < (Nat.toDigits 10 n).length then Except.error _
    else Except.ok
      (JsonText.Value.int (JsonText.value_of_digits (Nat.toDigits 10 n ++ [])), [])) = _
  rw [if_neg (Nat.not_lt.mpr hlength), List.append_nil, JsonTree.value_of_toDigits]

/-- A text without a sign. -/
theorem ofNumeral_of_scan {s rest : List Char} {v : JsonText.Value}
    (h : JsonText.scan_number false s = .ok (v, rest)) : Json.ofNumeral s = .ofDecimal v := by
  have hminus : ∀ t, s ≠ '-' :: t := by
    rintro t rfl
    cases h
  rw [Json.ofNumeral.eq_2 s hminus, h]

theorem ofTree_digits {n : Nat} (h : n < 10 ^ 21) :
    Json.ofTree (Ecma.encoded (.num (Nat.toDigits 10 n))) = .num n 0 := by
  rw [Ecma.encoded, if_pos (JsonTree.isNumeral_toDigits n), Json.ofTree,
    ofNumeral_of_scan (scan_number_digits h)]
  rfl

/-- What the API reads of a positive number that was parsed: an `int` below `10 ^ 21`, and a
`float` from there on. -/
theorem received_parsed {value : String} (h : isInteger js 1 (parseInt value) = true) :
    ∃ n m : Nat, parseInt value = some (n : Int) ∧ js.nearest n = some m ∧ 0 < m ∧
      (m < 10 ^ 21 ∧ Json.ofTree (Ecma.encoded (parsedNumber js value)) = .num m 0 ∨
        10 ^ 21 ≤ m ∧ ∃ (k : Int) (e : Nat), 10 ^ 21 ≤ k * 10 ^ e ∧
          Json.ofTree (Ecma.encoded (parsedNumber js value)) = .num (k * 10 ^ (e + 1)) 1) := by
  obtain ⟨i, hi, hinteger⟩ := (Option.any_eq_true _ _).mp h
  rw [Bool.and_eq_true, decide_eq_true_eq] at hinteger
  obtain ⟨n, rfl⟩ := Int.eq_ofNat_of_zero_le (by omega : (0 : Int) ≤ i)
  obtain ⟨m, hm⟩ := Option.isSome_iff_exists.mp hinteger.1
  refine ⟨n, m, hi, hm, js.positive n m (by omega) hm, ?_⟩
  have hparsed : parsedNumber js value = .num (js.number (Nat.toDigits 10 n)) := by
    rw [parsedNumber, hi]
    exact js.integer_ofNat n
  rw [hparsed]
  rcases Nat.lt_or_ge m (10 ^ 21) with hsmall | hlarge
  · refine .inl ⟨hsmall, ?_⟩
    rw [js.small n m hm hsmall, ofTree_digits hsmall]
  · obtain ⟨hnumeral, k, e, hscan, hk⟩ := js.large n m hm hlarge
    refine .inr ⟨hlarge, k, e, hk, ?_⟩
    rw [Ecma.encoded, if_pos hnumeral, Json.ofTree, ofNumeral_of_scan hscan]
    rfl

/-- A timeout that the form accepts is accepted by the schemas below `10 ^ 21`. -/
theorem timeout_accepted (hpy : py.Documented) {timeout_seconds : String}
    (h : isInteger js 1 (parseInt timeout_seconds) = true) :
    (py.validate_int (.ofTree (Ecma.encoded (parsedNumber js timeout_seconds)))).any (1 ≤ ·) =
        true ↔ belowE21 js timeout_seconds := by
  obtain ⟨n, m, hn, hm, hpos, hreceived⟩ := received_parsed h
  have hbelow : belowE21 js timeout_seconds ↔ m < 10 ^ 21 := by
    constructor
    · exact fun hall => hall _ _ hn hm
    · intro hlt j k hj hk
      cases hn.symm.trans hj
      cases hm.symm.trans hk
      exact hlt
  rw [hbelow]
  rcases hreceived with ⟨hsmall, htree⟩ | ⟨hlarge, k, e, hk, htree⟩
  · have hone : (1 : Int) ≤ m := by omega
    rw [htree, hpy.validate_int]
    exact iff_of_true (decide_eq_true hone) hsmall
  · have hfloat : py.validate_int (.num (k * 10 ^ (e + 1)) 1) = none := by
      refine hpy.validate_float _ 1 (by decide) ?_
      calc (10 : Int) ^ 21 * 10 ^ 1 ≤ k * 10 ^ e * 10 ^ 1 :=
            Int.mul_le_mul_of_nonneg_right hk (by decide)
        _ = k * 10 ^ (e + 1) := by rw [mul_assoc, ← pow_add]
    rw [htree, hfloat]
    exact iff_of_false (fun hany => by cases hany) (Nat.not_lt.mpr hlarge)

theorem isStr_ofNumeral (s : List Char) : (Json.ofNumeral s).isStr = false := by
  have hdecimal : ∀ v, (Json.ofDecimal v).isStr = false := by
    intro v
    rw [Json.ofDecimal.eq_def]
    split <;> rfl
  rw [Json.ofNumeral.eq_def]
  split
  · split
    · exact hdecimal _
    · rfl
  · split
    · exact hdecimal _
    · rfl

theorem isStr_encoded (v : Tree) : (Json.ofTree (Ecma.encoded v)).isStr = isString v := by
  cases v with
  | num numeral =>
      rw [Ecma.encoded]
      split
      · exact isStr_ofNumeral numeral
      · rfl
  | null | bool | str | arr | obj => rfl

theorem all_isStr_encoded (ms : Members) :
    (JsonFields.ofMembers (Ecma.encoded_members ms)).all (fun _ value => value.isStr) = true ↔
      ∀ p ∈ ms.pairs, isString p.2 = true := by
  rw [JsonFields.all_pairs, JsonFields.pairs_ofMembers, Ecma.pairs_encoded, Ecma.onValues,
    Ecma.onValues, List.map_map, List.forall_mem_map]
  constructor
  · intro h p hp
    exact (isStr_encoded p.2).symm.trans (h p hp)
  · intro h p hp
    exact (isStr_encoded p.2).trans (h p hp)

/-- A body that is parsed begins as an object does, or as an array. -/
theorem isObject_of_parse {text : String} {v : Tree} (hstarts : startsJson text = true)
    (h : js.parse text = some v) :
    if text.toList.head? = some '[' then ∃ vs, v = .arr vs else ∃ ms, v = .obj ms := by
  rw [Ecma.Numbers.parse] at h
  obtain ⟨w, hread, rfl⟩ := Option.map_eq_some_iff.mp h
  rw [startsJson, Bool.or_eq_true, decide_eq_true_eq, decide_eq_true_eq] at hstarts
  rcases hstarts with hbrace | hbracket
  · obtain ⟨s, hs⟩ := List.head?_eq_some_iff.mp hbrace
    rw [hs] at hread
    obtain ⟨rest, hvalue⟩ := JsonTree.value_of_read (by decide) hread
    obtain ⟨ms, rfl⟩ := JsonTree.value_brace hvalue
    rw [hbrace, if_neg (by decide)]
    exact ⟨_, rfl⟩
  · obtain ⟨s, hs⟩ := List.head?_eq_some_iff.mp hbracket
    rw [hs] at hread
    obtain ⟨rest, hvalue⟩ := JsonTree.value_of_read (by decide) hread
    obtain ⟨vs, rfl⟩ := JsonTree.value_bracket hvalue
    rw [hbracket, if_pos rfl]
    exact ⟨_, rfl⟩

/-- What a schema says of a body. -/
def acceptsBody : Option Json → Bool
  | none | some .null | some (.str _) | some (.obj _) => true
  | some _ => false

theorem body_accepted {value : String} {body : Option Tree} (h : parseBody js value = .ok body) :
    acceptsBody (body.map fun v => .ofTree (Ecma.encoded v)) = true ↔
      (trim value).toList.head? ≠ some '[' := by
  rw [parseBody] at h
  split at h
  · next hempty =>
      cases h
      rw [hempty]
      exact ⟨fun _ hhead => (by cases hhead), fun _ => rfl⟩
  · split at h
    · next hstarts =>
        split at h
        · cases h
        · next v hparse =>
            cases h
            have hobject := isObject_of_parse hstarts hparse
            split at hobject
            · next hbracket =>
                obtain ⟨vs, rfl⟩ := hobject
                exact ⟨fun hfalse => (by cases hfalse), fun hne => absurd hbracket hne⟩
            · next hbracket =>
                obtain ⟨ms, rfl⟩ := hobject
                exact ⟨fun _ => hbracket, fun _ => rfl⟩
    · next hstarts =>
        cases h
        refine ⟨fun _ hbracket => hstarts ?_, fun _ => rfl⟩
        rw [startsJson, hbracket]
        rfl

theorem headers_accepted {value : String} {headers : Members}
    (h : parseJsonObject js value "http_headers" = .ok headers) :
    (JsonFields.ofMembers (Ecma.encoded_members headers)).all (fun _ value => value.isStr) = true ↔
      ∀ parsed, js.parse (trim value) = some (.obj parsed) →
        ∀ p ∈ parsed.pairs, isString p.2 = true := by
  rw [all_isStr_encoded]
  rw [parseJsonObject] at h
  split at h
  · next hempty =>
      cases h
      refine ⟨fun _ parsed hparse => ?_, fun _ p hp => (by cases hp)⟩
      rw [hempty] at hparse
      cases hparse
  · split at h
    · cases h
    · next parsed hparse =>
        cases h
        constructor
        · intro hall other hother
          rw [hparse] at hother
          cases hother
          exact hall
        · exact fun hall => hall _ hparse
    · cases h

/-! ### The configs that are submitted -/

/-- The fields of an `action_config` as the API reads them. -/
def receivedFields (config : Members) : JsonFields := .ofMembers (Ecma.encoded_members config)

section Received

variable {name key : String} {v : Tree} {ms : Members}

theorem get_received : (receivedFields (.cons name v ms)).get name =
    some (.ofTree (Ecma.encoded v)) :=
  if_pos rfl

theorem get_received_tail (h : name ≠ key) :
    (receivedFields (.cons name v ms)).get key = (receivedFields ms).get key :=
  if_neg h

end Received

theorem received_httpConfig (js : Ecma.Numbers) (http : HttpForm) (headers : Members)
    (body : Option Tree) (config : JsonFields) (h : receivedFields (httpConfig js http headers body) = config) :
    config.get "method" = some (.str (if trim http.method = "" then "GET" else trim http.method)) ∧
    config.get "url" = some (.str (trim http.url)) ∧
    config.get "headers" = some (.obj (receivedFields headers)) ∧
    config.get "body" = body.map (fun v => .ofTree (Ecma.encoded v)) ∧
    config.get "timeout_seconds" =
      some (.ofTree (Ecma.encoded (parsedNumber js http.timeout_seconds))) := by
  subst h
  rw [httpConfig]
  refine ⟨get_received, ?_, ?_, ?_, ?_⟩
  · rw [get_received_tail (by decide +kernel), get_received]
    rfl
  · rw [get_received_tail (by decide +kernel), get_received_tail (by decide +kernel), get_received]
    rfl
  all_goals rw [get_received_tail (by decide +kernel), get_received_tail (by decide +kernel),
    get_received_tail (by decide +kernel)]
  · cases body with
    | none => exact get_received_tail (by decide +kernel)
    | some body => exact get_received
  · cases body with
    | none => exact get_received
    | some body =>
        show (receivedFields (.cons _ _ _)).get _ = _
        rw [get_received_tail (by decide +kernel), get_received]

theorem received_shellConfig (js : Ecma.Numbers) (shell : ShellForm) (config : JsonFields)
    (h : receivedFields (shellConfig js shell) = config) :
    config.get "command" = some (.str (trim shell.command)) ∧
    config.get "timeout_seconds" =
      some (.ofTree (Ecma.encoded (parsedNumber js shell.timeout_seconds))) := by
  subst h
  rw [shellConfig]
  refine ⟨get_received, ?_⟩
  rw [get_received_tail (by decide +kernel), get_received]

theorem http_accepted (hpy : py.Documented) {http : HttpForm} {headers : Members}
    {body : Option Tree} (htimeout : isInteger js 1 (parseInt http.timeout_seconds) = true)
    (hheaders : parseJsonObject js http.headers "http_headers" = .ok headers)
    (hbody : parseBody js http.body = .ok body) :
    py.HttpActionConfig (receivedFields (httpConfig js http headers body)) = true ↔
      (∀ parsed, js.parse (trim http.headers) = some (.obj parsed) →
        ∀ p ∈ parsed.pairs, isString p.2 = true) ∧
      (trim http.body).toList.head? ≠ some '[' ∧ belowE21 js http.timeout_seconds := by
  obtain ⟨hmethod, hurl, hget, hbodyGet, htime⟩ :=
    received_httpConfig js http headers body _ rfl
  have hconfig : py.HttpActionConfig (receivedFields (httpConfig js http headers body)) =
      ((receivedFields headers).all (fun _ value => value.isStr) &&
        acceptsBody (body.map fun v => .ofTree (Ecma.encoded v)) &&
        (py.validate_int (.ofTree (Ecma.encoded (parsedNumber js http.timeout_seconds)))).any
          (1 ≤ ·)) := by
    rw [Python.HttpActionConfig, hmethod, hurl, hget, hbodyGet, Python.validate_timeout, htime]
    rfl
  rw [hconfig, Bool.and_eq_true, Bool.and_eq_true, timeout_accepted hpy htimeout,
    body_accepted hbody, and_assoc]
  exact and_congr_left fun _ => headers_accepted hheaders

theorem shell_accepted (hpy : py.Documented) {shell : ShellForm}
    (htimeout : isInteger js 1 (parseInt shell.timeout_seconds) = true) :
    py.ShellActionConfig (receivedFields (shellConfig js shell)) = true ↔
      belowE21 js shell.timeout_seconds := by
  obtain ⟨hcommand, htime⟩ := received_shellConfig js shell _ rfl
  rw [Python.ShellActionConfig, hcommand, Python.validate_timeout, htime]
  exact timeout_accepted hpy htimeout

/-- **What `validateForm` accepts is accepted by the schema** exactly if the headers are strings,
the body is no array and the timeout is less than `10 ^ 21`. -/
theorem validated_accepted_iff (hpy : py.Documented) (form : JobFormState)
    (currentJobId : Option JobId) (h : validateForm js form currentJobId = []) :
    ∃ payload, mutationFn js form currentJobId = .ok payload ∧
      (py.schema_accepts form.action_type payload.received = true ↔ form.Fits js) := by
  obtain ⟨-, -, hhttp, hshell⟩ := validateForm_nil h
  cases htype : form.action_type with
  | http =>
      have hvalid := hhttp htype
      obtain ⟨headers, hheaders⟩ := hvalid.headers
      obtain ⟨body, hbody⟩ := hvalid.body
      refine ⟨_, mutationFn_http h htype hheaders hbody, ?_⟩
      rw [JobFormState.Fits, htype]
      exact http_accepted hpy hvalid.timeout hheaders hbody
  | shell =>
      refine ⟨_, mutationFn_shell h htype, ?_⟩
      rw [JobFormState.Fits, htype]
      exact shell_accepted hpy (hshell htype).timeout

end Schemas

/-- A form with this text for its headers and its body. -/
def example_form (headers body : String) : JobFormState where
  name := "ping"
  cron_expression := "*/5 * * * *"
  action_type := .http
  enabled := true
  concurrency_policy := .allow
  max_retries := "0"
  upstream_job_ids := []
  http := ⟨"POST", "http://localhost/", headers, body, "30"⟩
  shell := ⟨"echo hello from dass", "30"⟩

/-- A form that is accepted by both. -/
theorem example_validated :
    let form := example_form "\x7b\"X\": \"1\"\x7d" "\x7b\"a\": [1.5]\x7d"
    ∃ payload, mutationFn Ecma.plain form none = .ok payload ∧
      (example_cpython.schema_accepts form.action_type payload.received = true ↔
        form.Fits Ecma.plain) :=
  validated_accepted_iff example_documented _ none (by decide +kernel)

/-- A header that is a number is accepted by the form, and not by the schema. -/
theorem numeric_header_rejected : ¬ ∀ (form : JobFormState) (currentJobId : Option JobId),
    validateForm Ecma.plain form currentJobId = [] →
      ∃ payload, mutationFn Ecma.plain form currentJobId = .ok payload ∧
        example_cpython.schema_accepts form.action_type payload.received = true := by
  intro h
  let form := example_form "\x7b\"X\": 1\x7d" ""
  have hrejected : (mutationFn Ecma.plain form none).toOption.any
      (fun payload => example_cpython.schema_accepts .http payload.received) = false := by
    decide +kernel
  obtain ⟨payload, hpayload, haccepts⟩ := h form none (by decide +kernel)
  rw [hpayload] at hrejected
  exact absurd (hrejected.symm.trans haccepts) Bool.false_ne_true

end Dass
