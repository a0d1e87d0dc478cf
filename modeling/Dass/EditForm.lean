/-
# `Dass.EditForm` — opening the form of a job, and saving it as it is

`toFormState` of `frontend/src/app/jobs/_components/job-form-page.tsx` turns a job into text, and
the submission of `Dass.JobForm` turns the text back.  What is compared is what the API is sent
with what it had: the columns, and the runtime spec that is compiled from the `action_config`.

Saving does change a job, wherever text is trimmed or JSON goes through the browser.  `Stable` says
field by field when it does not, and nothing else is asked for (`edit_unchanged_iff`): the command
of an HTTP action shows which of its parts are which, so a change in one part is not made up for by
another one (`arguments_append`).
-/
import Dass.CurlCommand
import Dass.JobForm

namespace Dass

open JsonTree (Tree Trees Members)
open Ecma (trim parseInt stringify)

/-! ## The form of a job -/

/-- `JobRead`, as far as the form shows it. -/
structure JobRead where
  id : JobId
  name : String
  cron_expression : Option String
  action_type : ActionType
  action_config : JsonFields
  enabled : Bool
  concurrency_policy : ConcurrencyPolicy
  max_retries : Nat
  upstream_job_ids : List JobId
  /-- a dict has no key twice -/
  keys : action_config.names.Nodup
  /-- the column is an integer of four bytes -/
  retries : max_retries < 2 ^ 31

/-- `value.key`; `none` is `undefined`. -/
def property (value : Tree) (key : String) : Option Tree :=
  match value with
  | .obj ms => Ecma.get ms.pairs key
  | _ => none

/-- `value ?? fallback` -/
def orElse (value : Option Tree) (fallback : Tree) : Tree :=
  match value with
  | none | some .null => fallback
  | some v => v

/-- `formatJson`; `none` is `undefined`. -/
def formatJson : Option Tree → String
  | none => ""
  | some (.str s) => s
  | some v => stringify v

/-- `job.action_config`, as the browser holds it. -/
def JobRead.config (py : Python) (js : Ecma.Numbers) (job : JobRead) : Tree :=
  js.normal (py.tree (.obj job.action_config))

/-- `toFormState` -/
def toFormState (py : Python) (js : Ecma.Numbers) (job : JobRead) : JobFormState :=
  let actionConfig := job.config py js
  { name := job.name
    cron_expression := job.cron_expression.getD ""
    action_type := job.action_type
    enabled := job.enabled
    concurrency_policy := job.concurrency_policy
    max_retries := Ecma.string (js.integer job.max_retries)
    upstream_job_ids := job.upstream_job_ids
    http :=
      { method := Ecma.string (orElse (property actionConfig "method") (.str "GET"))
        url := Ecma.string (orElse (property actionConfig "url") (.str ""))
        headers := formatJson (some (orElse (property actionConfig "headers") (.obj .nil)))
        body := formatJson (some (orElse (property actionConfig "body") (.str "")))
        timeout_seconds :=
          Ecma.string (orElse (property actionConfig "timeout_seconds") (js.integer 30)) }
    shell :=
      { command := Ecma.string (orElse (property actionConfig "command") (.str ""))
        timeout_seconds :=
          Ecma.string (orElse (property actionConfig "timeout_seconds") (js.integer 30)) } }

section Properties

variable {py : Python} {js : Ecma.Numbers}

theorem JsonFields.get_pairs : (fields : JsonFields) → (key : String) →
    Ecma.get fields.pairs key = fields.get key
  | .nil, _ => rfl
  | .cons name value tail, key => by
      have htail := tail.get_pairs key
      rw [Ecma.get] at htail
      rw [Ecma.get, pairs, List.find?_cons, get]
      by_cases hkey : name = key
      · rw [if_pos hkey, decide_eq_true hkey]
        rfl
      · rw [if_neg hkey, decide_eq_false hkey]
        exact htail

/-- A property of the config is the value of the key, as the browser holds it. -/
theorem property_config (job : JobRead) (key : String) :
    property (job.config py js) key =
      (job.action_config.get key).map fun value => js.normal (py.tree value) := by
  have hover : Ecma.onValues js.normal (Ecma.onValues py.tree job.action_config.pairs) =
      Ecma.onValues (fun value => js.normal (py.tree value)) job.action_config.pairs := List.map_map
  have hnodup : (Ecma.names
      (Ecma.onValues (fun value => js.normal (py.tree value)) job.action_config.pairs)).Nodup := by
    rw [Ecma.names_onValues, JsonFields.names_pairs]
    exact job.keys
  rw [JobRead.config, Python.tree, Ecma.Numbers.normal_obj, Python.pairs_tree, hover, property,
    Members.pairs_ofPairs, Ecma.get_order hnodup, Ecma.get_onValues, JsonFields.get_pairs]

end Properties

/-! ## When nothing changes -/

/-- The payload has what the job has, in the fields that are no text of their own. -/
structure JobWritePayload.Carries (payload : JobWritePayload) (job : JobRead) : Prop where
  action_type : payload.action_type = job.action_type
  enabled : payload.enabled = job.enabled
  concurrency_policy : payload.concurrency_policy = job.concurrency_policy
  max_retries : Json.ofTree (Ecma.encoded payload.max_retries) = .num job.max_retries 0
  upstream_job_ids : payload.upstream_job_ids = job.upstream_job_ids

/-- The object the headers are in. -/
def JsonFields.header_fields (config : JsonFields) : JsonFields :=
  match config.get "headers" with
  | some (.obj headers) => headers
  | _ => .nil

/-- The command of a shell action. -/
def JsonFields.given_command (config : JsonFields) : String := (config.str "command").getD ""

/-- A body that is text is not blank and, where it reads as JSON, is what `json.dumps` writes; a
body that is an object goes through the browser. -/
def Python.BodyStable (py : Python) (js : Ecma.Numbers) : Option Json → Prop
  | some (.str s) => trim s ≠ "" ∧ (startsJson (trim s) = true →
      ∀ v, js.parse (trim s) = some v → py.dumps (.ofTree (Ecma.encoded v)) = s)
  | some (.obj fields) => py.survives js (.obj fields) = true
  | _ => True

/-- What an HTTP action needs for its command to stay. -/
structure JsonFields.HttpStable (py : Python) (js : Ecma.Numbers) (config : JsonFields) : Prop where
  method : py.upper (trim config.given_method) = py.upper config.given_method
  url : trim config.given_url = config.given_url
  /-- the headers stand in the order of the browser, as far as the command shows it -/
  headers : (JsonFields.ofPairs (Ecma.order config.header_fields.pairs)).strings.map header_line =
    config.given_headers.map header_line
  body : py.BodyStable js (config.get "body")

/-- The timeout as the form shows it. -/
def JobRead.timeout_text (py : Python) (js : Ecma.Numbers) (job : JobRead) : String :=
  Ecma.string (orElse (property (job.config py js) "timeout_seconds") (js.integer 30))

/-- The timeout is compiled to what it was. -/
def JobRead.TimeoutKept (py : Python) (js : Ecma.Numbers) (job : JobRead) : Prop :=
  py.int (.ofTree (Ecma.encoded (parsedNumber js (job.timeout_text py js)))) =
    py.timeout_seconds job.action_config

/-- Nothing in the job is changed by the form. -/
structure JobRead.Stable (py : Python) (js : Ecma.Numbers) (job : JobRead) : Prop where
  name : trim job.name = job.name
  cron_expression : ∀ cron, job.cron_expression = some cron → trim cron = cron ∧ cron ≠ ""
  timeout : job.TimeoutKept py js
  http : job.action_type = .http → job.action_config.HttpStable py js
  shell : job.action_type = .shell →
    trim job.action_config.given_command = job.action_config.given_command

/-! ## The command of an HTTP action, part by part -/

/-- Arguments behind a flag each. -/
def arguments (flag : String) (values : List String) : List String :=
  (values.map fun value => (flag, some value)).flatMap Argv.words

/-- Where the flags differ, the arguments can be told apart. -/
theorem arguments_append {f g : String} (hne : f ≠ g) {ss ss' ts ts' : List String}
    (h : arguments f ss ++ arguments g ts = arguments f ss' ++ arguments g ts') :
    ss = ss' ∧ ts = ts' := by
  have hsame : ∀ {us us' : List String}, arguments g us = arguments g us' → us = us' := by
    intro us
    induction us with
    | nil =>
        intro us' heq
        cases us' with
        | nil => rfl
        | cons u us' => cases heq
    | cons u us ih =>
        intro us' heq
        cases us' with
        | nil => cases heq
        | cons u' us' =>
            obtain ⟨-, htail⟩ := List.cons_eq_cons.mp heq
            obtain ⟨hhead, hrest⟩ := List.cons_eq_cons.mp htail
            rw [hhead, ih hrest]
  induction ss generalizing ss' with
  | nil =>
      cases ss' with
      | nil => exact ⟨rfl, hsame h⟩
      | cons s' ss' =>
          cases ts with
          | nil => cases h
          | cons t ts => exact absurd (List.cons_eq_cons.mp h).1.symm hne
  | cons s ss ih =>
      cases ss' with
      | nil =>
          cases ts' with
          | nil => cases h
          | cons t' ts' => exact absurd (List.cons_eq_cons.mp h).1 hne
      | cons s' ss' =>
          obtain ⟨-, htail⟩ := List.cons_eq_cons.mp h
          obtain ⟨hhead, hrest⟩ := List.cons_eq_cons.mp htail
          obtain ⟨hss, hts⟩ := ih hrest
          exact ⟨by rw [hhead, hss], hts⟩

/-- What the command is made of has the types it should have. -/
structure JsonFields.HttpShape (config : JsonFields) : Prop where
  method : config.get "method" = none ∨ ∃ method, config.get "method" = some (.str method)
  url : ∃ url, config.get "url" = some (.str url)
  headers : config.get "headers" = none ∨ ∃ headers, config.get "headers" = some (.obj headers)

theorem Json.isStr_iff {value : Json} : value.isStr = true ↔ ∃ s, value = .str s := by
  cases value with
  | str s => exact ⟨fun _ => ⟨s, rfl⟩, fun _ => rfl⟩
  | null | bool | num | arr | obj =>
      refine ⟨fun h => (by cases h), ?_⟩
      rintro ⟨s, ⟨⟩⟩

/-- An HTTP action that the schema accepts. -/
theorem http_of_accepted {py : Python} {config : JsonFields}
    (h : py.HttpActionConfig config = true) : config.HttpShape ∧
      config.header_fields.all (fun _ value => value.isStr) = true ∧
      acceptsBody (config.get "body") = true := by
  rw [Python.HttpActionConfig, Bool.and_eq_true, Bool.and_eq_true, Bool.and_eq_true,
    Bool.and_eq_true] at h
  obtain ⟨⟨⟨⟨hmethod, hurl⟩, hheaders⟩, hbody⟩, -⟩ := h
  refine ⟨⟨?_, ?_, ?_⟩, ?_, ?_⟩
  · cases hget : config.get "method" with
    | none => exact .inl rfl
    | some method =>
        rw [hget] at hmethod
        obtain ⟨s, rfl⟩ := Json.isStr_iff.mp hmethod
        exact .inr ⟨s, rfl⟩
  · obtain ⟨url, hget, hstr⟩ := (Option.any_eq_true _ _).mp hurl
    obtain ⟨s, rfl⟩ := Json.isStr_iff.mp hstr
    exact ⟨s, hget⟩
  · split at hheaders
    · next hget => exact .inl hget
    · next headers hget => exact .inr ⟨headers, hget⟩
    · cases hheaders
  · rw [JsonFields.header_fields]
    split at hheaders
    · next hget =>
        rw [hget]
        rfl
    · next headers hget =>
        rw [hget]
        exact hheaders
    · cases hheaders
  · cases hget : config.get "body" with
    | none => rfl
    | some body =>
        rw [hget] at hbody
        exact hbody

/-- The command of an HTTP action, put together. -/
theorem http_command_parts (py : Python) {config : JsonFields} (h : config.HttpShape) :
    py.http_command config = some (["curl", "-fsS", "-X", py.upper config.given_method] ++
      (arguments "-H" (config.given_headers.map header_line) ++
        arguments "-d" (py.given_body config).toList) ++ [config.given_url]) := by
  have hheaders : config.headers = arguments "-H" (config.given_headers.map header_line) := by
    rw [config.headers_eq, arguments, List.map_map]
    rfl
  have hbody : py.body_args config = arguments "-d" (py.given_body config).toList :=
    py.body_args_eq config
  obtain ⟨url, hurl⟩ := h.url
  have hstr : config.str "url" = some url := by rw [JsonFields.str, hurl]
  have hgiven : config.given_url = url := by rw [JsonFields.given_url, hstr]; rfl
  rw [Python.http_command, hstr, hheaders, hbody, hgiven, JsonFields.given_method,
    ← List.append_assoc]
  rcases h.method with hnone | ⟨method, hget⟩
  · rw [hnone]
    rfl
  · have hmethod : config.str "method" = some method := by rw [JsonFields.str, hget]
    rw [hget, hmethod]
    rfl

/-- Two commands are the same exactly if their parts are. -/
theorem command_eq_iff {a a' u u' : String} {hs hs' bs bs' : List String} :
    ["curl", "-fsS", "-X", a] ++ (arguments "-H" hs ++ arguments "-d" bs) ++ [u] =
        ["curl", "-fsS", "-X", a'] ++ (arguments "-H" hs' ++ arguments "-d" bs') ++ [u'] ↔
      a = a' ∧ hs = hs' ∧ bs = bs' ∧ u = u' := by
  constructor
  · intro h
    obtain ⟨hfront, hlast⟩ := List.append_inj' h rfl
    obtain ⟨hstart, hparts⟩ := List.append_inj hfront rfl
    obtain ⟨hheaders, hbody⟩ := arguments_append (by decide +kernel) hparts
    simp only [List.cons.injEq, true_and, and_true] at hstart hlast
    exact ⟨hstart, hheaders, hbody, hlast⟩
  · rintro ⟨rfl, rfl, rfl, rfl⟩
    rfl

/-! ## What the form shows of an HTTP action -/

section Shown

variable {py : Python} {js : Ecma.Numbers} {job : JobRead}

theorem shown_method (h : job.action_config.HttpShape) :
    (toFormState py js job).http.method = job.action_config.given_method := by
  show Ecma.string (orElse (property (job.config py js) "method") (.str "GET")) = _
  rw [property_config, JsonFields.given_method, JsonFields.str]
  rcases h.method with hnone | ⟨method, hget⟩
  · rw [hnone]
    rfl
  · rw [hget]
    rfl

theorem shown_url (h : job.action_config.HttpShape) :
    (toFormState py js job).http.url = job.action_config.given_url := by
  obtain ⟨url, hget⟩ := h.url
  show Ecma.string (orElse (property (job.config py js) "url") (.str "")) = _
  rw [property_config, JsonFields.given_url, JsonFields.str, hget]
  rfl

/-- An object is shown as its text. -/
theorem formatJson_obj (fields : JsonFields) :
    formatJson (some (js.normal (py.tree (.obj fields)))) =
      stringify (js.normal (py.tree (.obj fields))) := by
  rw [Python.tree, Ecma.Numbers.normal]
  rfl

theorem shown_headers (h : job.action_config.HttpShape) :
    (toFormState py js job).http.headers =
      stringify (js.normal (py.tree (.obj job.action_config.header_fields))) := by
  rw [← formatJson_obj]
  show formatJson (some (orElse (property (job.config py js) "headers") (.obj .nil))) = _
  rw [property_config, JsonFields.header_fields]
  rcases h.headers with hnone | ⟨headers, hget⟩
  · rw [hnone]
    rfl
  · rw [hget]
    rfl

/-- The text of a body in the form. -/
def shownBody (py : Python) (js : Ecma.Numbers) : Option Json → String
  | some (.str s) => s
  | some (.obj fields) => stringify (js.normal (py.tree (.obj fields)))
  | _ => ""

theorem shown_body (hbody : acceptsBody (job.action_config.get "body") = true) :
    (toFormState py js job).http.body = shownBody py js (job.action_config.get "body") := by
  show formatJson (some (orElse (property (job.config py js) "body") (.str ""))) = _
  rw [property_config]
  cases hget : job.action_config.get "body" with
  | none => rfl
  | some body =>
      rw [hget] at hbody
      cases body with
      | null => rfl
      | str s => rfl
      | obj fields => exact formatJson_obj fields
      | bool | num | arr => cases hbody

/-! ### The text of an object is parsed again -/

/-- The members an object has in the browser, once it was written. -/
def throughMembers (py : Python) (js : Ecma.Numbers) (fields : JsonFields) : Members :=
  .ofPairs (Ecma.order (Ecma.onValues js.through (py.tree_fields fields).pairs))

theorem through_tree (fields : JsonFields) :
    js.through (py.tree (.obj fields)) = .obj (throughMembers py js fields) := by
  rw [Python.tree, Ecma.Numbers.through_obj]
  rfl

/-- The text begins with a brace, has nothing around it and is read to what goes through. -/
theorem stringify_tree (py : Python) (js : Ecma.Numbers) (fields : JsonFields) (text : String)
    (h : stringify (js.normal (py.tree (.obj fields))) = text) :
    text.toList.head? = some '\x7b' ∧ trim text = text ∧
      js.parse text = some (.obj (throughMembers py js fields)) := by
  have hparse : js.parse (stringify (js.normal (py.tree (.obj fields)))) =
      some (js.through (py.tree (.obj fields))) := Ecma.Numbers.parse_stringify _
  rw [h, through_tree] at hparse
  have hobj : ∃ ms, js.normal (py.tree (.obj fields)) = .obj ms := by
    rw [Python.tree, Ecma.Numbers.normal]
    exact ⟨_, rfl⟩
  obtain ⟨ms, hms⟩ := hobj
  have htext := Ecma.stringify_obj ms
  rw [← hms, h] at htext
  exact ⟨htext.1, htext.2, hparse⟩

theorem ne_empty_of_head {text : String} {c : Char} (h : text.toList.head? = some c) :
    text ≠ "" := by
  rintro rfl
  cases h

theorem parseJsonObject_tree (fields : JsonFields) (fieldLabel : String) :
    parseJsonObject js (stringify (js.normal (py.tree (.obj fields)))) fieldLabel =
      .ok (throughMembers py js fields) := by
  obtain ⟨hhead, htrim, hparse⟩ := stringify_tree py js fields _ rfl
  simp only [parseJsonObject, htrim, if_neg (ne_empty_of_head hhead), hparse]

theorem parseBody_tree (fields : JsonFields) :
    parseBody js (stringify (js.normal (py.tree (.obj fields)))) =
      .ok (some (.obj (throughMembers py js fields))) := by
  obtain ⟨hhead, htrim, hparse⟩ := stringify_tree py js fields _ rfl
  have hstarts : startsJson (stringify (js.normal (py.tree (.obj fields)))) = true := by
    rw [startsJson, hhead]
    rfl
  simp only [parseBody, htrim, if_neg (ne_empty_of_head hhead), hstarts, if_true, hparse]

/-- What the API reads of it is what the browser returns. -/
theorem encoded_throughMembers (fields : JsonFields) :
    Json.ofTree (Ecma.encoded (.obj (throughMembers py js fields))) =
      py.returned js (.obj fields) := by
  rw [← through_tree]
  exact congrArg Json.ofTree (Ecma.encoded_encoded _)

end Shown

/-! ## Part by part -/

section Parts

variable {py : Python} {js : Ecma.Numbers} {job : JobRead}

theorem onValues_strings {f : Json → Json} (hf : ∀ s, f (.str s) = .str s) {fields : JsonFields}
    (h : fields.all (fun _ value => value.isStr) = true) :
    Ecma.onValues f fields.pairs = fields.pairs := by
  rw [JsonFields.all_pairs] at h
  refine (List.map_congr_left fun p hp => ?_).trans (List.map_id _)
  obtain ⟨s, hs⟩ := Json.isStr_iff.mp (h p hp)
  rw [hs, hf, ← hs]
  rfl

/-- Headers come back in the order of the browser. -/
theorem received_headers {fields : JsonFields}
    (h : fields.all (fun _ value => value.isStr) = true) :
    receivedFields (throughMembers py js fields) = .ofPairs (Ecma.order fields.pairs) := by
  have hover : Ecma.onValues Json.ofTree (Ecma.onValues Ecma.encoded (Ecma.onValues js.through
      (Ecma.onValues py.tree fields.pairs))) = fields.pairs := by
    have hstrings := onValues_strings
      (f := fun value => Json.ofTree (Ecma.encoded (js.through (py.tree value))))
      (fun _ => rfl) h
    refine Eq.trans ?_ hstrings
    simp only [Ecma.onValues, List.map_map]
    rfl
  rw [← (receivedFields (throughMembers py js fields)).ofPairs_pairs, receivedFields,
    JsonFields.pairs_ofMembers, Ecma.pairs_encoded, throughMembers, Members.pairs_ofPairs,
    Python.pairs_tree, ← Ecma.order_onValues, ← Ecma.order_onValues, hover]

/-- A body that is text. -/
theorem given_body_text {s : String} {body : Option Tree} {sent : JsonFields}
    (hsent : sent.get "body" = body.map fun v => .ofTree (Ecma.encoded v))
    (h : parseBody js s = .ok body) :
    py.given_body sent = some s ↔ py.BodyStable js (some (.str s)) := by
  show _ ↔ trim s ≠ "" ∧ (startsJson (trim s) = true → _)
  rw [Python.given_body, hsent]
  rw [parseBody] at h
  split at h
  · next hempty =>
      cases h
      exact ⟨fun hnone => (by cases hnone), fun hstable => absurd hempty hstable.1⟩
  · next hempty =>
      split at h
      · next hstarts =>
          split at h
          · cases h
          · next v hparse =>
              cases h
              have hdumps : py.dumps (.ofTree (Ecma.encoded v)) = s ↔ trim s ≠ "" ∧
                  (startsJson (trim s) = true → ∀ w, js.parse (trim s) = some w →
                    py.dumps (.ofTree (Ecma.encoded w)) = s) := by
                constructor
                · intro hdumps
                  refine ⟨hempty, fun _ w hw => ?_⟩
                  rw [hparse] at hw
                  cases hw
                  exact hdumps
                · exact fun hstable => hstable.2 hstarts _ hparse
              rw [← hdumps, Option.map_some]
              have hobject := isObject_of_parse hstarts hparse
              split at hobject
              · obtain ⟨vs, rfl⟩ := hobject
                exact Option.some_inj
              · obtain ⟨ms, rfl⟩ := hobject
                exact Option.some_inj
      · next hstarts =>
          cases h
          exact iff_of_true rfl ⟨hempty, fun hstarts' => absurd hstarts' hstarts⟩

/-- The body that is sent makes the same argument exactly if it is stable. -/
theorem given_body_iff (hpy : py.Documented) {held sent : JsonFields} {body : Option Tree}
    (haccepts : acceptsBody (held.get "body") = true)
    (hsent : sent.get "body" = body.map fun v => .ofTree (Ecma.encoded v))
    (h : parseBody js (shownBody py js (held.get "body")) = .ok body) :
    py.given_body sent = py.given_body held ↔ py.BodyStable js (held.get "body") := by
  have hblank : parseBody js "" = .ok none := by
    have htrim : trim "" = "" := by decide +kernel
    simp only [parseBody, htrim, if_true]
  have hnone : parseBody js "" = .ok body → (py.given_body sent = none ↔ True) := by
    intro hempty
    rw [hblank] at hempty
    cases hempty
    rw [Python.given_body, hsent]
    exact iff_of_true rfl trivial
  cases hget : held.get "body" with
  | none =>
      have hheld : py.given_body held = none := by rw [Python.given_body, hget]
      rw [hget] at h
      rw [hheld]
      exact hnone h
  | some value =>
      rw [hget] at h haccepts
      cases value with
      | null =>
          have hheld : py.given_body held = none := by rw [Python.given_body, hget]
          rw [hheld]
          exact hnone h
      | bool | num | arr => cases haccepts
      | str s =>
          have hheld : py.given_body held = some s := by rw [Python.given_body, hget]
          rw [hheld]
          exact given_body_text hsent h
      | obj fields =>
          have hheld : py.given_body held = some (py.dumps (.obj fields)) := by
            rw [Python.given_body, hget]
          have hparse : parseBody js (shownBody py js (some (.obj fields))) = _ :=
            parseBody_tree fields
          rw [hparse] at h
          cases h
          rw [Option.map_some, encoded_throughMembers] at hsent
          obtain ⟨fields', hfields⟩ : ∃ fields', py.returned js (.obj fields) = .obj fields' :=
            ⟨_, encoded_throughMembers fields |>.symm⟩
          have hgiven : py.given_body sent = some (py.dumps (.obj fields')) := by
            rw [Python.given_body, hsent, hfields]
          rw [hgiven, hheld, Option.some_inj, ← hfields, Python.dumps_tree hpy]
          exact (Python.survives_iff (.obj fields)).symm

theorem toList_eq_iff {a b : Option String} : a.toList = b.toList ↔ a = b := by
  cases a <;> cases b <;> simp

theorem received_shape (http : HttpForm) (headers : Members) (body : Option Tree) :
    (receivedFields (httpConfig js http headers body)).HttpShape := by
  obtain ⟨hmethod, hurl, hheaders, -, -⟩ := received_httpConfig js http headers body _ rfl
  exact ⟨.inr ⟨_, hmethod⟩, ⟨_, hurl⟩, .inr ⟨_, hheaders⟩⟩

/-- **The command of an HTTP action stays** exactly if its parts are stable. -/
theorem http_command_iff (hpy : py.Documented) (haccepts : py.HttpActionConfig job.action_config)
    (hvalid : (toFormState py js job).http.Valid js) {headers : Members} {body : Option Tree}
    (hheaders : parseJsonObject js (toFormState py js job).http.headers "http_headers" =
      .ok headers)
    (hbody : parseBody js (toFormState py js job).http.body = .ok body) :
    py.http_command (receivedFields (httpConfig js (toFormState py js job).http headers body)) =
        py.http_command job.action_config ↔
      job.action_config.HttpStable py js := by
  obtain ⟨hshape, hstrings, haccepted⟩ := http_of_accepted haccepts
  have hmethodValid := hvalid.method
  rw [shown_method hshape] at hmethodValid
  rw [shown_headers hshape, parseJsonObject_tree] at hheaders
  rw [shown_body haccepted] at hbody
  cases hheaders
  have hsentShape : (receivedFields (httpConfig js (toFormState py js job).http
      (throughMembers py js job.action_config.header_fields) body)).HttpShape := received_shape ..
  generalize hsent : receivedFields (httpConfig js (toFormState py js job).http
    (throughMembers py js job.action_config.header_fields) body) = sent at hsentShape
  obtain ⟨hmethod, hurl, hheaders, hbodyGet, -⟩ := received_httpConfig js _ _ _ _ hsent
  rw [shown_method hshape, if_neg hmethodValid] at hmethod
  rw [shown_url hshape] at hurl
  rw [received_headers hstrings] at hheaders
  have hgivenMethod : sent.given_method = trim job.action_config.given_method := by
    rw [JsonFields.given_method, JsonFields.str, hmethod]
    rfl
  have hgivenUrl : sent.given_url = trim job.action_config.given_url := by
    rw [JsonFields.given_url, JsonFields.str, hurl]
    rfl
  have hgivenHeaders : sent.given_headers =
      (JsonFields.ofPairs (Ecma.order job.action_config.header_fields.pairs)).strings := by
    rw [JsonFields.given_headers, hheaders]
  rw [http_command_parts py hsentShape, http_command_parts py hshape, Option.some_inj,
    command_eq_iff, hgivenMethod, hgivenUrl, hgivenHeaders, toList_eq_iff,
    given_body_iff hpy haccepted hbodyGet hbody]
  constructor
  · rintro ⟨hmethodSame, hheadersSame, hbodyStable, hurlSame⟩
    exact ⟨hmethodSame, hurlSame, hheadersSame, hbodyStable⟩
  · intro hstable
    exact ⟨hstable.method, hstable.headers, hstable.body, hstable.url⟩

/-- A shell action that the schema accepts. -/
theorem command_of_accepted {config : JsonFields} (h : py.ShellActionConfig config = true) :
    ∃ command, config.get "command" = some (.str command) := by
  rw [Python.ShellActionConfig, Bool.and_eq_true] at h
  obtain ⟨value, hget, hstr⟩ := (Option.any_eq_true _ _).mp h.1
  obtain ⟨command, rfl⟩ := Json.isStr_iff.mp hstr
  exact ⟨command, hget⟩

/-- **The command of a shell action stays** exactly if it has no blanks around it. -/
theorem shell_command_iff (js : Ecma.Numbers)
    (haccepts : py.ShellActionConfig job.action_config) :
    (receivedFields (shellConfig js (toFormState py js job).shell)).shell_command =
        job.action_config.shell_command ↔
      trim job.action_config.given_command = job.action_config.given_command := by
  obtain ⟨command, hget⟩ := command_of_accepted haccepts
  have hshown : (toFormState py js job).shell.command = command := by
    show Ecma.string (orElse (property (job.config py js) "command") (.str "")) = _
    rw [property_config, hget]
    rfl
  generalize hsent : receivedFields (shellConfig js (toFormState py js job).shell) = sent
  obtain ⟨hcommand, -⟩ := received_shellConfig js _ _ hsent
  rw [hshown] at hcommand
  have hsentStr : sent.str "command" = some (trim command) := by rw [JsonFields.str, hcommand]
  have hstr' : job.action_config.str "command" = some command := by rw [JsonFields.str, hget]
  have hgiven : job.action_config.given_command = command := by
    rw [JsonFields.given_command, hstr']
    rfl
  rw [JsonFields.shell_command, JsonFields.shell_command, hsentStr, hstr', hgiven]
  show some ["sh", "-c", trim command] = some ["sh", "-c", command] ↔ _
  simp only [Option.some.injEq, List.cons.injEq, true_and, and_true]

/-! ### The spec -/

theorem ofStrings_injective : {ss ts : List String} →
    JsonItems.ofStrings ss = .ofStrings ts → ss = ts
  | [], [], _ => rfl
  | [], _ :: _, h => by cases h
  | _ :: _, [], h => by cases h
  | s :: ss, t :: ts, h => by
      rw [JsonItems.ofStrings, JsonItems.ofStrings, JsonItems.cons.injEq, Json.str.injEq] at h
      rw [h.1, ofStrings_injective h.2]

theorem runtime_spec_injective {image image' : String} {command command' : List String}
    {timeout timeout' : Int}
    (h : runtime_spec image command timeout = runtime_spec image' command' timeout') :
    image = image' ∧ command = command' ∧ timeout = timeout' := by
  simp only [runtime_spec, Json.obj.injEq, JsonFields.cons.injEq, true_and, Json.str.injEq,
    Json.arr.injEq, Json.num.injEq, and_true] at h
  exact ⟨h.1, ofStrings_injective h.2.1, h.2.2⟩

/-- A spec is the action and the timeout. -/
theorem build_eq_iff {action_type : ActionType} {sent held : JsonFields}
    (hsent : ∃ action, py.action action_type sent = some action)
    (hheld : ∃ action, py.action action_type held = some action)
    (htimeout : ∃ timeout, py.timeout_seconds sent = some timeout) :
    py._build_runtime_spec true action_type (.obj sent) =
        py._build_runtime_spec true action_type (.obj held) ↔
      py.action action_type sent = py.action action_type held ∧
        py.timeout_seconds sent = py.timeout_seconds held := by
  have hallowed : ¬ (action_type = .shell ∧ true = false) := fun h => Bool.noConfusion h.2
  obtain ⟨action, hsent⟩ := hsent
  obtain ⟨action', hheld⟩ := hheld
  obtain ⟨timeout, htimeout⟩ := htimeout
  rw [Python._build_runtime_spec, Python._build_runtime_spec, if_neg hallowed, if_neg hallowed,
    hsent, hheld, htimeout]
  constructor
  · intro h
    cases hother : py.timeout_seconds held with
    | none =>
        rw [hother] at h
        cases h
    | some timeout' =>
        rw [hother] at h
        obtain ⟨himage, hcommand, htime⟩ := runtime_spec_injective (Except.ok.inj h)
        exact ⟨congrArg some (Prod.ext himage hcommand), congrArg some htime⟩
  · rintro ⟨haction, htime⟩
    rw [← htime, ← Option.some.inj haction]

/-- The timeout of the form is a number for Python. -/
theorem sent_timeout (py : Python) {timeout_seconds : String}
    (h : isInteger js 1 (parseInt timeout_seconds) = true) :
    ∃ n, py.int (.ofTree (Ecma.encoded (parsedNumber js timeout_seconds))) = some n := by
  obtain ⟨n, m, -, -, -, hreceived⟩ := received_parsed h
  rcases hreceived with ⟨-, htree⟩ | ⟨-, k, e, -, htree⟩
  · rw [htree]
    exact ⟨_, rfl⟩
  · rw [htree]
    exact ⟨_, rfl⟩

/-! ### The columns -/

theorem integer_small {n : Nat} (h : n ≤ 2 ^ 53) : js.integer n = .num (Nat.toDigits 10 n) := by
  have hlt : n < 10 ^ 21 := h.trans_lt (by decide)
  rw [js.integer_ofNat, js.small n n (js.whole n h) hlt]

theorem string_integer {n : Nat} (h : n ≤ 2 ^ 53) :
    parseInt (Ecma.string (js.integer n)) = some (n : Int) := by
  rw [integer_small h]
  exact Ecma.parseInt_toDigits n

/-- A small integer that is shown is read as itself. -/
theorem received_integer {n : Nat} (h : n ≤ 2 ^ 53) :
    Json.ofTree (Ecma.encoded (parsedNumber js (Ecma.string (js.integer n)))) = .num n 0 := by
  have hlt : n < 10 ^ 21 := h.trans_lt (by decide)
  rw [parsedNumber, string_integer h]
  dsimp only
  rw [integer_small h, ofTree_digits hlt]

theorem retries_sent (job : JobRead) :
    Json.ofTree (Ecma.encoded (finiteNumber js (Ecma.string (js.integer job.max_retries)))) =
      .num job.max_retries 0 := by
  have hsmall : job.max_retries ≤ 2 ^ 53 := job.retries.le.trans (by decide)
  have hfinite : js.finite job.max_retries = true := by
    rw [Ecma.Numbers.finite, Int.natAbs_natCast, js.whole _ hsmall]
    rfl
  rw [finiteNumber, string_integer hsmall, Option.any_some, hfinite, if_pos rfl]
  exact received_integer hsmall

/-- A timeout that is left out, or is an integer up to `2 ^ 53`, is kept. -/
theorem timeoutKept_of_small (h : job.action_config.get "timeout_seconds" = none ∨
    ∃ n : Nat, n ≤ 2 ^ 53 ∧ job.action_config.get "timeout_seconds" = some (.num n 0)) :
    job.TimeoutKept py js := by
  rw [JobRead.TimeoutKept, JobRead.timeout_text, property_config, Python.timeout_seconds]
  rcases h with hnone | ⟨n, hn, hget⟩
  · have hdefault : Json.ofTree (Ecma.encoded (parsedNumber js (Ecma.string (js.integer 30)))) =
        .num 30 0 := received_integer (by decide)
    rw [hnone]
    exact congrArg py.int hdefault
  · have hshown : js.normal (py.tree (.num n 0)) = js.integer n := rfl
    rw [hget, Option.map_some, hshown]
    refine (congrArg py.int (received_integer hn)).trans ?_
    rfl

theorem cron_kept {cron_expression : Option String} :
    normalizeCronExpression (cron_expression.getD "") = cron_expression ↔
      ∀ cron, cron_expression = some cron → trim cron = cron ∧ cron ≠ "" := by
  cases cron_expression with
  | none =>
      have hempty : normalizeCronExpression "" = none := by decide +kernel
      exact iff_of_true hempty fun _ h => by cases h
  | some cron =>
      show (if trim cron = "" then none else some (trim cron)) = some cron ↔ _
      constructor
      · intro h other hother
        cases hother
        split at h
        · cases h
        · next hne =>
            have htrim := Option.some.inj h
            exact ⟨htrim, htrim ▸ hne⟩
      · intro h
        obtain ⟨htrim, hne⟩ := h cron rfl
        rw [htrim, if_neg hne]

theorem payloadOf_received (form : JobFormState) (config : Members) :
    (payloadOf js form config).received = .obj (receivedFields config) := rfl

theorem payloadOf_type (job : JobRead) (config : Members) :
    (payloadOf js (toFormState py js job) config).action_type = job.action_type := rfl

theorem payloadOf_name (job : JobRead) (config : Members) :
    (payloadOf js (toFormState py js job) config).name = job.name ↔ trim job.name = job.name :=
  Iff.rfl

theorem payloadOf_cron (job : JobRead) (config : Members) :
    (payloadOf js (toFormState py js job) config).cron_expression = job.cron_expression ↔
      ∀ cron, job.cron_expression = some cron → trim cron = cron ∧ cron ≠ "" := by
  simp only [payloadOf, toFormState]
  exact cron_kept

theorem payloadOf_carries (job : JobRead) (config : Members) :
    (payloadOf js (toFormState py js job) config).Carries job where
  action_type := rfl
  enabled := rfl
  concurrency_policy := rfl
  max_retries := retries_sent job
  upstream_job_ids := rfl

/-! ### A job that was opened and saved -/

theorem http_action_some (py : Python) {config : JsonFields} (h : config.HttpShape) :
    ∃ action, py.action .http config = some action :=
  ⟨_, congrArg (Option.map (_HTTP_IMAGE, ·)) (http_command_parts py h)⟩

theorem shell_action_some (py : Python) {config : JsonFields} {command : String}
    (h : config.get "command" = some (.str command)) :
    ∃ action, py.action .shell config = some action := by
  have hstr : config.str "command" = some command := by rw [JsonFields.str, h]
  refine ⟨(_SHELL_IMAGE, ["sh", "-c", command]), ?_⟩
  rw [Python.action, JsonFields.shell_command, hstr]
  rfl

theorem action_eq_iff (image : String) {command command' : Option (List String)} :
    command.map (image, ·) = command'.map (image, ·) ↔ command = command' := by
  constructor
  · intro h
    refine Option.map_injective (fun _ _ heq => ?_) h
    exact congrArg Prod.snd heq
  · intro h
    rw [h]

theorem timeout_of_get (py : Python) {config : JsonFields} {value : Json}
    (h : config.get "timeout_seconds" = some value) :
    py.timeout_seconds config = py.int value := by
  rw [Python.timeout_seconds, h]

theorem http_unchanged_iff (hpy : py.Documented) (haccepts : py.HttpActionConfig job.action_config)
    (hvalid : (toFormState py js job).http.Valid js) {headers : Members} {body : Option Tree}
    (hheaders : parseJsonObject js (toFormState py js job).http.headers "http_headers" =
      .ok headers)
    (hbody : parseBody js (toFormState py js job).http.body = .ok body) :
    py._build_runtime_spec true .http (.obj (receivedFields
          (httpConfig js (toFormState py js job).http headers body))) =
        py._build_runtime_spec true .http (.obj job.action_config) ↔
      job.action_config.HttpStable py js ∧ job.TimeoutKept py js := by
  obtain ⟨-, -, -, -, hget⟩ :=
    received_httpConfig js (toFormState py js job).http headers body _ rfl
  have htimeout := timeout_of_get py hget
  have hsome := sent_timeout py hvalid.timeout
  rw [← htimeout] at hsome
  have hbuild := build_eq_iff (http_action_some py (received_shape _ headers body))
    (http_action_some py (http_of_accepted haccepts).1) hsome
  have hcommand := (action_eq_iff _HTTP_IMAGE).trans
    (http_command_iff hpy haccepts hvalid hheaders hbody)
  exact hbuild.trans (and_congr hcommand (Eq.congr_left htimeout))

theorem shell_unchanged_iff (haccepts : py.ShellActionConfig job.action_config)
    (hvalid : (toFormState py js job).shell.Valid js) :
    py._build_runtime_spec true .shell (.obj (receivedFields
          (shellConfig js (toFormState py js job).shell))) =
        py._build_runtime_spec true .shell (.obj job.action_config) ↔
      trim job.action_config.given_command = job.action_config.given_command ∧
        job.TimeoutKept py js := by
  obtain ⟨hcommand, hget⟩ := received_shellConfig js (toFormState py js job).shell _ rfl
  have htimeout := timeout_of_get py hget
  have hsome := sent_timeout py hvalid.timeout
  rw [← htimeout] at hsome
  obtain ⟨command, hheld⟩ := command_of_accepted haccepts
  have hbuild := build_eq_iff (shell_action_some py hcommand) (shell_action_some py hheld) hsome
  have hcommands := (action_eq_iff _SHELL_IMAGE).trans (shell_command_iff js haccepts)
  exact hbuild.trans (and_congr hcommands (Eq.congr_left htimeout))

/-- **Opening the form of a job and saving it changes nothing** exactly if the job is stable. -/
theorem edit_unchanged_iff (hpy : py.Documented) (job : JobRead)
    (haccepts : py.schema_accepts job.action_type (.obj job.action_config) = true)
    (h : validateForm js (toFormState py js job) (some job.id) = []) :
    ∃ payload, mutationFn js (toFormState py js job) (some job.id) = .ok payload ∧
      payload.Carries job ∧
      (payload.name = job.name ∧ payload.cron_expression = job.cron_expression ∧
        py._build_runtime_spec true payload.action_type payload.received =
          py._build_runtime_spec true job.action_type (.obj job.action_config) ↔
        job.Stable py js) := by
  obtain ⟨-, -, hhttp, hshell⟩ := validateForm_nil h
  cases htype : job.action_type with
  | http =>
      rw [htype] at haccepts
      have hvalid := hhttp htype
      obtain ⟨headers, hheaders⟩ := hvalid.headers
      obtain ⟨body, hbody⟩ := hvalid.body
      have hspec := http_unchanged_iff hpy haccepts hvalid hheaders hbody
      refine ⟨_, mutationFn_http h htype hheaders hbody, payloadOf_carries job _, ?_⟩
      rw [payloadOf_name, payloadOf_cron, payloadOf_type, payloadOf_received, htype, hspec]
      constructor
      · rintro ⟨hname, hcron, hstable, htimeout⟩
        refine ⟨hname, hcron, htimeout, fun _ => hstable, fun hother => ?_⟩
        cases htype.symm.trans hother
      · intro hstable
        exact ⟨hstable.name, hstable.cron_expression, hstable.http htype, hstable.timeout⟩
  | shell =>
      rw [htype] at haccepts
      have hspec := shell_unchanged_iff haccepts (hshell htype)
      refine ⟨_, mutationFn_shell h htype, payloadOf_carries job _, ?_⟩
      rw [payloadOf_name, payloadOf_cron, payloadOf_type, payloadOf_received, htype, hspec]
      constructor
      · rintro ⟨hname, hcron, hcommand, htimeout⟩
        refine ⟨hname, hcron, htimeout, fun hother => ?_, fun _ => hcommand⟩
        cases htype.symm.trans hother
      · intro hstable
        exact ⟨hstable.name, hstable.cron_expression, hstable.shell htype, hstable.timeout⟩

end Parts

/-- A job with this action. -/
def example_read (action_type : ActionType) (action_config : JsonFields)
    (keys : action_config.names.Nodup) : JobRead where
  id := 1
  name := "ping"
  cron_expression := some "*/5 * * * *"
  action_type := action_type
  action_config := action_config
  enabled := true
  concurrency_policy := .forbid
  max_retries := 3
  upstream_job_ids := [2]
  keys := keys
  retries := by decide

/-- A config with headers and a body. -/
def example_http : JsonFields :=
  .cons "url" (.str "http://localhost/")
    (.cons "headers" (.obj (.cons "X" (.str "1") .nil))
      (.cons "body" (.obj (.cons "a" (.arr (.cons (.num 1 0) .nil)) .nil))
        (.cons "timeout_seconds" (.num 30 0) .nil)))

theorem example_edited :
    let job := example_read .http example_http (by decide +kernel)
    ∃ payload, mutationFn Ecma.plain (toFormState example_cpython Ecma.plain job) (some job.id) =
        .ok payload ∧
      payload.Carries job ∧
      (payload.name = job.name ∧ payload.cron_expression = job.cron_expression ∧
        example_cpython._build_runtime_spec true payload.action_type payload.received =
          example_cpython._build_runtime_spec true job.action_type (.obj job.action_config) ↔
        job.Stable example_cpython Ecma.plain) :=
  edit_unchanged_iff example_documented (example_read .http example_http (by decide +kernel))
    (by decide +kernel) (by decide +kernel)

/-- A command with a line break behind it. -/
def example_shell : JsonFields := .cons "command" (.str "echo hello\n") .nil

/-- The command of a job that was only looked at loses the line break. -/
theorem line_break_lost : ¬ ∀ job : JobRead,
    example_cpython.schema_accepts job.action_type (.obj job.action_config) = true →
    validateForm Ecma.plain (toFormState example_cpython Ecma.plain job) (some job.id) = [] →
    ∃ payload, mutationFn Ecma.plain (toFormState example_cpython Ecma.plain job)
        (some job.id) = .ok payload ∧
      payload.Carries job ∧ payload.name = job.name ∧
      payload.cron_expression = job.cron_expression ∧
      example_cpython._build_runtime_spec true payload.action_type payload.received =
        example_cpython._build_runtime_spec true job.action_type (.obj job.action_config) := by
  intro h
  let job := example_read .shell example_shell (by decide +kernel)
  have haccepts : example_cpython.ShellActionConfig job.action_config = true := by decide +kernel
  have hvalid : validateForm Ecma.plain (toFormState example_cpython Ecma.plain job)
      (some job.id) = [] := by decide +kernel
  obtain ⟨payload, hpayload, -, -, -, hspec⟩ := h job haccepts hvalid
  rw [mutationFn_shell hvalid rfl] at hpayload
  cases hpayload
  obtain ⟨-, -, -, hshell⟩ := validateForm_nil hvalid
  obtain ⟨htrim, -⟩ := (shell_unchanged_iff haccepts (hshell rfl)).mp hspec
  exact absurd htrim (by decide +kernel)

end Dass
