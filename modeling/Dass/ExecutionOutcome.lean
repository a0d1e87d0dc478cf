/-
# `Dass.ExecutionOutcome` — the two ways to run a container

`run` and `run_async` of `backend/app/services/execution_service.py` start the same command,
with `subprocess.run(…, text=True)` and with `asyncio.create_subprocess_exec`.  They report the
same of a command that is not built, of one that does not start and of one that is not over in
time.  Of one that exits they may not (`executors_agree_iff`): `text=True` decodes strictly and
translates line ends, `decode(errors="replace")` does neither, and what the strict decoder
raises is reported as a failure of the container.

Nor do they take the same timeouts.  `subprocess.run` waits in one `poll`, whose milliseconds
are a C `int`, and raises where they do not fit; the event loop waits in slices, and raises only
where the seconds are no double.

`run` is never the more hopeful one: where it reports a success, `run_async` does
(`run_async_of_run`).
-/
import Dass.DockerCommand
import Dass.Lib.Utf8
import Dass.WorkerService
import Mathlib.Algebra.Group.Nat.Defs
import Mathlib.Algebra.Ring.Int.Defs

namespace Dass

open Utf8

/-! ## What is reported, and of what -/

/-- `ExecutionResult`, with its exit code. -/
structure ExecutionReport extends ExecutionResult where
  exit_code : Option Int

/-- What becomes of the process: how it ends, and what it has written by then. -/
inductive Child where
  | no_start (error : String)
  | exits (code : Int) (stdout stderr : List UInt8)
  | overruns (stdout stderr : List UInt8)

/-- A report without an exit code. -/
def ExecutionReport.failure (stdout stderr : String) : ExecutionReport :=
  ⟨⟨false, some stdout, some stderr⟩, none⟩

/-- The report of a container that is not over in time. -/
def timed_out_text (timeout_seconds : Int) : String :=
  "Container execution timed out after " ++ toString timeout_seconds ++ "s"

/-! ## Timeouts that are too long -/

/-- The least number that rounds to no double. -/
@[irreducible] def double_overflow : Nat := 2 ^ 1024 - 2 ^ 970

/-- No double is near the number: `float` of it raises. -/
def TooLarge (n : Int) : Prop := double_overflow ≤ n.natAbs

instance decidableTooLarge (n : Int) : Decidable (TooLarge n) :=
  inferInstanceAs (Decidable (double_overflow ≤ n.natAbs))

/-- What waiting for the seconds in one `poll` raises: adding them to the clock, or making
milliseconds, a time and a C `int` of what remains. -/
def poll_error (timeout_seconds : Int) : Option String :=
  if TooLarge timeout_seconds then some "int too large to convert to float"
  else if timeout_seconds * 1000 < 2 ^ 31 then none
  else if timeout_seconds * 10 ^ 9 < 2 ^ 63 then some "timeout is too large"
  else if ¬ TooLarge (timeout_seconds * 1000) then
    some "timestamp too large to convert to C _PyTime_t"
  else some "cannot convert float infinity to integer"

/-- What waiting for them on the event loop raises, which adds only what is positive to its
clock. -/
def wait_for_error (timeout_seconds : Int) : Option String :=
  if 0 < timeout_seconds ∧ TooLarge timeout_seconds then
    some "int too large to convert to float"
  else none

/-- `subprocess.run` can wait so long. -/
def Waitable (timeout_seconds : Int) : Prop :=
  ¬ TooLarge timeout_seconds ∧ timeout_seconds * 1000 < 2 ^ 31

/-- Neither of the two can. -/
def NoDouble (timeout_seconds : Int) : Prop :=
  0 < timeout_seconds ∧ TooLarge timeout_seconds

/-! ## `subprocess.run` -/

/-- What an attribute of an exception may hold. -/
inductive Output where
  | str (text : String)
  | bytes (data : List UInt8)

/-- How `subprocess.run` ends. -/
inductive Subprocess where
  | completed (returncode : Int) (stdout stderr : String)
  | TimeoutExpired (stdout : Option Output)
  | raised (error : String)

/-- `data.replace("\r\n", "\n")`. -/
def join_line_ends : List Char → List Char
  | '\r' :: '\n' :: rest => '\n' :: join_line_ends rest
  | c :: rest => c :: join_line_ends rest
  | [] => []

/-- `_translate_newlines`, on what it has decoded. -/
def _translate_newlines (text : List Char) : List Char :=
  (join_line_ends text).map fun c => if c = '\r' then '\n' else c

/-- What `text=True` makes of a process that is over or out of time: the output is decoded,
`stdout` first, once the process is over; what a process has written that is not over stays
bytes. -/
def communicated : Child → Subprocess
  | .no_start error => .raised error
  | .overruns stdout _ => .TimeoutExpired (if stdout = [] then none else some (.bytes stdout))
  | .exits code stdout stderr =>
      match decode_strict stdout with
      | .error e => .raised e.str
      | .ok out =>
          match decode_strict stderr with
          | .error e => .raised e.str
          | .ok err =>
              .completed code (.ofList (_translate_newlines out))
                (.ofList (_translate_newlines err))

/-- `subprocess.run(…, text=True, timeout=timeout_seconds)`: a process that has been started is
killed if it cannot be waited for. -/
def subprocess_run (timeout_seconds : Int) : Child → Subprocess
  | .no_start error => .raised error
  | child =>
      match poll_error timeout_seconds with
      | some error => .raised error
      | none => communicated child

/-! ## `run` and `run_async` -/

/-- `exc.stdout if isinstance(exc.stdout, str) else ""`. -/
def str_or_empty : Option Output → String
  | some (.str text) => text
  | _ => ""

/-- What `run` reports of `subprocess.run`. -/
def blocking_report (timeout_seconds : Int) : Subprocess → ExecutionReport
  | .completed returncode stdout stderr =>
      ⟨⟨returncode = 0, some stdout, some stderr⟩, some returncode⟩
  | .TimeoutExpired stdout => .failure (str_or_empty stdout) (timed_out_text timeout_seconds)
  | .raised error => .failure "" error

/-- What `run_async` reports of a process that is over or out of time. -/
def awaited_report (timeout_seconds : Int) : Child → ExecutionReport
  | .no_start error => .failure "" error
  | .overruns _ _ => .failure "" (timed_out_text timeout_seconds)
  | .exits code stdout stderr =>
      ⟨⟨code = 0, some (.ofList (decode_replace stdout)), some (.ofList (decode_replace stderr))⟩,
        some code⟩

/-- What `run_async` reports of the process. -/
def async_report (timeout_seconds : Int) : Child → ExecutionReport
  | .no_start error => .failure "" error
  | child =>
      match wait_for_error timeout_seconds with
      | some error => .failure "" error
      | none => awaited_report timeout_seconds child

section Executors

variable {Number : Type} (str : Number → String) (network : Option String)
  (spec : ContainerSpec Number) (host : List String → Child)

/-- `ExecutionService.run`; `host` is what becomes of a command. -/
def ExecutionService.run : ExecutionReport :=
  match _build_docker_cmd str network spec with
  | none => .failure "" "Invalid environment variable key"
  | some argv => blocking_report spec.timeout_seconds
      (subprocess_run spec.timeout_seconds (host argv))

/-- `ExecutionService.run_async`. -/
def ExecutionService.run_async : ExecutionReport :=
  match _build_docker_cmd str network spec with
  | none => .failure "" "Invalid environment variable key"
  | some argv => async_report spec.timeout_seconds (host argv)

/-- The executors agree. -/
structure ExecutionService.Agree : Prop where
  /-- they report the same -/
  same : run str network spec host = run_async str network spec host
  /-- in particular that a child is a success that exits 0 in time -/
  zero : ∀ argv stdout stderr, _build_docker_cmd str network spec = some argv →
    host argv = .exits 0 stdout stderr →
    (run str network spec host).success = true ∧ (run_async str network spec host).success = true

end Executors

/-! ## Line ends -/

theorem join_line_ends_of_not_mem {text : List Char} (h : '\r' ∉ text) :
    join_line_ends text = text := by
  fun_induction join_line_ends text with
  | case1 rest ih => exact absurd List.mem_cons_self h
  | case2 c rest _ ih => rw [ih (fun hmem => h (List.mem_cons_of_mem _ hmem))]
  | case3 => rfl

/-- A text is its own translation if and only if it has no carriage return. -/
theorem _translate_newlines_eq_iff {text : List Char} :
    _translate_newlines text = text ↔ '\r' ∉ text := by
  constructor
  · intro heq hmem
    rw [← heq, _translate_newlines] at hmem
    obtain ⟨c, _, hc⟩ := List.mem_map.mp hmem
    split at hc
    · cases hc
    · exact ‹¬ c = '\r'› hc
  · intro h
    rw [_translate_newlines, join_line_ends_of_not_mem h]
    refine (List.map_congr_left fun c hc => if_neg ?_).trans (List.map_id text)
    rintro rfl
    exact h hc

/-! ## What the two make of the same bytes -/

/-- UTF-8 without a carriage return. -/
def PlainText (data : List UInt8) : Prop :=
  ∃ text, decode_strict data = .ok text ∧ '\r' ∉ text

/-- The strictly decoded and translated text is the text decoded with replacement if and only
if the bytes are plain. -/
theorem plainText_iff {data : List UInt8} {text : List Char}
    (h : decode_strict data = .ok text) :
    String.ofList (_translate_newlines text) = String.ofList (decode_replace data) ↔
      PlainText data := by
  rw [String.ofList_inj, decode_replace_of_strict h, _translate_newlines_eq_iff]
  constructor
  · exact fun hcr => ⟨text, h, hcr⟩
  · rintro ⟨text', h', hcr⟩
    rw [h] at h'
    cases h'
    exact hcr

theorem not_plainText {data : List UInt8} {e : DecodeError} (h : decode_strict data = .error e) :
    ¬ PlainText data := by
  rintro ⟨text, htext, _⟩
  rw [h] at htext
  cases htext

/-- What the strict decoder raises ends `subprocess.run`; else the process is completed. -/
theorem communicated_exits (code : Int) (stdout stderr : List UInt8) :
    (∃ e, (decode_strict stdout = .error e ∨ decode_strict stderr = .error e) ∧
      communicated (.exits code stdout stderr) = .raised e.str) ∨
    (∃ out err, decode_strict stdout = .ok out ∧ decode_strict stderr = .ok err ∧
      communicated (.exits code stdout stderr) = .completed code
        (.ofList (_translate_newlines out)) (.ofList (_translate_newlines err))) := by
  cases hout : decode_strict stdout with
  | error e => exact .inl ⟨e, .inl rfl, by simp only [communicated, hout]⟩
  | ok out =>
      cases herr : decode_strict stderr with
      | error e => exact .inl ⟨e, .inr rfl, by simp only [communicated, hout, herr]⟩
      | ok err => exact .inr ⟨out, err, rfl, rfl, by simp only [communicated, hout, herr]⟩

/-- Of a process that exits the two make the same if and only if both outputs are plain. -/
theorem exits_agree_iff (timeout_seconds code : Int) (stdout stderr : List UInt8) :
    blocking_report timeout_seconds (communicated (.exits code stdout stderr)) =
        awaited_report timeout_seconds (.exits code stdout stderr) ↔
      PlainText stdout ∧ PlainText stderr := by
  rcases communicated_exits code stdout stderr with
    ⟨e, herror, hrun⟩ | ⟨out, err, hout, herr, hrun⟩
  · rw [hrun]
    refine iff_of_false (fun h => ?_) (fun h => ?_)
    · -- a failure to decode has no exit code to report
      cases congrArg ExecutionReport.exit_code h
    · exact herror.elim (fun ho => not_plainText ho h.1) (fun he => not_plainText he h.2)
  · rw [hrun, ← plainText_iff hout, ← plainText_iff herr]
    simp [blocking_report, awaited_report]

/-- Of a process that is not over in time the two make the same. -/
theorem overruns_agree (timeout_seconds : Int) (stdout stderr : List UInt8) :
    blocking_report timeout_seconds (communicated (.overruns stdout stderr)) =
      awaited_report timeout_seconds (.overruns stdout stderr) := by
  -- what it has written by then are bytes, and no `str`
  have hempty : str_or_empty (if stdout = [] then none else some (.bytes stdout)) = "" := by
    split <;> rfl
  rw [communicated, blocking_report, hempty]
  rfl

/-! ### What the timeouts raise -/

section Timeouts

variable {timeout_seconds : Int}

/-- All that `poll` may raise. -/
def poll_errors : List String :=
  ["int too large to convert to float", "timeout is too large",
    "timestamp too large to convert to C _PyTime_t", "cannot convert float infinity to integer"]

/-- Where the event loop raises, `poll` raises the same. -/
theorem errors_of_noDouble (h : NoDouble timeout_seconds) :
    ∃ error, poll_error timeout_seconds = some error ∧
      wait_for_error timeout_seconds = some error :=
  ⟨_, if_pos h.2, if_pos h⟩

theorem wait_for_error_eq_none (h : ¬ NoDouble timeout_seconds) :
    wait_for_error timeout_seconds = none :=
  if_neg h

theorem not_noDouble_of_waitable (h : Waitable timeout_seconds) : ¬ NoDouble timeout_seconds :=
  fun hlarge => h.1 hlarge.2

theorem poll_error_of_waitable (h : Waitable timeout_seconds) :
    poll_error timeout_seconds = none := by
  rw [poll_error, if_neg h.1, if_pos h.2]

/-- `poll` raises one of four texts where it cannot wait so long. -/
theorem poll_error_of_not_waitable (h : ¬ Waitable timeout_seconds) :
    ∃ error ∈ poll_errors, poll_error timeout_seconds = some error := by
  rw [poll_error, poll_errors]
  by_cases hlarge : TooLarge timeout_seconds
  · rw [if_pos hlarge]
    exact ⟨_, by simp, rfl⟩
  · rw [if_neg hlarge, if_neg fun hshort => h ⟨hlarge, hshort⟩]
    by_cases htime : timeout_seconds * 10 ^ 9 < 2 ^ 63
    · rw [if_pos htime]
      exact ⟨_, by simp, rfl⟩
    · rw [if_neg htime]
      by_cases hmillis : ¬ TooLarge (timeout_seconds * 1000)
      · rw [if_pos hmillis]
        exact ⟨_, by simp, rfl⟩
      · rw [if_neg hmillis]
        exact ⟨_, by simp, rfl⟩

/-- What `poll` raises is no report of a container that is not over in time. -/
theorem ne_timed_out_text (timeout_seconds : Int) {error : String} (h : error ∈ poll_errors) :
    error ≠ timed_out_text timeout_seconds := by
  have hword : "Container execution timed out after ".toList.head? = some 'C' := by
    decide +kernel
  have htext : (timed_out_text timeout_seconds).toList =
      "Container execution timed out after ".toList ++
        ((toString timeout_seconds).toList ++ "s".toList) := by
    unfold timed_out_text
    simp only [String.toList_append, List.append_assoc]
  have hfirst : (timed_out_text timeout_seconds).toList.head? = some 'C' := by
    rw [htext, List.head?_append, hword]
    exact Option.some_or
  rintro rfl
  have hother : ∀ text ∈ poll_errors, text.toList.head? ≠ some 'C' := by
    decide +kernel
  exact hother _ h hfirst

end Timeouts

section Started

variable {timeout_seconds : Int} {child : Child} (hstarted : ∀ error, child ≠ .no_start error)
include hstarted

theorem subprocess_run_started : subprocess_run timeout_seconds child =
    match poll_error timeout_seconds with
    | some error => .raised error
    | none => communicated child := by
  cases child with
  | no_start error => exact absurd rfl (hstarted error)
  | exits | overruns => rfl

theorem async_report_started : async_report timeout_seconds child =
    match wait_for_error timeout_seconds with
    | some error => .failure "" error
    | none => awaited_report timeout_seconds child := by
  cases child with
  | no_start error => exact absurd rfl (hstarted error)
  | exits | overruns => rfl

/-- Of a process that is started the two report the same if both raise, or if `subprocess.run` can
wait so long and they make the same of it; what `poll` raises is no report of the other. -/
theorem started_agree_iff (hother : ∀ error ∈ poll_errors,
      ExecutionReport.failure "" error ≠ awaited_report timeout_seconds child) :
    blocking_report timeout_seconds (subprocess_run timeout_seconds child) =
        async_report timeout_seconds child ↔
      NoDouble timeout_seconds ∨ Waitable timeout_seconds ∧
        blocking_report timeout_seconds (communicated child) =
          awaited_report timeout_seconds child := by
  rw [subprocess_run_started hstarted, async_report_started hstarted]
  by_cases hlarge : NoDouble timeout_seconds
  · obtain ⟨error, hpoll, hwait⟩ := errors_of_noDouble hlarge
    rw [hpoll, hwait]
    exact iff_of_true rfl (.inl hlarge)
  · rw [wait_for_error_eq_none hlarge, or_iff_right hlarge]
    by_cases hshort : Waitable timeout_seconds
    · rw [poll_error_of_waitable hshort, and_iff_right hshort]
    · obtain ⟨error, hmem, hpoll⟩ := poll_error_of_not_waitable hshort
      rw [hpoll]
      exact iff_of_false (hother error hmem) fun h => hshort h.1

end Started

/-- **When the two report the same of a process**: it does not start; or both raise; or
`subprocess.run` can wait so long, and what a process that exits has written is plain. -/
theorem reports_agree_iff (timeout_seconds : Int) (child : Child) :
    blocking_report timeout_seconds (subprocess_run timeout_seconds child) =
        async_report timeout_seconds child ↔
      match child with
      | .no_start _ => True
      | .overruns _ _ => NoDouble timeout_seconds ∨ Waitable timeout_seconds
      | .exits _ stdout stderr => NoDouble timeout_seconds ∨
          Waitable timeout_seconds ∧ PlainText stdout ∧ PlainText stderr := by
  cases child with
  | no_start error => exact iff_of_true rfl trivial
  | overruns stdout stderr =>
      refine (started_agree_iff (fun _ h => by cases h) fun error hmem h => ?_).trans ?_
      · refine ne_timed_out_text timeout_seconds hmem ?_
        exact Option.some.inj (congrArg (fun r => r.stderr) h)
      · exact or_congr_right (and_iff_left (overruns_agree _ _ _))
  | exits code stdout stderr =>
      refine (started_agree_iff (fun _ h => by cases h) fun error _ h => ?_).trans ?_
      · -- what `poll` raises has no exit code to report
        cases congrArg ExecutionReport.exit_code h
      · exact or_congr_right (and_congr_right' (exits_agree_iff _ _ _ _))

/-! ## The executors -/

namespace ExecutionService

variable {Number : Type} {str : Number → String} {network : Option String}
  {spec : ContainerSpec Number} {host : List String → Child}

theorem run_of_command {argv : List String} (h : _build_docker_cmd str network spec = some argv) :
    run str network spec host = blocking_report spec.timeout_seconds
      (subprocess_run spec.timeout_seconds (host argv)) := by
  unfold run
  rw [h]

theorem run_async_of_command {argv : List String}
    (h : _build_docker_cmd str network spec = some argv) :
    run_async str network spec host = async_report spec.timeout_seconds (host argv) := by
  unfold run_async
  rw [h]

/-- `run` reports a success only of a process that exits 0, and where it can wait so long. -/
theorem exits_of_success {timeout_seconds : Int} {child : Child}
    (h : (blocking_report timeout_seconds (subprocess_run timeout_seconds child)).success = true) :
    Waitable timeout_seconds ∧ ∃ stdout stderr, child = .exits 0 stdout stderr := by
  have hwaited : ∀ {child : Child}, (∀ error, child ≠ .no_start error) →
      (blocking_report timeout_seconds (subprocess_run timeout_seconds child)).success = true →
      Waitable timeout_seconds ∧
        (blocking_report timeout_seconds (communicated child)).success = true := by
    intro child hstarted hsuccess
    rw [subprocess_run_started hstarted] at hsuccess
    by_cases hshort : Waitable timeout_seconds
    · rw [poll_error_of_waitable hshort] at hsuccess
      exact ⟨hshort, hsuccess⟩
    · obtain ⟨error, _, hpoll⟩ := poll_error_of_not_waitable hshort
      rw [hpoll] at hsuccess
      cases hsuccess
  cases child with
  | no_start error => cases h
  | overruns stdout stderr => cases (hwaited (fun _ h => by cases h) h).2
  | exits code stdout stderr =>
      obtain ⟨hshort, hsuccess⟩ := hwaited (fun _ h => by cases h) h
      refine ⟨hshort, stdout, stderr, ?_⟩
      rcases communicated_exits code stdout stderr with
        ⟨e, _, hrun⟩ | ⟨out, err, _, _, hrun⟩
      · rw [hrun] at hsuccess
        cases hsuccess
      · rw [hrun] at hsuccess
        rw [show code = 0 from of_decide_eq_true hsuccess]

end ExecutionService

/-- A process that exits 0 in time is a success for `run_async`, unless it raises. -/
theorem async_report_zero (timeout_seconds : Int) (stdout stderr : List UInt8) :
    (async_report timeout_seconds (.exits 0 stdout stderr)).success = true ↔
      ¬ NoDouble timeout_seconds := by
  simp only [async_report]
  by_cases hlarge : NoDouble timeout_seconds
  · obtain ⟨error, _, hwait⟩ := errors_of_noDouble hlarge
    rw [hwait]
    exact iff_of_false Bool.false_ne_true (fun h => h hlarge)
  · rw [wait_for_error_eq_none hlarge]
    exact iff_of_true rfl hlarge

namespace ExecutionService

variable {Number : Type} {str : Number → String} {network : Option String}
  {spec : ContainerSpec Number} {host : List String → Child}

/-- Where the blocking executor reports a success, the other one does. -/
theorem run_async_of_run (h : (run str network spec host).success = true) :
    (run_async str network spec host).success = true := by
  cases hcmd : _build_docker_cmd str network spec with
  | none =>
      unfold run at h
      rw [hcmd] at h
      cases h
  | some argv =>
      rw [run_of_command hcmd] at h
      obtain ⟨hshort, stdout, stderr, hchild⟩ := exits_of_success h
      rw [run_async_of_command hcmd, hchild, async_report_zero]
      exact not_noDouble_of_waitable hshort

end ExecutionService

/-- What the two executors need of a child: that it does not start; or that `subprocess.run` can
wait so long, and that a child that exits in time writes UTF-8 without a carriage return.  Where
neither can wait both raise, and then the child must not have exited with 0. -/
def Child.Alike (timeout_seconds : Int) : Child → Prop
  | .no_start _ => True
  | .overruns _ _ => NoDouble timeout_seconds ∨ Waitable timeout_seconds
  | .exits code stdout stderr => NoDouble timeout_seconds ∧ code ≠ 0 ∨
      Waitable timeout_seconds ∧ PlainText stdout ∧ PlainText stderr

variable {Number : Type} (str : Number → String) (network : Option String)
  (spec : ContainerSpec Number) (host : List String → Child) in
/-- **When the two executors agree.**  For every spec and whatever becomes of its command, `run`
and `run_async` report the same, and a success of a child that exits 0 in time, if and only if
the child does not start, or the timeout is less than 2147484 s and each output of a child that
exits in time is UTF-8 without a carriage return; or if both raise for a timeout that is no
double, and the child has not exited with 0. -/
theorem executors_agree_iff :
    ExecutionService.Agree str network spec host ↔
      ∀ argv, _build_docker_cmd str network spec = some argv →
        (host argv).Alike spec.timeout_seconds := by
  constructor
  · intro hagree argv hcmd
    have hsame := hagree.same
    rw [ExecutionService.run_of_command hcmd, ExecutionService.run_async_of_command hcmd,
      reports_agree_iff] at hsame
    cases hchild : host argv with
    | no_start error => trivial
    | overruns stdout stderr =>
        rw [hchild] at hsame
        exact hsame
    | exits code stdout stderr =>
        rw [hchild] at hsame
        refine hsame.imp_left fun hlarge => ⟨hlarge, ?_⟩
        rintro rfl
        have hzero := (hagree.zero argv stdout stderr hcmd hchild).2
        rw [ExecutionService.run_async_of_command hcmd, hchild, async_report_zero] at hzero
        exact hzero hlarge
  · intro halike
    have hsame : ExecutionService.run str network spec host =
        ExecutionService.run_async str network spec host := by
      cases hcmd : _build_docker_cmd str network spec with
      | none =>
          unfold ExecutionService.run ExecutionService.run_async
          rw [hcmd]
      | some argv =>
          rw [ExecutionService.run_of_command hcmd, ExecutionService.run_async_of_command hcmd,
            reports_agree_iff]
          have hchild := halike argv hcmd
          cases hhost : host argv with
          | no_start error => trivial
          | overruns stdout stderr =>
              rw [hhost] at hchild
              exact hchild
          | exits code stdout stderr =>
              rw [hhost] at hchild
              exact hchild.imp_left And.left
    refine ⟨hsame, fun argv stdout stderr hcmd hhost => ?_⟩
    have hasync : (ExecutionService.run_async str network spec host).success = true := by
      rw [ExecutionService.run_async_of_command hcmd, hhost, async_report_zero]
      have hchild := halike argv hcmd
      rw [hhost] at hchild
      rcases hchild with ⟨_, hcode⟩ | ⟨hshort, _⟩
      · exact absurd rfl hcode
      · exact not_noDouble_of_waitable hshort
    exact ⟨hsame ▸ hasync, hasync⟩

/-! ## A byte that is no UTF-8 -/

/-- A host whose containers exit 0 in time with `stdout`. -/
def example_host (stdout : List UInt8) : List String → Child := fun _ => .exits 0 stdout []

/-- A carriage return is lost. -/
example : _translate_newlines ['a', '\r', '\n', 'b', '\r', '\r', '\n'] =
    ['a', '\n', 'b', '\n', '\n'] := by
  decide

/-- A container that writes the byte `0xFF` and exits 0 is a failure for `run` and a success for
`run_async`. -/
theorem undecodable_output_disagrees :
    ¬ ∀ (spec : ContainerSpec String) (host : List String → Child),
      ExecutionService.Agree id none spec host := by
  intro hall
  have hzero := (hall (example_container "alpine:3" "A" []) (example_host [0xFF])).zero
    _ [0xFF] [] rfl rfl
  have hfailed : (ExecutionService.run id none (example_container "alpine:3" "A" [])
      (example_host [0xFF])).success = false := by
    decide +kernel
  rw [hfailed] at hzero
  cases hzero.1

end Dass
