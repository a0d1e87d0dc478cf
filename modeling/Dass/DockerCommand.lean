/-
# `Dass.DockerCommand` — the command line of a container

`_build_docker_cmd` of `backend/app/services/execution_service.py`, and `docker run` reading
it: options up to the first word that does not look like one, which is the image; all behind
it is the command.  The code checks the names of the environment, for a command line that is
to carry no other option.  Two things get past it (`docker_cmd_exact_iff`).  The `$` of the
pattern matches before a line feed at the end too, so a name with one is let through; and an
image that looks like an option is read as one, with the command's words behind it.

Every other string is the value of an option and may be anything.
-/
import Dass.Lib.Argv
import Mathlib.Data.List.Basic

namespace Dass

open Argv

/-! ## `ContainerSpec` and the command -/

/-- What to run; `cpu` and `memory_mb` are whatever `str` writes. -/
structure ContainerSpec (Number : Type) where
  image : String
  command : Option (List String)
  env : List (String × String)
  timeout_seconds : Int
  cpu : Option Number
  memory_mb : Option Number
  working_dir : Option String

def ascii_letter (c : Char) : Bool := ('A' ≤ c && c ≤ 'Z') || ('a' ≤ c && c ≤ 'z') || c = '_'

def ascii_digit (c : Char) : Bool := '0' ≤ c && c ≤ '9'

/-- `[A-Za-z_][A-Za-z0-9_]*` in full. -/
def env_name : List Char → Bool
  | [] => false
  | c :: rest => ascii_letter c && rest.all fun c => ascii_letter c || ascii_digit c

/-- `_ENV_KEY_RE.match(key)`: the end of the pattern is the end of the string, or a line feed
before it. -/
def _ENV_KEY_RE_match (key : String) : Bool :=
  env_name key.toList || (key.toList.getLast? = some '\n' && env_name key.toList.dropLast)

/-- A string that is there and not empty. -/
def non_empty : Option String → Option String
  | some "" => none
  | s => s

/-- `["-e", f"{key}={value}"]` for each variable, or `None`. -/
def env_args : List (String × String) → Option (List String)
  | [] => some []
  | (key, value) :: rest =>
      if _ENV_KEY_RE_match key then
        (env_args rest).map fun args => "-e" :: (key ++ "=" ++ value) :: args
      else none

/-- The value of an option, if it has one. -/
def option_args (w : String) : Option String → List String
  | none => []
  | some v => [w, v]

variable {Number : Type}

/-- `_build_docker_cmd`. -/
def _build_docker_cmd (str : Number → String) (network : Option String)
    (spec : ContainerSpec Number) : Option (List String) := do
  let env ← env_args spec.env
  return ["docker", "run", "--rm"] ++ option_args "--network" (non_empty network) ++
    option_args "--cpus" (spec.cpu.map str) ++
    option_args "--memory" (spec.memory_mb.map fun m => str m ++ "m") ++
    option_args "-w" (non_empty spec.working_dir) ++ env ++ [spec.image] ++
    spec.command.getD []

/-! ## `docker run` -/

/-- docker, with what its manual says of the options that are used here. -/
structure Docker where
  option : String → Option Bool
  rm : option "--rm" = some false
  network : option "--network" = some true
  cpus : option "--cpus" = some true
  memory : option "--memory" = some true
  workdir : option "-w" = some true
  env : option "-e" = some true

/-- A word that begins with `-` and has more to it. -/
def looks_like_option (w : String) : Bool :=
  match w.toList with
  | '-' :: _ :: _ => true
  | _ => false

def Docker.grammar (docker : Docker) : Grammar where
  looks := looks_like_option
  option := docker.option
  interspersed := false

/-- A container as `docker run` is told to run it. -/
structure DockerRun where
  options : List (String × Option String)
  image : String
  command : List String
deriving DecidableEq

/-- `docker run` reads its command line; without an image it refuses it. -/
def Docker.run (docker : Docker) (argv : List String) : Option DockerRun :=
  match docker.grammar.read (argv.drop 2) with
  | some ⟨options, image :: command⟩ => some ⟨options, image, command⟩
  | _ => none

/-- The options the fields of a spec dictate. -/
def ContainerSpec.options (spec : ContainerSpec Number) (str : Number → String)
    (network : Option String) : List (String × Option String) :=
  ("--rm", none) :: (((non_empty network).toList.map fun n => ("--network", some n)) ++
    ((spec.cpu.map str).toList.map fun c => ("--cpus", some c)) ++
    ((spec.memory_mb.map fun m => str m ++ "m").toList.map fun m => ("--memory", some m)) ++
    ((non_empty spec.working_dir).toList.map fun d => ("-w", some d)) ++
    (spec.env.map fun p => ("-e", some (p.1 ++ "=" ++ p.2))))

/-- The container the spec describes. -/
def ContainerSpec.described (spec : ContainerSpec Number) (str : Number → String)
    (network : Option String) : DockerRun :=
  ⟨spec.options str network, spec.image, spec.command.getD []⟩

/-- The command says what the spec says. -/
structure Docker.Exact (docker : Docker) (str : Number → String) (network : Option String)
    (spec : ContainerSpec Number) : Prop where
  /-- there is none if and only if a variable has no proper name -/
  refused : _build_docker_cmd str network spec = none ↔
    ∃ p ∈ spec.env, env_name p.1.toList = false
  /-- and docker reads it as the container that is described -/
  read : ∀ argv, _build_docker_cmd str network spec = some argv →
    docker.run argv = some (spec.described str network)

/-! ## Reading the command -/

section Command

variable {str : Number → String} {network : Option String} {spec : ContainerSpec Number}
  {argv : List String}

theorem match_of_env_name {key : String} (h : env_name key.toList = true) :
    _ENV_KEY_RE_match key = true := by
  rw [_ENV_KEY_RE_match, h, Bool.true_or]

theorem env_args_eq_none {env : List (String × String)} :
    env_args env = none ↔ ∃ p ∈ env, _ENV_KEY_RE_match p.1 = false := by
  induction env with
  | nil => simp [env_args]
  | cons p rest ih =>
      unfold env_args
      cases hkey : _ENV_KEY_RE_match p.1 with
      | false => simp [hkey]
      | true => simp [hkey, ih]

theorem env_args_eq {env : List (String × String)} {args : List String}
    (h : env_args env = some args) :
    args = (env.map fun p => ("-e", some (p.1 ++ "=" ++ p.2))).flatMap words := by
  induction env generalizing args with
  | nil =>
      cases h
      rfl
  | cons p rest ih =>
      unfold env_args at h
      split at h
      · obtain ⟨args', hargs, rfl⟩ := Option.map_eq_some_iff.mp h
        rw [ih hargs]
        rfl
      · cases h

theorem option_args_eq (w : String) (v : Option String) :
    option_args w v = (v.toList.map fun v => (w, some v)).flatMap words := by
  cases v <;> rfl

theorem _build_docker_cmd_eq_none :
    _build_docker_cmd str network spec = none ↔
      ∃ p ∈ spec.env, _ENV_KEY_RE_match p.1 = false := by
  rw [← env_args_eq_none]
  unfold _build_docker_cmd
  cases env_args spec.env <;> simp

/-- The command is the options that are dictated, the image and the command. -/
theorem _build_docker_cmd_eq (h : _build_docker_cmd str network spec = some argv) :
    argv.drop 2 = (spec.options str network).flatMap words ++
      spec.image :: spec.command.getD [] := by
  obtain ⟨args, hargs, hargv⟩ := Option.bind_eq_some_iff.mp h
  cases hargv
  rw [env_args_eq hargs, ContainerSpec.options]
  simp only [option_args_eq, List.cons_append, List.nil_append, List.drop_succ_cons,
    List.drop_zero, List.flatMap_cons, List.flatMap_append, words, List.append_assoc]

variable (docker : Docker) in
/-- What docker reads of the command. -/
theorem Docker.read_command (h : _build_docker_cmd str network spec = some argv) :
    docker.grammar.read (argv.drop 2) =
      (docker.grammar.read (spec.image :: spec.command.getD [])).map fun r =>
        { r with options := spec.options str network ++ r.options } := by
  rw [_build_docker_cmd_eq h]
  refine Grammar.read_options (fun o ho => ?_) _
  simp only [ContainerSpec.options, List.mem_cons, List.mem_append, List.mem_map] at ho
  rcases ho with rfl | (((⟨_, _, rfl⟩ | ⟨_, _, rfl⟩) | ⟨_, _, rfl⟩) | ⟨_, _, rfl⟩) | ⟨_, _, rfl⟩
  · exact ⟨by simp [grammar, looks_like_option], by simp, docker.rm⟩
  · exact ⟨by simp [grammar, looks_like_option], by simp, docker.network⟩
  · exact ⟨by simp [grammar, looks_like_option], by simp, docker.cpus⟩
  · exact ⟨by simp [grammar, looks_like_option], by simp, docker.memory⟩
  · exact ⟨by simp [grammar, looks_like_option], by simp, docker.workdir⟩
  · exact ⟨by simp [grammar, looks_like_option], by simp, docker.env⟩

/-- The operands of a container are its image and its command. -/
theorem Docker.operands_of_run {docker : Docker} {c : DockerRun} (h : docker.run argv = some c) :
    ∃ r, docker.grammar.read (argv.drop 2) = some r ∧ r.operands = c.image :: c.command := by
  unfold run at h
  split at h
  · next options image command hread =>
      cases h
      exact ⟨_, hread, rfl⟩
  · cases h

/-- Docker reads the container that is described if and only if its image does not look like
an option. -/
theorem Docker.run_iff (docker : Docker) (h : _build_docker_cmd str network spec = some argv) :
    docker.run argv = some (spec.described str network) ↔
      looks_like_option spec.image = false := by
  constructor
  · intro hrun
    obtain ⟨r, hread, hoperands⟩ := operands_of_run hrun
    rw [docker.read_command h] at hread
    obtain ⟨r', hread', rfl⟩ := Option.map_eq_some_iff.mp hread
    by_contra hlooks
    have hlen := Grammar.operands_length (Bool.of_not_eq_false hlooks) hread'
    -- the image is one of the words, and none is left for it
    have hcount : r'.operands.length = (spec.command.getD []).length + 1 := by
      rw [hoperands]
      rfl
    omega
  · intro hlooks
    unfold run
    rw [docker.read_command h, Grammar.read_operand hlooks rfl]
    simp [ContainerSpec.described]

/-- **What gets into a docker command line.**  There is a command exactly if every variable
has a proper name, and docker reads it as exactly the options the spec dictates, its image and
its command, if and only if a variable has no name that the pattern matches at all, or every
variable has a proper name and the image does not look like an option. -/
theorem docker_cmd_exact_iff (docker : Docker) (str : Number → String) (network : Option String)
    (spec : ContainerSpec Number) :
    docker.Exact str network spec ↔
      (∃ p ∈ spec.env, _ENV_KEY_RE_match p.1 = false) ∨
      (∀ p ∈ spec.env, env_name p.1.toList = true) ∧ looks_like_option spec.image = false := by
  by_cases hmatch : ∃ p ∈ spec.env, _ENV_KEY_RE_match p.1 = false
  · have hnone : _build_docker_cmd str network spec = none := _build_docker_cmd_eq_none.mpr hmatch
    obtain ⟨p, hp, hkey⟩ := hmatch
    have hname : env_name p.1.toList = false := by
      by_contra hname
      rw [match_of_env_name (Bool.of_not_eq_false hname)] at hkey
      cases hkey
    refine iff_of_true ⟨iff_of_true hnone ⟨p, hp, hname⟩, fun argv h => ?_⟩ (.inl ⟨p, hp, hkey⟩)
    rw [hnone] at h
    cases h
  · have hsome : _build_docker_cmd str network spec ≠ none :=
      fun hnone => hmatch (_build_docker_cmd_eq_none.mp hnone)
    obtain ⟨argv, h⟩ := Option.ne_none_iff_exists'.mp hsome
    constructor
    · intro hexact
      refine .inr ⟨fun p hp => ?_, (docker.run_iff h).mp (hexact.read argv h)⟩
      by_contra hname
      exact hsome (hexact.refused.mpr ⟨p, hp, Bool.of_not_eq_true hname⟩)
    · rintro (hbad | ⟨hnames, hlooks⟩)
      · exact absurd hbad hmatch
      · refine ⟨iff_of_false hsome ?_, fun argv' h' => (docker.run_iff h').mpr hlooks⟩
        rintro ⟨p, hp, hname⟩
        rw [hnames p hp] at hname
        cases hname

end Command

/-! ## Two specs -/

/-- docker, without its other options. -/
def example_docker : Docker where
  option w :=
    if w ∈ ["--rm", "--privileged"] then some false
    else if w ∈ ["--network", "--cpus", "--memory", "-w", "-e"] then some true else none
  rm := by decide
  network := by decide
  cpus := by decide
  memory := by decide
  workdir := by decide
  env := by decide

/-- A spec with one variable. -/
def example_container (image key : String) (command : List String) : ContainerSpec String :=
  ⟨image, some command, [(key, "1")], 30, some "0.5", some "256", none⟩

/-- An image that looks like an option is one, and the command has the image. -/
example :
    (_build_docker_cmd id none (example_container "--privileged" "A" ["alpine:3", "sh"])).bind
      example_docker.run = some ⟨[("--rm", none), ("--cpus", some "0.5"), ("--memory", some "256m"),
        ("-e", some "A=1"), ("--privileged", none)], "alpine:3", ["sh"]⟩ := by
  decide +kernel

/-- A name with a line feed behind it is let through. -/
theorem line_feed_gets_through :
    ¬ ∀ spec : ContainerSpec String, example_docker.Exact id none spec := by
  intro hall
  have hexact := (hall (example_container "alpine:3" "A\n" [])).refused.mpr
    ⟨("A\n", "1"), List.mem_singleton.mpr rfl, by decide +kernel⟩
  have hcmd : _build_docker_cmd id none (example_container "alpine:3" "A\n" []) ≠ none := by
    decide +kernel
  exact hcmd hexact

end Dass
