/-
# `Dass.VMService` — the fleet of worker containers

`backend/app/services/vm_service.py` on a Docker host.  The containers of a host have names of
their own, which the type of a `Fleet` says and `run` and `remove` keep: a container whose name
is in use is refused, and the code logs that and goes on.  The workers are the running
containers with the labels of one.  `create_vms` clones one of them, and the clones carry one
label more; `terminate_vms` stops the oldest of those that do.

What is said of `terminate_vms` is which containers are left (`mem_terminate_vms`), and of
`create_vms` that no container goes (`mem_create_vms`).
-/
import Mathlib.Data.List.Nodup
import Mathlib.Data.List.Perm.Subperm

namespace Dass

/-! ## The containers of a host -/

/-- What is read of a container; a label is a text `key=value`. -/
structure Container where
  name : String
  running : Bool
  labels : List String
  /-- `attrs["Created"]` -/
  created : Option String
  image : String
  env : Option (List String)
  cmd : Option (List String)
  networks : List String
deriving DecidableEq

structure Fleet where
  containers : List Container
  names : (containers.map Container.name).Nodup

namespace Fleet

theorem eq_of_name (fleet : Fleet) {c d : Container} (hc : c ∈ fleet.containers)
    (hd : d ∈ fleet.containers) (h : c.name = d.name) : c = d :=
  List.inj_on_of_nodup_map fleet.names hc hd h

/-- `containers.run`: a name in use is refused. -/
def run (fleet : Fleet) (c : Container) : Fleet :=
  if h : c.name ∈ fleet.containers.map Container.name then fleet
  else ⟨c :: fleet.containers, List.nodup_cons.mpr ⟨h, fleet.names⟩⟩

/-- `c.stop(); c.remove()`. -/
def remove (fleet : Fleet) (c : Container) : Fleet where
  containers := fleet.containers.filter fun d => d.name ≠ c.name
  names := fleet.names.sublist (List.filter_sublist.map _)

theorem mem_run {fleet : Fleet} {c d : Container} (h : d ∈ fleet.containers) :
    d ∈ (fleet.run c).containers := by
  unfold run
  split
  · exact h
  · exact List.mem_cons_of_mem _ h

theorem mem_remove {fleet : Fleet} {c d : Container} :
    d ∈ (fleet.remove c).containers ↔ d ∈ fleet.containers ∧ d.name ≠ c.name := by
  rw [remove, List.mem_filter, decide_eq_true_eq]

theorem mem_foldl_run {cs : List Container} {fleet : Fleet} {d : Container}
    (h : d ∈ fleet.containers) : d ∈ (cs.foldl run fleet).containers := by
  induction cs generalizing fleet with
  | nil => exact h
  | cons c cs ih => exact ih (mem_run h)

theorem mem_foldl_remove {cs : List Container} {fleet : Fleet} {d : Container} :
    d ∈ (cs.foldl remove fleet).containers ↔
      d ∈ fleet.containers ∧ ∀ c ∈ cs, d.name ≠ c.name := by
  induction cs generalizing fleet with
  | nil => simp
  | cons c cs ih => rw [List.foldl_cons, ih, mem_remove, List.forall_mem_cons, and_assoc]

end Fleet

/-! ## Workers -/

def _PROJECT_LABEL : String := "com.dass.project=dass"
def _SERVICE_LABEL : String := "com.dass.service=worker"
def _AUTOSCALED_LABEL : String := "com.dass.autoscaled=true"

/-- The labels `_list_workers` filters by. -/
def worker_labels (autoscaled_only : Bool) : List String :=
  if autoscaled_only then [_PROJECT_LABEL, _SERVICE_LABEL, _AUTOSCALED_LABEL]
  else [_PROJECT_LABEL, _SERVICE_LABEL]

/-- `_list_workers`: the running containers with all the labels. -/
def Fleet._list_workers (fleet : Fleet) (autoscaled_only : Bool) : List Container :=
  fleet.containers.filter fun c =>
    c.running && (worker_labels autoscaled_only).all fun label => label ∈ c.labels

/-- `get_active_vms`. -/
def Fleet.get_active_vms (fleet : Fleet) : List String :=
  (fleet._list_workers false).map Container.name

/-- The workers that are not autoscaled. -/
def Fleet.baseline (fleet : Fleet) : List Container :=
  (fleet._list_workers false).filter fun c => _AUTOSCALED_LABEL ∉ c.labels

/-! ## `create_vms` -/

/-- `VMService`, with the name of the container to clone. -/
structure VMService where
  template_name : String

/-- `_template_container`. -/
def VMService._template_container (vm : VMService) (fleet : Fleet) : Option Container :=
  (fleet.containers.find? fun c => c.name = vm.template_name).or
    (fleet._list_workers false).head?

/-- `env_dict[key] = value`. -/
def set_item (env : List (String × String)) (key value : String) : List (String × String) :=
  if env.any fun p => p.1 = key then env.map fun p => if p.1 = key then (key, value) else p
  else env ++ [(key, value)]

/-- `entry.partition("=")`, without the separator. -/
def partition (entry : String) : String × String :=
  (.ofList (entry.toList.takeWhile (· ≠ '=')), .ofList ((entry.toList.dropWhile (· ≠ '=')).drop 1))

/-- The `env_dict` of a template. -/
def env_dict (env : Option (List String)) : List (String × String) :=
  (env.getD []).foldl (fun env entry =>
    if (partition entry).1 = "" then env else set_item env (partition entry).1 (partition entry).2)
    []

/-- What the host gives a clone: `uuid4().hex[:8]`, and when it is created. -/
structure Birth where
  suffix : String
  created : String

/-- The container a template is cloned to. -/
def Container.clone (template : Container) (birth : Birth) : Container where
  name := "dass-worker-autoscaled-" ++ birth.suffix
  running := true
  labels := [_PROJECT_LABEL, _SERVICE_LABEL, _AUTOSCALED_LABEL]
  created := some birth.created
  image := template.image
  env := some ((set_item (env_dict template.env) "DASS_WORKER_ID"
    ("worker-as-" ++ birth.suffix)).map fun p => p.1 ++ "=" ++ p.2)
  cmd := template.cmd
  networks := [template.networks.headD "dass_dass-net"]

/-- `create_vms`; the `i`-th clone is born as `births i`. -/
def VMService.create_vms (vm : VMService) (births : Nat → Birth) (fleet : Fleet) (count : Nat) :
    Fleet :=
  match vm._template_container fleet with
  | none => fleet
  | some template =>
      ((List.range count).map fun i => template.clone (births i)).foldl Fleet.run fleet

theorem mem_create_vms {vm : VMService} {births : Nat → Birth} {fleet : Fleet} {count : Nat}
    {c : Container} (h : c ∈ fleet.containers) :
    c ∈ (vm.create_vms births fleet count).containers := by
  unfold VMService.create_vms
  split
  · exact h
  · exact Fleet.mem_foldl_run h

/-! ## `terminate_vms` -/

/-- The autoscaled workers, the oldest first. -/
def Fleet.by_age (fleet : Fleet) : List Container :=
  (fleet._list_workers true).mergeSort fun c d => c.created.getD "" ≤ d.created.getD ""

/-- `terminate_vms`. -/
def Fleet.terminate_vms (fleet : Fleet) (count : Nat) : Fleet :=
  (fleet.by_age.take count).foldl Fleet.remove fleet

section Terminate

variable {fleet : Fleet} {c : Container}

theorem Fleet.mem_by_age : c ∈ fleet.by_age ↔ c ∈ fleet._list_workers true :=
  List.mem_mergeSort

theorem Fleet.mem_containers_of_by_age (h : c ∈ fleet.by_age) : c ∈ fleet.containers :=
  List.mem_of_mem_filter (mem_by_age.mp h)

theorem Fleet.nodup_by_age (fleet : Fleet) : fleet.by_age.Nodup :=
  (List.mergeSort_perm _ _).nodup_iff.mpr (fleet.names.of_map.filter _)

theorem Fleet.length_by_age (fleet : Fleet) :
    fleet.by_age.length = (fleet._list_workers true).length :=
  (List.mergeSort_perm _ _).length_eq

/-- Which containers `terminate_vms` leaves. -/
theorem mem_terminate_vms {count : Nat} :
    c ∈ (fleet.terminate_vms count).containers ↔
      c ∈ fleet.containers ∧ c ∉ fleet.by_age.take count := by
  rw [Fleet.terminate_vms, Fleet.mem_foldl_remove]
  refine and_congr_right fun hc => ⟨fun h hmem => h c hmem rfl, fun h d hd hname => h ?_⟩
  have hd' : d ∈ fleet.containers := Fleet.mem_containers_of_by_age (List.mem_of_mem_take hd)
  rwa [fleet.eq_of_name hc hd' hname]

/-- A worker is a baseline worker or an autoscaled one. -/
theorem Fleet.length_list_workers (fleet : Fleet) :
    (fleet._list_workers false).length = fleet.baseline.length + fleet.by_age.length := by
  have hautoscaled : fleet._list_workers true =
      (fleet._list_workers false).filter fun c => _AUTOSCALED_LABEL ∈ c.labels := by
    rw [_list_workers, _list_workers, List.filter_filter]
    refine List.filter_congr fun c _ => ?_
    simp only [worker_labels, if_true, Bool.false_eq_true, if_false, List.all_cons, List.all_nil,
      Bool.and_true]
    ac_rfl
  rw [length_by_age, hautoscaled, baseline, Nat.add_comm,
    List.length_eq_length_filter_add fun c : Container => decide (_AUTOSCALED_LABEL ∈ c.labels)]
  simp only [decide_not]

end Terminate

end Dass
