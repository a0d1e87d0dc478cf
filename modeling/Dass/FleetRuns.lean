/-
# `Dass.FleetRuns` — the fleet, one reading after another

`AutoScaler.apply` runs again and again, on depths that may be any each time, over a fleet that
nothing else changes.  The workers that are not autoscaled are the same ones all along, and what
`apply` leaves is as many workers as the depths want, or those: `Scaled` says this of one
`apply`, and which workers go, which come, and that a second `apply` on the same depths does
nothing.

A worker's id is in its environment.  The clone of a template has the template's environment
with its own id in it (`worker_id_clone`), whatever the template's was, so the ids of a run's
clones are as different as their suffixes; the invariant is that a container is one of the first
fleet or a clone of a step before (`Reached`).
-/
import Dass.AutoScaler
import Mathlib.Data.List.TakeWhile

namespace Dass

/-! ## The environment of a container -/

/-- The keys of a dictionary that `env_dict` builds. -/
structure IsEnv (env : List (String × String)) : Prop where
  nodup : (env.map Prod.fst).Nodup
  nonempty : ∀ k ∈ env.map Prod.fst, k ≠ ""
  no_separator : ∀ k ∈ env.map Prod.fst, '=' ∉ k.toList

theorem any_key_iff {env : List (String × String)} {key : String} :
    env.any (fun p => p.1 = key) = true ↔ key ∈ env.map Prod.fst := by
  simp only [List.any_eq_true, decide_eq_true_eq, List.mem_map]

theorem keys_set_item (env : List (String × String)) (key value : String) :
    (set_item env key value).map Prod.fst =
      if key ∈ env.map Prod.fst then env.map Prod.fst else env.map Prod.fst ++ [key] := by
  rw [set_item]
  by_cases hkey : key ∈ env.map Prod.fst
  · rw [if_pos (any_key_iff.mpr hkey), if_pos hkey, List.map_map]
    refine List.map_congr_left fun p _ => ?_
    show (if p.1 = key then (key, value) else p).1 = p.1
    split
    · next heq => exact heq.symm
    · rfl
  · rw [if_neg (mt any_key_iff.mp hkey), if_neg hkey, List.map_append]
    rfl

theorem set_item_of_not_mem {env : List (String × String)} {key : String}
    (h : key ∉ env.map Prod.fst) (value : String) :
    set_item env key value = env ++ [(key, value)] := by
  rw [set_item, if_neg (mt any_key_iff.mp h)]

theorem IsEnv.set_item {env : List (String × String)} (h : IsEnv env) {key : String}
    (hnonempty : key ≠ "") (hsep : '=' ∉ key.toList) (value : String) :
    IsEnv (set_item env key value) := by
  by_cases hkey : key ∈ env.map Prod.fst
  · have hkeys := (keys_set_item env key value).trans (if_pos hkey)
    exact ⟨hkeys ▸ h.nodup, hkeys ▸ h.nonempty, hkeys ▸ h.no_separator⟩
  · have hkeys := (keys_set_item env key value).trans (if_neg hkey)
    refine ⟨hkeys ▸ List.nodup_append.mpr ⟨h.nodup, List.nodup_singleton _, ?_⟩, ?_, ?_⟩
    · rintro a ha b hb rfl
      exact hkey (List.mem_singleton.mp hb ▸ ha)
    · rw [hkeys]
      exact List.forall_mem_append.mpr ⟨h.nonempty, List.forall_mem_singleton.mpr hnonempty⟩
    · rw [hkeys]
      exact List.forall_mem_append.mpr ⟨h.no_separator, List.forall_mem_singleton.mpr hsep⟩

theorem lookup_set_item (env : List (String × String)) (key value : String) :
    (set_item env key value).lookup key = some value := by
  by_cases hkey : key ∈ env.map Prod.fst
  · rw [set_item, if_pos (any_key_iff.mpr hkey)]
    induction env with
    | nil => exact absurd hkey (List.not_mem_nil)
    | cons p env ih =>
        rw [List.map_cons]
        by_cases hp : p.1 = key
        · rw [if_pos hp, List.lookup_cons_self]
        · rw [if_neg hp, List.lookup_cons, beq_false_of_ne (Ne.symm hp)]
          exact ih ((List.mem_cons.mp hkey).resolve_left (Ne.symm hp))
  · rw [set_item_of_not_mem hkey]
    induction env with
    | nil => exact List.lookup_cons_self
    | cons p env ih =>
        obtain ⟨hp, hrest⟩ := not_or.mp fun h => hkey (List.mem_cons.mpr h)
        rw [List.cons_append, List.lookup_cons, beq_false_of_ne hp]
        exact ih hrest

/-- The key of an entry has no separator. -/
theorem separator_not_mem_partition (entry : String) : '=' ∉ (partition entry).1.toList := by
  rw [partition, String.toList_ofList]
  intro h
  have hne : decide ('=' ≠ '=') = true :=
    List.mem_takeWhile_imp (p := fun c => decide (c ≠ '=')) h
  exact of_decide_eq_true hne rfl

theorem partition_render {key : String} (h : '=' ∉ key.toList) (value : String) :
    partition (key ++ "=" ++ value) = (key, value) := by
  have hlist : (key ++ "=" ++ value).toList = key.toList ++ '=' :: value.toList := by
    rw [String.toList_append, String.toList_append, List.append_assoc]
    rfl
  have hall : ∀ c ∈ key.toList, (decide (c ≠ '=')) = true := by
    intro c hc
    exact decide_eq_true fun heq => h (heq ▸ hc)
  rw [partition, hlist, List.takeWhile_append_of_pos hall, List.dropWhile_append_of_pos hall]
  simp

/-- `env_dict` builds a dictionary. -/
theorem isEnv_env_dict (env : Option (List String)) : IsEnv (env_dict env) := by
  rw [env_dict]
  suffices h : ∀ (entries : List String) (acc : List (String × String)), IsEnv acc →
      IsEnv (entries.foldl (fun env entry => if (partition entry).1 = "" then env
        else set_item env (partition entry).1 (partition entry).2) acc) from
    h _ [] ⟨List.nodup_nil, fun _ hk => absurd hk List.not_mem_nil,
      fun _ hk => absurd hk List.not_mem_nil⟩
  intro entries
  induction entries with
  | nil => exact fun _ hacc => hacc
  | cons entry entries ih =>
      intro acc hacc
      refine ih _ ?_
      show IsEnv (if (partition entry).1 = "" then acc
        else set_item acc (partition entry).1 (partition entry).2)
      split
      · exact hacc
      · next hne => exact hacc.set_item hne (separator_not_mem_partition entry) _

/-- A dictionary written out is read back. -/
theorem env_dict_render {env : List (String × String)} (h : IsEnv env) :
    env_dict (some (env.map fun p => p.1 ++ "=" ++ p.2)) = env := by
  rw [env_dict]
  suffices hacc : ∀ acc : List (String × String), ((acc ++ env).map Prod.fst).Nodup →
      (env.map fun p => p.1 ++ "=" ++ p.2).foldl (fun env entry =>
        if (partition entry).1 = "" then env
        else set_item env (partition entry).1 (partition entry).2) acc = acc ++ env from
    hacc [] h.nodup
  obtain ⟨-, hnonempty, hsep⟩ := h
  induction env with
  | nil => exact fun acc _ => (List.append_nil acc).symm
  | cons p env ih =>
      intro acc hnodup
      obtain ⟨hp, hrest⟩ := List.forall_mem_cons.mp hnonempty
      obtain ⟨hpsep, hrestsep⟩ := List.forall_mem_cons.mp hsep
      have hnew : p.1 ∉ acc.map Prod.fst := by
        intro hmem
        rw [List.map_append, List.map_cons] at hnodup
        exact (List.nodup_append.mp hnodup).2.2 _ hmem _ List.mem_cons_self rfl
      rw [List.map_cons, List.foldl_cons, partition_render hpsep, if_neg hp,
        set_item_of_not_mem hnew, ih hrest hrestsep, List.append_assoc]
      · rfl
      · rwa [List.append_assoc]

/-- `settings.worker_id` of the process in a container. -/
def Container.worker_id (c : Container) : String :=
  ((env_dict c.env).lookup "DASS_WORKER_ID").getD "worker"

/-- A clone has its own id, whatever the template's. -/
theorem worker_id_clone (template : Container) (birth : Birth) :
    (template.clone birth).worker_id = "worker-as-" ++ birth.suffix := by
  have henv : IsEnv (set_item (env_dict template.env) "DASS_WORKER_ID"
      ("worker-as-" ++ birth.suffix)) :=
    (isEnv_env_dict _).set_item (by decide +kernel) (by decide +kernel) _
  have hdict : env_dict (template.clone birth).env = _ := env_dict_render henv
  rw [Container.worker_id, hdict, lookup_set_item, Option.getD_some]

/-! ## Clones -/

theorem Fleet.containers_foldl_run {cs : List Container} {fleet : Fleet}
    (hdistinct : (cs.map Container.name).Nodup)
    (hnew : ∀ c ∈ cs, c.name ∉ fleet.containers.map Container.name) :
    (cs.foldl run fleet).containers = cs.reverse ++ fleet.containers := by
  induction cs generalizing fleet with
  | nil => rfl
  | cons c cs ih =>
      obtain ⟨hc, hcs⟩ := List.forall_mem_cons.mp hnew
      obtain ⟨hother, hrest⟩ := List.nodup_cons.mp hdistinct
      have hrun : (fleet.run c).containers = c :: fleet.containers := by
        rw [run, dif_neg hc]
      rw [List.foldl_cons, ih hrest, hrun, List.reverse_cons, List.append_assoc]
      · rfl
      · intro d hd hmem
        rw [hrun, List.map_cons, List.mem_cons] at hmem
        rcases hmem with heq | hmem
        · exact hother (heq ▸ List.mem_map_of_mem hd)
        · exact hcs d hd hmem

/-- A clone of a template. -/
def Container.IsClone (c : Container) : Prop :=
  ∃ template birth, c = Container.clone template birth

theorem labels_clone (template : Container) (birth : Birth) :
    (template.clone birth).labels = worker_labels true := rfl

theorem mem_worker_labels_true {label : String} {autoscaled_only : Bool}
    (h : label ∈ worker_labels autoscaled_only) : label ∈ worker_labels true := by
  cases autoscaled_only with
  | true => exact h
  | false =>
      rcases List.mem_cons.mp h with rfl | h
      · exact List.mem_cons_self
      · exact List.mem_cons_of_mem _ (List.mem_singleton.mp h ▸ List.mem_cons_self)

/-- A clone is listed. -/
theorem Container.IsClone.listed {c : Container} (h : c.IsClone) (autoscaled_only : Bool) :
    (c.running && (worker_labels autoscaled_only).all fun label => label ∈ c.labels) = true := by
  obtain ⟨template, birth, rfl⟩ := h
  refine Bool.and_eq_true_iff.mpr ⟨rfl, List.all_eq_true.mpr fun label hlabel => ?_⟩
  exact decide_eq_true (labels_clone template birth ▸ mem_worker_labels_true hlabel)

theorem Container.IsClone.autoscaled {c : Container} (h : c.IsClone) :
    _AUTOSCALED_LABEL ∈ c.labels := by
  obtain ⟨template, birth, rfl⟩ := h
  exact List.mem_cons_of_mem _ (List.mem_cons_of_mem _ List.mem_cons_self)

section Created

variable {fleet created : Fleet} {cs : List Container}

theorem Fleet.list_workers_created (h : created.containers = cs ++ fleet.containers)
    (hcs : ∀ c ∈ cs, c.IsClone) (autoscaled_only : Bool) :
    created._list_workers autoscaled_only = cs ++ fleet._list_workers autoscaled_only := by
  rw [_list_workers, h, List.filter_append,
    List.filter_eq_self.mpr fun c hc => (hcs c hc).listed autoscaled_only]
  rfl

theorem Fleet.baseline_created (h : created.containers = cs ++ fleet.containers)
    (hcs : ∀ c ∈ cs, c.IsClone) : created.baseline = fleet.baseline := by
  have hnone : (cs.filter fun c => decide (_AUTOSCALED_LABEL ∉ c.labels)) = [] := by
    refine List.filter_eq_nil_iff.mpr fun c hc => ?_
    rw [decide_eq_true_eq]
    exact fun h => h (hcs c hc).autoscaled
  rw [baseline, list_workers_created h hcs, List.filter_append, hnone]
  rfl

end Created

/-- What `create_vms` adds. -/
theorem VMService.containers_create_vms (vm : VMService) {births : Nat → Birth} {fleet : Fleet}
    {count : Nat} (hworker : fleet._list_workers false ≠ [])
    (hdistinct : ∀ i < count, ∀ j < count, (births i).suffix = (births j).suffix → i = j)
    (hnew : ∀ i < count, ∀ c ∈ fleet.containers,
      c.name ≠ "dass-worker-autoscaled-" ++ (births i).suffix) :
    ∃ template : Container, (vm.create_vms births fleet count).containers =
      ((List.range count).map fun i => template.clone (births i)).reverse ++
        fleet.containers := by
  obtain ⟨template, htemplate⟩ : ∃ template, vm._template_container fleet = some template := by
    rw [_template_container]
    cases hfound : fleet.containers.find? fun c => c.name = vm.template_name with
    | some template => exact ⟨template, rfl⟩
    | none => exact ⟨_, List.head?_eq_some_head hworker⟩
  refine ⟨template, ?_⟩
  rw [create_vms, htemplate]
  refine Fleet.containers_foldl_run ?_ ?_
  · rw [List.map_map]
    refine List.Nodup.map_on (fun i hi j hj heq => ?_) List.nodup_range
    exact hdistinct i (List.mem_range.mp hi) j (List.mem_range.mp hj)
      (String.append_right_inj _ |>.mp heq)
  · intro c hc hmem
    obtain ⟨i, hi, rfl⟩ := List.mem_map.mp hc
    obtain ⟨d, hd, hname⟩ := List.mem_map.mp hmem
    exact hnew i (List.mem_range.mp hi) d hd hname

/-! ## The oldest workers -/

section Terminated

variable {fleet : Fleet}

theorem Fleet.containers_terminate_vms (fleet : Fleet) (count : Nat) :
    (fleet.terminate_vms count).containers =
      fleet.containers.filter fun c => c ∉ fleet.by_age.take count := by
  have hfold : ∀ (cs : List Container) (fleet : Fleet), (cs.foldl remove fleet).containers =
      fleet.containers.filter fun d => cs.all fun c => d.name ≠ c.name := by
    intro cs
    induction cs with
    | nil => exact fun fleet => (List.filter_eq_self.mpr fun _ _ => rfl).symm
    | cons c cs ih =>
        intro fleet
        rw [List.foldl_cons, ih, remove, List.filter_filter]
        refine List.filter_congr fun d _ => ?_
        rw [List.all_cons, Bool.and_comm]
  rw [terminate_vms, hfold]
  refine List.filter_congr fun d hd => ?_
  rw [Bool.eq_iff_iff, decide_eq_true_eq, List.all_eq_true]
  refine ⟨fun h hmem => of_decide_eq_true (h d hmem) rfl, fun h c hc => ?_⟩
  refine decide_eq_true fun hname => h ?_
  rwa [fleet.eq_of_name hd (mem_containers_of_by_age (List.mem_of_mem_take hc)) hname]

theorem Fleet.list_workers_terminated (fleet : Fleet) (count : Nat) (autoscaled_only : Bool) :
    (fleet.terminate_vms count)._list_workers autoscaled_only =
      (fleet._list_workers autoscaled_only).filter fun c => c ∉ fleet.by_age.take count := by
  rw [_list_workers, _list_workers, containers_terminate_vms, List.filter_filter,
    List.filter_filter]
  refine List.filter_congr fun c _ => ?_
  rw [Bool.and_comm]

theorem Fleet.autoscaled_of_by_age {c : Container} (h : c ∈ fleet.by_age) :
    _AUTOSCALED_LABEL ∈ c.labels := by
  have hlabels := (List.mem_filter.mp (mem_by_age.mp h)).2
  simp only [worker_labels, if_true, Bool.and_eq_true, List.all_cons, decide_eq_true_eq]
    at hlabels
  exact hlabels.2.2.2.1

theorem Fleet.baseline_terminated (fleet : Fleet) (count : Nat) :
    (fleet.terminate_vms count).baseline = fleet.baseline := by
  rw [baseline, baseline, list_workers_terminated, List.filter_filter]
  refine List.filter_congr fun c _ => ?_
  rw [Bool.and_eq_left_iff_imp, decide_eq_true_eq, decide_eq_true_eq]
  exact fun hbase htaken => hbase (autoscaled_of_by_age (List.mem_of_mem_take htaken))

/-- How many autoscaled workers are left. -/
theorem Fleet.length_by_age_terminated (fleet : Fleet) (count : Nat) :
    (fleet.terminate_vms count).by_age.length = fleet.by_age.length - count := by
  have hperm : ((fleet._list_workers true).filter fun c => c ∉ fleet.by_age.take count).Perm
      (fleet.by_age.filter fun c => c ∉ fleet.by_age.take count) :=
    ((List.mergeSort_perm _ _).filter _).symm
  have hdrop : (fleet.by_age.filter fun c => c ∉ fleet.by_age.take count) =
      fleet.by_age.drop count := by
    have hsplit := congrArg (List.filter fun c => decide (c ∉ fleet.by_age.take count))
      (List.take_append_drop count fleet.by_age)
    rw [← hsplit, List.filter_append, List.filter_eq_nil_iff.mpr fun c hc => by simpa using hc,
      List.nil_append]
    refine List.filter_eq_self.mpr fun c hc => decide_eq_true fun htaken => ?_
    exact List.disjoint_take_drop fleet.nodup_by_age (Nat.le_refl count) htaken hc
  rw [length_by_age, list_workers_terminated, hperm.length_eq, hdrop, List.length_drop]

/-- Those that go are the oldest. -/
theorem Fleet.created_le_of_taken {count : Nat} {c d : Container}
    (hc : c ∈ fleet.by_age.take count) (hd : d ∈ fleet.by_age)
    (hkept : d ∉ fleet.by_age.take count) : c.created.getD "" ≤ d.created.getD "" := by
  have hsorted : fleet.by_age.Pairwise fun c d => c.created.getD "" ≤ d.created.getD "" := by
    refine (List.pairwise_mergeSort (fun a b c hab hbc => ?_) (fun a b => ?_)
      (fleet._list_workers true)).imp of_decide_eq_true
    · exact decide_eq_true (String.le_trans (of_decide_eq_true hab) (of_decide_eq_true hbc))
    · simpa using String.le_total _ _
  rw [← List.take_append_drop count fleet.by_age] at hsorted hd
  exact (List.pairwise_append.mp hsorted).2.2 c hc d ((List.mem_append.mp hd).resolve_left hkept)

end Terminated

/-! ## One reading -/

theorem desired_eq (reads : DepthReads) :
    (AutoScaler.decide reads).1 =
      max MIN_VMS (min MAX_VMS (reads.total ⌈/⌉ DEPTH_PER_VM)) := by
  rw [AutoScaler.decide, clamp]
  split
  · next hzero => rw [hzero, zero_ceilDiv]
  · rfl

/-- The messages the queues that answer tell of, those in flight too. -/
def DepthReads.messages (reads : DepthReads) : Nat :=
  ([.normal, .scheduled, .retry].map fun q =>
    match reads q with
    | .ok attrs => attrs.ApproximateNumberOfMessages.getD 0 +
        attrs.ApproximateNumberOfMessagesNotVisible.getD 0
    | .error _ => 0).sum

theorem DepthReads.total_eq_messages (reads : DepthReads) : reads.total = reads.messages := by
  have hdepth : ∀ q, _depth (reads q) = match reads q with
      | .ok attrs => attrs.ApproximateNumberOfMessages.getD 0 +
          attrs.ApproximateNumberOfMessagesNotVisible.getD 0
      | .error _ => 0 := by
    intro q
    cases reads q <;> rfl
  simp only [total, messages, hdepth, List.map_cons, List.map_nil, List.sum_cons, List.sum_nil,
    Nat.add_zero, Nat.add_assoc]

theorem Fleet.length_get_active_vms (fleet : Fleet) :
    fleet.get_active_vms.length = fleet.baseline.length + fleet.by_age.length := by
  rw [get_active_vms, List.length_map, length_list_workers]

/-- What one `apply` makes of a fleet, with the baseline to be kept. -/
structure Scaled (scaler : AutoScaler) (reads : DepthReads) (kept : List Container)
    (fleet scaled : Fleet) : Prop where
  size : scaled.get_active_vms.length =
    max (max MIN_VMS (min MAX_VMS (reads.total ⌈/⌉ DEPTH_PER_VM))) kept.length
  depth : reads.total = reads.messages
  baseline : scaled.baseline = kept
  /-- Who goes is autoscaled, and none of the autoscaled that stay is older. -/
  stopped : ∀ c ∈ fleet.containers, c ∉ scaled.containers →
    c ∈ fleet._list_workers true ∧
      ∀ d ∈ fleet._list_workers true, d ∈ scaled.containers →
        c.created.getD "" ≤ d.created.getD ""
  /-- Who comes is an autoscaled worker with an id of its own. -/
  created : ∀ c ∈ scaled.containers, c ∉ fleet.containers →
    c ∈ scaled._list_workers true ∧
      ∀ d ∈ scaled._list_workers false, d ≠ c → d.worker_id ≠ c.worker_id
  again : ∀ births, scaler.apply births reads scaled = scaled

section Step

variable {scaler : AutoScaler} {reads : DepthReads} {fleet : Fleet}

/-- A fleet of the size aimed at stays. -/
theorem apply_of_size (hsize : fleet.get_active_vms.length =
      max (AutoScaler.decide reads).1 fleet.baseline.length) (births : Nat → Birth) :
    scaler.apply births reads fleet = fleet := by
  have hlength := fleet.length_get_active_vms
  rw [AutoScaler.apply]
  split
  · dsimp only
    rw [if_neg (by omega)]
    split
    · -- the baseline alone is too many, and no autoscaled worker is left
      next hlt =>
        have hnil : fleet.by_age = [] := List.length_eq_zero_iff.mp (by omega)
        rw [Fleet.terminate_vms, hnil, List.take_nil]
        rfl
    · rfl
  · rfl

/-- The suffixes of one reading are new on the host. -/
structure NewSuffixes (births : Nat → Birth) (fleet : Fleet) : Prop where
  distinct : ∀ i < MAX_VMS, ∀ j < MAX_VMS, (births i).suffix = (births j).suffix → i = j
  unused : ∀ i < MAX_VMS, ∀ c ∈ fleet.containers,
    c.name ≠ "dass-worker-autoscaled-" ++ (births i).suffix ∧
      c.worker_id ≠ "worker-as-" ++ (births i).suffix

/-- The containers that come are clones, with births of this reading. -/
theorem create_vms_spec (vm : VMService) {births : Nat → Birth} {count : Nat}
    (hbaseline : fleet.baseline ≠ []) (hnew : NewSuffixes births fleet)
    (hcount : count ≤ MAX_VMS) :
    ∃ template : Container, (vm.create_vms births fleet count).containers =
      ((List.range count).map fun i => template.clone (births i)).reverse ++
        fleet.containers := by
  have hworker : fleet._list_workers false ≠ [] := by
    intro hnil
    exact hbaseline (by rw [Fleet.baseline, hnil, List.filter_nil])
  refine vm.containers_create_vms hworker (fun i hi j hj => ?_) (fun i hi c hc => ?_)
  · exact hnew.distinct i (hi.trans_le hcount) j (hj.trans_le hcount)
  · exact (hnew.unused i (hi.trans_le hcount) c hc).1

theorem mem_clones {template c : Container} {births : Nat → Birth} {count : Nat} :
    c ∈ ((List.range count).map fun i => template.clone (births i)).reverse ↔
      ∃ i < count, template.clone (births i) = c := by
  simp only [List.mem_reverse, List.mem_map, List.mem_range]

theorem scaled_create {births : Nat → Birth} (hbaseline : fleet.baseline ≠ [])
    (hnew : NewSuffixes births fleet)
    (hlt : fleet.get_active_vms.length < (AutoScaler.decide reads).1) :
    Scaled scaler reads fleet.baseline fleet (scaler.vm_service.create_vms births fleet
      ((AutoScaler.decide reads).1 - fleet.get_active_vms.length)) := by
  have hmax : (AutoScaler.decide reads).1 ≤ MAX_VMS := desired_le_iff.mpr
    ⟨by decide, .inl (Nat.le_refl _)⟩
  have hcount : (AutoScaler.decide reads).1 - fleet.get_active_vms.length ≤ MAX_VMS := by omega
  obtain ⟨template, hcontainers⟩ := create_vms_spec scaler.vm_service hbaseline hnew hcount
  generalize hcreated : scaler.vm_service.create_vms births fleet _ = created at *
  have hclones : ∀ c ∈ ((List.range ((AutoScaler.decide reads).1 -
      fleet.get_active_vms.length)).map fun i => template.clone (births i)).reverse,
      c.IsClone := by
    intro c hc
    obtain ⟨i, -, rfl⟩ := mem_clones.mp hc
    exact ⟨template, births i, rfl⟩
  have hkept := Fleet.baseline_created hcontainers hclones
  have hsize : created.get_active_vms.length =
      max (AutoScaler.decide reads).1 fleet.baseline.length := by
    have hlength := fleet.length_get_active_vms
    have hworkers := fleet.length_list_workers
    rw [Fleet.get_active_vms, List.length_map,
      Fleet.list_workers_created hcontainers hclones false, List.length_append,
      List.length_reverse, List.length_map, List.length_range]
    omega
  refine ⟨desired_eq reads ▸ hsize, reads.total_eq_messages, hkept, fun c hc hgone => ?_,
    fun c hc hcame => ?_, ?_⟩
  · exact absurd (hcontainers ▸ List.mem_append_right _ hc) hgone
  · have hclone := (List.mem_append.mp (hcontainers ▸ hc)).resolve_right hcame
    refine ⟨?_, fun d hd hne => ?_⟩
    · rw [Fleet.list_workers_created hcontainers hclones]
      exact List.mem_append_left _ hclone
    · obtain ⟨i, hi, rfl⟩ := mem_clones.mp hclone
      rw [worker_id_clone]
      rcases List.mem_append.mp (hcontainers ▸ List.mem_of_mem_filter hd) with hd | hd
      · obtain ⟨j, hj, rfl⟩ := mem_clones.mp hd
        rw [worker_id_clone]
        intro heq
        refine hne ?_
        rw [hnew.distinct j (hj.trans_le hcount) i (hi.trans_le hcount)
          ((String.append_right_inj _).mp heq)]
      · exact (hnew.unused i (hi.trans_le hcount) d hd).2
  · exact apply_of_size (hkept ▸ hsize)

theorem scaled_terminate (hlt : (AutoScaler.decide reads).1 < fleet.get_active_vms.length) :
    Scaled scaler reads fleet.baseline fleet (fleet.terminate_vms
      (fleet.get_active_vms.length - (AutoScaler.decide reads).1)) := by
  have hkept := fleet.baseline_terminated
    (fleet.get_active_vms.length - (AutoScaler.decide reads).1)
  have hsize : (fleet.terminate_vms
      (fleet.get_active_vms.length - (AutoScaler.decide reads).1)).get_active_vms.length =
      max (AutoScaler.decide reads).1 fleet.baseline.length := by
    have hlength := fleet.length_get_active_vms
    rw [Fleet.length_get_active_vms, hkept, Fleet.length_by_age_terminated]
    omega
  refine ⟨desired_eq reads ▸ hsize, reads.total_eq_messages, hkept, fun c hc hgone => ?_,
    fun c hc hcame => ?_, apply_of_size (hkept.symm ▸ hsize)⟩
  · have htaken := Decidable.not_not.mp fun h => hgone (mem_terminate_vms.mpr ⟨hc, h⟩)
    refine ⟨Fleet.mem_by_age.mp (List.mem_of_mem_take htaken), fun d hd hstays => ?_⟩
    exact Fleet.created_le_of_taken htaken (Fleet.mem_by_age.mpr hd)
      (mem_terminate_vms.mp hstays).2
  · exact absurd (mem_terminate_vms.mp hc).1 hcame

/-- One `apply`, with suffixes that are new. -/
theorem scaled_apply (he : scaler.enabled = true) {births : Nat → Birth}
    (hbaseline : fleet.baseline ≠ []) (hnew : NewSuffixes births fleet) :
    Scaled scaler reads fleet.baseline fleet (scaler.apply births reads fleet) := by
  rw [AutoScaler.apply, if_pos he]
  dsimp only
  split
  · next hlt => exact scaled_create hbaseline hnew hlt
  · next hge =>
      split
      · next hlt => exact scaled_terminate hlt
      · next hle =>
          have hsize : fleet.get_active_vms.length =
              max (AutoScaler.decide reads).1 fleet.baseline.length := by
            have hlength := fleet.length_get_active_vms
            omega
          exact ⟨desired_eq reads ▸ hsize, reads.total_eq_messages, rfl,
            fun c hc hgone => absurd hc hgone, fun c hc hcame => absurd hc hcame, apply_of_size hsize⟩

end Step

/-! ## A run -/

/-- The fleet after `n` readings. -/
def AutoScaler.fleets (scaler : AutoScaler) (births : Nat → Nat → Birth)
    (reads : Nat → DepthReads) (fleet : Fleet) : Nat → Fleet
  | 0 => fleet
  | n + 1 => scaler.apply (births n) (reads n) (scaler.fleets births reads fleet n)

/-- The suffixes of the first readings are distinct, and new on the host. -/
structure FreshSuffixes (births : Nat → Nat → Birth) (readings : Nat) (fleet : Fleet) :
    Prop where
  distinct : ∀ m < readings, ∀ i < MAX_VMS, ∀ n < readings, ∀ j < MAX_VMS,
    (births m i).suffix = (births n j).suffix → m = n ∧ i = j
  unused : ∀ n < readings, ∀ i < MAX_VMS, ∀ c ∈ fleet.containers,
    c.name ≠ "dass-worker-autoscaled-" ++ (births n i).suffix ∧
      c.worker_id ≠ "worker-as-" ++ (births n i).suffix

/-- What holds of the fleet after `n` readings. -/
structure Reached (births : Nat → Nat → Birth) (fleet : Fleet) (n : Nat) (reached : Fleet) :
    Prop where
  baseline : reached.baseline = fleet.baseline
  /-- Where its containers are from. -/
  origin : ∀ c ∈ reached.containers, c ∈ fleet.containers ∨
    ∃ m < n, ∃ i < MAX_VMS, ∃ template : Container, template.clone (births m i) = c

section Runs

variable {scaler : AutoScaler} {births : Nat → Nat → Birth} {reads : Nat → DepthReads}
  {fleet reached : Fleet} {readings n : Nat}

/-- What is new to the first fleet is new to the one reached. -/
theorem Reached.newSuffixes (h : Reached births fleet n reached)
    (hfresh : FreshSuffixes births readings fleet) (hn : n < readings) :
    NewSuffixes (births n) reached where
  distinct := fun i hi j hj heq => (hfresh.distinct n hn i hi n hn j hj heq).2
  unused := by
    intro i hi c hc
    rcases h.origin c hc with hc | ⟨m, hm, j, hj, template, rfl⟩
    · exact hfresh.unused n hn i hi c hc
    · have hsuffix : (births m j).suffix ≠ (births n i).suffix := by
        intro heq
        exact hm.ne (hfresh.distinct m (hm.trans hn) j hj n hn i hi heq).1
      refine ⟨fun heq => ?_, fun heq => ?_⟩
      · exact hsuffix ((String.append_right_inj _).mp heq)
      · rw [worker_id_clone] at heq
        exact hsuffix ((String.append_right_inj _).mp heq)

theorem origin_apply {births : Nat → Birth} {reads : DepthReads}
    (hbaseline : fleet.baseline ≠ []) (hnew : NewSuffixes births fleet) {c : Container}
    (hc : c ∈ (scaler.apply births reads fleet).containers) :
    c ∈ fleet.containers ∨
      ∃ i < MAX_VMS, ∃ template : Container, template.clone (births i) = c := by
  have hmax : (AutoScaler.decide reads).1 ≤ MAX_VMS := desired_le_iff.mpr
    ⟨by decide, .inl (Nat.le_refl _)⟩
  rw [AutoScaler.apply] at hc
  split at hc
  · dsimp only at hc
    split at hc
    · obtain ⟨template, hcontainers⟩ := create_vms_spec scaler.vm_service hbaseline hnew
        (Nat.sub_le_of_le_add (hmax.trans (Nat.le_add_right _ _)))
      rw [hcontainers] at hc
      rcases List.mem_append.mp hc with hc | hc
      · obtain ⟨i, hi, heq⟩ := mem_clones.mp hc
        exact .inr ⟨i, by omega, template, heq⟩
      · exact .inl hc
    · split at hc
      · exact .inl (mem_terminate_vms.mp hc).1
      · exact .inl hc
  · exact .inl hc

theorem Reached.apply (he : scaler.enabled = true) (hbaseline : fleet.baseline ≠ [])
    (hfresh : FreshSuffixes births readings fleet) (hn : n < readings)
    (h : Reached births fleet n reached) :
    Reached births fleet (n + 1) (scaler.apply (births n) (reads n) reached) := by
  have hnew := h.newSuffixes hfresh hn
  have hbaseline' : reached.baseline ≠ [] := h.baseline ▸ hbaseline
  refine ⟨(scaled_apply he hbaseline' hnew).baseline.trans h.baseline, fun c hc => ?_⟩
  rcases origin_apply hbaseline' hnew hc with hc | ⟨i, hi, hclone⟩
  · rcases h.origin c hc with hc | ⟨m, hm, hclone⟩
    · exact .inl hc
    · exact .inr ⟨m, hm.trans n.lt_succ_self, hclone⟩
  · exact .inr ⟨n, n.lt_succ_self, i, hi, hclone⟩

variable (scaler reads) in
theorem reached_fleets (he : scaler.enabled = true) (hbaseline : fleet.baseline ≠ [])
    (hfresh : FreshSuffixes births readings fleet) (hn : n ≤ readings) :
    Reached births fleet n (scaler.fleets births reads fleet n) := by
  induction n with
  | zero => exact ⟨rfl, fun c hc => .inl hc⟩
  | succ n ih => exact (ih (Nat.le_of_succ_le hn)).apply he hbaseline hfresh hn

end Runs

/-- **The fleet follows the depths, and keeps its baseline.**  For every fleet with a worker that
is not autoscaled, and depths and suffixes, fresh ones, of any number of readings: `apply` of
each reading leaves a worker for every twenty messages of the queues that answer, one at least and
ten at most, or the baseline where that is more; the baseline is the first fleet's; who goes is autoscaled, the
oldest first; who comes is an autoscaled worker whose id no other worker has; and `apply` with
the same depths again changes nothing. -/
theorem fleet_follows_depths (scaler : AutoScaler) (he : scaler.enabled = true)
    (births : Nat → Nat → Birth) (reads : Nat → DepthReads) (fleet : Fleet)
    (hbaseline : fleet.baseline ≠ []) (readings : Nat)
    (hfresh : FreshSuffixes births readings fleet) :
    ∀ n < readings, Scaled scaler (reads n) fleet.baseline
      (scaler.fleets births reads fleet n) (scaler.fleets births reads fleet (n + 1)) := by
  intro n hn
  have hreached := reached_fleets scaler reads he hbaseline hfresh hn.le
  rw [← hreached.baseline]
  exact scaled_apply he (hreached.baseline ▸ hbaseline) (hreached.newSuffixes hfresh hn)

/-- Ten suffixes a reading. -/
def example_births (n i : Nat) : Birth :=
  ⟨.ofList [Char.ofNat (97 + n), Char.ofNat (97 + i)], "2024-02-01"⟩

/-- A busy reading, then an idle one. -/
def example_reads : Nat → DepthReads
  | 0 => fun _ => .ok ⟨some 30, some 10⟩
  | _ => fun _ => .ok ⟨some 0, none⟩

theorem example_fleet_follows :
    Scaled ⟨"sqs", ⟨"dass-worker-1"⟩⟩ (example_reads 1) example_fleet.baseline
      (AutoScaler.fleets ⟨"sqs", ⟨"dass-worker-1"⟩⟩ example_births example_reads example_fleet 1)
      (AutoScaler.fleets ⟨"sqs", ⟨"dass-worker-1"⟩⟩ example_births example_reads example_fleet
        2) := by
  have hreading : ∀ m < 2, ∀ i < MAX_VMS, ∀ n < 2, ∀ j < MAX_VMS,
      (example_births m i).suffix = (example_births n j).suffix → m = n := by
    decide +kernel
  have hindex : ∀ m < 2, ∀ i < MAX_VMS, ∀ n < 2, ∀ j < MAX_VMS,
      (example_births m i).suffix = (example_births n j).suffix → i = j := by
    decide +kernel
  have hfresh : FreshSuffixes example_births 2 example_fleet := by
    refine ⟨fun m hm i hi n hn j hj heq => ?_, by decide +kernel⟩
    exact ⟨hreading m hm i hi n hn j hj heq, hindex m hm i hi n hn j hj heq⟩
  exact fleet_follows_depths _ (by decide +kernel) example_births example_reads example_fleet
    (by decide +kernel) 2 hfresh 1 (by decide)

end Dass
