import Kne.NodeFailed
import Kne.Runs

/-!
The nodes of a topology in one namespace. Nodes are created one after another, each in any
environment, and some of them fail; with every object goes the node for which it was created.
-/

namespace Kne.NodeSpace

open Kne.Objects Kne.Runs Kne.NodeModel Kne.NodePrograms Kne.NodeServices Kne.NodeMade
  Kne.NodeDelete Kne.NodeFailed

variable {w : Env} {pb : Proto} {v : NodeType} {s t u : Cluster} {o : Obj}

/-! ### What a node adds -/

/-- An object such as the node creates. -/
def MadeBy (w : Env) (pb : Proto) (v : NodeType) : Obj → Prop
  | .pod p => p.name = pb.name ∧ p.labels = labelsOf w pb v
  | .service svc => ∃ ports, servicePorts pb = .ok ports ∧ svc ∈ vendorServices w pb ports v
  | .daemonSet ds => ∃ ports, servicePorts pb = .ok ports ∧
      ds ∈ proxiesOf w pb (servicesOf w pb ports)
  | .configMap _ | .file _ => True

lemma adds_createTemp (data : Bytes) : Adds (MadeBy w pb v) (createTemp w pb data) := by
  unfold createTemp
  cases w.tempErr with
  | some err => exact adds_throw _
  | none =>
    refine Adds.bind (adds_createObj trivial) fun _ => ?_
    cases w.writeErr with
    | some err => exact (adds_removeObj _).bind fun _ => adds_throw _
    | none => exact adds_pure _

lemma adds_createConfig : Adds (MadeBy w pb v) (createConfig w pb) := by
  refine (adds_orFail _).bind fun data => ?_
  split_ifs
  · exact adds_pure _
  · exact (adds_createObj trivial).bind fun _ => adds_pure _
  · exact (adds_createTemp data).bind fun _ => adds_pure _

lemma adds_mountConfig : Adds (MadeBy w pb v) (mountConfig w pb) := by
  unfold mountConfig
  cases pb.config.configData with
  | none => exact adds_pure _
  | some d =>
    refine adds_createConfig.bind fun vol => ?_
    cases vol with
    | none => exact adds_throw _
    | some vol => exact adds_pure _

lemma adds_alpineFiles : Adds (MadeBy w pb v) (alpineFiles w pb) := by
  unfold alpineFiles
  split
  · exact adds_pure _
  · split_ifs
    · exact adds_pure _
    · exact (adds_orFail _).bind fun _ => Adds.bind (adds_createObj trivial) fun _ => adds_pure _
  · exact adds_throw _

lemma adds_cienaEquipment : Adds (MadeBy w pb v) (cienaEquipment w pb) := by
  unfold cienaEquipment
  split
  · exact adds_pure _
  · exact (adds_orFail _).bind fun _ => Adds.bind (adds_createObj trivial) fun _ => adds_pure _
  · exact adds_throw _

lemma adds_mounted {pod : List Volume × List VolumeMount → Prog Unit}
    (h : ∀ x, Adds (MadeBy w pb v) (pod x)) :
    Adds (MadeBy w pb v) (toResourceRequirements w pb >>= fun _ => mountConfig w pb >>= pod) :=
  adds_toResourceRequirements.bind fun _ => adds_mountConfig.bind h

lemma adds_copied {pod : Option Volume → Prog Unit} (h : ∀ x, Adds (MadeBy w pb v) (pod x)) :
    Adds (MadeBy w pb v) (toResourceRequirements w pb >>= fun _ => createConfig w pb >>= pod) :=
  adds_toResourceRequirements.bind fun _ => adds_createConfig.bind h

lemma adds_vendorCreatePod (w : Env) (pb : Proto) (v : NodeType) :
    Adds (MadeBy w pb v) (vendorCreatePod w pb v) := by
  cases v with
  | impl => exact (adds_orFail _).bind fun _ => adds_mounted fun _ => adds_createObj ⟨rfl, rfl⟩
  | cisco =>
    unfold vendorCreatePod
    split_ifs
    · exact adds_copied fun _ => Adds.wrap _ (adds_createObj ⟨rfl, rfl⟩)
    · exact adds_mounted fun _ => Adds.wrap _ (adds_createObj ⟨rfl, rfl⟩)
  | juniper => exact adds_copied fun _ => Adds.wrap _ (adds_createObj ⟨rfl, rfl⟩)
  | alpine =>
    exact adds_toResourceRequirements.bind fun _ => adds_alpineFiles.bind fun _ =>
      adds_mountConfig.bind fun _ => adds_createObj ⟨rfl, rfl⟩
  | sonic => exact adds_mounted fun _ => adds_createObj ⟨rfl, rfl⟩
  | ciena =>
    exact adds_cienaEquipment.bind fun _ => adds_mounted fun _ =>
      Adds.wrap _ (adds_createObj ⟨rfl, rfl⟩)
  | forward => exact (adds_orFail _).bind fun _ => adds_mounted fun _ => adds_createObj ⟨rfl, rfl⟩

lemma vendorCreateService_error {e : Err} (h : vendorCreateService w pb v s = .error e t) :
    s = t := by
  cases v with
  | forward => exact forwardCreateService_error h
  | _ => exact createService_error h

lemma adds_vendorCreateService (w : Env) (pb : Proto) (v : NodeType) :
    Adds (MadeBy w pb v) (vendorCreateService w pb v) := by
  intro s o ho
  cases hs : vendorCreateService w pb v s with
  | error e t =>
    rw [after_error hs, ← vendorCreateService_error hs] at ho
    exact Or.inl ho
  | ok z t =>
    obtain ⟨ports, hports, hgrown⟩ := vendorCreateService_grown hs
    rw [after_ok hs, hgrown.mem, List.mem_append] at ho
    rcases ho with ho | ho | ho
    · exact Or.inl ho
    · obtain ⟨svc, hsvc, rfl⟩ := List.mem_map.mp ho
      exact Or.inr ⟨ports, hports, hsvc⟩
    · obtain ⟨ds, hds, rfl⟩ := List.mem_map.mp ho
      exact Or.inr ⟨ports, hports, hds⟩

lemma adds_createBoth :
    Adds (MadeBy w pb v) (createBoth pb (vendorCreatePod w pb v) (vendorCreateService w pb v)) :=
  Adds.bind (Adds.wrap _ (adds_vendorCreatePod w pb v)) fun _ =>
    Adds.wrap _ (adds_vendorCreateService w pb v)

/-- **Creation stays with its own.** Whatever becomes of a `Create`, what it adds is its node's. -/
lemma adds_create (w : Env) (pb : Proto) (v : NodeType) :
    Adds (MadeBy w pb v) (create w pb v) := by
  cases v with
  | impl => exact adds_createBoth (v := .impl)
  | cisco =>
    have hpod := adds_vendorCreatePod w pb .cisco
    unfold vendorCreatePod at hpod
    refine (adds_validateConstraints _).bind fun _ => ?_
    split_ifs at hpod ⊢
    · exact hpod.bind fun _ => adds_vendorCreateService w pb .cisco
    · exact hpod.bind fun _ => adds_vendorCreateService w pb .cisco
  | juniper =>
    exact (adds_vendorCreatePod w pb .juniper).bind fun _ => adds_vendorCreateService w pb .juniper
  | alpine => exact (adds_validateConstraints _).bind fun _ => adds_createBoth (v := .alpine)
  | sonic => exact (adds_validateConstraints _).bind fun _ => adds_createBoth (v := .sonic)
  | ciena => exact (adds_validateConstraints _).bind fun _ => adds_createBoth (v := .ciena)
  | forward => exact (adds_validateConstraints _).bind fun _ => adds_createBoth (v := .forward)

/-! ### A namespace and its nodes -/

/-- The objects of a namespace, and which of them was created for which node. -/
structure Space where
  store : Cluster
  made : Finset (String × Obj)

/-- A node of the topology is created. -/
structure Act where
  node : ℕ
  env : Env

/-- The namespace after a `Create`, whatever becomes of it. -/
def created (w : Env) (pb : Proto) (v : NodeType) (s : Space) : Space :=
  let t := after (create w pb v) s.store
  ⟨t, s.made ∪ (t.objs \ s.store.objs).image fun o => (pb.name, o)⟩

def step (nodes : List (Proto × NodeType)) (s : Space) (a : Act) : Option Space :=
  nodes[a.node]?.map fun (pb, v) => created a.env pb v s

lemma mem_made_created {s : Space} {n : String} : (n, o) ∈ (created w pb v s).made ↔
    (n, o) ∈ s.made ∨ n = pb.name ∧ o ∈ (created w pb v s).store.objs ∧ o ∉ s.store.objs := by
  simp only [created, Finset.mem_union, Finset.mem_image, Finset.mem_sdiff, Prod.mk.injEq]
  refine or_congr_right ⟨?_, ?_⟩
  · rintro ⟨o', ho, rfl, rfl⟩
    exact ⟨rfl, ho⟩
  · rintro ⟨rfl, ho⟩
    exact ⟨o, ho, rfl, rfl⟩

/-- What was created for a name is such as a node of that name creates. -/
def Owned (nodes : List (Proto × NodeType)) (s : Space) : Prop :=
  ∀ n o, (n, o) ∈ s.made → ∃ x ∈ nodes, x.1.name = n ∧ ∃ w, MadeBy w x.1 x.2 o

lemma owned_step {nodes : List (Proto × NodeType)} {s t : Space} {a : Act} (hs : Owned nodes s)
    (h : step nodes s a = some t) : Owned nodes t := by
  obtain ⟨⟨pb, v⟩, hnode, rfl⟩ := Option.map_eq_some_iff.mp h
  intro n o hmade
  rcases mem_made_created.mp hmade with hmade | ⟨rfl, hnew, hold⟩
  · exact hs n o hmade
  · exact ⟨(pb, v), List.mem_of_getElem? hnode, rfl, a.env,
      (adds_create a.env pb v s.store o hnew).resolve_left hold⟩

/-- **Ownership.** In every run, what was created for a node is such as the node creates. -/
lemma owned_run {nodes : List (Proto × NodeType)} {s : Cluster} {t : Space} {as : List Act}
    (h : run (step nodes) ⟨s, ∅⟩ as = some t) : Owned nodes t :=
  run_inv (fun _ _ _ hs hstep => owned_step hs hstep)
    (fun _ _ hmade => absurd hmade (Finset.notMem_empty _)) h

/-! ### Bare nodes -/

/-- A node with nothing but its name, its labels and its services. -/
def bare (pb : Proto) : Proto where
  name := pb.name
  labels := pb.labels
  services := pb.services

/-- The environment in which no request is refused and every port has a node port. -/
def openEnv : Env := { bareEnv with assignedPort := fun _ _ => 1 }

lemma free_openEnv {k : Key} : Free openEnv s k ↔ ¬ s.Has k := by
  simp [Free, openEnv, bareEnv]

lemma bare_pod (h : ¬ s.Has ⟨.pod, pb.name⟩) (v : NodeType) :
    ∃ t, vendorCreatePod openEnv (bare pb) v s = .ok () t := by
  have hpod : ∀ p : Pod, p.name = pb.name → ∃ t, createObj openEnv (.pod p) s = .ok () t := by
    intro p hp
    refine (createObj_ok_iff _).mpr (free_openEnv.mpr ?_)
    rwa [Obj.key, hp]
  have hwrapped : ∀ (pre : String) (p : Pod), p.name = pb.name →
      ∃ t, wrap pre (createObj openEnv (.pod p)) s = .ok () t := by
    intro pre p hp
    simp only [wrap_ok_iff]
    exact hpod p hp
  cases v with
  | impl | alpine | sonic | forward => exact hpod _ rfl
  | cisco | juniper | ciena => exact hwrapped _ _ rfl

lemma after_wrap {α : Type} (pre : String) (x : Prog α) : after (wrap pre x) s = after x s := by
  unfold after wrap
  cases x s <;> rfl

lemma after_create (hv : Validated w v) (h : vendorCreatePod w pb v s = .ok () u) :
    after (create w pb v) s = after (vendorCreateService w pb v) u := by
  have hboth : after (createBoth pb (vendorCreatePod w pb v) (vendorCreateService w pb v)) s =
      after (vendorCreateService w pb v) u :=
    (after_bind (wrap_ok_iff.mpr h)).trans (after_wrap _ _)
  have hvalid : ∀ pre (x : Prog Unit), v ≠ .impl → v ≠ .juniper →
      after (validateConstraints w pre >>= fun _ => x) s = after x s := by
    intro pre x himpl hjuniper
    have hnone := (hv.resolve_left himpl).resolve_left hjuniper
    exact after_bind (validateConstraints_ok_iff (z := ()).mpr ⟨hnone, rfl⟩)
  cases v with
  | impl => exact hboth
  | juniper => exact after_bind h
  | cisco =>
    refine (hvalid _ _ (by simp) (by simp)).trans ?_
    unfold vendorCreatePod at h
    split_ifs at h ⊢
    · exact after_bind h
    · exact after_bind h
  | alpine | sonic | ciena | forward => exact (hvalid _ _ (by simp) (by simp)).trans hboth

lemma mem_after_services (ho : o ∈ s.objs) : o ∈ (after (vendorCreateService w pb v) s).objs := by
  cases hs : vendorCreateService w pb v s with
  | error e t => rwa [after_error hs, ← vendorCreateService_error hs]
  | ok z t =>
    obtain ⟨ports, -, hgrown⟩ := vendorCreateService_grown hs
    rw [after_ok hs, hgrown.mem]
    exact Or.inl ho

lemma bare_creates_pod (h : ¬ s.Has ⟨.pod, pb.name⟩) (v : NodeType) :
    ∃ p, p.labels = labelsOf openEnv (bare pb) v ∧
      .pod p ∈ (after (create openEnv (bare pb) v) s).objs ∧ .pod p ∉ s.objs := by
  obtain ⟨u, hpod⟩ := bare_pod h v
  obtain ⟨data, p, extra, cfg, hm, hg⟩ := vendorCreatePod_made hpod
  refine ⟨p, hm.about.labels, ?_, fun hmem => hg.fresh (.pod p) (by simp) ⟨_, hmem, rfl⟩⟩
  rw [after_create (Or.inr (Or.inr rfl)) hpod]
  exact mem_after_services ((hg.mem _).mpr (Or.inr (by simp)))

lemma bare_creates_services {ports : List (ServiceType × ServicePort)}
    (hports : servicePorts pb = .ok ports) (hpod : ¬ s.Has ⟨.pod, pb.name⟩)
    (hsvc : ∀ a, OwnName pb.name v a → ¬ s.Has ⟨.service, a⟩)
    (hproxy : ¬ s.Has ⟨.daemonSet, proxyName pb.name⟩) :
    ∀ o ∈ (vendorServices openEnv (bare pb) ports v).map Obj.service ++
        (proxiesOf openEnv (bare pb) (servicesOf openEnv (bare pb) ports)).map Obj.daemonSet,
      o ∈ (after (create openEnv (bare pb) v) s).objs ∧ o ∉ s.objs := by
  obtain ⟨u, hmake⟩ := bare_pod hpod v
  obtain ⟨data, p, extra, cfg, hm, hg⟩ := vendorCreatePod_made hmake
  have hfree : ∀ k : Key, k.kind = .service ∨ k.kind = .daemonSet → ¬ s.Has k →
      Free openEnv u k := by
    refine fun k hk hs => free_openEnv.mpr ?_
    rintro ⟨o, ho, rfl⟩
    rcases (hg.mem o).mp ho with ho | ho
    · exact hs ⟨o, ho, rfl⟩
    · have hkind := kind_of_podMade hm ho
      exact hk.elim hkind.1 hkind.2
  have hbare : servicePorts (bare pb) = .ok ports := hports
  obtain ⟨t, ht⟩ := vendorCreateService_ok (w := openEnv) (v := v) hbare
    (fun a ha => hfree _ (Or.inl rfl) (hsvc a ha)) (hfree _ (Or.inr rfl) hproxy)
  obtain ⟨ports', hports', hgrown⟩ := vendorCreateService_grown ht
  obtain rfl : ports = ports' := Except.ok.inj (hports.symm.trans hports')
  intro o ho
  refine ⟨?_, fun hmem => hgrown.fresh o ho ⟨o, (hg.mem o).mpr (Or.inl hmem), rfl⟩⟩
  rw [after_create (Or.inr (Or.inr rfl)) hmake, after_ok ht, hgrown.mem]
  exact Or.inr ho

end Kne.NodeSpace
