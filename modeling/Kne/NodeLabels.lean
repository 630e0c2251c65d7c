import Kne.NodeNames

/-!
Which pods the services of a node select. Services select by the label `app`, with the name of the
node; the pod of the node has this label, but most vendors let the labels of the user overwrite it.
The pods of a proxy have a name of their own under the same label.
-/

namespace Kne.NodeLabels

open Kne.Objects Kne.Runs Kne.NodeModel Kne.NodePrograms Kne.NodeServices Kne.NodeMade
  Kne.NodeSpace Kne.NodeNames

variable {w : Env} {pb : Proto} {v : NodeType} {s : Cluster} {n m : String} {o : Obj}
  {nodes : List (Proto × NodeType)} {x y : Proto × NodeType}

/-! ### Selection -/

/-- A selector matches the labels that have all its entries. -/
def Selects (svc : Service) (labels : List (String × String)) : Prop :=
  ∀ e ∈ svc.selector, labels.lookup e.1 = some e.2

instance (svc : Service) (labels : List (String × String)) : Decidable (Selects svc labels) :=
  inferInstanceAs (Decidable (∀ e ∈ svc.selector, labels.lookup e.1 = some e.2))

/-- The labels of the pods that an object stands for: a pod, or those of a DaemonSet. -/
def labelsOfPods : Obj → Option (List (String × String))
  | .pod p => some p.labels
  | .daemonSet ds => some ds.labels
  | .service _ | .configMap _ | .file _ => none

/-- After any creations in any namespace, the services of a node select its pod and no other. -/
def SelectsOwn (nodes : List (Proto × NodeType)) : Prop :=
  ∀ s as t, run (step nodes) ⟨s, ∅⟩ as = some t → ∀ n svc, (n, .service svc) ∈ t.made →
    ∀ m o labels, (m, o) ∈ t.made → labelsOfPods o = some labels →
      (Selects svc labels ↔ m = n ∧ o.key.kind = .pod)

/-- The label `app` of the pod of a node. -/
def appLabel (x : Proto × NodeType) : String :=
  match x.2 with
  | .alpine | .sonic => x.1.name
  | .impl | .cisco | .juniper | .ciena | .forward => (x.1.labels.lookup "app").getD x.1.name

/-- The node gets services: it has some, and their ports are valid. -/
def Serving (x : Proto × NodeType) : Prop :=
  HasServices x.1 x.2 ∧ ∃ ports, servicePorts x.1 = .ok ports

/-- The node can get a proxy. -/
def Proxied (x : Proto × NodeType) : Prop :=
  (∃ ports, servicePorts x.1 = .ok ports) ∧
    ∃ k svc, x.1.services.lookup k = some svc ∧ svc.externalIpv6 = true

/-- Each node with services has its name for a label, and no other pod has it. -/
def LabelsApart (nodes : List (Proto × NodeType)) : Prop :=
  ∀ x ∈ nodes, Serving x → appLabel x = x.1.name ∧ ∀ y ∈ nodes, y.1.name ≠ x.1.name →
    appLabel y ≠ x.1.name ∧ (Proxied y → proxyName y.1.name ≠ x.1.name)

lemma lookup_labelsOf (w : Env) (x : Proto × NodeType) :
    (labelsOf w x.1 x.2).lookup "app" = some (appLabel x) := by
  have hnode : (nodeLabels w x.1).lookup "app" = some x.1.name := by simp [nodeLabels]
  have hpod : (podLabels w x.1).lookup "app" =
      some ((x.1.labels.lookup "app").getD x.1.name) := by
    rw [podLabels, List.lookup_append, hnode]
    cases x.1.labels.lookup "app" <;> rfl
  obtain ⟨pb, v⟩ := x
  cases v with
  | alpine | sonic => exact hnode
  | _ => exact hpod

lemma selects_iff {svc : Service} {labels : List (String × String)}
    (h : svc.selector = [("app", n)]) : Selects svc labels ↔ labels.lookup "app" = some n := by
  simp [Selects, h]

lemma proxyName_ne (n : String) : proxyName n ≠ n := by
  intro h
  have hlen := congrArg String.length h
  rw [proxyName, String.length_append] at hlen
  have hpos : String.length "v6proxy-" = 8 := rfl
  omega

/-! ### Labels that are apart -/

lemma serving_of_service {svc : Service} (h : MadeBy w x.1 x.2 (.service svc)) :
    Serving x ∧ svc.selector = [("app", x.1.name)] := by
  obtain ⟨ports, hports, hsvc⟩ := h
  exact ⟨⟨(vendorServices_ne_nil_iff hports).mp (List.ne_nil_of_mem hsvc), ports, hports⟩,
    (servicesMade w x.2 hports).selector svc hsvc⟩

lemma proxied_of_daemonSet {ds : DaemonSet} (h : MadeBy w x.1 x.2 (.daemonSet ds)) :
    Proxied x ∧ ds.labels.lookup "app" = some (proxyName x.1.name) := by
  obtain ⟨ports, hports, hds⟩ := h
  have hmade := servicesMade w x.2 hports
  obtain ⟨k, svc, hsvc, h6, -⟩ := hmade.some_proxy.mp (List.ne_nil_of_mem hds)
  exact ⟨⟨⟨ports, hports⟩, k, svc, hsvc, h6⟩, hmade.proxyLabels ds hds⟩

lemma selectsOwn_of_apart (hnames : (nodes.map fun x => x.1.name).Nodup) (h : LabelsApart nodes) :
    SelectsOwn nodes := by
  intro s as t hrun n svc hsvc m o labels ho hlabels
  obtain ⟨x, hx, rfl, w, hby⟩ := owned_run hrun n _ hsvc
  obtain ⟨y, hy, rfl, w', hby'⟩ := owned_run hrun m o ho
  obtain ⟨hserving, hselector⟩ := serving_of_service hby
  obtain ⟨hown, hothers⟩ := h x hx hserving
  rw [selects_iff hselector]
  cases o with
  | pod p =>
    obtain rfl : p.labels = labels := Option.some.inj hlabels
    have hkind : (Obj.pod p).key.kind = .pod := rfl
    rw [hby'.2, lookup_labelsOf, Option.some.injEq, and_iff_left hkind]
    by_cases hxy : y.1.name = x.1.name
    · obtain rfl := List.inj_on_of_nodup_map hnames hy hx hxy
      exact iff_of_true hown rfl
    · exact iff_of_false (hothers y hy hxy).1 hxy
  | daemonSet ds =>
    obtain rfl : ds.labels = labels := Option.some.inj hlabels
    obtain ⟨hproxied, hlabel⟩ := proxied_of_daemonSet hby'
    refine iff_of_false ?_ (by simp [Obj.key])
    rw [hlabel, Option.some.injEq]
    by_cases hxy : y.1.name = x.1.name
    · rw [hxy]
      exact proxyName_ne x.1.name
    · exact (hothers y hy hxy).2 hproxied
  | _ => cases hlabels

/-! ### Bare nodes -/

/-- The nodes with all but their names, labels and services left out. -/
def bareNode (x : Proto × NodeType) : Proto × NodeType := (bare x.1, x.2)

lemma step_bare (hx : x ∈ nodes) : ∃ i, ∀ s,
    step (nodes.map bareNode) s ⟨i, openEnv⟩ = some (created openEnv (bare x.1) x.2 s) := by
  obtain ⟨i, hi⟩ := List.mem_iff_getElem?.mp hx
  refine ⟨i, fun s => ?_⟩
  simp [step, hi, bareNode]

lemma names_bare (nodes : List (Proto × NodeType)) :
    ((nodes.map bareNode).map fun x => x.1.name) = nodes.map fun x => x.1.name := by
  rw [List.map_map]
  rfl

lemma labelsApart_bare : LabelsApart (nodes.map bareNode) ↔ LabelsApart nodes := by
  unfold LabelsApart
  simp only [List.forall_mem_map]
  rfl

/-- The namespace in which the node is the first. -/
def first (x : Proto × NodeType) : Space := created openEnv (bare x.1) x.2 ⟨Store.empty, ∅⟩

lemma madeBy_of_has {k : Key} (h : (first x).store.Has k) :
    ∃ o, MadeBy openEnv (bare x.1) x.2 o ∧ o.key = k := by
  obtain ⟨o, ho, hk⟩ := h
  exact ⟨o, (adds_create openEnv (bare x.1) x.2 Store.empty o ho).resolve_left
    (Finset.notMem_empty o), hk⟩

lemma not_has_pod (h : n ≠ x.1.name) : ¬ (first x).store.Has ⟨.pod, n⟩ := by
  intro hhas
  obtain ⟨o, hby, hk⟩ := madeBy_of_has hhas
  cases o with
  | pod p => exact h ((Key.mk.inj hk).2.symm.trans hby.1)
  | _ => cases hk

lemma not_has_proxy (h : n ≠ x.1.name) : ¬ (first x).store.Has ⟨.daemonSet, proxyName n⟩ := by
  intro hhas
  obtain ⟨o, hby, hk⟩ := madeBy_of_has hhas
  cases o with
  | daemonSet ds =>
    obtain ⟨ports, -, hds⟩ := hby
    have hname := (Key.mk.inj hk).2
    rw [name_proxiesOf hds, proxyName, proxyName, String.append_right_inj] at hname
    exact h hname.symm
  | _ => cases hk

lemma ownName_of_has {a : String} (h : (first x).store.Has ⟨.service, a⟩) :
    OwnName x.1.name x.2 a := by
  obtain ⟨o, hby, hk⟩ := madeBy_of_has h
  cases o with
  | service svc =>
    obtain ⟨ports, -, hsvc⟩ := hby
    rw [← (Key.mk.inj hk).2]
    exact ownName_of_mem hsvc
  | _ => cases hk

lemma ownName_proxy {v' : NodeType} {a : String} (h : OwnName (proxyName n) v a) :
    ¬ OwnName n v' a := by
  have hlen : (proxyName n).length = 8 + n.length := by
    rw [proxyName, String.length_append]
    rfl
  rcases h with ⟨st, rfl⟩ | ⟨-, rfl⟩
  · rintro (⟨st', heq⟩ | ⟨-, heq⟩)
    · have hnodeport : String.length "-nodeport" = 9 := rfl
      have hclusterip : String.length "-clusterip" = 10 := rfl
      rcases eq_of_serviceName_eq heq with h | h | h | h | h
      · exact proxyName_ne n h
      all_goals
        have h := congrArg String.length h
        rw [String.length_append] at h
        omega
    · have h := congrArg String.length heq
      rw [serviceNameForType_eq, String.length_append, String.length_append] at h
      omega
  · rintro (⟨st', heq⟩ | ⟨-, heq⟩)
    · have h := congrArg (fun a : String => a.toList.head?) heq
      simp only [proxyName, serviceNameForType_eq, String.toList_append] at h
      exact absurd h (by simp)
    · exact proxyName_ne n heq

lemma serving_first (h : Serving x) :
    ∃ svc, svc.selector = [("app", x.1.name)] ∧ (x.1.name, .service svc) ∈ (first x).made := by
  obtain ⟨hhas, ports, hports⟩ := h
  have hbare : servicePorts (bare x.1) = .ok ports := hports
  obtain ⟨svc, hsvc⟩ := List.exists_mem_of_ne_nil _
    ((vendorServices_ne_nil_iff (w := openEnv) hbare).mpr hhas)
  refine ⟨svc, (servicesMade openEnv x.2 hbare).selector svc hsvc, ?_⟩
  refine mem_made_created.mpr (Or.inr ⟨rfl, ?_⟩)
  exact bare_creates_services hports (Store.not_has_empty _) (fun _ _ => Store.not_has_empty _)
    (Store.not_has_empty _) _ (List.mem_append_left _ (List.mem_map_of_mem hsvc))

lemma pod_created {s : Space} (h : ¬ s.store.Has ⟨.pod, y.1.name⟩) :
    ∃ p, p.labels.lookup "app" = some (appLabel y) ∧
      (y.1.name, .pod p) ∈ (created openEnv (bare y.1) y.2 s).made := by
  obtain ⟨p, hlabels, hmem⟩ := bare_creates_pod h y.2
  refine ⟨p, ?_, mem_made_created.mpr (Or.inr ⟨rfl, hmem⟩)⟩
  rw [hlabels]
  exact lookup_labelsOf openEnv (bareNode y)

lemma proxy_created (hy : Proxied y) (hname : proxyName y.1.name = x.1.name) :
    ∃ ds, ds.labels.lookup "app" = some (proxyName y.1.name) ∧
      (y.1.name, .daemonSet ds) ∈ (created openEnv (bare y.1) y.2 (first x)).made := by
  obtain ⟨⟨ports, hports⟩, k, svc, hsvc, h6⟩ := hy
  have hne : y.1.name ≠ x.1.name := by
    rw [← hname]
    exact (proxyName_ne _).symm
  have hbare : servicePorts (bare y.1) = .ok ports := hports
  have hmade := servicesMade openEnv y.2 hbare
  have hproxy : HasProxy openEnv (bare y.1) := by
    refine ⟨k, svc, hsvc, h6, ?_⟩
    simp only [createdPort, openEnv]
    split_ifs <;> omega
  obtain ⟨ds, hds⟩ := List.exists_mem_of_ne_nil _ (hmade.some_proxy.mpr hproxy)
  refine ⟨ds, hmade.proxyLabels ds hds, mem_made_created.mpr (Or.inr ⟨rfl, ?_⟩)⟩
  refine bare_creates_services hports (not_has_pod hne) (fun a ha hhas => ?_) (not_has_proxy hne) _
    (List.mem_append_right _ (List.mem_map_of_mem hds))
  have hown := ownName_of_has hhas
  rw [← hname] at hown
  exact ownName_proxy hown ha

lemma apart_of_selectsOwn (h : SelectsOwn (nodes.map bareNode)) : LabelsApart nodes := by
  intro x hx hserving
  obtain ⟨i, hi⟩ := step_bare hx
  obtain ⟨svc, hselector, hsvc⟩ := serving_first hserving
  have hfirst : run (step (nodes.map bareNode)) ⟨Store.empty, ∅⟩ [⟨i, openEnv⟩] =
      some (first x) := by
    rw [run_cons, hi]
    rfl
  refine ⟨?_, fun y hy hne => ?_⟩
  · obtain ⟨p, hlabel, hpod⟩ := pod_created (y := x) (s := ⟨Store.empty, ∅⟩)
      (Store.not_has_empty _)
    have hsel := (h _ _ _ hfirst _ svc hsvc _ _ _ hpod rfl).mpr ⟨rfl, rfl⟩
    rw [selects_iff hselector, hlabel] at hsel
    exact Option.some.inj hsel
  · obtain ⟨j, hj⟩ := step_bare hy
    have hsecond := run_trans_cons (step (nodes.map bareNode)) hfirst (hj _) (run_nil _ _)
    have hsvc' : (x.1.name, Obj.service svc) ∈ (created openEnv (bare y.1) y.2 (first x)).made :=
      mem_made_created.mpr (Or.inl hsvc)
    constructor
    · intro happ
      obtain ⟨p, hlabel, hpod⟩ := pod_created (not_has_pod hne)
      refine hne ((h _ _ _ hsecond _ svc hsvc' _ _ _ hpod rfl).mp ?_).1
      rw [selects_iff hselector, hlabel, happ]
    · intro hproxied hname
      obtain ⟨ds, hlabel, hds⟩ := proxy_created hproxied hname
      refine hne ((h _ _ _ hsecond _ svc hsvc' _ _ _ hds rfl).mp ?_).1
      rw [selects_iff hselector, hlabel, hname]

/-- **Selection.** In a topology whose nodes have different names, whatever else is in the nodes
besides their names, labels and services, the services of each node select its pod and no other,
exactly when the nodes with services keep their names as labels and no other pod has them. -/
theorem services_select_own_iff (nodes : List (Proto × NodeType))
    (hnames : (nodes.map fun x => x.1.name).Nodup) :
    (∀ nodes', nodes'.map bareNode = nodes.map bareNode → SelectsOwn nodes') ↔
      LabelsApart nodes := by
  constructor
  · intro h
    refine apart_of_selectsOwn (h _ ?_)
    rw [List.map_map]
    rfl
  · intro h nodes' hbare
    refine selectsOwn_of_apart ?_ ?_
    · rwa [← names_bare, hbare, names_bare]
    · rwa [← labelsApart_bare, hbare, labelsApart_bare]

def twoNodes : List (Proto × NodeType) :=
  [(oneService "r1" .unknown, .impl), (oneService "r2" .nodePort, .forward)]

lemma labelsApart_twoNodes : LabelsApart twoNodes := by
  have happ : ∀ y ∈ twoNodes, appLabel y = y.1.name := by
    simp [twoNodes, appLabel, oneService]
  have hproxy : ∀ x ∈ twoNodes, ∀ y ∈ twoNodes, proxyName y.1.name ≠ x.1.name := by
    simp [twoNodes, oneService, proxyName]
  intro x hx _
  refine ⟨happ x hx, fun y hy hne => ⟨?_, fun _ => hproxy x hx y hy⟩⟩
  rwa [happ y hy]

theorem twoNodes_select_own : SelectsOwn twoNodes :=
  (services_select_own_iff twoNodes (by decide)).mpr labelsApart_twoNodes twoNodes rfl

/-- A node with a label of its own. -/
def webNode : Proto where
  name := "r1"
  labels := [("app", "web")]
  services := AList.insert 22 { inside := 22 } ∅

def webService : Service where
  name := "service-r1"
  labels := [("pod", "r1")]
  selector := [("app", "r1")]
  type := .loadBalancer
  allocateNodePorts := false
  ports := [⟨22, 0, 22, ""⟩]
  ingress := [""]

def webPod : Pod where
  name := "r1"
  labels := [("app", "web"), ("app", "r1"), ("topo", "lab")]
  initContainers := [initContainer webNode 0 []]
  containers := [⟨"r1", []⟩]
  volumes := []

/-- **A service that selects nothing.** -/
theorem overwritten_label_not_selected :
    ∃ t, run (step [(webNode, .impl)]) ⟨Store.empty, ∅⟩ [⟨0, bareEnv⟩] = some t ∧
      ("r1", .service webService) ∈ t.made ∧ ("r1", .pod webPod) ∈ t.made ∧
      ¬ Selects webService webPod.labels := by
  refine ⟨_, rfl, ?_, ?_, ?_⟩ <;> decide +kernel

end Kne.NodeLabels
