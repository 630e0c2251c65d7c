import Kne.NodeSpace

/-!
Which services belong to which node of a topology. The names of the services are those of the nodes
with something before and after them, and a Forward node also has a service of its own name; the
node names are the user's, so two nodes can have services of one name. `DeleteService` goes by the
label, and by the names only when it finds no label.
-/

namespace Kne.NodeNames

open Kne.Objects Kne.Runs Kne.NodeModel Kne.NodePrograms Kne.NodeServices Kne.NodeMade
  Kne.NodeDelete Kne.NodeSpace

variable {w : Env} {pb : Proto} {v : NodeType} {s t : Cluster} {n m : String} {o : Obj}
  {nodes : List (Proto × NodeType)} {names : List (String × NodeType)}

/-! ### Services and their nodes -/

/-- The name of a node, with its type. -/
def nameOf (x : Proto × NodeType) : String × NodeType := (x.1.name, x.2)

/-- Some `Create` of the node, whether it succeeds or not, leaves the service. -/
def Creates (pb : Proto) (v : NodeType) (svc : Service) : Prop :=
  ∃ w s, .service svc ∈ (after (create w pb v) s).objs ∧ .service svc ∉ s.objs

/-- The services of different nodes have different names. -/
def DistinctServices (nodes : List (Proto × NodeType)) : Prop :=
  ∀ x ∈ nodes, ∀ y ∈ nodes, x.1.name ≠ y.1.name → ∀ svc svc', Creates x.1 x.2 svc →
    Creates y.1 y.2 svc' → svc.name ≠ svc'.name

/-- Services and proxies. -/
def Obj.Serves : Obj → Prop
  | .service _ | .daemonSet _ => True
  | .pod _ | .configMap _ | .file _ => False

/-- After any creations in any namespace, `DeleteService` of a node leaves the services and proxies
of the others. -/
def DeletesOwn (nodes : List (Proto × NodeType)) : Prop :=
  ∀ s as t, run (step nodes) ⟨s, ∅⟩ as = some t → ∀ x ∈ nodes, ∀ m o, (m, o) ∈ t.made →
    m ≠ x.1.name → Obj.Serves o → o ∈ t.store.objs → o ∈ (deleteService x.1.name t.store).objs

/-- No name is that of another node with one of the two endings, and that of a Forward node is not
the name of a service of another node. -/
def NamesApart (names : List (String × NodeType)) : Prop :=
  ∀ x ∈ names, ∀ y ∈ names, x.1 ≠ y.1 → y.1 ≠ x.1 ++ "-nodeport" ∧ y.1 ≠ x.1 ++ "-clusterip" ∧
    (y.2 = .forward → ∀ st, y.1 ≠ serviceNameForType x.1 st)

/-! ### Names that are apart -/

lemma endings_ne (n m : String) : n ++ "-nodeport" ≠ m ++ "-clusterip" := by
  intro h
  have hlast := congrArg (fun s : String => s.toList.getLast?) h
  simp only [String.toList_append] at hlast
  rw [List.getLast?_append_of_ne_nil _ (by decide), List.getLast?_append_of_ne_nil _ (by decide)]
    at hlast
  exact absurd hlast (by decide)

lemma eq_of_serviceName_eq {st st' : ServiceType}
    (h : serviceNameForType n st = serviceNameForType m st') :
    n = m ∨ n = m ++ "-nodeport" ∨ n = m ++ "-clusterip" ∨ m = n ++ "-nodeport" ∨
      m = n ++ "-clusterip" := by
  rw [serviceNameForType_eq, serviceNameForType_eq, String.append_right_inj] at h
  cases st <;> cases st' <;> simp only [suffix, String.append_empty, String.append_left_inj] at h
  · exact Or.inl h
  · exact Or.inr (Or.inl h)
  · exact Or.inr (Or.inr (Or.inl h))
  · exact Or.inr (Or.inr (Or.inr (Or.inl h.symm)))
  · exact Or.inl h
  · exact absurd h (endings_ne n m)
  · exact Or.inr (Or.inr (Or.inr (Or.inr h.symm)))
  · exact absurd h.symm (endings_ne m n)
  · exact Or.inl h

lemma NamesApart.disjoint (h : NamesApart names) {x y : String × NodeType} (hx : x ∈ names)
    (hy : y ∈ names) (hne : x.1 ≠ y.1) {a : String} (ha : OwnName x.1 x.2 a) :
    ¬ OwnName y.1 y.2 a := by
  have hxy := h x hx y hy hne
  have hyx := h y hy x hx hne.symm
  rcases ha with ⟨st, rfl⟩ | ⟨hv, rfl⟩
  · rintro (⟨st', heq⟩ | ⟨hv, heq⟩)
    · rcases eq_of_serviceName_eq heq with h | h | h | h | h
      · exact hne h
      · exact hyx.1 h
      · exact hyx.2.1 h
      · exact hxy.1 h
      · exact hxy.2.1 h
    · exact hxy.2.2 hv st heq.symm
  · rintro (⟨st', heq⟩ | ⟨-, heq⟩)
    · exact hyx.2.2 hv st' heq
    · exact hne heq

lemma ownName_of_mem_serviceKeys {svc : Service} (v : NodeType)
    (h : (Obj.service svc).key ∈ serviceKeys n) : OwnName n v svc.name := by
  simp only [serviceKeys, Obj.key, List.mem_cons, Key.mk.injEq, true_and, List.not_mem_nil,
    or_false] at h
  rcases h with h | h | h
  · exact Or.inl ⟨.loadBalancer, h⟩
  · exact Or.inl ⟨.nodePort, h⟩
  · exact Or.inl ⟨.clusterIP, h⟩

lemma ownName_of_creates {svc : Service} (h : Creates pb v svc) : OwnName pb.name v svc.name := by
  obtain ⟨w, s, hnew, hold⟩ := h
  obtain ⟨ports, -, hsvc⟩ := (adds_create w pb v s _ hnew).resolve_left hold
  exact ownName_of_mem hsvc

lemma distinctServices_of_apart (h : NamesApart (nodes.map nameOf)) : DistinctServices nodes := by
  intro x hx y hy hne svc svc' hcreates hcreates' heq
  have hown := ownName_of_creates hcreates
  rw [heq] at hown
  exact h.disjoint (List.mem_map_of_mem hx) (List.mem_map_of_mem hy) hne hown
    (ownName_of_creates hcreates')

lemma deletesOwn_of_apart (h : NamesApart (nodes.map nameOf)) : DeletesOwn nodes := by
  intro s as t hrun x hx m o hmade hne hserves ho
  obtain ⟨y, hy, rfl, w, hby⟩ := owned_run hrun m o hmade
  rw [deleteService_eq, Store.mem_keep]
  refine ⟨ho, ?_⟩
  cases o with
  | service svc =>
    obtain ⟨ports, hports, hsvc⟩ := hby
    refine ⟨by simp [Obj.key], fun htaken => ?_⟩
    unfold TakenService at htaken
    split_ifs at htaken with hex
    · have hlabel := (servicesMade w y.2 hports).labelled svc hsvc
      exact hne (Option.some.inj (hlabel.symm.trans htaken))
    · have hown := ownName_of_mem_serviceKeys x.2 htaken
      exact h.disjoint (List.mem_map_of_mem hy) (List.mem_map_of_mem hx) hne
        (ownName_of_mem hsvc) hown
  | daemonSet ds =>
    obtain ⟨ports, -, hds⟩ := hby
    refine ⟨fun hk => ?_, fun htaken => ?_⟩
    · have hname : ds.name = proxyName x.1.name := (Key.mk.inj hk).2
      rw [name_proxiesOf hds, proxyName, proxyName, String.append_right_inj] at hname
      exact hne hname
    · cases htaken.kind
  | _ => exact hserves.elim

/-! ### Nodes with all services -/

/-- A node with a service of each type. -/
def fullNode (n : String) : Proto where
  name := n
  services := ((AList.insert 1 { type := .loadBalancer } ∅).insert 2 { type := .nodePort }).insert 3
    { type := .clusterIP }

def fullPorts : List (ServiceType × ServicePort) :=
  [(.loadBalancer, ⟨1, 0, 0, ""⟩), (.nodePort, ⟨2, 0, 0, ""⟩), (.clusterIP, ⟨3, 0, 0, ""⟩)]

lemma servicePorts_fullNode (n : String) : servicePorts (fullNode n) = .ok fullPorts := rfl

lemma fullNode_ownName {a : String} (h : OwnName n v a) :
    ∃ svc ∈ vendorServices w (bare (fullNode n)) fullPorts v, svc.name = a := by
  rcases h with ⟨st, rfl⟩ | ⟨hv, rfl⟩
  · have hports : portsOfType fullPorts st ≠ [] := by cases st <;> decide
    exact ⟨_, mem_vendorServices.mpr (Or.inr (mem_servicesOf.mpr ⟨st, hports, rfl⟩)), rfl⟩
  · exact ⟨_, mem_vendorServices.mpr (Or.inl ⟨hv, rfl⟩), rfl⟩

lemma creates_ownName {a : String} (h : OwnName n v a) :
    ∃ svc, svc.name = a ∧ Creates (fullNode n) v svc := by
  obtain ⟨svc, hsvc, hname⟩ := fullNode_ownName (w := openEnv) h
  have hmem := bare_creates_services (s := Store.empty) (v := v) (servicePorts_fullNode n)
    (Store.not_has_empty _) (fun _ _ => Store.not_has_empty _) (Store.not_has_empty _)
    (.service svc) (List.mem_append_left _ (List.mem_map_of_mem hsvc))
  exact ⟨svc, hname, openEnv, Store.empty, hmem⟩

lemma apart_of_distinctServices
    (h : DistinctServices (names.map fun x => (fullNode x.1, x.2))) : NamesApart names := by
  have hne : ∀ x ∈ names, ∀ y ∈ names, x.1 ≠ y.1 → ∀ a, OwnName x.1 x.2 a →
      ¬ OwnName y.1 y.2 a := by
    intro x hx y hy hxy a ha hb
    obtain ⟨svc, hsvc, hcreates⟩ := creates_ownName ha
    obtain ⟨svc', hsvc', hcreates'⟩ := creates_ownName hb
    exact h _ (List.mem_map_of_mem hx) _ (List.mem_map_of_mem hy) hxy svc svc' hcreates hcreates'
      (hsvc.trans hsvc'.symm)
  intro x hx y hy hxy
  refine ⟨fun heq => ?_, fun heq => ?_, fun hv st heq => ?_⟩
  · refine hne x hx y hy hxy _ (Or.inl ⟨.nodePort, rfl⟩) (Or.inl ⟨.loadBalancer, ?_⟩)
    rw [heq, serviceNameForType_eq, serviceNameForType_eq, suffix, suffix, String.append_empty]
  · refine hne x hx y hy hxy _ (Or.inl ⟨.clusterIP, rfl⟩) (Or.inl ⟨.loadBalancer, ?_⟩)
    rw [heq, serviceNameForType_eq, serviceNameForType_eq, suffix, suffix, String.append_empty]
  · exact hne x hx y hy hxy _ (Or.inl ⟨st, rfl⟩) (Or.inr ⟨hv, heq.symm⟩)

/-- **Services of their own.** Whatever services the nodes of a topology have, no two share a name
and `DeleteService` leaves those of other nodes, exactly when no node is named after another with
one of the endings of its services and no Forward node after a service. -/
theorem services_owned_iff (names : List (String × NodeType)) :
    (∀ nodes, nodes.map nameOf = names → DistinctServices nodes ∧ DeletesOwn nodes) ↔
      NamesApart names := by
  constructor
  · intro h
    refine apart_of_distinctServices (h _ ?_).1
    rw [List.map_map]
    exact List.map_id' names
  · rintro h nodes rfl
    exact ⟨distinctServices_of_apart h, deletesOwn_of_apart h⟩

/-- A node with one service. -/
def oneService (n : String) (type : SvcType) : Proto where
  name := n
  services := AList.insert 22 { inside := 22, type := type } ∅

def clashing : List (Proto × NodeType) :=
  [(oneService "r" .nodePort, .impl), (oneService "r-nodeport" .loadBalancer, .impl)]

/-- The service of the second node, whose name the first would use too. -/
def clashingService : Service where
  name := "service-r-nodeport"
  labels := [("pod", "r-nodeport")]
  selector := [("app", "r-nodeport")]
  type := .loadBalancer
  allocateNodePorts := false
  ports := [⟨22, 0, 22, ""⟩]
  ingress := [""]

/-- **Another node's service is deleted.** -/
theorem clashing_service_deleted :
    ∃ t, run (step clashing) ⟨Store.empty, ∅⟩ [⟨1, bareEnv⟩] = some t ∧
      ("r-nodeport", .service clashingService) ∈ t.made ∧
      .service clashingService ∈ t.store.objs ∧
      .service clashingService ∉ (deleteService "r" t.store).objs ∧
      serviceNameForType "r" .nodePort = clashingService.name := by
  refine ⟨_, rfl, ?_, ?_, ?_, rfl⟩ <;> decide +kernel

end Kne.NodeNames
