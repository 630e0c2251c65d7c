import Kne.Checked
import Kne.NodePrograms

/-!
What a `CreateService` that succeeds has made of the service map of a node: a service for each type
of which the map has entries, with a port for each entry, and the proxy if an entry asks for one.
-/

namespace Kne.NodeServices

open Kne.Objects Kne.NodeModel Kne.NodePrograms

variable {w : Env} {pb : Proto} {s t : Cluster} {ports : List (ServiceType × ServicePort)}
  {svc : Service} {sp : ServicePort} {st : ServiceType} {k : ℕ} {v : Svc}

/-! ### The ports -/

lemma mem_servicePorts (h : servicePorts pb = .ok ports) {x : ServiceType × ServicePort} :
    x ∈ ports ↔ ∃ k v, pb.services.lookup k = some v ∧ servicePort k v = .ok x := by
  rw [Checked.mem_of_mapM_ok h]
  constructor
  · rintro ⟨⟨k, v⟩, he, hx⟩
    exact ⟨k, v, AList.mem_lookup_iff.mpr ((List.mem_insertionSort _).mp he), hx⟩
  · rintro ⟨k, v, hkv, hx⟩
    exact ⟨⟨k, v⟩, (List.mem_insertionSort _).mpr (AList.mem_lookup_iff.mp hkv), hx⟩

lemma servicePort_ok {x : ServiceType × ServicePort} (h : servicePort k v = .ok x) :
    x = (k8sServiceType v.type,
      { port := k, nodePort := v.nodePort, targetPort := v.inside.toInt32, name := v.name }) := by
  unfold servicePort at h
  split_ifs at h
  cases h
  rfl

lemma servicePort_mem (h : servicePorts pb = .ok ports) (hv : pb.services.lookup k = some v) :
    (k8sServiceType v.type,
      { port := k, nodePort := v.nodePort, targetPort := v.inside.toInt32, name := v.name }) ∈
      ports := by
  have hentry : ⟨k, v⟩ ∈ pb.services.entries.insertionSort fun a b => a.1 ≤ b.1 :=
    (List.mem_insertionSort _).mpr (AList.mem_lookup_iff.mp hv)
  obtain ⟨x, hx⟩ := Checked.ok_of_mapM_ok h ⟨k, v⟩ hentry
  rw [← servicePort_ok hx]
  exact (mem_servicePorts h).mpr ⟨k, v, hv, hx⟩

lemma mem_portsOfType : sp ∈ portsOfType ports st ↔ (st, sp) ∈ ports := by
  simp [portsOfType]

lemma mem_typeOrder (st : ServiceType) : st ∈ typeOrder := by
  cases st <;> simp [typeOrder]

lemma mem_servicesToCreate : svc ∈ servicesToCreate pb ports ↔
    ∃ st, portsOfType ports st ≠ [] ∧ svc = serviceOfType pb st (portsOfType ports st) := by
  unfold servicesToCreate
  rw [List.mem_filterMap]
  constructor
  · rintro ⟨st, -, hst⟩
    refine ⟨st, ?_⟩
    cases hp : portsOfType ports st with
    | nil => simp [hp] at hst
    | cons sp sps =>
      simp only [hp, Option.some.injEq] at hst
      exact ⟨by simp, hst.symm⟩
  · rintro ⟨st, hne, rfl⟩
    refine ⟨st, mem_typeOrder st, ?_⟩
    cases hp : portsOfType ports st with
    | nil => exact absurd hp hne
    | cons sp sps => rfl

/-- The services as they are created. -/
def servicesOf (w : Env) (pb : Proto) (ports : List (ServiceType × ServicePort)) : List Service :=
  (servicesToCreate pb ports).map (assigned w)

lemma mem_servicesOf : svc ∈ servicesOf w pb ports ↔
    ∃ st, portsOfType ports st ≠ [] ∧
      svc = assigned w (serviceOfType pb st (portsOfType ports st)) := by
  unfold servicesOf
  rw [List.mem_map]
  constructor
  · rintro ⟨svc', hmem, rfl⟩
    obtain ⟨st, hne, rfl⟩ := mem_servicesToCreate.mp hmem
    exact ⟨st, hne, rfl⟩
  · rintro ⟨st, hne, rfl⟩
    exact ⟨_, mem_servicesToCreate.mpr ⟨st, hne, rfl⟩, rfl⟩

/-- The port that is created for an entry. -/
def createdPort (w : Env) (k : ℕ) (v : Svc) : ServicePort where
  port := k
  nodePort := if v.nodePort = 0 then w.assignedPort (k8sServiceType v.type) k else v.nodePort
  targetPort := v.inside.toInt32
  name := v.name

lemma mem_ports_servicesOf (h : servicePorts pb = .ok ports) :
    (∃ svc ∈ servicesOf w pb ports, svc.type = st ∧ sp ∈ svc.ports) ↔
      ∃ k v, pb.services.lookup k = some v ∧ st = k8sServiceType v.type ∧
        sp = createdPort w k v := by
  constructor
  · rintro ⟨svc, hsvc, htype, hsp⟩
    obtain ⟨st', -, rfl⟩ := mem_servicesOf.mp hsvc
    obtain ⟨q, hq, rfl⟩ := List.mem_map.mp hsp
    obtain ⟨k, v, hkv, hport⟩ := (mem_servicePorts h).mp (mem_portsOfType.mp hq)
    have hx := servicePort_ok hport
    rw [Prod.mk.injEq] at hx
    obtain ⟨rfl, rfl⟩ := hx
    refine ⟨k, v, hkv, htype.symm, ?_⟩
    simp only [createdPort]
    split_ifs <;> rfl
  · rintro ⟨k, v, hkv, rfl, rfl⟩
    have hport := mem_portsOfType.mpr (servicePort_mem h hkv)
    refine ⟨_, mem_servicesOf.mpr ⟨_, List.ne_nil_of_mem hport, rfl⟩, rfl,
      List.mem_map.mpr ⟨_, hport, ?_⟩⟩
    simp only [createdPort]
    split_ifs <;> rfl

lemma labels_servicesOf (h : svc ∈ servicesOf w pb ports) : svc.labels = [("pod", pb.name)] := by
  obtain ⟨st, -, rfl⟩ := mem_servicesOf.mp h
  rfl

lemma selector_servicesOf (h : svc ∈ servicesOf w pb ports) :
    svc.selector = [("app", pb.name)] := by
  obtain ⟨st, -, rfl⟩ := mem_servicesOf.mp h
  rfl

lemma labelled_servicesOf (h : svc ∈ servicesOf w pb ports) :
    (Obj.service svc).Labelled pb.name := by
  change svc.labels.lookup "pod" = _
  rw [labels_servicesOf h]
  simp

lemma servicesOf_ne_nil (w : Env) (h : servicePorts pb = .ok ports)
    (hkeys : pb.services.keys ≠ []) : servicesOf w pb ports ≠ [] := by
  obtain ⟨k, hk⟩ := List.exists_mem_of_ne_nil _ hkeys
  obtain ⟨v, hv⟩ := Option.isSome_iff_exists.mp (AList.lookup_isSome.mpr (AList.mem_keys.mpr hk))
  obtain ⟨svc, hsvc, -⟩ := (mem_ports_servicesOf (w := w) h).mpr ⟨k, v, hv, rfl, rfl⟩
  exact List.ne_nil_of_mem hsvc

/-! ### The proxy -/

/-- The proxy of the services that ask for one. -/
def proxiesOf (w : Env) (pb : Proto) (created : List Service) : List DaemonSet :=
  match proxiedPorts pb created with
  | [] => []
  | nodePorts@(_ :: _) => [{
      name := proxyName pb.name
      labels := [("app", proxyName pb.name), ("pod", pb.name), ("topo", w.topo)]
      owner := proxyOwner created
      nodePorts := nodePorts }]

/-- An entry asks for a proxy and has a node port, its own or an assigned one. -/
def HasProxy (w : Env) (pb : Proto) : Prop :=
  ∃ k v, pb.services.lookup k = some v ∧ v.externalIpv6 = true ∧ 0 < (createdPort w k v).nodePort

lemma name_proxiesOf {created : List Service} {ds : DaemonSet} (h : ds ∈ proxiesOf w pb created) :
    ds.name = proxyName pb.name := by
  unfold proxiesOf at h
  split at h
  · cases h
  · rw [List.mem_singleton.mp h]

lemma labels_proxiesOf {created : List Service} {ds : DaemonSet}
    (h : ds ∈ proxiesOf w pb created) :
    ds.labels = [("app", proxyName pb.name), ("pod", pb.name), ("topo", w.topo)] := by
  unfold proxiesOf at h
  split at h
  · cases h
  · rw [List.mem_singleton.mp h]

lemma mem_proxiedPorts {created : List Service} {n : ℕ} : n ∈ proxiedPorts pb created ↔
    ∃ svc ∈ created, ∃ sp ∈ svc.ports, ∃ v, pb.services.lookup sp.port = some v ∧
      v.externalIpv6 = true ∧ 0 < sp.nodePort ∧ sp.nodePort = n := by
  simp only [proxiedPorts, List.mem_flatMap, List.mem_filterMap]
  refine exists_congr fun svc => and_congr_right fun _ => exists_congr fun sp =>
    and_congr_right fun _ => ?_
  cases pb.services.lookup sp.port with
  | none => simp
  | some v => simp [and_assoc]

lemma proxiesOf_ne_nil_iff (h : servicePorts pb = .ok ports) :
    proxiesOf w pb (servicesOf w pb ports) ≠ [] ↔ HasProxy w pb := by
  have hports : proxiesOf w pb (servicesOf w pb ports) ≠ [] ↔
      proxiedPorts pb (servicesOf w pb ports) ≠ [] := by
    unfold proxiesOf
    cases proxiedPorts pb (servicesOf w pb ports) with
    | nil => simp
    | cons n ns => simp
  rw [hports]
  constructor
  · intro hne
    obtain ⟨n, hn⟩ := List.exists_mem_of_ne_nil _ hne
    obtain ⟨svc, hsvc, sp, hsp, v, hv, h6, hpos, -⟩ := mem_proxiedPorts.mp hn
    obtain ⟨k, v', hkv, -, rfl⟩ := (mem_ports_servicesOf h).mp ⟨svc, hsvc, rfl, hsp⟩
    obtain rfl : v' = v := Option.some.inj (hkv.symm.trans hv)
    exact ⟨k, v', hkv, h6, hpos⟩
  · rintro ⟨k, v, hkv, h6, hpos⟩
    obtain ⟨svc, hsvc, -, hsp⟩ := (mem_ports_servicesOf (w := w) h).mpr ⟨k, v, hkv, rfl, rfl⟩
    exact List.ne_nil_of_mem (mem_proxiedPorts.mpr ⟨svc, hsvc, _, hsp, v, hkv, h6, hpos, rfl⟩)

/-! ### What is created -/

/-- Services that carry the label of the node and select by its name, and its proxies. -/
structure ServicesMade (w : Env) (pb : Proto) (svcs : List Service) (proxies : List DaemonSet) :
    Prop where
  labelled : ∀ svc ∈ svcs, svc.labels.lookup "pod" = some pb.name
  selector : ∀ svc ∈ svcs, svc.selector = [("app", pb.name)]
  some_proxy : proxies ≠ [] ↔ HasProxy w pb
  proxyLabels : ∀ ds ∈ proxies, ds.labels.lookup "app" = some (proxyName pb.name)
  proxies : ∀ ds ∈ proxies, ds.name = proxyName pb.name

lemma createServices_made {created svcs out : List Service}
    (h : createServices w created svcs s = .ok out t) :
    out = created ++ svcs.map (assigned w) ∧ Grown s t ((svcs.map (assigned w)).map .service) := by
  induction svcs generalizing created s with
  | nil =>
    obtain ⟨rfl, rfl⟩ := pure_eq_ok_iff.mp h
    exact ⟨by simp, .refl s⟩
  | cons svc svcs ih =>
    obtain ⟨u, hcreate, hrest⟩ := seq_eq_ok_iff.mp h
    obtain ⟨hout, hgrown⟩ := ih hrest
    refine ⟨by rw [hout]; simp, ?_⟩
    exact (grown_createObj (undoing_ok_iff.mp hcreate)).trans hgrown

lemma createProxy_made {created : List Service} {z : Unit}
    (h : createProxy w pb created s = .ok z t) :
    Grown s t ((proxiesOf w pb created).map .daemonSet) := by
  unfold createProxy at h
  unfold proxiesOf
  cases hp : proxiedPorts pb created with
  | nil =>
    rw [hp] at h
    obtain ⟨-, rfl⟩ := pure_eq_ok_iff.mp h
    exact .refl s
  | cons port ports =>
    rw [hp] at h
    exact grown_createObj (wrap_ok_iff.mp h)

lemma servicePorts_of_keys_nil (h : pb.services.keys = []) : servicePorts pb = .ok [] := by
  have hentries : pb.services.entries = [] := List.map_eq_nil_iff.mp h
  rw [servicePorts, hentries]
  rfl

lemma createService_grown {z : Unit} (h : createService w pb s = .ok z t) :
    ∃ ports, servicePorts pb = .ok ports ∧
      Grown s t ((servicesOf w pb ports).map .service ++
        (proxiesOf w pb (servicesOf w pb ports)).map .daemonSet) := by
  unfold createService at h
  split_ifs at h with hkeys
  · obtain ⟨-, rfl⟩ := pure_eq_ok_iff.mp h
    exact ⟨[], servicePorts_of_keys_nil hkeys, .refl s⟩
  · obtain ⟨ports, u, hor, hrest⟩ := bind_eq_ok_iff.mp h
    obtain ⟨hports, rfl⟩ := orFail_ok_iff.mp hor
    obtain ⟨created, u', hcreated, hproxy⟩ := bind_eq_ok_iff.mp hrest
    obtain ⟨rfl, hgrown⟩ := createServices_made hcreated
    exact ⟨ports, hports, hgrown.trans (createProxy_made (undoing_ok_iff.mp hproxy))⟩

/-- `CreateService` of a node. -/
def vendorCreateService (w : Env) (pb : Proto) : NodeType → Prog Unit
  | .forward => forwardCreateService w pb
  | .impl | .cisco | .juniper | .alpine | .sonic | .ciena => createService w pb

/-- The services of a node; Forward has one of its own before those of the map. -/
def vendorServices (w : Env) (pb : Proto) (ports : List (ServiceType × ServicePort)) :
    NodeType → List Service
  | .forward => peerService pb :: servicesOf w pb ports
  | .impl | .cisco | .juniper | .alpine | .sonic | .ciena => servicesOf w pb ports

lemma mem_vendorServices {v : NodeType} : svc ∈ vendorServices w pb ports v ↔
    v = .forward ∧ svc = peerService pb ∨ svc ∈ servicesOf w pb ports := by
  cases v <;> simp [vendorServices]

lemma vendorCreateService_grown {v : NodeType} {z : Unit}
    (h : vendorCreateService w pb v s = .ok z t) :
    ∃ ports, servicePorts pb = .ok ports ∧
      Grown s t ((vendorServices w pb ports v).map .service ++
        (proxiesOf w pb (servicesOf w pb ports)).map .daemonSet) := by
  cases v with
  | forward =>
    obtain ⟨u, hpeer, hrest⟩ := seq_eq_ok_iff.mp h
    obtain ⟨ports, hports, hgrown⟩ := createService_grown (undoing_ok_iff.mp hrest)
    exact ⟨ports, hports, (grown_createObj (wrap_ok_iff.mp hpeer)).trans hgrown⟩
  | _ => exact createService_grown h

lemma servicesMade (w : Env) (v : NodeType) (h : servicePorts pb = .ok ports) :
    ServicesMade w pb (vendorServices w pb ports v)
      (proxiesOf w pb (servicesOf w pb ports)) where
  labelled svc hsvc := by
    rcases mem_vendorServices.mp hsvc with ⟨-, rfl⟩ | hsvc
    · simp [peerService]
    · exact labelled_servicesOf hsvc
  selector svc hsvc := by
    rcases mem_vendorServices.mp hsvc with ⟨-, rfl⟩ | hsvc
    · rfl
    · exact selector_servicesOf hsvc
  some_proxy := proxiesOf_ne_nil_iff h
  proxyLabels ds hds := by
    rw [labels_proxiesOf hds]
    rfl
  proxies ds hds := name_proxiesOf hds

/-! ### When it succeeds -/

/-- What the name of a service has after that of the node. -/
def suffix : ServiceType → String
  | .loadBalancer => ""
  | .nodePort => "-nodeport"
  | .clusterIP => "-clusterip"

lemma serviceNameForType_eq (n : String) (st : ServiceType) :
    serviceNameForType n st = "service-" ++ (n ++ suffix st) := by
  cases st with
  | loadBalancer => rw [suffix, String.append_empty]; rfl
  | nodePort => rw [suffix, ← String.append_assoc]; rfl
  | clusterIP => rw [suffix, ← String.append_assoc]; rfl

lemma suffix_injective : Function.Injective suffix := by
  intro st st' h
  cases st <;> cases st' <;> first | rfl | exact absurd h (by decide)

lemma serviceNameForType_injective (n : String) : Function.Injective (serviceNameForType n) := by
  intro st st' h
  rw [serviceNameForType_eq, serviceNameForType_eq, String.append_right_inj,
    String.append_right_inj] at h
  exact suffix_injective h

lemma names_servicesToCreate (pb : Proto) (ports : List (ServiceType × ServicePort)) :
    (servicesToCreate pb ports).map Service.name =
      (typeOrder.filter fun st => portsOfType ports st ≠ []).map (serviceNameForType pb.name) := by
  unfold servicesToCreate
  induction typeOrder with
  | nil => rfl
  | cons st sts ih =>
    cases hp : portsOfType ports st with
    | nil => simpa [List.filterMap_cons, List.filter_cons, hp] using ih
    | cons sp sps => simpa [List.filterMap_cons, List.filter_cons, hp, serviceOfType] using ih

lemma nodup_servicesToCreate (pb : Proto) (ports : List (ServiceType × ServicePort)) :
    ((servicesToCreate pb ports).map Service.name).Nodup := by
  rw [names_servicesToCreate]
  refine List.Nodup.map (serviceNameForType_injective pb.name) (List.Nodup.filter _ ?_)
  decide

lemma createServices_ok (created : List Service) {svcs : List Service}
    (hnd : (svcs.map Service.name).Nodup) (hfree : ∀ svc ∈ svcs, Free w s ⟨.service, svc.name⟩) :
    ∃ out t, createServices w created svcs s = .ok out t := by
  induction svcs generalizing created s with
  | nil => exact ⟨created, s, rfl⟩
  | cons svc svcs ih =>
    rw [List.map_cons, List.nodup_cons] at hnd
    obtain ⟨u, hcreate⟩ := (createObj_ok_iff (.service (assigned w svc))).mpr
      (hfree svc List.mem_cons_self)
    have hfree' : ∀ x ∈ svcs, Free w u ⟨.service, x.name⟩ := by
      intro x hx
      refine ⟨(hfree x (List.mem_cons_of_mem _ hx)).1, ?_⟩
      rintro ⟨o, ho, hk⟩
      rcases ((grown_createObj hcreate).mem o).mp ho with ho | ho
      · exact (hfree x (List.mem_cons_of_mem _ hx)).2 ⟨o, ho, hk⟩
      · rw [List.mem_singleton.mp ho] at hk
        have hname : svc.name = x.name := (Key.mk.inj hk).2
        exact hnd.1 (hname ▸ List.mem_map_of_mem hx)
    obtain ⟨out, t, hrest⟩ := ih (created ++ [assigned w svc]) hnd.2 hfree'
    exact ⟨out, t, seq_eq_ok_iff.mpr ⟨u, undoing_ok_iff.mpr hcreate, hrest⟩⟩

lemma createProxy_ok (created : List Service) (h : Free w s ⟨.daemonSet, proxyName pb.name⟩) :
    ∃ t, createProxy w pb created s = .ok () t := by
  unfold createProxy
  cases proxiedPorts pb created with
  | nil => exact ⟨s, rfl⟩
  | cons port ports =>
    obtain ⟨t, ht⟩ := (createObj_ok_iff (.daemonSet {
      name := proxyName pb.name
      labels := [("app", proxyName pb.name), ("pod", pb.name), ("topo", w.topo)]
      owner := proxyOwner created
      nodePorts := port :: ports })).mpr h
    exact ⟨t, wrap_ok_iff.mpr ht⟩

lemma createService_ok (hports : servicePorts pb = .ok ports)
    (hfree : ∀ st, Free w s ⟨.service, serviceNameForType pb.name st⟩)
    (hproxy : Free w s ⟨.daemonSet, proxyName pb.name⟩) :
    ∃ t, createService w pb s = .ok () t := by
  unfold createService
  split_ifs with hkeys
  · exact ⟨s, rfl⟩
  · obtain ⟨created, u, hcreated⟩ := createServices_ok []
      (nodup_servicesToCreate pb ports) fun svc hsvc => by
        obtain ⟨st, -, rfl⟩ := mem_servicesToCreate.mp hsvc
        exact hfree st
    have hproxy' : Free w u ⟨.daemonSet, proxyName pb.name⟩ := by
      refine ⟨hproxy.1, ?_⟩
      rintro ⟨o, ho, hk⟩
      rcases ((createServices_made hcreated).2.mem o).mp ho with ho | ho
      · exact hproxy.2 ⟨o, ho, hk⟩
      · obtain ⟨svc, -, rfl⟩ := List.mem_map.mp ho
        cases hk
    obtain ⟨t, ht⟩ := createProxy_ok created hproxy'
    exact ⟨t, bind_eq_ok_iff.mpr ⟨ports, s, orFail_ok_iff.mpr ⟨hports, rfl⟩,
      bind_eq_ok_iff.mpr ⟨created, u, hcreated, undoing_ok_iff.mpr ht⟩⟩⟩

/-- The names that the services of a node can have. -/
def OwnName (n : String) (v : NodeType) (name : String) : Prop :=
  (∃ st, name = serviceNameForType n st) ∨ v = .forward ∧ name = n

lemma ownName_of_mem {v : NodeType} (h : svc ∈ vendorServices w pb ports v) :
    OwnName pb.name v svc.name := by
  rcases mem_vendorServices.mp h with ⟨hv, rfl⟩ | hsvc
  · exact Or.inr ⟨hv, rfl⟩
  · obtain ⟨st, -, rfl⟩ := mem_servicesOf.mp hsvc
    exact Or.inl ⟨st, rfl⟩

lemma serviceName_ne (n : String) (st : ServiceType) : serviceNameForType n st ≠ n := by
  intro h
  have hlen := congrArg String.length h
  rw [serviceNameForType_eq, String.length_append, String.length_append] at hlen
  have hpos : String.length "service-" = 8 := rfl
  omega

lemma vendorCreateService_ok {v : NodeType} (hports : servicePorts pb = .ok ports)
    (hfree : ∀ a, OwnName pb.name v a → Free w s ⟨.service, a⟩)
    (hproxy : Free w s ⟨.daemonSet, proxyName pb.name⟩) :
    ∃ t, vendorCreateService w pb v s = .ok () t := by
  have htypes : ∀ st, Free w s ⟨.service, serviceNameForType pb.name st⟩ :=
    fun st => hfree _ (Or.inl ⟨st, rfl⟩)
  cases v with
  | forward =>
    obtain ⟨u, hpeer⟩ := (createObj_ok_iff (.service (peerService pb))).mpr
      (hfree _ (Or.inr ⟨rfl, rfl⟩))
    have hrest : ∀ k : Key, k ≠ ⟨.service, pb.name⟩ → Free w s k → Free w u k := by
      refine fun k hk hf => ⟨hf.1, ?_⟩
      rintro ⟨o, ho, rfl⟩
      rcases ((grown_createObj hpeer).mem o).mp ho with ho | ho
      · exact hf.2 ⟨o, ho, rfl⟩
      · exact hk (by rw [List.mem_singleton.mp ho]; rfl)
    obtain ⟨t, ht⟩ := createService_ok hports
      (fun st => hrest _ (by simp [serviceName_ne]) (htypes st)) (hrest _ (by simp) hproxy)
    exact ⟨t, seq_eq_ok_iff.mpr ⟨u, wrap_ok_iff.mpr hpeer, undoing_ok_iff.mpr ht⟩⟩
  | _ => exact createService_ok hports htypes hproxy

end Kne.NodeServices
