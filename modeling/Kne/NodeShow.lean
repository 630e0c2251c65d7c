import Mathlib.Data.String.Basic
import Kne.NodeMade

/-!
The services of a node as `kne show` reports them: `Impl.Services` in `topo/node/node.go` finds them
in the cluster again, and `populateServiceMap` in `topo/topo.go` writes them into the service map of
the node's proto.

`CreateService` groups the ports of the map by type into services, and a port number passes through
an `int32` on the way. What comes back is the map with the outside ports filled in.
-/

namespace Kne.NodeShow

open Kne.Objects Kne.TopoModel Kne.NodeModel Kne.NodeServices Kne.NodeMade

abbrev ServiceMap := AList fun _ : ℕ => Svc

/-! ### The services in the cluster -/

def getService (s : Cluster) (name : String) : Option Service :=
  match s.get? ⟨.service, name⟩ with
  | some (.service svc) => some svc
  | _ => none

/-- `Impl.Services`: those that carry the label, in the order of their names, or the one of the
usual name if there is none. -/
def services (pb : Proto) (s : Cluster) : Except String (List Service) :=
  if pb.services.keys = [] then .ok []
  else
    let items := s.objs.filter (Obj.Labelled pb.name)
    if items.Nonempty then
      .ok (((items.image fun o => o.key.name).sort (· ≤ ·)).filterMap (getService s))
    else
      match getService s ("service-" ++ pb.name) with
      | some svc => .ok [svc]
      | none => .error ("services " ++ ("service-" ++ pb.name).quote ++ " not found")

lemma getService_eq_some_iff {s : Cluster} {name : String} {svc : Service} :
    getService s name = some svc ↔ .service svc ∈ s.objs ∧ svc.name = name := by
  unfold getService
  constructor
  · intro h
    split at h
    · next hs =>
        cases h
        obtain ⟨hmem, hk⟩ := Store.get?_eq_some_iff.mp hs
        exact ⟨hmem, (Key.mk.inj hk).2⟩
    · cases h
  · rintro ⟨hmem, rfl⟩
    have hget : s.get? ⟨.service, svc.name⟩ = some (.service svc) :=
      Store.get?_eq_some_iff.mpr ⟨hmem, rfl⟩
    rw [hget]

lemma services_eq {pb : Proto} {s : Cluster} (hkeys : pb.services.keys ≠ [])
    (hsome : ∃ o ∈ s.objs, o.Labelled pb.name) :
    ∃ svcs, services pb s = .ok svcs ∧
      ∀ svc, svc ∈ svcs ↔ .service svc ∈ s.objs ∧ (Obj.service svc).Labelled pb.name := by
  obtain ⟨o, ho, hl⟩ := hsome
  have hitems : (s.objs.filter (Obj.Labelled pb.name)).Nonempty :=
    ⟨o, Finset.mem_filter.mpr ⟨ho, hl⟩⟩
  refine ⟨_, by rw [services, if_neg hkeys]; exact if_pos hitems, fun svc => ?_⟩
  simp only [List.mem_filterMap, Finset.mem_sort, Finset.mem_image, Finset.mem_filter,
    getService_eq_some_iff]
  constructor
  · rintro ⟨name, ⟨x, ⟨hx, hxl⟩, hname⟩, hmem, rfl⟩
    -- an object with the name and the label is a service, so it is this one
    have hkey : x.key = (Obj.service svc).key := by
      cases x with
      | service svc' => exact congrArg (Key.mk .service) hname
      | _ => exact hxl.elim
    exact ⟨hmem, by rwa [← s.unique hx hmem hkey]⟩
  · rintro ⟨hmem, hsl⟩
    exact ⟨svc.name, ⟨_, ⟨hmem, hsl⟩, rfl⟩, hmem, rfl⟩

/-! ### The service map -/

def shownType : ServiceType → SvcType
  | .nodePort => .nodePort
  | .loadBalancer => .loadBalancer
  | .clusterIP => .clusterIP

/-- What a port of a service says about the entry of the map. -/
def shown (svc : Service) (p : ServicePort) (v : Svc) : Svc :=
  { v with
    name := if v.name = "" then p.name else v.name
    outside := p.port
    inside := p.targetPort.toUInt32
    nodePort := p.nodePort
    insideIp := svc.clusterIP
    outsideIp :=
      match svc.ingress with
      | [] => v.outsideIp
      | ip :: _ => ip
    type := shownType svc.type }

/-- One turn of the loop of `populateServiceMap`; a port that the map lacks gets an entry. -/
def populatePort (svc : Service) (m : ServiceMap) (p : ServicePort) : ServiceMap :=
  m.insert p.port (shown svc p ((m.lookup p.port).getD { name := p.name }))

/-- Neither argument may be nil. A service without a type is one of type ClusterIP already. -/
def populateServiceMap (svc : Option Service) (m : Option ServiceMap) : Except String ServiceMap :=
  match svc, m with
  | some svc, some m =>
    if svc.type = .loadBalancer ∧ svc.ingress = [] then
      .error ("service " ++ svc.name ++ " has no external loadbalancer configured")
    else .ok (svc.ports.foldl (populatePort svc) m)
  | _, _ => .error "service and map must not be nil"

/-- The loop of `Show` over the services of a node. -/
def populateAll (svcs : List Service) (m : ServiceMap) : Except String ServiceMap :=
  svcs.foldlM (fun m svc => populateServiceMap (some svc) (some m)) m

/-! ### What a turn does -/

/-- The type of an entry once it was shown. -/
def normalType (type : SvcType) : SvcType :=
  if type = .nodePort ∨ type = .clusterIP then type else .loadBalancer

lemma shownType_k8sServiceType (type : SvcType) :
    shownType (k8sServiceType type) = normalType type := by
  cases type <;> simp [k8sServiceType, shownType, normalType]

/-- The port is one that `CreateService` made of an entry of the map. -/
structure PortOf (orig : ServiceMap) (svc : Service) (p : ServicePort) (v : Svc) : Prop where
  entry : orig.lookup p.port = some v
  name : p.name = v.name
  target : p.targetPort = v.inside.toInt32
  type : svc.type = k8sServiceType v.type

/-- The entry is as it was, and as it is to be shown once its port has come by. -/
structure Kept (k : ℕ) (v v' : Svc) (done : List ℕ) : Prop where
  name : v'.name = v.name
  inside : v'.inside = v.inside
  outside : k ∈ done → v'.outside = k
  type : k ∈ done → v'.type = normalType v.type

/-- The map `m` has the entries of `orig`; the ports `done` have come by. -/
structure Populated (orig m : ServiceMap) (done : List ℕ) : Prop where
  keys : ∀ k, k ∈ m ↔ k ∈ orig
  kept : ∀ k v, orig.lookup k = some v → ∃ v', m.lookup k = some v' ∧ Kept k v v' done

lemma populated_start (orig : ServiceMap) : Populated orig orig [] where
  keys _ := Iff.rfl
  kept _ v hv := ⟨v, hv, rfl, rfl, by simp, by simp⟩

variable {orig m : ServiceMap} {done : List ℕ} {svc : Service} {p : ServicePort} {v : Svc}

lemma shown_kept {v' : Svc} (hp : PortOf orig svc p v) (hv' : Kept p.port v v' done) :
    Kept p.port v (shown svc p v') (p.port :: done) where
  name := by
    change (if v'.name = "" then p.name else v'.name) = v.name
    split_ifs
    · exact hp.name
    · exact hv'.name
  inside := by
    change p.targetPort.toUInt32 = v.inside
    rw [hp.target, UInt32.toUInt32_toInt32]
  outside _ := rfl
  type _ := by
    change shownType svc.type = normalType v.type
    rw [hp.type, shownType_k8sServiceType]

lemma Kept.cons {k j : ℕ} {v' : Svc} (h : Kept k v v' done) (hk : k ≠ j) :
    Kept k v v' (j :: done) :=
  ⟨h.name, h.inside, fun hmem => h.outside ((List.mem_cons.mp hmem).resolve_left hk),
    fun hmem => h.type ((List.mem_cons.mp hmem).resolve_left hk)⟩

lemma populatePort_populated (hp : PortOf orig svc p v) (h : Populated orig m done) :
    Populated orig (populatePort svc m p) (p.port :: done) := by
  obtain ⟨v', hv', hkept⟩ := h.kept p.port v hp.entry
  have hmap : populatePort svc m p = m.insert p.port (shown svc p v') := by
    rw [populatePort, hv', Option.getD_some]
  have hmem : p.port ∈ orig := AList.lookup_isSome.mp (by rw [hp.entry]; rfl)
  rw [hmap]
  refine ⟨fun k => ?_, fun k u hu => ?_⟩
  · rw [AList.mem_insert, h.keys]
    exact ⟨fun hk => hk.elim (fun hk => hk ▸ hmem) id, Or.inr⟩
  · by_cases hk : k = p.port
    · subst hk
      obtain rfl : v = u := Option.some.inj (hp.entry.symm.trans hu)
      exact ⟨_, AList.lookup_insert m, shown_kept hp hkept⟩
    · obtain ⟨u', hu', hkept'⟩ := h.kept k u hu
      exact ⟨u', by rw [AList.lookup_insert_ne hk, hu'], hkept'.cons hk⟩

/-- Every port of the service is one that `CreateService` made. -/
def PortsOf (orig : ServiceMap) (svc : Service) : Prop := ∀ p ∈ svc.ports, ∃ v, PortOf orig svc p v

lemma foldl_populatePort (ports : List ServicePort)
    (hports : ∀ p ∈ ports, ∃ v, PortOf orig svc p v) (h : Populated orig m done) :
    ∃ done', Populated orig (ports.foldl (populatePort svc) m) done' ∧
      (∀ k ∈ done, k ∈ done') ∧ ∀ p ∈ ports, p.port ∈ done' := by
  induction ports generalizing m done with
  | nil => exact ⟨done, h, fun k hk => hk, by simp⟩
  | cons p ports ih =>
    obtain ⟨v, hp⟩ := hports p List.mem_cons_self
    obtain ⟨done', hpop, hold, hnew⟩ := ih (fun q hq => hports q (List.mem_cons_of_mem _ hq))
      (populatePort_populated hp h)
    refine ⟨done', hpop, fun k hk => hold k (List.mem_cons_of_mem _ hk), ?_⟩
    exact List.forall_mem_cons.mpr ⟨hold _ List.mem_cons_self, hnew⟩

lemma populateAll_populated (svcs : List Service) (hports : ∀ svc ∈ svcs, PortsOf orig svc)
    (hingress : ∀ svc ∈ svcs, svc.type = .loadBalancer → svc.ingress ≠ [])
    (h : Populated orig m done) :
    ∃ m' done', populateAll svcs m = .ok m' ∧ Populated orig m' done' ∧
      (∀ k ∈ done, k ∈ done') ∧ ∀ svc ∈ svcs, ∀ p ∈ svc.ports, p.port ∈ done' := by
  induction svcs generalizing m done with
  | nil => exact ⟨m, done, rfl, h, fun k hk => hk, by simp⟩
  | cons svc svcs ih =>
    have hok : populateServiceMap (some svc) (some m) =
        .ok (svc.ports.foldl (populatePort svc) m) :=
      if_neg fun hno => hingress svc List.mem_cons_self hno.1 hno.2
    obtain ⟨done₁, hpop₁, hold₁, hnew₁⟩ :=
      foldl_populatePort svc.ports (hports svc List.mem_cons_self) h
    obtain ⟨m', done', hall, hpop, hold, hnew⟩ :=
      ih (fun x hx => hports x (List.mem_cons_of_mem _ hx))
        (fun x hx => hingress x (List.mem_cons_of_mem _ hx)) hpop₁
    refine ⟨m', done', Checked.foldlM_cons_ok_iff.mpr ⟨_, hok, hall⟩, hpop,
      fun k hk => hold k (hold₁ k hk), ?_⟩
    exact List.forall_mem_cons.mpr ⟨fun p hp => hold _ (hnew₁ p hp), hnew⟩

/-! ### What `CreateService` made of the map -/

variable {w : Env} {pb : Proto} {s t : Cluster} {ports : List (ServiceType × ServicePort)}

lemma portsOf_servicesOf (h : servicePorts pb = .ok ports) (hsvc : svc ∈ servicesOf w pb ports) :
    PortsOf pb.services svc := by
  intro p hp
  obtain ⟨k, v, hkv, htype, rfl⟩ := (mem_ports_servicesOf h).mp ⟨svc, hsvc, rfl, hp⟩
  exact ⟨v, hkv, rfl, rfl, htype⟩

lemma port_of_entry {k : ℕ} (h : servicePorts pb = .ok ports) (hv : pb.services.lookup k = some v) :
    ∃ svc ∈ servicesOf w pb ports, ∃ p ∈ svc.ports, p.port = k := by
  obtain ⟨svc, hsvc, -, hp⟩ := (mem_ports_servicesOf (w := w) h).mpr ⟨k, v, hv, rfl, rfl⟩
  exact ⟨svc, hsvc, _, hp, rfl⟩

/-- With no other service that carries the label, those that are found are those that were
created. -/
lemma services_created (hkeys : pb.services.keys ≠ [])
    (hnone : ∀ o ∈ s.objs, ¬ o.Labelled pb.name) (h : createService w pb s = .ok () t) :
    ∃ ports svcs, servicePorts pb = .ok ports ∧ services pb t = .ok svcs ∧
      ∀ svc, svc ∈ svcs ↔ svc ∈ servicesOf w pb ports := by
  obtain ⟨ports, hports, hg⟩ := createService_grown h
  have hcreated : ∀ svc ∈ servicesOf w pb ports, .service svc ∈ t.objs := fun svc hsvc =>
    (hg.mem _).mpr (Or.inr (by simp [hsvc]))
  obtain ⟨svc₀, hsvc₀⟩ := List.exists_mem_of_ne_nil _ (servicesOf_ne_nil w hports hkeys)
  obtain ⟨svcs, hsvcs, hmem⟩ := services_eq hkeys
    ⟨_, hcreated svc₀ hsvc₀, labelled_servicesOf hsvc₀⟩
  refine ⟨ports, svcs, hports, hsvcs, fun svc => ?_⟩
  rw [hmem]
  constructor
  · rintro ⟨hsvc, hl⟩
    rcases (hg.mem _).mp hsvc with hold | hnew
    · exact absurd hl (hnone _ hold)
    · simpa using hnew
  · exact fun hsvc => ⟨hcreated svc hsvc, labelled_servicesOf hsvc⟩

lemma ingress_servicesOf (hsvc : svc ∈ servicesOf w pb ports) (hlb : svc.type = .loadBalancer) :
    svc.ingress ≠ [] := by
  obtain ⟨svc', -, rfl⟩ := List.mem_map.mp hsvc
  have hingress : (assigned w svc').ingress = [w.ingressIP svc'.name] := if_pos hlb
  rw [hingress]
  simp

lemma services_populated (hnone : ∀ o ∈ s.objs, ¬ o.Labelled pb.name)
    (h : createService w pb s = .ok () t) :
    ∃ svcs m done, services pb t = .ok svcs ∧ populateAll svcs pb.services = .ok m ∧
      Populated pb.services m done ∧ ∀ k v, pb.services.lookup k = some v → k ∈ done := by
  by_cases hkeys : pb.services.keys = []
  · refine ⟨[], pb.services, [], if_pos hkeys, rfl, populated_start _, fun k v hv => ?_⟩
    have hk : k ∈ pb.services.keys := AList.mem_keys.mp (AList.lookup_isSome.mp (by rw [hv]; rfl))
    rw [hkeys] at hk
    cases hk
  · obtain ⟨ports, svcs, hports, hsvcs, hmem⟩ := services_created hkeys hnone h
    obtain ⟨m, done, hall, hpop, -, hdone⟩ := populateAll_populated svcs
      (fun svc hsvc => portsOf_servicesOf hports ((hmem svc).mp hsvc))
      (fun svc hsvc => ingress_servicesOf ((hmem svc).mp hsvc)) (populated_start pb.services)
    refine ⟨svcs, m, done, hsvcs, hall, hpop, fun k v hv => ?_⟩
    obtain ⟨svc, hsvc, p, hp, rfl⟩ := port_of_entry (w := w) hports hv
    exact hdone svc ((hmem svc).mpr hsvc) p hp

/-- **Services round trip.** After a `CreateService` that succeeded where no service carried the
node's label, the services that are found again give back the map: the same keys, names and inside
ports, each key as the outside port, and the types with the unknown one, and every one the proto
does not name, made a load balancer. -/
theorem services_round_trip (w : Env) (pb : Proto) (s t : Cluster)
    (hnone : ∀ o ∈ s.objs, ¬ o.Labelled pb.name) (h : createService w pb s = .ok () t) :
    ∃ svcs m, services pb t = .ok svcs ∧ populateAll svcs pb.services = .ok m ∧
      (∀ k, k ∈ m ↔ k ∈ pb.services) ∧
      ∀ k v, pb.services.lookup k = some v → ∃ v', m.lookup k = some v' ∧
        v'.name = v.name ∧ v'.inside = v.inside ∧ v'.outside = k ∧
        v'.type = if v.type = .nodePort ∨ v.type = .clusterIP then v.type else .loadBalancer := by
  obtain ⟨svcs, m, done, hsvcs, hall, hpop, hdone⟩ := services_populated hnone h
  refine ⟨svcs, m, hsvcs, hall, hpop.keys, fun k v hv => ?_⟩
  obtain ⟨v', hv', hkept⟩ := hpop.kept k v hv
  have hk := hdone k v hv
  exact ⟨v', hv', hkept.name, hkept.inside, hkept.outside hk, hkept.type hk⟩

/-- A service of a type the proto does not name. -/
def fourthType : Proto where
  name := "r1"
  services := AList.insert 22
    { name := "ssh", inside := 22, type := .unrecognized 4 (by decide) } ∅

theorem unrecognized_type_changed : ∃ t svcs m v v',
    createService bareEnv fourthType Store.empty = .ok () t ∧ services fourthType t = .ok svcs ∧
    populateAll svcs fourthType.services = .ok m ∧ fourthType.services.lookup 22 = some v ∧
    m.lookup 22 = some v' ∧ v.type ≠ .unknown ∧ v'.type ≠ v.type := by
  obtain ⟨t, ht⟩ := exists_ok_of_succeeds (x := createService bareEnv fourthType) (s := Store.empty)
    (by decide +kernel)
  obtain ⟨svcs, m, done, hsvcs, hall, hpop, hdone⟩ :=
    services_populated (fun o ho => absurd ho (Finset.notMem_empty o)) ht
  obtain ⟨v', hv', hkept⟩ := hpop.kept 22 _ rfl
  refine ⟨t, svcs, m, _, v', ht, hsvcs, hall, rfl, hv', by simp, ?_⟩
  rw [hkept.type (hdone 22 _ rfl)]
  decide

/-- A node with a service of each type. -/
def threeTypes : Proto where
  name := "r1"
  services := AList.insert 22 { name := "ssh", inside := 22 }
    (AList.insert 80 { name := "http", inside := 4294967295, type := .nodePort }
      (AList.insert 57400 { name := "gnmi", inside := 9339, type := .clusterIP } ∅))

theorem threeTypes_round_trip : ∃ t svcs m,
    createService bareEnv threeTypes Store.empty = .ok () t ∧ services threeTypes t = .ok svcs ∧
    populateAll svcs threeTypes.services = .ok m ∧ (∀ k, k ∈ m ↔ k ∈ threeTypes.services) ∧
    ∃ v', m.lookup 80 = some v' ∧ v'.name = "http" ∧ v'.inside = 4294967295 ∧ v'.outside = 80 ∧
      v'.type = .nodePort := by
  obtain ⟨t, ht⟩ := exists_ok_of_succeeds (x := createService bareEnv threeTypes) (s := Store.empty)
    (by decide +kernel)
  obtain ⟨svcs, m, hsvcs, hall, hkeys, hkept⟩ := services_round_trip bareEnv threeTypes
    Store.empty t (fun o ho => absurd ho (Finset.notMem_empty o)) ht
  exact ⟨t, svcs, m, ht, hsvcs, hall, hkeys, hkept 80 _ rfl⟩

end Kne.NodeShow
