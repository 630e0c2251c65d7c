import Kne.KeyedLists
import Kne.SpecsLinks
import Kne.VethPasses

/-!
From the links of a topology to the devices of its pods, on a cluster of one node.

`createMeshnetTopologies` puts the specs of the nodes into the namespace of the topology. The daemon
takes the links of a pod from them, with the MTU that both ends agree on (`daemon/meshnet/mtu.go`),
and hands those whose peers are active on its node to `ConfigurePodLinks`. The specs of a loaded
topology meet what the passes rely on, so that every link of the topology becomes a veth pair
between its two interfaces.
-/

namespace Kne.MeshPods

open Kne.KeyedLists Kne.TopoModel Kne.TopoWiring Kne.TopoEnds Kne.TopoNodes Kne.SpecsModel
  Kne.SpecsOrder Kne.SpecsPeers Kne.SpecsLinks
open Kne.MeshTopos (PodLinkConfig parsePodLinks isPodActive isLocal)

/-! ### The entries of the specs -/

/-- The entry of a pod is an end of the link, and names the other one. -/
def Joins (l : Link) (pod : String) (e : SpecLink) : Prop :=
  (pod, e.localIntf) = (l.aNode, l.aInt) ∧ (e.peerPod, e.peerIntf) = (l.zNode, l.zInt) ∨
    (pod, e.localIntf) = (l.zNode, l.zInt) ∧ (e.peerPod, e.peerIntf) = (l.aNode, l.aInt)

/-- What the specs of a loaded topology are to meshnet. -/
structure Meshed (t : Topology) (topos : List Spec) : Prop where
  pods : ∀ s ∈ topos, ∀ s' ∈ topos, s.name = s'.name → s = s'
  intfs : ∀ s ∈ topos, ∀ e ∈ s.links, ∀ e' ∈ s.links, e.localIntf = e'.localIntf → e = e'
  link : ∀ s ∈ topos, ∀ e ∈ s.links, ∃ (i : ℕ) (l : Link), t.links[i]? = some l ∧ e.uid = i ∧
    Joins l s.name e
  peer : ∀ s ∈ topos, ∀ e ∈ s.links, ∃ s' ∈ topos, ∃ e' ∈ s'.links, e'.uid = e.uid ∧
    s'.name = e.peerPod ∧ e'.localIntf = e.peerIntf
  all : ∀ (i : ℕ) (l : Link), t.links[i]? = some l → l.aInt ≠ "eth0" → l.zInt ≠ "eth0" →
    ∃ s ∈ topos, ∃ e ∈ s.links, e.uid = i ∧ (s.name, e.localIntf) = (l.aNode, l.aInt)

variable {w : World} {t : Topology} {ns : List Node} {nodes : AList (fun _ : String => Impl)}
  {o o' : Order} {m t' : NodeSpecs} {topos : List Spec}

lemma spec_of_mem (hw : UsesImpl w) (hl : LoadOk w t ns nodes) (hr : Resolved nodes o' m t' topos)
    {s : Spec} (hs : s ∈ topos) :
    t'.lookup s.name = some [s] ∧ (s.links.map SpecLink.localIntf).Nodup := by
  rw [hr.topos, List.mem_flatMap] at hs
  obtain ⟨n, -, hs⟩ := hs
  rcases view_cases hr.view n with ⟨h1, -⟩ | ⟨specs, specs', h1, h2, hskel⟩
  · simp [h1] at hs
  · rw [h1, Option.getD_some] at hs
    obtain ⟨links, rfl, -, hnd, -⟩ := specs_of_node hw hl ((hr.specs n).symm.trans h2)
    have hlen := congrArg List.length hskel
    simp only [skel, List.length_map, List.length_singleton] at hlen
    obtain ⟨s', rfl⟩ := List.length_eq_one_iff.mp hlen
    obtain rfl := List.mem_singleton.mp hs
    simp only [skel, List.map_cons, List.map_nil, List.cons.injEq, Prod.mk.injEq, and_true] at hskel
    have hintf : s.links.map SpecLink.localIntf = links.map SpecLink.localIntf := by
      simpa [List.map_map, Function.comp_def] using congrArg (List.map Prod.snd) hskel.2
    exact ⟨hskel.1 ▸ h1, hintf ▸ hnd⟩

lemma name_of_specAt (hw : UsesImpl w) (hl : LoadOk w t ns nodes)
    (hr : Resolved nodes o' m t' topos) {p : Pos} {s : Spec} (h : specAt m p = some s) :
    s.name = p.node := by
  obtain ⟨specs, hspecs, hget⟩ := Option.bind_eq_some_iff.mp h
  obtain ⟨links, rfl, -⟩ := specs_of_node hw hl ((hr.specs p.node).symm.trans hspecs)
  rw [List.mem_singleton.mp (List.mem_of_getElem? hget)]

lemma joins_of_mem (hw : UsesImpl w) (hp : NoPeers t) (hl : LoadOk w t ns nodes)
    (hr : Resolved nodes o' m t' topos) (hreal : Realised t ns topos) {s : Spec} (hs : s ∈ topos)
    {e : SpecLink} (he : e ∈ s.links) :
    ∃ (i : ℕ) (l : Link), t.links[i]? = some l ∧ e.uid = i ∧ Joins l s.name e ∧
      ∃ int peer, Entry t ns s.name int i peer := by
  obtain ⟨p, hsp, hlp⟩ := (mem_topos_iff hr).mp ⟨hs, he⟩
  obtain ⟨e₀, he₀, hres⟩ := resolved_link hr hlp
  obtain ⟨q, sq, e₁, hq, hsq, he₁, hpeer, rfl⟩ := resolve_ok hres
  obtain ⟨-, int, v, -, hv, h0, rfl⟩ := (linkAt_iff hw hl hr).mp ⟨p, rfl, he₀⟩
  obtain ⟨-, int', v', -, hv', h0', rfl⟩ := (linkAt_iff hw hl hr).mp ⟨q, hq, he₁⟩
  have hname : s.name = p.node := by
    have := view_name hr.view p
    rw [hsp] at this
    obtain ⟨s₀, hs₀, hn⟩ := Option.map_eq_some_iff.mp this.symm
    rw [← hn, name_of_specAt hw hl hr hs₀]
  have hentry : Entry t ns p.node int v.uid v.peerName := ⟨v, hv, h0, rfl, rfl⟩
  obtain ⟨i, l, hu, hi, hend⟩ := end_of_iface hp hl.wired hv (hreal.named _ _ _ _ hentry)
  rw [isPeer, Bool.and_eq_true, Bool.not_eq_true', decide_eq_true_eq] at hpeer
  have hend' := hreal.endAt hp hl.wired hi ⟨v', hv', h0', hpeer.1.trans hu, rfl⟩
  refine ⟨i, l, hi, hu, ?_, int, v.peerName, hname ▸ hu ▸ hentry⟩
  have hsq' : sq.name = v.peerName := (name_of_specAt hw hl hr hsq).trans hq
  -- the peer is at the same link, and is not the same interface
  have hne : ¬ (p.node = v.peerName ∧ int' = int) := by
    rintro ⟨h1, h2⟩
    simp [specLink, h1, h2] at hpeer
  rw [Joins, hname, hsq']
  simp only [specLink, Prod.mk.injEq]
  rcases hend with ⟨h1, h2, h3⟩ | ⟨h1, h2, h3⟩ <;> rcases hend' with ⟨g1, g2, -⟩ | ⟨g1, g2, -⟩
  · exact absurd ⟨h1.trans g1.symm, g2.trans h2.symm⟩ hne
  · exact .inl ⟨⟨h1, h2⟩, h3, g2⟩
  · exact .inr ⟨⟨h1, h2⟩, h3, g2⟩
  · exact absurd ⟨h1.trans g1.symm, g2.trans h2.symm⟩ hne

lemma exists_mem_entriesOf {u : ℤ} {pod int : String} (h : (pod, int) ∈ entriesOf topos u) :
    ∃ s ∈ topos, ∃ e ∈ s.links, e.uid = u ∧ (s.name, e.localIntf) = (pod, int) := by
  obtain ⟨s, hs, h⟩ := List.mem_flatMap.mp h
  obtain ⟨e, he, h⟩ := List.mem_map.mp h
  rw [List.mem_filter, decide_eq_true_eq] at he
  exact ⟨s, hs, e, he.1, he.2, h⟩

lemma meshed_of_load (hw : UsesImpl w) (hp : NoPeers t) (hload : load w t = .ok nodes)
    (h : topologySpecs o o' nodes = .ok topos) : Meshed t topos := by
  obtain ⟨ns, hl⟩ := load_ok hload
  have hreal := realised_of_ok hw hl h
  obtain ⟨m, t', hr⟩ := topologySpecs_ok (named_of_load hw hl) h
  refine ⟨fun s hs s' hs' hname => ?_, fun s hs e he e' he' heq => ?_, fun s hs e he => ?_,
    fun s hs e he => ?_, fun i l hi ha hz => ?_⟩
  · have h1 := (spec_of_mem hw hl hr hs).1
    rw [hname, (spec_of_mem hw hl hr hs').1] at h1
    exact (List.singleton_inj.mp (Option.some.inj h1)).symm
  · exact List.inj_on_of_nodup_map (spec_of_mem hw hl hr hs).2 he he' heq
  · obtain ⟨i, l, hi, hu, hj, -⟩ := joins_of_mem hw hp hl hr hreal hs he
    exact ⟨i, l, hi, hu, hj⟩
  · obtain ⟨i, l, hi, hu, hj, int, peer, hent⟩ := joins_of_mem hw hp hl hr hreal hs he
    obtain ⟨-, -, -, hea, hez⟩ := hreal.other hp hl.wired hi hent
    rw [hu]
    rcases hj with ⟨-, hj⟩ | ⟨-, hj⟩
    · obtain ⟨s', hs', e', he', hu', heq⟩ :=
        exists_mem_entriesOf ((hreal.mem i l.zNode l.zInt).mpr ⟨_, hez⟩)
      rw [← hj, Prod.mk.injEq] at heq
      exact ⟨s', hs', e', he', hu', heq⟩
    · obtain ⟨s', hs', e', he', hu', heq⟩ :=
        exists_mem_entriesOf ((hreal.mem i l.aNode l.aInt).mpr ⟨_, hea⟩)
      rw [← hj, Prod.mk.injEq] at heq
      exact ⟨s', hs', e', he', hu', heq⟩
  · have hentry : ∃ node int peer, Entry t ns node int i peer := by
      rcases named_end hw hl (List.mem_of_getElem? hi) with hne | hne
      · obtain ⟨v, hv, hu, hpn⟩ := iface_of_end hl.wired hi (Or.inr ⟨rfl, rfl, rfl⟩) hne
        exact ⟨_, _, _, v, hv, hz, hu, hpn⟩
      · obtain ⟨v, hv, hu, hpn⟩ := iface_of_end hl.wired hi (Or.inl ⟨rfl, rfl, rfl⟩) hne
        exact ⟨_, _, _, v, hv, ha, hu, hpn⟩
    obtain ⟨node, int, peer, hent⟩ := hentry
    obtain ⟨-, -, -, hea, -⟩ := hreal.other hp hl.wired hi hent
    exact exists_mem_entriesOf ((hreal.mem i l.aNode l.aInt).mpr ⟨_, hea⟩)

/-! ### The links of the pods -/

/-- `LinkMTU`, with the value of `LINK_MTU`. -/
def linkMTU (env a b : ℤ) : ℤ := if 0 < max a b then max a b else env

def findPodLink (topo : MeshTopos.Topology) (uid : ℤ) : Option PodLinkConfig :=
  (parsePodLinks topo).find? fun l => l.linkUID = uid

def peerLinkMTU (peerTopo : MeshTopos.Topology) (uid : ℤ) : ℤ :=
  match findPodLink peerTopo uid with
  | some l => l.mtu
  | none => 0

/-- The links that `reconcilePodLinksInternal` hands to `ConfigurePodLinks`. -/
def sameNodeLinks (env : ℤ) (nodeIP : String) (getPod : String → String → Option MeshTopos.Topology)
    (topo : MeshTopos.Topology) : List PodLinkConfig :=
  if isLocal nodeIP topo then
    (parsePodLinks topo).filterMap fun link =>
      match getPod link.peerPodName link.kubeNs with
      | some peerTopo =>
        if isPodActive peerTopo ∧ peerTopo.srcIP = topo.srcIP then
          some { link with mtu := linkMTU env link.mtu (peerLinkMTU peerTopo link.linkUID) }
        else none
      | none => none
  else []

/-- A resource that `createMeshnetTopologies` has created, with the address of its node and the
namespace of its pod in its status. -/
def resource (kubeNs : String) (status : String → String × String) (s : Spec) :
    MeshTopos.Topology where
  ns := kubeNs
  name := s.name
  srcIP := (status s.name).1
  netNS := (status s.name).2
  links := s.links.map fun e =>
    { peerPod := e.peerPod, localIntf := e.localIntf, peerIntf := e.peerIntf, uid := e.uid,
      mtu := e.mtu }

def getPod (kubeNs : String) (status : String → String × String) (topos : List Spec)
    (name ns : String) : Option MeshTopos.Topology :=
  if ns = kubeNs then (topos.find? fun s => s.name = name).map (resource kubeNs status) else none

/-- The link of an entry and its peer. -/
def podLink (env : ℤ) (kubeNs : String) (s : Spec) (e e' : SpecLink) : PodLinkConfig :=
  { podName := s.name, peerPodName := e.peerPod, linkUID := e.uid, kubeNs := kubeNs,
    localIntf := e.localIntf, localIP := "", peerIntf := e.peerIntf, peerIP := "",
    mtu := linkMTU env e.mtu e'.mtu }

/-- The entry is the peer of another one. -/
structure IsPeer (e : SpecLink) (s' : Spec) (e' : SpecLink) : Prop where
  uid : e'.uid = e.uid
  pod : s'.name = e.peerPod
  intf : e'.localIntf = e.peerIntf

instance decidableIsPeer (e : SpecLink) (s' : Spec) (e' : SpecLink) : Decidable (IsPeer e s' e') :=
  decidable_of_iff (e'.uid = e.uid ∧ s'.name = e.peerPod ∧ e'.localIntf = e.peerIntf)
    ⟨fun h => ⟨h.1, h.2.1, h.2.2⟩, fun h => ⟨h.uid, h.pod, h.intf⟩⟩

/-- The links of all pods. -/
def meshLinks (env : ℤ) (kubeNs : String) (topos : List Spec) : List PodLinkConfig :=
  topos.flatMap fun s => s.links.flatMap fun e => topos.flatMap fun s' =>
    (s'.links.filter fun e' => IsPeer e s' e').map (podLink env kubeNs s e)

lemma mem_meshLinks {env : ℤ} {kubeNs : String} {c : PodLinkConfig} :
    c ∈ meshLinks env kubeNs topos ↔ ∃ s ∈ topos, ∃ e ∈ s.links, ∃ s' ∈ topos, ∃ e' ∈ s'.links,
      IsPeer e s' e' ∧ c = podLink env kubeNs s e e' := by
  simp only [meshLinks, List.mem_flatMap, List.mem_map, List.mem_filter, decide_eq_true_eq]
  constructor
  · rintro ⟨s, hs, e, he, s', hs', e', ⟨he', hp⟩, rfl⟩
    exact ⟨s, hs, e, he, s', hs', e', he', hp, rfl⟩
  · rintro ⟨s, hs, e, he, s', hs', e', he', hp, rfl⟩
    exact ⟨s, hs, e, he, s', hs', e', ⟨he', hp⟩, rfl⟩

section

variable {env : ℤ} {kubeNs : String} {s s' : Spec} {e e' : SpecLink}

lemma Meshed.uid_unique (h : Meshed t topos) (hself : ∀ l ∈ t.links, l.aNode ≠ l.zNode)
    (hs : s ∈ topos) (he : e ∈ s.links) (he' : e' ∈ s.links) (hu : e.uid = e'.uid) : e = e' := by
  obtain ⟨i, l, hi, hei, hj⟩ := h.link s hs e he
  obtain ⟨i', l', hi', hei', hj'⟩ := h.link s hs e' he'
  obtain rfl : i = i' := by exact_mod_cast hei.symm.trans (hu.trans hei')
  obtain rfl := Option.some.inj (hi.symm.trans hi')
  have hne := hself l (List.mem_of_getElem? hi)
  simp only [Joins, Prod.mk.injEq] at hj hj'
  refine h.intfs s hs e he e' he' ?_
  rcases hj with ⟨⟨h1, h2⟩, -⟩ | ⟨⟨h1, h2⟩, -⟩ <;> rcases hj' with ⟨⟨g1, g2⟩, -⟩ | ⟨⟨g1, g2⟩, -⟩
  · exact h2.trans g2.symm
  · exact absurd (h1.symm.trans g1) hne
  · exact absurd (g1.symm.trans h1) hne
  · exact h2.trans g2.symm

lemma Meshed.peer_symm (h : Meshed t topos) (hself : ∀ l ∈ t.links, l.aNode ≠ l.zNode)
    (hs : s ∈ topos) (he : e ∈ s.links) (hs' : s' ∈ topos) (he' : e' ∈ s'.links)
    (hp : IsPeer e s' e') : IsPeer e' s e ∧ s.name ≠ s'.name := by
  obtain ⟨i, l, hi, hei, hj⟩ := h.link s hs e he
  obtain ⟨i', l', hi', hei', hj'⟩ := h.link s' hs' e' he'
  obtain rfl : i = i' := by exact_mod_cast hei.symm.trans (hp.uid.symm.trans hei')
  obtain rfl := Option.some.inj (hi.symm.trans hi')
  have hne := hself l (List.mem_of_getElem? hi)
  simp only [Joins, Prod.mk.injEq, hp.pod, hp.intf] at hj hj'
  rcases hj with ⟨⟨h1, h2⟩, h3, h4⟩ | ⟨⟨h1, h2⟩, h3, h4⟩ <;>
    rcases hj' with ⟨⟨g1, g2⟩, g3, g4⟩ | ⟨⟨g1, g2⟩, g3, g4⟩
  · exact absurd (g1.symm.trans h3) hne
  · exact ⟨⟨hp.uid.symm, h1.trans g3.symm, h2.trans g4.symm⟩, by rw [hp.pod, h1, h3]; exact hne⟩
  · exact ⟨⟨hp.uid.symm, h1.trans g3.symm, h2.trans g4.symm⟩,
      by rw [hp.pod, h1, h3]; exact hne.symm⟩
  · exact absurd (h3.symm.trans g1) hne

lemma Meshed.exists_peer (h : Meshed t topos) (hs : s ∈ topos) (he : e ∈ s.links) :
    ∃ s' ∈ topos, ∃ e' ∈ s'.links, IsPeer e s' e' := by
  obtain ⟨s', hs', e', he', hu, hn, hi⟩ := h.peer s hs e he
  exact ⟨s', hs', e', he', hu, hn, hi⟩

variable {status : String → String × String} {nodeIP : String} {c : PodLinkConfig}

lemma Meshed.getPod_eq (h : Meshed t topos) (hs : s ∈ topos) :
    getPod kubeNs status topos s.name kubeNs = some (resource kubeNs status s) := by
  rw [getPod, if_pos rfl, find?_eq_of_unique hs (by simp)
    fun s' hs' hn => h.pods s' hs' s hs (by simpa using hn), Option.map_some]

lemma Meshed.peerLinkMTU_eq (h : Meshed t topos) (hself : ∀ l ∈ t.links, l.aNode ≠ l.zNode)
    (hs : s ∈ topos) (he : e ∈ s.links) :
    peerLinkMTU (resource kubeNs status s) e.uid = e.mtu := by
  have hfind : s.links.find? (fun e' => e'.uid = e.uid) = some e :=
    find?_eq_of_unique he (by simp) fun e' he' hu =>
      h.uid_unique hself hs he' he (by simpa using hu)
  simp [peerLinkMTU, findPodLink, parsePodLinks, resource, List.find?_map, Function.comp_def, hfind]

lemma Meshed.mem_sameNodeLinks (h : Meshed t topos) (hself : ∀ l ∈ t.links, l.aNode ≠ l.zNode)
    (hs : s ∈ topos) :
    c ∈ sameNodeLinks env nodeIP (getPod kubeNs status topos) (resource kubeNs status s) ↔
      isLocal nodeIP (resource kubeNs status s) = true ∧ ∃ e ∈ s.links, ∃ s' ∈ topos,
        ∃ e' ∈ s'.links, IsPeer e s' e' ∧ isPodActive (resource kubeNs status s') = true ∧
          (status s'.name).1 = (status s.name).1 ∧ c = podLink env kubeNs s e e' := by
  unfold sameNodeLinks
  split
  · next hlocal =>
    simp only [parsePodLinks, List.mem_filterMap, List.mem_map]
    constructor
    · rintro ⟨link, ⟨r, hr, rfl⟩, hc⟩
      obtain ⟨e, he, rfl⟩ := List.mem_map.mp hr
      obtain ⟨s', hs', e', he', hp⟩ := h.exists_peer hs he
      simp only [resource] at hc
      rw [← hp.pod, ← hp.uid, h.getPod_eq hs'] at hc
      simp only [h.peerLinkMTU_eq hself hs' he'] at hc
      split at hc
      · next hact =>
        obtain rfl := Option.some.inj hc
        refine ⟨hlocal, e, he, s', hs', e', he', hp, hact.1, hact.2, ?_⟩
        simp [podLink, hp.pod, hp.uid]
      · cases hc
    · rintro ⟨-, e, he, s', hs', e', he', hp, hact, hsrc, rfl⟩
      refine ⟨_, ⟨_, List.mem_map.mpr ⟨e, he, rfl⟩, rfl⟩, ?_⟩
      simp only [resource]
      rw [← hp.pod, ← hp.uid, h.getPod_eq hs']
      simp only [h.peerLinkMTU_eq hself hs' he']
      rw [if_pos ⟨hact, hsrc⟩]
      simp [podLink, hp.pod, hp.uid]
  · next hlocal => simp [hlocal]

lemma linkMTU_comm (env a b : ℤ) : linkMTU env a b = linkMTU env b a := by
  rw [linkMTU, linkMTU, max_comm]

lemma mirror_iff {e₂ e₂' : SpecLink} {s₂ : Spec} :
    VethModel.Mirror (podLink env kubeNs s e e') (podLink env kubeNs s₂ e₂ e₂') ↔
      s₂.name = e.peerPod ∧ e₂.peerPod = s.name ∧ e₂.uid = e.uid :=
  ⟨fun h => ⟨h.pod, h.peer, h.uid⟩, fun h => ⟨h.1, h.2.1, h.2.2, rfl⟩⟩

variable {s₂ s₂' : Spec} {e₂ e₂' : SpecLink}

lemma Meshed.peer_unique (h : Meshed t topos) (hself : ∀ l ∈ t.links, l.aNode ≠ l.zNode)
    (hs' : s' ∈ topos) (he' : e' ∈ s'.links) (hp : IsPeer e s' e') (hs₂' : s₂' ∈ topos)
    (he₂' : e₂' ∈ s₂'.links) (hp₂ : IsPeer e s₂' e₂') : e₂' = e' := by
  obtain rfl := h.pods s₂' hs₂' s' hs' (hp₂.pod.trans hp.pod.symm)
  exact h.uid_unique hself hs₂' he₂' he' (hp₂.uid.trans hp.uid.symm)

lemma Meshed.peer_end (h : Meshed t topos) (hself : ∀ l ∈ t.links, l.aNode ≠ l.zNode)
    (hs : s ∈ topos) (he : e ∈ s.links) {i : ℕ} {l : Link} (hi : t.links[i]? = some l)
    (hu : e.uid = i) (hend : (s.name, e.localIntf) = (l.aNode, l.aInt)) :
    (e.peerPod, e.peerIntf) = (l.zNode, l.zInt) := by
  obtain ⟨i', l', hi', hei', hj⟩ := h.link s hs e he
  obtain rfl : i = i' := by exact_mod_cast hu.symm.trans hei'
  obtain rfl := Option.some.inj (hi.symm.trans hi')
  rcases hj with ⟨-, hj⟩ | ⟨hj, -⟩
  · exact hj
  · exact absurd (congrArg Prod.fst (hend.symm.trans hj)) (hself l (List.mem_of_getElem? hi))

lemma Meshed.of_same_uid (h : Meshed t topos) (hs : s ∈ topos) (he : e ∈ s.links)
    (hs₂ : s₂ ∈ topos) (he₂ : e₂ ∈ s₂.links) (hu : e₂.uid = e.uid) :
    s₂ = s ∨ s₂.name = e.peerPod ∧ e₂.peerPod = s.name := by
  obtain ⟨i, l, hi, hei, hj⟩ := h.link s hs e he
  obtain ⟨i', l', hi', hei', hj'⟩ := h.link s₂ hs₂ e₂ he₂
  obtain rfl : i = i' := by exact_mod_cast hei.symm.trans (hu.symm.trans hei')
  obtain rfl := Option.some.inj (hi.symm.trans hi')
  simp only [Joins, Prod.mk.injEq] at hj hj'
  rcases hj with ⟨⟨h1, -⟩, h3, -⟩ | ⟨⟨h1, -⟩, h3, -⟩ <;>
    rcases hj' with ⟨⟨g1, -⟩, g3, -⟩ | ⟨⟨g1, -⟩, g3, -⟩
  · exact .inl (h.pods s₂ hs₂ s hs (g1.trans h1.symm))
  · exact .inr ⟨g1.trans h3.symm, g3.trans h1.symm⟩
  · exact .inr ⟨g1.trans h3.symm, g3.trans h1.symm⟩
  · exact .inl (h.pods s₂ hs₂ s hs (g1.trans h1.symm))

lemma Meshed.mirror_mtu (h : Meshed t topos) (hself : ∀ l ∈ t.links, l.aNode ≠ l.zNode)
    {c c' : PodLinkConfig} (hc : c ∈ meshLinks env kubeNs topos)
    (hc' : c' ∈ meshLinks env kubeNs topos) (hm : VethModel.Mirror c c') : c'.mtu = c.mtu := by
  obtain ⟨s, hs, e, he, s', hs', e', he', hp, rfl⟩ := mem_meshLinks.mp hc
  obtain ⟨s₂, hs₂, e₂, he₂, s₂', hs₂', e₂', he₂', hp₂, rfl⟩ := mem_meshLinks.mp hc'
  obtain ⟨hpod, -, huid⟩ := mirror_iff.mp hm
  obtain rfl := h.pods s₂ hs₂ s' hs' (hpod.trans hp.pod.symm)
  obtain rfl := h.uid_unique hself hs₂ he₂ he' (huid.trans hp.uid.symm)
  obtain rfl := h.peer_unique hself hs he (h.peer_symm hself hs he hs₂ he₂ hp).1 hs₂' he₂' hp₂
  exact linkMTU_comm env e₂.mtu e₂'.mtu

lemma Meshed.host_unique (h : Meshed t topos) (hself : ∀ l ∈ t.links, l.aNode ≠ l.zNode)
    {c c' : PodLinkConfig} (hc : c ∈ meshLinks env kubeNs topos)
    (hc' : c' ∈ meshLinks env kubeNs topos)
    (hname : VethModel.localHostName c = VethModel.localHostName c')
    (huid : c.linkUID = c'.linkUID) : c = c' := by
  obtain ⟨s, hs, e, he, s', hs', e', he', hp, rfl⟩ := mem_meshLinks.mp hc
  obtain ⟨s₂, hs₂, e₂, he₂, s₂', hs₂', e₂', he₂', hp₂, rfl⟩ := mem_meshLinks.mp hc'
  rcases h.of_same_uid hs he hs₂ he₂ huid.symm with rfl | ⟨hpod, hpeer⟩
  · obtain rfl := h.uid_unique hself hs₂ he₂ he huid.symm
    rw [h.peer_unique hself hs' he' hp hs₂' he₂' hp₂]
  · -- the two ends of a link have different names
    have hm : VethModel.Mirror (podLink env kubeNs s e e') (podLink env kubeNs s₂ e₂ e₂') :=
      mirror_iff.mpr ⟨hpod, hpeer, huid.symm⟩
    have hne : s.name ≠ e.peerPod := hp.pod ▸ (h.peer_symm hself hs he hs' he' hp).2
    exact absurd (hname.trans (VethKernel.peerHostName_eq hm hne).symm) (VethKernel.hostNames_ne _)

lemma Meshed.intf_unique (h : Meshed t topos) (hself : ∀ l ∈ t.links, l.aNode ≠ l.zNode)
    {c c' : PodLinkConfig} (hc : c ∈ meshLinks env kubeNs topos)
    (hc' : c' ∈ meshLinks env kubeNs topos) (hpod : c.podName = c'.podName)
    (hintf : c.localIntf = c'.localIntf) : c = c' := by
  obtain ⟨s, hs, e, he, s', hs', e', he', hp, rfl⟩ := mem_meshLinks.mp hc
  obtain ⟨s₂, hs₂, e₂, he₂, s₂', hs₂', e₂', he₂', hp₂, rfl⟩ := mem_meshLinks.mp hc'
  obtain rfl := h.pods s hs s₂ hs₂ hpod
  obtain rfl := h.intfs s hs e he e₂ he₂ hintf
  rw [h.peer_unique hself hs' he' hp hs₂' he₂' hp₂]

lemma exists_pod {c : PodLinkConfig} (hc : c ∈ meshLinks env kubeNs topos) :
    ∃ s ∈ topos, s.name = c.podName := by
  obtain ⟨s, hs, e, -, s', -, e', -, -, rfl⟩ := mem_meshLinks.mp hc
  exact ⟨s, hs, rfl⟩

end

open Kne.VethModel

/-- The pods of a topology on one node: they have namespaces of their own, the hashes of the links
are different, no interface is called like a device on the host, and the kernel accepts the names
and the MTUs of the links. -/
structure OneNode (L : Linux) (env : ℤ) (kubeNs : String) (topos : List Spec)
    (netns : String → String) : Prop where
  named : ∀ s ∈ topos, netns s.name ≠ ""
  own : ∀ s ∈ topos, ∀ s' ∈ topos, netns s.name = netns s'.name → s.name = s'.name
  hash : ∀ c ∈ meshLinks env kubeNs topos, ∀ c' ∈ meshLinks env kubeNs topos,
    localHostName c = localHostName c' → c.linkUID = c'.linkUID
  fresh : ∀ c ∈ meshLinks env kubeNs topos, ∀ c' ∈ meshLinks env kubeNs topos,
    c.localIntf ≠ localHostName c'
  accepts : ∀ c ∈ meshLinks env kubeNs topos, L.Accepts (netns c.podName) c

variable {L : Linux} {env : ℤ} {kubeNs nodeIP : String} {netns : String → String} {s : Spec}

/-- What the passes rely on, from the specs of a loaded topology in which no node is linked to
itself. -/
def meshPlan (parseAddr : String → Option String) (h : Meshed t topos)
    (hself : ∀ l ∈ t.links, l.aNode ≠ l.zNode) (hone : OneNode L env kubeNs topos netns) :
    Plan L parseAddr where
  links := meshLinks env kubeNs topos
  netns _ := netns
  mirror c hc := by
    obtain ⟨s, hs, e, he, s', hs', e', he', hp, rfl⟩ := mem_meshLinks.mp hc
    obtain ⟨hp', -⟩ := h.peer_symm hself hs he hs' he' hp
    exact ⟨_, mem_meshLinks.mpr ⟨s', hs', e', he', s, hs, e, he, hp', rfl⟩,
      mirror_iff.mpr ⟨hp.pod, hp'.pod.symm, hp.uid⟩⟩
  apart c hc := by
    obtain ⟨s, hs, e, he, s', hs', e', he', hp, rfl⟩ := mem_meshLinks.mp hc
    obtain ⟨-, hne⟩ := h.peer_symm hself hs he hs' he' hp
    rwa [hp.pod] at hne
  mtu c hc c' hc' hm := h.mirror_mtu hself hc hc' hm
  host c hc c' hc' hname := h.host_unique hself hc hc' hname (hone.hash c hc c' hc' hname)
  intf c hc c' hc' hpod hintf := by
    obtain ⟨s, hs, hname⟩ := exists_pod hc
    obtain ⟨s', hs', hname'⟩ := exists_pod hc'
    rw [← hname, ← hname'] at hpod
    exact h.intf_unique hself hc hc' (by rw [← hname, ← hname', hone.own s hs s' hs' hpod]) hintf
  fresh := hone.fresh
  addr c hc hip := by
    obtain ⟨s, -, e, -, s', -, e', -, -, rfl⟩ := mem_meshLinks.mp hc
    exact absurd rfl hip
  accepts := hone.accepts

/-- The pass of a pod that the daemon makes. -/
def podJob (env : ℤ) (nodeIP kubeNs : String) (netns : String → String)
    (status : String → String × String) (topos : List Spec) (s : Spec) :
    String × List PodLinkConfig :=
  (netns s.name, sameNodeLinks env nodeIP (getPod kubeNs status topos) (resource kubeNs status s))

lemma job_podJob (parseAddr : String → Option String) (h : Meshed t topos)
    (hself : ∀ l ∈ t.links, l.aNode ≠ l.zNode) (hone : OneNode L env kubeNs topos netns)
    (status : String → String × String) (hs : s ∈ topos) :
    (meshPlan parseAddr h hself hone).Job (podJob env nodeIP kubeNs netns status topos s).1
      (podJob env nodeIP kubeNs netns status topos s).2 := by
  intro c hc
  obtain ⟨-, e, he, s', hs', e', he', hp, -, -, rfl⟩ := (h.mem_sameNodeLinks hself hs).mp hc
  exact ⟨mem_meshLinks.mpr ⟨s, hs, e, he, s', hs', e', he', hp, rfl⟩, rfl⟩

lemma mem_podJob (h : Meshed t topos) (hself : ∀ l ∈ t.links, l.aNode ≠ l.zNode)
    (hone : OneNode L env kubeNs topos netns) (hip : nodeIP ≠ "") (hs : s ∈ topos) {e e' : SpecLink}
    {s' : Spec} (he : e ∈ s.links) (hs' : s' ∈ topos) (he' : e' ∈ s'.links) (hp : IsPeer e s' e') :
    podLink env kubeNs s e e' ∈
      (podJob env nodeIP kubeNs netns (fun pod => (nodeIP, netns pod)) topos s).2 :=
  (h.mem_sameNodeLinks hself hs).mpr
    ⟨by simp [isLocal, isPodActive, resource, hip, hone.named s hs], e, he, s', hs', e', he', hp,
      by simp [isPodActive, resource, hip, hone.named s' hs'], rfl, rfl⟩

open Kne.Runs
open Kne.VethPasses (Plugged ok_of_run passes_plug plugged_pair)

/-- **From the topology to the devices.** For a topology that `load` and `topologySpecs` accept,
with nodes that use `Impl.TopologySpecs` and none linked to itself, on a node as `OneNode` has it,
where each pod keeps its namespace: whatever else the daemon has been through before, once all pods
are active its passes, in any order, succeed, and every link of the topology but those of `eth0` is
a veth pair whose two ends are the two interfaces of the link, both up, with one MTU. -/
theorem topology_plugged (parseAddr : String → Option String) (hw : UsesImpl w) (hp : NoPeers t)
    (hload : load w t = .ok nodes) (hspecs : topologySpecs o o' nodes = .ok topos)
    (hself : ∀ l ∈ t.links, l.aNode ≠ l.zNode) (hone : OneNode L env t.name topos netns)
    (hip : nodeIP ≠ "") {order : List Spec} (horder : ∀ s, s ∈ order ↔ s ∈ topos) :
    ∃ P : Plan L parseAddr, P.links = meshLinks env t.name topos ∧
      (∀ status, ∀ s ∈ topos, P.Job (podJob env nodeIP t.name netns status topos s).1
        (podJob env nodeIP t.name netns status topos s).2) ∧
      ∀ as st, run (step P) {} as = some st →
        ∃ k, passes parseAddr L (order.map (podJob env nodeIP t.name netns
            (fun pod => (nodeIP, netns pod)) topos)) st.kernel = .ok k ∧
          ∀ l ∈ t.links, l.aInt ≠ "eth0" → l.zInt ≠ "eth0" →
            ∃ d ∈ k.devices, ∃ d' ∈ k.devices,
              d.netns = some (netns l.aNode) ∧ d.name = l.aInt ∧ d.up = true ∧
              d'.netns = some (netns l.zNode) ∧ d'.name = l.zInt ∧ d'.up = true ∧
              d'.pair = d.pair ∧ d'.side = !d.side ∧ d'.mtu = d.mtu := by
  have h := meshed_of_load hw hp hload hspecs
  refine ⟨meshPlan parseAddr h hself hone, rfl, fun status s hs => job_podJob parseAddr h hself hone
    status hs, fun as st hrun => ?_⟩
  have hjobs : ∀ j ∈ order.map
    (podJob env nodeIP t.name netns (fun pod => (nodeIP, netns pod)) topos),
      (meshPlan parseAddr h hself hone).Job j.1 j.2 := by
    intro j hj
    obtain ⟨s, hs, rfl⟩ := List.mem_map.mp hj
    exact job_podJob parseAddr h hself hone _ ((horder s).mp hs)
  obtain ⟨k, hk, hok, hdone, -⟩ := passes_plug (ok_of_run hrun) hjobs
  refine ⟨k, hk, fun l hl ha hz => ?_⟩
  obtain ⟨i, hi⟩ := List.mem_iff_getElem?.mp hl
  obtain ⟨s, hs, e, he, hu, hend⟩ := h.all i l hi ha hz
  obtain ⟨s', hs', e', he', hpeer⟩ := h.exists_peer hs he
  obtain ⟨hpeer', -⟩ := h.peer_symm hself hs he hs' he' hpeer
  have hother := h.peer_end hself hs he hi hu hend
  rw [← hpeer.pod, ← hpeer.intf, Prod.mk.injEq] at hother
  rw [Prod.mk.injEq] at hend
  have hplugged : ∀ {s e s' e'}, s ∈ topos → e ∈ s.links → s' ∈ topos → e' ∈ s'.links →
      IsPeer e s' e' → Plugged (meshPlan parseAddr h hself hone) k (podLink env t.name s e e') :=
    fun {s e s' e'} hs he hs' he' hp => hdone _ (List.mem_map.mpr ⟨s, (horder s).mpr hs, rfl⟩) _
      (mem_podJob h hself hone hip hs he hs' he' hp)
  obtain ⟨d, hd, d', hd', hplug, hplug', hpair, hside, hmtu, hmtu'⟩ := plugged_pair hok
    (mem_meshLinks.mpr ⟨s, hs, e, he, s', hs', e', he', hpeer, rfl⟩)
    (mem_meshLinks.mpr ⟨s', hs', e', he', s, hs, e, he, hpeer', rfl⟩)
    (mirror_iff.mpr ⟨hpeer.pod, hpeer'.pod.symm, hpeer.uid⟩)
    (hplugged hs he hs' he' hpeer) (hplugged hs' he' hs he hpeer')
  refine ⟨d, hd, d', hd', ?_, hplug.name.trans hend.2, hplug.up, ?_, hplug'.name.trans hother.2,
    hplug'.up, hpair, hside, hmtu'.trans hmtu.symm⟩
  · exact hplug.netns.trans (congrArg (fun pod => some (netns pod)) hend.1)
  · exact hplug'.netns.trans (congrArg (fun pod => some (netns pod)) hother.1)

/-- The specs of two nodes with one link, besides the one between their management interfaces. -/
def mgmtSpecs : List Spec :=
  [⟨"r2", [⟨0, "eth2", "eth1", "r1", 0⟩]⟩, ⟨"r1", [⟨0, "eth1", "eth2", "r2", 0⟩]⟩]

lemma mgmt_accepted : ∀ c ∈ meshLinks 0 mgmtLink.name mgmtSpecs, VethPasses.accepted c := by decide

lemma mgmt_oneNode : OneNode VethPasses.plainLinux 0 mgmtLink.name mgmtSpecs id where
  named := by decide
  own := by decide
  hash := by decide
  fresh := by decide
  accepts c hc := VethPasses.plainLinux_accepts (mgmt_accepted c hc)

theorem topology_plugged_mgmtLink :
    ∃ k, passes some VethPasses.plainLinux (mgmtSpecs.map (podJob 0 "10.0.0.1" mgmtLink.name id
        (fun pod => ("10.0.0.1", pod)) mgmtSpecs)) {} = .ok k ∧
      ∃ d ∈ k.devices, ∃ d' ∈ k.devices, d.netns = some "r1" ∧ d.name = "eth1" ∧
        d'.netns = some "r2" ∧ d'.name = "eth2" ∧ d'.pair = d.pair ∧ d'.side = !d.side := by
  obtain ⟨P, -, -, hall⟩ := topology_plugged some plain_usesImpl (by decide : NoPeers mgmtLink) rfl
    (rfl : topologySpecs keptOrder keptOrder _ = .ok mgmtSpecs) (by decide) mgmt_oneNode
    (by decide : "10.0.0.1" ≠ "") (fun s => Iff.rfl)
  obtain ⟨k, hk, hlinks⟩ := hall [] {} rfl
  obtain ⟨d, hd, d', hd', hns, hname, -, hns', hname', -, hpair, hside, -⟩ :=
    hlinks ⟨"r1", "eth1", "r2", "eth2"⟩ (by decide) (by decide) (by decide)
  exact ⟨k, hk, d, hd, d', hd', hns, hname, hns', hname', hpair, hside⟩

end Kne.MeshPods
