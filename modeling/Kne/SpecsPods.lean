import Kne.SpecsLinks

/-!
Nodes of several pods (`Node.TopologySpecs` in `topo/node/keysight/keysight.go`), and the links
between two ports of such a node.

The operator says which pod has which port of the node, and what the port is called in the pod.
`setLinkPeer` tells the two ends of a link of a node to itself apart by that name alone, so it
finds the peers just when the two pods do not call their ports the same.
-/

namespace Kne.SpecsPods

open Kne.Checked Kne.TopoModel Kne.TopoEnds Kne.SpecsModel Kne.SpecsOrder Kne.SpecsPeers
  Kne.SpecsLinks

/-! ### The specs of a node -/

/-- An interface in the status of the operator: its name at the node, its pod, and its name in
the pod. -/
structure StatusIntf where
  name : String
  podName : String
  intf : String
  deriving DecidableEq, Repr

/-- One turn of the loop over the status: the link goes to the resource of its pod. -/
def addIntf (n : Node) (podNameTopo : AList (fun _ : String => Spec)) (ifc : StatusIntf) :
    Except String (AList (fun _ : String => Spec)) :=
  match n.interfaces.lookup ifc.name with
  | none =>
    .error ("could not find '" ++ ifc.name ++ "' in interface map of node " ++ n.name)
  | some nodeIfc =>
    let topo := (podNameTopo.lookup ifc.podName).getD { name := ifc.podName, links := [] }
    .ok (podNameTopo.insert ifc.podName { topo with
      links := topo.links ++ [{
        uid := nodeIfc.uid
        localIntf := ifc.intf
        peerIntf := nodeIfc.peerIntName
        peerPod := nodeIfc.peerName
        mtu := nodeIfc.mtu }] })

/-- `TopologySpecs` of the Keysight package. The status is what the operator reports once the
custom resource has been made, or the error on the way there. -/
def keysightTopologySpecs (o : Order) (n : Node) (status : Except String (List StatusIntf)) :
    Except String (List Spec) := do
  let status ← status
  let podNameTopo ← status.foldlM (addIntf n) ∅
  return (o.keys podNameTopo.keys).filterMap podNameTopo.lookup

/-- The interfaces so far are in the resources of their pods, and nothing else is. -/
structure Pods (n : Node) (m : AList (fun _ : String => Spec)) (done : List StatusIntf) :
    Prop where
  from_status : ∀ pod spec, m.lookup pod = some spec → spec.name = pod ∧
    ∀ e ∈ spec.links, ∃ s ∈ done, s.podName = pod ∧
      ∃ v, n.interfaces.lookup s.name = some v ∧ e = specLink s.intf v
  listed : ∀ s ∈ done, ∃ v spec, n.interfaces.lookup s.name = some v ∧
    m.lookup s.podName = some spec ∧ specLink s.intf v ∈ spec.links

lemma addIntf_ok {n : Node} {m m' : AList (fun _ : String => Spec)} {s : StatusIntf}
    (h : addIntf n m s = .ok m') : ∃ v topo, n.interfaces.lookup s.name = some v ∧
      (m.lookup s.podName).getD ⟨s.podName, []⟩ = topo ∧
      m' = m.insert s.podName ⟨topo.name, topo.links ++ [specLink s.intf v]⟩ := by
  unfold addIntf at h
  cases hv : n.interfaces.lookup s.name with
  | none => simp [hv] at h
  | some v =>
    rw [hv] at h
    exact ⟨v, _, rfl, rfl, (Except.ok.inj h).symm⟩

lemma addIntf_pods {n : Node} {m m' : AList (fun _ : String => Spec)} {done : List StatusIntf}
    {s : StatusIntf} (hm : Pods n m done) (h : addIntf n m s = .ok m') :
    Pods n m' (done ++ [s]) := by
  obtain ⟨v, topo, hv, htopo, rfl⟩ := addIntf_ok h
  -- the resource of the pod before the turn
  have hold : topo.name = s.podName ∧ ∀ e ∈ topo.links, ∃ s' ∈ done, s'.podName = s.podName ∧
      ∃ v, n.interfaces.lookup s'.name = some v ∧ e = specLink s'.intf v := by
    cases hl : m.lookup s.podName with
    | none =>
      rw [hl, Option.getD_none] at htopo
      subst htopo
      exact ⟨rfl, by simp⟩
    | some spec =>
      rw [hl, Option.getD_some] at htopo
      subst htopo
      exact hm.from_status _ _ hl
  refine ⟨fun pod spec hpod => ?_, fun s' hs' => ?_⟩
  · by_cases hp : pod = s.podName
    · subst hp
      rw [AList.lookup_insert] at hpod
      cases hpod
      refine ⟨hold.1, fun e he => ?_⟩
      rcases List.mem_append.mp he with he | he
      · obtain ⟨s', hs', hrest⟩ := hold.2 e he
        exact ⟨s', List.mem_append_left _ hs', hrest⟩
      · exact ⟨s, by simp, rfl, v, hv, by simpa using he⟩
    · rw [AList.lookup_insert_ne hp] at hpod
      obtain ⟨hname, hlinks⟩ := hm.from_status pod spec hpod
      refine ⟨hname, fun e he => ?_⟩
      obtain ⟨s', hs', hrest⟩ := hlinks e he
      exact ⟨s', List.mem_append_left _ hs', hrest⟩
  · rcases List.mem_append.mp hs' with hs' | hs'
    · obtain ⟨v', spec, hv', hspec, he⟩ := hm.listed s' hs'
      by_cases hp : s'.podName = s.podName
      · rw [hp] at hspec ⊢
        rw [hspec, Option.getD_some] at htopo
        subst htopo
        exact ⟨v', _, hv', AList.lookup_insert _, List.mem_append_left _ he⟩
      · exact ⟨v', spec, hv', by rw [AList.lookup_insert_ne hp]; exact hspec, he⟩
    · rw [List.mem_singleton.mp hs']
      exact ⟨v, _, hv, AList.lookup_insert _, by simp⟩

lemma foldlM_addIntf {n : Node} {m m' : AList (fun _ : String => Spec)}
    {done status : List StatusIntf} (hm : Pods n m done)
    (h : status.foldlM (addIntf n) m = .ok m') : Pods n m' (done ++ status) := by
  induction status generalizing m done with
  | nil =>
    cases h
    rwa [List.append_nil]
  | cons s status ih =>
    obtain ⟨m1, h1, hrest⟩ := foldlM_cons_ok_iff.mp h
    rw [List.append_cons]
    exact ih (addIntf_pods hm h1) hrest

lemma keysightTopologySpecs_ok {o : Order} {n : Node} {status : List StatusIntf}
    {specs : List Spec} (h : keysightTopologySpecs o n (.ok status) = .ok specs) :
    (∀ spec ∈ specs, ∀ e ∈ spec.links, ∃ s ∈ status, spec.name = s.podName ∧
      ∃ v, n.interfaces.lookup s.name = some v ∧ e = specLink s.intf v) ∧
    ∀ s ∈ status, ∃ v, n.interfaces.lookup s.name = some v ∧
      ∃ spec ∈ specs, spec.name = s.podName ∧ specLink s.intf v ∈ spec.links := by
  obtain ⟨_, hst, hloop⟩ := bind_ok_iff.mp h
  cases hst
  obtain ⟨m, hm, hret⟩ := bind_ok_iff.mp hloop
  cases hret
  have hempty : Pods n ∅ [] := ⟨fun pod spec h => by simp at h, by simp⟩
  have hpods := foldlM_addIntf hempty hm
  rw [List.nil_append] at hpods
  refine ⟨fun spec hspec e he => ?_, fun s hs => ?_⟩
  · obtain ⟨pod, -, hpod⟩ := List.mem_filterMap.mp hspec
    obtain ⟨hname, hlinks⟩ := hpods.from_status pod spec hpod
    obtain ⟨s, hs, hsp, hrest⟩ := hlinks e he
    exact ⟨s, hs, hname.trans hsp.symm, hrest⟩
  · obtain ⟨v, spec, hv, hspec, he⟩ := hpods.listed s hs
    exact ⟨v, hv, spec, List.mem_filterMap.mpr ⟨s.podName, o.mem_keys_of_lookup hspec, hspec⟩,
      (hpods.from_status _ _ hspec).1, he⟩

/-! ### Links of a node to itself -/

/-- The link `u` joins the two interfaces of the node. -/
def Joined (links : List Link) (node : String) (u : ℕ) (s s' : StatusIntf) : Prop :=
  ∃ l, links[u]? = some l ∧ Opposite l (node, s.name) (node, s'.name)

/-- The status assigns the interfaces of a node to pods: it lists every interface at a link once
and no other. -/
structure Assigned (links : List Link) (node : String) (status : List StatusIntf) : Prop where
  once : (status.map StatusIntf.name).Nodup
  all : ∀ l ∈ links, ∀ int peer, EndAt l node int peer → ∃ s ∈ status, s.name = int
  linked : ∀ s ∈ status, ∃ l ∈ links, ∃ peer, EndAt l node s.name peer

/-- The rest of the topology is in order: the nodes give specs, and every entry but those of the
links of `node` to itself has a peer. -/
structure OthersFound (nodes : AList (fun _ : String => Impl)) (node : String) : Prop where
  specs : ∀ k impl, nodes.lookup k = some impl → ∃ specs, impl.topologySpecs = .ok specs
  peers : ∀ p e, entryAt nodes p = some e → ¬ (p.node = node ∧ e.peerPod = node) →
    ∃ q e', q.node = e.peerPod ∧ entryAt nodes q = some e' ∧ isPeer p.node e e' = true

lemma exists_setLinkPeer {nodeName podName : String} {link : SpecLink} {specs : List Spec}
    (h : ∃ spec ∈ specs, ∃ e ∈ spec.links, isPeer nodeName link e = true) :
    ∃ link', setLinkPeer nodeName podName link specs = .ok link' := by
  induction specs with
  | nil => simp at h
  | cons spec specs ih =>
    unfold setLinkPeer
    cases hf : spec.links.find? (isPeer nodeName link) with
    | some e => exact ⟨_, rfl⟩
    | none =>
      refine ih ?_
      obtain ⟨spec', hs, e, he, hpeer⟩ := h
      rcases List.mem_cons.mp hs with rfl | hs
      · exact absurd hpeer (List.find?_eq_none.mp hf e he)
      · exact ⟨spec', hs, e, he, hpeer⟩

lemma exists_resolve {m : NodeSpecs} {p q : Pos} {link e : SpecLink} (hq : q.node = link.peerPod)
    (he : linkAt m q = some e) (hpeer : isPeer p.node link e = true) :
    ∃ link', resolve m p link = .ok link' := by
  obtain ⟨spec, hspec, hlink⟩ := Option.bind_eq_some_iff.mp he
  obtain ⟨specs, hspecs, hget⟩ := Option.bind_eq_some_iff.mp hspec
  unfold resolve
  rw [← hq, hspecs]
  exact exists_setLinkPeer ⟨spec, List.mem_of_getElem? hget, e, List.mem_of_getElem? hlink, hpeer⟩

variable {links : List Link} {iface : String → String → Option Interface} {n : Node}
  {status : List StatusIntf} {nodes : AList (fun _ : String => Impl)} {m : NodeSpecs}

lemma Joined.symm {node : String} {u : ℕ} {s s' : StatusIntf} (h : Joined links node u s s') :
    Joined links node u s' s := by
  obtain ⟨l, hl, hopp⟩ := h
  exact ⟨l, hl, hopp.elim (fun h => Or.inr ⟨h.2, h.1⟩) fun h => Or.inl ⟨h.2, h.1⟩⟩

lemma end_iface (hL : Loaded links iface) (hi : ∀ int, iface n.name int = n.interfaces.lookup int)
    (hA : Assigned links n.name status) {s : StatusIntf} (hs : s ∈ status) {v : Interface}
    (hv : n.interfaces.lookup s.name = some v) :
    ∃ (u : ℕ) (l : Link), links[u]? = some l ∧ v.uid = u ∧ EndAt l n.name s.name v.peerName := by
  obtain ⟨l, hl, peer, hend⟩ := hA.linked s hs
  obtain ⟨u, hu⟩ := List.mem_iff_getElem?.mp hl
  obtain ⟨v', hv', hpeer, huid⟩ := loaded_end hL hu hend
  rw [hi, hv] at hv'
  cases hv'
  exact ⟨u, l, hu, huid, hpeer ▸ hend⟩

lemma joined_of_peerName (hL : Loaded links iface)
    (hi : ∀ int, iface n.name int = n.interfaces.lookup int) (hA : Assigned links n.name status)
    {s : StatusIntf} (hs : s ∈ status) {v : Interface} (hv : n.interfaces.lookup s.name = some v)
    (hpeer : v.peerName = n.name) :
    ∃ u, ∃ s' ∈ status, Joined links n.name u s s' ∧ v.uid = u := by
  obtain ⟨u, l, hu, huid, hend⟩ := end_iface hL hi hA hs hv
  have hl := List.mem_of_getElem? hu
  rw [hpeer] at hend
  rcases hend with ⟨h1, h2, h3⟩ | ⟨h1, h2, h3⟩
  · obtain ⟨s', hs', hname⟩ := hA.all l hl l.zInt n.name (Or.inr ⟨h3, rfl, h1⟩)
    exact ⟨u, s', hs', ⟨l, hu, Or.inl ⟨Prod.ext h1 h2, Prod.ext h3 hname⟩⟩, huid⟩
  · obtain ⟨s', hs', hname⟩ := hA.all l hl l.aInt n.name (Or.inl ⟨h3, rfl, h1⟩)
    exact ⟨u, s', hs', ⟨l, hu, Or.inr ⟨Prod.ext h1 h2, Prod.ext h3 hname⟩⟩, huid⟩

lemma iface_of_joined (hL : Loaded links iface)
    (hi : ∀ int, iface n.name int = n.interfaces.lookup int) {u : ℕ} {s s' : StatusIntf}
    (h : Joined links n.name u s s') {v : Interface} (hv : n.interfaces.lookup s.name = some v) :
    v.uid = u ∧ v.peerName = n.name := by
  obtain ⟨l, hu, hopp⟩ := h
  have hend : EndAt l n.name s.name n.name := by
    rcases hopp with ⟨h1, h2⟩ | ⟨h1, h2⟩
    · exact Or.inl ⟨congrArg Prod.fst h1, congrArg Prod.snd h1, congrArg Prod.fst h2⟩
    · exact Or.inr ⟨congrArg Prod.fst h1, congrArg Prod.snd h1, congrArg Prod.fst h2⟩
  obtain ⟨v', hv', hpeer, huid⟩ := loaded_end hL hu hend
  rw [hi, hv] at hv'
  cases hv'
  exact ⟨huid, hpeer⟩

lemma eq_of_uid (hL : Loaded links iface) (hi : ∀ int, iface n.name int = n.interfaces.lookup int)
    (hA : Assigned links n.name status) {u : ℕ} {s s' : StatusIntf} (hs : s ∈ status)
    (hs' : s' ∈ status) (h : Joined links n.name u s s') {r : StatusIntf} (hr : r ∈ status)
    {v : Interface} (hv : n.interfaces.lookup r.name = some v) (huid : v.uid = u) :
    r = s ∨ r = s' := by
  obtain ⟨l, hu, hopp⟩ := h
  obtain ⟨u', l', hu', huid', hend⟩ := end_iface hL hi hA hr hv
  have huu : u' = u := by
    have : (u' : ℤ) = u := huid'.symm.trans huid
    exact_mod_cast this
  rw [huu, hu] at hu'
  cases hu'
  have hinj : ∀ x ∈ status, r.name = x.name → r = x := fun x hx hname =>
    List.inj_on_of_nodup_map hA.once hr hx hname
  have hname : r.name = l.aInt ∨ r.name = l.zInt := hend.imp (fun h => h.2.1) fun h => h.2.1
  rcases hopp with ⟨h1, h2⟩ | ⟨h1, h2⟩
  · have g1 : s.name = l.aInt := congrArg Prod.snd h1
    have g2 : s'.name = l.zInt := congrArg Prod.snd h2
    rw [← g1, ← g2] at hname
    exact hname.imp (hinj s hs) (hinj s' hs')
  · have g1 : s.name = l.zInt := congrArg Prod.snd h1
    have g2 : s'.name = l.aInt := congrArg Prod.snd h2
    rw [← g1, ← g2] at hname
    exact hname.symm.imp (hinj s hs) (hinj s' hs')

/-! ### The entries of the node -/

/-- The specs of the node in the map are the interfaces of the status. -/
structure Hosts (n : Node) (status : List StatusIntf) (m : NodeSpecs) : Prop where
  from_status : ∀ p spec e, p.node = n.name → specAt m p = some spec → linkAt m p = some e →
    ∃ s ∈ status, spec.name = s.podName ∧
      ∃ v, n.interfaces.lookup s.name = some v ∧ e = specLink s.intf v
  listed : ∀ s ∈ status, ∃ v, n.interfaces.lookup s.name = some v ∧
    ∃ p spec, p.node = n.name ∧ specAt m p = some spec ∧ spec.name = s.podName ∧
      linkAt m p = some (specLink s.intf v)

lemma hosts_of_specs {o : Order} {specs : List Spec} (hm : m.lookup n.name = some specs)
    (h : keysightTopologySpecs o n (.ok status) = .ok specs) : Hosts n status m := by
  obtain ⟨hfrom, hlisted⟩ := keysightTopologySpecs_ok h
  refine ⟨fun p spec e hp hspec he => ?_, fun s hs => ?_⟩
  · unfold linkAt at he
    rw [hspec, Option.bind_some] at he
    unfold specAt at hspec
    rw [hp, hm] at hspec
    exact hfrom spec (List.mem_of_getElem? hspec) e (List.mem_of_getElem? he)
  · obtain ⟨v, hv, spec, hspec, hname, he⟩ := hlisted s hs
    obtain ⟨i, hi⟩ := List.mem_iff_getElem?.mp hspec
    obtain ⟨j, hj⟩ := List.mem_iff_getElem?.mp he
    have hat : specAt m ⟨n.name, i, j⟩ = some spec := by simp [specAt, hm, hi]
    exact ⟨v, hv, ⟨n.name, i, j⟩, spec, rfl, hat, hname, by simp [linkAt, hat, hj]⟩

/-- What `setLinkPeer` finds for an end of a link of the node to itself is the other end, which
is called differently in its pod. -/
lemma resolve_joined (hL : Loaded links iface)
    (hi : ∀ int, iface n.name int = n.interfaces.lookup int) (hA : Assigned links n.name status)
    (hH : Hosts n status m) {p : Pos} (hp : p.node = n.name) {u : ℕ} {s s' : StatusIntf}
    (hs : s ∈ status) (hs' : s' ∈ status) (hj : Joined links n.name u s s') {v : Interface}
    (hv : n.interfaces.lookup s.name = some v) {link : SpecLink}
    (h : resolve m p (specLink s.intf v) = .ok link) :
    s.intf ≠ s'.intf ∧
      link = { specLink s.intf v with peerPod := s'.podName, peerIntf := s'.intf } := by
  obtain ⟨huid, hpeerName⟩ := iface_of_joined hL hi hj hv
  obtain ⟨q, spec, e, hq, hspec, he, hpeer, rfl⟩ := resolve_ok h
  have hqn : q.node = n.name := hq.trans hpeerName
  obtain ⟨r, hr, hpod, w, hw, rfl⟩ := hH.from_status q spec e hqn hspec he
  simp only [isPeer, specLink, hp, hpeerName, decide_true, Bool.true_and, Bool.and_eq_true,
    decide_eq_true_eq, Bool.not_eq_true', decide_eq_false_iff_not] at hpeer
  have hrs : r = s' := by
    refine (eq_of_uid hL hi hA hs hs' hj hr hw (hpeer.1.trans huid)).resolve_left ?_
    rintro rfl
    exact hpeer.2 rfl
  subst hrs
  exact ⟨fun heq => hpeer.2 heq.symm, by rw [hpod]; rfl⟩

lemma exists_resolve_joined (hL : Loaded links iface)
    (hi : ∀ int, iface n.name int = n.interfaces.lookup int)
    (hH : Hosts n status m) {p : Pos} (hp : p.node = n.name) {u : ℕ} {s s' : StatusIntf}
    (hs' : s' ∈ status) (hj : Joined links n.name u s s') {v : Interface}
    (hv : n.interfaces.lookup s.name = some v) (hne : s.intf ≠ s'.intf) :
    ∃ link, resolve m p (specLink s.intf v) = .ok link := by
  obtain ⟨huid, hpeerName⟩ := iface_of_joined hL hi hj hv
  obtain ⟨v', hv', q, spec, hq, -, -, he⟩ := hH.listed s' hs'
  obtain ⟨huid', -⟩ := iface_of_joined hL hi hj.symm hv'
  refine exists_resolve (q := q) (hq.trans hpeerName.symm) he ?_
  simp [isPeer, specLink, huid, huid', hp, hpeerName, hne.symm]

lemma exists_resolve_all (hL : Loaded links iface)
    (hi : ∀ int, iface n.name int = n.interfaces.lookup int) (hA : Assigned links n.name status)
    (hH : Hosts n status m) (hentry : ∀ p, linkAt m p = entryAt nodes p)
    (hO : OthersFound nodes n.name)
    (hne : ∀ s ∈ status, ∀ s' ∈ status, ∀ u, Joined links n.name u s s' → s.intf ≠ s'.intf)
    {p : Pos} {e : SpecLink} (he : linkAt m p = some e) :
    ∃ link, resolve m p e = .ok link := by
  -- an entry of a link of the node to itself, or another one
  by_cases hown : p.node = n.name ∧ e.peerPod = n.name
  · obtain ⟨spec, hspec, -⟩ := Option.bind_eq_some_iff.mp he
    obtain ⟨s, hs, -, v, hv, rfl⟩ := hH.from_status p spec e hown.1 hspec he
    obtain ⟨u, s', hs', hj, -⟩ := joined_of_peerName hL hi hA hs hv hown.2
    exact exists_resolve_joined hL hi hH hown.1 hs' hj hv (hne s hs s' hs' u hj)
  · obtain ⟨r, e', hr, he', hpeer⟩ := hO.peers p e (by rw [← hentry]; exact he) hown
    exact exists_resolve hr (by rw [hentry]; exact he') hpeer

/-- In the specs that are returned each of the two interfaces names the pod and the interface of
the other. -/
def Peered (topos : List Spec) (u : ℕ) (s s' : StatusIntf) : Prop :=
  ∃ spec ∈ topos, ∃ link ∈ spec.links, spec.name = s.podName ∧ link.uid = u ∧
    link.localIntf = s.intf ∧ link.peerPod = s'.podName ∧ link.peerIntf = s'.intf

lemma peered_of_resolved (hL : Loaded links iface)
    (hi : ∀ int, iface n.name int = n.interfaces.lookup int) (hA : Assigned links n.name status)
    (hH : Hosts n status m) {o' : Order} {t : NodeSpecs} {topos : List Spec}
    (hR : Resolved nodes o' m t topos) {u : ℕ} {s s' : StatusIntf} (hs : s ∈ status)
    (hs' : s' ∈ status) (hj : Joined links n.name u s s') : Peered topos u s s' := by
  obtain ⟨v, hv, p, spec, hp, hspec, hname, he⟩ := hH.listed s hs
  obtain ⟨link, hres, hlink⟩ := hR.links p _ he
  obtain ⟨-, rfl⟩ := resolve_joined hL hi hA hH hp hs hs' hj hv hres
  -- the pod keeps its name
  have hview := view_name hR.view p
  rw [hspec] at hview
  obtain ⟨spec', hspec', hname'⟩ := Option.map_eq_some_iff.mp hview
  obtain ⟨hmem, hmem'⟩ := (mem_topos_iff hR).mpr ⟨p, hspec', hlink⟩
  have huid : v.uid = u := (iface_of_joined hL hi hj hv).1
  exact ⟨spec', hmem, _, hmem', hname'.trans hname, huid, rfl, rfl, rfl⟩

/-- **Links of a node to itself.** Over a loaded topology in which the rest is in order, for a
node of several pods, whatever pods the operator gives its ports and whatever it calls the ports
there: `topologySpecs` succeeds and joins the two ends of every link of the node to itself just
when no two ends of such a link are called the same in their pods. -/
theorem loops_resolved_iff (links : List Link) (iface : String → String → Option Interface)
    (hL : Loaded links iface) (nodes : AList (fun _ : String => Impl)) (hn : Named nodes)
    (n : Node) (hi : ∀ int, iface n.name int = n.interfaces.lookup int) (o : Order)
    (status : List StatusIntf) (hA : Assigned links n.name status) (impl : Impl)
    (himpl : nodes.lookup n.name = some impl)
    (hspecs : impl.topologySpecs = keysightTopologySpecs o n (.ok status))
    (hO : OthersFound nodes n.name) (q q' : Order) :
    (∃ topos, topologySpecs q q' nodes = .ok topos ∧ ∀ s ∈ status, ∀ s' ∈ status, ∀ u,
        Joined links n.name u s s' → Peered topos u s s') ↔
      ∀ s ∈ status, ∀ s' ∈ status, ∀ u, Joined links n.name u s s' → s.intf ≠ s'.intf := by
  obtain ⟨specs, hok⟩ := hO.specs n.name impl himpl
  have hlook : specsOf nodes n.name = some specs := by
    simp [specsOf, himpl, hok, Except.toOption]
  rw [hok] at hspecs
  constructor
  · rintro ⟨topos, ht, -⟩ s hs s' hs' u hj
    obtain ⟨m, t, hR⟩ := topologySpecs_ok hn ht
    have hH := hosts_of_specs (by rw [hR.specs]; exact hlook) hspecs.symm
    obtain ⟨v, hv, p, spec, hp, -, -, he⟩ := hH.listed s hs
    obtain ⟨link, hres, -⟩ := hR.links p _ he
    exact (resolve_joined hL hi hA hH hp hs hs' hj hv hres).1
  · intro hne
    have hks : ∀ k ∈ q.keys nodes.keys, ∀ impl, nodes.lookup k = some impl →
        ∃ specs, impl.topologySpecs = .ok specs := fun k _ => hO.specs k
    obtain ⟨m, hc⟩ := exists_foldlM_fetch hks ∅
    have hm := (collect_ok hn (o := q) hc).2
    have hH := hosts_of_specs (by rw [hm]; exact hlook) hspecs.symm
    have hentry : ∀ p, linkAt m p = entryAt nodes p := fun p => by
      rw [linkAt, specAt, entryAt, hm]
    have hall : ∀ p ∈ positions m (q'.keys m.keys), ∀ e, linkAt m p = some e →
        ∃ link, resolve m p e = .ok link :=
      fun p _ e he => exists_resolve_all hL hi hA hH hentry hO hne he
    obtain ⟨t, hs⟩ := Sweep.Pass.exists_sweep (P := pass) (nodup_positions m (q'.nodup_keys m)) hall
    have ht := topologySpecs_eq_ok.mpr ⟨m, t, hc, hs, rfl⟩
    refine ⟨_, ht, fun s hs s' hs' u hj => ?_⟩
    obtain ⟨m', t', hR⟩ := topologySpecs_ok hn ht
    have hH' := hosts_of_specs (by rw [hR.specs]; exact hlook) hspecs.symm
    exact peered_of_resolved hL hi hA hH' hR hs hs' hj

/-! ### A traffic generator with a pod per port -/

/-- A world in which the operator answers with this status. -/
def operator (status : List StatusIntf) : World where
  order := keptOrder
  pidMax _ := none
  new _ n := .ok {
    proto := n
    backToBackLoop := true
    topologySpecs := keysightTopologySpecs keptOrder n (.ok status) }

/-- Two ports of a traffic generator, linked to each other. -/
def portLoop : Topology where
  nodes := [{ name := "ate", vendor := .keysight }]
  links := [⟨"ate", "eth1", "ate", "eth2"⟩]

/-- The traffic generator, with its interfaces as `load` leaves them. -/
def ate : Node where
  name := "ate"
  vendor := .keysight
  interfaces := ((∅ : AList fun _ : String => Interface).insert "eth1"
    { intName := "eth1", peerName := "ate", peerIntName := "eth2" }).insert "eth2"
    { intName := "eth2", peerName := "ate", peerIntName := "eth1" }

def ateNodes (status : List StatusIntf) : AList (fun _ : String => Impl) :=
  (∅ : AList fun _ : String => Impl).insert "ate"
    { proto := ate
      backToBackLoop := true
      topologySpecs := keysightTopologySpecs keptOrder ate (.ok status) }

/-- A pod per port, and in each pod the port is called `eth1`. -/
def podPerPort : List StatusIntf :=
  [⟨"eth1", "ate-port-eth1", "eth1"⟩, ⟨"eth2", "ate-port-eth2", "eth1"⟩]

/-- A pod per port, and the ports keep their names. -/
def ownNames : List StatusIntf :=
  [⟨"eth1", "ate-port-eth1", "eth1"⟩, ⟨"eth2", "ate-port-eth2", "eth2"⟩]

theorem same_name_not_resolved :
    load (operator podPerPort) portLoop = .ok (ateNodes podPerPort) ∧
      (podPerPort.map fun s => (s.podName, s.intf)).Nodup ∧
      topologySpecs keptOrder keptOrder (ateNodes podPerPort) =
        .error (.noPeer "ate" "ate-port-eth2" 0) :=
  ⟨rfl, by decide, rfl⟩

lemma lookup_ateNodes {status : List StatusIntf} {k : String} {impl : Impl}
    (hk : (ateNodes status).lookup k = some impl) : k = "ate" ∧ impl.proto = ate ∧
      impl.topologySpecs = keysightTopologySpecs keptOrder ate (.ok status) := by
  by_cases hname : k = "ate"
  · subst hname
    rw [ateNodes, AList.lookup_insert] at hk
    cases hk
    exact ⟨rfl, rfl, rfl⟩
  · rw [ateNodes, AList.lookup_insert_ne hname] at hk
    simp at hk

lemma ateNodes_named (status : List StatusIntf) : Named (ateNodes status) := by
  intro k impl hk
  obtain ⟨rfl, hproto, -⟩ := lookup_ateNodes hk
  rw [hproto]
  rfl

lemma portLoop_assigned : Assigned portLoop.links "ate" ownNames := by
  refine ⟨by decide, ?_, ?_⟩
  · intro l hl int peer hend
    rw [List.mem_singleton.mp hl] at hend
    rcases hend with ⟨-, rfl, -⟩ | ⟨-, rfl, -⟩ <;> decide
  · intro s hs
    refine ⟨_, List.mem_singleton_self _, "ate", ?_⟩
    revert s
    decide

lemma ateNodes_othersFound : OthersFound (ateNodes ownNames) "ate" := by
  refine ⟨fun k impl hk => ?_, fun p e he hnot => ?_⟩
  · rw [(lookup_ateNodes hk).2.2]
    exact ⟨_, rfl⟩
  · have hmem := entry_mem (o := keptOrder) (ateNodes_named ownNames) rfl he
    have hall : ∀ p ∈ [(⟨"ate", 0, 0⟩ : Pos), ⟨"ate", 1, 0⟩], p.node = "ate" ∧
        ((entryAt (ateNodes ownNames) p).map SpecLink.peerPod) = some "ate" := by decide
    obtain ⟨hnode, hpeer⟩ := hall p hmem
    rw [he] at hpeer
    exact absurd ⟨hnode, Option.some.inj hpeer⟩ hnot

theorem ownNames_resolved :
    ∃ topos, topologySpecs keptOrder keptOrder (ateNodes ownNames) = .ok topos ∧
      ∀ s ∈ ownNames, ∀ s' ∈ ownNames, ∀ u, Joined portLoop.links "ate" u s s' →
        Peered topos u s s' := by
  obtain ⟨ns, hns⟩ : ∃ ns, wire portLoop = .ok ns := ⟨_, rfl⟩
  refine (loops_resolved_iff portLoop.links (ifaceOf portLoop ns)
    (loaded_of_wire (by decide) hns) (ateNodes ownNames) (ateNodes_named ownNames) ate ?_ keptOrder
    ownNames portLoop_assigned _ rfl rfl ateNodes_othersFound keptOrder keptOrder).mpr ?_
  · cases hns
    exact fun _ => rfl
  · rintro s hs s' hs' u ⟨l, hl, hopp⟩
    rw [List.mem_singleton.mp (List.mem_of_getElem? hl)] at hopp
    revert s s'
    unfold SpecsPeers.Opposite
    decide

end Kne.SpecsPods
