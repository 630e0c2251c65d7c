import Kne.SpecsPeers
import Kne.TopoNodes

/-!
From the links of a topology to meshnet, for nodes that use `Impl.TopologySpecs`. `GetNodeLinks`
leaves out the interface `eth0` of a node, on each side of a link by itself; a link with one such
end is noticed when the peer of the other is looked for, and a link with two is not noticed.
-/

namespace Kne.SpecsLinks

open Kne.Checked Kne.TopoModel Kne.TopoWiring Kne.TopoEnds Kne.TopoNodes Kne.SpecsModel
  Kne.SpecsOrder Kne.SpecsPeers

/-! ### The links of a node -/

/-- The entry of an interface. -/
def specLink (k : String) (v : Interface) : SpecLink where
  uid := v.uid
  localIntf := k
  peerIntf := v.peerIntName
  peerPod := v.peerName
  mtu := v.mtu

def entryOf (n : Node) (k : String) : Option SpecLink :=
  if k = "eth0" then none else (n.interfaces.lookup k).map (specLink k)

lemma nodeLink_ok {k : String} {v : Interface} {r : Option SpecLink} (h : nodeLink k v = .ok r) :
    r = (if k = "eth0" then none else some (specLink k v)) ∧ (k ≠ "eth0" → v.peerName ≠ "") := by
  unfold nodeLink at h
  split_ifs at h with h1 h2 h3
  · cases h
    exact ⟨by simp [h1], fun h => absurd h1 h⟩
  · cases h
    exact ⟨by simp [h1, specLink], fun _ => h3⟩

lemma addNodeLink_ok {n : Node} {k : String} {acc links : List SpecLink}
    (h : addNodeLink n acc k = .ok links) :
    links = acc ++ (entryOf n k).toList ∧
      ∀ v, n.interfaces.lookup k = some v → k ≠ "eth0" → v.peerName ≠ "" := by
  unfold addNodeLink at h
  cases hk : n.interfaces.lookup k with
  | none =>
    rw [hk] at h
    cases h
    exact ⟨by simp [entryOf, hk], by simp⟩
  | some v =>
    simp only [hk, map_ok_iff] at h
    obtain ⟨r, hr, rfl⟩ := h
    obtain ⟨hr1, hr2⟩ := nodeLink_ok hr
    have he : entryOf n k = r := by
      rw [hr1, entryOf, hk]
      rfl
    refine ⟨by rw [he], fun v' hv' => ?_⟩
    cases hv'
    exact hr2

lemma foldlM_addNodeLink {n : Node} {ks : List String} {acc links : List SpecLink}
    (h : ks.foldlM (addNodeLink n) acc = .ok links) :
    links = acc ++ ks.filterMap (entryOf n) ∧
      ∀ k ∈ ks, ∀ v, n.interfaces.lookup k = some v → k ≠ "eth0" → v.peerName ≠ "" := by
  induction ks generalizing acc with
  | nil =>
    cases h
    exact ⟨by simp, by simp⟩
  | cons k ks ih =>
    obtain ⟨acc1, hk, hrest⟩ := foldlM_cons_ok_iff.mp h
    obtain ⟨rfl, hpeer⟩ := addNodeLink_ok hk
    obtain ⟨rfl, hpeers⟩ := ih hrest
    refine ⟨?_, List.forall_mem_cons.mpr ⟨hpeer, hpeers⟩⟩
    cases he : entryOf n k with
    | none => simp [he]
    | some e => simp [he]

lemma localIntf_filterMap (n : Node) (ks : List String) :
    (ks.filterMap (entryOf n)).map SpecLink.localIntf =
      ks.filter fun k => (entryOf n k).isSome := by
  induction ks with
  | nil => rfl
  | cons k ks ih =>
    cases hk : entryOf n k with
    | none => simp [hk, ih]
    | some e =>
      have : e.localIntf = k := by
        unfold entryOf at hk
        split_ifs at hk
        obtain ⟨v, -, rfl⟩ := Option.map_eq_some_iff.mp hk
        rfl
      simp [hk, ih, this]

lemma getNodeLinks_ok {o : Order} {n : Node} {links : List SpecLink}
    (h : getNodeLinks o n = .ok links) :
    (∀ e, e ∈ links ↔ ∃ k v, n.interfaces.lookup k = some v ∧ k ≠ "eth0" ∧ e = specLink k v) ∧
      (links.map SpecLink.localIntf).Nodup ∧
      ∀ k v, n.interfaces.lookup k = some v → k ≠ "eth0" → v.peerName ≠ "" := by
  obtain ⟨hlinks, hpeer⟩ := foldlM_addNodeLink h
  rw [List.nil_append] at hlinks
  subst hlinks
  have hmem : ∀ k v, n.interfaces.lookup k = some v → k ∈ o.keys n.interfaces.keys :=
    fun k v hk => o.mem_keys_of_lookup hk
  refine ⟨fun e => ?_, ?_, fun k v hk => hpeer k (hmem k v hk) v hk⟩
  · rw [List.mem_filterMap]
    constructor
    · rintro ⟨k, -, hk⟩
      unfold entryOf at hk
      split_ifs at hk with h0
      obtain ⟨v, hv, rfl⟩ := Option.map_eq_some_iff.mp hk
      exact ⟨k, v, hv, h0, rfl⟩
    · rintro ⟨k, v, hk, h0, rfl⟩
      exact ⟨k, hmem k v hk, by simp [entryOf, h0, hk]⟩
  · rw [localIntf_filterMap]
    refine List.Nodup.filter _ ?_
    exact o.nodup_keys n.interfaces

/-! ### The entries of a loaded topology -/

/-- The constructors keep names and interfaces and use `Impl.TopologySpecs`, and a node without a
name has no links to itself. -/
structure UsesImpl (w : World) : Prop where
  keeps : ∀ topo n impl, w.new topo n = .ok impl →
    impl.proto.name = n.name ∧ impl.proto.interfaces = n.interfaces
  specs : ∀ topo n impl, w.new topo n = .ok impl →
    ∃ o, impl.topologySpecs = implTopologySpecs o impl.proto
  loop : ∀ topo n impl, w.new topo n = .ok impl → n.name = "" → impl.backToBackLoop = false

/-- The interface has an entry with this uid and this peer. -/
def Entry (t : Topology) (ns : List Node) (node int : String) (u : ℤ) (peer : String) : Prop :=
  ∃ v, ifaceOf t ns node int = some v ∧ int ≠ "eth0" ∧ v.uid = u ∧ v.peerName = peer

variable {w : World} {t : Topology} {ns : List Node} {nodes : AList (fun _ : String => Impl)}

lemma named_of_load (hw : UsesImpl w) (hl : LoadOk w t ns nodes) : Named nodes := by
  intro k impl hk
  obtain ⟨n, -, hname, hnew⟩ := hl.made k impl hk
  exact ((hw.keeps _ n impl hnew).1).trans hname

lemma ifaceOf_eq {k : String} {n : Node} (hn : nodeOf (places t) ns k = some n) (int : String) :
    ifaceOf t ns k int = n.interfaces.lookup int := by
  obtain ⟨i, hi, hget⟩ := Option.bind_eq_some_iff.mp hn
  simp [ifaceOf, hi, ifaceAt, hget]

lemma specs_of_node (hw : UsesImpl w) (hl : LoadOk w t ns nodes) {k : String} {specs : List Spec}
    (h : specsOf nodes k = some specs) :
    ∃ links, specs = [⟨k, links⟩] ∧
      (∀ e, e ∈ links ↔ ∃ int v, ifaceOf t ns k int = some v ∧ int ≠ "eth0" ∧
        e = specLink int v) ∧
      (links.map SpecLink.localIntf).Nodup ∧
      ∀ int u peer, Entry t ns k int u peer → peer ≠ "" := by
  obtain ⟨impl, himpl, hspecs⟩ := Option.bind_eq_some_iff.mp h
  obtain ⟨n, hn, hname, hnew⟩ := hl.made k impl himpl
  obtain ⟨hpn, hpi⟩ := hw.keeps _ n impl hnew
  obtain ⟨o, ho⟩ := hw.specs _ n impl hnew
  rw [ho] at hspecs
  obtain ⟨links, hg, rfl⟩ := map_ok_iff.mp (toOption_eq_some.mp hspecs)
  obtain ⟨hmem, hnd, hpeer⟩ := getNodeLinks_ok hg
  rw [hpi] at hmem hpeer
  refine ⟨links, by rw [hpn, hname], fun e => ?_, hnd, ?_⟩
  · rw [hmem]
    simp only [ifaceOf_eq hn]
  · rintro int u peer ⟨v, hv, h0, -, rfl⟩
    rw [ifaceOf_eq hn] at hv
    exact hpeer int v hv h0

/-- The entries of a uid, by pod and interface. -/
def entriesOf (topos : List Spec) (u : ℤ) : List (String × String) :=
  topos.flatMap fun s => (s.links.filter fun l => l.uid = u).map fun l => (s.name, l.localIntf)

lemma entriesOf_eq_skel (specs : List Spec) (u : ℤ) :
    entriesOf specs u = (skel specs).flatMap fun s =>
      (s.2.filter fun e => e.1 = u).map fun e => (s.1, e.2) := by
  simp only [entriesOf, skel, List.flatMap_map, List.filter_map, List.map_map, Function.comp_def]

lemma entriesOf_resolved {o' : Order} {m t' : NodeSpecs} {topos : List Spec}
    (h : Resolved nodes o' m t' topos) (u : ℤ) :
    entriesOf topos u =
      (o'.keys m.keys).flatMap fun n => entriesOf ((m.lookup n).getD []) u := by
  have hview : ∀ n, entriesOf ((t'.lookup n).getD []) u = entriesOf ((m.lookup n).getD []) u := by
    intro n
    rcases view_cases h.view n with ⟨h1, h2⟩ | ⟨specs, specs', h1, h2, hs⟩
    · rw [h1, h2]
    · rw [h1, h2, Option.getD_some, Option.getD_some, entriesOf_eq_skel, entriesOf_eq_skel, hs]
  rw [h.topos, entriesOf, List.flatMap_assoc]
  exact congrArg (fun f => List.flatMap f (o'.keys m.keys)) (funext hview)

/-- What `load` and `topologySpecs` leave of the interfaces: the entries are those of the
interfaces with a peer, and each has found another entry at the node of its peer. -/
structure Realised (t : Topology) (ns : List Node) (topos : List Spec) : Prop where
  named : ∀ node int u peer, Entry t ns node int u peer → peer ≠ ""
  peer : ∀ node int u peer, Entry t ns node int u peer →
    ∃ int' peer', Entry t ns peer int' u peer' ∧ ¬ (node = peer ∧ int' = int)
  nodup : ∀ u, (entriesOf topos u).Nodup
  mem : ∀ u node int, (node, int) ∈ entriesOf topos u ↔ ∃ peer, Entry t ns node int u peer

lemma linkAt_iff (hw : UsesImpl w) (hl : LoadOk w t ns nodes) {o' : Order} {m t' : NodeSpecs}
    {topos : List Spec} (hr : Resolved nodes o' m t' topos) {node : String} {e : SpecLink} :
    (∃ p, p.node = node ∧ linkAt m p = some e) ↔ ∃ specs int v, m.lookup node = some specs ∧
      ifaceOf t ns node int = some v ∧ int ≠ "eth0" ∧ e = specLink int v := by
  constructor
  · rintro ⟨p, rfl, hp⟩
    obtain ⟨spec, hspec, he⟩ := Option.bind_eq_some_iff.mp hp
    obtain ⟨specs, hspecs, hget⟩ := Option.bind_eq_some_iff.mp hspec
    obtain ⟨links, rfl, hmem, -⟩ := specs_of_node hw hl ((hr.specs p.node).symm.trans hspecs)
    have hs : spec = ⟨p.node, links⟩ := List.mem_singleton.mp (List.mem_of_getElem? hget)
    subst hs
    obtain ⟨int, v, h⟩ := (hmem e).mp (List.mem_of_getElem? he)
    exact ⟨_, int, v, hspecs, h⟩
  · rintro ⟨specs, int, v, hspecs, h⟩
    obtain ⟨links, rfl, hmem, -⟩ := specs_of_node hw hl ((hr.specs node).symm.trans hspecs)
    obtain ⟨j, hj⟩ := List.mem_iff_getElem?.mp ((hmem e).mpr ⟨int, v, h⟩)
    exact ⟨⟨node, 0, j⟩, rfl, by simp [linkAt, specAt, hspecs, hj]⟩

lemma exists_specs (hw : UsesImpl w) (hl : LoadOk w t ns nodes) {o o' : Order}
    {topos : List Spec} (h : topologySpecs o o' nodes = .ok topos) {node int : String}
    {v : Interface} (hv : ifaceOf t ns node int = some v) :
    ∃ specs, specsOf nodes node = some specs := by
  obtain ⟨m, t', hc, -⟩ := topologySpecs_eq_ok.mp h
  obtain ⟨i, hi, -⟩ := Option.bind_eq_some_iff.mp hv
  obtain ⟨impl, himpl⟩ := hl.all node i hi
  obtain ⟨specs, hs⟩ := (collect_ok (named_of_load hw hl) hc).1 node impl himpl
  exact ⟨specs, by simp [specsOf, himpl, hs, Except.toOption]⟩

lemma entriesOf_node (hw : UsesImpl w) (hl : LoadOk w t ns nodes) {node : String}
    {specs : List Spec} (h : specsOf nodes node = some specs) (u : ℤ) :
    (entriesOf specs u).Nodup ∧ ∀ p, p ∈ entriesOf specs u ↔
      p.1 = node ∧ ∃ peer, Entry t ns node p.2 u peer := by
  obtain ⟨links, rfl, hmem, hnd, -⟩ := specs_of_node hw hl h
  simp only [entriesOf, List.flatMap_cons, List.flatMap_nil, List.append_nil]
  constructor
  · have hnd' : ((links.filter fun l => l.uid = u).map SpecLink.localIntf).Nodup :=
      hnd.sublist (List.filter_sublist.map _)
    have := hnd'.map (f := fun int => (node, int)) fun a b hab => congrArg Prod.snd hab
    simpa [List.map_map, Function.comp_def] using this
  · rintro ⟨node', int⟩
    simp only [List.mem_map, List.mem_filter, decide_eq_true_eq, Prod.mk.injEq]
    constructor
    · rintro ⟨e, ⟨he, rfl⟩, rfl, rfl⟩
      obtain ⟨int, v, hv, h0, rfl⟩ := (hmem e).mp he
      exact ⟨rfl, v.peerName, v, hv, h0, rfl, rfl⟩
    · rintro ⟨rfl, peer, v, hv, h0, rfl, rfl⟩
      exact ⟨specLink int v, ⟨(hmem _).mpr ⟨int, v, hv, h0, rfl⟩, rfl⟩, rfl, rfl⟩

lemma realised_of_ok (hw : UsesImpl w) (hl : LoadOk w t ns nodes) {o o' : Order}
    {topos : List Spec} (h : topologySpecs o o' nodes = .ok topos) : Realised t ns topos := by
  obtain ⟨m, t', hr⟩ := topologySpecs_ok (named_of_load hw hl) h
  have hspecs : ∀ node int u peer, Entry t ns node int u peer →
      ∃ specs, m.lookup node = some specs := by
    rintro node int u peer ⟨v, hv, -⟩
    rw [hr.specs]
    exact exists_specs hw hl h hv
  refine ⟨fun node int u peer he => ?_, fun node int u peer he => ?_, fun u => ?_,
    fun u node int => ?_⟩
  · obtain ⟨specs, hs⟩ := hspecs node int u peer he
    rw [hr.specs] at hs
    obtain ⟨-, -, -, -, hpeer⟩ := specs_of_node hw hl hs
    exact hpeer int u peer he
  · obtain ⟨specs, hs⟩ := hspecs node int u peer he
    obtain ⟨v, hv, h0, rfl, rfl⟩ := he
    obtain ⟨p, rfl, hp⟩ := (linkAt_iff hw hl hr).mpr ⟨specs, int, v, hs, hv, h0, rfl⟩
    obtain ⟨link', hres, -⟩ := hr.links p _ hp
    obtain ⟨q, spec, peerLink, hq, -, hlink, hpeer, -⟩ := resolve_ok hres
    obtain ⟨-, int', v', -, hv', h0', rfl⟩ := (linkAt_iff hw hl hr).mp ⟨q, hq, hlink⟩
    unfold isPeer specLink at hpeer
    simp only [Bool.and_eq_true, Bool.not_eq_true', decide_eq_true_eq, Bool.and_eq_false_iff,
      decide_eq_false_iff_not] at hpeer
    refine ⟨int', v'.peerName, ⟨v', hv', h0', hpeer.1, rfl⟩, ?_⟩
    rintro ⟨h1, h2⟩
    exact hpeer.2.elim (fun hne => hne h1) fun hne => hne h2
  · rw [entriesOf_resolved hr]
    refine List.nodup_flatMap.mpr ⟨fun n hn => ?_, (o'.nodup_keys m).imp_of_mem
      fun {n n'} hn hn' hne => ?_⟩
    · obtain ⟨specs, hs⟩ := (mem_keys_iff o' m n).mp hn
      rw [hs]
      exact (entriesOf_node hw hl ((hr.specs n).symm.trans hs) u).1
    · obtain ⟨specs, hs⟩ := (mem_keys_iff o' m n).mp hn
      obtain ⟨specs', hs'⟩ := (mem_keys_iff o' m n').mp hn'
      rw [Function.onFun, hs, hs']
      intro p hp hp'
      have h1 := ((entriesOf_node hw hl ((hr.specs n).symm.trans hs) u).2 p).mp hp
      have h2 := ((entriesOf_node hw hl ((hr.specs n').symm.trans hs') u).2 p).mp hp'
      exact hne (h1.1.symm.trans h2.1)
  · rw [entriesOf_resolved hr, List.mem_flatMap]
    constructor
    · rintro ⟨n, hn, hmem⟩
      obtain ⟨specs, hs⟩ := (mem_keys_iff o' m n).mp hn
      rw [hs] at hmem
      obtain ⟨rfl, he⟩ :=
        ((entriesOf_node hw hl ((hr.specs n).symm.trans hs) u).2 (node, int)).mp hmem
      exact he
    · rintro ⟨peer, he⟩
      obtain ⟨specs, hs⟩ := hspecs node int u peer he
      refine ⟨node, (mem_keys_iff o' m node).mpr ⟨specs, hs⟩, ?_⟩
      rw [hs]
      exact ((entriesOf_node hw hl ((hr.specs node).symm.trans hs) u).2 (node, int)).mpr
        ⟨rfl, peer, he⟩

/-! ### The two ends of a link -/

lemma iface_of_end (hwire : wire t = .ok ns) {i : ℕ} {l : Link} (hi : t.links[i]? = some l)
    {node int peer : String} (he : EndAt l node int peer) (hpeer : peer ≠ "") :
    ∃ v, ifaceOf t ns node int = some v ∧ v.uid = i ∧ v.peerName = peer := by
  have hm := names_places t
  obtain ⟨pre, post, hsplit, rfl⟩ := split_getElem? hi
  unfold wire at hwire
  rw [hsplit] at hwire
  obtain ⟨ns1, ns2, -, -, hadd, hm2, hpost⟩ := addLinks_split hm hwire
  obtain ⟨p, hp⟩ : ∃ p, (places t).lookup node = some p := by
    obtain ⟨a, z, ha, hz, -⟩ := hadd.ends
    rcases he with ⟨rfl, -⟩ | ⟨rfl, -⟩
    · exact ⟨a, ha⟩
    · exact ⟨z, hz⟩
  have hend := (isEnd_iff hm hp l int peer).mpr he
  obtain ⟨int', v, hv, hpn, -, huid⟩ := hadd.holds hend
  refine ⟨v, ?_, by simpa using huid, hpn⟩
  rw [ifaceOf, hp]
  exact (named_end_kept hadd hm2 hpost hend hpeer).2.trans hv

lemma end_of_iface (hp : NoPeers t) (hwire : wire t = .ok ns) {node int : String} {v : Interface}
    (hv : ifaceOf t ns node int = some v) (hpeer : v.peerName ≠ "") :
    ∃ (i : ℕ) (l : Link), v.uid = i ∧ t.links[i]? = some l ∧ EndAt l node int v.peerName := by
  have hm := names_places t
  obtain ⟨p, hplace, hat⟩ := Option.bind_eq_some_iff.mp hv
  have hend : ∃ l ∈ t.links, ∃ peer, IsEnd (places t) l p int peer := by
    by_contra hno
    push Not at hno
    rw [addLinks_rest hm hwire hno] at hat
    exact hpeer (fill_peerName hp hat)
  obtain ⟨j, l, peer, int', hl, hl', v', hv', hpn, -, huid⟩ := last_writer hm hwire hend
  rw [hat] at hv'
  cases hv'
  refine ⟨j, l, by simpa using huid, hl, ?_⟩
  rw [hpn]
  exact (isEnd_iff hm hplace l int peer).mp hl'

lemma Realised.endAt {topos : List Spec} (hr : Realised t ns topos) (hp : NoPeers t)
    (hwire : wire t = .ok ns) {i : ℕ} {l : Link} (hi : t.links[i]? = some l)
    {node int peer : String} (he : Entry t ns node int i peer) : EndAt l node int peer := by
  have hne := hr.named node int i peer he
  obtain ⟨v, hv, -, hu, rfl⟩ := he
  obtain ⟨j, l', huid, hl', hend⟩ := end_of_iface hp hwire hv hne
  have hij : j = i := by
    have : (j : ℤ) = i := huid.symm.trans hu
    exact_mod_cast this
  subst hij
  rw [hi] at hl'
  cases hl'
  exact hend

lemma Realised.other {topos : List Spec} (hr : Realised t ns topos) (hp : NoPeers t)
    (hwire : wire t = .ok ns) {i : ℕ} {l : Link} (hi : t.links[i]? = some l)
    {node int peer : String} (he : Entry t ns node int i peer) :
    l.aInt ≠ "eth0" ∧ l.zInt ≠ "eth0" ∧ (l.aNode, l.aInt) ≠ (l.zNode, l.zInt) ∧
      Entry t ns l.aNode l.aInt i l.zNode ∧ Entry t ns l.zNode l.zInt i l.aNode := by
  obtain ⟨int', peer', he', hne⟩ := hr.peer node int i peer he
  have hend := hr.endAt hp hwire hi he
  have hend' := hr.endAt hp hwire hi he'
  have h0 : int ≠ "eth0" := he.choose_spec.2.1
  have h0' : int' ≠ "eth0" := he'.choose_spec.2.1
  rcases hend with ⟨rfl, rfl, rfl⟩ | ⟨rfl, rfl, rfl⟩ <;>
    rcases hend' with ⟨h1, rfl, rfl⟩ | ⟨h1, rfl, rfl⟩
  · exact absurd ⟨h1.symm, rfl⟩ hne
  · refine ⟨h0, h0', fun hself => hne ?_, he, he'⟩
    rw [Prod.mk.injEq] at hself
    exact ⟨hself.1, hself.2.symm⟩
  · refine ⟨h0', h0, fun hself => hne ?_, he', he⟩
    rw [Prod.mk.injEq] at hself
    exact ⟨hself.1.symm, hself.2⟩
  · exact absurd ⟨h1.symm, rfl⟩ hne

lemma named_end (hw : UsesImpl w) (hl : LoadOk w t ns nodes) {l : Link} (hmem : l ∈ t.links) :
    l.aNode ≠ "" ∨ l.zNode ≠ "" := by
  by_contra hno
  push Not at hno
  have hloop := hl.loop l hmem (hno.1.trans hno.2.symm)
  rw [hno.1] at hloop
  unfold loops at hloop
  cases hn : nodes.lookup "" with
  | none => simp [hn] at hloop
  | some impl =>
    obtain ⟨n, -, hname, hnew⟩ := hl.made "" impl hn
    simp [hn, hw.loop t.name n impl hnew hname] at hloop

/-- **Links and their entries.** When `load` and `topologySpecs` succeed on nodes that use
`Impl.TopologySpecs`, a link has one entry for each of its ends, unless one of its ends is the
management interface `eth0`; then it has none, and between nodes with names both ends are `eth0`.
-/
theorem links_realised (w : World) (hw : UsesImpl w) (t : Topology) (hp : NoPeers t)
    (nodes : AList (fun _ : String => Impl)) (hload : load w t = .ok nodes) (o o' : Order)
    (topos : List Spec) (h : topologySpecs o o' nodes = .ok topos) (i : ℕ) (l : Link)
    (hi : t.links[i]? = some l) :
    (l.aInt ≠ "eth0" ∧ l.zInt ≠ "eth0" →
      (entriesOf topos i).Perm [(l.aNode, l.aInt), (l.zNode, l.zInt)]) ∧
    (l.aInt = "eth0" ∨ l.zInt = "eth0" → entriesOf topos i = []) ∧
    (l.aNode ≠ "" ∧ l.zNode ≠ "" → (l.aInt = "eth0" ↔ l.zInt = "eth0")) := by
  obtain ⟨ns, hl⟩ := load_ok hload
  have hr := realised_of_ok hw hl h
  have hother : ∀ node int peer, Entry t ns node int i peer → _ :=
    fun _ _ _ he => hr.other hp hl.wired hi he
  have hentry : ∀ node int peer, EndAt l node int peer → peer ≠ "" → int ≠ "eth0" →
      Entry t ns node int i peer := by
    intro node int peer he hpeer h0
    obtain ⟨v, hv, huid, hpn⟩ := iface_of_end hl.wired hi he hpeer
    exact ⟨v, hv, h0, huid, hpn⟩
  refine ⟨fun hne => ?_, fun h0 => ?_, fun hnames => ?_⟩
  · -- one end has a peer with a name, and its entry has found the other
    have hsome : ∃ node int peer, Entry t ns node int i peer := by
      rcases named_end hw hl (List.mem_of_getElem? hi) with ha | hz
      · exact ⟨_, _, _, hentry l.zNode l.zInt l.aNode (Or.inr ⟨rfl, rfl, rfl⟩) ha hne.2⟩
      · exact ⟨_, _, _, hentry l.aNode l.aInt l.zNode (Or.inl ⟨rfl, rfl, rfl⟩) hz hne.1⟩
    obtain ⟨node, int, peer, he⟩ := hsome
    obtain ⟨-, -, hends, ha, hz⟩ := hother _ _ _ he
    refine (List.perm_ext_iff_of_nodup (hr.nodup i) (by simpa using hends)).mpr ?_
    rintro ⟨node', int'⟩
    rw [hr.mem, mem_ends_iff]
    constructor
    · rintro ⟨peer', he'⟩
      exact ⟨peer', hr.endAt hp hl.wired hi he'⟩
    · rintro ⟨peer', ⟨rfl, rfl, rfl⟩ | ⟨rfl, rfl, rfl⟩⟩
      · exact ⟨_, ha⟩
      · exact ⟨_, hz⟩
  · refine List.eq_nil_iff_forall_not_mem.mpr fun ⟨node, int⟩ hmem => ?_
    obtain ⟨peer, he⟩ := (hr.mem i node int).mp hmem
    obtain ⟨ha, hz, -⟩ := hother _ _ _ he
    exact h0.elim ha hz
  · constructor
    · intro ha
      by_contra hz
      have hside := hentry l.zNode l.zInt l.aNode (Or.inr ⟨rfl, rfl, rfl⟩) hnames.1 hz
      exact (hother _ _ _ hside).1 ha
    · intro hz
      by_contra ha
      have hside := hentry l.aNode l.aInt l.zNode (Or.inl ⟨rfl, rfl, rfl⟩) hnames.2 ha
      exact (hother _ _ _ hside).2.1 hz

/-- A world whose nodes use `Impl` throughout. -/
def plain : World where
  order := keptOrder
  pidMax _ := none
  new _ n := .ok
    { proto := n, backToBackLoop := false, topologySpecs := implTopologySpecs keptOrder n }

lemma plain_usesImpl : UsesImpl plain where
  keeps _ n impl h := by cases h; exact ⟨rfl, rfl⟩
  specs _ n impl h := by cases h; exact ⟨keptOrder, rfl⟩
  loop _ n impl h _ := by cases h; rfl

/-- Two nodes joined at a data interface and at the management interface. -/
def mgmtLink : Topology where
  nodes := [{ name := "r1" }, { name := "r2" }]
  links := [⟨"r1", "eth1", "r2", "eth2"⟩, ⟨"r1", "eth0", "r2", "eth0"⟩]

theorem mgmtLink_realised :
    ∃ nodes topos, load plain mgmtLink = .ok nodes ∧
      topologySpecs keptOrder keptOrder nodes = .ok topos ∧
      (entriesOf topos 0).Perm [("r1", "eth1"), ("r2", "eth2")] ∧ entriesOf topos 1 = [] := by
  refine ⟨_, _, rfl, rfl, ?_, ?_⟩
  · exact (links_realised plain plain_usesImpl mgmtLink (by decide) _ rfl keptOrder keptOrder _ rfl
      0 ⟨"r1", "eth1", "r2", "eth2"⟩ rfl).1 (by decide)
  · exact (links_realised plain plain_usesImpl mgmtLink (by decide) _ rfl keptOrder keptOrder _ rfl
      1 ⟨"r1", "eth0", "r2", "eth0"⟩ rfl).2.1 (by decide)

/-- **A link between management interfaces is left out.** Both functions succeed, and the link has
no entry. -/
theorem mgmt_link_dropped :
    ¬ ∀ w, UsesImpl w → ∀ t nodes o o' topos, load w t = .ok nodes →
      topologySpecs o o' nodes = .ok topos → ∀ (i : ℕ) (l : Link), t.links[i]? = some l →
      (entriesOf topos i).length = 2 := by
  intro hall
  have h := hall plain plain_usesImpl mgmtLink _ keptOrder keptOrder _ rfl rfl 1
    ⟨"r1", "eth0", "r2", "eth0"⟩ rfl
  exact absurd h (by decide)

end Kne.SpecsLinks
