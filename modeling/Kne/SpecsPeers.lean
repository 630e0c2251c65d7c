import Kne.SpecsOrder
import Kne.TopoEnds

/-!
Peers of links. In a loaded topology the uid of a link is held by its two ends; when every end
appears at most once in the specs of its node, the entry that `setLinkPeer` finds for one end is
the entry of the other, and the two name each other afterwards.
-/

namespace Kne.SpecsPeers

open Kne.TopoModel Kne.TopoWiring Kne.TopoEnds Kne.SpecsModel Kne.SpecsOrder

/-- The ends of every link hold each other and the uid of the link. -/
def Loaded (links : List Link) (iface : String → String → Option Interface) : Prop :=
  ∀ (i : ℕ) (l : Link), links[i]? = some l →
    (∃ v, iface l.aNode l.aInt = some v ∧
      v.peerName = l.zNode ∧ v.peerIntName = l.zInt ∧ v.uid = i) ∧
    ∃ v, iface l.zNode l.zInt = some v ∧
      v.peerName = l.aNode ∧ v.peerIntName = l.aInt ∧ v.uid = i

/-- The interfaces of a topology after the loop over its links. -/
def ifaceOf (t : Topology) (ns : List Node) (node int : String) : Option Interface :=
  ((places t).lookup node).bind fun i => ifaceAt ns i int

lemma loaded_of_wire {t : Topology} (hnames : ∀ n ∈ t.nodes, n.name ≠ "") {ns : List Node}
    (h : wire t = .ok ns) : Loaded t.links (ifaceOf t ns) := by
  intro i l hl
  obtain ⟨a, z, ha, hz, ⟨v, hv, hva⟩, ⟨w, hw, hwz⟩⟩ := link_wired hnames h hl
  exact ⟨⟨v, by simp [ifaceOf, ha, hv], hva⟩, ⟨w, by simp [ifaceOf, hz, hw], hwz⟩⟩

/-- The entry the nodes give at a position. -/
def entryAt (nodes : AList (fun _ : String => Impl)) (p : Pos) : Option SpecLink :=
  ((specsOf nodes p.node).bind (·[p.spec]?)).bind (·.links[p.link]?)

/-- The entries of a node are those of its interfaces at links, spread over its pods in any way:
`port` says which interface an entry is for, and no two entries are for the same one. The name of
the interface in the pod is free. -/
structure Family (links : List Link) (iface : String → String → Option Interface)
    (nodes : AList (fun _ : String => Impl)) (port : Pos → String) : Prop where
  isEnd : ∀ p e, entryAt nodes p = some e → ∃ l ∈ links, ∃ peer, EndAt l p.node (port p) peer
  entry : ∀ p e, entryAt nodes p = some e → ∀ v, iface p.node (port p) = some v →
    e.uid = v.uid ∧ e.peerPod = v.peerName ∧ e.peerIntf = v.peerIntName
  once : ∀ p q e e', entryAt nodes p = some e → entryAt nodes q = some e' →
    p.node = q.node → port p = port q → p = q

variable {links : List Link} {iface : String → String → Option Interface}
  {nodes : AList (fun _ : String => Impl)} {port : Pos → String}

lemma loaded_end (hL : Loaded links iface) {i : ℕ} {l : Link} (hl : links[i]? = some l)
    {node int peer : String} (he : EndAt l node int peer) :
    ∃ v, iface node int = some v ∧ v.peerName = peer ∧ v.uid = i := by
  obtain ⟨⟨v, hv, hva, -, hvu⟩, ⟨w, hw, hwz, -, hwu⟩⟩ := hL i l hl
  rcases he with ⟨rfl, rfl, rfl⟩ | ⟨rfl, rfl, rfl⟩
  · exact ⟨v, hv, hva, hvu⟩
  · exact ⟨w, hw, hwz, hwu⟩

lemma entry_end (hL : Loaded links iface) (hF : Family links iface nodes port) {p : Pos}
    {e : SpecLink} (h : entryAt nodes p = some e) :
    ∃ (u : ℕ) (l : Link), links[u]? = some l ∧ e.uid = u ∧ EndAt l p.node (port p) e.peerPod := by
  obtain ⟨l, hl, peer, hend⟩ := hF.isEnd p e h
  obtain ⟨u, hu⟩ := List.mem_iff_getElem?.mp hl
  obtain ⟨v, hv, hpeer, huid⟩ := loaded_end hL hu hend
  obtain ⟨h1, h2, -⟩ := hF.entry p e h v hv
  refine ⟨u, l, hu, h1.trans huid, ?_⟩
  rw [h2, hpeer]
  exact hend

/-- The two ends of a link, in either order. -/
def Opposite (l : Link) (p q : String × String) : Prop :=
  p = (l.aNode, l.aInt) ∧ q = (l.zNode, l.zInt) ∨ p = (l.zNode, l.zInt) ∧ q = (l.aNode, l.aInt)

lemma Opposite.unique {l : Link} {p q r : String × String} (h : Opposite l p q)
    (h' : Opposite l q r) : r = p := by
  rcases h with ⟨rfl, rfl⟩ | ⟨rfl, rfl⟩ <;> rcases h' with ⟨h1, rfl⟩ | ⟨h1, rfl⟩
  · exact h1
  · rfl
  · rfl
  · exact h1

lemma opposite_of_isPeer (hL : Loaded links iface) (hF : Family links iface nodes port)
    {p q : Pos} {e e' : SpecLink} (hp : entryAt nodes p = some e) (hq : entryAt nodes q = some e')
    (hnode : q.node = e.peerPod) (hpeer : isPeer p.node e e' = true) :
    e'.peerPod = p.node ∧ e'.uid = e.uid ∧ ∃ (u : ℕ) (l : Link), links[u]? = some l ∧ e.uid = u ∧
      Opposite l (p.node, port p) (q.node, port q) := by
  obtain ⟨u, l, hu, heu, hend⟩ := entry_end hL hF hp
  obtain ⟨u', l', hu', heu', hend'⟩ := entry_end hL hF hq
  simp only [isPeer, Bool.and_eq_true, decide_eq_true_eq, Bool.not_eq_true',
    Bool.and_eq_false_iff, decide_eq_false_iff_not] at hpeer
  obtain ⟨huid, hself⟩ := hpeer
  -- the uids agree, so the link is the same
  have huu : u' = u := by
    have : (u' : ℤ) = u := by rw [← heu', huid, heu]
    exact_mod_cast this
  rw [huu, hu] at hu'
  cases hu'
  -- and the end is not the same one, which `isPeer` leaves out
  have hne : ¬ (p.node = q.node ∧ port p = port q) := by
    rintro ⟨h1, h2⟩
    have hpq := hF.once p q e e' hp hq h1 h2
    subst hpq
    rw [hp] at hq
    cases hq
    rcases hself with h | h
    · exact h hnode
    · exact h rfl
  rw [← hnode] at hend
  rcases hend with ⟨h1, h2, h3⟩ | ⟨h1, h2, h3⟩ <;> rcases hend' with ⟨g1, g2, g3⟩ | ⟨g1, g2, g3⟩
  · exact absurd ⟨h1.trans g1.symm, h2.trans g2.symm⟩ hne
  · exact ⟨g3.trans h1.symm, huid, u, l, hu, heu,
      Or.inl ⟨Prod.ext h1 h2, Prod.ext g1 g2⟩⟩
  · exact ⟨g3.trans h1.symm, huid, u, l, hu, heu,
      Or.inr ⟨Prod.ext h1 h2, Prod.ext g1 g2⟩⟩
  · exact absurd ⟨h1.trans g1.symm, h2.trans g2.symm⟩ hne

lemma linkAt_eq_entryAt {o' : Order} {m t : NodeSpecs} {topos : List Spec}
    (hR : Resolved nodes o' m t topos) (p : Pos) : linkAt m p = entryAt nodes p := by
  rw [linkAt, specAt, entryAt, hR.specs]

lemma mem_topos_iff {o' : Order} {m t : NodeSpecs} {topos : List Spec}
    (hR : Resolved nodes o' m t topos) {spec : Spec} {link : SpecLink} :
    spec ∈ topos ∧ link ∈ spec.links ↔ ∃ p, specAt t p = some spec ∧ linkAt t p = some link := by
  rw [hR.topos, List.mem_flatMap]
  constructor
  · rintro ⟨⟨n, -, hs⟩, hl⟩
    cases hn : t.lookup n with
    | none => simp [hn] at hs
    | some specs =>
      rw [hn, Option.getD_some] at hs
      obtain ⟨i, hi⟩ := List.mem_iff_getElem?.mp hs
      obtain ⟨j, hj⟩ := List.mem_iff_getElem?.mp hl
      have hspec : specAt t ⟨n, i, j⟩ = some spec := by simp [specAt, hn, hi]
      exact ⟨⟨n, i, j⟩, hspec, by simp [linkAt, hspec, hj]⟩
  · rintro ⟨p, hspec, hlink⟩
    obtain ⟨specs, hspecs, hget⟩ := Option.bind_eq_some_iff.mp hspec
    have hlm : ∃ specs, m.lookup p.node = some specs := by
      have hv := congrFun hR.view p.node
      unfold view at hv
      rw [hspecs, Option.map_some] at hv
      obtain ⟨specs', hs', -⟩ := Option.map_eq_some_iff.mp hv.symm
      exact ⟨specs', hs'⟩
    refine ⟨⟨p.node, (mem_keys_iff o' m p.node).mpr hlm, ?_⟩, ?_⟩
    · rw [hspecs]
      exact List.mem_of_getElem? hget
    · rw [linkAt, hspec] at hlink
      exact List.mem_of_getElem? hlink

lemma resolved_link {o' : Order} {m t : NodeSpecs} {topos : List Spec}
    (hR : Resolved nodes o' m t topos) {p : Pos} {link : SpecLink} (h : linkAt t p = some link) :
    ∃ e, linkAt m p = some e ∧ resolve m p e = .ok link := by
  cases hm : linkAt m p with
  | none => rw [hR.none p hm] at h; cases h
  | some e =>
    obtain ⟨link', hr, ht⟩ := hR.links p e hm
    rw [h] at ht
    cases ht
    exact ⟨e, rfl, hr⟩

/-- **Peers are symmetric, in every order of the nodes.** Over a loaded topology, whatever the
specs of the nodes are in which no interface at a link appears twice: if `topologySpecs` returns
specs, then for every entry of a pod there is an entry of the same uid in the pod it names, for
the interface it names, which names the pod and the interface of the first; and every other order
of the nodes gives the same specs. -/
theorem peers_symmetric (links : List Link) (iface : String → String → Option Interface)
    (hL : Loaded links iface) (nodes : AList (fun _ : String => Impl)) (hn : Named nodes)
    (port : Pos → String) (hF : Family links iface nodes port) (o o' : Order)
    (topos : List Spec) (h : topologySpecs o o' nodes = .ok topos) :
    (∀ spec ∈ topos, ∀ link ∈ spec.links, ∃ spec' ∈ topos, ∃ link' ∈ spec'.links,
      spec'.name = link.peerPod ∧ link'.uid = link.uid ∧ link'.localIntf = link.peerIntf ∧
      link'.peerPod = spec.name ∧ link'.peerIntf = link.localIntf) ∧
    ∀ q q', ∃ topos', topologySpecs q q' nodes = .ok topos' ∧ topos.Perm topos' := by
  refine ⟨fun spec hspec link hlink => ?_, topologySpecs_perm hn h⟩
  obtain ⟨m, t, hR⟩ := topologySpecs_ok hn h
  obtain ⟨p, hsp, hlp⟩ := (mem_topos_iff hR).mp ⟨hspec, hlink⟩
  obtain ⟨e, hep, hre⟩ := resolved_link hR hlp
  -- the entry at `p` finds the one at `q`, and that one finds the entry at `p'`
  obtain ⟨q, sq, e', hq, hsq, heq, hpeer, rfl⟩ := resolve_ok hre
  obtain ⟨link', hre', hlq⟩ := hR.links q e' heq
  obtain ⟨p', sp, e'', hp', hsp', hep', hpeer', rfl⟩ := resolve_ok hre'
  have hp1 : entryAt nodes p = some e := by rw [← linkAt_eq_entryAt hR]; exact hep
  have hq1 : entryAt nodes q = some e' := by rw [← linkAt_eq_entryAt hR]; exact heq
  have hp2 : entryAt nodes p' = some e'' := by rw [← linkAt_eq_entryAt hR]; exact hep'
  obtain ⟨-, huid, u, l, hl, hu, hopp⟩ := opposite_of_isPeer hL hF hp1 hq1 hq hpeer
  obtain ⟨-, -, u', l', hl', hu', hopp'⟩ := opposite_of_isPeer hL hF hq1 hp2 hp' hpeer'
  have hll : l' = l := by
    have huu : (u' : ℤ) = u := by rw [← hu', huid, hu]
    rw [show u' = u by exact_mod_cast huu, hl] at hl'
    exact (Option.some.inj hl').symm
  subst hll
  have hport := hopp.unique hopp'
  have hpp : p' = p := hF.once p' p e'' e hp2 hp1 (congrArg Prod.fst hport)
    (congrArg Prod.snd hport)
  subst hpp
  rw [hep] at hep'
  cases hep'
  -- the pods keep their names
  have hname : sp.name = spec.name := by
    have := view_name hR.view p'
    rw [hsp, hsp'] at this
    exact (Option.some.inj this).symm
  obtain ⟨spec', hspec', hname'⟩ : ∃ spec', specAt t q = some spec' ∧ spec'.name = sq.name := by
    have := view_name hR.view q
    rw [hsq] at this
    exact Option.map_eq_some_iff.mp this
  obtain ⟨hmem, hmem'⟩ := (mem_topos_iff hR).mpr ⟨q, hspec', hlq⟩
  exact ⟨spec', hmem, _, hmem', hname', huid, rfl, hname, rfl⟩

/-! ### A node of several pods -/

/-- A node linked to a traffic generator, of which two more ports are linked to each other. -/
def traffic : Topology where
  nodes := [{ name := "r1" }, { name := "ate", vendor := .keysight }]
  links := [⟨"r1", "eth1", "ate", "eth1"⟩, ⟨"ate", "eth2", "ate", "eth3"⟩]

/-- The specs of the two nodes; the traffic generator has a pod for its first port and a pod for
the other two. -/
def trafficNodes : AList (fun _ : String => Impl) :=
  ((∅ : AList fun _ : String => Impl).insert "r1"
    { proto := { name := "r1" }
      backToBackLoop := false
      topologySpecs := .ok [⟨"r1", [⟨0, "eth1", "eth1", "ate", 0⟩]⟩] }).insert "ate"
    { proto := { name := "ate", vendor := .keysight }
      backToBackLoop := true
      topologySpecs := .ok [⟨"ate-port-1", [⟨0, "eth1", "eth1", "r1", 0⟩]⟩,
        ⟨"ate-port-2", [⟨1, "eth1", "eth3", "ate", 0⟩, ⟨1, "eth2", "eth2", "ate", 0⟩]⟩] }

def trafficPort (p : Pos) : String :=
  if p.node = "r1" ∨ p.spec = 0 then "eth1" else if p.link = 0 then "eth2" else "eth3"

lemma entry_mem {o : Order} {m : NodeSpecs} (hn : Named nodes) (hc : collect o nodes = .ok m)
    {p : Pos} {e : SpecLink} (h : entryAt nodes p = some e) :
    p ∈ positions m (o.keys m.keys) := by
  have hl : linkAt m p = some e := by
    rw [linkAt, specAt, (collect_ok hn hc).2]
    exact h
  exact mem_positions.mpr ⟨node_mem_keys o hl, e, hl⟩

lemma trafficNodes_named : Named trafficNodes := by
  intro k n hk
  have hmem : (⟨k, n⟩ : Σ _ : String, Impl) ∈ trafficNodes.entries := AList.mem_lookup_iff.mp hk
  have hall : ∀ x ∈ trafficNodes.entries, x.2.proto.name = x.1 := by decide
  exact hall _ hmem

def trafficPositions : List Pos :=
  [⟨"r1", 0, 0⟩, ⟨"ate", 0, 0⟩, ⟨"ate", 1, 0⟩, ⟨"ate", 1, 1⟩]

lemma mem_trafficPositions {p : Pos} {e : SpecLink} (h : entryAt trafficNodes p = some e) :
    p ∈ trafficPositions :=
  entry_mem (o := keptOrder) trafficNodes_named rfl h

/-- The entry at a position of the traffic generator agrees with the interface it is for. -/
def Agrees (iface : String → String → Option Interface) (p : Pos) : Prop :=
  ((entryAt trafficNodes p).map fun e => (e.uid, e.peerPod, e.peerIntf)) =
    (iface p.node (trafficPort p)).map fun v => (v.uid, v.peerName, v.peerIntName)

lemma traffic_family {ns : List Node} (hns : wire traffic = .ok ns) :
    Family traffic.links (ifaceOf traffic ns) trafficNodes trafficPort := by
  have hag : ∀ p ∈ trafficPositions, Agrees (ifaceOf traffic ns) p := by
    cases hns
    unfold Agrees
    decide
  have hend : ∀ p ∈ trafficPositions, ∃ l ∈ traffic.links,
      (p.node, trafficPort p) ∈ [(l.aNode, l.aInt), (l.zNode, l.zInt)] := by
    decide
  have hinj : ∀ p ∈ trafficPositions, ∀ q ∈ trafficPositions,
      p.node = q.node → trafficPort p = trafficPort q → p = q := by
    decide
  refine ⟨fun p e h => ?_, fun p e h v hv => ?_, fun p q e e' hp hq => ?_⟩
  · obtain ⟨l, hl, hmem⟩ := hend p (mem_trafficPositions h)
    exact ⟨l, hl, mem_ends_iff.mp hmem⟩
  · have := hag p (mem_trafficPositions h)
    simp only [Agrees, h, hv, Option.map_some, Option.some.injEq, Prod.mk.injEq] at this
    exact this
  · exact hinj p (mem_trafficPositions hp) q (mem_trafficPositions hq)

theorem traffic_symmetric :
    ∃ ns topos, wire traffic = .ok ns ∧
      topologySpecs keptOrder keptOrder trafficNodes = .ok topos ∧
      ∀ spec ∈ topos, ∀ link ∈ spec.links, ∃ spec' ∈ topos, ∃ link' ∈ spec'.links,
        spec'.name = link.peerPod ∧ link'.uid = link.uid ∧ link'.localIntf = link.peerIntf ∧
        link'.peerPod = spec.name ∧ link'.peerIntf = link.localIntf := by
  obtain ⟨ns, hns⟩ : ∃ ns, wire traffic = .ok ns := ⟨_, rfl⟩
  exact ⟨ns, _, hns, rfl, (peers_symmetric traffic.links (ifaceOf traffic ns)
    (loaded_of_wire (by decide) hns) trafficNodes trafficNodes_named trafficPort
    (traffic_family hns) keptOrder keptOrder _ rfl).1⟩

end Kne.SpecsPeers
