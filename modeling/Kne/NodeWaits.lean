import Kne.NodeDelete
import Kne.NodeRename
import Kne.SpecsLinks

/-!
What the init container of a node is told to wait for, and the interfaces that meshnet will make.
The default node counts the links that it hands to meshnet; the others count their interfaces, the
management interface `eth0` among them if the node declares it. The container waits for one more
than the count, which stands for `eth0`.
-/

namespace Kne.NodeWaits

open Kne.Checked Kne.Objects Kne.TopoModel Kne.SpecsModel Kne.SpecsLinks Kne.Renaming Kne.NodeModel
  Kne.NodeServices Kne.NodeMade Kne.NodeDelete Kne.NodeRename

variable {w : Env} {o : Order} {pb : Proto} {v : NodeType} {s t : Cluster} {p : Pod}

/-! ### Links and interfaces -/

lemma length_getNodeLinks {n : Node} {links : List SpecLink} (h : getNodeLinks o n = .ok links) :
    links.length + (if "eth0" ∈ n.interfaces.keys then 1 else 0) = n.interfaces.keys.length := by
  obtain ⟨hlinks, -⟩ := foldlM_addNodeLink h
  rw [List.nil_append] at hlinks
  have hperm := o.perm n.interfaces.keys
  have hnd := hperm.nodup_iff.mpr n.interfaces.keys_nodup
  have hentry : ∀ k ∈ o.keys n.interfaces.keys, (entryOf n k).isSome = (k != "eth0") := by
    intro k hk
    obtain ⟨v, hv⟩ := Option.isSome_iff_exists.mp
      (AList.lookup_isSome.mpr (AList.mem_keys.mpr (hperm.mem_iff.mp hk)))
    by_cases h0 : k = "eth0" <;> simp [entryOf, h0, hv]
  have hlen : links.length = ((o.keys n.interfaces.keys).erase "eth0").length := by
    rw [hlinks, ← List.length_map (f := SpecLink.localIntf), localIntf_filterMap,
      hnd.erase_eq_filter]
    exact congrArg List.length (List.filter_congr hentry)
  rw [hlen, (hperm.erase "eth0").length_eq, List.length_erase]
  split
  · next hmem => exact Nat.succ_pred_eq_of_pos (List.length_pos_of_mem hmem)
  · rfl

lemma eth0_mem_newInterfaces {α : Type} {m : AList (fun _ : String => α)} (hv : v ≠ .ciena) :
    "eth0" ∈ newInterfaces o v m ↔ "eth0" ∈ m := by
  have hethernet : "eth0" ∈ renameInterfaces ethernetName o m ↔ "eth0" ∈ m := by
    have hperm := o.perm m.keys
    rw [renameInterfaces, rename, mem_renameFrom,
      map_fst_ranged fun k hk => AList.mem_keys.mpr (hperm.mem_iff.mp hk), mem_names_ethernet,
      hperm.mem_iff, ← AList.mem_keys]
    have hne : ¬ ∃ i, 1 ≤ i ∧ i < 1 + ethernets (o.keys m.keys) ∧ "eth0" = eth i := by
      rintro ⟨i, hle, -, heq⟩
      have : 0 = i := eth_injective heq
      omega
    have hnot : ¬ IsEthernet "eth0" := not_isEthernet_eth 0
    simp [hne, hnot]
  cases v with
  | alpine | sonic => exact hethernet
  | ciena => exact absurd rfl hv
  | impl | cisco | juniper | forward => rfl

/-! ### The count -/

lemma pod_of_podMade {data : Bytes} {p' : Pod} {extra cfg : List Obj}
    (hm : PodMade w pb v data p' extra cfg) (h : .pod p ∈ extra ++ cfg ++ [.pod p']) : p = p' := by
  simp only [List.mem_append, List.mem_singleton, Obj.pod.injEq] at h
  rcases h with (h | h) | h
  · have hkey := hm.vendor _ h
    cases v <;> simp [vendorKey, Obj.key] at hkey
  · rcases (configOf_cfg hm.config).2 _ h with h | h <;> simp [Obj.key] at h
  · exact h

/-- The node as its constructor leaves it. -/
def newProto (o : Order) (v : NodeType) (pb : Proto) : Proto :=
  { pb with interfaces := newInterfaces o v pb.interfaces }

/-- What the init container is told to wait for. -/
def passedCount (p : Pod) : Option String := p.initContainers.head?.bind fun c => c.args.head?

/-- The number of links in the meshnet resources of a node. -/
def linkCount (specs : List Spec) : ℕ := (specs.flatMap Spec.links).length

lemma implTopologySpecs_ok {n : Node} {specs : List Spec} (h : implTopologySpecs o n = .ok specs) :
    ∃ links, getNodeLinks o n = .ok links ∧ linkCount specs = links.length := by
  obtain ⟨links, hg, rfl⟩ := map_ok_iff.mp h
  exact ⟨links, hg, by simp [linkCount]⟩

lemma passedCount_eq_iff {n : ℕ} {c : InitContainer} (hp : p.initContainers = [c])
    (hc : c.args.head? = some (toString (n + 1))) (m : ℕ) :
    passedCount p = some (toString (1 + m)) ↔ n = m := by
  have hpassed : passedCount p = some (toString (n + 1)) := by
    rw [passedCount, hp]
    exact hc
  rw [hpassed, Option.some.injEq]
  constructor
  · intro h
    have heth : eth (n + 1) = eth (1 + m) := congrArg ("eth" ++ ·) h
    have := eth_injective heth
    omega
  · rintro rfl
    rw [add_comm]

/-- **The count.** The init container of a node waits for `eth0` and the links of the node just if
it is the default node or does not declare `eth0`. -/
theorem init_wait_count_iff (w : Env) (o o' : Order) (pb : Proto) (v : NodeType) (s t : Cluster)
    (p : Pod) (specs : List Spec) (hv : v ≠ .ciena)
    (hpod : vendorCreatePod w (newProto o v pb) v s = .ok () t)
    (hmem : .pod p ∈ t.objs) (hnew : .pod p ∉ s.objs)
    (hspecs : implTopologySpecs o'
      { name := pb.name, interfaces := newInterfaces o v pb.interfaces } = .ok specs) :
    passedCount p = some (toString (1 + linkCount specs)) ↔
      v = .impl ∨ "eth0" ∉ pb.interfaces := by
  obtain ⟨links, hlinks, hcount⟩ := implTopologySpecs_ok hspecs
  obtain ⟨data, p', extra, cfg, hm, hg⟩ := vendorCreatePod_made hpod
  have hmade := ((hg.mem _).mp hmem).resolve_left hnew
  obtain rfl := pod_of_podMade hm hmade
  obtain ⟨n, c, hawaits, hinit, hargs⟩ := hm.about.waits hv
  have hlen := length_getNodeLinks hlinks
  rw [passedCount_eq_iff hinit hargs, hcount, ← eth0_mem_newInterfaces (o := o) hv, AList.mem_keys]
  unfold Awaits at hawaits
  split_ifs at hawaits with himpl
  · -- both are the links, in two orders
    obtain ⟨links', hlinks', rfl⟩ := hawaits
    have hlen' := length_getNodeLinks hlinks'
    refine iff_of_true ?_ (Or.inl himpl)
    have hsame : links'.length + _ = links.length + _ := hlen'.trans hlen.symm
    exact Nat.add_right_cancel hsame
  · rw [or_iff_right himpl]
    have hn : n = (newInterfaces o v pb.interfaces).keys.length := hawaits
    simp only at hlen
    split_ifs at hlen with h0
    · exact iff_of_false (by omega) (not_not.mpr h0)
    · exact iff_of_true (by omega) h0

/-- A node with one wired interface. -/
def wiredNode : Proto where
  name := "r1"
  interfaces := AList.insert "eth1" { peerName := "r2", peerIntName := "eth1" } ∅

theorem wiredNode_waits :
    ∃ t p specs, vendorCreatePod bareEnv (newProto keptOrder .juniper wiredNode) .juniper
        Store.empty = .ok () t ∧ .pod p ∈ t.objs ∧
      implTopologySpecs keptOrder { name := "r1", interfaces := wiredNode.interfaces } =
        .ok specs ∧ passedCount p = some (toString (1 + linkCount specs)) := by
  obtain ⟨t, ht⟩ := exists_ok_of_succeeds (s := Store.empty)
    (x := vendorCreatePod bareEnv (newProto keptOrder .juniper wiredNode) .juniper)
    (by decide +kernel)
  obtain ⟨data, p, extra, cfg, hm, hg⟩ := vendorCreatePod_made ht
  have hp : .pod p ∈ t.objs := (hg.mem _).mpr (Or.inr (by simp))
  refine ⟨t, p, _, ht, hp, rfl, ?_⟩
  refine (init_wait_count_iff bareEnv keptOrder keptOrder wiredNode .juniper Store.empty t p _
    (by simp) ht hp (Finset.notMem_empty _) rfl).mpr (Or.inr ?_)
  decide

/-- Two nodes with a link; the first declares its management interface. -/
def mgmtTopology : Topology where
  nodes := [{ name := "r1", interfaces := AList.insert "eth0" {} ∅ }, { name := "r2" }]
  links := [⟨"r1", "eth1", "r2", "eth1"⟩]

/-- Constructors that leave the nodes as they are. -/
def plainWorld : World where
  order := keptOrder
  pidMax _ := none
  new _ n := .ok ⟨n, false, implTopologySpecs keptOrder n⟩

/-- **The container waits for three interfaces and gets two.** -/
theorem mgmt_interface_counted_twice :
    ∃ nodes impl specs t p, load plainWorld mgmtTopology = .ok nodes ∧
      nodes.lookup "r1" = some impl ∧ impl.topologySpecs = .ok specs ∧ linkCount specs = 1 ∧
      vendorCreatePod bareEnv { name := "r1", interfaces := impl.proto.interfaces } .juniper
        Store.empty = .ok () t ∧ .pod p ∈ t.objs ∧ passedCount p = some "3" := by
  refine ⟨_, _, _, _, _, rfl, rfl, rfl, rfl, rfl, Finset.mem_singleton_self _, rfl⟩

end Kne.NodeWaits
