import Kne.NodeRename
import Kne.SpecsAlike

/-!
Two runs of `load` and `topologySpecs` on one topology. A run ranges over maps in several places,
and the orders it meets there are all that two runs differ in. The constructors of Alpine, SONiC and
Ciena are the only places where the order stays visible: a name that several interfaces can get goes
to one of them, and which one depends on the order.
-/

namespace Kne.WiringOrder

open Kne.Checked Kne.TopoModel Kne.TopoWiring Kne.TopoEnds Kne.TopoNodes Kne.NodeModel
  Kne.NodeRename Kne.Renaming Kne.SpecsModel Kne.SpecsOrder Kne.SpecsPeers Kne.SpecsLinks
  Kne.SpecsPods Kne.SpecsAlike

/-! ### Runs -/

/-- What the runs have in common. -/
structure Env where
  /-- The error and the output of `set_pid_max` for a node. -/
  pidMax : String → Option (String × String)
  /-- The error of the constructor for a node. -/
  newErr : Node → Option String
  /-- What the operator of Keysight reports for a node. -/
  status : String → Except String (List StatusIntf)

/-- The orders of the maps in a run: of the nodes in `load`, of the interfaces of a node in its
constructor, of its links or pods in its `TopologySpecs`, and of the two maps in `topologySpecs`. -/
structure Orders where
  load : Order
  rename : String → Order
  links : String → Order
  collect : Order
  resolve : Order

def nodeType : Vendor → NodeType
  | .alpine => .alpine
  | .sonic => .sonic
  | .ciena => .ciena
  | .cisco => .cisco
  | .juniper => .juniper
  | .forward => .forward
  | _ => .impl

/-- A node with the interfaces that its constructor gives it. -/
def renamed (r : Orders) (n : Node) : Node :=
  { n with interfaces := newInterfaces (r.rename n.name) (nodeType n.vendor) n.interfaces }

/-- What the constructor makes of a node. -/
def made (E : Env) (r : Orders) (n : Node) : Impl where
  proto := renamed r n
  backToBackLoop := n.vendor = .keysight
  topologySpecs :=
    match n.vendor with
    | .keysight => keysightTopologySpecs (r.links n.name) (renamed r n) (E.status n.name)
    | _ => implTopologySpecs (r.links n.name) (renamed r n)

def world (E : Env) (r : Orders) : World where
  order := r.load
  pidMax := E.pidMax
  new _ n :=
    match E.newErr n with
    | some err => .error err
    | none => .ok (made E r n)

/-- `load` and then `topologySpecs`. -/
def run (E : Env) (r : Orders) (t : Topology) : Option (List Spec) :=
  (load (world E r) t).toOption.bind fun nodes =>
    (topologySpecs r.collect r.resolve nodes).toOption

/-- If a run attaches the uids of the topology, then every run does, to the same interfaces of the
same pods. -/
def OrderFree (E : Env) (t : Topology) : Prop :=
  ∀ r r' topos, run E r t = some topos → ∃ topos', run E r' t = some topos' ∧
    ∀ u, (entriesOf topos u).Perm (entriesOf topos' u)

/-- The name that the constructor gives to the interface if it comes first. -/
def newName (v : NodeType) (k : String) : String :=
  match v with
  | .alpine | .sonic => (ethernetName 1 k).1
  | .ciena => cienaName k
  | .impl | .cisco | .juniper | .forward => k

/-- No two interfaces of the node get the same name, but for the management interface. -/
def NamesApart (n : Node) : Prop :=
  ∀ a ∈ n.interfaces, ∀ b ∈ n.interfaces,
    newName (nodeType n.vendor) a = newName (nodeType n.vendor) b →
      a = b ∨ newName (nodeType n.vendor) a = "eth0"

/-- The interfaces of each node, with those that the links add to the topology, are apart. -/
def Apart (t : Topology) : Prop :=
  ∀ ns, wire t = .ok ns → ∀ k n, nodeOf (places t) ns k = some n → NamesApart n

variable {E : Env} {r r' : Orders} {t : Topology} {ns : List Node} {n n' : Node}
  {nodes nodes' : AList (fun _ : String => Impl)} {o o' : Order}

lemma run_eq_some {topos : List Spec} : run E r t = some topos ↔
    ∃ nodes, load (world E r) t = .ok nodes ∧
      topologySpecs r.collect r.resolve nodes = .ok topos := by
  simp only [run, Option.bind_eq_some_iff, toOption_eq_some]

/-! ### What `load` gives in every order -/

/-- What decides whether `load` succeeds, without the orders. -/
structure Loads (E : Env) (t : Topology) (ns : List Node) : Prop where
  wired : wire t = .ok ns
  pid : ∀ k ∈ places t, E.pidMax k = none
  new : ∀ k n, nodeOf (places t) ns k = some n → E.newErr n = none
  loop : ∀ l ∈ t.links, l.aNode = l.zNode →
    ∃ n, nodeOf (places t) ns l.aNode = some n ∧ n.vendor = .keysight

lemma new_eq_ok {topo : String} {impl : Impl} :
    (world E r).new topo n = .ok impl ↔ E.newErr n = none ∧ impl = made E r n := by
  cases herr : E.newErr n with
  | none => simp [world, herr, eq_comm]
  | some err => simp [world, herr]

lemma lookup_nodes (hl : LoadOk (world E r) t ns nodes) (k : String) :
    nodes.lookup k = (nodeOf (places t) ns k).map (made E r) := by
  cases hn : nodeOf (places t) ns k with
  | none =>
    cases hk : nodes.lookup k with
    | none => rfl
    | some impl =>
      obtain ⟨n, hn', -⟩ := hl.made k impl hk
      rw [hn] at hn'
      cases hn'
  | some n =>
    obtain ⟨i, hi, -⟩ := Option.bind_eq_some_iff.mp hn
    obtain ⟨impl, hk⟩ := hl.all k i hi
    obtain ⟨n', hn', -, hnew⟩ := hl.made k impl hk
    rw [hn] at hn'
    obtain rfl := Option.some.inj hn'
    rw [hk, (new_eq_ok.mp hnew).2, Option.map_some]

lemma loads_of_load (h : load (world E r) t = .ok nodes) :
    ∃ ns, Loads E t ns ∧ LoadOk (world E r) t ns nodes := by
  obtain ⟨ns, hl⟩ := load_ok h
  obtain ⟨ns', hw', hrest⟩ := bind_ok_iff.mp h
  obtain rfl : ns' = ns := Except.ok.inj (hw'.symm.trans hl.wired)
  obtain ⟨nodes', hf, -⟩ := bind_ok_iff.mp hrest
  refine ⟨ns', ⟨hl.wired, fun k hk => ?_, fun k n hn => ?_, fun l hmem hself => ?_⟩, hl⟩
  · obtain ⟨u, v, hturn⟩ := turn_of_foldlM_ok hf k (r.load.mem_keys.mpr hk)
    cases hpid : E.pidMax k with
    | none => rfl
    | some e => simp [addNode, world, hpid] at hturn
  · have hk := lookup_nodes hl k
    rw [hn, Option.map_some] at hk
    obtain ⟨n', hn', -, hnew⟩ := hl.made k _ hk
    rw [hn] at hn'
    obtain rfl := Option.some.inj hn'
    exact (new_eq_ok.mp hnew).1
  · have hloop := hl.loop l hmem hself
    rw [loops, lookup_nodes hl] at hloop
    cases hn : nodeOf (places t) ns' l.aNode with
    | none => simp [hn] at hloop
    | some n => exact ⟨n, rfl, by simpa [hn, made] using hloop⟩

lemma exists_load_of_loads (hL : Loads E t ns) (r : Orders) :
    ∃ nodes, load (world E r) t = .ok nodes ∧ LoadOk (world E r) t ns nodes := by
  obtain ⟨nodes, hload⟩ : ∃ nodes, load (world E r) t = .ok nodes := by
    refine exists_load hL.wired hL.pid (fun k n hn => ?_) fun l hl hself => ?_
    · exact ⟨made E r n, new_eq_ok.mpr ⟨hL.new k n hn, rfl⟩⟩
    · obtain ⟨n, hn, hv⟩ := hL.loop l hl hself
      exact ⟨n, made E r n, hn, new_eq_ok.mpr ⟨hL.new _ n hn, rfl⟩, by simp [made, hv]⟩
  obtain ⟨ns', hl⟩ := load_ok hload
  obtain rfl : ns' = ns := Except.ok.inj (hl.wired.symm.trans hL.wired)
  exact ⟨nodes, hload, hl⟩

lemma named_nodes (hl : LoadOk (world E r) t ns nodes) : Named nodes := by
  intro k impl hk
  obtain ⟨n, hn, hname, hnew⟩ := hl.made k impl hk
  rw [(new_eq_ok.mp hnew).2]
  exact hname

/-! ### The entries of a node -/

/-- The maps have the same interfaces but for the management interface. -/
def SameData (m m' : AList (fun _ : String => Interface)) : Prop :=
  ∀ k, k ≠ "eth0" → m.lookup k = m'.lookup k

lemma exists_getNodeLinks_iff : (∃ links, getNodeLinks o n = .ok links) ↔
    ∀ k v, n.interfaces.lookup k = some v → k ≠ "eth0" →
      v.peerIntName ≠ "" ∧ v.peerName ≠ "" := by
  have hturn : ∀ k v acc, n.interfaces.lookup k = some v →
      ((∃ links, addNodeLink n acc k = .ok links) ↔
        (k ≠ "eth0" → v.peerIntName ≠ "" ∧ v.peerName ≠ "")) := by
    intro k v acc hk
    simp only [addNodeLink, hk, map_ok_iff, nodeLink]
    split_ifs with h0 hint hpeer <;> simp_all
  constructor
  · rintro ⟨links, h⟩ k v hk
    obtain ⟨acc, acc', hok⟩ := turn_of_foldlM_ok h k (o.mem_keys_of_lookup hk)
    exact (hturn k v acc hk).mp ⟨acc', hok⟩
  · intro h
    refine exists_foldlM_ok (fun k _ acc => ?_) []
    cases hk : n.interfaces.lookup k with
    | none => exact ⟨acc, by simp [addNodeLink, hk]⟩
    | some v => exact (hturn k v acc hk).mpr (h k v hk)

lemma podEntries_single (name : String) (links : List SpecLink) :
    podEntries [⟨name, links⟩] = links.map fun l => (name, l) := by
  simp [podEntries]

lemma implSpecs_alike (hname : n.name = n'.name) (hsame : SameData n.interfaces n'.interfaces)
    {specs : List Spec} (h : implTopologySpecs o n = .ok specs) :
    ∃ specs', implTopologySpecs o' n' = .ok specs' ∧
      (podEntries specs).Perm (podEntries specs') := by
  obtain ⟨links, hlinks, rfl⟩ := map_ok_iff.mp h
  obtain ⟨links', hlinks'⟩ : ∃ links', getNodeLinks o' n' = .ok links' := by
    refine exists_getNodeLinks_iff.mpr fun k v hk h0 => ?_
    rw [← hsame k h0] at hk
    exact exists_getNodeLinks_iff.mp ⟨links, hlinks⟩ k v hk h0
  refine ⟨[⟨n'.name, links'⟩], map_ok_iff.mpr ⟨links', hlinks', rfl⟩, ?_⟩
  obtain ⟨hmem, hnd, -⟩ := getNodeLinks_ok hlinks
  obtain ⟨hmem', hnd', -⟩ := getNodeLinks_ok hlinks'
  have hperm : links.Perm links' := by
    refine (List.perm_ext_iff_of_nodup (hnd.of_map _) (hnd'.of_map _)).mpr fun e => ?_
    rw [hmem, hmem']
    constructor
    · rintro ⟨k, v, hk, h0, rfl⟩
      exact ⟨k, v, by rw [← hsame k h0]; exact hk, h0, rfl⟩
    · rintro ⟨k, v, hk, h0, rfl⟩
      exact ⟨k, v, by rw [hsame k h0]; exact hk, h0, rfl⟩
  rw [podEntries_single, podEntries_single, hname]
  exact hperm.map _

lemma keysightSpecs_alike {status : Except String (List StatusIntf)} {specs : List Spec}
    (h : keysightTopologySpecs o n status = .ok specs) :
    ∃ specs', keysightTopologySpecs o' n status = .ok specs' ∧
      (podEntries specs).Perm (podEntries specs') := by
  obtain ⟨st, hst, hloop⟩ := bind_ok_iff.mp h
  obtain ⟨m, hm, hret⟩ := bind_ok_iff.mp hloop
  cases hret
  refine ⟨_, bind_ok_iff.mpr ⟨st, hst, bind_ok_iff.mpr ⟨m, hm, rfl⟩⟩, ?_⟩
  have hkeys : (o.keys m.keys).Perm (o'.keys m.keys) := (o.perm _).trans (o'.perm _).symm
  exact (hkeys.filterMap _).flatMap_right _

lemma made_specs (hv : n.vendor ≠ .keysight) :
    (made E r n).topologySpecs = implTopologySpecs (r.links n.name) (renamed r n) := by
  unfold made
  split
  · exact absurd ‹_› hv
  · rfl

lemma made_alike (hsame : SameData (renamed r n).interfaces (renamed r' n).interfaces)
    {specs : List Spec} (h : (made E r n).topologySpecs = .ok specs) :
    ∃ specs', (made E r' n).topologySpecs = .ok specs' ∧
      (podEntries specs).Perm (podEntries specs') := by
  by_cases hv : n.vendor = .keysight
  · have hkept : renamed r' n = renamed r n := by simp [renamed, hv, nodeType, newInterfaces]
    simp only [made, hv, hkept] at h ⊢
    exact keysightSpecs_alike h
  · have hname : (renamed r n).name = (renamed r' n).name := rfl
    rw [made_specs hv] at h ⊢
    exact implSpecs_alike hname hsame h

/-! ### Names that do not depend on the order -/

lemma names_of_no_ethernet (idx : ℕ) {ks : List String} (h : ∀ k ∈ ks, ¬ IsEthernet k) :
    names ethernetName idx ks = ks := by
  induction ks generalizing idx with
  | nil => rfl
  | cons k ks ih =>
    rw [List.forall_mem_cons] at h
    simp [names, ethernetName, h.1, ih idx h.2]

lemma names_of_one_ethernet {ks : List String} (hnd : ks.Nodup)
    (hone : ∀ a ∈ ks, ∀ b ∈ ks, IsEthernet a → IsEthernet b → a = b) :
    names ethernetName 1 ks = ks.map (newName .alpine) := by
  induction ks with
  | nil => rfl
  | cons k ks ih =>
    obtain ⟨hk, hnd⟩ := List.nodup_cons.mp hnd
    by_cases hek : IsEthernet k
    · have hrest : ∀ b ∈ ks, ¬ IsEthernet b := by
        intro b hb heb
        have hkb := hone k List.mem_cons_self b (List.mem_cons_of_mem _ hb) hek heb
        exact hk (hkb ▸ hb)
      have hmap : ks.map (newName .alpine) = ks := by
        refine (List.map_congr_left fun b hb => ?_).trans (List.map_id ks)
        simp [newName, ethernetName, hrest b hb]
      rw [names, names_of_no_ethernet _ hrest, List.map_cons, hmap]
      rfl
    · have hstay : (ethernetName 1 k).2 = 1 := by simp [ethernetName, hek]
      rw [names, hstay, ih hnd fun a ha b hb =>
        hone a (List.mem_cons_of_mem _ ha) b (List.mem_cons_of_mem _ hb)]
      rfl

lemma lookup_newInterfaces {v : NodeType} {m : AList (fun _ : String => Interface)}
    (hm : ∀ a ∈ m, ∀ b ∈ m, newName v a = newName v b → a = b ∨ newName v a = "eth0")
    (o : Order) {c : String} (hc : c ≠ "eth0") {x : Interface} :
    (newInterfaces o v m).lookup c = some x ↔ ∃ k, newName v k = c ∧ m.lookup k = some x := by
  have huniq : ∀ a ∈ o.keys m.keys, ∀ b ∈ o.keys m.keys, newName v a = c → newName v b = c →
      a = b := by
    intro a ha b hb hca hcb
    refine (hm a (o.mem_keys.mp ha) b (o.mem_keys.mp hb) (hca.trans hcb.symm)).resolve_right ?_
    rw [hca]
    exact hc
  have hethernet : v = .alpine ∨ v = .sonic →
      names ethernetName 1 (o.keys m.keys) = (o.keys m.keys).map (newName .alpine) := by
    intro hv
    refine names_of_one_ethernet (o.nodup_keys m) fun a ha b hb hea heb => ?_
    have hname : ∀ k, IsEthernet k → newName v k = eth 1 := by
      intro k hk
      rcases hv with rfl | rfl <;> simp [newName, ethernetName, hk]
    have hone := hm a (o.mem_keys.mp ha) b (o.mem_keys.mp hb)
      ((hname a hea).trans (hname b heb).symm)
    refine hone.resolve_right ?_
    rw [hname a hea]
    decide
  cases v with
  | alpine => exact lookup_rename_map (o.perm _) (hethernet (.inl rfl)) huniq
  | sonic => exact lookup_rename_map (o.perm _) (hethernet (.inr rfl)) huniq
  | ciena =>
    have hname : ∀ (s : ℕ) (k : String), (cienaName k, s).1 = newName .ciena k := fun _ _ => rfl
    exact lookup_rename_map (o.perm _) (names_eq_map hname 1 _) huniq
  | impl | cisco | juniper | forward => simp [newInterfaces, newName]

lemma sameData_renamed (hn : NamesApart n) (r r' : Orders) :
    SameData (renamed r n).interfaces (renamed r' n).interfaces := by
  intro k h0
  refine Option.ext fun v => ?_
  exact (lookup_newInterfaces hn _ h0).trans (lookup_newInterfaces hn _ h0).symm

/-- **The condition suffices.** -/
lemma orderFree_of_apart (hap : Apart t) : OrderFree E t := by
  intro r r' topos h
  obtain ⟨nodes, hload, hspecs⟩ := run_eq_some.mp h
  obtain ⟨ns, hL, hl⟩ := loads_of_load hload
  obtain ⟨nodes', hload', hl'⟩ := exists_load_of_loads hL r'
  have halike : Alike nodes nodes' := by
    refine ⟨fun k => ?_, fun k impl impl' specs hk hk' hs => ?_⟩
    · rw [← AList.lookup_isSome, ← AList.lookup_isSome, lookup_nodes hl, lookup_nodes hl',
        Option.isSome_map, Option.isSome_map]
    · rw [lookup_nodes hl] at hk
      rw [lookup_nodes hl'] at hk'
      obtain ⟨n, hn, rfl⟩ := Option.map_eq_some_iff.mp hk
      rw [hn] at hk'
      obtain rfl := Option.some.inj hk'
      exact made_alike (sameData_renamed (hap ns hL.wired k n hn) r r') hs
  obtain ⟨topos', hspecs', hperm⟩ := topologySpecs_alike (named_nodes hl) (named_nodes hl') halike
    hspecs r'.collect r'.resolve
  exact ⟨topos', run_eq_some.mpr ⟨nodes', hload', hspecs'⟩, hperm⟩

/-! ### Names that two interfaces can get -/

/-- The order in which the key comes last. -/
def lastOrder (a : String) : Order where
  keys l := if a ∈ l then l.erase a ++ [a] else l
  perm l := by
    split_ifs with ha
    · exact (List.perm_append_singleton a _).trans (List.perm_cons_erase ha).symm
    · exact .refl l

/-- The name that the constructor gives to the interface if it comes last. -/
def lastName (v : NodeType) (ks : List String) (a : String) : String :=
  match v with
  | .alpine | .sonic => if IsEthernet a then eth (ethernets ks) else a
  | .ciena => cienaName a
  | .impl | .cisco | .juniper | .forward => a

lemma after_ethernetName (idx : ℕ) (ks : List String) :
    after ethernetName idx ks = idx + ethernets ks := by
  induction ks generalizing idx with
  | nil => rfl
  | cons k ks ih =>
    have hstep : after ethernetName idx (k :: ks) = after ethernetName (ethernetName idx k).2 ks :=
      rfl
    rw [hstep, ih]
    by_cases hk : IsEthernet k
    · simp only [ethernetName, ethernets, hk, if_true, List.countP_cons, decide_true]
      omega
    · simp [ethernetName, ethernets, hk]

lemma ethernetName_last {ks : List String} {a : String} (ha : a ∈ ks) :
    (ethernetName (after ethernetName 1 (ks.erase a)) a).1 = lastName .alpine ks a := by
  rw [after_ethernetName]
  by_cases hea : IsEthernet a
  · have hcount : ethernets ks = ethernets (ks.erase a) + 1 := by
      rw [ethernets, (List.perm_cons_erase ha).countP_eq]
      simp [ethernets, hea]
    simp only [ethernetName, lastName, hea, if_true, hcount, add_comm]
  · simp [ethernetName, lastName, hea]

lemma lookup_lastOrder {v : NodeType} {m : AList (fun _ : String => Interface)} {a : String}
    {x : Interface} (ha : m.lookup a = some x) :
    (newInterfaces (lastOrder a) v m).lookup (lastName v m.keys a) = some x := by
  have hmem : a ∈ m.keys := AList.mem_keys.mp (AList.lookup_isSome.mp (by rw [ha]; rfl))
  have hkeys : (lastOrder a).keys m.keys = m.keys.erase a ++ [a] := if_pos hmem
  have hsub : ∀ k ∈ m.keys.erase a, k ∈ m := fun k hk =>
    AList.mem_keys.mpr (List.mem_of_mem_erase hk)
  have hethernet : (renameInterfaces ethernetName (lastOrder a) m).lookup
      (lastName .alpine m.keys a) = some x := by
    rw [renameInterfaces, hkeys, ← ethernetName_last hmem]
    exact lookup_rename_last 1 hsub ha
  cases v with
  | alpine => exact hethernet
  | sonic => exact hethernet
  | ciena =>
    rw [newInterfaces, cienaRenameInterfaces, renameInterfaces, hkeys]
    exact @lookup_rename_last _ _ _ (fun idx k => (cienaName k, idx)) _ _ _ _ _ 1 hsub ha
  | impl | cisco | juniper | forward => exact ha

lemma eth_ne_eth0 {i : ℕ} (hi : 0 < i) : eth i ≠ "eth0" := by
  intro h
  have hzero : i = 0 := eth_injective h
  omega

/-- Two interfaces of the node can get the same name. -/
def Rivals (n : Node) (a b : String) : Prop :=
  a ∈ n.interfaces ∧ b ∈ n.interfaces ∧ a ≠ b ∧
    lastName (nodeType n.vendor) n.interfaces.keys a =
      lastName (nodeType n.vendor) n.interfaces.keys b ∧
    lastName (nodeType n.vendor) n.interfaces.keys a ≠ "eth0"

lemma ethernets_pos {ks : List String} {a : String} (ha : a ∈ ks) (hea : IsEthernet a) :
    0 < ethernets ks := List.countP_pos_iff.mpr ⟨a, ha, by simpa using hea⟩

lemma rivals_of_ethernet (hv : nodeType n.vendor = .alpine ∨ nodeType n.vendor = .sonic)
    {a b : String} (ha : a ∈ n.interfaces) (hb : b ∈ n.interfaces) (hne : a ≠ b)
    (hea : IsEthernet a) (heb : IsEthernet b) : Rivals n a b := by
  have hpos := ethernets_pos (AList.mem_keys.mp ha) hea
  rcases hv with hv | hv <;>
  · refine ⟨ha, hb, hne, ?_, ?_⟩
    · simp [hv, lastName, hea, heb]
    · simpa [hv, lastName, hea] using eth_ne_eth0 hpos

/-- An interface that is counted and one that has the first name already: they are rivals, or the
first has another rival. -/
lemma rivals_of_eth1 (hv : nodeType n.vendor = .alpine ∨ nodeType n.vendor = .sonic) {a : String}
    (ha : a ∈ n.interfaces) (hb : eth 1 ∈ n.interfaces) (hea : IsEthernet a) :
    ∃ b, Rivals n a b := by
  by_cases hother : ∃ b ∈ n.interfaces, a ≠ b ∧ IsEthernet b
  · obtain ⟨b, hb', hne, heb⟩ := hother
    exact ⟨b, rivals_of_ethernet hv ha hb' hne hea heb⟩
  · have hone : ethernets n.interfaces.keys = 1 := by
      have hiff : ∀ k ∈ n.interfaces.keys, decide (IsEthernet k) = true ↔ (k == a) = true := by
        intro k hk
        rw [decide_eq_true_eq, beq_iff_eq]
        constructor
        · intro hek
          by_contra hne
          exact hother ⟨k, AList.mem_keys.mpr hk, fun h => hne h.symm, hek⟩
        · rintro rfl
          exact hea
      calc ethernets n.interfaces.keys = n.interfaces.keys.count a := List.countP_congr hiff
        _ = 1 := List.count_eq_one_of_mem n.interfaces.keys_nodup (AList.mem_keys.mp ha)
    have hne : a ≠ eth 1 := by
      rintro rfl
      exact not_isEthernet_eth 1 hea
    refine ⟨eth 1, ?_⟩
    rcases hv with hv | hv <;>
    · refine ⟨ha, hb, hne, ?_, ?_⟩
      · simp [hv, lastName, hea, hone, not_isEthernet_eth]
      · simpa [hv, lastName, hea, hone] using eth_ne_eth0 one_pos

lemma exists_rivals (hn : ¬ NamesApart n) : (∃ a b, Rivals n a b) ∧ n.vendor ≠ .keysight := by
  unfold NamesApart at hn
  push Not at hn
  obtain ⟨a, ha, b, hb, heq, hne, h0⟩ := hn
  have hethernet : nodeType n.vendor = .alpine ∨ nodeType n.vendor = .sonic →
      ∃ a b, Rivals n a b := by
    intro hv
    have hname : (ethernetName 1 a).1 = (ethernetName 1 b).1 := by
      rcases hv with hv | hv <;> simpa [hv, newName] using heq
    by_cases hea : IsEthernet a
    · by_cases heb : IsEthernet b
      · exact ⟨a, b, rivals_of_ethernet hv ha hb hne hea heb⟩
      · have hb1 : eth 1 = b := by simpa [ethernetName, hea, heb] using hname
        subst hb1
        obtain ⟨b, hb'⟩ := rivals_of_eth1 hv ha hb hea
        exact ⟨a, b, hb'⟩
    · by_cases heb : IsEthernet b
      · have ha1 : a = eth 1 := by simpa [ethernetName, hea, heb] using hname
        subst ha1
        obtain ⟨a, ha'⟩ := rivals_of_eth1 hv hb ha heb
        exact ⟨b, a, ha'⟩
      · exact absurd (by simpa [ethernetName, hea, heb] using hname) hne
  refine ⟨?_, fun hv => ?_⟩
  · cases hv : nodeType n.vendor with
    | alpine => exact hethernet (.inl hv)
    | sonic => exact hethernet (.inr hv)
    | ciena =>
      rw [hv] at heq h0
      refine ⟨a, b, ha, hb, hne, ?_, ?_⟩
      · rw [hv]
        exact heq
      · rw [hv]
        exact h0
    | impl | cisco | juniper | forward =>
      rw [hv] at heq
      exact absurd heq hne
  · rw [hv] at heq
    exact hne heq

/-! ### Two runs that attach a uid differently -/

/-- The run in which the interface of the node comes last in the constructor. -/
def lastAt (r : Orders) (k a : String) : Orders :=
  { r with rename := fun name => if name = k then lastOrder a else r.rename name }

lemma renamed_lastAt {k a : String} (hn : n.name = k) :
    (renamed (lastAt r k a) n).interfaces =
      newInterfaces (lastOrder a) (nodeType n.vendor) n.interfaces := by
  simp [renamed, lastAt, hn]

lemma made_lastAt_ne {k : String} (hn : n.name ≠ k) (a b : String) :
    made E (lastAt r k a) n = made E (lastAt r k b) n := by
  simp [made, renamed, lastAt, hn]

lemma mem_entriesOf_impl {specs : List Spec} (h : implTopologySpecs o n = .ok specs) {c : String}
    {u : ℤ} : (n.name, c) ∈ entriesOf specs u ↔
      c ≠ "eth0" ∧ ∃ v, n.interfaces.lookup c = some v ∧ v.uid = u := by
  obtain ⟨links, hlinks, rfl⟩ := map_ok_iff.mp h
  obtain ⟨hmem, -, -⟩ := getNodeLinks_ok hlinks
  simp only [entriesOf, List.flatMap_cons, List.flatMap_nil, List.append_nil, List.mem_map,
    List.mem_filter, decide_eq_true_eq, Prod.mk.injEq, true_and, hmem]
  constructor
  · rintro ⟨e, ⟨⟨k, v, hk, h0, rfl⟩, rfl⟩, rfl⟩
    exact ⟨h0, v, hk, rfl⟩
  · rintro ⟨h0, v, hv, rfl⟩
    exact ⟨specLink c v, ⟨⟨c, v, hv, h0, rfl⟩, rfl⟩, rfl⟩

lemma entry_of_rival {k a c : String} {x : Interface} {topos : List Spec}
    (hL : LoadOk (world E (lastAt r k a)) t ns nodes)
    (hspecs : topologySpecs (lastAt r k a).collect (lastAt r k a).resolve nodes = .ok topos)
    (hn : nodeOf (places t) ns k = some n) (hv : n.vendor ≠ .keysight)
    (ha : n.interfaces.lookup a = some x)
    (hc : lastName (nodeType n.vendor) n.interfaces.keys a = c) (h0 : c ≠ "eth0") :
    x.peerName ≠ "" ∧ ∀ u, (k, c) ∈ entriesOf ((specsOf nodes k).getD []) u ↔ x.uid = u := by
  have hname := nodeOf_name hL.wired hn
  obtain ⟨m, _, hcollect, -⟩ := topologySpecs_eq_ok.mp hspecs
  have hk : nodes.lookup k = some (made E (lastAt r k a) n) := by
    rw [lookup_nodes hL, hn, Option.map_some]
  obtain ⟨specs, hs⟩ := (collect_ok (named_nodes hL) hcollect).1 k _ hk
  rw [specsOf_of_lookup hk hs]
  rw [made_specs hv] at hs
  have hlook : (renamed (lastAt r k a) n).interfaces.lookup c = some x := by
    rw [renamed_lastAt hname, ← hc]
    exact lookup_lastOrder ha
  constructor
  · obtain ⟨links, hlinks, -⟩ := map_ok_iff.mp hs
    exact (exists_getNodeLinks_iff.mp ⟨links, hlinks⟩ c x hlook h0).2
  · intro u
    have hentry := mem_entriesOf_impl hs (c := c) (u := u)
    rw [show (renamed (lastAt r k a) n).name = k from hname] at hentry
    rw [Option.getD_some, hentry, hlook]
    simp [h0]

lemma self_link (hp : NoPeers t) (hw : wire t = .ok ns) {k a b : String} (hne : a ≠ b)
    {x y : Interface} (ha : ifaceOf t ns k a = some x) (hb : ifaceOf t ns k b = some y)
    (hx : x.peerName ≠ "") (hy : y.peerName ≠ "") (huid : x.uid = y.uid) :
    ∃ l ∈ t.links, l.aNode = k ∧ l.zNode = k := by
  obtain ⟨i, l, hi, hl, hend⟩ := end_of_iface hp hw ha hx
  obtain ⟨j, l', hj, hl', hend'⟩ := end_of_iface hp hw hb hy
  have hij : i = j := by
    have : (i : ℤ) = j := by rw [← hi, huid, hj]
    exact_mod_cast this
  subst hij
  rw [hl] at hl'
  obtain rfl := Option.some.inj hl'
  refine ⟨l, List.mem_of_getElem? hl, ?_⟩
  rcases hend with ⟨h1, h2, -⟩ | ⟨h1, h2, -⟩ <;> rcases hend' with ⟨g1, g2, -⟩ | ⟨g1, g2, -⟩
  · exact absurd (h2.trans g2.symm) hne
  · exact ⟨h1.symm, g1.symm⟩
  · exact ⟨g1.symm, h1.symm⟩
  · exact absurd (h2.trans g2.symm) hne

/-- Two runs in which the one and the other of two rivals comes last attach the uids alike only if
the rivals have the same uid. -/
lemma uid_of_rivals {k a b : String} {x y : Interface} {topos topos' : List Spec}
    (hn : nodeOf (places t) ns k = some n) (hv : n.vendor ≠ .keysight) (hr : Rivals n a b)
    (ha : n.interfaces.lookup a = some x) (hb : n.interfaces.lookup b = some y)
    (hl : LoadOk (world E (lastAt r k a)) t ns nodes)
    (hl' : LoadOk (world E (lastAt r k b)) t ns nodes')
    (hspecs : topologySpecs (lastAt r k a).collect (lastAt r k a).resolve nodes = .ok topos)
    (hspecs' : topologySpecs (lastAt r k b).collect (lastAt r k b).resolve nodes' = .ok topos')
    (hperm : (entriesOf topos x.uid).Perm (entriesOf topos' x.uid)) :
    x.peerName ≠ "" ∧ y.peerName ≠ "" ∧ x.uid = y.uid := by
  obtain ⟨-, -, -, hname, h0⟩ := hr
  obtain ⟨hpeer, hentry⟩ := entry_of_rival hl hspecs hn hv ha rfl h0
  obtain ⟨hpeer', hentry'⟩ := entry_of_rival hl' hspecs' hn hv hb hname.symm h0
  have hkeys : ∀ k, k ∈ nodes ↔ k ∈ nodes' := fun k => by
    rw [← AList.lookup_isSome, ← AList.lookup_isSome, lookup_nodes hl, lookup_nodes hl',
      Option.isSome_map, Option.isSome_map]
  have hk : k ∈ nodes := AList.lookup_isSome.mp (by rw [lookup_nodes hl, hn]; rfl)
  -- the other nodes do not notice which of the two comes last
  have hothers : ∀ k', k' ≠ k → specsOf nodes k' = specsOf nodes' k' := by
    intro k' hk'
    rw [specsOf, specsOf, lookup_nodes hl, lookup_nodes hl']
    cases hn' : nodeOf (places t) ns k' with
    | none => rfl
    | some n' =>
      have hne' : n'.name ≠ k := by
        rw [nodeOf_name hl.wired hn']
        exact hk'
      rw [Option.map_some, Option.map_some, made_lastAt_ne hne' a b]
  have hcancel := entriesOf_cancel (named_nodes hl) (named_nodes hl') hspecs hspecs' hkeys hk
    hothers hperm
  have huid : y.uid = x.uid :=
    (hentry' x.uid).mp (hcancel.mem_iff.mp ((hentry x.uid).mpr rfl))
  exact ⟨hpeer, hpeer', huid.symm⟩

/-- **The condition is needed**, where the peers are left to the program. -/
lemma apart_of_orderFree (hp : NoPeers t) {topos : List Spec} (hrun : run E r t = some topos)
    (hfree : OrderFree E t) : Apart t := by
  intro ns hw k n hn
  by_contra hnot
  obtain ⟨⟨a, b, hr⟩, hv⟩ := exists_rivals hnot
  obtain ⟨x, ha⟩ := Option.isSome_iff_exists.mp (AList.lookup_isSome.mpr hr.1)
  obtain ⟨y, hb⟩ := Option.isSome_iff_exists.mp (AList.lookup_isSome.mpr hr.2.1)
  -- the runs in which the one and the other comes last
  obtain ⟨topoa, hruna, hperma⟩ := hfree r (lastAt r k a) topos hrun
  obtain ⟨topob, hrunb, hpermb⟩ := hfree r (lastAt r k b) topos hrun
  obtain ⟨nodesa, hloada, hspecsa⟩ := run_eq_some.mp hruna
  obtain ⟨nodesb, hloadb, hspecsb⟩ := run_eq_some.mp hrunb
  obtain ⟨nsa, hLa, hla⟩ := loads_of_load hloada
  obtain ⟨nsb, hLb, hlb⟩ := loads_of_load hloadb
  obtain rfl : nsa = ns := Except.ok.inj (hLa.wired.symm.trans hw)
  obtain rfl : nsb = nsa := Except.ok.inj (hLb.wired.symm.trans hw)
  obtain ⟨hx, hy, huid⟩ := uid_of_rivals hn hv hr ha hb hla hlb hspecsa hspecsb
    ((hperma x.uid).symm.trans (hpermb x.uid))
  -- so the two are joined by a link of the node to itself, which its constructor does not support
  obtain ⟨l, hl, haN, hzN⟩ := self_link hp hw hr.2.2.1 (by rw [ifaceOf_eq hn]; exact ha)
    (by rw [ifaceOf_eq hn]; exact hb) hx hy huid
  obtain ⟨n', hn', hkeysight⟩ := hLa.loop l hl (haN.trans hzN.symm)
  rw [haN, hn] at hn'
  obtain rfl := Option.some.inj hn'
  exact hv hkeysight

/-- **When the wiring does not depend on the order of maps.** If no two interfaces of a node can get
the same name, all runs attach the uids of the topology alike. For a topology that leaves the peers
to the program this is needed too: if a run attaches the uids and all runs do so alike, then no two
interfaces of a node can get the same name. -/
theorem wiring_orderFree_iff (E : Env) (t : Topology) :
    (Apart t → OrderFree E t) ∧
      (NoPeers t → (OrderFree E t ↔ ((∃ r topos, run E r t = some topos) → Apart t))) := by
  refine ⟨orderFree_of_apart, fun hp => ⟨fun hfree => ?_, fun himp => ?_⟩⟩
  · rintro ⟨r, topos, hrun⟩
    exact apart_of_orderFree hp hrun hfree
  · intro r r' topos hrun
    exact orderFree_of_apart (himp ⟨r, topos, hrun⟩) r r' topos hrun

/-- Two interfaces of an Alpine node that are counted. -/
def twoEthernets : Topology where
  nodes := [{ name := "r1", vendor := .alpine }, { name := "r2", vendor := .nokia }]
  links := [⟨"r1", "Ethernet1", "r2", "eth1"⟩, ⟨"r1", "Ethernet2", "r2", "eth2"⟩]

/-- Nothing fails, and there is no operator. -/
def quiet : Env where
  pidMax _ := none
  newErr _ := none
  status _ := .ok []

/-- The keys as they are kept, but in one order in all constructors. -/
def renameBy (o : Order) : Orders :=
  ⟨keptOrder, fun _ => o, fun _ => keptOrder, keptOrder, keptOrder⟩

def reversedOrder : Order := ⟨List.reverse, List.reverse_perm⟩

/-- **The wiring depends on the order.** Two runs differ in the order of the interfaces in the
constructor of the Alpine node, and attach the first link to `eth2` and to `eth1` of its pod. -/
theorem wiring_differs :
    ((run quiet (renameBy keptOrder) twoEthernets).map fun topos => entriesOf topos 0) =
        some [("r2", "eth1"), ("r1", "eth2")] ∧
      ((run quiet (renameBy reversedOrder) twoEthernets).map fun topos => entriesOf topos 0) =
        some [("r2", "eth1"), ("r1", "eth1")] := by
  decide +kernel

end Kne.WiringOrder
