import Kne.Checked
import Kne.TopoModel

/-!
What the loop over the links does to the interfaces. One turn writes the peers into the two ends
of its link, if neither has a peer, and touches nothing else; so an interface keeps what the last
link at it wrote, and a link is refused at an interface whose peer has a name.
-/

namespace Kne.TopoWiring

open Kne.Checked Kne.TopoModel

/-! ### Interfaces in place -/

@[simp] lemma length_setIface (ns : List Node) (i : ℕ) (k : String) (v : Interface) :
    (setIface ns i k v).length = ns.length := by simp [setIface]

@[simp] lemma names_setIface (ns : List Node) (i : ℕ) (k : String) (v : Interface) :
    (setIface ns i k v).map Node.name = ns.map Node.name := by
  refine List.ext_getElem? fun j => ?_
  rw [List.getElem?_map, List.getElem?_map, setIface, List.getElem?_modify]
  by_cases hj : i = j
  · cases ns[j]? <;> simp [hj]
  · simp [hj]

lemma ifaceAt_setIface {ns : List Node} {i : ℕ} (hi : i < ns.length) (k : String) (v : Interface)
    (j : ℕ) (l : String) :
    ifaceAt (setIface ns i k v) j l = if j = i ∧ l = k then some v else ifaceAt ns j l := by
  unfold ifaceAt setIface
  rw [List.getElem?_modify]
  by_cases hj : i = j
  · subst hj
    rw [List.getElem?_eq_getElem hi]
    by_cases hl : l = k
    · subst hl; simp
    · simp [hl, AList.lookup_insert_ne hl]
  · have hj' : ¬ j = i := fun h => hj h.symm
    simp [hj, hj']

/-- The interface a link finds or makes. -/
def base (ns : List Node) (i : ℕ) (k : String) : Interface :=
  (ifaceAt ns i k).getD { intName := k }

@[simp] lemma length_getOrCreate (ns : List Node) (i : ℕ) (k : String) :
    (getOrCreate ns i k).length = ns.length := by
  unfold getOrCreate; split <;> simp

@[simp] lemma names_getOrCreate (ns : List Node) (i : ℕ) (k : String) :
    (getOrCreate ns i k).map Node.name = ns.map Node.name := by
  unfold getOrCreate; split <;> simp

lemma ifaceAt_getOrCreate {ns : List Node} {i : ℕ} (hi : i < ns.length) (k : String) (j : ℕ)
    (l : String) :
    ifaceAt (getOrCreate ns i k) j l =
      if j = i ∧ l = k then some (base ns i k) else ifaceAt ns j l := by
  unfold getOrCreate base
  cases h : ifaceAt ns i k with
  | none => simp [ifaceAt_setIface hi]
  | some v =>
    by_cases hjl : j = i ∧ l = k
    · obtain ⟨rfl, rfl⟩ := hjl
      simp [h]
    · simp [hjl]

lemma connected_getOrCreate {ns : List Node} {i : ℕ} (hi : i < ns.length) (k : String) (j : ℕ)
    (l : String) : connected (getOrCreate ns i k) j l ↔ connected ns j l := by
  unfold connected
  rw [ifaceAt_getOrCreate hi]
  by_cases hjl : j = i ∧ l = k
  · obtain ⟨rfl, rfl⟩ := hjl
    unfold base
    cases h : ifaceAt ns j l <;> simp
  · simp [hjl]

/-- The interface holds this peer. -/
def Holds (ns : List Node) (i : ℕ) (k peerName peerIntName : String) (uid : ℤ) : Prop :=
  ∃ v, ifaceAt ns i k = some v ∧
    v.peerName = peerName ∧ v.peerIntName = peerIntName ∧ v.uid = uid

instance (ns : List Node) (i : ℕ) (k peerName peerIntName : String) (uid : ℤ) :
    Decidable (Holds ns i k peerName peerIntName uid) :=
  match h : ifaceAt ns i k with
  | none => .isFalse fun ⟨v, hv, _⟩ => by simp [h] at hv
  | some v => decidable_of_iff
      (v.peerName = peerName ∧ v.peerIntName = peerIntName ∧ v.uid = uid) (by simp [Holds, h])

@[simp] lemma length_setPeer (ns : List Node) (i : ℕ) (k peerName peerIntName : String) (uid : ℕ) :
    (setPeer ns i k peerName peerIntName uid).length = ns.length := by
  unfold setPeer; split <;> simp

@[simp] lemma names_setPeer (ns : List Node) (i : ℕ) (k peerName peerIntName : String) (uid : ℕ) :
    (setPeer ns i k peerName peerIntName uid).map Node.name = ns.map Node.name := by
  unfold setPeer; split <;> simp

lemma setPeer_ne {ns : List Node} {i j : ℕ} {k l : String} (hi : i < ns.length)
    (hne : ¬ (j = i ∧ l = k)) (peerName peerIntName : String) (uid : ℕ) :
    ifaceAt (setPeer ns i k peerName peerIntName uid) j l = ifaceAt ns j l := by
  unfold setPeer
  split
  · rw [ifaceAt_setIface hi, if_neg hne]
  · rfl

lemma setPeer_holds {ns : List Node} {i : ℕ} {k : String} (hi : i < ns.length)
    (hk : ∃ v, ifaceAt ns i k = some v) (peerName peerIntName : String) (uid : ℕ) :
    Holds (setPeer ns i k peerName peerIntName uid) i k peerName peerIntName uid := by
  obtain ⟨v, hv⟩ := hk
  unfold setPeer
  rw [hv]
  exact ⟨_, by rw [ifaceAt_setIface hi, if_pos ⟨rfl, rfl⟩], rfl, rfl, rfl⟩

/-! ### One link -/

lemma nMap_append (names : List String) (n : String) :
    nMap (names ++ [n]) = (nMap names).insert n names.length := by
  simp [nMap, List.zipIdx_append]

lemma nMap_lookup {names : List String} {n : String} {i : ℕ}
    (h : (nMap names).lookup n = some i) : names[i]? = some n := by
  induction names using List.reverseRecOn with
  | nil => simp [nMap] at h
  | append_singleton names n' ih =>
    rw [nMap_append] at h
    by_cases hn : n = n'
    · subst hn
      rw [AList.lookup_insert] at h
      cases h
      simp
    · rw [AList.lookup_insert_ne hn] at h
      have := ih h
      obtain ⟨hlt, -⟩ := List.getElem?_eq_some_iff.mp this
      rw [List.getElem?_append_left hlt]
      exact this

/-- A map from names to places of a list of `n` nodes, with one name for each place. -/
structure Names (m : AList (fun _ : String => ℕ)) (n : ℕ) : Prop where
  lt : ∀ name i, m.lookup name = some i → i < n
  inj : ∀ name name' i, m.lookup name = some i → m.lookup name' = some i → name = name'

lemma names_nMap (names : List String) : Names (nMap names) names.length where
  lt name i h := (List.getElem?_eq_some_iff.mp (nMap_lookup h)).1
  inj name name' i h h' := by
    have h1 := nMap_lookup h
    rw [nMap_lookup h'] at h1
    exact (Option.some.inj h1).symm

/-- The interface is an end of the link, whose other end is at this node. -/
def IsEnd (m : AList (fun _ : String => ℕ)) (l : Link) (i : ℕ) (k peer : String) : Prop :=
  m.lookup l.aNode = some i ∧ k = l.aInt ∧ peer = l.zNode ∨
    m.lookup l.zNode = some i ∧ k = l.zInt ∧ peer = l.aNode

/-- What a turn of the loop does. -/
structure Added (m : AList (fun _ : String => ℕ)) (ns : List Node) (uid : ℕ) (l : Link)
    (ns' : List Node) : Prop where
  names : ns'.map Node.name = ns.map Node.name
  ends : ∃ a z, m.lookup l.aNode = some a ∧ m.lookup l.zNode = some z ∧
    Holds ns' a l.aInt l.zNode l.zInt uid ∧ Holds ns' z l.zInt l.aNode l.aInt uid
  free : ∀ i k peer, IsEnd m l i k peer → ¬ connected ns i k
  rest : ∀ i k, (∀ peer, ¬ IsEnd m l i k peer) → ifaceAt ns' i k = ifaceAt ns i k

lemma Added.length {m : AList (fun _ : String => ℕ)} {ns ns' : List Node} {uid : ℕ} {l : Link}
    (h : Added m ns uid l ns') : ns'.length = ns.length := by
  simpa using congrArg List.length h.names

lemma findNode_ok {m : AList (fun _ : String => ℕ)} {name : String} {i : ℕ}
    (h : findNode m name = .ok i) : m.lookup name = some i := by
  unfold findNode at h
  cases hm : m.lookup name <;> simp_all

lemma addLink_writes {m : AList (fun _ : String => ℕ)} {ns ns' : List Node} {uid : ℕ} {l : Link}
    (h : addLink m ns uid l = .ok ns') :
    ∃ a z ns2, m.lookup l.aNode = some a ∧ m.lookup l.zNode = some z ∧
      ns2 = getOrCreate (getOrCreate ns a l.aInt) z l.zInt ∧
      ¬ connected ns2 a l.aInt ∧ ¬ connected ns2 z l.zInt ∧
      ns' = setPeer (setPeer ns2 a l.aInt l.zNode l.zInt uid) z l.zInt l.aNode l.aInt uid := by
  unfold addLink at h
  obtain ⟨a, ha, h⟩ := bind_ok_iff.mp h
  obtain ⟨z, hz, h⟩ := bind_ok_iff.mp h
  set ns2 := getOrCreate (getOrCreate ns a l.aInt) z l.zInt
  refine ⟨a, z, ns2, findNode_ok ha, findNode_ok hz, rfl, ?_⟩
  by_cases hca : connected ns2 a l.aInt
  · simp [hca, bind, Except.bind, throw, throwThe, MonadExceptOf.throw] at h
  by_cases hcz : connected ns2 z l.zInt
  · simp [hca, hcz, bind, Except.bind, throw, throwThe, MonadExceptOf.throw] at h
  refine ⟨hca, hcz, ?_⟩
  simpa [hca, hcz, pure, Except.pure] using h.symm

lemma addLink_ok {m : AList (fun _ : String => ℕ)} {ns ns' : List Node} {uid : ℕ} {l : Link}
    (hm : Names m ns.length) (h : addLink m ns uid l = .ok ns') : Added m ns uid l ns' := by
  obtain ⟨a, z, ns2, ha', hz', hns2, hca, hcz, rfl⟩ := addLink_writes h
  have hla := hm.lt _ _ ha'
  have hlz := hm.lt _ _ hz'
  set ns1 := getOrCreate ns a l.aInt with hns1
  have hl1 : z < ns1.length := by simpa [hns1] using hlz
  have hcon : ∀ i k, connected ns2 i k ↔ connected ns i k := fun i k => by
    rw [hns2, connected_getOrCreate hl1, hns1, connected_getOrCreate hla]
  have hl2 : a < ns2.length ∧ z < ns2.length := by simpa [hns2, hns1] using ⟨hla, hlz⟩
  have hza : ∃ v, ifaceAt ns2 a l.aInt = some v := by
    rw [hns2, ifaceAt_getOrCreate hl1, hns1, ifaceAt_getOrCreate hla]
    split <;> simp
  have hzz : ∃ v, ifaceAt ns2 z l.zInt = some v := by
    rw [hns2, ifaceAt_getOrCreate hl1]
    simp
  set ns3 := setPeer ns2 a l.aInt l.zNode l.zInt uid with hns3
  have hl3 : z < ns3.length := by simpa [hns3] using hl2.2
  have hk3 : ∃ v, ifaceAt ns3 z l.zInt = some v := by
    by_cases hend : z = a ∧ l.zInt = l.aInt
    · obtain ⟨rfl, hint⟩ := hend
      obtain ⟨v, hv, -⟩ := setPeer_holds hl2.1 hza l.zNode l.zInt uid
      exact ⟨v, by rw [hint]; exact hv⟩
    · rw [hns3, setPeer_ne hl2.1 hend]
      exact hzz
  have hholds := setPeer_holds hl3 hk3 l.aNode l.aInt uid
  refine ⟨by simp [hns3, hns2, hns1], ⟨a, z, ha', hz', ?_, hholds⟩, ?_, ?_⟩
  · -- the second write goes to the other end, or writes the same peer
    by_cases hend : a = z ∧ l.aInt = l.zInt
    · obtain ⟨rfl, hint⟩ := hend
      have hname := hm.inj _ _ _ ha' hz'
      simpa [hint, hname] using hholds
    · unfold Holds
      rw [setPeer_ne hl3 hend]
      exact setPeer_holds hl2.1 hza _ _ _
  · rintro i k peer (⟨hi, rfl, -⟩ | ⟨hi, rfl, -⟩)
    · rw [ha'] at hi
      cases hi
      rwa [← hcon]
    · rw [hz'] at hi
      cases hi
      rwa [← hcon]
  · intro i k hne
    have hnea : ¬ (i = a ∧ k = l.aInt) := by
      rintro ⟨rfl, rfl⟩
      exact hne _ (Or.inl ⟨ha', rfl, rfl⟩)
    have hnez : ¬ (i = z ∧ k = l.zInt) := by
      rintro ⟨rfl, rfl⟩
      exact hne _ (Or.inr ⟨hz', rfl, rfl⟩)
    rw [setPeer_ne hl3 hnez, hns3, setPeer_ne hl2.1 hnea, hns2, ifaceAt_getOrCreate hl1,
      if_neg hnez, hns1, ifaceAt_getOrCreate hla, if_neg hnea]

/-! ### All links -/

lemma addLinks_cons_ok {m : AList (fun _ : String => ℕ)} {ns ns' : List Node} {uid : ℕ} {l : Link}
    {ls : List Link} (h : addLinks m ns uid (l :: ls) = .ok ns') :
    ∃ ns1, addLink m ns uid l = .ok ns1 ∧ addLinks m ns1 (uid + 1) ls = .ok ns' :=
  bind_ok_iff.mp h

lemma addLinks_names {m : AList (fun _ : String => ℕ)} {ls : List Link} {ns ns' : List Node}
    {uid : ℕ} (hm : Names m ns.length) (h : addLinks m ns uid ls = .ok ns') :
    ns'.map Node.name = ns.map Node.name := by
  induction ls generalizing ns uid with
  | nil => cases h; rfl
  | cons l ls ih =>
    obtain ⟨ns1, h1, hrest⟩ := addLinks_cons_ok h
    have hadd := addLink_ok hm h1
    rw [ih (hadd.length ▸ hm) hrest, hadd.names]

lemma addLinks_split {m : AList (fun _ : String => ℕ)} {pre post : List Link} {l : Link}
    {ns ns' : List Node} {uid : ℕ} (hm : Names m ns.length)
    (h : addLinks m ns uid (pre ++ l :: post) = .ok ns') :
    ∃ ns1 ns2, addLinks m ns uid pre = .ok ns1 ∧ Names m ns1.length ∧
      Added m ns1 (uid + pre.length) l ns2 ∧ Names m ns2.length ∧
      addLinks m ns2 (uid + pre.length + 1) post = .ok ns' := by
  induction pre generalizing ns uid with
  | nil =>
    obtain ⟨ns2, h2, hrest⟩ := addLinks_cons_ok h
    have hadd := addLink_ok hm h2
    exact ⟨ns, ns2, rfl, hm, hadd, hadd.length ▸ hm, hrest⟩
  | cons l' pre ih =>
    obtain ⟨ns0, h0, hrest⟩ := addLinks_cons_ok h
    have hadd := addLink_ok hm h0
    obtain ⟨ns1, ns2, h1, hm1, hadd1, hm2, hpost⟩ := ih (hadd.length ▸ hm) hrest
    refine ⟨ns1, ns2, by simpa [addLinks, h0, bind, Except.bind] using h1, hm1, ?_, hm2, ?_⟩
    · rw [List.length_cons, show uid + (pre.length + 1) = uid + 1 + pre.length by omega]
      exact hadd1
    · rw [List.length_cons, show uid + (pre.length + 1) + 1 = uid + 1 + pre.length + 1 by omega]
      exact hpost

lemma addLinks_rest {m : AList (fun _ : String => ℕ)} {ls : List Link} {ns ns' : List Node}
    {uid : ℕ} (hm : Names m ns.length) (h : addLinks m ns uid ls = .ok ns') {i : ℕ} {k : String}
    (hne : ∀ l ∈ ls, ∀ peer, ¬ IsEnd m l i k peer) : ifaceAt ns' i k = ifaceAt ns i k := by
  induction ls generalizing ns uid with
  | nil => cases h; rfl
  | cons l ls ih =>
    obtain ⟨ns1, h1, hrest⟩ := addLinks_cons_ok h
    have hadd := addLink_ok hm h1
    rw [ih (hadd.length ▸ hm) hrest fun l' hl' => hne l' (List.mem_cons_of_mem l hl')]
    exact hadd.rest i k (hne l List.mem_cons_self)

lemma addLinks_free {m : AList (fun _ : String => ℕ)} {ls : List Link} {ns ns' : List Node}
    {uid : ℕ} (hm : Names m ns.length) (h : addLinks m ns uid ls = .ok ns') {i : ℕ} {k : String}
    (hc : connected ns i k) : ∀ l ∈ ls, ∀ peer, ¬ IsEnd m l i k peer := by
  induction ls generalizing ns uid with
  | nil => simp
  | cons l ls ih =>
    obtain ⟨ns1, h1, hrest⟩ := addLinks_cons_ok h
    have hadd := addLink_ok hm h1
    have hl : ∀ peer, ¬ IsEnd m l i k peer := fun peer hend => hadd.free i k peer hend hc
    have hc1 : connected ns1 i k := by
      unfold connected
      rw [hadd.rest i k hl]
      exact hc
    intro l' hl'
    rcases List.mem_cons.mp hl' with rfl | hl'
    · exact hl
    · exact ih (hadd.length ▸ hm) hrest hc1 l' hl'

lemma Added.holds {m : AList (fun _ : String => ℕ)} {ns ns' : List Node} {uid : ℕ} {l : Link}
    (h : Added m ns uid l ns') {i : ℕ} {k peer : String} (hend : IsEnd m l i k peer) :
    ∃ int, Holds ns' i k peer int uid := by
  obtain ⟨a, z, ha, hz, hha, hhz⟩ := h.ends
  rcases hend with ⟨hi, rfl, rfl⟩ | ⟨hi, rfl, rfl⟩
  · rw [ha] at hi
    cases hi
    exact ⟨_, hha⟩
  · rw [hz] at hi
    cases hi
    exact ⟨_, hhz⟩

lemma named_end_kept {m : AList (fun _ : String => ℕ)} {ns ns1 ns' : List Node} {uid uid' : ℕ}
    {l : Link} {post : List Link} (hadd : Added m ns uid l ns1) (hm : Names m ns1.length)
    (h : addLinks m ns1 uid' post = .ok ns') {i : ℕ} {k peer : String}
    (hend : IsEnd m l i k peer) (hpeer : peer ≠ "") :
    (∀ l' ∈ post, ∀ peer', ¬ IsEnd m l' i k peer') ∧ ifaceAt ns' i k = ifaceAt ns1 i k := by
  obtain ⟨int, v, hv, hp, -⟩ := hadd.holds hend
  have hfree := addLinks_free hm h ⟨v, hv, by rw [hp]; exact hpeer⟩
  exact ⟨hfree, addLinks_rest hm h hfree⟩

lemma split_getElem? {α : Type*} {ls : List α} {i : ℕ} {l : α} (h : ls[i]? = some l) :
    ∃ pre post, ls = pre ++ l :: post ∧ pre.length = i := by
  obtain ⟨hlt, rfl⟩ := List.getElem?_eq_some_iff.mp h
  refine ⟨ls.take i, ls.drop (i + 1), ?_, List.length_take_of_le hlt.le⟩
  rw [List.getElem_cons_drop, List.take_append_drop]

lemma last_writer {m : AList (fun _ : String => ℕ)} {ls : List Link} {ns ns' : List Node}
    {uid : ℕ} (hm : Names m ns.length) (h : addLinks m ns uid ls = .ok ns') {i : ℕ} {k : String}
    (hend : ∃ l ∈ ls, ∃ peer, IsEnd m l i k peer) :
    ∃ (j : ℕ) (l : Link) (peer int : String), ls[j]? = some l ∧ IsEnd m l i k peer ∧
      Holds ns' i k peer int ((uid + j : ℕ) : ℤ) := by
  induction ls generalizing ns uid with
  | nil => simp at hend
  | cons l ls ih =>
    obtain ⟨ns1, h1, hrest⟩ := addLinks_cons_ok h
    have hadd := addLink_ok hm h1
    have hm1 : Names m ns1.length := hadd.length ▸ hm
    by_cases htail : ∃ l ∈ ls, ∃ peer, IsEnd m l i k peer
    · obtain ⟨j, l', peer, int, hj, hend', hh⟩ := ih hm1 hrest htail
      refine ⟨j + 1, l', peer, int, hj, hend', ?_⟩
      rwa [show uid + (j + 1) = uid + 1 + j by omega]
    · obtain ⟨l', hl', peer, hend'⟩ := hend
      rcases List.mem_cons.mp hl' with rfl | hl'
      · obtain ⟨int, hh⟩ := hadd.holds hend'
        refine ⟨0, l', peer, int, rfl, hend', ?_⟩
        unfold Holds
        rw [addLinks_rest hm1 hrest fun l hl peer hp => htail ⟨l, hl, peer, hp⟩]
        exact hh
      · exact absurd ⟨l', hl', peer, hend'⟩ htail

/-! ### The wired topology -/

/-- The interfaces have no peers yet. -/
def NoPeers (t : Topology) : Prop :=
  ∀ n ∈ t.nodes, ∀ e ∈ n.interfaces.entries, e.2.peerName = ""

instance (t : Topology) : Decidable (NoPeers t) :=
  inferInstanceAs (Decidable (∀ n ∈ t.nodes, ∀ e ∈ n.interfaces.entries, e.2.peerName = ""))

/-- The places of the names of a topology. -/
abbrev places (t : Topology) : AList (fun _ : String => ℕ) := nMap (t.nodes.map Node.name)

lemma names_places (t : Topology) : Names (places t) (t.nodes.map fillIntNames).length := by
  have := names_nMap (t.nodes.map Node.name)
  simpa using this

lemma ifaceAt_fillIntNames (ns : List Node) (i : ℕ) (k : String) :
    ifaceAt (ns.map fillIntNames) i k = (ifaceAt ns i k).map (fillIntName k) := by
  unfold ifaceAt
  rw [List.getElem?_map]
  cases ns[i]? with
  | none => rfl
  | some n => exact List.dlookup_map₂ k

lemma fill_peerName {t : Topology} (hp : NoPeers t) {i : ℕ} {k : String} {v : Interface}
    (h : ifaceAt (t.nodes.map fillIntNames) i k = some v) : v.peerName = "" := by
  rw [ifaceAt_fillIntNames] at h
  obtain ⟨v', hv', rfl⟩ := Option.map_eq_some_iff.mp h
  obtain ⟨n, hn, hl⟩ := Option.bind_eq_some_iff.mp hv'
  have := hp n (List.mem_of_getElem? hn) ⟨k, v'⟩ (AList.mem_lookup_iff.mp hl)
  unfold fillIntName
  split <;> exact this

lemma name_ne_of_lookup {t : Topology} (hnames : ∀ n ∈ t.nodes, n.name ≠ "") {name : String}
    {i : ℕ} (h : (places t).lookup name = some i) : name ≠ "" := by
  have := nMap_lookup h
  rw [List.getElem?_map] at this
  obtain ⟨n, hn, rfl⟩ := Option.map_eq_some_iff.mp this
  exact hnames n (List.mem_of_getElem? hn)

lemma IsEnd.peer_ne {t : Topology} (hnames : ∀ n ∈ t.nodes, n.name ≠ "") {ns ns' : List Node}
    {uid : ℕ} {l : Link} (hadd : Added (places t) ns uid l ns') {i : ℕ} {k peer : String}
    (hend : IsEnd (places t) l i k peer) : peer ≠ "" := by
  obtain ⟨a, z, ha, hz, -⟩ := hadd.ends
  rcases hend with ⟨-, -, rfl⟩ | ⟨-, -, rfl⟩
  · exact name_ne_of_lookup hnames hz
  · exact name_ne_of_lookup hnames ha

lemma link_wired {t : Topology} (hnames : ∀ n ∈ t.nodes, n.name ≠ "") {ns : List Node}
    (h : wire t = .ok ns) {i : ℕ} {l : Link} (hl : t.links[i]? = some l) :
    ∃ a z, (places t).lookup l.aNode = some a ∧ (places t).lookup l.zNode = some z ∧
      Holds ns a l.aInt l.zNode l.zInt i ∧ Holds ns z l.zInt l.aNode l.aInt i := by
  obtain ⟨pre, post, hsplit, rfl⟩ := split_getElem? hl
  unfold wire at h
  rw [hsplit] at h
  obtain ⟨ns1, ns2, -, -, hadd, hm2, hpost⟩ := addLinks_split (names_places t) h
  obtain ⟨a, z, ha, hz, hha, hhz⟩ := hadd.ends
  have hea : IsEnd (places t) l a l.aInt l.zNode := Or.inl ⟨ha, rfl, rfl⟩
  have hez : IsEnd (places t) l z l.zInt l.aNode := Or.inr ⟨hz, rfl, rfl⟩
  have hka := (named_end_kept hadd hm2 hpost hea (hea.peer_ne hnames hadd)).2
  have hkz := (named_end_kept hadd hm2 hpost hez (hez.peer_ne hnames hadd)).2
  refine ⟨a, z, ha, hz, ?_, ?_⟩
  · unfold Holds
    rw [hka]
    simpa [Holds] using hha
  · unfold Holds
    rw [hkz]
    simpa [Holds] using hhz

/-- **Every link is wired.** At the end of the loop over the links both ends of the `i`-th link
exist, name each other and carry the uid `i`; an interface that is no end of a link has no peer;
and no end of a link is an end of a later one. -/
theorem links_wired (t : Topology) (hnames : ∀ n ∈ t.nodes, n.name ≠ "") (hpeers : NoPeers t)
    (ns : List Node) (h : wire t = .ok ns) :
    (∀ (i : ℕ) (l : Link), t.links[i]? = some l → ∃ a z,
      (places t).lookup l.aNode = some a ∧ (places t).lookup l.zNode = some z ∧
      Holds ns a l.aInt l.zNode l.zInt i ∧ Holds ns z l.zInt l.aNode l.aInt i) ∧
    (∀ j k v, ifaceAt ns j k = some v → (∀ l ∈ t.links, ∀ peer, ¬ IsEnd (places t) l j k peer) →
      v.peerName = "") ∧
    ∀ (i i' : ℕ) (l l' : Link), i < i' → t.links[i]? = some l → t.links[i']? = some l' →
      ∀ j k peer peer', IsEnd (places t) l j k peer → ¬ IsEnd (places t) l' j k peer' := by
  refine ⟨fun i l hl => link_wired hnames h hl, fun j k v hv hne => ?_,
    fun i i' l l' hlt hl hl' j k peer peer' hend => ?_⟩
  · rw [addLinks_rest (names_places t) h hne] at hv
    exact fill_peerName hpeers hv
  · obtain ⟨pre, post, hsplit, rfl⟩ := split_getElem? hl
    unfold wire at h
    rw [hsplit] at h
    obtain ⟨ns1, ns2, -, -, hadd, hm2, hpost⟩ := addLinks_split (names_places t) h
    have hmem : l' ∈ post := by
      rw [hsplit, List.getElem?_append_right hlt.le] at hl'
      obtain ⟨d, hd⟩ : ∃ d, i' - pre.length = d + 1 := ⟨i' - pre.length - 1, by omega⟩
      rw [hd, List.getElem?_cons_succ] at hl'
      exact List.mem_of_getElem? hl'
    exact (named_end_kept hadd hm2 hpost hend (hend.peer_ne hnames hadd)).1 l' hmem peer'

/-- Two nodes with a link between them and a link from the second one to itself. -/
def twoNodes : Topology where
  nodes := [{ name := "r1" },
    { name := "r2", interfaces := AList.singleton "eth2" { mtu := 9000 } }]
  links := [⟨"r1", "eth1", "r2", "eth1"⟩, ⟨"r2", "eth2", "r2", "eth3"⟩]

theorem twoNodes_wired :
    ∃ ns a z, wire twoNodes = .ok ns ∧ (places twoNodes).lookup "r2" = some a ∧
      (places twoNodes).lookup "r2" = some z ∧ Holds ns a "eth2" "r2" "eth3" 1 ∧
      Holds ns z "eth3" "r2" "eth2" 1 := by
  obtain ⟨a, z, h⟩ := (links_wired twoNodes (by decide) (by decide) _ rfl).1 1
    ⟨"r2", "eth2", "r2", "eth3"⟩ rfl
  exact ⟨_, a, z, rfl, h⟩

end Kne.TopoWiring
