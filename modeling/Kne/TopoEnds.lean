import Kne.TopoWiring

/-!
Which link sets `load` accepts. An interface is taken for unconnected as long as its peer has no
name, and both ends of a link are looked at before either is written; so what gets through beside
the well-formed link sets are links from an interface to itself, at nodes that support links to
themselves, and links at an interface whose peer is a node without a name.
-/

namespace Kne.TopoEnds

open Kne.Checked Kne.TopoModel Kne.TopoWiring

/-- The ends of all links, by name. -/
def ends (ls : List Link) : List (String × String) :=
  ls.flatMap fun l => [(l.aNode, l.aInt), (l.zNode, l.zInt)]

/-- The interface is an end of the link, whose other end is at the node `peer`. -/
def EndAt (l : Link) (node int peer : String) : Prop :=
  node = l.aNode ∧ int = l.aInt ∧ peer = l.zNode ∨ node = l.zNode ∧ int = l.zInt ∧ peer = l.aNode

instance (l : Link) (node int peer : String) : Decidable (EndAt l node int peer) :=
  inferInstanceAs (Decidable (_ ∨ _))

/-- No link joins an interface to itself, and no end of a link whose other end is at a node
without a name is an end of a later link. -/
def WellFormed (ls : List Link) : Prop :=
  (∀ l ∈ ls, (l.aNode, l.aInt) ≠ (l.zNode, l.zInt)) ∧
  ∀ (i j : ℕ) (l l' : Link), i < j → ls[i]? = some l → ls[j]? = some l' →
    ∀ node int peer, EndAt l node int "" → ¬ EndAt l' node int peer

lemma mem_ends_iff {l : Link} {p : String × String} :
    p ∈ [(l.aNode, l.aInt), (l.zNode, l.zInt)] ↔ ∃ peer, EndAt l p.1 p.2 peer := by
  simp only [List.mem_cons, List.not_mem_nil, or_false, EndAt, Prod.ext_iff]
  constructor
  · rintro (⟨h1, h2⟩ | ⟨h1, h2⟩)
    · exact ⟨_, Or.inl ⟨h1, h2, rfl⟩⟩
    · exact ⟨_, Or.inr ⟨h1, h2, rfl⟩⟩
  · rintro ⟨peer, ⟨h1, h2, -⟩ | ⟨h1, h2, -⟩⟩
    · exact Or.inl ⟨h1, h2⟩
    · exact Or.inr ⟨h1, h2⟩

lemma nodup_ends_iff (ls : List Link) :
    (ends ls).Nodup ↔ (∀ l ∈ ls, (l.aNode, l.aInt) ≠ (l.zNode, l.zInt)) ∧
      ∀ (i j : ℕ) (l l' : Link), i < j → ls[i]? = some l → ls[j]? = some l' →
        ∀ node int peer peer', EndAt l node int peer → ¬ EndAt l' node int peer' := by
  unfold ends
  rw [List.nodup_flatMap, List.pairwise_iff_getElem]
  refine and_congr (by simp) ⟨fun h i j l l' hij hi hj node int peer peer' he he' => ?_,
    fun h i j hi hj hij p hp hp' => ?_⟩
  · obtain ⟨hlti, rfl⟩ := List.getElem?_eq_some_iff.mp hi
    obtain ⟨hltj, rfl⟩ := List.getElem?_eq_some_iff.mp hj
    exact h i j hlti hltj hij (a := (node, int)) (mem_ends_iff.mpr ⟨peer, he⟩)
      (mem_ends_iff.mpr ⟨peer', he'⟩)
  · obtain ⟨peer, he⟩ := mem_ends_iff.mp hp
    obtain ⟨peer', he'⟩ := mem_ends_iff.mp hp'
    exact h i j _ _ hij (List.getElem?_eq_getElem hi) (List.getElem?_eq_getElem hj) p.1 p.2 peer
      peer' he he'

lemma isEnd_iff {m : AList (fun _ : String => ℕ)} {n : ℕ} (hm : Names m n) {node : String} {i : ℕ}
    (hi : m.lookup node = some i) (l : Link) (k peer : String) :
    IsEnd m l i k peer ↔ EndAt l node k peer := by
  have hnode : ∀ name, m.lookup name = some i ↔ node = name := fun name =>
    ⟨fun h => hm.inj _ _ _ hi h, fun h => h ▸ hi⟩
  unfold IsEnd EndAt
  rw [hnode, hnode]

/-- An interface that is an end of two links was, at one of them, joined to a node without a
name. -/
lemma nameless_of_reused {t : Topology} {ns : List Node} (h : wire t = .ok ns) {i j : ℕ}
    {l l' : Link} (hij : i < j) (hi : t.links[i]? = some l) (hj : t.links[j]? = some l')
    {node int peer peer' : String} (he : EndAt l node int peer) (he' : EndAt l' node int peer') :
    ∃ (i' : ℕ) (l0 : Link), i' < j ∧ t.links[i']? = some l0 ∧ EndAt l0 node int "" := by
  have hm := names_places t
  obtain ⟨pre, post, hsplit, rfl⟩ := split_getElem? hj
  unfold wire at h
  rw [hsplit] at h hi
  rw [List.getElem?_append_left hij] at hi
  obtain ⟨ns1, ns2, hpre, hm1, hadd, -, -⟩ := addLinks_split hm h
  -- the place of the node
  obtain ⟨p, hp⟩ : ∃ p, (places t).lookup node = some p := by
    obtain ⟨a, z, ha, hz, -⟩ := hadd.ends
    rcases he' with ⟨rfl, -⟩ | ⟨rfl, -⟩
    · exact ⟨a, ha⟩
    · exact ⟨z, hz⟩
  have hiff := isEnd_iff hm hp
  have hfree := hadd.free p int peer' ((hiff l' int peer').mpr he')
  obtain ⟨i', l0, peer0, int0, hl0, hend0, v, hv, hpeer, -⟩ := last_writer hm hpre
    ⟨l, List.mem_of_getElem? hi, peer, (hiff l int peer).mpr he⟩
  have hempty : peer0 = "" := by
    by_contra hne
    exact hfree ⟨v, hv, by rw [hpeer]; exact hne⟩
  subst hempty
  obtain ⟨hlt, -⟩ := List.getElem?_eq_some_iff.mp hl0
  refine ⟨i', l0, hlt, ?_, (hiff l0 int "").mp hend0⟩
  rw [hsplit, List.getElem?_append_left hlt]
  exact hl0

lemma wire_of_load {w : World} {t : Topology} {nodes : AList (fun _ : String => Impl)}
    (h : load w t = .ok nodes) : ∃ ns, wire t = .ok ns := by
  obtain ⟨ns, hw, -⟩ := bind_ok_iff.mp h
  exact ⟨ns, hw⟩

/-- **The link sets `load` accepts.** When `load` returns without error, the ends of the links are
pairwise distinct just when no link joins an interface to itself and no interface whose peer is a
node without a name is used again. -/
theorem nodup_ends_of_load (w : World) (t : Topology) (nodes : AList (fun _ : String => Impl))
    (h : load w t = .ok nodes) : (ends t.links).Nodup ↔ WellFormed t.links := by
  obtain ⟨ns, hw⟩ := wire_of_load h
  rw [nodup_ends_iff]
  constructor
  · rintro ⟨hself, hdis⟩
    exact ⟨hself, fun i j l l' hij hi hj node int peer he =>
      hdis i j l l' hij hi hj node int "" peer he⟩
  · rintro ⟨hself, hname⟩
    refine ⟨hself, fun i j l l' hij hi hj node int peer peer' he he' => ?_⟩
    obtain ⟨i', l0, hlt, hl0, he0⟩ := nameless_of_reused hw hij hi hj he he'
    exact hname i' j l0 l' hlt hl0 hj node int peer' he0 he'

/-- A world in which the script is absent and the nodes are made by the constructor of the
Keysight package, which keeps the interfaces and supports links of a node to itself. -/
def keysight : World where
  order := keptOrder
  pidMax _ := none
  new _ n := match n.vendor with
    | .keysight => .ok { proto := n, backToBackLoop := true, topologySpecs := .ok [] }
    | _ => .error "node implementation not found for vendor"

/-- A node with links between its own ports, one of them from a port to itself. -/
def selfLink : Topology where
  nodes := [{ name := "ate", vendor := .keysight }]
  links := [⟨"ate", "eth1", "ate", "eth2"⟩, ⟨"ate", "eth3", "ate", "eth3"⟩]

theorem selfLink_not_wellFormed :
    (∃ nodes, load keysight selfLink = .ok nodes) ∧ ¬ WellFormed selfLink.links := by
  refine ⟨⟨_, rfl⟩, ?_⟩
  rw [← nodup_ends_of_load keysight selfLink _ rfl]
  decide

theorem self_link_accepted :
    ¬ ∀ w t nodes, NoPeers t → load w t = .ok nodes → (ends t.links).Nodup := by
  intro h
  exact absurd (h keysight selfLink _ (by decide) rfl) (by decide)

end Kne.TopoEnds
