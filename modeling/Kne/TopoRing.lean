import Kne.NodeRename
import Kne.Texts
import Kne.TopoNames

/-!
Rings (`generateRingFn` in `cmd/topology/topology.go`). The first node of a topology is copied, and
each copy gets some links to the next one; the last one is joined to the first. The interfaces are
numbered, first those to the next node and then those to the previous one, so that no interface is
the end of two links. With two nodes the next and the previous one are the same.
-/

namespace Kne.TopoRing

open Kne.Checked Kne.NodeRename Kne.Texts Kne.TopoModel Kne.TopoWiring Kne.TopoEnds Kne.TopoNames

/-! ### The generator -/

def ringName (base : String) (i : ℕ) : String := base ++ "-" ++ toString i

/-- The link that is added in the turn for `i` and `j`. -/
def ringLink (base : String) (count links i j : ℕ) : Link where
  aNode := ringName base i
  aInt := eth j
  zNode := ringName base ((i + 1) % count)
  zInt := eth (j + links)

/-- The topology that is written. -/
def ring (name : String) (baseNode : Node) (count links : ℕ) : Topology where
  name := name ++ "-ring"
  nodes := (List.range count).map fun i =>
    { name := ringName baseNode.name i, vendor := baseNode.vendor }
  links := (List.range count).flatMap fun i =>
    (List.range' 1 links).map fun j => ringLink baseNode.name count links i j

def NumError.text : NumError → String
  | .malformed => "invalid syntax"
  | .outOfRange => "value out of range"

/-- An argument that is a number. -/
def intArg (use what arg : String) : Except String Int64 :=
  match atoi arg.toList with
  | (n, none) => .ok n
  | (_, some err) =>
    .error (use ++ ": invalid " ++ what ++ ": strconv.Atoi: parsing " ++ arg.quote ++ ": " ++
      NumError.text err)

/-- The loops for a topology that has been loaded. -/
def ringOf (use : String) (topopb : Topology) (count links : ℕ) : Except String Topology :=
  match topopb.nodes with
  | [] => .error (use ++ ": no nodes in topology")
  | baseNode :: _ => .ok (ring topopb.name baseNode count links)

/-- `generateRingFn` up to the file that it writes. The argument `load` is `topo.Load`. -/
def generateRingFn (use : String) (load : String → Except String Topology) :
    List String → Except String Topology
  | [file, countArg, linksArg] => do
    let links ← intArg use "links" linksArg
    if links ≤ 0 then throw (use ++ ": links must be positive")
    let count ← intArg use "count" countArg
    if count ≤ 1 then throw (use ++ ": count must be greater than 1")
    let topopb ← (load file).mapError fun err => use ++ ": " ++ err
    ringOf use topopb count.toInt.toNat links.toInt.toNat
  | _ => .error (use ++ ": invalid args")

/-! ### Links that are accepted -/

section Accepts

variable {m : AList (fun _ : String => ℕ)} {ns : List Node} {l : Link} {ls : List Link} (uid : ℕ)

lemma exists_addLink {a z : ℕ} (hm : Names m ns.length) (ha : m.lookup l.aNode = some a)
    (hz : m.lookup l.zNode = some z) (hfa : ¬ connected ns a l.aInt)
    (hfz : ¬ connected ns z l.zInt) : ∃ ns', addLink m ns uid l = .ok ns' := by
  have hla := hm.lt _ _ ha
  have hlz : z < (getOrCreate ns a l.aInt).length := by
    rw [length_getOrCreate]
    exact hm.lt _ _ hz
  let ns2 := getOrCreate (getOrCreate ns a l.aInt) z l.zInt
  have hcon : ∀ i k, connected ns2 i k ↔ connected ns i k := by
    intro i k
    rw [connected_getOrCreate hlz, connected_getOrCreate hla]
  have hca : ¬ connected ns2 a l.aInt := mt (hcon a l.aInt).mp hfa
  have hcz : ¬ connected ns2 z l.zInt := mt (hcon z l.zInt).mp hfz
  refine ⟨setPeer (setPeer ns2 a l.aInt l.zNode l.zInt uid) z l.zInt l.aNode l.aInt uid, ?_⟩
  unfold addLink
  rw [findNode, ha]
  simp only [findNode, hz, bind, Except.bind, pure, Except.pure]
  rw [if_neg hca, if_neg hcz]

/-- **Links with distinct ends are accepted**, if their nodes are there and no end has a peer. -/
lemma exists_addLinks (hm : Names m ns.length)
    (hnodes : ∀ l ∈ ls, ∃ a z, m.lookup l.aNode = some a ∧ m.lookup l.zNode = some z)
    (hends : (ends ls).Nodup)
    (hfree : ∀ p ∈ ends ls, ∀ i, m.lookup p.1 = some i → ¬ connected ns i p.2) :
    ∃ ns', addLinks m ns uid ls = .ok ns' := by
  induction ls generalizing ns uid with
  | nil => exact ⟨ns, rfl⟩
  | cons l ls ih =>
    have hcons : ends (l :: ls) = [(l.aNode, l.aInt), (l.zNode, l.zInt)] ++ ends ls := rfl
    rw [hcons] at hends hfree
    obtain ⟨a, z, ha, hz⟩ := hnodes l List.mem_cons_self
    obtain ⟨ns1, h1⟩ := exists_addLink uid hm ha hz
      (hfree (l.aNode, l.aInt) (by simp) a ha) (hfree (l.zNode, l.zInt) (by simp) z hz)
    have hadd := addLink_ok hm h1
    have hrest := ih (uid + 1) (hadd.length ▸ hm)
      (fun l' hl' => hnodes l' (List.mem_cons_of_mem l hl')) (List.nodup_append.mp hends).2.1 ?_
    · obtain ⟨ns', h'⟩ := hrest
      exact ⟨ns', bind_ok_iff.mpr ⟨ns1, h1, h'⟩⟩
    · -- the ends of the other links are not touched
      intro p hp i hi
      have hnot : ∀ peer, ¬ IsEnd m l i p.2 peer := by
        intro peer hend
        have hmem := mem_ends_iff.mpr ⟨peer, (isEnd_iff hm hi l p.2 peer).mp hend⟩
        exact (List.nodup_append.mp hends).2.2 p hmem p hp rfl
      unfold connected
      rw [hadd.rest i p.2 hnot]
      exact hfree p (List.mem_append_right _ hp) i hi

end Accepts

/-! ### The links of a ring -/

lemma div_mod_turn (i : ℕ) {j links : ℕ} (hj : j < links) :
    (i * links + j) / links = i ∧ (i * links + j) % links = j := by
  have hlinks : 0 < links := Nat.zero_lt_of_lt hj
  constructor
  · rw [Nat.mul_comm, Nat.mul_add_div hlinks, Nat.div_eq_of_lt hj, Nat.add_zero]
  · rw [Nat.mul_comm, Nat.mul_add_mod, Nat.mod_eq_of_lt hj]

lemma flatMap_range_map {α : Type*} (f : ℕ → ℕ → α) (count links : ℕ) :
    ((List.range count).flatMap fun i => (List.range' 1 links).map (f i)) =
      (List.range (count * links)).map fun u => f (u / links) (u % links + 1) := by
  induction count with
  | zero => simp
  | succ count ih =>
    rw [List.range_succ, List.flatMap_append, ih, Nat.succ_mul, List.range_add, List.map_append]
    congr 1
    rw [List.flatMap_singleton, List.map_map, List.range'_eq_map_range, List.map_map]
    refine List.map_congr_left fun j hj => ?_
    obtain ⟨hdiv, hmod⟩ := div_mod_turn count (List.mem_range.mp hj)
    rw [Function.comp_apply, Function.comp_apply, hdiv, hmod, Nat.add_comm]

lemma ringName_injective (base : String) : Function.Injective (ringName base) := by
  intro i j h
  have hrepr : i.repr = j.repr := (String.append_right_inj (base ++ "-")).mp h
  exact Nat.repr_injective hrepr

lemma ringName_ne_empty (base : String) (i : ℕ) : ringName base i ≠ "" := by
  intro h
  have hlen := congrArg String.length h
  simp [ringName, String.length_append] at hlen

lemma next_inj {count i j : ℕ} (hi : i < count) (hj : j < count)
    (h : (i + 1) % count = (j + 1) % count) : i = j := by
  have hmod : i ≡ j [MOD count] := Nat.ModEq.add_right_cancel' 1 h
  exact hmod.eq_of_lt_of_lt hi hj

lemma next_prev {count i : ℕ} (hi : i < count) : ((i + count - 1) % count + 1) % count = i := by
  rw [Nat.mod_add_mod, Nat.sub_add_cancel (by omega), Nat.add_mod_right, Nat.mod_eq_of_lt hi]

section Ring

variable (name : String) (baseNode : Node) (count links : ℕ)

/-- The link with the uid `u`. -/
def linkAt (u : ℕ) : Link := ringLink baseNode.name count links (u / links) (u % links + 1)

lemma ring_links : (ring name baseNode count links).links =
    (List.range (count * links)).map (linkAt baseNode count links) :=
  flatMap_range_map _ count links

lemma length_ring_links : (ring name baseNode count links).links.length = count * links := by
  simp [ring_links]

lemma ring_names : (ring name baseNode count links).nodes.map Node.name =
    (List.range count).map (ringName baseNode.name) := by
  simp [ring, Function.comp_def]

lemma nodup_ring_names : ((ring name baseNode count links).nodes.map Node.name).Nodup := by
  rw [ring_names]
  exact List.nodup_range.map (ringName_injective _)

variable {count}

lemma places_ring {i : ℕ} (hi : i < count) :
    (places (ring name baseNode count links)).lookup (ringName baseNode.name i) = some i := by
  refine nMap_lookup_of_nodup (nodup_ring_names name baseNode count links) ?_
  rw [ring_names]
  simp [hi]

lemma getElem?_ring_links {u : ℕ} (hu : u < count * links) :
    (ring name baseNode count links).links[u]? = some (linkAt baseNode count links u) := by
  rw [ring_links]
  simp [hu]

lemma turn_lt {u : ℕ} (hu : u < count * links) :
    u / links < count ∧ u % links < links ∧ (u / links + 1) % count < count := by
  have hlinks : 0 < links := Nat.pos_of_ne_zero fun h => by simp [h] at hu
  have hdiv : u / links < count := Nat.div_lt_of_lt_mul (by rwa [Nat.mul_comm])
  exact ⟨hdiv, Nat.mod_lt _ hlinks, Nat.mod_lt _ (Nat.zero_lt_of_lt hdiv)⟩

lemma eq_of_turn {u u' : ℕ} (hdiv : u / links = u' / links) (hmod : u % links = u' % links) :
    u = u' := by
  rw [← Nat.div_add_mod u links, hdiv, hmod, Nat.div_add_mod]

lemma endAt_inj {u u' : ℕ} (hu : u < count * links) (hu' : u' < count * links)
    {node int peer peer' : String} (hend : EndAt (linkAt baseNode count links u) node int peer)
    (hend' : EndAt (linkAt baseNode count links u') node int peer') : u = u' := by
  obtain ⟨hdiv, hmod, -⟩ := turn_lt links hu
  obtain ⟨hdiv', hmod', -⟩ := turn_lt links hu'
  rcases hend with ⟨hn, hi, -⟩ | ⟨hn, hi, -⟩ <;> rcases hend' with ⟨hn', hi', -⟩ | ⟨hn', hi', -⟩
  · have hnode := ringName_injective _ (hn.symm.trans hn')
    have hint := eth_injective (hi.symm.trans hi')
    exact eq_of_turn links hnode (Nat.succ_injective hint)
  · have hint := eth_injective (hi.symm.trans hi')
    omega
  · have hint := eth_injective (hi.symm.trans hi')
    omega
  · have hnode := next_inj hdiv hdiv' (ringName_injective _ (hn.symm.trans hn'))
    have hint := eth_injective (hi.symm.trans hi')
    exact eq_of_turn links hnode (by omega)

/-- **No interface is the end of two links.** -/
lemma nodup_ends_ring : (ends (ring name baseNode count links).links).Nodup := by
  rw [nodup_ends_iff]
  constructor
  · intro l hl heq
    rw [ring_links] at hl
    obtain ⟨u, hu, rfl⟩ := List.mem_map.mp hl
    obtain ⟨-, hmod, -⟩ := turn_lt links (List.mem_range.mp hu)
    have heth := eth_injective (congrArg Prod.snd heq)
    omega
  · intro u u' l l' hlt hl hl' node int peer peer' hend hend'
    have hu' : u' < count * links := by
      rw [← length_ring_links name baseNode]
      exact (List.getElem?_eq_some_iff.mp hl').1
    have hu := hlt.trans hu'
    rw [getElem?_ring_links name baseNode links hu] at hl
    rw [getElem?_ring_links name baseNode links hu'] at hl'
    cases hl
    cases hl'
    exact hlt.ne (endAt_inj baseNode links hu hu' hend hend')

lemma ifaceAt_ring (i : ℕ) (k : String) :
    ifaceAt ((ring name baseNode count links).nodes.map fillIntNames) i k = none := by
  have hempty : ifaceAt (ring name baseNode count links).nodes i k = none := by
    by_cases hi : i < count <;> simp [ifaceAt, ring, hi]
  rw [ifaceAt_fillIntNames, hempty]
  rfl

/-- **The links of a ring are accepted.** -/
lemma exists_wire_ring : ∃ ns, wire (ring name baseNode count links) = .ok ns := by
  refine exists_addLinks 0 (names_places _) ?_ (nodup_ends_ring name baseNode links) ?_
  · intro l hl
    rw [ring_links] at hl
    obtain ⟨u, hu, rfl⟩ := List.mem_map.mp hl
    obtain ⟨hdiv, -, hnext⟩ := turn_lt links (List.mem_range.mp hu)
    exact ⟨_, _, places_ring name baseNode links hdiv, places_ring name baseNode links hnext⟩
  · rintro p - i - ⟨v, hv, -⟩
    rw [ifaceAt_ring] at hv
    cases hv

/-! ### The interfaces of a ring -/

variable {links} {ns : List Node} (hw : wire (ring name baseNode count links) = .ok ns)
include hw

lemma ring_holds {u : ℕ} (hu : u < count * links) :
    Holds ns (u / links) (eth (u % links + 1)) (ringName baseNode.name ((u / links + 1) % count))
        (eth (u % links + 1 + links)) u ∧
      Holds ns ((u / links + 1) % count) (eth (u % links + 1 + links))
        (ringName baseNode.name (u / links)) (eth (u % links + 1)) u := by
  have hnames : ∀ n ∈ (ring name baseNode count links).nodes, n.name ≠ "" := by
    intro n hn
    obtain ⟨i, -, rfl⟩ := List.mem_map.mp hn
    exact ringName_ne_empty _ _
  obtain ⟨hdiv, -, hnext⟩ := turn_lt links hu
  obtain ⟨a, z, ha, hz, hholds⟩ := link_wired hnames hw (getElem?_ring_links name baseNode links hu)
  have hfirst := places_ring name baseNode links hdiv
  have hsecond := places_ring name baseNode links hnext
  obtain rfl : a = u / links := Option.some.inj (ha.symm.trans hfirst)
  obtain rfl : z = (u / links + 1) % count := Option.some.inj (hz.symm.trans hsecond)
  exact hholds

lemma uid_of_ring_iface {i : ℕ} {k : String} {v : Interface} (hv : ifaceAt ns i k = some v) :
    ∃ u < count * links, v.uid = u ∧
      ((i = u / links ∧ k = eth (u % links + 1)) ∨
        (i = (u / links + 1) % count ∧ k = eth (u % links + 1 + links))) := by
  by_cases hend : ∃ l ∈ (ring name baseNode count links).links, ∃ peer,
      IsEnd (places (ring name baseNode count links)) l i k peer
  · obtain ⟨l, hl, peer, hend⟩ := hend
    rw [ring_links] at hl
    obtain ⟨u, hmem, rfl⟩ := List.mem_map.mp hl
    have hu := List.mem_range.mp hmem
    obtain ⟨hdiv, -, hnext⟩ := turn_lt links hu
    obtain ⟨⟨v₁, hv₁, -, -, huid₁⟩, ⟨v₂, hv₂, -, -, huid₂⟩⟩ := ring_holds name baseNode hw hu
    rcases hend with ⟨hi, rfl, -⟩ | ⟨hi, rfl, -⟩
    · obtain rfl : i = u / links := Option.some.inj
        (hi.symm.trans (places_ring name baseNode links hdiv))
      rw [hv.symm.trans hv₁ |> Option.some.inj]
      exact ⟨u, hu, huid₁, .inl ⟨rfl, rfl⟩⟩
    · obtain rfl : i = (u / links + 1) % count := Option.some.inj
        (hi.symm.trans (places_ring name baseNode links hnext))
      rw [hv.symm.trans hv₂ |> Option.some.inj]
      exact ⟨u, hu, huid₂, .inr ⟨rfl, rfl⟩⟩
  · -- an interface that no link made is not there
    have hrest := addLinks_rest (names_places _) hw (i := i) (k := k) fun l hl peer h =>
      hend ⟨l, hl, peer, h⟩
    rw [ifaceAt_ring, hv] at hrest
    cases hrest

end Ring

/-- The node `i` of a ring: its interfaces are numbered, the first half of them is joined to the
next node, and the other half to the previous one. -/
structure RingNode (name : ℕ → String) (count links : ℕ) (ns : List Node) (i : ℕ) : Prop where
  interfaces : ∃ n, ns[i]? = some n ∧ n.name = name i ∧
    n.interfaces.keys.Perm ((List.range' 1 (2 * links)).map eth)
  connected : ∀ k v, ifaceAt ns i k = some v → v.peerName ≠ ""
  next : ∀ j < links, Holds ns i (eth (j + 1)) (name ((i + 1) % count)) (eth (j + 1 + links))
    (i * links + j : ℕ)
  prev : ∀ j < links, Holds ns i (eth (j + 1 + links)) (name ((i + count - 1) % count))
    (eth (j + 1)) ((i + count - 1) % count * links + j : ℕ)

/-- The uid is on just two interfaces. -/
def OnTwo (ns : List Node) (u : ℕ) : Prop :=
  ∃ p q : ℕ × String, p ≠ q ∧
    ∀ i k, (∃ v, ifaceAt ns i k = some v ∧ v.uid = u) ↔ (i, k) = p ∨ (i, k) = q

section Ring

variable {name : String} {baseNode : Node} {count links : ℕ} {ns : List Node}
  (hw : wire (ring name baseNode count links) = .ok ns)
include hw

lemma next_holds {i j : ℕ} (hi : i < count) (hj : j < links) :
    Holds ns i (eth (j + 1)) (ringName baseNode.name ((i + 1) % count)) (eth (j + 1 + links))
        (i * links + j : ℕ) ∧
      Holds ns ((i + 1) % count) (eth (j + 1 + links)) (ringName baseNode.name i) (eth (j + 1))
        (i * links + j : ℕ) := by
  have hu : i * links + j < count * links := by
    calc
      i * links + j < (i + 1) * links := by rw [Nat.succ_mul]; omega
      _ ≤ count * links := Nat.mul_le_mul_right _ hi
  obtain ⟨hdiv, hmod⟩ := div_mod_turn i hj
  have hholds := ring_holds name baseNode hw hu
  rwa [hdiv, hmod] at hholds

lemma exists_ringNode {i : ℕ} (hi : i < count) :
    ∃ n, ns[i]? = some n ∧ n.name = ringName baseNode.name i := by
  have hnames : ns.map Node.name = (List.range count).map (ringName baseNode.name) := by
    rw [addLinks_names (names_places _) hw, ← ring_names name baseNode count links, List.map_map]
    rfl
  have hat : (ns.map Node.name)[i]? = some (ringName baseNode.name i) := by
    rw [hnames]
    simp [hi]
  rwa [List.getElem?_map, Option.map_eq_some_iff] at hat

/-- **The nodes of a ring.** -/
lemma ringNode {i : ℕ} (hi : i < count) : RingNode (ringName baseNode.name) count links ns i := by
  have hprev : ∀ j < links, Holds ns i (eth (j + 1 + links))
      (ringName baseNode.name ((i + count - 1) % count)) (eth (j + 1))
      ((i + count - 1) % count * links + j : ℕ) := by
    intro j hj
    have hlt : (i + count - 1) % count < count := Nat.mod_lt _ (Nat.zero_lt_of_lt hi)
    have hholds := (next_holds hw hlt hj).2
    rwa [next_prev hi] at hholds
  refine ⟨?_, fun k v hv => ?_, fun j hj => (next_holds hw hi hj).1, hprev⟩
  · obtain ⟨n, hn, hname⟩ := exists_ringNode hw hi
    refine ⟨n, hn, hname, (List.perm_ext_iff_of_nodup n.interfaces.keys_nodup ?_).mpr fun k => ?_⟩
    · exact List.Nodup.map eth_injective List.nodup_range'
    have hkeys : k ∈ n.interfaces.keys ↔ ∃ v, ifaceAt ns i k = some v := by
      rw [← AList.mem_keys, ← AList.lookup_isSome, Option.isSome_iff_exists]
      simp [ifaceAt, hn]
    rw [hkeys, List.mem_map]
    constructor
    · rintro ⟨v, hv⟩
      obtain ⟨u, hu, -, hend⟩ := uid_of_ring_iface name baseNode hw hv
      obtain ⟨-, hmod, -⟩ := turn_lt links hu
      rcases hend with ⟨-, rfl⟩ | ⟨-, rfl⟩
      · exact ⟨_, List.mem_range'_1.mpr (by omega), rfl⟩
      · exact ⟨_, List.mem_range'_1.mpr (by omega), rfl⟩
    · rintro ⟨j, hj, rfl⟩
      obtain ⟨hpos, hlt⟩ := List.mem_range'_1.mp hj
      by_cases hfirst : j ≤ links
      · obtain ⟨v, hv, -⟩ := (next_holds hw hi (by omega : j - 1 < links)).1
        exact ⟨v, by rwa [Nat.sub_add_cancel hpos] at hv⟩
      · obtain ⟨v, hv, -⟩ := hprev (j - 1 - links) (by omega)
        have hsum : j - 1 - links + 1 + links = j := by omega
        exact ⟨v, by rwa [hsum] at hv⟩
  · obtain ⟨u, hu, -, hend⟩ := uid_of_ring_iface name baseNode hw hv
    obtain ⟨⟨v₁, hv₁, hpeer₁, -⟩, ⟨v₂, hv₂, hpeer₂, -⟩⟩ := ring_holds name baseNode hw hu
    rcases hend with ⟨rfl, rfl⟩ | ⟨rfl, rfl⟩
    · rw [Option.some.inj (hv.symm.trans hv₁), hpeer₁]
      exact ringName_ne_empty _ _
    · rw [Option.some.inj (hv.symm.trans hv₂), hpeer₂]
      exact ringName_ne_empty _ _

/-- **The uids of a ring.** -/
lemma onTwo {u : ℕ} (hu : u < count * links) : OnTwo ns u := by
  obtain ⟨-, hmod, -⟩ := turn_lt links hu
  obtain ⟨⟨v₁, hv₁, -, -, huid₁⟩, ⟨v₂, hv₂, -, -, huid₂⟩⟩ := ring_holds name baseNode hw hu
  refine ⟨(u / links, eth (u % links + 1)), ((u / links + 1) % count, eth (u % links + 1 + links)),
    fun heq => ?_, fun i k => ⟨?_, ?_⟩⟩
  · have hint := eth_injective (congrArg Prod.snd heq)
    omega
  · rintro ⟨v, hv, huid⟩
    obtain ⟨u', -, huid', hend⟩ := uid_of_ring_iface name baseNode hw hv
    obtain rfl : u' = u := by exact_mod_cast huid'.symm.trans huid
    rcases hend with ⟨rfl, rfl⟩ | ⟨rfl, rfl⟩
    · exact .inl rfl
    · exact .inr rfl
  · rintro (heq | heq) <;> cases heq
    · exact ⟨v₁, hv₁, huid₁⟩
    · exact ⟨v₂, hv₂, huid₂⟩

end Ring

/-! ### The command -/

lemma intArg_toString (use what : String) {n : ℕ} (hn : n < 2 ^ 63) :
    intArg use what (toString n) = .ok (Int64.ofInt n) := by
  have hdigits : (toString n).toList = Nat.toDigits 10 n := by
    simp
  rw [intArg, hdigits, atoi_toDigits hn]

lemma toInt_ofInt {n : ℕ} (hn : n < 2 ^ 63) : (Int64.ofInt n).toInt = n :=
  Int64.toInt_ofInt_of_le (by omega) (by omega)

lemma generateRingFn_numbers {use file : String} {load : String → Except String Topology}
    {base : Topology} {baseNode : Node} {rest : List Node} {count links : ℕ}
    (hbase : base.nodes = baseNode :: rest) (hcount : 2 ≤ count) (hlinks : 1 ≤ links)
    (hload : load file = .ok base) (hc : count < 2 ^ 63) (hl : links < 2 ^ 63) :
    generateRingFn use load [file, toString count, toString links] =
      .ok (ring base.name baseNode count links) := by
  have hlinks' : ¬ Int64.ofInt links ≤ 0 := by
    rw [Int64.le_iff_toInt_le, toInt_ofInt hl, Int64.toInt_zero]
    omega
  have hcount' : ¬ Int64.ofInt count ≤ 1 := by
    rw [Int64.le_iff_toInt_le, toInt_ofInt hc]
    have hone : (1 : Int64).toInt = 1 := rfl
    omega
  have hring : ringOf use base count links = .ok (ring base.name baseNode count links) := by
    rw [ringOf, hbase]
  simp only [generateRingFn, intArg_toString use _ hl, intArg_toString use _ hc, hload, bind,
    Except.bind, Except.mapError, if_neg hlinks', if_neg hcount', toInt_ofInt hl, toInt_ofInt hc,
    Int.toNat_natCast, hring]

/-- **Generated rings are rings.** For a topology with a node, at least two copies and one link: the
command makes the ring; its nodes have different names; its links are accepted by `load`; then each
node is joined to the next and the previous one by all of its interfaces; and each uid is on two of
them. -/
theorem ring_valid {base : Topology} {baseNode : Node} {rest : List Node} {count links : ℕ}
    (hbase : base.nodes = baseNode :: rest) (hcount : 2 ≤ count) (hlinks : 1 ≤ links) :
    (∀ use load file, load file = .ok base → count < 2 ^ 63 → 2 * links < 2 ^ 63 →
      generateRingFn use load [file, toString count, toString links] =
        .ok (ring base.name baseNode count links)) ∧
    (ring base.name baseNode count links).nodes.length = count ∧
    ((ring base.name baseNode count links).nodes.map Node.name).Nodup ∧
    (ring base.name baseNode count links).links.length = count * links ∧
    ∃ ns, wire (ring base.name baseNode count links) = .ok ns ∧
      (∀ i < count, RingNode (ringName baseNode.name) count links ns i) ∧
      ∀ u < count * links, OnTwo ns u := by
  refine ⟨fun use load file hload hc hl => ?_, by simp [ring], nodup_ring_names _ _ _ _,
    length_ring_links _ _ _ _, ?_⟩
  · exact generateRingFn_numbers hbase hcount hlinks hload hc (by omega)
  · obtain ⟨ns, hw⟩ : ∃ ns, wire (ring base.name baseNode count links) = .ok ns :=
      exists_wire_ring _ _ _
    exact ⟨ns, hw, fun i hi => ringNode hw hi, fun u hu => onTwo hw hu⟩

/-- A topology of one node. -/
def oneNode : Topology where
  name := "demo"
  nodes := [{ name := "r", vendor := .nokia }]
  links := []

theorem ring_of_three :
    ∃ ns, wire (ring "demo" { name := "r", vendor := .nokia } 3 2) = .ok ns ∧
      (∀ i < 3, RingNode (ringName "r") 3 2 ns i) ∧ ∀ u < 3 * 2, OnTwo ns u := by
  have hbase : oneNode.nodes = { name := "r", vendor := .nokia } :: [] := rfl
  have hcount : 2 ≤ 3 := by omega
  have hlinks : 1 ≤ 2 := by omega
  exact (ring_valid hbase hcount hlinks).2.2.2.2

end Kne.TopoRing
