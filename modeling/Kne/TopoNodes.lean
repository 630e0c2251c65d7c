import Kne.TopoEnds

/-!
The nodes `load` returns: for every name of the topology what the constructor made of the last
node of that name, with the interfaces as the loop over the links left them.
-/

namespace Kne.TopoNodes

open Kne.Checked Kne.TopoModel Kne.TopoWiring Kne.TopoEnds

/-- The node `load` hands to a constructor. -/
def nodeOf (m : AList (fun _ : String => ℕ)) (ns : List Node) (k : String) : Option Node :=
  (m.lookup k).bind (ns[·]?)

lemma addNode_ok {w : World} {topo : String} {m : AList (fun _ : String => ℕ)} {ns : List Node}
    {acc nodes : AList (fun _ : String => Impl)} {k : String}
    (h : addNode w topo m ns acc k = .ok nodes) :
    nodeOf m ns k = none ∧ nodes = acc ∨
      ∃ n impl, nodeOf m ns k = some n ∧ w.new topo n = .ok impl ∧ nodes = acc.insert k impl := by
  unfold addNode at h
  cases hp : w.pidMax k with
  | some e => simp [hp] at h
  | none =>
    cases hn : (m.lookup k).bind (ns[·]?) with
    | none =>
      simp only [hp, hn, Except.ok.injEq] at h
      exact Or.inl ⟨hn, h.symm⟩
    | some n =>
      cases hi : w.new topo n with
      | error err => simp [hp, hn, hi] at h
      | ok impl =>
        simp only [hp, hn, hi, Except.ok.injEq] at h
        exact Or.inr ⟨n, impl, hn, hi, h.symm⟩

lemma foldlM_addNode {w : World} {topo : String} {m : AList (fun _ : String => ℕ)}
    {ns : List Node} {ks : List String} {acc nodes : AList (fun _ : String => Impl)}
    (h : ks.foldlM (addNode w topo m ns) acc = .ok nodes) :
    (∀ k impl, nodes.lookup k = some impl → acc.lookup k = some impl ∨
      ∃ n, nodeOf m ns k = some n ∧ w.new topo n = .ok impl) ∧
    ∀ k n, (k ∈ ks ∧ nodeOf m ns k = some n) ∨ acc.lookup k ≠ none → nodes.lookup k ≠ none := by
  induction ks generalizing acc with
  | nil =>
    cases h
    exact ⟨fun k impl hk => Or.inl hk, fun k n hk => by simpa using hk⟩
  | cons k ks ih =>
    obtain ⟨acc1, hk, hrest⟩ := foldlM_cons_ok_iff.mp h
    obtain ⟨hfrom, hkept⟩ := ih hrest
    rcases addNode_ok hk with ⟨hnone, rfl⟩ | ⟨n, impl, hn, hi, rfl⟩
    · refine ⟨hfrom, fun k' n' hk' => hkept k' n' ?_⟩
      rcases hk' with ⟨hmem, hn'⟩ | hk'
      · rcases List.mem_cons.mp hmem with rfl | hmem
        · rw [hnone] at hn'; cases hn'
        · exact Or.inl ⟨hmem, hn'⟩
      · exact Or.inr hk'
    · refine ⟨fun k' impl' hk' => ?_, fun k' n' hk' => hkept k' n' ?_⟩
      · rcases hfrom k' impl' hk' with hacc | hnew
        · by_cases hkk : k' = k
          · subst hkk
            rw [AList.lookup_insert] at hacc
            cases hacc
            exact Or.inr ⟨n, hn, hi⟩
          · rw [AList.lookup_insert_ne hkk] at hacc
            exact Or.inl hacc
        · exact Or.inr hnew
      · by_cases hkk : k' = k
        · subst hkk
          exact Or.inr (by simp)
        · rw [AList.lookup_insert_ne hkk]
          refine hk'.imp_left fun hmem => ⟨?_, hmem.2⟩
          exact (List.mem_cons.mp hmem.1).resolve_left hkk

/-- What `load` returns. -/
structure LoadOk (w : World) (t : Topology) (ns : List Node)
    (nodes : AList (fun _ : String => Impl)) : Prop where
  wired : wire t = .ok ns
  made : ∀ k impl, nodes.lookup k = some impl →
    ∃ n, nodeOf (places t) ns k = some n ∧ n.name = k ∧ w.new t.name n = .ok impl
  all : ∀ k i, (places t).lookup k = some i → ∃ impl, nodes.lookup k = some impl
  loop : ∀ l ∈ t.links, l.aNode = l.zNode → loops nodes l.aNode = true

lemma nodeOf_name {t : Topology} {ns : List Node} (h : wire t = .ok ns) {k : String} {n : Node}
    (hn : nodeOf (places t) ns k = some n) : n.name = k := by
  obtain ⟨i, hi, hget⟩ := Option.bind_eq_some_iff.mp hn
  have hnames : ns.map Node.name = t.nodes.map Node.name := by
    rw [addLinks_names (names_places t) h, List.map_map]
    rfl
  have h1 := nMap_lookup hi
  rw [← hnames, List.getElem?_map, hget] at h1
  exact Option.some.inj h1

lemma load_ok {w : World} {t : Topology} {nodes : AList (fun _ : String => Impl)}
    (h : load w t = .ok nodes) : ∃ ns, LoadOk w t ns nodes := by
  obtain ⟨ns, hw, hnodes⟩ := bind_ok_iff.mp h
  obtain ⟨nodes', hf, hchecked⟩ := bind_ok_iff.mp hnodes
  obtain ⟨u, hc, hret⟩ := bind_ok_iff.mp hchecked
  cases hret
  obtain ⟨hfrom, hkept⟩ := foldlM_addNode hf
  have hlen : ns.length = (t.nodes.map Node.name).length := by
    have := congrArg List.length (addLinks_names (names_places t) hw)
    simpa using this
  refine ⟨ns, hw, fun k impl hk => ?_, fun k i hk => ?_, fun l hl hself => ?_⟩
  · rcases hfrom k impl hk with hk | ⟨n, hn, hi⟩
    · simp at hk
    · exact ⟨n, hn, nodeOf_name hw hn, hi⟩
  · have hi : i < ns.length := by
      rw [hlen]
      exact (names_nMap _).lt k i hk
    have hn : nodeOf (places t) ns k = some ns[i] := by simp [nodeOf, hk, hi]
    have hmem : k ∈ w.order.keys (places t).keys := w.order.mem_keys_of_lookup hk
    exact Option.ne_none_iff_exists'.mp (hkept k _ (Or.inl ⟨hmem, hn⟩))
  · have hl := forM_ok hc l hl
    unfold checkLoop at hl
    by_contra hloop
    rw [if_pos ⟨by simp [hloop], hself⟩] at hl
    cases hl

/-- `load` succeeds when every constructor does and the links of a node to itself are supported. -/
lemma exists_load {w : World} {t : Topology} {ns : List Node} (hw : wire t = .ok ns)
    (hpid : ∀ k ∈ places t, w.pidMax k = none)
    (hnew : ∀ k n, nodeOf (places t) ns k = some n → ∃ impl, w.new t.name n = .ok impl)
    (hloop : ∀ l ∈ t.links, l.aNode = l.zNode → ∃ n impl, nodeOf (places t) ns l.aNode = some n ∧
      w.new t.name n = .ok impl ∧ impl.backToBackLoop = true) :
    ∃ nodes, load w t = .ok nodes := by
  obtain ⟨nodes, hf⟩ : ∃ nodes,
      (w.order.keys (places t).keys).foldlM (addNode w t.name (places t) ns) ∅ = .ok nodes := by
    refine exists_foldlM_ok (fun k hk acc => ?_) ∅
    have hk' := hpid k (w.order.mem_keys.mp hk)
    cases hn : (places t).lookup k |>.bind (ns[·]?) with
    | none => exact ⟨acc, by simp [addNode, hk', hn]⟩
    | some n =>
      obtain ⟨impl, himpl⟩ := hnew k n hn
      exact ⟨acc.insert k impl, by simp [addNode, hk', hn, himpl]⟩
  obtain ⟨hfrom, hkept⟩ := foldlM_addNode hf
  have hcheck : t.links.forM (checkLoop nodes) = .ok () := by
    refine forM_of_ok fun l hl => ?_
    refine if_neg ?_
    rintro ⟨hno, hself⟩
    obtain ⟨n, impl, hn, himpl, hback⟩ := hloop l hl hself
    obtain ⟨i, hi, -⟩ := Option.bind_eq_some_iff.mp hn
    have hmem : l.aNode ∈ w.order.keys (places t).keys := w.order.mem_keys_of_lookup hi
    obtain ⟨impl', hlook⟩ := Option.ne_none_iff_exists'.mp (hkept _ n (Or.inl ⟨hmem, hn⟩))
    have himpl' : impl' = impl := by
      rcases hfrom _ impl' hlook with hempty | ⟨n', hn', hnew'⟩
      · simp at hempty
      · rw [hn] at hn'
        obtain rfl := Option.some.inj hn'
        rw [himpl] at hnew'
        exact (Except.ok.inj hnew').symm
    rw [← hself] at hno
    simp [loops, hlook, himpl', hback] at hno
  exact ⟨nodes, bind_ok_iff.mpr ⟨ns, hw, bind_ok_iff.mpr ⟨nodes, hf,
    bind_ok_iff.mpr ⟨(), hcheck, rfl⟩⟩⟩⟩

end Kne.TopoNodes
