import Kne.SpecsModel

/-!
The order in which `topologySpecs` goes through the nodes. To find a peer the loops read the
pods, uids and local interfaces of the specs, and they write the pods and interfaces of peers; so
every link is resolved as if it came first, and the specs are the same up to their order.
-/

namespace Kne.SpecsOrder

open Kne.Checked Kne.TopoModel Kne.SpecsModel Kne.Sweep

/-! ### The pass over the links -/

/-- The peer of a link, by what `setLinkPeer` reads of the specs. -/
def findPeer (nodeName : String) (link : SpecLink) :
    List (String × List (ℤ × String)) → Option (String × String)
  | [] => none
  | (pod, links) :: specs =>
    match links.find? fun e =>
        e.1 = link.uid && !(nodeName = link.peerPod && e.2 = link.localIntf) with
    | some e => some (pod, e.2)
    | none => findPeer nodeName link specs

lemma setLinkPeer_eq (nodeName podName : String) (link : SpecLink) (specs : List Spec) :
    setLinkPeer nodeName podName link specs =
      match findPeer nodeName link (skel specs) with
      | some (pod, intf) => .ok { link with peerPod := pod, peerIntf := intf }
      | none => .error (.noPeer nodeName podName link.uid) := by
  induction specs with
  | nil => rfl
  | cons spec specs ih =>
    have hfind : (spec.links.map fun l => (l.uid, l.localIntf)).find? (fun e =>
        e.1 = link.uid && !(nodeName = link.peerPod && e.2 = link.localIntf)) =
        (spec.links.find? (isPeer nodeName link)).map fun l => (l.uid, l.localIntf) := by
      rw [List.find?_map]
      rfl
    simp only [setLinkPeer, skel, List.map_cons, findPeer, hfind]
    cases spec.links.find? (isPeer nodeName link) with
    | none => exact ih
    | some peerLink => rfl

lemma setLinkPeer_ok {nodeName podName : String} {link link' : SpecLink} {specs : List Spec}
    (h : setLinkPeer nodeName podName link specs = .ok link') :
    ∃ spec ∈ specs, ∃ peerLink ∈ spec.links, isPeer nodeName link peerLink = true ∧
      link' = { link with peerPod := spec.name, peerIntf := peerLink.localIntf } := by
  induction specs with
  | nil => simp [setLinkPeer] at h
  | cons spec specs ih =>
    unfold setLinkPeer at h
    cases hf : spec.links.find? (isPeer nodeName link) with
    | some peerLink =>
      simp only [hf, Except.ok.injEq] at h
      exact ⟨spec, List.mem_cons_self, peerLink, List.mem_of_find?_eq_some hf,
        List.find?_some hf, h.symm⟩
    | none =>
      simp only [hf] at h
      obtain ⟨spec', hs, hrest⟩ := ih h
      exact ⟨spec', List.mem_cons_of_mem spec hs, hrest⟩

lemma resolve_ok {m : NodeSpecs} {p : Pos} {link link' : SpecLink}
    (h : resolve m p link = .ok link') :
    ∃ q spec peerLink, q.node = link.peerPod ∧ specAt m q = some spec ∧
      linkAt m q = some peerLink ∧ isPeer p.node link peerLink = true ∧
      link' = { link with peerPod := spec.name, peerIntf := peerLink.localIntf } := by
  unfold resolve at h
  cases hl : m.lookup link.peerPod with
  | none => simp [hl] at h
  | some specs =>
    rw [hl] at h
    obtain ⟨spec, hs, peerLink, hpl, hpeer, he⟩ := setLinkPeer_ok h
    obtain ⟨i, hi⟩ := List.mem_iff_getElem?.mp hs
    obtain ⟨j, hj⟩ := List.mem_iff_getElem?.mp hpl
    have hspec : specAt m ⟨link.peerPod, i, j⟩ = some spec := by simp [specAt, hl, hi]
    exact ⟨⟨link.peerPod, i, j⟩, spec, peerLink, rfl, hspec, by simp [linkAt, hspec, hj], hpeer, he⟩

lemma view_cases {m m' : NodeSpecs} (h : view m = view m') (n : String) :
    m.lookup n = none ∧ m'.lookup n = none ∨ ∃ specs specs', m.lookup n = some specs ∧
      m'.lookup n = some specs' ∧ skel specs = skel specs' := by
  have hn := congrFun h n
  unfold view at hn
  cases h1 : m.lookup n with
  | none =>
    cases h2 : m'.lookup n with
    | none => exact Or.inl ⟨rfl, rfl⟩
    | some specs' => simp [h1, h2] at hn
  | some specs =>
    cases h2 : m'.lookup n with
    | none => simp [h1, h2] at hn
    | some specs' =>
      rw [h1, h2] at hn
      exact Or.inr ⟨specs, specs', rfl, rfl, Option.some.inj hn⟩

lemma view_name {m m' : NodeSpecs} (h : view m = view m') (p : Pos) :
    (specAt m p).map Spec.name = (specAt m' p).map Spec.name := by
  unfold specAt
  rcases view_cases h p.node with ⟨h1, h2⟩ | ⟨specs, specs', h1, h2, hs⟩
  · rw [h1, h2]
  · rw [h1, h2]
    have hi := congrArg (fun l => (l[p.spec]?).map Prod.fst) hs
    simpa [skel, Option.map_map, Function.comp_def] using hi

lemma resolve_view {m m' : NodeSpecs} (h : view m = view m') (p : Pos) (link : SpecLink) :
    resolve m p link = resolve m' p link := by
  have hname : (specAt m p).elim "" Spec.name = (specAt m' p).elim "" Spec.name := by
    have := congrArg (fun o => o.getD "") (view_name h p)
    cases h1 : specAt m p <;> cases h2 : specAt m' p <;> simp_all
  unfold resolve
  rw [hname]
  rcases view_cases h link.peerPod with ⟨h1, h2⟩ | ⟨specs, specs', h1, h2, hs⟩
  · rw [h1, h2]
  · simp only [h1, h2, setLinkPeer_eq, hs]

/-- The loops as a pass over the links. -/
def pass : Pass NodeSpecs Pos SpecLink
    (String → Option (List (String × List (ℤ × String)))) SpecErr where
  get := linkAt
  put := setLink
  view := view
  op := resolve
  get_put_self _ _ _ b h := linkAt_setLink_self b h
  get_put_ne _ _ _ b h := linkAt_setLink_ne b h
  view_put m p a b h hop := by
    obtain ⟨q, spec, peerLink, -, -, -, -, rfl⟩ := resolve_ok hop
    exact view_setLink h rfl rfl
  op_view _ _ p a h := resolve_view h p a

lemma resolveAt_eq_turn (m : NodeSpecs) (p : Pos) : resolveAt m p = pass.turn m p := by
  have hg : pass.get m p = linkAt m p := rfl
  unfold resolveAt Pass.turn
  rw [hg]
  cases linkAt m p <;> rfl

lemma foldlM_resolveAt (m : NodeSpecs) (ps : List Pos) :
    ps.foldlM resolveAt m = pass.sweep m ps := by
  have : resolveAt = pass.turn := funext fun m => funext fun p => resolveAt_eq_turn m p
  rw [Pass.sweep, this]

lemma lookup_ext {m m' : NodeSpecs} (hv : view m = view m') (hl : ∀ p, linkAt m p = linkAt m' p)
    (n : String) : m.lookup n = m'.lookup n := by
  rcases view_cases hv n with ⟨h1, h2⟩ | ⟨specs, specs', h1, h2, hs⟩
  · rw [h1, h2]
  · rw [h1, h2]
    have hlen : specs.length = specs'.length := by simpa [skel] using congrArg List.length hs
    congr 1
    refine List.ext_getElem hlen fun i hi hi' => ?_
    have hname : specs[i].name = specs'[i].name := by
      have := congrArg (fun l => (l[i]?).map Prod.fst) hs
      simpa [skel, hi, hi'] using this
    have hlinks : specs[i].links = specs'[i].links := by
      refine List.ext_getElem? fun j => ?_
      have := hl ⟨n, i, j⟩
      simpa [linkAt, specAt, h1, h2, hi, hi'] using this
    cases hsp : specs[i]
    cases hsp' : specs'[i]
    simp_all

/-! ### The positions of the links -/

lemma mem_positions {m : NodeSpecs} {ks : List String} {p : Pos} :
    p ∈ positions m ks ↔ p.node ∈ ks ∧ ∃ link, linkAt m p = some link := by
  unfold positions
  simp only [List.mem_flatMap, List.mem_map, List.mem_range, Prod.exists,
    List.mem_zipIdx_iff_getElem?]
  constructor
  · rintro ⟨n, hn, spec, i, hi, j, hj, rfl⟩
    refine ⟨hn, spec.links[j], ?_⟩
    cases h : m.lookup n with
    | none => simp [h] at hi
    | some specs =>
      simp only [h, Option.getD_some] at hi
      simp [linkAt, specAt, h, hi, hj]
  · rintro ⟨hn, link, hlink⟩
    obtain ⟨spec, hspec, hl⟩ := Option.bind_eq_some_iff.mp hlink
    obtain ⟨specs, hspecs, hget⟩ := Option.bind_eq_some_iff.mp hspec
    obtain ⟨hj, -⟩ := List.getElem?_eq_some_iff.mp hl
    exact ⟨p.node, hn, spec, p.spec, by simpa [hspecs] using hget, p.link, hj, rfl⟩

lemma nodup_positions (m : NodeSpecs) {ks : List String} (hn : ks.Nodup) :
    (positions m ks).Nodup := by
  unfold positions
  refine List.nodup_flatMap.mpr ⟨fun n _ => ?_, hn.imp fun {n n'} hne => ?_⟩
  · refine List.nodup_flatMap.mpr ⟨fun si _ => ?_, ?_⟩
    · refine List.nodup_range.map fun j j' h => ?_
      exact congrArg Pos.link h
    · have hidx : (((m.lookup n).getD []).zipIdx.map Prod.snd).Nodup :=
        List.nodup_zipIdx_map_snd _
      refine (List.pairwise_map.mp hidx).imp fun {a b} hne p hp hp' => ?_
      obtain ⟨j, -, rfl⟩ := List.mem_map.mp hp
      obtain ⟨j', -, h⟩ := List.mem_map.mp hp'
      exact hne (congrArg Pos.spec h).symm
  · intro p hp hp'
    obtain ⟨a, -, ha⟩ := List.mem_flatMap.mp hp
    obtain ⟨b, -, hb⟩ := List.mem_flatMap.mp hp'
    obtain ⟨j, -, rfl⟩ := List.mem_map.mp ha
    obtain ⟨j', -, h⟩ := List.mem_map.mp hb
    exact hne (congrArg Pos.node h).symm

/-! ### The specs of all nodes -/

/-- The nodes are kept under their names. -/
def Named (nodes : AList (fun _ : String => Impl)) : Prop :=
  ∀ k n, nodes.lookup k = some n → n.proto.name = k

/-- What the nodes give. -/
def specsOf (nodes : AList (fun _ : String => Impl)) (k : String) : Option (List Spec) :=
  (nodes.lookup k).bind fun n => n.topologySpecs.toOption

lemma fetch_ok {nodes : AList (fun _ : String => Impl)} (hn : Named nodes) {m m' : NodeSpecs}
    {k : String} (h : fetch nodes m k = .ok m') :
    nodes.lookup k = none ∧ m' = m ∨ ∃ n specs, nodes.lookup k = some n ∧
      n.topologySpecs = .ok specs ∧ m' = m.insert k specs := by
  unfold fetch at h
  cases hk : nodes.lookup k with
  | none =>
    rw [hk] at h
    cases h
    exact Or.inl ⟨rfl, rfl⟩
  | some n =>
    rw [hk] at h
    cases hs : n.topologySpecs with
    | error err => simp [hs] at h
    | ok specs =>
      simp only [hs, hn k n hk, Except.ok.injEq] at h
      exact Or.inr ⟨n, specs, rfl, hs, h.symm⟩

lemma foldlM_fetch {nodes : AList (fun _ : String => Impl)} (hn : Named nodes) {ks : List String}
    {m m' : NodeSpecs} (h : ks.foldlM (fetch nodes) m = .ok m') :
    (∀ k ∈ ks, ∀ n, nodes.lookup k = some n → ∃ specs, n.topologySpecs = .ok specs) ∧
      ∀ k, m'.lookup k = if k ∈ ks ∧ k ∈ nodes then specsOf nodes k else m.lookup k := by
  induction ks generalizing m with
  | nil =>
    cases h
    exact ⟨by simp, by simp⟩
  | cons k ks ih =>
    obtain ⟨m1, h1, hrest⟩ := foldlM_cons_ok_iff.mp h
    obtain ⟨hall, hlook⟩ := ih hrest
    rcases fetch_ok hn h1 with ⟨hk, rfl⟩ | ⟨n, specs, hk, hs, rfl⟩
    · have hmem : k ∉ nodes := AList.lookup_eq_none.mp hk
      refine ⟨fun k' hk' n hn' => ?_, fun k' => ?_⟩
      · rcases List.mem_cons.mp hk' with rfl | hk'
        · rw [hk] at hn'; cases hn'
        · exact hall k' hk' n hn'
      · rw [hlook k']
        by_cases hkk : k' = k
        · subst hkk; simp [hmem]
        · simp [hkk]
    · have hmem : k ∈ nodes := AList.lookup_isSome.mp (by simp [hk])
      have hsp : specsOf nodes k = some specs := by simp [specsOf, hk, hs, Except.toOption]
      refine ⟨fun k' hk' n' hn' => ?_, fun k' => ?_⟩
      · rcases List.mem_cons.mp hk' with rfl | hk'
        · rw [hk] at hn'
          cases hn'
          exact ⟨specs, hs⟩
        · exact hall k' hk' n' hn'
      · rw [hlook k']
        by_cases hkk : k' = k
        · subst hkk; simp [hmem, hsp]
        · simp [hkk, AList.lookup_insert_ne hkk]

lemma exists_foldlM_fetch {nodes : AList (fun _ : String => Impl)} {ks : List String}
    (h : ∀ k ∈ ks, ∀ n, nodes.lookup k = some n → ∃ specs, n.topologySpecs = .ok specs)
    (m : NodeSpecs) : ∃ m', ks.foldlM (fetch nodes) m = .ok m' := by
  refine exists_foldlM_ok (fun k hk m => ?_) m
  cases hn : nodes.lookup k with
  | none => exact ⟨m, by simp [fetch, hn]⟩
  | some n =>
    obtain ⟨specs, hs⟩ := h k hk n hn
    exact ⟨m.insert n.proto.name specs, by simp [fetch, hn, hs]⟩

lemma collect_ok {o : Order} {nodes : AList (fun _ : String => Impl)} (hn : Named nodes)
    {m : NodeSpecs} (h : collect o nodes = .ok m) :
    (∀ k n, nodes.lookup k = some n → ∃ specs, n.topologySpecs = .ok specs) ∧
      ∀ k, m.lookup k = specsOf nodes k := by
  obtain ⟨hall, hlook⟩ := foldlM_fetch hn h
  refine ⟨fun k n hk => hall k (o.mem_keys_of_lookup hk) n hk, fun k => ?_⟩
  rw [hlook k]
  by_cases hk : k ∈ nodes
  · rw [if_pos ⟨o.mem_keys.mpr hk, hk⟩]
  · rw [if_neg fun h => hk h.2, specsOf, AList.lookup_eq_none.mpr hk]
    rfl

/-- What `topologySpecs` returns: the specs of the nodes, with every link resolved among them. -/
structure Resolved (nodes : AList (fun _ : String => Impl)) (o' : Order) (m t : NodeSpecs)
    (topos : List Spec) : Prop where
  specs : ∀ k, m.lookup k = specsOf nodes k
  view : view t = view m
  links : ∀ p link, linkAt m p = some link →
    ∃ link', resolve m p link = .ok link' ∧ linkAt t p = some link'
  none : ∀ p, linkAt m p = none → linkAt t p = none
  topos : topos = (o'.keys m.keys).flatMap fun n => (t.lookup n).getD []

lemma mem_keys_iff (o : Order) (m : NodeSpecs) (k : String) :
    k ∈ o.keys m.keys ↔ ∃ specs, m.lookup k = some specs := by
  rw [o.mem_keys, ← AList.lookup_isSome, Option.isSome_iff_exists]

lemma node_mem_keys (o : Order) {m : NodeSpecs} {p : Pos} {link : SpecLink}
    (h : linkAt m p = some link) : p.node ∈ o.keys m.keys := by
  obtain ⟨spec, hspec, -⟩ := Option.bind_eq_some_iff.mp h
  obtain ⟨specs, hspecs, -⟩ := Option.bind_eq_some_iff.mp hspec
  exact (mem_keys_iff o m p.node).mpr ⟨specs, hspecs⟩

lemma topologySpecs_eq_ok {o o' : Order} {nodes : AList (fun _ : String => Impl)}
    {topos : List Spec} :
    topologySpecs o o' nodes = .ok topos ↔ ∃ m t, collect o nodes = .ok m ∧
      pass.sweep m (positions m (o'.keys m.keys)) = .ok t ∧
      topos = (o'.keys m.keys).flatMap fun n => (t.lookup n).getD [] := by
  unfold topologySpecs
  simp only [bind_ok_iff, foldlM_resolveAt, pure, Except.pure, Except.ok.injEq]
  constructor
  · rintro ⟨m, hc, t, hs, rfl⟩
    exact ⟨m, t, hc, hs, rfl⟩
  · rintro ⟨m, t, hc, hs, rfl⟩
    exact ⟨m, hc, t, hs, rfl⟩

lemma topologySpecs_ok {o o' : Order} {nodes : AList (fun _ : String => Impl)} (hn : Named nodes)
    {topos : List Spec} (h : topologySpecs o o' nodes = .ok topos) :
    ∃ m t, Resolved nodes o' m t topos := by
  obtain ⟨m, t, hc, hs, rfl⟩ := topologySpecs_eq_ok.mp h
  obtain ⟨hv, hout, hin⟩ := Pass.sweep_ok (nodup_positions m (o'.nodup_keys m)) hs
  refine ⟨m, t, (collect_ok hn hc).2, hv, fun p link hp => ?_, fun p hp => ?_, rfl⟩
  · exact hin p (mem_positions.mpr ⟨node_mem_keys o' hp, link, hp⟩) link hp
  · exact (hout p (Or.inr hp)).trans hp

/-- **The order of the nodes does not matter.** If `topologySpecs` succeeds in one order, it
succeeds in every order, with the same specs up to their order. -/
theorem topologySpecs_perm {o o' : Order} {nodes : AList (fun _ : String => Impl)}
    (hn : Named nodes) {topos : List Spec} (h : topologySpecs o o' nodes = .ok topos)
    (q q' : Order) : ∃ topos', topologySpecs q q' nodes = .ok topos' ∧ topos.Perm topos' := by
  obtain ⟨m, t, hc, hs, rfl⟩ := topologySpecs_eq_ok.mp h
  obtain ⟨hall, hm⟩ := collect_ok hn hc
  have hks : ∀ k ∈ q.keys nodes.keys, ∀ n, nodes.lookup k = some n →
      ∃ specs, n.topologySpecs = .ok specs := fun k _ => hall k
  obtain ⟨m', hc'⟩ := exists_foldlM_fetch hks ∅
  have hm' := (collect_ok hn (o := q) hc').2
  have hlook : ∀ k, m'.lookup k = m.lookup k := fun k => (hm' k).trans (hm k).symm
  have hview : view m' = view m := funext fun k => by rw [view, view, hlook]
  have hlink : ∀ p, linkAt m' p = linkAt m p := fun p => by
    rw [linkAt, linkAt, specAt, specAt, hlook]
  have hkeys : (o'.keys m.keys).Perm (q'.keys m'.keys) := by
    refine (List.perm_ext_iff_of_nodup (o'.nodup_keys m) (q'.nodup_keys m')).mpr fun k => ?_
    rw [mem_keys_iff, mem_keys_iff, hlook]
  have hpos : (positions m (o'.keys m.keys)).Perm (positions m' (q'.keys m'.keys)) := by
    have : positions m' (q'.keys m'.keys) = positions m (q'.keys m'.keys) := by
      unfold positions
      simp only [hlook]
    rw [this]
    exact hkeys.flatMap_right _
  obtain ⟨u, hu, huv, hul⟩ := Pass.sweep_perm (P := pass) hview hlink
    (nodup_positions m (o'.nodup_keys m)) hpos hs
  refine ⟨_, topologySpecs_eq_ok.mpr ⟨m', u, hc', hu, rfl⟩, ?_⟩
  have hut : ∀ k, u.lookup k = t.lookup k := lookup_ext huv hul
  simp only [hut]
  exact hkeys.flatMap_right _

end Kne.SpecsOrder
