import Kne.SpecsPods

/-!
Nodes that give the same entries. What `topologySpecs` reads of the specs of a node is which entries
they have and in which pods; how they are ordered does not decide whether a peer is found, nor where
a uid is attached.
-/

namespace Kne.SpecsAlike

open Kne.TopoModel Kne.SpecsModel Kne.SpecsOrder Kne.SpecsLinks Kne.SpecsPods
open scoped List

/-- The entries of specs with their pods. -/
def podEntries (specs : List Spec) : List (String × SpecLink) :=
  specs.flatMap fun s => s.links.map fun l => (s.name, l)

lemma entriesOf_eq_podEntries (specs : List Spec) (u : ℤ) :
    entriesOf specs u =
      ((podEntries specs).filter fun e => e.2.uid = u).map fun e => (e.1, e.2.localIntf) := by
  induction specs with
  | nil => rfl
  | cons s specs ih =>
    have hhead : entriesOf (s :: specs) u =
        ((s.links.filter fun l => l.uid = u).map fun l => (s.name, l.localIntf)) ++
          entriesOf specs u := rfl
    have htail : podEntries (s :: specs) =
        (s.links.map fun l => (s.name, l)) ++ podEntries specs := rfl
    rw [hhead, ih, htail, List.filter_append, List.map_append, List.filter_map, List.map_map]
    rfl

lemma entriesOf_perm {specs specs' : List Spec} (h : (podEntries specs).Perm (podEntries specs'))
    (u : ℤ) : (entriesOf specs u).Perm (entriesOf specs' u) := by
  rw [entriesOf_eq_podEntries, entriesOf_eq_podEntries]
  exact (h.filter _).map _

variable {nodes nodes' : AList (fun _ : String => Impl)} {m : NodeSpecs} {k : String}

lemma mem_podEntries_iff {specs : List Spec} (hm : m.lookup k = some specs) {link : SpecLink} :
    (∃ pod, (pod, link) ∈ podEntries specs) ↔ ∃ p, p.node = k ∧ linkAt m p = some link := by
  constructor
  · rintro ⟨pod, h⟩
    obtain ⟨spec, hspec, hlink⟩ := List.mem_flatMap.mp h
    obtain ⟨l, hl, heq⟩ := List.mem_map.mp hlink
    obtain ⟨i, hi⟩ := List.mem_iff_getElem?.mp hspec
    obtain ⟨j, hj⟩ := List.mem_iff_getElem?.mp hl
    cases heq
    exact ⟨⟨k, i, j⟩, rfl, by simp [linkAt, specAt, hm, hi, hj]⟩
  · rintro ⟨p, rfl, hp⟩
    obtain ⟨spec, hspec, hlink⟩ := Option.bind_eq_some_iff.mp hp
    unfold specAt at hspec
    rw [hm, Option.bind_some] at hspec
    refine ⟨spec.name, List.mem_flatMap.mpr ⟨spec, List.mem_of_getElem? hspec, ?_⟩⟩
    exact List.mem_map_of_mem (List.mem_of_getElem? hlink)

/-- The nodes of the second map are those of the first and give the same entries. -/
structure Alike (nodes nodes' : AList (fun _ : String => Impl)) : Prop where
  keys : ∀ k, k ∈ nodes ↔ k ∈ nodes'
  specs : ∀ k impl impl' specs, nodes.lookup k = some impl → nodes'.lookup k = some impl' →
    impl.topologySpecs = .ok specs →
    ∃ specs', impl'.topologySpecs = .ok specs' ∧ (podEntries specs).Perm (podEntries specs')

lemma exists_lookup (hk : k ∈ nodes) : ∃ impl, nodes.lookup k = some impl :=
  Option.isSome_iff_exists.mp (AList.lookup_isSome.mpr hk)

lemma specsOf_of_lookup {impl : Impl} {specs : List Spec} (hk : nodes.lookup k = some impl)
    (hs : impl.topologySpecs = .ok specs) : specsOf nodes k = some specs := by
  simp [specsOf, hk, hs, Except.toOption]

lemma entriesOf_topologySpecs {o o' : Order} (hn : Named nodes) {topos : List Spec}
    (h : topologySpecs o o' nodes = .ok topos) (u : ℤ) :
    (entriesOf topos u).Perm
      (nodes.keys.flatMap fun k => entriesOf ((specsOf nodes k).getD []) u) := by
  obtain ⟨m, t, hc, -⟩ := topologySpecs_eq_ok.mp h
  obtain ⟨hall, -⟩ := collect_ok hn hc
  obtain ⟨m, t, hR⟩ := topologySpecs_ok hn h
  have hkeys : (o'.keys m.keys).Perm nodes.keys := by
    refine (List.perm_ext_iff_of_nodup (o'.nodup_keys m) nodes.keys_nodup).mpr fun k => ?_
    rw [mem_keys_iff, hR.specs, ← AList.mem_keys]
    constructor
    · rintro ⟨specs, hspecs⟩
      obtain ⟨impl, himpl, -⟩ := Option.bind_eq_some_iff.mp hspecs
      exact AList.lookup_isSome.mp (by rw [himpl]; rfl)
    · intro hk
      obtain ⟨impl, himpl⟩ := exists_lookup hk
      obtain ⟨specs, hs⟩ := hall k impl himpl
      exact ⟨specs, specsOf_of_lookup himpl hs⟩
  rw [entriesOf_resolved hR]
  simp only [hR.specs]
  exact hkeys.flatMap_right _

/-- All nodes give specs. -/
def Given (nodes : AList (fun _ : String => Impl)) : Prop :=
  ∀ k impl, nodes.lookup k = some impl → ∃ specs, impl.topologySpecs = .ok specs

lemma Alike.given (ha : Alike nodes nodes') (hall : Given nodes) : Given nodes' := by
  intro k impl' hk'
  have hmem : k ∈ nodes' := AList.lookup_isSome.mp (by rw [hk']; rfl)
  obtain ⟨impl, hk⟩ := exists_lookup ((ha.keys k).mpr hmem)
  obtain ⟨specs, hs⟩ := hall k impl hk
  obtain ⟨specs', hs', -⟩ := ha.specs k impl impl' specs hk hk' hs
  exact ⟨specs', hs'⟩

lemma Alike.cases (ha : Alike nodes nodes') (hall : Given nodes) (k : String) :
    specsOf nodes k = none ∧ specsOf nodes' k = none ∨ ∃ specs specs',
      specsOf nodes k = some specs ∧ specsOf nodes' k = some specs' ∧
        (podEntries specs).Perm (podEntries specs') := by
  by_cases hk : k ∈ nodes
  · obtain ⟨impl, himpl⟩ := exists_lookup hk
    obtain ⟨impl', himpl'⟩ := exists_lookup ((ha.keys k).mp hk)
    obtain ⟨specs, hs⟩ := hall k impl himpl
    obtain ⟨specs', hs', hperm⟩ := ha.specs k impl impl' specs himpl himpl' hs
    exact .inr ⟨specs, specs', specsOf_of_lookup himpl hs, specsOf_of_lookup himpl' hs', hperm⟩
  · have hk' : k ∉ nodes' := fun h => hk ((ha.keys k).mpr h)
    refine .inl ⟨?_, ?_⟩
    · rw [specsOf, AList.lookup_eq_none.mpr hk, Option.bind_none]
    · rw [specsOf, AList.lookup_eq_none.mpr hk', Option.bind_none]

lemma Alike.same_links (ha : Alike nodes nodes') (hall : Given nodes) {m' : NodeSpecs}
    (hm : ∀ k, m.lookup k = specsOf nodes k) (hm' : ∀ k, m'.lookup k = specsOf nodes' k)
    {link : SpecLink} :
    (∃ p, p.node = k ∧ linkAt m p = some link) ↔ ∃ p, p.node = k ∧ linkAt m' p = some link := by
  rcases ha.cases hall k with ⟨hnone, hnone'⟩ | ⟨specs, specs', hs, hs', hperm⟩
  · have hno : ∀ {l : NodeSpecs}, l.lookup k = none →
        ¬ ∃ p, p.node = k ∧ linkAt l p = some link := by
      rintro l hl ⟨p, rfl, hp⟩
      simp [linkAt, specAt, hl] at hp
    exact iff_of_false (hno ((hm k).trans hnone)) (hno ((hm' k).trans hnone'))
  · rw [← mem_podEntries_iff ((hm k).trans hs), ← mem_podEntries_iff ((hm' k).trans hs')]
    simp only [hperm.mem_iff]

lemma Alike.resolves (ha : Alike nodes nodes') (hall : Given nodes) {m' t : NodeSpecs} {o' : Order}
    {topos : List Spec} (hR : Resolved nodes o' m t topos)
    (hm' : ∀ k, m'.lookup k = specsOf nodes' k) {p : Pos} {link : SpecLink}
    (hp : linkAt m' p = some link) : ∃ link', resolve m' p link = .ok link' := by
  obtain ⟨p₀, hnode, hp₀⟩ := (ha.same_links hall hR.specs hm').mpr ⟨p, rfl, hp⟩
  obtain ⟨link', hres, -⟩ := hR.links p₀ link hp₀
  obtain ⟨q₀, -, e, hq₀, -, he, hpeer, -⟩ := resolve_ok hres
  obtain ⟨q, hq, he'⟩ := (ha.same_links hall hR.specs hm').mp ⟨q₀, hq₀, he⟩
  exact exists_resolve hq he' (hnode ▸ hpeer)

/-- **Nodes that are alike are wired alike.** If `topologySpecs` succeeds for the nodes, it succeeds
for nodes that give the same entries, in every order, and attaches each uid to the same interfaces
of the same pods. -/
theorem topologySpecs_alike {o o' : Order} (hn : Named nodes) (hn' : Named nodes')
    (ha : Alike nodes nodes') {topos : List Spec} (h : topologySpecs o o' nodes = .ok topos)
    (q q' : Order) : ∃ topos', topologySpecs q q' nodes' = .ok topos' ∧
      ∀ u, (entriesOf topos u).Perm (entriesOf topos' u) := by
  obtain ⟨_, _, hc, -⟩ := topologySpecs_eq_ok.mp h
  have hall : Given nodes := (collect_ok hn hc).1
  obtain ⟨m, t, hR⟩ := topologySpecs_ok hn h
  obtain ⟨m', hc'⟩ : ∃ m', collect q nodes' = .ok m' :=
    exists_foldlM_fetch (fun k _ => ha.given hall k) ∅
  have hm' := (collect_ok hn' hc').2
  obtain ⟨t', hs'⟩ := Sweep.Pass.exists_sweep (P := pass) (nodup_positions m' (q'.nodup_keys m'))
    fun p _ link hp => ha.resolves hall hR hm' hp
  have hok := topologySpecs_eq_ok.mpr ⟨m', t', hc', hs', rfl⟩
  refine ⟨_, hok, fun u => ?_⟩
  have hkeys : nodes.keys.Perm nodes'.keys :=
    (List.perm_ext_iff_of_nodup nodes.keys_nodup nodes'.keys_nodup).mpr fun k => by
      rw [← AList.mem_keys, ← AList.mem_keys, ha.keys]
  have hnode : ∀ k, (entriesOf ((specsOf nodes k).getD []) u).Perm
      (entriesOf ((specsOf nodes' k).getD []) u) := by
    intro k
    rcases ha.cases hall k with ⟨hnone, hnone'⟩ | ⟨specs, specs', hs, hs', hperm⟩
    · rw [hnone, hnone']
    · rw [hs, hs']
      exact entriesOf_perm hperm u
  calc entriesOf topos u
      ~ nodes.keys.flatMap fun k => entriesOf ((specsOf nodes k).getD []) u :=
        entriesOf_topologySpecs hn h u
    _ ~ nodes'.keys.flatMap fun k => entriesOf ((specsOf nodes' k).getD []) u :=
        hkeys.flatMap fun k _ => hnode k
    _ ~ entriesOf _ u := (entriesOf_topologySpecs hn' hok u).symm

lemma entriesOf_cancel {o o' q q' : Order} (hn : Named nodes) (hn' : Named nodes')
    {topos topos' : List Spec} (h : topologySpecs o o' nodes = .ok topos)
    (h' : topologySpecs q q' nodes' = .ok topos') (hkeys : ∀ k, k ∈ nodes ↔ k ∈ nodes')
    (hk : k ∈ nodes) (hsame : ∀ k', k' ≠ k → specsOf nodes k' = specsOf nodes' k') {u : ℤ}
    (hperm : (entriesOf topos u).Perm (entriesOf topos' u)) :
    (entriesOf ((specsOf nodes k).getD []) u).Perm (entriesOf ((specsOf nodes' k).getD []) u) := by
  set rest := nodes.keys.erase k with hrest
  have hsplit : nodes.keys ~ k :: rest := List.perm_cons_erase (AList.mem_keys.mp hk)
  have hkeys' : nodes'.keys ~ k :: rest := by
    refine List.Perm.trans ?_ hsplit
    refine (List.perm_ext_iff_of_nodup nodes'.keys_nodup nodes.keys_nodup).mpr fun k => ?_
    rw [← AList.mem_keys, ← AList.mem_keys, hkeys]
  have hothers : rest.flatMap (fun k => entriesOf ((specsOf nodes' k).getD []) u) =
      rest.flatMap fun k => entriesOf ((specsOf nodes k).getD []) u := by
    refine List.flatMap_congr fun k' hk' => ?_
    have hne : k' ≠ k := by
      rintro rfl
      exact nodes.keys_nodup.not_mem_erase hk'
    rw [hsame k' hne]
  refine (List.perm_append_right_iff
    (rest.flatMap fun k => entriesOf ((specsOf nodes k).getD []) u)).mp ?_
  calc entriesOf ((specsOf nodes k).getD []) u ++ rest.flatMap (fun k =>
        entriesOf ((specsOf nodes k).getD []) u)
      ~ entriesOf topos u :=
        ((entriesOf_topologySpecs hn h u).trans (hsplit.flatMap_right _)).symm
    _ ~ entriesOf topos' u := hperm
    _ ~ (k :: rest).flatMap fun k => entriesOf ((specsOf nodes' k).getD []) u :=
        (entriesOf_topologySpecs hn' h' u).trans (hkeys'.flatMap_right _)
    _ = entriesOf ((specsOf nodes' k).getD []) u ++ rest.flatMap fun k =>
        entriesOf ((specsOf nodes k).getD []) u := by rw [List.flatMap_cons, hothers]

end Kne.SpecsAlike
