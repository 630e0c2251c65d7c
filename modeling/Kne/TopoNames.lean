import Kne.TopoNodes

/-!
Which nodes of the topology `load` keeps. The nodes pass through the map `nMap` on their way from
the list of the topology to the map of the manager, and of several nodes of one name only the last
is found there again; `Show` still goes over the list, `Create` and `Delete` over the map.
-/

namespace Kne.TopoNames

open Kne.TopoModel Kne.TopoWiring Kne.TopoEnds Kne.TopoNodes

/-! ### The last place of a name -/

lemma exists_nMap_lookup {names : List String} {n : String} (h : n ∈ names) :
    ∃ i, (nMap names).lookup n = some i := by
  induction names using List.reverseRecOn with
  | nil => simp at h
  | append_singleton names n' ih =>
    rw [nMap_append]
    by_cases hn : n = n'
    · subst hn
      exact ⟨names.length, AList.lookup_insert _⟩
    · rw [AList.lookup_insert_ne hn]
      apply ih
      simpa [hn] using h

lemma nMap_lookup_of_nodup {names : List String} (hnd : names.Nodup) {i : ℕ} {n : String}
    (h : names[i]? = some n) : (nMap names).lookup n = some i := by
  obtain ⟨j, hj⟩ := exists_nMap_lookup (List.mem_of_getElem? h)
  have hlt : i < names.length := (List.getElem?_eq_some_iff.mp h).1
  have hij : i = j := (List.getElem?_inj hlt hnd).mp (h.trans (nMap_lookup hj).symm)
  rw [hj, hij]

lemma nodup_iff_nMap (names : List String) :
    names.Nodup ↔ ∀ i < names.length, ∃ k, (nMap names).lookup k = some i := by
  constructor
  · intro hnd i hi
    exact ⟨names[i], nMap_lookup_of_nodup hnd (List.getElem?_eq_getElem hi)⟩
  · intro h
    refine List.nodup_iff_getElem?_ne_getElem?.mpr fun i j hij hj heq => ?_
    obtain ⟨k, hk⟩ := h i (hij.trans hj)
    obtain ⟨k', hk'⟩ := h j hj
    have hkk : k = k' := by
      apply Option.some.inj
      rw [← nMap_lookup hk, ← nMap_lookup hk', heq]
    rw [hkk, hk'] at hk
    have := Option.some.inj hk
    omega

/-! ### The elements of the manager -/

/-- The node at place `i` of the topology is the one behind the element `k` of `m.nodes`: the loop
over `nMap` took it for `k`, and the constructor made the element from it. -/
def Behind (w : World) (t : Topology) (nodes : AList (fun _ : String => Impl)) (i : ℕ)
    (k : String) : Prop :=
  (places t).lookup k = some i ∧
    ∃ ns n impl, wire t = .ok ns ∧ ns[i]? = some n ∧ w.new t.name n = .ok impl ∧
      nodes.lookup k = some impl

variable {w : World} {t : Topology} {nodes : AList (fun _ : String => Impl)}

lemma behind_iff (h : load w t = .ok nodes) (i : ℕ) (k : String) :
    Behind w t nodes i k ↔ (places t).lookup k = some i := by
  refine ⟨And.left, fun hk => ⟨hk, ?_⟩⟩
  obtain ⟨ns, hload⟩ := load_ok h
  obtain ⟨impl, himpl⟩ := hload.all k i hk
  obtain ⟨n, hn, -, hnew⟩ := hload.made k impl himpl
  rw [nodeOf, hk] at hn
  exact ⟨ns, n, impl, hload.wired, hn, hnew, himpl⟩

lemma Behind.key_unique {i : ℕ} {k k' : String} (hk : Behind w t nodes i k)
    (hk' : Behind w t nodes i k') : k = k' :=
  (names_places t).inj k k' i hk.1 hk'.1

lemma exists_behind (h : load w t = .ok nodes) {k : String} {impl : Impl}
    (hk : nodes.lookup k = some impl) : ∃ i, Behind w t nodes i k := by
  obtain ⟨ns, hload⟩ := load_ok h
  obtain ⟨n, hn, -⟩ := hload.made k impl hk
  obtain ⟨i, hi, -⟩ := Option.bind_eq_some_iff.mp hn
  exact ⟨i, (behind_iff h i k).mpr hi⟩

/-- **The nodes `load` keeps.** When `load` returns without error, the nodes of the topology and
the elements of `m.nodes` correspond one to one just when no two nodes share a name. -/
theorem nodes_kept_iff (w : World) (t : Topology) (nodes : AList (fun _ : String => Impl))
    (h : load w t = .ok nodes) :
    ((∀ i < t.nodes.length, ∃! k, Behind w t nodes i k) ∧
        ∀ k impl, nodes.lookup k = some impl → ∃! i, Behind w t nodes i k) ↔
      (t.nodes.map Node.name).Nodup := by
  rw [nodup_iff_nMap, List.length_map]
  constructor
  · rintro ⟨hall, -⟩ i hi
    obtain ⟨k, hk, -⟩ := hall i hi
    exact ⟨k, hk.1⟩
  · intro hall
    refine ⟨fun i hi => ?_, fun k impl hk => ?_⟩
    · obtain ⟨k, hk⟩ := hall i hi
      have hb := (behind_iff h i k).mpr hk
      exact ⟨k, hb, fun k' hk' => hk'.key_unique hb⟩
    · obtain ⟨i, hi⟩ := exists_behind h hk
      exact ⟨i, hi, fun j hj => Option.some.inj (hj.1.symm.trans hi.1)⟩

/-- Two traffic generators that share the name `ate`. -/
def sameName : Topology where
  nodes := [{ name := "ate", vendor := .keysight }, { name := "ate", vendor := .keysight }]
  links := []

theorem sameName_lost : ∃ nodes, load keysight sameName = .ok nodes ∧
    ¬ ((∀ i < sameName.nodes.length, ∃! k, Behind keysight sameName nodes i k) ∧
      ∀ k impl, nodes.lookup k = some impl → ∃! i, Behind keysight sameName nodes i k) := by
  refine ⟨_, rfl, ?_⟩
  rw [nodes_kept_iff keysight sameName _ rfl]
  decide

theorem shared_name_accepted :
    ¬ ∀ w t nodes, load w t = .ok nodes → ∀ i < t.nodes.length, ∃! k, Behind w t nodes i k := by
  intro h
  obtain ⟨k, hk, -⟩ := h keysight sameName _ rfl 0 (by decide)
  -- the only name is `ate`, and its last place is 1
  have hname : "ate" = k := Option.some.inj (nMap_lookup hk.1)
  rw [← hname] at hk
  exact absurd hk.1 (by decide)

end Kne.TopoNames
