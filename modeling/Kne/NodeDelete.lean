import Kne.NodeMade

/-!
Deleting a node after it was created. `Delete` does not know what `Create` made: it looks for the
services by their label, for the config in the volume of one name, and for the proxy and the pod by
their names. It finds too little when a vendor renames the volume or adds a ConfigMap of its own,
and too much when the store already had something that it takes for the node's.
-/

namespace Kne.NodeDelete

open Kne.Objects Kne.NodeModel Kne.NodePrograms Kne.NodeServices Kne.NodeMade

variable {w : Env} {pb : Proto} {v : NodeType} {n : String} {s t : Cluster} {p : Pod} {o : Obj}

/-! ### What a deletion takes -/

/-- `DeleteService` takes the object for a service of the node. -/
def TakenService (n : String) (t : Cluster) (o : Obj) : Prop :=
  if ∃ x ∈ t.objs, x.Labelled n then o.Labelled n else o.key ∈ serviceKeys n

instance (n : String) (t : Cluster) (o : Obj) : Decidable (TakenService n t o) :=
  inferInstanceAs (Decidable (if ∃ x ∈ t.objs, x.Labelled n then o.Labelled n
    else o.key ∈ serviceKeys n))

lemma labelled_kind (h : o.Labelled n) : o.key.kind = .service := by
  cases o with
  | service svc => rfl
  | _ => exact h.elim

lemma kind_of_mem_serviceKeys {k : Key} (h : k ∈ serviceKeys n) : k.kind = .service := by
  simp only [serviceKeys, List.mem_cons, List.not_mem_nil, or_false] at h
  rcases h with rfl | rfl | rfl <;> rfl

lemma TakenService.kind (h : TakenService n t o) : o.key.kind = .service := by
  unfold TakenService at h
  split_ifs at h
  · exact labelled_kind h
  · exact kind_of_mem_serviceKeys h

lemma takenService_keep {q : Obj → Prop} [DecidablePred q]
    (hq : ∀ x : Obj, x.key.kind = .service → q x) :
    TakenService n (t.keep q) o ↔ TakenService n t o := by
  have hex : (∃ x ∈ (t.keep q).objs, x.Labelled n) ↔ ∃ x ∈ t.objs, x.Labelled n := by
    constructor
    · rintro ⟨x, hx, hl⟩
      exact ⟨x, (Store.mem_keep.mp hx).1, hl⟩
    · rintro ⟨x, hx, hl⟩
      exact ⟨x, Store.mem_keep.mpr ⟨hx, hq x (labelled_kind hl)⟩, hl⟩
  unfold TakenService
  simp only [hex]

lemma deleteService_eq (n : String) (t : Cluster) :
    deleteService n t =
      t.keep fun o => o.key ≠ ⟨.daemonSet, proxyName n⟩ ∧ ¬ TakenService n t o := by
  have hq : ∀ x : Obj, x.key.kind = .service → x.key ≠ ⟨.daemonSet, proxyName n⟩ := by
    intro x hx hk
    rw [hk] at hx
    cases hx
  unfold deleteService
  rw [Store.deleteIfFound_eq]
  simp only
  split_ifs with hitems
  · obtain ⟨x, hx⟩ := hitems
    obtain ⟨hxt, hxl⟩ := Finset.mem_filter.mp hx
    have hex : ∃ x ∈ t.objs, x.Labelled n := ⟨x, (Store.mem_keep.mp hxt).1, hxl⟩
    rw [Store.deleteEach, Store.keep_keep]
    refine Store.keep_congr fun o ho => and_congr_right fun hk => not_congr ?_
    rw [TakenService, if_pos hex, Finset.mem_image]
    constructor
    · rintro ⟨y, hy, hyo⟩
      obtain ⟨hyt, hyl⟩ := Finset.mem_filter.mp hy
      rwa [← t.unique (Store.mem_keep.mp hyt).1 ho hyo]
    · exact fun hl => ⟨o, Finset.mem_filter.mpr ⟨Store.mem_keep.mpr ⟨ho, hk⟩, hl⟩, rfl⟩
  · have hex : ¬ ∃ x ∈ t.objs, x.Labelled n := by
      rintro ⟨x, hx, hl⟩
      refine hitems ⟨x, Finset.mem_filter.mpr ⟨Store.mem_keep.mpr ⟨hx, ?_⟩, hl⟩⟩
      exact hq x (labelled_kind hl)
    rw [Store.foldl_deleteIfFound, Store.deleteEach, Store.keep_keep]
    refine Store.keep_congr fun o _ => and_congr_right fun _ => not_congr ?_
    rw [TakenService, if_neg hex, List.mem_toFinset]

/-- The keys of the config that `DeleteConfig` finds in the pod of the node. -/
def podKeys (n : String) (t : Cluster) : List Key :=
  match t.get? ⟨.pod, n⟩ with
  | some (.pod p) => p.configKeys
  | _ => []

lemma podKeys_eq (hp : .pod p ∈ t.objs) (hn : p.name = n) : podKeys n t = p.configKeys := by
  have hget : t.get? ⟨.pod, n⟩ = some (.pod p) := by
    rw [Store.get?_eq_some_iff]
    exact ⟨hp, by rw [Obj.key, hn]⟩
  rw [podKeys, hget]

lemma podKeys_of_not_has (h : ¬ t.Has ⟨.pod, n⟩) : podKeys n t = [] := by
  rw [podKeys, Store.get?, dif_neg h]

lemma deleteConfig_eq (n : String) (t : Cluster) :
    deleteConfig n t = t.deleteEach (podKeys n t).toFinset := by
  rw [← Store.foldl_deleteIfFound]
  unfold deleteConfig podKeys
  cases t.get? ⟨.pod, n⟩ with
  | none => rfl
  | some o => cases o <;> rfl

lemma implDelete_keep (n : String) (t : Cluster) :
    implDelete n t = t.keep fun o => (o.key ≠ ⟨.daemonSet, proxyName n⟩ ∧ ¬ TakenService n t o) ∧
      o.key ∉ podKeys n t ∧ o.key ≠ ⟨.pod, n⟩ := by
  have hpod : (deleteService n t).get? ⟨.pod, n⟩ = t.get? ⟨.pod, n⟩ := by
    rw [deleteService_eq, Store.get?_keep]
    intro o ho
    refine ⟨by simp [ho], fun h => ?_⟩
    have hkind := h.kind
    rw [ho] at hkind
    cases hkind
  have hkeys : podKeys n (deleteService n t) = podKeys n t := by
    rw [podKeys, hpod, podKeys]
  rw [implDelete, deleteResource, deleteConfig_eq, hkeys, deleteService_eq, Store.deleteEach,
    Store.deleteIfFound_eq, Store.keep_keep, Store.keep_keep]
  refine Store.keep_congr fun o _ => ?_
  rw [List.mem_toFinset, and_assoc]

/-- `Delete` takes the object for one of the node, whose pod is `p`. -/
def Taken (v : NodeType) (n : String) (p : Pod) (t : Cluster) (o : Obj) : Prop :=
  (v = .ciena ∧ o.key = ⟨.configMap, n ++ "-file"⟩) ∨ o.key = ⟨.daemonSet, proxyName n⟩ ∨
    TakenService n t o ∨ o.key ∈ p.configKeys ∨ o.key = ⟨.pod, n⟩

instance (v : NodeType) (n : String) (p : Pod) (t : Cluster) (o : Obj) :
    Decidable (Taken v n p t o) := inferInstanceAs (Decidable (_ ∨ _))

/-- **Deletion.** `Delete` leaves what it does not take for the node's. -/
lemma delete_eq (hp : .pod p ∈ t.objs) (hn : p.name = n) :
    delete n v t = t.keep fun o => ¬ Taken v n p t o := by
  by_cases hv : v = .ciena
  · subst hv
    have hq : ∀ x : Obj, x.key.kind = .service → x.key ≠ ⟨.configMap, n ++ "-file"⟩ := by
      intro x hx hk
      rw [hk] at hx
      cases hx
    have hkept : .pod p ∈ (t.keep fun o => o.key ≠ ⟨.configMap, n ++ "-file"⟩).objs :=
      Store.mem_keep.mpr ⟨hp, by simp [Obj.key]⟩
    rw [delete, cienaDelete, Store.deleteIfFound_eq, implDelete_keep, podKeys_eq hkept hn,
      Store.keep_keep]
    refine Store.keep_congr fun o _ => ?_
    simp only [Taken, takenService_keep hq, true_and, not_or, and_assoc, ne_eq]
  · have hdel : delete n v t = implDelete n t := by
      cases v with
      | ciena => exact absurd rfl hv
      | _ => rfl
    rw [hdel, implDelete_keep, podKeys_eq hp hn]
    refine Store.keep_congr fun o _ => ?_
    simp only [Taken, hv, false_and, false_or, not_or, and_assoc, ne_eq]

/-! ### What it misses -/

lemma configKeys_others {vols : List Volume} (h : Others vols) :
    vols.filterMap Volume.configKey = [] := by
  refine List.filterMap_eq_nil_iff.mpr fun vol hvol => ?_
  rw [Volume.configKey, if_pos (h vol hvol).1]

lemma podOf_configKeys {vols : List Volume} {mounts : List VolumeMount}
    (h : PodOf pb p vols mounts) : p.configKeys = vols.filterMap Volume.configKey := by
  obtain ⟨pre, post, hvols, hpre, hpost⟩ := h.volumes
  rw [Pod.configKeys, hvols, List.filterMap_append, List.filterMap_append, configKeys_others hpre,
    configKeys_others hpost, List.nil_append, List.append_nil]

lemma configMade_key {data : Bytes} {vol : Volume} {cfg : List Obj}
    (h : ConfigMade pb data (some vol) cfg) :
    [vol].filterMap Volume.configKey = cfg.map Obj.key := by
  cases h <;> simp [Volume.configKey, Obj.key]

lemma copyVolumes_keys (vol : Option Volume) :
    (copyVolumes vol).filterMap Volume.configKey = [] := by
  have hne : configSrcVolumeName ≠ configVolumeName := by decide
  cases vol with
  | none => simp [copyVolumes, Volume.configKey]
  | some vol => simp [copyVolumes, Volume.configKey, hne]

lemma configOf_keys {data : Bytes} {cfg : List Obj} (h : ConfigOf pb v data p cfg) :
    p.configKeys = if Copies pb v then [] else cfg.map Obj.key := by
  cases h with
  | mounts vols mounts hv hm hp hi =>
    rw [podOf_configKeys hp, if_neg hv]
    cases hm with
    | absent => rfl
    | mounted data vol cfg hm => exact configMade_key hm
  | copies vol hv hm hp hi =>
    rw [podOf_configKeys hp, if_pos hv]
    exact copyVolumes_keys vol

/-- The objects of a config: none without data, and otherwise a ConfigMap or a file. -/
def ConfigObjs (n : String) (data : Bytes) (cfg : List Obj) : Prop :=
  (cfg = [] ↔ data = []) ∧
    ∀ o ∈ cfg, o.key = ⟨.configMap, n ++ "-config"⟩ ∨ o.key.kind = .file

lemma configMade_cfg {data : Bytes} {vol : Option Volume} {cfg : List Obj}
    (h : ConfigMade pb data vol cfg) : ConfigObjs pb.name data cfg := by
  cases h with
  | none => simp [ConfigObjs]
  | configMap _ hne hlt => simp [ConfigObjs, hne, Obj.key]
  | file _ hge path =>
    have hne : data ≠ [] := by
      rintro rfl
      simp at hge
    simp [ConfigObjs, hne, Obj.key]

lemma mounted_cfg {data : Bytes} {vols : List Volume} {mounts : List VolumeMount}
    {cfg : List Obj} (h : Mounted pb data vols mounts cfg) : ConfigObjs pb.name data cfg := by
  cases h with
  | absent => simp [ConfigObjs]
  | mounted data vol cfg hm => exact configMade_cfg hm

lemma configOf_cfg {data : Bytes} {cfg : List Obj} (h : ConfigOf pb v data p cfg) :
    ConfigObjs pb.name data cfg := by
  cases h with
  | mounts vols mounts hv hm hp hi => exact mounted_cfg hm
  | copies vol hv hm hp hi => exact configMade_cfg hm

lemma append_right_ne {a b : String} (n : String) (h : a ≠ b) : n ++ a ≠ n ++ b :=
  fun hn => h (String.append_right_inj n |>.mp hn)

variable {data : Bytes} {extra cfg : List Obj} {svcs : List Service} {proxies : List DaemonSet}

lemma not_taken_copied (hm : PodMade w pb v data p extra cfg) (hv : Copies pb v) (ho : o ∈ cfg) :
    ¬ Taken v pb.name p t o := by
  have hne : v ≠ .ciena := by
    rcases hv with rfl | ⟨rfl, -⟩ <;> simp
  have hkind : o.key.kind = .configMap ∨ o.key.kind = .file := by
    rcases (configOf_cfg hm.config).2 o ho with h | h
    · exact Or.inl (by rw [h])
    · exact Or.inr h
  rintro (⟨h, -⟩ | h | h | h | h)
  · exact hne h
  · simp [h] at hkind
  · simp [h.kind] at hkind
  · simp [configOf_keys hm.config, hv] at h
  · simp [h] at hkind

lemma not_taken_files (hm : PodMade w pb .alpine data p extra cfg) (ho : o ∈ extra) :
    ¬ Taken .alpine pb.name p t o := by
  have hkey : o.key = ⟨.configMap, pb.name ++ "-files"⟩ := Option.some.inj (hm.vendor o ho)
  rintro (⟨h, -⟩ | h | h | h | h)
  · cases h
  · rw [hkey] at h
    cases h
  · have := h.kind
    rw [hkey] at this
    cases this
  · rw [configOf_keys hm.config, if_neg (by simp [Copies]), List.mem_map] at h
    obtain ⟨x, hx, hxo⟩ := h
    rw [hkey] at hxo
    rcases (configOf_cfg hm.config).2 x hx with h | h
    · rw [h, Key.mk.injEq] at hxo
      exact append_right_ne pb.name (by decide) hxo.2
    · rw [hxo] at h
      cases h
  · rw [hkey] at h
    cases h

lemma all_taken_iff (hm : Made w pb v data p extra cfg svcs proxies)
    (hg : Grown s t (allMade p extra cfg svcs proxies)) :
    (∀ o ∈ allMade p extra cfg svcs proxies, Taken v pb.name p t o) ↔
      (Copies pb v → data = []) ∧ (v = .alpine → ¬ HasFiles pb) := by
  constructor
  · intro hall
    refine ⟨fun hv => ?_, ?_⟩
    · by_contra hd
      obtain ⟨o, ho⟩ := List.exists_mem_of_ne_nil cfg ((configOf_cfg hm.pod.config).1.not.mpr hd)
      exact not_taken_copied hm.pod hv ho (hall o (by simp [allMade, ho]))
    · rintro rfl hfiles
      obtain ⟨o, ho⟩ := List.exists_mem_of_ne_nil extra ((hm.pod.files rfl).mpr hfiles)
      exact not_taken_files hm.pod ho (hall o (by simp [allMade, ho]))
  · rintro ⟨hcopies, hfiles⟩ o ho
    simp only [allMade, List.mem_append, List.mem_singleton] at ho
    rcases ho with ((ho | ho) | rfl) | ho | ho
    · -- the ConfigMap of the vendor
      have hkey := hm.pod.vendor o ho
      cases v with
      | ciena => exact Or.inl ⟨rfl, Option.some.inj hkey⟩
      | alpine =>
        have hne : extra ≠ [] := List.ne_nil_of_mem ho
        exact absurd ((hm.pod.files rfl).mp hne) (hfiles rfl)
      | _ => simp [vendorKey] at hkey
    · -- the config
      have hv : ¬ Copies pb v := by
        intro hv
        rw [(configOf_cfg hm.pod.config).1.mpr (hcopies hv)] at ho
        cases ho
      refine Or.inr (Or.inr (Or.inr (Or.inl ?_)))
      rw [configOf_keys hm.pod.config, if_neg hv]
      exact List.mem_map_of_mem ho
    · exact Or.inr (Or.inr (Or.inr (Or.inr (by rw [Obj.key, configOf_name hm.pod.config]))))
    · obtain ⟨svc, hsvc, rfl⟩ := List.mem_map.mp ho
      have hl : (Obj.service svc).Labelled pb.name := hm.services.labelled svc hsvc
      have hmem : .service svc ∈ t.objs := (hg.mem _).mpr (Or.inr (by simp [allMade, hsvc]))
      refine Or.inr (Or.inr (Or.inl ?_))
      rw [TakenService, if_pos ⟨_, hmem, hl⟩]
      exact hl
    · obtain ⟨ds, hds, rfl⟩ := List.mem_map.mp ho
      exact Or.inr (Or.inl (by rw [Obj.key, hm.services.proxies ds hds]))

/-! ### What it takes besides -/

/-- Nothing in the store looks like a part of the node. -/
structure Apart (pb : Proto) (v : NodeType) (s : Cluster) : Prop where
  proxy : ¬ s.Has ⟨.daemonSet, proxyName pb.name⟩
  labelled : ∀ o ∈ s.objs, ¬ o.Labelled pb.name
  services : ¬ HasServices pb v → ∀ k ∈ serviceKeys pb.name, ¬ s.Has k
  equipment : v = .ciena → ¬ s.Has ⟨.configMap, pb.name ++ "-file"⟩

lemma kind_of_podMade (hm : PodMade w pb v data p extra cfg) (ho : o ∈ extra ++ cfg ++ [.pod p]) :
    o.key.kind ≠ .service ∧ o.key.kind ≠ .daemonSet := by
  simp only [List.mem_append, List.mem_singleton] at ho
  rcases ho with (ho | ho) | rfl
  · have hkey := hm.vendor o ho
    cases v <;> simp only [vendorKey, Option.some.injEq, reduceCtorEq] at hkey <;> simp [hkey]
  · rcases (configOf_cfg hm.config).2 o ho with h | h <;> simp [h]
  · simp [Obj.key]

lemma mem_svcs (hm : Made w pb v data p extra cfg svcs proxies)
    (ho : o ∈ allMade p extra cfg svcs proxies) (hk : o.key.kind = .service) :
    o ∈ svcs.map Obj.service := by
  rcases List.mem_append.mp ho with ho | ho
  · exact absurd hk (kind_of_podMade hm.pod ho).1
  · rcases List.mem_append.mp ho with ho | ho
    · exact ho
    · obtain ⟨ds, -, rfl⟩ := List.mem_map.mp ho
      cases hk

lemma apart_empty (pb : Proto) (v : NodeType) : Apart pb v Store.empty :=
  ⟨Store.not_has_empty _, fun o ho => absurd ho (Finset.notMem_empty o),
    fun _ k _ => Store.not_has_empty k, fun _ => Store.not_has_empty _⟩

lemma labelled_iff (hm : Made w pb v data p extra cfg svcs proxies)
    (hg : Grown s t (allMade p extra cfg svcs proxies)) :
    (∃ x ∈ t.objs, x.Labelled pb.name) ↔
      HasServices pb v ∨ ∃ x ∈ s.objs, x.Labelled pb.name := by
  constructor
  · rintro ⟨x, hx, hl⟩
    rcases (hg.mem x).mp hx with hx | hx
    · exact Or.inr ⟨x, hx, hl⟩
    · refine Or.inl (hm.some_service.mp ?_)
      obtain ⟨svc, hsvc, -⟩ := List.mem_map.mp (mem_svcs hm hx (labelled_kind hl))
      exact List.ne_nil_of_mem hsvc
  · rintro (hs | ⟨x, hx, hl⟩)
    · obtain ⟨svc, hsvc⟩ := List.exists_mem_of_ne_nil svcs (hm.some_service.mpr hs)
      exact ⟨.service svc, (hg.mem _).mpr (Or.inr (by simp [allMade, hsvc])),
        hm.services.labelled svc hsvc⟩
    · exact ⟨x, (hg.mem x).mpr (Or.inl hx), hl⟩

lemma not_mem_configKeys (hm : Made w pb v data p extra cfg svcs proxies)
    (hg : Grown s t (allMade p extra cfg svcs proxies)) (ho : o ∈ s.objs) :
    o.key ∉ p.configKeys := by
  rw [configOf_keys hm.pod.config]
  split_ifs with hv
  · exact List.not_mem_nil
  · intro h
    obtain ⟨x, hx, hxo⟩ := List.mem_map.mp h
    exact hg.fresh x (by simp [allMade, hx]) ⟨o, ho, hxo.symm⟩

lemma nothing_taken_iff (hm : Made w pb v data p extra cfg svcs proxies)
    (hg : Grown s t (allMade p extra cfg svcs proxies)) :
    (∀ o ∈ s.objs, ¬ Taken v pb.name p t o) ↔ Apart pb v s := by
  have hlab := labelled_iff hm hg
  constructor
  · intro hnone
    have hapart : ∀ o ∈ s.objs, ¬ o.Labelled pb.name := by
      intro o ho hl
      refine hnone o ho (Or.inr (Or.inr (Or.inl ?_)))
      rw [TakenService, if_pos (hlab.mpr (Or.inr ⟨o, ho, hl⟩))]
      exact hl
    refine ⟨?_, hapart, ?_, ?_⟩
    · rintro ⟨o, ho, hk⟩
      exact hnone o ho (Or.inr (Or.inl hk))
    · rintro hs k hk ⟨o, ho, rfl⟩
      refine hnone o ho (Or.inr (Or.inr (Or.inl ?_)))
      have hex : ¬ ∃ x ∈ t.objs, x.Labelled pb.name := by
        rw [hlab]
        rintro (h | ⟨x, hx, hl⟩)
        · exact hs h
        · exact hapart x hx hl
      rw [TakenService, if_neg hex]
      exact hk
    · rintro hv ⟨o, ho, hk⟩
      exact hnone o ho (Or.inl ⟨hv, hk⟩)
  · rintro hs o ho (⟨hv, hk⟩ | hk | htaken | hk | hk)
    · exact hs.equipment hv ⟨o, ho, hk⟩
    · exact hs.proxy ⟨o, ho, hk⟩
    · unfold TakenService at htaken
      split_ifs at htaken with hex
      · exact hs.labelled o ho htaken
      · have hnone : ¬ HasServices pb v := fun h => hex (hlab.mpr (Or.inl h))
        exact hs.services hnone o.key htaken ⟨o, ho, rfl⟩
    · exact not_mem_configKeys hm hg ho hk
    · refine hg.fresh (.pod p) (by simp [allMade]) ⟨o, ho, ?_⟩
      rw [hk, Obj.key, configOf_name hm.pod.config]

/-- **Creation undone.** A `Delete` after a successful `Create` restores the store exactly when no
config was copied by an init container, Alpine has no files, and nothing in the store looked like a
part of the node. -/
theorem create_delete_restores_iff (w : Env) (pb : Proto) (v : NodeType) (s t : Cluster)
    (h : create w pb v s = .ok () t) :
    delete pb.name v t = s ↔
      (Copies pb v → readConfig w pb = .ok []) ∧ (v = .alpine → ¬ HasFiles pb) ∧ Apart pb v s := by
  obtain ⟨data, p, extra, cfg, svcs, proxies, hm, hg⟩ := create_made h
  have hp : .pod p ∈ t.objs := (hg.mem _).mpr (Or.inr (by simp [allMade]))
  have hread : readConfig w pb = .ok [] ↔ data = [] := by
    rw [hm.pod.read, Except.ok.injEq]
  rw [delete_eq hp (configOf_name hm.pod.config), hg.keep_eq_iff, nothing_taken_iff hm hg]
  simp only [not_not]
  rw [all_taken_iff hm hg, hread, and_comm, and_assoc]

lemma configMap_left (h : create w pb v s = .ok () t) (hv : Copies pb v)
    (hread : readConfig w pb = .ok data) (hne : data ≠ []) (hlt : data.length < 1048576) :
    (delete pb.name v t).get? ⟨.configMap, pb.name ++ "-config"⟩ =
      some (.configMap ⟨pb.name ++ "-config", [(pb.config.configFile, data)]⟩) := by
  obtain ⟨data', p, extra, cfg, svcs, proxies, hm, hg⟩ := create_made h
  obtain rfl : data = data' := Except.ok.inj (hread.symm.trans hm.pod.read)
  have hp : .pod p ∈ t.objs := (hg.mem _).mpr (Or.inr (by simp [allMade]))
  have hcfg : cfg = [.configMap ⟨pb.name ++ "-config", [(pb.config.configFile, data)]⟩] := by
    cases hm.pod.config with
    | mounts vols mounts hv' hm hp hi => exact absurd hv hv'
    | copies vol hv' hmade hp hi =>
      cases hmade with
      | none => exact absurd rfl hne
      | configMap _ _ _ => rfl
      | file _ hge _ => exact absurd hlt (not_lt.mpr hge)
  rw [delete_eq hp (configOf_name hm.pod.config), Store.get?_eq_some_iff, Store.mem_keep]
  refine ⟨⟨?_, ?_⟩, rfl⟩
  · exact (hg.mem _).mpr (Or.inr (by simp [allMade, hcfg]))
  · exact not_taken_copied hm.pod hv (by simp [hcfg])

/-- A node with a config and a service. -/
def configNode (model : String) : Proto where
  name := "r1"
  model := model
  services := AList.insert 22 { name := "ssh", inside := 22 } ∅
  config := { configPath := "/etc", configFile := "startup.cfg", configData := some (.data [33]) }

lemma create_impl : ∃ t, create bareEnv (configNode "") .impl Store.empty = .ok () t :=
  exists_ok_of_succeeds (by decide +kernel)

theorem configNode_restored : ∃ t, create bareEnv (configNode "") .impl Store.empty = .ok () t ∧
    delete "r1" .impl t = Store.empty := by
  obtain ⟨t, ht⟩ := create_impl
  refine ⟨t, ht, (create_delete_restores_iff _ _ _ _ _ ht).mpr ⟨?_, by simp, ?_⟩⟩
  · simp [Copies]
  · exact apart_empty _ _

lemma create_xrd : ∃ t, create bareEnv (configNode "xrd") .cisco Store.empty = .ok () t :=
  exists_ok_of_succeeds (by decide +kernel)

/-- **The ConfigMap of an XRd is left behind.** -/
theorem copied_config_left : ∃ t, create bareEnv (configNode "xrd") .cisco Store.empty = .ok () t ∧
    (delete "r1" .cisco t).get? ⟨.configMap, "r1" ++ "-config"⟩ =
      some (.configMap ⟨"r1" ++ "-config", [("startup.cfg", [33])]⟩) := by
  obtain ⟨t, ht⟩ := create_xrd
  have hread : readConfig bareEnv (configNode "xrd") = .ok [33] := rfl
  have hleft := configMap_left ht (Or.inr ⟨rfl, rfl⟩) hread (by simp) (by simp)
  exact ⟨t, ht, hleft⟩

end Kne.NodeDelete
