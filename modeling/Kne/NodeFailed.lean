import Kne.NodeDelete

/-!
What a program that fails has left behind. `CreateService` takes its services back when it fails;
`CreateConfig` takes back its file. A pod that cannot be created leaves its config, though, and
`Delete` looks for a config only in the pod.
-/

namespace Kne.NodeFailed

open Kne.Objects Kne.NodeModel Kne.NodePrograms Kne.NodeServices Kne.NodeMade Kne.NodeDelete

variable {w : Env} {pb : Proto} {s t : Cluster} {α : Type} {e : Err}

/-! ### Services -/

lemma rollback_eq {created : List Service} (h : Grown s t (created.map .service)) :
    rollback created t = s := by
  have hkeys : created.map (fun svc => (⟨.service, svc.name⟩ : Key)) =
      (created.map Obj.service).map Obj.key := by
    rw [List.map_map]
    rfl
  rw [rollback, hkeys, Store.foldl_deleteIfFound, h.deleteEach_eq]

/-- The induction is on the services still to be created; `created` and what was added grow
together. -/
lemma createServices_error {created rest : List Service} {u : Cluster}
    (hg : Grown s u (created.map .service)) (h : createServices w created rest u = .error e t) :
    s = t := by
  induction rest generalizing created u with
  | nil => exact absurd h pure_ne_error
  | cons svc rest ih =>
    rcases seq_eq_error_iff.mp h with h | ⟨u', hcreate, hrest⟩
    · obtain ⟨u', hfail, rfl⟩ := undoing_error h
      obtain rfl := createObj_error hfail
      exact (rollback_eq hg).symm
    · have hg' := hg.trans (grown_createObj (undoing_ok_iff.mp hcreate))
      exact ih (by rwa [List.map_append]) hrest

lemma createProxy_error {created : List Service} (h : createProxy w pb created s = .error e t) :
    s = t := by
  unfold createProxy at h
  cases hp : proxiedPorts pb created with
  | nil =>
    rw [hp] at h
    exact absurd h pure_ne_error
  | cons port ports =>
    rw [hp] at h
    obtain ⟨e', -, hfail⟩ := wrap_error h
    exact createObj_error hfail

lemma createService_error (h : createService w pb s = .error e t) : s = t := by
  unfold createService at h
  split_ifs at h with hkeys
  · exact absurd h pure_ne_error
  · rcases bind_eq_error_iff.mp h with h | ⟨ports, u, hor, hrest⟩
    · exact (orFail_error h).1
    obtain ⟨-, rfl⟩ := orFail_ok_iff.mp hor
    rcases bind_eq_error_iff.mp hrest with h | ⟨created, u, hcreated, hproxy⟩
    · exact createServices_error (.refl s) h
    · obtain ⟨hout, hg⟩ := createServices_made hcreated
      obtain ⟨u', hfail, rfl⟩ := undoing_error hproxy
      obtain rfl := createProxy_error hfail
      rw [hout, List.nil_append]
      exact (rollback_eq hg).symm

lemma forwardCreateService_error (h : forwardCreateService w pb s = .error e t) : s = t := by
  rcases seq_eq_error_iff.mp h with h | ⟨u, hpeer, hrest⟩
  · obtain ⟨e', -, hfail⟩ := wrap_error h
    exact createObj_error hfail
  · have hg := grown_createObj (wrap_ok_iff.mp hpeer)
    obtain ⟨u', hfail, rfl⟩ := undoing_error hrest
    obtain rfl := createService_error hfail
    have hback : rollback [peerService pb] u = s := rollback_eq hg
    exact hback.symm

/-- **All or nothing.** A `CreateService` that fails, of `Impl` or of Forward, leaves the store as
it was, whatever was in it and whichever request was refused. -/
theorem createService_all_or_nothing (w : Env) (pb : Proto) (s t : Cluster) (e : Err) :
    (createService w pb s = .error e t → t = s) ∧
      (forwardCreateService w pb s = .error e t → t = s) :=
  ⟨fun h => (createService_error h).symm, fun h => (forwardCreateService_error h).symm⟩

/-- A service behind a proxy. -/
def proxiedSvc : Svc where
  name := "http"
  inside := 80
  nodePort := 30080
  type := .nodePort
  externalIpv6 := true

/-- A node with services of two types. -/
def proxyNode : Proto where
  name := "r1"
  services := AList.insert 22 { name := "ssh", inside := 22 } (AList.insert 80 proxiedSvc ∅)

/-- The proxy is refused. -/
def noProxyEnv : Env :=
  { bareEnv with refuse := fun k => if k.kind = .daemonSet then some "forbidden" else none }

/-- A store with a service of a name that the node would use. -/
def takenStore : Cluster where
  objs := {.service { name := "service-r1-nodeport", labels := [], selector := [] }}
  unique := by simp

theorem proxyNode_undone :
    (∃ e t, createService noProxyEnv proxyNode Store.empty = .error e t ∧ t = Store.empty) ∧
      ∃ e t, forwardCreateService bareEnv proxyNode takenStore = .error e t ∧ t = takenStore := by
  constructor
  · obtain ⟨e, t, h⟩ := exists_error_of_not_succeeds
      (x := createService noProxyEnv proxyNode) (s := Store.empty) (by decide +kernel)
    exact ⟨e, t, h, (createService_all_or_nothing _ _ _ _ _).1 h⟩
  · obtain ⟨e, t, h⟩ := exists_error_of_not_succeeds
      (x := forwardCreateService bareEnv proxyNode) (s := takenStore) (by decide +kernel)
    exact ⟨e, t, h, (createService_all_or_nothing _ _ _ _ _).2 h⟩

/-! ### The config -/

/-- The temporary file of a large config. -/
def tempPath (w : Env) (pb : Proto) : String :=
  tempCfgDir ++ "/kne-" ++ pb.name ++ "-config-" ++ w.temp ++ ".cfg"

/-- What `CreateConfig` needs to store a config. -/
def ConfigFits (w : Env) (pb : Proto) (data : Bytes) (s : Cluster) : Prop :=
  if data.length < 1048576 then Free w s ⟨.configMap, pb.name ++ "-config"⟩
  else w.tempErr = none ∧ w.writeErr = none ∧ Free w s ⟨.file, tempPath w pb⟩

lemma createTemp_ok_iff (data : Bytes) : (∃ path t, createTemp w pb data s = .ok path t) ↔
    w.tempErr = none ∧ w.writeErr = none ∧ Free w s ⟨.file, tempPath w pb⟩ := by
  have hfree := createObj_ok_iff (w := w) (s := s) (.file ⟨tempPath w pb, data⟩)
  constructor
  · rintro ⟨path, t, h⟩
    unfold createTemp at h
    cases ht : w.tempErr with
    | some err =>
      rw [ht] at h
      exact absurd h throw_ne_ok
    | none =>
      rw [ht] at h
      obtain ⟨u, hcreate, hrest⟩ := seq_eq_ok_iff.mp h
      cases hw : w.writeErr with
      | some err =>
        rw [hw] at hrest
        obtain ⟨u', -, hthrow⟩ := seq_eq_ok_iff.mp hrest
        exact absurd hthrow throw_ne_ok
      | none => exact ⟨rfl, rfl, hfree.mp ⟨u, hcreate⟩⟩
  · rintro ⟨ht, hw, hf⟩
    obtain ⟨t, hcreate⟩ := hfree.mpr hf
    refine ⟨tempPath w pb, t, ?_⟩
    unfold createTemp
    rw [ht]
    refine seq_eq_ok_iff.mpr ⟨t, hcreate, ?_⟩
    rw [hw]
    rfl

lemma createTemp_error {data : Bytes} (h : createTemp w pb data s = .error e t) : s = t := by
  unfold createTemp at h
  cases ht : w.tempErr with
  | some err =>
    rw [ht] at h
    exact (throw_eq_error_iff.mp h).2
  | none =>
    rw [ht] at h
    rcases seq_eq_error_iff.mp h with h | ⟨u, hcreate, hrest⟩
    · exact createObj_error h
    cases hw : w.writeErr with
    | none =>
      rw [hw] at hrest
      exact absurd hrest pure_ne_error
    | some err =>
      rw [hw] at hrest
      rcases seq_eq_error_iff.mp hrest with h | ⟨u', hremove, hthrow⟩
      · cases h
      · obtain ⟨-, rfl⟩ := throw_eq_error_iff.mp hthrow
        cases hremove
        have hg := (grown_createObj hcreate).deleteEach_eq
        rw [List.map_singleton, ← Store.foldl_deleteIfFound] at hg
        exact hg.symm

lemma createConfig_error (h : createConfig w pb s = .error e t) : s = t := by
  rcases bind_eq_error_iff.mp h with h | ⟨data, u, hor, hrest⟩
  · exact (orFail_error h).1
  obtain ⟨-, rfl⟩ := orFail_ok_iff.mp hor
  split_ifs at hrest with hzero hlt
  · exact absurd hrest pure_ne_error
  · rcases seq_eq_error_iff.mp hrest with h | ⟨u, -, hpure⟩
    · exact createObj_error h
    · exact absurd hpure pure_ne_error
  · rcases bind_eq_error_iff.mp hrest with h | ⟨path, u, -, hpure⟩
    · exact createTemp_error h
    · exact absurd hpure pure_ne_error

lemma mountConfig_error (h : mountConfig w pb s = .error e t) : s = t := by
  unfold mountConfig at h
  cases hd : pb.config.configData with
  | none =>
    rw [hd] at h
    exact absurd h pure_ne_error
  | some d =>
    rw [hd] at h
    rcases bind_eq_error_iff.mp h with h | ⟨vol, u, hconfig, hrest⟩
    · exact createConfig_error h
    cases vol with
    | some vol => exact absurd hrest pure_ne_error
    | none =>
      -- nothing was stored for an empty config
      obtain ⟨data, cfg, -, hm, hg⟩ := createConfig_made hconfig
      cases hm
      rw [← (throw_eq_error_iff.mp hrest).2]
      exact hg.eq_of_nil

/-- The config of the node gets stored. -/
def Stores (w : Env) (pb : Proto) (s : Cluster) : Prop :=
  ∃ data, readConfig w pb = .ok data ∧ data ≠ [] ∧ ConfigFits w pb data s

lemma createConfig_stores_iff :
    (∃ vol t, createConfig w pb s = .ok (some vol) t) ↔ Stores w pb s := by
  constructor
  · rintro ⟨vol, t, h⟩
    obtain ⟨data, u, hor, hrest⟩ := bind_eq_ok_iff.mp h
    obtain ⟨hread, rfl⟩ := orFail_ok_iff.mp hor
    split_ifs at hrest with hzero hlt
    · cases (pure_eq_ok_iff.mp hrest).1
    · obtain ⟨u, hcreate, -⟩ := seq_eq_ok_iff.mp hrest
      refine ⟨data, hread, fun hd => hzero (by simp [hd]), ?_⟩
      rw [ConfigFits, if_pos hlt]
      exact (createObj_ok_iff _).mp ⟨u, hcreate⟩
    · obtain ⟨path, u, htemp, -⟩ := bind_eq_ok_iff.mp hrest
      refine ⟨data, hread, fun hd => hzero (by simp [hd]), ?_⟩
      rw [ConfigFits, if_neg hlt]
      exact (createTemp_ok_iff data).mp ⟨path, u, htemp⟩
  · rintro ⟨data, hread, hne, hfits⟩
    have hzero : data.length ≠ 0 := fun h => hne (List.length_eq_zero_iff.mp h)
    have hor : orFail (readConfig w pb) s = .ok data s := orFail_ok_iff.mpr ⟨hread, rfl⟩
    unfold ConfigFits at hfits
    split_ifs at hfits with hlt
    · obtain ⟨t, hcreate⟩ := (createObj_ok_iff
        (.configMap ⟨pb.name ++ "-config", [(pb.config.configFile, data)]⟩)).mpr hfits
      refine ⟨⟨configVolumeName, .configMap (pb.name ++ "-config")⟩, t,
        bind_eq_ok_iff.mpr ⟨data, s, hor, ?_⟩⟩
      rw [if_neg hzero, if_pos hlt]
      exact seq_eq_ok_iff.mpr ⟨t, hcreate, rfl⟩
    · obtain ⟨path, t, htemp⟩ := (createTemp_ok_iff data).mpr hfits
      refine ⟨⟨configVolumeName, .hostPath path⟩, t, bind_eq_ok_iff.mpr ⟨data, s, hor, ?_⟩⟩
      rw [if_neg hzero, if_neg hlt]
      exact bind_eq_ok_iff.mpr ⟨path, t, htemp, rfl⟩

lemma mountConfig_ok_of_stores (h : Stores w pb s) : ∃ x t, mountConfig w pb s = .ok x t := by
  obtain ⟨vol, t, hconfig⟩ := createConfig_stores_iff.mpr h
  obtain ⟨data, hread, hne, -⟩ := h
  unfold mountConfig
  cases hd : pb.config.configData with
  | none =>
    rw [readConfig, hd] at hread
    cases hread
    exact absurd rfl hne
  | some d => exact ⟨_, t, bind_eq_ok_iff.mpr ⟨some vol, t, hconfig, rfl⟩⟩

lemma stores_of_mounted {data : Bytes} {vols : List Volume} {mounts : List VolumeMount}
    (h : mountConfig w pb s = .ok (vols, mounts) t) (hread : readConfig w pb = .ok data)
    (hne : data ≠ []) : Stores w pb s := by
  unfold mountConfig at h
  cases hd : pb.config.configData with
  | none =>
    rw [readConfig, hd] at hread
    cases hread
    exact absurd rfl hne
  | some d =>
    rw [hd] at h
    obtain ⟨vol, u, hconfig, hrest⟩ := bind_eq_ok_iff.mp h
    cases vol with
    | none => exact absurd hrest throw_ne_ok
    | some vol => exact createConfig_stores_iff.mp ⟨vol, u, hconfig⟩

/-! ### A failed `Create` -/

/-- The links of the node, which `Impl.CreatePod` counts, can be read. -/
def LinksOk (w : Env) (pb : Proto) : Prop :=
  ∃ links, SpecsModel.getNodeLinks w.order { name := pb.name, interfaces := pb.interfaces } =
    .ok links

/-- The pod is refused after its config has been stored. -/
structure Stranded (w : Env) (pb : Proto) (s : Cluster) : Prop where
  links : LinksOk w pb
  stores : Stores w pb s
  refused : w.refuse ⟨.pod, pb.name⟩ ≠ none

/-- Where `Impl.Create` stands when it returns an error: it has done nothing, it has stored the
config and has no pod, or it has its pod. -/
inductive Stopped (w : Env) (pb : Proto) (s t : Cluster) : Prop
  | before (ht : s = t) (hs : ¬ (LinksOk w pb ∧ Stores w pb s))
  | stored (cfg : List Obj) (hl : LinksOk w pb) (hs : Stores w pb s) (hg : Grown s t cfg)
      (hne : cfg ≠ [])
      (hcfg : ∀ o ∈ cfg, o.key = ⟨.configMap, pb.name ++ "-config"⟩ ∨ o.key.kind = .file)
      (hpod : ¬ Free w t ⟨.pod, pb.name⟩)
  | services (hpod : MakesPod w pb .impl s t) (hr : w.refuse ⟨.pod, pb.name⟩ = none)

lemma implCreatePod_failed {text : String} (h : implCreatePod w pb s = .error (.failed text) t) :
    Stopped w pb s t := by
  rcases bind_eq_error_iff.mp h with h | ⟨links, u, hor, hrest⟩
  · obtain ⟨ht, err, herr⟩ := orFail_error h
    refine .before ht ?_
    rintro ⟨⟨links, hlinks⟩, -⟩
    rw [hlinks] at herr
    cases herr
  obtain ⟨hlinks, rfl⟩ := orFail_ok_iff.mp hor
  rcases seq_eq_error_iff.mp hrest with h | ⟨u, hres, hrest⟩
  · obtain ⟨text', htext⟩ := toResourceRequirements_error h
    cases htext
  obtain rfl := toResourceRequirements_ok hres
  rcases bind_eq_error_iff.mp hrest with h | ⟨⟨vols, mounts⟩, u, hmount, hpod⟩
  · refine .before (mountConfig_error h) ?_
    rintro ⟨-, hs⟩
    obtain ⟨x, u, hok⟩ := mountConfig_ok_of_stores hs
    rw [hok] at h
    cases h
  · obtain rfl := createObj_error hpod
    obtain ⟨data, cfg, hread, hm, hg⟩ := mountConfig_made hmount
    have hfree : ¬ Free w u ⟨.pod, pb.name⟩ := not_free_of_error hpod
    by_cases hd : data = []
    · subst hd
      cases hm with
      | absent =>
        refine .before hg.eq_of_nil ?_
        rintro ⟨-, data, hread', hne, -⟩
        rw [hread] at hread'
        cases hread'
        exact hne rfl
      | mounted _ vol _ hm => cases hm <;> simp_all
    · have hc := mounted_cfg hm
      exact .stored cfg ⟨links, hlinks⟩ (stores_of_mounted hmount hread hd) hg
        (hc.1.not.mpr hd) hc.2 hfree

lemma implCreatePod_free {z : Unit} (h : implCreatePod w pb s = .ok z t) :
    w.refuse ⟨.pod, pb.name⟩ = none := by
  obtain ⟨links, u, -, hrest⟩ := bind_eq_ok_iff.mp h
  obtain ⟨⟨vols, mounts⟩, u', -, hpod⟩ := bind_eq_ok_iff.mp (resources_seq_ok hrest)
  exact ((createObj_ok_iff _).mp ⟨t, hpod⟩).1

lemma create_failed {text : String} (h : create w pb .impl s = .error (.failed text) t) :
    Stopped w pb s t := by
  rcases seq_eq_error_iff.mp h with h | ⟨u, hpod, h⟩
  · obtain ⟨e, he, hpod⟩ := wrap_error h
    cases e with
    | failed text' => exact implCreatePod_failed hpod
    | panic text' => cases he
  · obtain ⟨e, -, hsvc⟩ := wrap_error h
    obtain rfl := createService_error hsvc
    exact .services (implCreatePod_made (wrap_ok_iff.mp hpod))
      (implCreatePod_free (wrap_ok_iff.mp hpod))

/-! ### The `Delete` after it -/

/-- Nothing in the store that `Delete` takes for the node's. -/
structure Vacant (n : String) (s : Cluster) : Prop where
  pod : ¬ s.Has ⟨.pod, n⟩
  proxy : ¬ s.Has ⟨.daemonSet, proxyName n⟩
  labelled : ∀ o ∈ s.objs, ¬ o.Labelled n
  services : ∀ k ∈ serviceKeys n, ¬ s.Has k

variable {n : String}

lemma services_kept_iff (hlab : (∃ x ∈ t.objs, x.Labelled n) ↔ ∃ x ∈ s.objs, x.Labelled n) :
    (∀ o ∈ s.objs, ¬ TakenService n t o) ↔
      (∀ o ∈ s.objs, ¬ o.Labelled n) ∧ ∀ k ∈ serviceKeys n, ¬ s.Has k := by
  constructor
  · intro h
    have hnone : ∀ o ∈ s.objs, ¬ o.Labelled n := by
      intro o ho hl
      refine h o ho ?_
      rw [TakenService, if_pos (hlab.mpr ⟨o, ho, hl⟩)]
      exact hl
    refine ⟨hnone, ?_⟩
    rintro k hk ⟨o, ho, rfl⟩
    have hex : ¬ ∃ x ∈ t.objs, x.Labelled n := by
      rw [hlab]
      rintro ⟨x, hx, hl⟩
      exact hnone x hx hl
    refine h o ho ?_
    rw [TakenService, if_neg hex]
    exact hk
  · rintro ⟨hnone, hkeys⟩ o ho htaken
    unfold TakenService at htaken
    split_ifs at htaken with hex
    · exact hnone o ho htaken
    · exact hkeys o.key htaken ⟨o, ho, rfl⟩

lemma kept_iff_vacant (hlab : (∃ x ∈ t.objs, x.Labelled n) ↔ ∃ x ∈ s.objs, x.Labelled n)
    (hkeys : ¬ s.Has ⟨.pod, n⟩ → ∀ o ∈ s.objs, o.key ∉ podKeys n t) :
    (∀ o ∈ s.objs, (o.key ≠ ⟨.daemonSet, proxyName n⟩ ∧ ¬ TakenService n t o) ∧
      o.key ∉ podKeys n t ∧ o.key ≠ ⟨.pod, n⟩) ↔ Vacant n s := by
  have hsvc := services_kept_iff hlab
  constructor
  · intro h
    obtain ⟨hnone, hnames⟩ := hsvc.mp fun o ho => (h o ho).1.2
    refine ⟨?_, ?_, hnone, hnames⟩
    · rintro ⟨o, ho, hk⟩
      exact (h o ho).2.2 hk
    · rintro ⟨o, ho, hk⟩
      exact (h o ho).1.1 hk
  · intro h o ho
    refine ⟨⟨fun hk => h.proxy ⟨o, ho, hk⟩, hsvc.mpr ⟨h.labelled, h.services⟩ o ho⟩,
      hkeys h.pod o ho, fun hk => h.pod ⟨o, ho, hk⟩⟩

lemma labelled_grown {as : List Obj} (hg : Grown s t as) (h : ∀ o ∈ as, o.key.kind ≠ .service) :
    (∃ x ∈ t.objs, x.Labelled n) ↔ ∃ x ∈ s.objs, x.Labelled n := by
  constructor
  · rintro ⟨x, hx, hl⟩
    rcases (hg.mem x).mp hx with hx | hx
    · exact ⟨x, hx, hl⟩
    · exact absurd (labelled_kind hl) (h x hx)
  · rintro ⟨x, hx, hl⟩
    exact ⟨x, (hg.mem x).mpr (Or.inl hx), hl⟩

lemma delete_before_iff : implDelete n s = s ↔ Vacant n s := by
  have hall := (Grown.refl s).keep_eq_iff (fun o =>
    (o.key ≠ ⟨.daemonSet, proxyName n⟩ ∧ ¬ TakenService n s o) ∧
      o.key ∉ podKeys n s ∧ o.key ≠ ⟨.pod, n⟩)
  rw [implDelete_keep, hall]
  refine Iff.trans (and_iff_left (by simp)) (kept_iff_vacant Iff.rfl fun hpod o _ => ?_)
  rw [podKeys_of_not_has hpod]
  exact List.not_mem_nil

lemma delete_stored {cfg : List Obj} (hg : Grown s t cfg) (hne : cfg ≠ [])
    (hcfg : ∀ o ∈ cfg, o.key = ⟨.configMap, n ++ "-config"⟩ ∨ o.key.kind = .file) :
    implDelete n t ≠ s := by
  intro hrestored
  rw [implDelete_keep, hg.keep_eq_iff] at hrestored
  obtain ⟨hkept, hgone⟩ := hrestored
  have hkind : ∀ o ∈ cfg, o.key.kind = .configMap ∨ o.key.kind = .file := by
    intro o ho
    rcases hcfg o ho with h | h
    · exact Or.inl (by rw [h])
    · exact Or.inr h
  have hpod : ¬ t.Has ⟨.pod, n⟩ := by
    rintro ⟨o, ho, hk⟩
    rcases (hg.mem o).mp ho with ho | ho
    · exact (hkept o ho).2.2 hk
    · simpa [hk] using hkind o ho
  obtain ⟨o, ho⟩ := List.exists_mem_of_ne_nil cfg hne
  refine hgone o ho ⟨⟨fun hk => ?_, fun htaken => ?_⟩, ?_, fun hk => ?_⟩
  · simpa [hk] using hkind o ho
  · simpa [htaken.kind] using hkind o ho
  · rw [podKeys_of_not_has hpod]
    exact List.not_mem_nil
  · simpa [hk] using hkind o ho

lemma delete_services_iff (h : MakesPod w pb .impl s t) :
    implDelete pb.name t = s ↔ Vacant pb.name s := by
  obtain ⟨data, p, extra, cfg, hm, hg⟩ := h
  have hextra : extra = [] := by
    refine List.eq_nil_iff_forall_not_mem.mpr fun o ho => ?_
    cases hm.vendor o ho
  rw [hextra, List.nil_append] at hg
  have hp : .pod p ∈ t.objs := (hg.mem _).mpr (Or.inr (by simp))
  have hname := configOf_name hm.config
  have hkeys : podKeys pb.name t = cfg.map Obj.key := by
    rw [podKeys_eq hp hname, configOf_keys hm.config, if_neg (by simp [Copies])]
  have hcfg := (configOf_cfg hm.config).2
  rw [implDelete_keep, hg.keep_eq_iff]
  refine Iff.trans (and_iff_left fun o ho => ?_) (kept_iff_vacant ?_ fun _ o ho => ?_)
  · rintro ⟨-, hk, hne⟩
    rcases List.mem_append.mp ho with ho | ho
    · exact hk (by rw [hkeys]; exact List.mem_map_of_mem ho)
    · rw [List.mem_singleton.mp ho] at hne
      exact hne (by rw [Obj.key, hname])
  · refine labelled_grown hg fun o ho => ?_
    rcases List.mem_append.mp ho with ho | ho
    · rcases hcfg o ho with h | h <;> simp [h]
    · rw [List.mem_singleton.mp ho]
      simp [Obj.key]
  · rw [hkeys]
    intro hmem
    obtain ⟨x, hx, hxo⟩ := List.mem_map.mp hmem
    exact hg.fresh x (by simp [hx]) ⟨o, ho, hxo.symm⟩

/-- **A failed creation undone.** A `Delete` after a `Create` of the default node that returned an
error restores the store exactly when nothing in it looked like a part of the node, and the pod was
not refused after its config had been stored. -/
theorem failed_create_deleted_iff (w : Env) (pb : Proto) (s t : Cluster) (text : String)
    (h : create w pb .impl s = .error (.failed text) t) :
    delete pb.name .impl t = s ↔ Vacant pb.name s ∧ ¬ Stranded w pb s := by
  change implDelete pb.name t = s ↔ _
  cases create_failed h with
  | before ht hs =>
    subst ht
    rw [delete_before_iff, and_iff_left]
    exact fun hstr => hs ⟨hstr.links, hstr.stores⟩
  | stored cfg hl hs hg hne hcfg hpod =>
    refine iff_of_false (delete_stored hg hne hcfg) ?_
    rintro ⟨hv, hstr⟩
    -- the pod is not in the store, so it was refused
    refine hstr ⟨hl, hs, fun hr => hpod ⟨hr, ?_⟩⟩
    rintro ⟨o, ho, hk⟩
    rcases (hg.mem o).mp ho with ho | ho
    · exact hv.pod ⟨o, ho, hk⟩
    · rcases hcfg o ho with h | h <;> simp [hk] at h
  | services hpod hr =>
    rw [delete_services_iff hpod, and_iff_left]
    exact fun hstr => hstr.refused hr

/-- What a failed program leaves satisfies `P`. -/
def failsWith (x : Prog Unit) (s : Cluster) (P : Cluster → Bool) : Bool :=
  match x s with
  | .error (.failed _) t => P t
  | _ => false

lemma exists_of_failsWith {x : Prog Unit} {P : Cluster → Bool} (h : failsWith x s P = true) :
    ∃ text t, x s = .error (.failed text) t ∧ P t = true := by
  unfold failsWith at h
  split at h
  · exact ⟨_, _, by assumption, h⟩
  · cases h

lemma vacant_empty (n : String) : Vacant n Store.empty :=
  ⟨Store.not_has_empty _, Store.not_has_empty _, fun o ho => absurd ho (Finset.notMem_empty o),
    fun k _ => Store.not_has_empty k⟩

/-- The services are refused. -/
def noServiceEnv : Env :=
  { bareEnv with refuse := fun k => if k.kind = .service then some "forbidden" else none }

theorem refused_service_restored : ∃ text t,
    create noServiceEnv (configNode "") .impl Store.empty = .error (.failed text) t ∧
    delete "r1" .impl t = Store.empty := by
  obtain ⟨text, t, h, -⟩ := exists_of_failsWith (x := create noServiceEnv (configNode "") .impl)
    (s := Store.empty) (P := fun _ => true) (by decide +kernel)
  refine ⟨text, t, h, (failed_create_deleted_iff _ _ _ _ _ h).mpr ⟨vacant_empty _, ?_⟩⟩
  exact fun hstr => hstr.refused rfl

/-- Pods are refused. -/
def noPodEnv : Env :=
  { bareEnv with refuse := fun k => if k.kind = .pod then some "forbidden" else none }

/-- **A leftover config.** When the pod is refused, `Delete` leaves the ConfigMap, and the next
`Create` fails on it. -/
theorem refused_pod_leaves_config : ∃ text t,
    create noPodEnv (configNode "") .impl Store.empty = .error (.failed text) t ∧
    (delete "r1" .impl t).Has ⟨.configMap, "r1-config"⟩ ∧
    ∃ text' t', create bareEnv (configNode "") .impl (delete "r1" .impl t) =
      .error (.failed text') t' := by
  obtain ⟨text, t, h, hleft⟩ := exists_of_failsWith (x := create noPodEnv (configNode "") .impl)
    (s := Store.empty)
    (P := fun t => decide ((delete "r1" .impl t).Has ⟨.configMap, "r1-config"⟩) &&
      failsWith (create bareEnv (configNode "") .impl) (delete "r1" .impl t) fun _ => true)
    (by decide +kernel)
  rw [Bool.and_eq_true, decide_eq_true_eq] at hleft
  obtain ⟨text', t', h', -⟩ := exists_of_failsWith hleft.2
  exact ⟨text, t, h, hleft.1, text', t', h'⟩

end Kne.NodeFailed
