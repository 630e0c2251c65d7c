import Kne.NodeServices

/-!
What a successful `Create` of a node has made: the ConfigMap or the file of its startup config, the
other ConfigMaps of its vendor, the pod, the services and the proxy.

The pods of all vendors have in common what is said in `PodOf`, and the ways the config gets into
them are those of `ConfigOf`.
-/

namespace Kne.NodeMade

open Kne.Objects Kne.TopoModel Kne.NodeModel Kne.NodePrograms Kne.NodeServices

variable {w : Env} {pb : Proto} {s t : Cluster} {α : Type} {a : α}

/-! ### The startup config -/

/-- The volume and the object that `CreateConfig` makes of a config. -/
inductive ConfigMade (pb : Proto) : Bytes → Option Volume → List Obj → Prop
  | none : ConfigMade pb [] none []
  | configMap (data : Bytes) (hne : data ≠ []) (hlt : data.length < 1048576) :
      ConfigMade pb data (some ⟨configVolumeName, .configMap (pb.name ++ "-config")⟩)
        [.configMap ⟨pb.name ++ "-config", [(pb.config.configFile, data)]⟩]
  | file (data : Bytes) (hge : 1048576 ≤ data.length) (path : String) :
      ConfigMade pb data (some ⟨configVolumeName, .hostPath path⟩) [.file ⟨path, data⟩]

lemma createTemp_made {data : Bytes} {path : String} (h : createTemp w pb data s = .ok path t) :
    Grown s t [.file ⟨path, data⟩] := by
  unfold createTemp at h
  cases ht : w.tempErr with
  | some err =>
    rw [ht] at h
    exact absurd h throw_ne_ok
  | none =>
    rw [ht] at h
    obtain ⟨u, hcreate, hrest⟩ := seq_eq_ok_iff.mp h
    cases hw : w.writeErr with
    | some err =>
      rw [hw] at hrest
      obtain ⟨v, -, hthrow⟩ := seq_eq_ok_iff.mp hrest
      exact absurd hthrow throw_ne_ok
    | none =>
      rw [hw] at hrest
      obtain ⟨rfl, rfl⟩ := pure_eq_ok_iff.mp hrest
      exact grown_createObj hcreate

lemma createConfig_made {vol : Option Volume} (h : createConfig w pb s = .ok vol t) :
    ∃ data cfg, readConfig w pb = .ok data ∧ ConfigMade pb data vol cfg ∧ Grown s t cfg := by
  obtain ⟨data, u, hor, hrest⟩ := bind_eq_ok_iff.mp h
  obtain ⟨hread, rfl⟩ := orFail_ok_iff.mp hor
  split_ifs at hrest with hzero hlt
  · obtain ⟨rfl, rfl⟩ := pure_eq_ok_iff.mp hrest
    obtain rfl := List.length_eq_zero_iff.mp hzero
    exact ⟨[], [], hread, .none, .refl s⟩
  · obtain ⟨v, hcreate, hpure⟩ := seq_eq_ok_iff.mp hrest
    obtain ⟨rfl, rfl⟩ := pure_eq_ok_iff.mp hpure
    exact ⟨data, _, hread, .configMap data (fun h => hzero (by simp [h])) hlt,
      grown_createObj hcreate⟩
  · obtain ⟨path, v, htemp, hpure⟩ := bind_eq_ok_iff.mp hrest
    obtain ⟨rfl, rfl⟩ := pure_eq_ok_iff.mp hpure
    exact ⟨data, _, hread, .file data (not_lt.mp hlt) path, createTemp_made htemp⟩

/-- What `mountConfig` gives to a pod. -/
inductive Mounted (pb : Proto) : Bytes → List Volume → List VolumeMount → List Obj → Prop
  | absent : Mounted pb [] [] [] []
  | mounted (data : Bytes) (vol : Volume) (cfg : List Obj)
      (hm : ConfigMade pb data (some vol) cfg) : Mounted pb data [vol] [configMount pb vol] cfg

lemma mountConfig_made {vols : List Volume} {mounts : List VolumeMount}
    (h : mountConfig w pb s = .ok (vols, mounts) t) :
    ∃ data cfg, readConfig w pb = .ok data ∧ Mounted pb data vols mounts cfg ∧ Grown s t cfg := by
  unfold mountConfig at h
  cases hd : pb.config.configData with
  | none =>
    rw [hd] at h
    obtain ⟨hv, rfl⟩ := pure_eq_ok_iff.mp h
    cases hv
    exact ⟨[], [], by simp [readConfig, hd], .absent, .refl s⟩
  | some d =>
    rw [hd] at h
    obtain ⟨vol, u, hconfig, hrest⟩ := bind_eq_ok_iff.mp h
    obtain ⟨data, cfg, hread, hmade, hgrown⟩ := createConfig_made hconfig
    cases vol with
    | none => exact absurd hrest throw_ne_ok
    | some vol =>
      obtain ⟨hv, rfl⟩ := pure_eq_ok_iff.mp hrest
      cases hv
      exact ⟨data, cfg, hread, .mounted data vol cfg hmade, hgrown⟩

/-! ### Pods -/

/-- The nodes whose init container copies the config. -/
def Copies (pb : Proto) (v : NodeType) : Prop := v = .juniper ∨ v = .cisco ∧ pb.model = modelXRD

instance (pb : Proto) (v : NodeType) : Decidable (Copies pb v) :=
  inferInstanceAs (Decidable (_ ∨ _ ∧ _))

/-- The file and the script of such a node. -/
def copyFile (pb : Proto) : NodeType → String
  | .juniper => pb.config.fileOr "juniper.conf"
  | _ => pb.config.fileOr "startup.cfg"

def copyScript (pb : Proto) : NodeType → Script
  | .juniper => .juniper "/config-dst" "/config-src" (copyFile pb .juniper)
  | v => .xrd "/config-dst" "/config-src" (copyFile pb v)

/-- Volumes that have nothing to do with the config. -/
def Others (vols : List Volume) : Prop :=
  ∀ vol ∈ vols, vol.name ≠ configVolumeName ∧ vol.name ≠ configSrcVolumeName

/-- A pod of the node with the volumes and, in its main container, the mounts of the config. -/
structure PodOf (pb : Proto) (p : Pod) (vols : List Volume) (mounts : List VolumeMount) : Prop where
  name : p.name = pb.name
  volumes : ∃ pre post, p.volumes = pre ++ vols ++ post ∧ Others pre ∧ Others post
  main : ∃ pre rest, p.containers = ⟨pb.name, pre ++ mounts⟩ :: rest

/-- How the config gets into the pod. -/
inductive ConfigOf (pb : Proto) (v : NodeType) (data : Bytes) (p : Pod) (cfg : List Obj) : Prop
  | mounts (vols : List Volume) (mounts : List VolumeMount) (hv : ¬ Copies pb v)
      (hm : Mounted pb data vols mounts cfg) (hp : PodOf pb p vols mounts)
      (hi : ∀ c ∈ p.initContainers, c.script = .entrypoint)
  | copies (vol : Option Volume) (hv : Copies pb v) (hm : ConfigMade pb data vol cfg)
      (hp : PodOf pb p (copyVolumes vol) [copiedMount pb (copyFile pb v)])
      (hi : ∃ c, p.initContainers = [c] ∧ c.script = copyScript pb v ∧ c.mounts = copyMounts vol)

lemma configOf_name {v : NodeType} {p : Pod} {data : Bytes} {cfg : List Obj}
    (h : ConfigOf pb v data p cfg) :
    p.name = pb.name := by
  cases h with
  | mounts vols mounts hv hm hp hi => exact hp.name
  | copies vol hv hm hp hi => exact hp.name

/-- The ConfigMap a vendor adds: Alpine's files and Ciena's equipment file. -/
def vendorKey (n : String) : NodeType → Option Key
  | .alpine => some ⟨.configMap, n ++ "-files"⟩
  | .ciena => some ⟨.configMap, n ++ "-file"⟩
  | .impl | .cisco | .juniper | .sonic | .forward => none

/-- Alpine's vendor data lists files. -/
def HasFiles (pb : Proto) : Prop :=
  match pb.config.vendorData with
  | some (.alpine files _ _) => files ≠ []
  | _ => False

/-- The labels of a pod; Alpine and SONiC leave out those of the node. -/
def labelsOf (w : Env) (pb : Proto) : NodeType → List (String × String)
  | .alpine | .sonic => nodeLabels w pb
  | .impl | .cisco | .juniper | .ciena | .forward => podLabels w pb

/-- The number of interfaces besides `eth0` for which the pod of a node waits: that of its links for
the default node, and that of its interfaces for the others. -/
def Awaits (w : Env) (pb : Proto) (v : NodeType) (n : ℕ) : Prop :=
  if v = .impl then
    ∃ links, SpecsModel.getNodeLinks w.order { name := pb.name, interfaces := pb.interfaces } =
      .ok links ∧ n = links.length
  else n = interfaceCount pb

/-- What the containers of a pod do not depend on: its labels, and what its init container is told
to wait for. Ciena's pods have none. -/
structure PodMeta (w : Env) (pb : Proto) (v : NodeType) (p : Pod) : Prop where
  labels : p.labels = labelsOf w pb v
  waits : v ≠ .ciena → ∃ n c, Awaits w pb v n ∧ p.initContainers = [c] ∧
    c.args.head? = some (toString (n + 1))

/-- A pod with what was made before it. -/
structure PodMade (w : Env) (pb : Proto) (v : NodeType) (data : Bytes) (p : Pod)
    (extra cfg : List Obj) : Prop where
  about : PodMeta w pb v p
  read : readConfig w pb = .ok data
  config : ConfigOf pb v data p cfg
  vendor : ∀ o ∈ extra, some o.key = vendorKey pb.name v
  files : v = .alpine → (extra ≠ [] ↔ HasFiles pb)

/-- The pod of a vendor is made, on top of the objects it needs. -/
def MakesPod (w : Env) (pb : Proto) (v : NodeType) (s t : Cluster) : Prop :=
  ∃ data p extra cfg, PodMade w pb v data p extra cfg ∧ Grown s t (extra ++ cfg ++ [.pod p])

lemma append_ne {n a b : String} (ha : a.toList ≠ []) (h : a.toList.getLast? ≠ b.toList.getLast?) :
    n ++ a ≠ b := by
  rintro rfl
  rw [String.toList_append, List.getLast?_append_of_ne_nil _ ha] at h
  exact h rfl

lemma others_mounts {n : String} {l : List (String × VolumeSource)}
    (h : ∀ a ∈ l, a.1.toList.getLast? = some 't') :
    Others (l.map fun a => ⟨n ++ a.1, a.2⟩) := by
  intro vol hvol
  obtain ⟨a, ha, rfl⟩ := List.mem_map.mp hvol
  have hlast := h a ha
  have hne : a.1.toList ≠ [] := by rintro h0; rw [h0] at hlast; cases hlast
  constructor
  · exact append_ne hne (by rw [hlast]; decide)
  · exact append_ne hne (by rw [hlast]; decide)

lemma others_nil : Others [] := by simp [Others]

lemma others_singleton {name : String} (source : VolumeSource) (h : name ≠ configVolumeName)
    (h' : name ≠ configSrcVolumeName) : Others [⟨name, source⟩] := by
  intro vol hvol
  rw [List.mem_singleton.mp hvol]
  exact ⟨h, h'⟩

lemma makesPod_mounts {v : NodeType} {u : Cluster} {vols : List Volume} {mounts : List VolumeMount}
    {extra : List Obj} {p : Pod} {z : Unit} (hv : ¬ Copies pb v) (ha : PodMeta w pb v p)
    (hextra : ∀ o ∈ extra, some o.key = vendorKey pb.name v)
    (hfiles : v = .alpine → (extra ≠ [] ↔ HasFiles pb)) {s' : Cluster} (hbefore : Grown s s' extra)
    (hmount : mountConfig w pb s' = .ok (vols, mounts) u) (hp : PodOf pb p vols mounts)
    (hi : ∀ c ∈ p.initContainers, c.script = .entrypoint)
    (hpod : createObj w (.pod p) u = .ok z t) : MakesPod w pb v s t := by
  obtain ⟨data, cfg, hread, hm, hgrown⟩ := mountConfig_made hmount
  exact ⟨data, p, extra, cfg, ⟨ha, hread, .mounts vols mounts hv hm hp hi, hextra, hfiles⟩,
    (hbefore.trans hgrown).trans (grown_createObj hpod)⟩

lemma makesPod_plain {v : NodeType} {u : Cluster} {vols : List Volume} {mounts : List VolumeMount}
    {p : Pod} {z : Unit} (hv : ¬ Copies pb v) (hne : v ≠ .alpine) (ha : PodMeta w pb v p)
    (hmount : mountConfig w pb s = .ok (vols, mounts) u) (hp : PodOf pb p vols mounts)
    (hi : ∀ c ∈ p.initContainers, c.script = .entrypoint)
    (hpod : createObj w (.pod p) u = .ok z t) : MakesPod w pb v s t :=
  makesPod_mounts hv ha (by simp) (fun h => absurd h hne) (.refl s) hmount hp hi hpod

lemma makesPod_copies {v : NodeType} {u : Cluster} {vol : Option Volume} {p : Pod} {z : Unit}
    (hv : Copies pb v) (ha : PodMeta w pb v p) (hconfig : createConfig w pb s = .ok vol u)
    (hp : PodOf pb p (copyVolumes vol) [copiedMount pb (copyFile pb v)])
    (hi : ∃ c, p.initContainers = [c] ∧ c.script = copyScript pb v ∧ c.mounts = copyMounts vol)
    (hpod : createObj w (.pod p) u = .ok z t) : MakesPod w pb v s t := by
  obtain ⟨data, cfg, hread, hm, hgrown⟩ := createConfig_made hconfig
  have hne : v ≠ .alpine := by
    rcases hv with rfl | ⟨rfl, -⟩ <;> simp
  exact ⟨data, p, [], cfg, ⟨ha, hread, .copies vol hv hm hp hi, by simp, fun h => absurd h hne⟩,
    ((Grown.refl s).trans hgrown).trans (grown_createObj hpod)⟩

lemma implCreatePod_made {z : Unit} (h : implCreatePod w pb s = .ok z t) :
    MakesPod w pb .impl s t := by
  obtain ⟨links, u, hor, hrest⟩ := bind_eq_ok_iff.mp h
  obtain ⟨hlinks, rfl⟩ := orFail_ok_iff.mp hor
  obtain ⟨⟨vols, mounts⟩, u', hmount, hpod⟩ := bind_eq_ok_iff.mp (resources_seq_ok hrest)
  have ha : ∃ links', SpecsModel.getNodeLinks w.order
      { name := pb.name, interfaces := pb.interfaces } = .ok links' ∧
      links.length = links'.length := ⟨links, hlinks, rfl⟩
  refine makesPod_plain (by simp [Copies]) (by simp) ⟨rfl, fun _ => ⟨_, _, ha, rfl, rfl⟩⟩ hmount
    ?_ ?_ hpod
  · exact ⟨rfl, ⟨[], [], by simp, others_nil, others_nil⟩, [], [], rfl⟩
  · simp [initContainer]

lemma sonicCreatePod_made {z : Unit} (h : sonicCreatePod w pb s = .ok z t) :
    MakesPod w pb .sonic s t := by
  obtain ⟨⟨vols, mounts⟩, u, hmount, hpod⟩ := bind_eq_ok_iff.mp (resources_seq_ok h)
  refine makesPod_plain (by simp [Copies]) (by simp) ⟨rfl, fun _ => ⟨_, _, rfl, rfl, rfl⟩⟩ hmount
    ?_ ?_ hpod
  · exact ⟨rfl, ⟨[], [], by simp, others_nil, others_nil⟩, [], [], rfl⟩
  · simp [initContainer]

lemma forwardCreatePod_made {z : Unit} (h : forwardCreatePod w pb s = .ok z t) :
    MakesPod w pb .forward s t := by
  obtain ⟨others, u, hplan, hrest⟩ := bind_eq_ok_iff.mp h
  obtain ⟨-, rfl⟩ := orFail_ok_iff.mp hplan
  obtain ⟨⟨vols, mounts⟩, u', hmount, hpod⟩ := bind_eq_ok_iff.mp (resources_seq_ok hrest)
  refine makesPod_plain (by simp [Copies]) (by simp) ⟨rfl, fun _ => ⟨_, _, rfl, rfl, rfl⟩⟩ hmount
    ?_ ?_ hpod
  · exact ⟨rfl, ⟨[], [], by simp, others_nil, others_nil⟩, [], _, rfl⟩
  · simp [initContainer]

lemma alpineFiles_made {vols : List Volume} {others : List Container}
    (h : alpineFiles w pb s = .ok (vols, others) t) :
    ∃ extra, Grown s t extra ∧ (∀ o ∈ extra, some o.key = vendorKey pb.name .alpine) ∧
      (extra ≠ [] ↔ HasFiles pb) ∧ Others vols := by
  unfold alpineFiles at h
  unfold HasFiles
  match hv : pb.config.vendorData with
  | none =>
    rw [hv] at h
    obtain ⟨hvols, rfl⟩ := pure_eq_ok_iff.mp h
    cases hvols
    exact ⟨[], .refl s, by simp, by simp, others_nil⟩
  | some (.alpine files mountDir containers) =>
    simp only [hv] at h ⊢
    split_ifs at h with hf
    · obtain ⟨hvols, rfl⟩ := pure_eq_ok_iff.mp h
      cases hvols
      exact ⟨[], .refl s, by simp, by simp [hf], others_nil⟩
    · obtain ⟨contents, u, hread, hrest⟩ := bind_eq_ok_iff.mp h
      obtain ⟨-, rfl⟩ := orFail_ok_iff.mp hread
      obtain ⟨u', hcreate, hpure⟩ := seq_eq_ok_iff.mp hrest
      obtain ⟨hvols, rfl⟩ := pure_eq_ok_iff.mp hpure
      cases hvols
      exact ⟨_, grown_createObj hcreate, by simp [Obj.key, vendorKey], by simp [hf],
        others_singleton _ (by decide) (by decide)⟩
  | some (.ciena _ _) => rw [hv] at h; exact absurd h throw_ne_ok
  | some (.forward _) => rw [hv] at h; exact absurd h throw_ne_ok
  | some (.other _) => rw [hv] at h; exact absurd h throw_ne_ok

lemma alpineCreatePod_made {z : Unit} (h : alpineCreatePod w pb s = .ok z t) :
    MakesPod w pb .alpine s t := by
  obtain ⟨⟨extraVols, others⟩, u, hfiles, hrest⟩ := bind_eq_ok_iff.mp (resources_seq_ok h)
  obtain ⟨extra, hgrown, hkeys, hhas, hothers⟩ := alpineFiles_made hfiles
  obtain ⟨⟨vols, mounts⟩, u', hmount, hpod⟩ := bind_eq_ok_iff.mp hrest
  refine makesPod_mounts (by simp [Copies]) ⟨rfl, fun _ => ⟨_, _, rfl, rfl, rfl⟩⟩ hkeys
    (fun _ => hhas) hgrown hmount ?_ ?_ hpod
  · exact ⟨rfl, ⟨[], extraVols, by simp, others_nil, hothers⟩, [], _, rfl⟩
  · simp [initContainer]

lemma cienaEquipment_made {vols : List Volume} {mounts : List VolumeMount}
    (h : cienaEquipment w pb s = .ok (vols, mounts) t) :
    ∃ extra, Grown s t extra ∧ (∀ o ∈ extra, some o.key = vendorKey pb.name .ciena) ∧
      Others vols := by
  unfold cienaEquipment at h
  match hv : pb.config.vendorData with
  | none =>
    rw [hv] at h
    obtain ⟨hvols, rfl⟩ := pure_eq_ok_iff.mp h
    cases hvols
    exact ⟨[], .refl s, by simp, others_nil⟩
  | some (.ciena mountDir equipmentJson) =>
    rw [hv] at h
    obtain ⟨contents, u, hread, hrest⟩ := bind_eq_ok_iff.mp h
    obtain ⟨-, rfl⟩ := orFail_ok_iff.mp hread
    obtain ⟨u', hcreate, hpure⟩ := seq_eq_ok_iff.mp hrest
    obtain ⟨hvols, rfl⟩ := pure_eq_ok_iff.mp hpure
    cases hvols
    exact ⟨_, grown_createObj hcreate, by simp [Obj.key, vendorKey],
      others_singleton _ (by decide) (by decide)⟩
  | some (.alpine _ _ _) => rw [hv] at h; exact absurd h throw_ne_ok
  | some (.forward _) => rw [hv] at h; exact absurd h throw_ne_ok
  | some (.other _) => rw [hv] at h; exact absurd h throw_ne_ok

lemma cienaCreatePod_made {z : Unit} (h : cienaCreatePod w pb s = .ok z t) :
    MakesPod w pb .ciena s t := by
  obtain ⟨⟨extraVols, extraMounts⟩, u, hequip, hrest⟩ := bind_eq_ok_iff.mp h
  obtain ⟨extra, hgrown, hkeys, hothers⟩ := cienaEquipment_made hequip
  obtain ⟨⟨vols, mounts⟩, u', hmount, hpod⟩ := bind_eq_ok_iff.mp (resources_seq_ok hrest)
  refine makesPod_mounts (by simp [Copies]) ⟨rfl, by simp⟩ hkeys (by simp) hgrown hmount ?_ ?_
    (wrap_ok_iff.mp hpod)
  · exact ⟨rfl, ⟨extraVols, [], by simp, hothers, others_nil⟩, extraMounts, [], rfl⟩
  · simp

lemma others_run (pb : Proto) : Others [(scratch pb "-run-mount" "/run").1] :=
  others_mounts (l := [("-run-mount", .emptyDir)]) (by decide)

lemma e8000Pod_made {z : Unit} (hm : pb.model ≠ modelXRD) (h : e8000Pod w pb s = .ok z t) :
    MakesPod w pb .cisco s t := by
  obtain ⟨⟨vols, mounts⟩, u, hmount, hpod⟩ := bind_eq_ok_iff.mp (resources_seq_ok h)
  refine makesPod_plain (by simp [Copies, hm]) (by simp) ⟨rfl, fun _ => ⟨_, _, rfl, rfl, rfl⟩⟩
    hmount ?_ ?_ (wrap_ok_iff.mp hpod)
  · exact ⟨rfl, ⟨_, [], by simp, others_run pb, others_nil⟩, [_], [], rfl⟩
  · simp [initContainer]

lemma xrdPod_made {z : Unit} (hm : pb.model = modelXRD) (h : xrdPod w pb s = .ok z t) :
    MakesPod w pb .cisco s t := by
  obtain ⟨vol, u, hconfig, hpod⟩ := bind_eq_ok_iff.mp (resources_seq_ok h)
  refine makesPod_copies (Or.inr ⟨rfl, hm⟩) ⟨rfl, fun _ => ⟨_, _, rfl, rfl, rfl⟩⟩ hconfig ?_ ?_
    (wrap_ok_iff.mp hpod)
  · exact ⟨rfl, ⟨_, [], by simp, others_run pb, others_nil⟩, [_], [], rfl⟩
  · exact ⟨_, rfl, rfl, rfl⟩

lemma others_juniper (pb : Proto) : Others ((juniperMounts pb).map (·.1)) :=
  others_mounts (l := [("-run-mount", .emptyDir), ("-tmp-mount", .emptyDir),
    ("-dev-shm-mount", .emptyDir), ("-cgroup-mount", .hostPath "/sys/fs/cgroup")]) (by decide)

lemma juniperPod_made {z : Unit} (h : juniperPod w pb s = .ok z t) :
    MakesPod w pb .juniper s t := by
  obtain ⟨vol, u, hconfig, hpod⟩ := bind_eq_ok_iff.mp (resources_seq_ok h)
  refine makesPod_copies (Or.inl rfl) ⟨rfl, fun _ => ⟨_, _, rfl, rfl, rfl⟩⟩ hconfig ?_ ?_
    (wrap_ok_iff.mp hpod)
  · exact ⟨rfl, ⟨_, [], by simp, others_juniper pb, others_nil⟩, _, [], rfl⟩
  · exact ⟨_, rfl, rfl, rfl⟩

/-! ### Nodes -/

/-- The node has services: those of its proto, or the peer service of Forward. -/
def HasServices (pb : Proto) (v : NodeType) : Prop := pb.services.keys ≠ [] ∨ v = .forward

/-- What a successful `Create` has made. -/
structure Made (w : Env) (pb : Proto) (v : NodeType) (data : Bytes) (p : Pod) (extra cfg : List Obj)
    (svcs : List Service) (proxies : List DaemonSet) : Prop where
  pod : PodMade w pb v data p extra cfg
  services : ServicesMade w pb svcs proxies
  some_service : svcs ≠ [] ↔ HasServices pb v

/-- The objects in the order in which they are created. -/
def allMade (p : Pod) (extra cfg : List Obj) (svcs : List Service) (proxies : List DaemonSet) :
    List Obj :=
  extra ++ cfg ++ [.pod p] ++ (svcs.map .service ++ proxies.map .daemonSet)

/-- `CreatePod` of a node; Cisco and Juniper have it as the first part of `Create`. -/
def vendorCreatePod (w : Env) (pb : Proto) : NodeType → Prog Unit
  | .impl => implCreatePod w pb
  | .cisco => if pb.model = modelXRD then xrdPod w pb else e8000Pod w pb
  | .juniper => juniperPod w pb
  | .alpine => alpineCreatePod w pb
  | .sonic => sonicCreatePod w pb
  | .ciena => cienaCreatePod w pb
  | .forward => forwardCreatePod w pb

lemma vendorCreatePod_made {v : NodeType} {z : Unit} (h : vendorCreatePod w pb v s = .ok z t) :
    MakesPod w pb v s t := by
  cases v with
  | impl => exact implCreatePod_made h
  | cisco =>
    simp only [vendorCreatePod] at h
    split_ifs at h with hm
    · exact xrdPod_made hm h
    · exact e8000Pod_made hm h
  | juniper => exact juniperPod_made h
  | alpine => exact alpineCreatePod_made h
  | sonic => exact sonicCreatePod_made h
  | ciena => exact cienaCreatePod_made h
  | forward => exact forwardCreatePod_made h

/-- The node has not failed its `ValidateConstraints`; the default node and Juniper do not call
it. -/
def Validated (w : Env) (v : NodeType) : Prop :=
  v = .impl ∨ v = .juniper ∨ w.constraintsErr = none

lemma createBoth_ok_iff {pod service : Prog Unit} :
    createBoth pb pod service s = .ok () t ↔ ∃ u, pod s = .ok () u ∧ service u = .ok () t := by
  unfold createBoth
  rw [seq_eq_ok_iff]
  simp only [wrap_ok_iff]

lemma createValidated_ok_iff {pod service : Prog Unit} :
    createValidated w pb pod service s = .ok () t ↔
      w.constraintsErr = none ∧ ∃ u, pod s = .ok () u ∧ service u = .ok () t := by
  unfold createValidated
  rw [seq_eq_ok_iff]
  simp only [validateConstraints_ok_iff, createBoth_ok_iff, and_assoc, exists_and_left,
    exists_eq_left']

/-- **The two halves.** `Create` makes a pod and then the services. -/
lemma create_ok_iff {v : NodeType} : create w pb v s = .ok () t ↔
    Validated w v ∧
      ∃ u, vendorCreatePod w pb v s = .ok () u ∧ vendorCreateService w pb v u = .ok () t := by
  cases v with
  | impl => simp only [Validated, create, createBoth_ok_iff, true_or, true_and]; rfl
  | juniper => simp only [Validated, create, juniperCreate, seq_eq_ok_iff, true_or, or_true,
      true_and]; rfl
  | cisco =>
    simp only [Validated, create, ciscoCreate, vendorCreatePod, reduceCtorEq, false_or]
    rw [seq_eq_ok_iff]
    simp only [validateConstraints_ok_iff, and_assoc, exists_and_left, exists_eq_left']
    refine and_congr_right fun _ => ?_
    split_ifs
    · exact seq_eq_ok_iff
    · exact seq_eq_ok_iff
  | alpine | sonic | ciena | forward =>
    simp only [Validated, create, createValidated_ok_iff, reduceCtorEq, false_or]
    rfl

lemma vendorServices_ne_nil_iff {v : NodeType} {ports : List (ServiceType × ServicePort)}
    (h : servicePorts pb = .ok ports) :
    vendorServices w pb ports v ≠ [] ↔ HasServices pb v := by
  unfold HasServices
  constructor
  · intro hne
    by_cases hkeys : pb.services.keys = []
    · obtain rfl : [] = ports := Except.ok.inj ((servicePorts_of_keys_nil hkeys).symm.trans h)
      obtain ⟨svc, hsvc⟩ := List.exists_mem_of_ne_nil _ hne
      rcases mem_vendorServices.mp hsvc with ⟨hv, -⟩ | hsvc
      · exact Or.inr hv
      · cases hsvc
    · exact Or.inl hkeys
  · rintro (hkeys | rfl)
    · obtain ⟨svc, hsvc⟩ := List.exists_mem_of_ne_nil _ (servicesOf_ne_nil w h hkeys)
      exact List.ne_nil_of_mem (mem_vendorServices.mpr (Or.inr hsvc))
    · simp [vendorServices]

/-- **Creation.** A `Create` that succeeds has made a pod with its config and, after it, the
services. -/
theorem create_made {v : NodeType} {z : Unit} (h : create w pb v s = .ok z t) :
    ∃ data p extra cfg svcs proxies, Made w pb v data p extra cfg svcs proxies ∧
      Grown s t (allMade p extra cfg svcs proxies) := by
  obtain ⟨-, u, hmake, hsvc⟩ := create_ok_iff.mp h
  obtain ⟨data, p, extra, cfg, hpod, hgrown⟩ := vendorCreatePod_made hmake
  obtain ⟨ports, hports, hgrown'⟩ := vendorCreateService_grown hsvc
  exact ⟨data, p, extra, cfg, _, _,
    ⟨hpod, servicesMade w v hports, vendorServices_ne_nil_iff hports⟩, hgrown.trans hgrown'⟩

/-- The environment of a topology without files, in which no request is refused. -/
def bareEnv : Env := { topo := "lab", readFile := fun _ path => .error ("open " ++ path) }

end Kne.NodeMade
