import Kne.NodeMade

/-!
The startup config inside the device. A ConfigMap volume is a directory with a file for each key, a
volume made of a file of the host is that file, and a mount shows the volume or, with a subpath, one
file of it.

Most nodes mount the config volume at the path of the config file. In an XRd or a Juniper node the
init container copies the config from one volume to another first, and its script looks for the file
in a directory: of a config that is too large for a ConfigMap, the volume is the file itself.
-/

namespace Kne.NodeConfig

open Kne.Objects Kne.NodeModel Kne.NodePrograms Kne.NodeServices Kne.NodeMade

/-! ### Volumes and mounts -/

inductive Entry
  | file (content : Bytes)
  | dir (files : List (String × Bytes))
  deriving DecidableEq, Repr

/-- What a volume holds when the pod starts. Of the files of the host, those in the temporary
directory are known. -/
def sourceEntry (t : Cluster) : VolumeSource → Option Entry
  | .emptyDir => some (.dir [])
  | .configMap name =>
    match t.get? ⟨.configMap, name⟩ with
    | some (.configMap cm) => some (.dir cm.data)
    | _ => none
  | .hostPath path =>
    match t.get? ⟨.file, path⟩ with
    | some (.file f) => some (.file f.content)
    | _ => none

def volumeEntry (t : Cluster) (p : Pod) (name : String) : Option Entry :=
  (p.volumes.find? (·.name = name)).bind fun vol => sourceEntry t vol.source

/-- What a mount with the subpath shows; a subpath that is not there becomes a directory. -/
def Entry.sub (subPath : String) (e : Entry) : Option Entry :=
  if subPath = "" then some e
  else
    match e with
    | .file _ => none
    | .dir files =>
      match files.lookup subPath with
      | some content => some (.file content)
      | none => some (.dir [])

/-- The mount at the path; a later one covers an earlier one. -/
def mountAt (mounts : List VolumeMount) (path : String) : Option VolumeMount :=
  mounts.reverse.find? (·.mountPath = path)

/-- What a container sees at a path at which something is mounted. -/
def seen (volumes : String → Option Entry) (mounts : List VolumeMount) (path : String) :
    Option Entry :=
  (mountAt mounts path).bind fun m => (volumes m.name).bind (Entry.sub m.subPath)

/-- The regular file of a directory, if the entry is one and has it. -/
def regularFile (e : Option Entry) (file : String) : Option Bytes :=
  match e with
  | some (.dir files) => files.lookup file
  | _ => none

/-! ### The scripts -/

def ascii (text : String) : Bytes := text.toList.map fun c => c.val.toUInt8

def lines (ls : List String) : Bytes := ls.flatMap fun l => ascii l ++ ascii "\n"

/-- The addresses that the scripts read off the interfaces and the routes of the pod; one that is
missing is empty. -/
structure Addrs where
  ip4 : Bytes
  gw4 : Bytes
  ip6 : Bytes
  gw6 : Bytes
  short : ip4.length ≤ 64 ∧ gw4.length ≤ 64 ∧ ip6.length ≤ 64 ∧ gw6.length ≤ 64

def noAddrs : Addrs := ⟨[], [], [], [], by simp⟩

/-- A text with a place for an address. -/
structure Template where
  before : Bytes
  after : Bytes

def Template.fill (text : Template) (addr : Bytes) : Bytes := text.before ++ addr ++ text.after

def Template.length (text : Template) : ℕ := text.before.length + text.after.length

/-- What is appended when there is an address. -/
def appended (text : Template) (addr : Bytes) : Bytes :=
  if addr = [] then [] else text.fill addr

def xrdRoute4 : Template where
  before := ascii "\nrouter static\n address-family ipv4 unicast\n  0.0.0.0/0 "
  after := ascii "\n !\n!\n"

def xrdRoute6 : Template where
  before := ascii "\nrouter static\n address-family ipv6 unicast\n  ::/0 "
  after := ascii "\n !\n!\n"

/-- The file that XRd's script leaves, from the one it found. -/
def xrdOutput (addrs : Addrs) (src : Option Bytes) : Bytes :=
  src.getD [] ++ appended xrdRoute4 addrs.gw4 ++ appended xrdRoute6 addrs.gw6

/-- The config of a Juniper node that has none. -/
def juniperDefault : Bytes :=
  lines ["system \x7b",
    "    root-authentication \x7b",
    "        encrypted-password \"$6$7uA5z8vs$cmHIvL0aLU4ioWAHPR0PLeU/mJj.JO/5pQVQoqRlInK3fJNTLYLhwiDi.Q6gHhltSB3S1P/.raEsuDSH7akcJ/\";",
    "    \x7d",
    "    services \x7b",
    "        ssh \x7b",
    "            root-login allow;",
    "        \x7d",
    "    \x7d",
    "\x7d"]

def fxp0addr : Bytes := ascii "FXP0ADDR"

def juniperIface (family : String) : Template where
  before := lines ["interfaces \x7b", "    re0:mgmt-0 \x7b", "        unit 0 \x7b"] ++
    ascii "            family " ++ ascii family ++ ascii " \x7b\n                address "
  after := ascii ";\n" ++ lines ["            \x7d", "        \x7d", "    \x7d", "\x7d"]

def juniperRoute4 : Template where
  before := lines ["routing-options \x7b", "    static \x7b"] ++
    ascii "        route 0.0.0.0/0 next-hop "
  after := ascii ";\n" ++ lines ["    \x7d", "\x7d"]

def juniperRoute6 : Template where
  before := lines ["routing-options \x7b", "    rib inet6.0 \x7b", "        static \x7b"] ++
    ascii "            route ::/0 next-hop "
  after := ascii ";\n" ++ lines ["        \x7d", "    \x7d", "\x7d"]

/-- `sed "s|pat|rep|g"`; `skip` bytes of a match are left to pass over. -/
def substitute (pat rep : Bytes) : ℕ → Bytes → Bytes
  | _, [] => []
  | skip + 1, _ :: bs => substitute pat rep skip bs
  | 0, b :: bs =>
    if pat <+: b :: bs then rep ++ substitute pat rep (pat.length - 1) bs
    else b :: substitute pat rep 0 bs

/-- The address of the management interface: in the place of the placeholder, or in a section of
its own unless the config already has one. -/
def juniperAddress4 (ip content : Bytes) : Bytes :=
  if ip = [] then content
  else if fxp0addr <:+: content then substitute fxp0addr ip 0 content
  else if ascii "re0:mgmt-0" <:+: content then content
  else content ++ (juniperIface "inet").fill ip

def juniperAddress6 (ip content : Bytes) : Bytes :=
  if ip = [] then content
  else if ascii "family inet6" <:+: content then content
  else content ++ (juniperIface "inet6").fill ip

/-- The file that Juniper's script leaves, from the one it found. -/
def juniperOutput (addrs : Addrs) (src : Option Bytes) : Bytes :=
  juniperAddress6 addrs.ip6
    (juniperAddress4 addrs.ip4 (src.getD juniperDefault) ++ appended juniperRoute4 addrs.gw4) ++
    appended juniperRoute6 addrs.gw6

/-- The file is written into the directory mounted at `dst`. -/
def writeFile (mounts : List VolumeMount) (dst file : String) (content : Bytes)
    (volumes : String → Option Entry) : String → Option Entry :=
  match mountAt mounts dst with
  | none => volumes
  | some m =>
    match volumes m.name with
    | some (.dir files) => Function.update volumes m.name (some (.dir ((file, content) :: files)))
    | _ => volumes

/-- What the volumes hold after the init container. -/
def runInit (addrs : Addrs) (volumes : String → Option Entry) (c : InitContainer) :
    String → Option Entry :=
  match c.script with
  | .entrypoint => volumes
  | .xrd dst src file =>
    writeFile c.mounts dst file
      (xrdOutput addrs (regularFile (seen volumes c.mounts src) file)) volumes
  | .juniper dst src file =>
    writeFile c.mounts dst file
      (juniperOutput addrs (regularFile (seen volumes c.mounts src) file)) volumes

/-- The file that the main container of the pod sees at the path. -/
def sees (addrs : Addrs) (t : Cluster) (p : Pod) (path : String) : Option Bytes :=
  match p.containers with
  | [] => none
  | c :: _ =>
    match seen (p.initContainers.foldl (runInit addrs) (volumeEntry t p)) c.mounts path with
    | some (.file content) => some content
    | _ => none

/-! ### What the scripts keep -/

lemma prefix_juniperAddress4 (ip : Bytes) {content : Bytes} (h : ¬ fxp0addr <:+: content) :
    content <+: juniperAddress4 ip content := by
  unfold juniperAddress4
  split_ifs
  · exact List.prefix_refl content
  · exact List.prefix_refl content
  · exact List.prefix_append content _

lemma prefix_juniperAddress6 (ip content : Bytes) : content <+: juniperAddress6 ip content := by
  unfold juniperAddress6
  split_ifs
  · exact List.prefix_refl content
  · exact List.prefix_refl content
  · exact List.prefix_append content _

lemma prefix_juniperOutput (addrs : Addrs) {data : Bytes} (h : ¬ fxp0addr <:+: data) :
    data <+: juniperOutput addrs (some data) := by
  unfold juniperOutput
  have h4 := (prefix_juniperAddress4 addrs.ip4 h).trans
    (List.prefix_append _ (appended juniperRoute4 addrs.gw4))
  exact (h4.trans (prefix_juniperAddress6 addrs.ip6 _)).trans (List.prefix_append _ _)

lemma prefix_xrdOutput (addrs : Addrs) (data : Bytes) : data <+: xrdOutput addrs (some data) := by
  unfold xrdOutput
  rw [List.append_assoc]
  exact List.prefix_append data _

lemma lines_ofList (ls : List (List Char)) :
    lines (ls.map String.ofList) =
      ls.flatMap fun l => (l ++ ['\n']).map fun c => c.val.toUInt8 := by
  have hend : "\n".toList = ['\n'] := rfl
  simp only [lines, ascii, List.flatMap_map, String.toList_ofList, hend, List.map_append]

set_option maxRecDepth 2000 in
lemma juniperDefault_plain : juniperDefault.length ≤ 400 ∧ 'X'.toUInt8 ∉ juniperDefault := by
  -- the kernel is slow to read a long literal from its bytes
  have hchars : juniperDefault = lines (List.map String.ofList
      [_, _, _, _, _, _, _, _, _, _]) := rfl
  rw [hchars, lines_ofList]
  decide +kernel

lemma not_fxp0addr_default : ¬ fxp0addr <:+: juniperDefault := by
  intro h
  have hmem : 'X'.toUInt8 ∈ fxp0addr := by decide +kernel
  exact juniperDefault_plain.2 (h.subset hmem)

lemma length_fill (text : Template) (addr : Bytes) :
    (text.fill addr).length = text.length + addr.length := by
  simp only [Template.fill, Template.length, List.length_append]
  omega

lemma length_appended_le (text : Template) (addr : Bytes) :
    (appended text addr).length ≤ text.length + addr.length := by
  unfold appended
  split_ifs
  · exact Nat.zero_le _
  · exact (length_fill text addr).le

lemma length_xrdOutput (addrs : Addrs) : (xrdOutput addrs none).length < 1048576 := by
  obtain ⟨-, h4, -, h6⟩ := addrs.short
  have hr4 := length_appended_le xrdRoute4 addrs.gw4
  have hr6 := length_appended_le xrdRoute6 addrs.gw6
  have hc4 : xrdRoute4.length ≤ 100 := by decide +kernel
  have hc6 : xrdRoute6.length ≤ 100 := by decide +kernel
  simp only [xrdOutput, Option.getD_none, List.nil_append, List.length_append]
  omega

lemma length_juniperAddress4_le (ip : Bytes) {content : Bytes} (h : ¬ fxp0addr <:+: content) :
    (juniperAddress4 ip content).length ≤
      content.length + (juniperIface "inet").length + ip.length := by
  unfold juniperAddress4
  split_ifs
  · omega
  · omega
  · rw [List.length_append, length_fill]
    omega

lemma length_juniperAddress6_le (ip content : Bytes) :
    (juniperAddress6 ip content).length ≤
      content.length + (juniperIface "inet6").length + ip.length := by
  unfold juniperAddress6
  split_ifs
  · omega
  · omega
  · rw [List.length_append, length_fill]
    omega

lemma length_juniperOutput (addrs : Addrs) : (juniperOutput addrs none).length < 1048576 := by
  obtain ⟨hip4, hgw4, hip6, hgw6⟩ := addrs.short
  have h4 := length_juniperAddress4_le addrs.ip4 not_fxp0addr_default
  have h6 := length_juniperAddress6_le addrs.ip6
    (juniperAddress4 addrs.ip4 juniperDefault ++ appended juniperRoute4 addrs.gw4)
  have hr4 := length_appended_le juniperRoute4 addrs.gw4
  have hr6 := length_appended_le juniperRoute6 addrs.gw6
  have hd := juniperDefault_plain.1
  have hi4 : (juniperIface "inet").length ≤ 400 := by decide +kernel
  have hi6 : (juniperIface "inet6").length ≤ 400 := by decide +kernel
  have hc4 : juniperRoute4.length ≤ 400 := by decide +kernel
  have hc6 : juniperRoute6.length ≤ 400 := by decide +kernel
  simp only [juniperOutput, Option.getD_none, List.length_append] at h6 ⊢
  omega

/-- The file that the script of a node leaves. -/
def copyOutput (addrs : Addrs) : NodeType → Option Bytes → Bytes
  | .juniper => juniperOutput addrs
  | _ => xrdOutput addrs

lemma prefix_copyOutput (addrs : Addrs) (v : NodeType) {data : Bytes} (h : ¬ fxp0addr <:+: data) :
    data <+: copyOutput addrs v (some data) := by
  cases v with
  | juniper => exact prefix_juniperOutput addrs h
  | _ => exact prefix_xrdOutput addrs data

lemma length_copyOutput (addrs : Addrs) (v : NodeType) :
    (copyOutput addrs v none).length < 1048576 := by
  cases v with
  | juniper => exact length_juniperOutput addrs
  | _ => exact length_xrdOutput addrs

/-! ### What the pods show -/

variable {w : Env} {pb : Proto} {v : NodeType} {s t : Cluster} {p : Pod} {data : Bytes}
  {cfg : List Obj}

lemma mountAt_append (pre : List VolumeMount) (m : VolumeMount) :
    mountAt (pre ++ [m]) m.mountPath = some m := by
  simp [mountAt]

lemma find?_others {vols : List Volume} {name : String} (h : Others vols)
    (hname : name = configVolumeName ∨ name = configSrcVolumeName) :
    vols.find? (·.name = name) = none := by
  refine List.find?_eq_none.mpr fun vol hvol => ?_
  rcases hname with rfl | rfl
  · simpa using (h vol hvol).1
  · simpa using (h vol hvol).2

lemma volumeEntry_eq {vols : List Volume} {mounts : List VolumeMount} {name : String}
    (hp : PodOf pb p vols mounts)
    (hname : name = configVolumeName ∨ name = configSrcVolumeName) :
    volumeEntry t p name =
      (vols.find? (·.name = name)).bind fun vol => sourceEntry t vol.source := by
  obtain ⟨pre, post, hvols, hpre, hpost⟩ := hp.volumes
  unfold volumeEntry
  rw [hvols, List.find?_append, List.find?_append, find?_others hpre hname,
    find?_others hpost hname, Option.none_or, Option.or_none]

lemma sourceEntry_made {vol : Volume} (hm : ConfigMade pb data (some vol) cfg)
    (hcfg : ∀ o ∈ cfg, o ∈ t.objs) :
    sourceEntry t vol.source =
      if data.length < 1048576 then some (.dir [(pb.config.configFile, data)])
      else some (.file data) := by
  cases hm with
  | configMap _ hne hlt =>
    have hget := Store.get?_eq_some_iff.mpr ⟨hcfg _ List.mem_cons_self, rfl⟩
    simp only [sourceEntry, if_pos hlt]
    rw [show t.get? ⟨.configMap, pb.name ++ "-config"⟩ = _ from hget]
  | file _ hge path =>
    have hget := Store.get?_eq_some_iff.mpr ⟨hcfg _ List.mem_cons_self, rfl⟩
    simp only [sourceEntry, if_neg (not_lt.mpr hge)]
    rw [show t.get? ⟨.file, path⟩ = _ from hget]

lemma foldl_entrypoint (addrs : Addrs) {cs : List InitContainer}
    (h : ∀ c ∈ cs, c.script = .entrypoint) (volumes : String → Option Entry) :
    cs.foldl (runInit addrs) volumes = volumes := by
  induction cs with
  | nil => rfl
  | cons c cs ih =>
    have hc : runInit addrs volumes c = volumes := by
      rw [runInit, h c List.mem_cons_self]
    rw [List.foldl_cons, hc]
    exact ih fun c hc => h c (List.mem_cons_of_mem _ hc)

lemma sees_eq (addrs : Addrs) {vols : List Volume} {m : VolumeMount} (hp : PodOf pb p vols [m]) :
    sees addrs t p m.mountPath =
      match ((p.initContainers.foldl (runInit addrs) (volumeEntry t p)) m.name).bind
        (Entry.sub m.subPath) with
      | some (.file content) => some content
      | _ => none := by
  obtain ⟨pre, rest, hmain⟩ := hp.main
  unfold sees
  rw [hmain]
  simp only [seen, mountAt_append, Option.bind_some]

lemma sees_mounted (addrs : Addrs) {vol : Volume} (hm : ConfigMade pb data (some vol) cfg)
    (hcfg : ∀ o ∈ cfg, o ∈ t.objs) (hp : PodOf pb p [vol] [configMount pb vol])
    (hi : ∀ c ∈ p.initContainers, c.script = .entrypoint) (hfile : pb.config.configFile ≠ "") :
    sees addrs t p (pb.config.configPath ++ "/" ++ pb.config.configFile) = some data := by
  have hname : vol.name = configVolumeName := by
    cases hm <;> rfl
  have hvol : volumeEntry t p configVolumeName = sourceEntry t vol.source := by
    rw [volumeEntry_eq hp (Or.inl rfl)]
    simp [hname]
  have hsees := sees_eq (t := t) addrs hp
  rw [foldl_entrypoint addrs hi] at hsees
  change sees addrs t p (configMount pb vol).mountPath = some data
  rw [hsees]
  change (match (volumeEntry t p configVolumeName).bind
    (Entry.sub (configMount pb vol).subPath) with
    | some (.file content) => some content
    | _ => none) = some data
  rw [hvol, sourceEntry_made hm hcfg]
  cases hm with
  | configMap _ hne hlt => simp [hlt, configMount, Entry.sub, hfile]
  | file _ hge path => simp [not_lt.mpr hge, configMount, Entry.sub]

lemma copyFile_eq (v : NodeType) (hfile : pb.config.configFile ≠ "") :
    copyFile pb v = pb.config.configFile := by
  cases v <;> simp [copyFile, Config.fileOr, hfile]

/-- What the init container finds to copy: the file of a ConfigMap, and nothing of a volume that is
itself a file. -/
lemma regularFile_src {vol : Option Volume} {mounts : List VolumeMount}
    (hm : ConfigMade pb data vol cfg) (hne : data ≠ []) (hcfg : ∀ o ∈ cfg, o ∈ t.objs)
    (hp : PodOf pb p (copyVolumes vol) mounts) :
    regularFile (seen (volumeEntry t p) (copyMounts vol) "/config-src") pb.config.configFile =
      if data.length < 1048576 then some data else none := by
  cases vol with
  | none =>
    cases hm
    exact absurd rfl hne
  | some vol =>
    have hsrc : volumeEntry t p configSrcVolumeName = sourceEntry t vol.source := by
      rw [volumeEntry_eq hp (Or.inr rfl)]
      simp [copyVolumes, show configVolumeName ≠ configSrcVolumeName by decide]
    have hseen : seen (volumeEntry t p) (copyMounts (some vol)) "/config-src" =
        sourceEntry t vol.source := by
      simp only [seen, copyMounts, mountAt, List.reverse_cons, List.reverse_nil, List.nil_append,
        List.cons_append, List.find?_cons, decide_true, Option.bind_some, hsrc]
      cases sourceEntry t vol.source with
      | none => rfl
      | some e => simp [Entry.sub]
    rw [hseen, sourceEntry_made hm hcfg]
    split_ifs
    · simp [regularFile]
    · rfl

lemma sees_copied (addrs : Addrs) {vol : Option Volume} (hv : Copies pb v)
    (hm : ConfigMade pb data vol cfg) (hne : data ≠ []) (hcfg : ∀ o ∈ cfg, o ∈ t.objs)
    (hp : PodOf pb p (copyVolumes vol) [copiedMount pb (copyFile pb v)])
    (hi : ∃ c, p.initContainers = [c] ∧ c.script = copyScript pb v ∧ c.mounts = copyMounts vol)
    (hfile : pb.config.configFile ≠ "") :
    sees addrs t p (pb.config.configPath ++ "/" ++ pb.config.configFile) =
      some (copyOutput addrs v (if data.length < 1048576 then some data else none)) := by
  obtain ⟨c, hinit, hscript, hmounts⟩ := hi
  have hdst : mountAt (copyMounts vol) "/config-dst" =
      some { name := configVolumeName, mountPath := "/config-dst" } := by
    cases vol <;> simp [copyMounts, mountAt]
  have hempty : volumeEntry t p configVolumeName = some (.dir []) := by
    rw [volumeEntry_eq hp (Or.inl rfl)]
    cases vol <;> simp [copyVolumes, sourceEntry]
  have hrun : runInit addrs (volumeEntry t p) c configVolumeName =
      some (.dir [(pb.config.configFile,
        copyOutput addrs v (if data.length < 1048576 then some data else none))]) := by
    have hsrc := regularFile_src hm hne hcfg hp
    rcases hv with rfl | ⟨rfl, -⟩ <;>
      simp only [runInit, hscript, copyScript, copyFile_eq _ hfile, hmounts, writeFile, hdst,
        hempty, hsrc, Function.update_self, copyOutput]
  rw [copyFile_eq v hfile] at hp
  have hsees := sees_eq (t := t) addrs hp
  rw [hinit, List.foldl_cons, List.foldl_nil] at hsees
  change sees addrs t p (copiedMount pb pb.config.configFile).mountPath = _
  rw [hsees]
  change (match (runInit addrs (volumeEntry t p) c configVolumeName).bind
    (Entry.sub pb.config.configFile) with
    | some (.file content) => some content
    | _ => none) = _
  rw [hrun]
  simp [Entry.sub, hfile]

lemma sees_config (addrs : Addrs) (hc : ConfigOf pb v data p cfg) (hne : data ≠ [])
    (hcfg : ∀ o ∈ cfg, o ∈ t.objs) (hfile : pb.config.configFile ≠ "") :
    sees addrs t p (pb.config.configPath ++ "/" ++ pb.config.configFile) =
      some (if Copies pb v then
        copyOutput addrs v (if data.length < 1048576 then some data else none) else data) := by
  cases hc with
  | mounts vols mounts hv hm hp hi =>
    rw [if_neg hv]
    cases hm with
    | absent => exact absurd rfl hne
    | mounted data vol cfg hm => exact sees_mounted addrs hm hcfg hp hi hfile
  | copies vol hv hm hp hi =>
    rw [if_pos hv]
    exact sees_copied addrs hv hm hne hcfg hp hi hfile

lemma pod_of_made {data : Bytes} {extra cfg : List Obj} {svcs : List Service}
    {proxies : List DaemonSet} (hm : Made w pb v data p extra cfg svcs proxies)
    (hg : Grown s t (allMade p extra cfg svcs proxies)) :
    t.get? ⟨.pod, pb.name⟩ = some (.pod p) := by
  rw [Store.get?_eq_some_iff]
  refine ⟨(hg.mem _).mpr (Or.inr (by simp [allMade])), ?_⟩
  rw [Obj.key, configOf_name hm.pod.config]

/-- **The config in the device.** After a successful `Create` with a config, the pod is there, and
the file of the config in its main container starts with the config, exactly unless an init
container is to copy a config of 1 MiB or more. -/
theorem config_delivered_iff (w : Env) (pb : Proto) (v : NodeType) (s t : Cluster) (addrs : Addrs)
    (data : Bytes) (h : create w pb v s = .ok () t) (hread : readConfig w pb = .ok data)
    (hne : data ≠ []) (hfile : pb.config.configFile ≠ "") (hfxp : ¬ fxp0addr <:+: data) :
    ∃ p, t.get? ⟨.pod, pb.name⟩ = some (.pod p) ∧
      ((∃ content, sees addrs t p (pb.config.configPath ++ "/" ++ pb.config.configFile) =
          some content ∧ data <+: content) ↔
        ¬ (Copies pb v ∧ 1048576 ≤ data.length)) := by
  obtain ⟨data', p, extra, cfg, svcs, proxies, hm, hg⟩ := create_made h
  obtain rfl : data = data' := Except.ok.inj (hread.symm.trans hm.pod.read)
  have hcfg : ∀ o ∈ cfg, o ∈ t.objs := fun o ho => (hg.mem o).mpr (Or.inr (by simp [allMade, ho]))
  refine ⟨p, pod_of_made hm hg, ?_⟩
  rw [sees_config addrs hm.pod.config hne hcfg hfile]
  by_cases hv : Copies pb v
  · by_cases hlt : data.length < 1048576
    · have hpre := prefix_copyOutput addrs v hfxp
      simpa [hv, hlt] using hpre
    · have hshort := length_copyOutput addrs v
      have hnot : ¬ data <+: copyOutput addrs v none := by
        intro hpre
        have := hpre.length_le
        omega
      simpa [hv, hlt, not_lt.mp hlt] using hnot
  · simp [hv]

/-! ### An XRd -/

def xrdNode (data : Bytes) : Proto where
  name := "r1"
  model := modelXRD
  config := { configPath := "/etc", configFile := "startup.cfg", configData := some (.data data) }

/-- The temporary file of its config. -/
def xrdTemp : String := tempCfgDir ++ "/kne-" ++ "r1" ++ "-config-" ++ "" ++ ".cfg"

lemma createConfig_xrdNode (data : Bytes) :
    ∃ vol t, createConfig bareEnv (xrdNode data) Store.empty = .ok vol t := by
  have hread : orFail (readConfig bareEnv (xrdNode data)) Store.empty = .ok data Store.empty :=
    orFail_ok_iff.mpr ⟨rfl, rfl⟩
  by_cases hzero : data.length = 0
  · refine ⟨none, Store.empty, bind_eq_ok_iff.mpr ⟨data, Store.empty, hread, ?_⟩⟩
    rw [if_pos hzero]
    rfl
  by_cases hlt : data.length < 1048576
  · obtain ⟨t, ht⟩ := createObj_ok (w := bareEnv)
      (o := .configMap ⟨"r1" ++ "-config", [("startup.cfg", data)]⟩) rfl (Store.not_has_empty _)
    refine ⟨some ⟨configVolumeName, .configMap ("r1" ++ "-config")⟩, t,
      bind_eq_ok_iff.mpr ⟨data, Store.empty, hread, ?_⟩⟩
    rw [if_neg hzero, if_pos hlt]
    exact bind_eq_ok_iff.mpr ⟨(), t, ht, rfl⟩
  · obtain ⟨t, ht⟩ := createObj_ok (w := bareEnv) (o := .file ⟨xrdTemp, data⟩) rfl
      (Store.not_has_empty _)
    have htemp : createTemp bareEnv (xrdNode data) data Store.empty = .ok xrdTemp t :=
      seq_eq_ok_iff.mpr ⟨t, ht, rfl⟩
    refine ⟨some ⟨configVolumeName, .hostPath xrdTemp⟩, t,
      bind_eq_ok_iff.mpr ⟨data, Store.empty, hread, ?_⟩⟩
    rw [if_neg hzero, if_neg hlt]
    exact bind_eq_ok_iff.mpr ⟨xrdTemp, t, htemp, rfl⟩

lemma create_xrdNode (data : Bytes) :
    ∃ t, create bareEnv (xrdNode data) .cisco Store.empty = .ok () t := by
  obtain ⟨vol, u, hconfig⟩ := createConfig_xrdNode data
  obtain ⟨data', cfg, -, hm, hg⟩ := createConfig_made hconfig
  have hpod : ¬ u.Has ⟨.pod, "r1"⟩ := by
    rintro ⟨o, ho, hk⟩
    rcases (hg.mem o).mp ho with ho | ho
    · exact absurd ho (Finset.notMem_empty o)
    · cases hm with
      | none => cases ho
      | configMap _ _ _ => rw [List.mem_singleton.mp ho] at hk; cases hk
      | file _ _ _ => rw [List.mem_singleton.mp ho] at hk; cases hk
  have hnew : ∀ p : Pod, p.name = "r1" → ∃ t, createObj bareEnv (.pod p) u = .ok () t := by
    rintro p hp
    exact createObj_ok rfl (by rwa [Obj.key, hp])
  obtain ⟨t, ht⟩ : ∃ t, xrdPod bareEnv (xrdNode data) Store.empty = .ok () t := by
    refine (hnew _ ?_).imp fun t ht => seq_eq_ok_iff.mpr ⟨Store.empty, rfl,
      bind_eq_ok_iff.mpr ⟨vol, u, hconfig, wrap_ok_iff.mpr ht⟩⟩
    rfl
  exact ⟨t, seq_eq_ok_iff.mpr ⟨Store.empty, rfl, seq_eq_ok_iff.mpr ⟨t, ht, rfl⟩⟩⟩

theorem small_config_delivered : ∃ t p,
    create bareEnv (xrdNode [33]) .cisco Store.empty = .ok () t ∧
    t.get? ⟨.pod, "r1"⟩ = some (.pod p) ∧
    ∃ content, sees noAddrs t p ("/etc" ++ "/" ++ "startup.cfg") = some content ∧
      [33] <+: content := by
  obtain ⟨t, ht⟩ := create_xrdNode [33]
  obtain ⟨p, hp, hiff⟩ := config_delivered_iff bareEnv (xrdNode [33]) .cisco Store.empty t noAddrs
    [33] ht rfl (by simp) (by decide) (by decide)
  exact ⟨t, p, ht, hp, hiff.mpr (by simp)⟩

/-- A config of 1 MiB. -/
def large : Bytes := List.replicate 1048576 33

/-- **A large config is lost.** The XRd boots from an empty file. -/
theorem large_config_lost : ∃ t p, create bareEnv (xrdNode large) .cisco Store.empty = .ok () t ∧
    t.get? ⟨.pod, "r1"⟩ = some (.pod p) ∧
    sees noAddrs t p ("/etc" ++ "/" ++ "startup.cfg") = some [] := by
  obtain ⟨t, ht⟩ := create_xrdNode large
  obtain ⟨data, p, extra, cfg, svcs, proxies, hm, hg⟩ := create_made ht
  obtain rfl : large = data := Except.ok.inj hm.pod.read
  have hcfg : ∀ o ∈ cfg, o ∈ t.objs := fun o ho => (hg.mem o).mpr (Or.inr (by simp [allMade, ho]))
  have hlen : large.length = 1048576 := List.length_replicate
  have hne : large ≠ [] := by
    intro h
    rw [h] at hlen
    cases hlen
  have hsees := sees_config noAddrs hm.pod.config hne hcfg (by decide)
  have hv : Copies (xrdNode large) .cisco := Or.inr ⟨rfl, rfl⟩
  rw [if_pos hv, if_neg (by omega)] at hsees
  exact ⟨t, p, ht, pod_of_made hm hg, hsees⟩

end Kne.NodeConfig
