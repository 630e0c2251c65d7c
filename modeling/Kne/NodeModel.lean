import Kne.Objects
import Kne.SpecsModel

/-!
The nodes that KNE runs as pods of its own: `Impl` in `topo/node/node.go`, and what Cisco, Juniper,
Alpine, SONiC, Ciena and Forward do in its place.

A program runs on the objects of the namespace and the files in the host's temporary directory, and
what it has created until it fails remains. `Env` has what the node does not determine: the files
that it reads, the requests that the API server refuses, the name and the fate of a temporary file,
the ports and addresses the API server assigns, which resource quantities parse, and the outcome of
`ValidateConstraints`.

Deleting what is not there returns a NotFound error, which every caller ignores; nothing else is
assumed to go wrong in a deletion.
-/

namespace Kne.NodeModel

open Kne.Objects Kne.TopoModel

/-! ### The objects -/

abbrev Bytes := List UInt8

inductive Kind
  | pod | service | configMap | daemonSet | file
  deriving DecidableEq, Repr

/-- Objects are found by their kind and their name, a file by its path. -/
structure Key where
  kind : Kind
  name : String
  deriving DecidableEq, Repr

inductive VolumeSource
  | emptyDir
  | configMap (name : String)
  | hostPath (path : String)
  deriving DecidableEq, Repr

structure Volume where
  name : String
  source : VolumeSource
  deriving DecidableEq, Repr

structure VolumeMount where
  name : String
  mountPath : String
  subPath : String := ""
  readOnly : Bool := false
  deriving DecidableEq, Repr

structure Container where
  name : String
  mounts : List VolumeMount
  deriving DecidableEq, Repr

/-- What the init container runs: its entrypoint, or one of the two scripts that also copy the
startup config. -/
inductive Script
  | entrypoint
  | xrd (dst src file : String)
  | juniper (dst src file : String)
  deriving DecidableEq, Repr

structure InitContainer where
  name : String
  image : String
  args : List String
  script : Script := .entrypoint
  mounts : List VolumeMount := []
  deriving DecidableEq, Repr

/-- A pod; of two labels with one name the first counts. -/
structure Pod where
  name : String
  labels : List (String × String)
  initContainers : List InitContainer
  containers : List Container
  volumes : List Volume
  deriving DecidableEq, Repr

inductive ServiceType
  | loadBalancer | nodePort | clusterIP
  deriving DecidableEq, Repr

structure ServicePort where
  port : ℕ
  nodePort : ℕ
  targetPort : Int32
  name : String
  deriving DecidableEq, Repr

/-- A service; `ingress` has the addresses of its load balancer. -/
structure Service where
  name : String
  labels : List (String × String)
  selector : List (String × String)
  type : ServiceType := .clusterIP
  clusterIP : String := ""
  allocateNodePorts : Bool := true
  ports : List ServicePort := []
  ingress : List String := []
  deriving DecidableEq, Repr

structure ConfigMap where
  name : String
  data : List (String × Bytes)
  deriving DecidableEq, Repr

/-- A DaemonSet; `nodePorts` are the ports its containers proxy. -/
structure DaemonSet where
  name : String
  labels : List (String × String)
  owner : Option String
  nodePorts : List ℕ
  deriving DecidableEq, Repr

structure File where
  path : String
  content : Bytes
  deriving DecidableEq, Repr

inductive Obj
  | pod (p : Pod)
  | service (svc : Service)
  | configMap (cm : ConfigMap)
  | daemonSet (ds : DaemonSet)
  | file (f : File)
  deriving DecidableEq, Repr

def Obj.key : Obj → Key
  | .pod p => ⟨.pod, p.name⟩
  | .service svc => ⟨.service, svc.name⟩
  | .configMap cm => ⟨.configMap, cm.name⟩
  | .daemonSet ds => ⟨.daemonSet, ds.name⟩
  | .file f => ⟨.file, f.path⟩

abbrev Cluster := Store Obj.key

/-! ### The node -/

inductive ConfigData
  | data (b : Bytes)
  | file (path : String)
  deriving DecidableEq, Repr

/-- The contents of a file in the vendor data of Alpine; the field may be unset. -/
inductive FileData
  | unset
  | data (b : Bytes)
  | file (path : String)
  deriving DecidableEq, Repr

/-- The vendor data of the nodes that look at it. For Forward it is what `wirePlan` makes of it: the
names of the containers, or an error. -/
inductive VendorData
  | alpine (files : List (String × FileData)) (mountDir : String) (containers : List String)
  | ciena (mountDir equipmentJson : String)
  | forward (plan : Except String (List String))
  | other (message : String)

def VendorData.message : VendorData → String
  | .alpine .. => "alpine.AlpineConfig"
  | .ciena .. => "ciena.CienaConfig"
  | .forward .. => "forward.ForwardConfig"
  | .other message => message

structure Config where
  initImage : String := ""
  sleep : ℕ := 0
  configPath : String := ""
  configFile : String := ""
  configData : Option ConfigData := none
  vendorData : Option VendorData := none

/-- The type of a service. The enumeration of the proto is open: a number it does not name is
kept as it is. -/
inductive SvcType
  | unknown | loadBalancer | nodePort | clusterIP
  | unrecognized (number : Int32) (h : number ∉ [0, 1, 2, 3])
  deriving DecidableEq, Repr

structure Svc where
  name : String := ""
  inside : UInt32 := 0
  outside : ℕ := 0
  insideIp : String := ""
  outsideIp : String := ""
  nodePort : ℕ := 0
  type : SvcType := .unknown
  externalIpv6 : Bool := false
  deriving DecidableEq, Repr

structure Proto where
  name : String
  model : String := ""
  labels : List (String × String) := []
  interfaces : AList (fun _ : String => Interface) := ∅
  services : AList (fun _ : ℕ => Svc) := ∅
  constraints : AList (fun _ : String => String) := ∅
  config : Config := {}

structure Env where
  order : Order := keptOrder
  topo : String
  basePath : String := ""
  /-- `os.ReadFile` of a path under the base path. -/
  readFile : String → String → Except String Bytes
  /-- The error of the request that would create the object under a key. -/
  refuse : Key → Option String := fun _ => none
  /-- What stands for the `*` in the name of a temporary file. -/
  temp : String := ""
  tempErr : Option String := none
  writeErr : Option String := none
  assignedPort : ServiceType → ℕ → ℕ := fun _ _ => 0
  /-- The addresses of a service, in the cluster and at the load balancer. -/
  assignedIP : String → String := fun _ => ""
  ingressIP : String → String := fun _ => ""
  /-- The error of `resource.ParseQuantity`. -/
  quantityErr : String → Option String := fun _ => none
  constraintsErr : Option String := none

/-! ### Programs -/

inductive Err
  | failed (text : String)
  | panic (text : String)
  deriving DecidableEq, Repr

abbrev Prog := EStateM Err Cluster

/-- An error wrapped by `fmt.Errorf`; a panic goes through. -/
def Err.wrap (pre : String) : Err → Err
  | .failed text => .failed (pre ++ text)
  | .panic text => .panic text

def wrap {α : Type} (pre : String) (x : Prog α) : Prog α := fun s =>
  match x s with
  | .ok a t => .ok a t
  | .error e t => .error (e.wrap pre) t

def orFail {α : Type} : Except String α → Prog α
  | .ok a => pure a
  | .error err => throw (.failed err)

def existsText : Key → String
  | ⟨.pod, name⟩ => "pods " ++ name.quote ++ " already exists"
  | ⟨.service, name⟩ => "services " ++ name.quote ++ " already exists"
  | ⟨.configMap, name⟩ => "configmaps " ++ name.quote ++ " already exists"
  | ⟨.daemonSet, name⟩ => "daemonsets.apps " ++ name.quote ++ " already exists"
  | ⟨.file, path⟩ => "open " ++ path ++ ": file exists"

/-- The request to create an object. -/
def createObj (w : Env) (o : Obj) : Prog Unit := fun s =>
  match w.refuse o.key with
  | some err => .error (.failed err) s
  | none =>
    match s.create o with
    | none => .error (.failed (existsText o.key)) s
    | some t => .ok () t

def removeObj (k : Key) : Prog Unit := fun s => .ok () (s.deleteIfFound k)

/-! ### The startup config -/

def configVolumeName : String := "startup-config-volume"

def configSrcVolumeName : String := "startup-config-src-volume"

def tempCfgDir : String := "/tmp/kne"

def readConfig (w : Env) (pb : Proto) : Except String Bytes :=
  match pb.config.configData with
  | some (.file path) => w.readFile w.basePath path
  | some (.data b) => .ok b
  | none => .ok []

/-- The temporary file of a large config: `os.CreateTemp`, then the write, which removes the file
when it fails. -/
def createTemp (w : Env) (pb : Proto) (data : Bytes) : Prog String := do
  match w.tempErr with
  | some err => throw (.failed err)
  | none =>
    let path := tempCfgDir ++ "/kne-" ++ pb.name ++ "-config-" ++ w.temp ++ ".cfg"
    createObj w (.file ⟨path, data⟩)
    match w.writeErr with
    | some err =>
      removeObj ⟨.file, path⟩
      throw (.failed err)
    | none => pure path

/-- `Impl.CreateConfig`: no volume for an empty config, a ConfigMap below 1 MiB, and a file of the
host above. -/
def createConfig (w : Env) (pb : Proto) : Prog (Option Volume) := do
  let data ← orFail (readConfig w pb)
  if data.length = 0 then pure none
  else if data.length < 1048576 then
    let name := pb.name ++ "-config"
    createObj w (.configMap ⟨name, [(pb.config.configFile, data)]⟩)
    pure (some ⟨configVolumeName, .configMap name⟩)
  else
    let path ← createTemp w pb data
    pure (some ⟨configVolumeName, .hostPath path⟩)

/-- The mount of the config volume: one file of a ConfigMap, or the file of the host itself. -/
def configMount (pb : Proto) (vol : Volume) : VolumeMount where
  name := configVolumeName
  mountPath := pb.config.configPath ++ "/" ++ pb.config.configFile
  subPath :=
    match vol.source with
    | .configMap _ => pb.config.configFile
    | .emptyDir | .hostPath _ => ""
  readOnly := true

/-- The config of the nodes that mount it: the volumes, and the mounts of the containers. The
volume is dereferenced although `CreateConfig` returns none for an empty config. -/
def mountConfig (w : Env) (pb : Proto) : Prog (List Volume × List VolumeMount) := do
  match pb.config.configData with
  | none => pure ([], [])
  | some _ =>
    match ← createConfig w pb with
    | none => throw (.panic "invalid memory address or nil pointer dereference")
    | some vol => pure ([vol], [configMount pb vol])

/-- The volumes of the nodes whose init container copies the config: an empty directory to copy it
to, and what it is copied from. -/
def copyVolumes : Option Volume → List Volume
  | none => [⟨configVolumeName, .emptyDir⟩]
  | some vol => [⟨configVolumeName, .emptyDir⟩, { vol with name := configSrcVolumeName }]

/-- The mounts of that init container. -/
def copyMounts : Option Volume → List VolumeMount
  | none => [{ name := configVolumeName, mountPath := "/config-dst" }]
  | some _ => [{ name := configVolumeName, mountPath := "/config-dst" },
      { name := configSrcVolumeName, mountPath := "/config-src", readOnly := true }]

def Config.fileOr (c : Config) (byDefault : String) : String :=
  if c.configFile = "" then byDefault else c.configFile

/-- The mount of what was copied. -/
def copiedMount (pb : Proto) (configFile : String) : VolumeMount where
  name := configVolumeName
  mountPath := pb.config.configPath ++ "/" ++ configFile
  subPath := configFile
  readOnly := true

/-! ### Services -/

def k8sServiceType : SvcType → ServiceType
  | .nodePort => .nodePort
  | .clusterIP => .clusterIP
  | .loadBalancer | .unknown => .loadBalancer
  | .unrecognized _ _ => .loadBalancer

def serviceNameForType (nodeName : String) : ServiceType → String
  | .nodePort => "service-" ++ nodeName ++ "-nodeport"
  | .clusterIP => "service-" ++ nodeName ++ "-clusterip"
  | .loadBalancer => "service-" ++ nodeName

def typeOrder : List ServiceType := [.loadBalancer, .nodePort, .clusterIP]

/-- The port of a service under the key `k`. -/
def servicePort (k : ℕ) (v : Svc) : Except String (ServiceType × ServicePort) :=
  if v.nodePort > 65535 then .error (s!"node port {k} out of range (max: 65535)")
  else if k > 65535 then .error (s!"service port {k} out of range (max: 65535)")
  else .ok (k8sServiceType v.type,
    { port := k, nodePort := v.nodePort, targetPort := v.inside.toInt32, name := v.name })

/-- The ports in the order of their keys. -/
def servicePorts (pb : Proto) : Except String (List (ServiceType × ServicePort)) :=
  (pb.services.entries.insertionSort fun a b => a.1 ≤ b.1).mapM fun e => servicePort e.1 e.2

def portsOfType (ports : List (ServiceType × ServicePort)) (st : ServiceType) : List ServicePort :=
  (ports.filter (·.1 = st)).map (·.2)

def serviceOfType (pb : Proto) (st : ServiceType) (ports : List ServicePort) : Service where
  name := serviceNameForType pb.name st
  labels := [("pod", pb.name)]
  selector := [("app", pb.name)]
  type := st
  allocateNodePorts := st != .loadBalancer
  ports := ports

/-- One service for each type that has ports. -/
def servicesToCreate (pb : Proto) (ports : List (ServiceType × ServicePort)) : List Service :=
  typeOrder.filterMap fun st =>
    match portsOfType ports st with
    | [] => none
    | sps@(_ :: _) => some (serviceOfType pb st sps)

def assignedPorts (w : Env) (svc : Service) : List ServicePort :=
  svc.ports.map fun sp =>
    if sp.nodePort = 0 then { sp with nodePort := w.assignedPort svc.type sp.port } else sp

/-- The service as the API server returns it, with the node ports and the addresses it assigned. The
load balancer adds its address later, before anything looks at it. -/
def assigned (w : Env) (svc : Service) : Service :=
  { svc with
    ports := assignedPorts w svc
    clusterIP := if svc.clusterIP = "" then w.assignedIP svc.name else svc.clusterIP
    ingress := if svc.type = .loadBalancer then [w.ingressIP svc.name] else [] }

/-- What `CreateService` does when it fails: the services created so far are deleted. -/
def rollback (created : List Service) (s : Cluster) : Cluster :=
  (created.map fun svc => (⟨.service, svc.name⟩ : Key)).foldl Store.deleteIfFound s

def undoing {α : Type} (created : List Service) (x : Prog α) : Prog α := fun s =>
  match x s with
  | .ok a t => .ok a t
  | .error e t => .error e (rollback created t)

/-- The loop that creates the services, after those of `created`. -/
def createServices (w : Env) (created : List Service) : List Service → Prog (List Service)
  | [] => pure created
  | svc :: rest => do
    undoing created (createObj w (.service (assigned w svc)))
    createServices w (created ++ [assigned w svc]) rest

/-- The node ports of the created services that ask for a proxy. -/
def proxiedPorts (pb : Proto) (created : List Service) : List ℕ :=
  created.flatMap fun svc => svc.ports.filterMap fun sp =>
    match pb.services.lookup sp.port with
    | some v => if v.externalIpv6 ∧ 0 < sp.nodePort then some sp.nodePort else none
    | none => none

def proxyOwner (created : List Service) : Option String :=
  ((created.find? (·.type = .nodePort)).or created.head?).map Service.name

def proxyName (nodeName : String) : String := "v6proxy-" ++ nodeName

def createProxy (w : Env) (pb : Proto) (created : List Service) : Prog Unit :=
  match proxiedPorts pb created with
  | [] => pure ()
  | nodePorts@(_ :: _) =>
    wrap "failed to create host v6proxy daemonset: " (createObj w (.daemonSet {
      name := proxyName pb.name
      labels := [("app", proxyName pb.name), ("pod", pb.name), ("topo", w.topo)]
      owner := proxyOwner created
      nodePorts := nodePorts }))

/-- `Impl.CreateService`. -/
def createService (w : Env) (pb : Proto) : Prog Unit := do
  if pb.services.keys = [] then pure ()
  else
    let ports ← orFail (servicePorts pb)
    let created ← createServices w [] (servicesToCreate pb ports)
    undoing created (createProxy w pb created)

/-- The headless service of a Forward node. -/
def peerService (pb : Proto) : Service where
  name := pb.name
  labels := [("pod", pb.name)]
  selector := [("app", pb.name)]
  clusterIP := "None"

/-- `CreateService` of Forward. -/
def forwardCreateService (w : Env) (pb : Proto) : Prog Unit := do
  wrap ("failed to create peer service for node " ++ pb.name ++ ": ")
    (createObj w (.service (peerService pb)))
  undoing [peerService pb] (createService w pb)

/-! ### Pods -/

def defaultInitContainerImage : String := "us-west1-docker.pkg.dev/kne-external/kne/init-wait:ga"

/-- The init container; `n` is what it waits for. -/
def initContainer (pb : Proto) (n : ℕ) (more : List String) : InitContainer where
  name := "init-" ++ pb.name
  image := if pb.config.initImage = "" then defaultInitContainerImage else pb.config.initImage
  args := [toString (n + 1), toString pb.config.sleep] ++ more

def nodeLabels (w : Env) (pb : Proto) : List (String × String) :=
  [("app", pb.name), ("topo", w.topo)]

/-- The labels of the pod with those of the node, which take precedence. -/
def podLabels (w : Env) (pb : Proto) : List (String × String) := pb.labels ++ nodeLabels w pb

def interfaceCount (pb : Proto) : ℕ := pb.interfaces.keys.length

/-- `resource.MustParse`. -/
def mustParse (w : Env) (quantity : String) : Prog Unit :=
  match w.quantityErr quantity with
  | none => pure ()
  | some err => throw (.panic ("cannot parse '" ++ quantity ++ "': " ++ err))

/-- The quantity under a name of the constraints is parsed if there is one. -/
def parseConstraint (w : Env) (pb : Proto) (name : String) : Prog Unit :=
  match pb.constraints.lookup name with
  | none => pure ()
  | some quantity => mustParse w quantity

/-- `ToResourceRequirements`. All containers of a pod have the same, so it matters once. -/
def toResourceRequirements (w : Env) (pb : Proto) : Prog Unit := do
  parseConstraint w pb "cpu"
  parseConstraint w pb "memory"

/-- `Impl.CreatePod`. -/
def implCreatePod (w : Env) (pb : Proto) : Prog Unit := do
  let links ← orFail
    (SpecsModel.getNodeLinks w.order { name := pb.name, interfaces := pb.interfaces })
  toResourceRequirements w pb
  let (volumes, mounts) ← mountConfig w pb
  createObj w (.pod {
    name := pb.name
    labels := podLabels w pb
    initContainers := [initContainer pb links.length []]
    containers := [⟨pb.name, mounts⟩]
    volumes := volumes })

def mismatch (got want : String) : String :=
  "mismatched message type: got " ++ got.quote ++ ", want " ++ want.quote

/-- The contents of the files of Alpine's vendor data. -/
def readFiles (w : Env) (files : List (String × FileData)) :
    Except String (List (String × Bytes)) :=
  files.mapM fun (name, data) =>
    match data with
    | .unset => .ok (name, [])
    | .data b => .ok (name, b)
    | .file path => (w.readFile w.basePath path).map fun b => (name, b)

/-- The ConfigMap of Alpine's files with its volume, and the other containers. -/
def alpineFiles (w : Env) (pb : Proto) : Prog (List Volume × List Container) :=
  match pb.config.vendorData with
  | none => pure ([], [])
  | some (.alpine files mountDir containers) =>
    if files = [] then pure ([], containers.map fun name => ⟨name, []⟩)
    else do
      let contents ← orFail (readFiles w files)
      createObj w (.configMap ⟨pb.name ++ "-files", contents⟩)
      pure ([⟨"files", .configMap (pb.name ++ "-files")⟩],
        containers.map fun name => ⟨name, [{ name := "files", mountPath := mountDir }]⟩)
  | some other => throw (.failed (mismatch other.message "alpine.AlpineConfig"))

/-- `CreatePod` of Alpine. -/
def alpineCreatePod (w : Env) (pb : Proto) : Prog Unit := do
  toResourceRequirements w pb
  let (extraVolumes, others) ← alpineFiles w pb
  let (volumes, mounts) ← mountConfig w pb
  createObj w (.pod {
    name := pb.name
    labels := nodeLabels w pb
    initContainers := [initContainer pb (interfaceCount pb) ["1"]]
    containers := ⟨pb.name, mounts⟩ :: others.map fun c => ⟨c.name, c.mounts ++ mounts⟩
    volumes := volumes ++ extraVolumes })

/-- `CreatePod` of SONiC. -/
def sonicCreatePod (w : Env) (pb : Proto) : Prog Unit := do
  toResourceRequirements w pb
  let (volumes, mounts) ← mountConfig w pb
  createObj w (.pod {
    name := pb.name
    labels := nodeLabels w pb
    initContainers := [initContainer pb (interfaceCount pb) ["1"]]
    containers := [⟨pb.name, mounts⟩]
    volumes := volumes })

/-- The ConfigMap of Ciena's equipment file, with its volume and its mount. -/
def cienaEquipment (w : Env) (pb : Proto) : Prog (List Volume × List VolumeMount) :=
  match pb.config.vendorData with
  | none => pure ([], [])
  | some (.ciena mountDir equipmentJson) => do
    let mountPath := if mountDir = "" then "/" else mountDir
    let contents ← orFail (w.readFile w.basePath equipmentJson)
    createObj w (.configMap ⟨pb.name ++ "-file", [("setup.json", contents)]⟩)
    pure ([⟨"equipment-file", .configMap (pb.name ++ "-file")⟩],
      [{ name := "equipment-file", mountPath := mountPath ++ "/setup.json", subPath := "setup.json",
         readOnly := true }])
  | some other => throw (.failed (mismatch other.message "ciena.CienaConfig"))

/-- `CreatePod` of Ciena; it has no init container. -/
def cienaCreatePod (w : Env) (pb : Proto) : Prog Unit := do
  let (extraVolumes, extraMounts) ← cienaEquipment w pb
  toResourceRequirements w pb
  let (volumes, mounts) ← mountConfig w pb
  wrap ("failed to create pod for " ++ pb.name.quote ++ ": ") (createObj w (.pod {
    name := pb.name
    labels := podLabels w pb
    initContainers := []
    containers := [⟨pb.name, extraMounts ++ mounts⟩]
    volumes := extraVolumes ++ volumes }))

/-- The containers of a Forward node besides the one that has its name. -/
def forwardPlan (pb : Proto) : Except String (List String) :=
  match pb.config.vendorData with
  | none => .ok []
  | some (.forward (.ok plan)) => .ok (plan.tail.map fun suffix => pb.name ++ "-" ++ suffix)
  | some (.forward (.error err)) => .error ("node " ++ pb.name ++ ": " ++ err)
  | some other => .error (mismatch other.message "forward.ForwardConfig")

/-- `CreatePod` of Forward. -/
def forwardCreatePod (w : Env) (pb : Proto) : Prog Unit := do
  let others ← orFail (forwardPlan pb)
  toResourceRequirements w pb
  let (volumes, mounts) ← mountConfig w pb
  createObj w (.pod {
    name := pb.name
    labels := podLabels w pb
    initContainers := [initContainer pb (interfaceCount pb) []]
    containers := (pb.name :: others).map fun name => ⟨name, mounts⟩
    volumes := volumes })

def modelXRD : String := "xrd"

/-- The scratch directory of a container, in memory. -/
def scratch (pb : Proto) (what path : String) : Volume × VolumeMount :=
  (⟨pb.name ++ what, .emptyDir⟩, { name := pb.name ++ what, mountPath := path })

/-- The pod of Cisco's XRd, whose init container copies the config. -/
def xrdPod (w : Env) (pb : Proto) : Prog Unit := do
  toResourceRequirements w pb
  let configFile := pb.config.fileOr "startup.cfg"
  let vol ← createConfig w pb
  let run := scratch pb "-run-mount" "/run"
  wrap ("failed to create pod for " ++ pb.name.quote ++ ": ") (createObj w (.pod {
    name := pb.name
    labels := podLabels w pb
    initContainers := [{ initContainer pb (interfaceCount pb) [] with
      script := .xrd "/config-dst" "/config-src" configFile
      mounts := copyMounts vol }]
    containers := [⟨pb.name, [run.2, copiedMount pb configFile]⟩]
    volumes := run.1 :: copyVolumes vol }))

/-- The pod of the other Cisco models. -/
def e8000Pod (w : Env) (pb : Proto) : Prog Unit := do
  toResourceRequirements w pb
  let (volumes, mounts) ← mountConfig w pb
  let run := scratch pb "-run-mount" "/run"
  wrap ("failed to create pod for " ++ pb.name.quote ++ ": ") (createObj w (.pod {
    name := pb.name
    labels := podLabels w pb
    initContainers := [initContainer pb (interfaceCount pb) []]
    containers := [⟨pb.name, run.2 :: mounts⟩]
    volumes := run.1 :: volumes }))

/-- The directories of a Juniper container. -/
def juniperMounts (pb : Proto) : List (Volume × VolumeMount) :=
  [scratch pb "-run-mount" "/run", scratch pb "-tmp-mount" "/tmp",
    scratch pb "-dev-shm-mount" "/dev/shm",
    (⟨pb.name ++ "-cgroup-mount", .hostPath "/sys/fs/cgroup"⟩,
      { name := pb.name ++ "-cgroup-mount", mountPath := "/sys/fs/cgroup" })]

/-- The pod of a Juniper node, whose init container copies the config. -/
def juniperPod (w : Env) (pb : Proto) : Prog Unit := do
  toResourceRequirements w pb
  let configFile := pb.config.fileOr "juniper.conf"
  let vol ← createConfig w pb
  let own := juniperMounts pb
  wrap ("failed to create pod for " ++ pb.name.quote ++ ": ") (createObj w (.pod {
    name := pb.name
    labels := podLabels w pb
    initContainers := [{ initContainer pb (interfaceCount pb) [] with
      script := .juniper "/config-dst" "/config-src" configFile
      mounts := copyMounts vol }]
    containers := [⟨pb.name, own.map (·.2) ++ [copiedMount pb configFile]⟩]
    volumes := own.map (·.1) ++ copyVolumes vol }))

/-! ### Creation and deletion -/

/-- The types of nodes. -/
inductive NodeType
  | impl | cisco | juniper | alpine | sonic | ciena | forward
  deriving DecidableEq, Repr

def validateConstraints (w : Env) (pre : String) : Prog Unit :=
  match w.constraintsErr with
  | none => pure ()
  | some err => throw (.failed (pre ++ err))

/-- The pod and the services, with the errors that `Impl.Create` and those like it return. -/
def createBoth (pb : Proto) (pod service : Prog Unit) : Prog Unit := do
  wrap ("node " ++ pb.name ++ " failed to create pod ") pod
  wrap ("node " ++ pb.name ++ " failed to create service ") service

/-- `Create` of Alpine, SONiC, Ciena and Forward. -/
def createValidated (w : Env) (pb : Proto) (pod service : Prog Unit) : Prog Unit := do
  validateConstraints w ("node " ++ pb.name ++ " failed to validate node with errors: ")
  createBoth pb pod service

def ciscoCreate (w : Env) (pb : Proto) : Prog Unit := do
  validateConstraints w
    ("host constraints validation failed for node " ++ pb.name ++ " with error ")
  if pb.model = modelXRD then xrdPod w pb else e8000Pod w pb
  createService w pb

def juniperCreate (w : Env) (pb : Proto) : Prog Unit := do
  juniperPod w pb
  createService w pb

def create (w : Env) (pb : Proto) : NodeType → Prog Unit
  | .impl => createBoth pb (implCreatePod w pb) (createService w pb)
  | .cisco => ciscoCreate w pb
  | .juniper => juniperCreate w pb
  | .alpine => createValidated w pb (alpineCreatePod w pb) (createService w pb)
  | .sonic => createValidated w pb (sonicCreatePod w pb) (createService w pb)
  | .ciena => createValidated w pb (cienaCreatePod w pb) (createService w pb)
  | .forward => createValidated w pb (forwardCreatePod w pb) (forwardCreateService w pb)

/-- The object is a service with the label by which a node finds its services. -/
def Obj.Labelled (n : String) : Obj → Prop
  | .service svc => svc.labels.lookup "pod" = some n
  | _ => False

instance (n : String) (o : Obj) : Decidable (o.Labelled n) :=
  match o with
  | .service svc => inferInstanceAs (Decidable (svc.labels.lookup "pod" = some n))
  | .pod _ | .configMap _ | .daemonSet _ | .file _ => .isFalse id

def serviceKeys (n : String) : List Key :=
  [⟨.service, "service-" ++ n⟩, ⟨.service, "service-" ++ n ++ "-nodeport"⟩,
    ⟨.service, "service-" ++ n ++ "-clusterip"⟩]

/-- `Impl.DeleteService`: the services that carry the label, or those of the usual names if there
is none. -/
def deleteService (n : String) (s : Cluster) : Cluster :=
  let s' := s.deleteIfFound ⟨.daemonSet, proxyName n⟩
  let items := s'.objs.filter (Obj.Labelled n)
  if items.Nonempty then s'.deleteEach (items.image Obj.key)
  else (serviceKeys n).foldl Store.deleteIfFound s'

/-- What `DeleteConfig` deletes for a volume of the pod. -/
def Volume.configKey (v : Volume) : Option Key :=
  if v.name ≠ configVolumeName then none
  else
    match v.source with
    | .hostPath path => some ⟨.file, path⟩
    | .configMap name => some ⟨.configMap, name⟩
    | .emptyDir => none

def Pod.configKeys (p : Pod) : List Key := p.volumes.filterMap Volume.configKey

/-- `Impl.DeleteConfig`. -/
def deleteConfig (n : String) (s : Cluster) : Cluster :=
  match s.get? ⟨.pod, n⟩ with
  | some (.pod p) => p.configKeys.foldl Store.deleteIfFound s
  | _ => s

/-- `Impl.DeleteResource`. -/
def deleteResource (n : String) (s : Cluster) : Cluster :=
  (deleteConfig n s).deleteIfFound ⟨.pod, n⟩

def implDelete (n : String) (s : Cluster) : Cluster := deleteResource n (deleteService n s)

/-- `Delete` of Ciena, which has a ConfigMap of its own. -/
def cienaDelete (n : String) (s : Cluster) : Cluster :=
  implDelete n (s.deleteIfFound ⟨.configMap, n ++ "-file"⟩)

def delete (n : String) : NodeType → Cluster → Cluster
  | .ciena => cienaDelete n
  | .impl | .cisco | .juniper | .alpine | .sonic | .forward => implDelete n

end Kne.NodeModel
