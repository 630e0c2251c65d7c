import Kne.Runs

/-!
The controller server (`controller/server/main.go`): the requests for clusters and topologies, and
what the manager behind them does to the namespaces of a cluster (`Manager.Create`, `push` and
`Manager.Delete` in `topo/topo.go`).

A request holds the mutex of its map from the first lookup to its return, so requests are single
steps. What the program does not determine comes with the request: which files exist, which calls
fail, and what a stage of `Create` has written when it fails. A namespace whose deletion was
accepted goes away by itself, some time after the request that asked for it.
-/

namespace Kne.CtlModel

inductive Code
  | invalidArgument | notFound | alreadyExists | internal
  deriving DecidableEq, Repr

structure Status where
  code : Code
  msg : String
  deriving DecidableEq, Repr

inductive ConfigData
  | data (bs : List UInt8)
  | file (path : String)
  deriving DecidableEq, Repr

structure Config where
  configData : Option ConfigData := none
  deriving DecidableEq, Repr

structure Node where
  name : String
  config : Option Config := none
  deriving DecidableEq, Repr

structure Topology where
  name : String
  nodes : List Node := []
  deriving DecidableEq, Repr

/-! ### The cluster -/

/-- What the manager makes in a namespace: custom resources of operators, meshnet resources, and
the objects of a node. -/
inductive Obj
  | custom (name : String)
  | meshnet (pod : String)
  | node (name : String)
  deriving DecidableEq, Repr

/-- A namespace of a cluster: whether the controller made it, and what the controller made in
it. -/
structure Namespace where
  ours : Bool := false
  objs : List Obj := []
  terminating : Bool := false
  deriving DecidableEq, Repr

abbrev Namespaces := String → Option Namespace

inductive Write
  | ns
  | obj (o : Obj)
  deriving DecidableEq, Repr

def write (cell : Option Namespace) : Write → Option Namespace
  | .ns => some { ours := true }
  | .obj o => cell.map fun n => { n with objs := n.objs ++ [o] }

/-- A stage of `Create`: what it has written when it ends, and the error it ends with. -/
structure Stage where
  made : List Write := []
  err : Option String := none

/-- The stages up to the first that fails. -/
def performed : List Stage → List Stage
  | [] => []
  | st :: sts => if st.err.isSome then [st] else st :: performed sts

def firstError : List Stage → Option String
  | [] => none
  | st :: sts => match st.err with
    | some err => some err
    | none => firstError sts

def writes (sts : List Stage) : List Write := (performed sts).flatMap Stage.made

/-- What a call that makes several objects has made, and its error. -/
structure Made where
  objs : List Obj := []
  err : Option String := none

/-- What happens during `Manager.Create`. -/
structure CreateRun where
  ready : Option String := none
  /-- The node whose constraints fail, and how. -/
  validate : Option (String × String) := none
  /-- The lookup of the namespace goes through. -/
  get : Bool := true
  nsCreate : Option String := none
  /-- `String` of the `Namespace` object that is to be created. -/
  nsString : String := ""
  specs : Made := {}
  meshnet : Made := {}
  nodes : Made := {}
  status : Option String := none
  service : Option String := none
  /-- The errors of the pod watcher and of the event watcher. -/
  podWatch : Option String := none
  eventWatch : Option String := none

/-- `push` looks for the namespace and creates it if the lookup fails, for whatever reason. -/
def namespaceStage (cell : Option Namespace) (name : String) (r : CreateRun) : Stage :=
  if cell.isSome && r.get then {}
  else
    match if cell.isSome then
        some (r.nsCreate.getD ("namespaces " ++ name.quote ++ " already exists"))
      else r.nsCreate with
    | some err => { err := some ("failed to create namespace " ++ r.nsString.quote ++ ": " ++ err) }
    | none => { made := [.ns] }

/-- When no worker of `push` fails, the objects of all nodes have been made. -/
def nodeObjs (topo : Topology) (r : CreateRun) : List Obj :=
  match r.nodes.err with
  | some _ => r.nodes.objs
  | none => topo.nodes.map fun n => .node n.name

/-- The stages of `push`. -/
def pushStages (cell : Option Namespace) (topo : Topology) (r : CreateRun) : List Stage :=
  [{ err := r.validate.map fun p => "failed to validate node " ++ p.1 ++ ": " ++ p.2 },
    namespaceStage cell topo.name r,
    { made := r.specs.objs.map .obj
      err := r.specs.err.map fun err => "failed to create meshnet topologies: " ++
        "could not get meshnet topologies: " ++ err },
    { made := r.meshnet.objs.map .obj
      err := r.meshnet.err.map ("failed to create meshnet topologies: " ++ ·) },
    { made := (nodeObjs topo r).map .obj, err := r.nodes.err }]

/-- The stages of `Create` once the cluster is ready. -/
def stages (cell : Option Namespace) (topo : Topology) (r : CreateRun) : List Stage :=
  (pushStages cell topo r).map (fun st => { st with
    err := st.err.map ("failed to create topology " ++ topo.name.quote ++ ": " ++ ·) }) ++
  [{ err := r.status.map ("failed to check status of nodes in topology " ++ topo.name.quote ++
      ": " ++ ·) },
    { err := r.service.map ("failed to check status of services in topology " ++
      topo.name.quote ++ ": " ++ ·) }]

/-- `Manager.Create`. The watchers that run meanwhile replace the error by their own. -/
def create (nss : Namespaces) (topo : Topology) (r : CreateRun) : Namespaces × Option String :=
  match r.ready with
  | some err => (nss, some ("failed waiting for cluster to be ready: " ++ err))
  | none =>
    let sts := stages (nss topo.name) topo r
    (Function.update nss topo.name ((writes sts).foldl write (nss topo.name)),
      r.podWatch.or (r.eventWatch.or (firstError sts)))

/-- What happens during `Manager.Delete`. -/
structure DeleteRun where
  /-- The lookup of the namespace goes through. -/
  get : Bool := true
  /-- What the deletion of the nodes and of the meshnet resources leaves. -/
  keep : Obj → Bool := fun _ => false
  delete : Option String := none
  wait : Option String := none

/-- `Manager.Delete`. -/
def delete (nss : Namespaces) (name : String) (r : DeleteRun) : Namespaces × Option String :=
  match nss name, r.get with
  | some n, true =>
    let n := { n with objs := n.objs.filter r.keep }
    match r.delete with
    | some err => (Function.update nss name (some n),
        some ("failed to delete namespace " ++ name.quote ++ ": " ++ err))
    | none =>
      match r.wait with
      | some err => (Function.update nss name (some { n with terminating := true }),
          some ("failed to wait for namespace " ++ name.quote ++ " deletion: " ++ err))
      | none => (Function.update nss name none, none)
  | _, _ => (nss, some ("topology " ++ name.quote ++ " does not exist in cluster"))

/-! ### The server -/

/-- The host of the controller. Its paths do not change while the controller runs. -/
structure Host where
  defaultKubeCfg : String
  defaultTopoBasePath : String
  /-- `filepath.Abs`. -/
  abs : String → Option String
  /-- `filepath.Join`. -/
  join : String → String → String

/-- `os.Stat` succeeds on the files of `stat`. -/
def validatePath (c : Host) (stat : String → Bool) (path : String) : Except String String :=
  match c.abs path with
  | none => .error ("failed to evaluate absolute path: " ++ "".quote)
  | some path => if stat path then .ok path else .error ("path " ++ path.quote ++ " does not exist")

inductive Cluster
  | kind (name : String)
  | kubeadm
  | external
  deriving DecidableEq, Repr

def Cluster.getName : Cluster → String
  | .kind name => if name ≠ "" then name else "kne"
  | .kubeadm => "kne"
  | .external => "kne"

/-- A request to the manager of a topology, the kubecfg the topology was created with, and the one
the manager was made with. -/
structure Use where
  topology : String
  home : Option String
  kubecfg : String
  deriving DecidableEq, Repr

/-- The maps of the server and the clusters behind the kubecfgs. The fields `home` and `uses` are
not in the program: which kubecfg a topology was created with, and what requests have used. -/
structure St where
  deployments : String → Option Cluster := fun _ => none
  topos : String → Option Topology := fun _ => none
  clusters : String → Namespaces := fun _ _ => none
  home : String → Option String := fun _ => none
  uses : List Use := []

/-- What happens around the handler of `CreateTopology`. -/
structure CreateEnv where
  stat : String → Bool := fun _ => true
  marshal : Option String := none
  new : Option String := none
  run : CreateRun := {}
  shown : Option String := none

/-- What happens while a handler makes the manager of a topology. -/
structure OpenEnv where
  stat : String → Bool := fun _ => true
  unmarshal : Option String := none
  new : Option String := none

/-- The path of a config file is made absolute and looked for. -/
def fixConfig (c : Host) (stat : String → Bool) (n : Node) : Except Status Node :=
  match n.config.bind Config.configData with
  | some (.file path) =>
    if path = "" then .ok n
    else
      let path := if path.startsWith "/" then path else c.join c.defaultTopoBasePath path
      match validatePath c stat path with
      | .error err => .error ⟨.invalidArgument,
          "config file not found for node " ++ n.name.quote ++ ": " ++ err⟩
      | .ok _ => .ok { n with config := some ⟨some (.file path)⟩ }
  | _ => .ok n

/-- The kubecfg a request to create a topology names, or the default. -/
def kubecfgPath (c : Host) (kubecfg : String) : String :=
  if kubecfg ≠ "" then kubecfg else c.defaultKubeCfg

/-- The part of `CreateTopology` from the lookup in the map to `topo.New`: the topology to store,
and the kubecfg. -/
def prepare (c : Host) (topo : Topology) (kubecfg : String) (e : CreateEnv) :
    Except Status (Topology × String) := do
  let nodes ← topo.nodes.mapM (fixConfig c e.stat)
  if let some err := e.marshal then throw ⟨.internal, "invalid topology protobuf: " ++ err⟩
  let path := kubecfgPath c kubecfg
  match validatePath c e.stat path with
  | .error err => .error ⟨.invalidArgument, "kubecfg " ++ path.quote ++ " does not exist: " ++ err⟩
  | .ok kcfg =>
    match e.new with
    | some err => .error ⟨.internal, "failed to create topology manager: " ++ err⟩
    | none => .ok ({ topo with nodes := nodes }, kcfg)

def register (s : St) (topo : Topology) (kcfg : String) : St :=
  { s with
    topos := Function.update s.topos topo.name (some topo)
    home := Function.update s.home topo.name (some kcfg) }

def createTopology (c : Host) (s : St) (topology : Option Topology) (kubecfg : String)
    (e : CreateEnv) : St × Except Status Unit :=
  match topology with
  | none => (s, .error ⟨.invalidArgument, "invalid request: missing topology protobuf"⟩)
  | some topo =>
    if topo.name = "" then (s, .error ⟨.invalidArgument, "missing topology name"⟩)
    else if (s.topos topo.name).isSome then
      (s, .error ⟨.alreadyExists, "topology " ++ topo.name.quote ++ " already exists"⟩)
    else
      match prepare c topo kubecfg e with
      | .error status => (s, .error status)
      | .ok (topo, kcfg) =>
        let out := create (s.clusters kcfg) topo e.run
        let s := { s with clusters := Function.update s.clusters kcfg out.1 }
        match out.2 with
        | some err => (s, .error ⟨.internal, "failed to create topology: " ++ err⟩)
        | none =>
          (register s topo kcfg,
            match e.shown with
            | some err => .error ⟨.internal, "failed to validate topology state: " ++ err⟩
            | none => .ok ())

/-- How the handlers of a topology that exists begin: they make its manager, from the stored
topology and the default kubecfg. They differ in the text for a manager that cannot be made. -/
def openTopology (newErr : Topology → String) (c : Host) (s : St) (name : String) (e : OpenEnv) :
    Except Status (Topology × String) :=
  match s.topos name with
  | none => .error ⟨.notFound, "topology " ++ name.quote ++ " not found"⟩
  | some topo =>
    match e.unmarshal with
    | some err => .error ⟨.internal, "invalid topology protobuf: " ++ err⟩
    | none =>
      match validatePath c e.stat c.defaultKubeCfg with
      | .error err => .error ⟨.internal,
          "default kubecfg " ++ c.defaultKubeCfg.quote ++ " does not exist: " ++ err⟩
      | .ok kcfg =>
        match e.new with
        | some err => .error ⟨.internal, newErr topo ++ ": " ++ err⟩
        | none => .ok (topo, kcfg)

def St.use (s : St) (name kcfg : String) : St :=
  { s with uses := s.uses ++ [⟨name, s.home name, kcfg⟩] }

def deleteTopology (c : Host) (s : St) (name : String) (e : OpenEnv) (r : DeleteRun) :
    St × Except Status Unit :=
  match openTopology (fun _ => "failed to create topology manager") c s name e with
  | .error status => (s, .error status)
  | .ok (topo, kcfg) =>
    let out := delete (s.clusters kcfg) topo.name r
    let s := { s.use name kcfg with clusters := Function.update s.clusters kcfg out.1 }
    match out.2 with
    | some err => (s, .error ⟨.internal, "failed to delete topology: " ++ err⟩)
    | none =>
      ({ s with
        topos := Function.update s.topos name none
        home := Function.update s.home name none }, .ok ())

/-- A request that leaves the maps and the namespaces as they are: the manager is made, and what
it is asked for succeeds or fails. -/
def consult (newErr : Topology → String) (failed : String) (c : Host) (s : St) (name : String)
    (e : OpenEnv) (err : Option String) : St × Except Status Unit :=
  match openTopology newErr c s name e with
  | .error status => (s, .error status)
  | .ok (_, kcfg) =>
    (s.use name kcfg,
      match err with
      | some err => .error ⟨.internal, failed ++ ": " ++ err⟩
      | none => .ok ())

def showTopology (c : Host) (s : St) (name : String) (e : OpenEnv) (err : Option String) :
    St × Except Status Unit :=
  consult (fun _ => "failed to create topology manager") "failed to show topology" c s name e err

def pushConfig (c : Host) (s : St) (name device : String) (e : OpenEnv) (err : Option String) :
    St × Except Status Unit :=
  consult (fun topo => "failed to create topology manager for " ++ topo.name)
    ("failed to push config to device " ++ device.quote) c s name e err

def resetConfig (c : Host) (s : St) (name device : String) (e : OpenEnv) (err : Option String) :
    St × Except Status Unit :=
  consult (fun topo => "failed to create topology manager for " ++ topo.name)
    ("failed to reset config for device " ++ device.quote) c s name e err

/-- The deployment is what the request parses into, or the error of parsing. -/
def createCluster (s : St) (d : Except String Cluster) (deploy : Option String) :
    St × Except Status Unit :=
  match d with
  | .error err => (s, .error ⟨.invalidArgument, "unable to parse request: " ++ err⟩)
  | .ok d =>
    if (s.deployments d.getName).isSome then
      (s, .error ⟨.alreadyExists, "cluster " ++ d.getName.quote ++ " already exists"⟩)
    else
      match deploy with
      | some err => (s, .error ⟨.internal, "failed to deploy cluster: " ++ err⟩)
      | none => ({ s with deployments := Function.update s.deployments d.getName (some d) }, .ok ())

/-- The path of the cluster that the server deploys. -/
def Host.home (c : Host) : String := (c.abs c.defaultKubeCfg).getD c.defaultKubeCfg

/-- The deletion takes the cluster down: it is no-op for an external cluster, and it may have done
its work when it fails. -/
def takesDown (d : Cluster) (err : Option String) (wiped : Bool) : Bool :=
  d ≠ .external && (err.isNone || wiped)

def wipe (c : Host) (s : St) : St :=
  { s with clusters := Function.update s.clusters c.home fun _ => none }

def deleteCluster (c : Host) (s : St) (name : String) (err : Option String) (wiped : Bool) :
    St × Except Status Unit :=
  match s.deployments name with
  | none => (s, .error ⟨.notFound, "cluster " ++ name.quote ++
      " not found, can only delete clusters created using TopologyManager"⟩)
  | some d =>
    let s := if takesDown d err wiped then wipe c s else s
    match d, err with
    | .external, _ | _, none =>
      ({ s with deployments := Function.update s.deployments name none }, .ok ())
    | _, some err => (s, .error ⟨.internal, "failed to delete cluster: " ++
        "failed to delete cluster: " ++ err⟩)

/-! ### Runs -/

inductive Act
  | createCluster (d : Except String Cluster) (deploy : Option String)
  | deleteCluster (name : String) (err : Option String) (wiped : Bool)
  | createTopology (topology : Option Topology) (kubecfg : String) (e : CreateEnv)
  | deleteTopology (name : String) (e : OpenEnv) (r : DeleteRun)
  | showTopology (name : String) (e : OpenEnv) (err : Option String)
  | pushConfig (name device : String) (e : OpenEnv) (err : Option String)
  | resetConfig (name device : String) (e : OpenEnv) (err : Option String)
  /-- A terminating namespace is gone. -/
  | reap (kcfg name : String)

def step (c : Host) (s : St) : Act → Option St
  | .createCluster d deploy => some (createCluster s d deploy).1
  | .deleteCluster name err wiped => some (deleteCluster c s name err wiped).1
  | .createTopology topology kubecfg e => some (createTopology c s topology kubecfg e).1
  | .deleteTopology name e r => some (deleteTopology c s name e r).1
  | .showTopology name e err => some (showTopology c s name e err).1
  | .pushConfig name device e err => some (pushConfig c s name device e err).1
  | .resetConfig name device e err => some (resetConfig c s name device e err).1
  | .reap kcfg name =>
    if ((s.clusters kcfg name).any Namespace.terminating) then
      some { s with
        clusters := Function.update s.clusters kcfg (Function.update (s.clusters kcfg) name none) }
    else none

end Kne.CtlModel
