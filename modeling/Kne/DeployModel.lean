import Kne.Checked
import Kne.Paths
import Kne.Reflect

/-!
Reading a deployment (`load/deploy.go`, and `newDeployment` in `cmd/deploy/deploy.go`).

A configuration has a section for the cluster, the ingress and the CNI, and a list of controllers.
`Config.decode` walks through it by reflection. Where it meets a struct with a kind and a spec, it
makes a value of the type that is registered for the kind, walks through that value too, and puts it
into the field of the deployment that has the tag registered for the kind. On its way it turns the
names of YAML files into absolute paths and looks at the files.

What the program does not determine is in `Files`, the files that there are, and in `Yaml`, the
decoder of YAML documents.
-/

namespace Kne.DeployModel

open Kne.Reflect Kne.Paths

/-- How a call ends that does not come to its end. -/
inductive Stop
  | error (text : String)
  | panic (text : String)
  deriving DecidableEq, Repr

/-! ### Files -/

structure Files where
  /-- `os.Stat`: its error, or whether the file is a regular one. -/
  stat : String → Except String Bool
  /-- The error of `open`. -/
  openErr : String → Option String
  /-- The error of decoding the file as YAML. -/
  yamlErr : String → Option String

/-- `Config`: where the configuration was read from. -/
structure Config where
  cwd : String
  cwd_isAbs : isAbs cwd = true
  path : String
  ignoreMissingFiles : Bool := false

/-- The directory that `NewConfig` sets. -/
def Config.dir (c : Config) : String := Paths.dir (abs c.cwd c.path)

/-- The path that is meant by a name. -/
def Config.resolve (c : Config) (path : String) : String :=
  if isAbs path then path else join c.dir path

/-- `checkYAMLFile`, and the path it puts in the place of the name. -/
def checkYAMLFile (files : Files) (c : Config) (settable : Bool) (name : String) :
    Except Stop String :=
  let path := c.resolve name
  if settable = false then
    .error (.panic "reflect: reflect.Value.SetString using unaddressable value")
  else
    match files.stat path with
    | .error err => if c.ignoreMissingFiles then .ok path else .error (.error err)
    | .ok false => .error (.error (path ++ ": not a regular file"))
    | .ok true =>
      match files.openErr path, files.yamlErr path with
      | some err, _ => .error (.error err)
      | none, some err => .error (.error (path ++ ": " ++ err))
      | none, none => .ok path

/-! ### The types of specs -/

/-- The types of the fields of specs. -/
inductive Ty
  | string
  | scalar
  | slice (t : Ty)
  | map (t : Ty)
  deriving DecidableEq, Repr

/-- A value of the type. -/
def HasType {ν : Type} : Ty → Value ν → Prop
  | .string, v => ∃ s, v = .string s
  | .scalar, v => ∃ s, v = .scalar s
  | .slice t, v => ∃ vs, v = .slice vs ∧ ∀ x ∈ vs, HasType t x
  | .map t, v => ∃ vs, v = .map vs ∧ ∀ kx ∈ vs, HasType t kx.2

/-- The methods of the interfaces of a deployment. `Healthy` of a cluster has no context. -/
inductive Method
  | deploy | delete | healthy | healthyCtx | getName | getDockerNetworkResourceName | apply
  | setKClient | setRCfg | setDockerNetworkResourceName
  deriving DecidableEq, Repr

structure SpecType where
  name : String
  fields : List (StructField × Ty)
  methods : List Method
  deriving DecidableEq, Repr

/-- A field with a `yaml` tag. -/
def field (name yaml : String) (t : Ty) : StructField × Ty := (⟨name, [("yaml", yaml)]⟩, t)

/-- A field for the names of YAML files. -/
def yamlField (name yaml : String) (t : Ty) : StructField × Ty :=
  (⟨name, [("yaml", yaml), ("kne", "yaml")]⟩, t)

/-- A field without a tag. -/
def bare (name : String) (t : Ty) : StructField × Ty := (⟨name, []⟩, t)

def clusterMethods : List Method :=
  [.deploy, .delete, .healthy, .getName, .getDockerNetworkResourceName, .apply]

def controllerMethods : List Method := [.deploy, .setKClient, .healthyCtx]

def ingressMethods : List Method := controllerMethods ++ [.setRCfg, .setDockerNetworkResourceName]

def externalSpec : SpecType := ⟨"ExternalSpec", [field "Network" "network" .string], clusterMethods⟩

def kubeadmSpec : SpecType where
  name := "KubeadmSpec"
  fields := [field "CRISocket" "criSocket" .string,
    field "PodNetworkCIDR" "podNetworkCIDR" .string,
    yamlField "PodNetworkAddOnManifest" "podNetworkAddOnManifest" .string,
    bare "PodNetworkAddOnManifestData" (.slice .scalar),
    yamlField "CredentialProviderConfig" "credentialProviderConfig" .string,
    field "TokenTTL" "tokenTTL" .string,
    field "Network" "network" .string,
    field "AllowControlPlaneScheduling" "allowControlPlaneScheduling" .scalar,
    field "ImageRepository" "imageRepository" .string,
    field "ServiceNodePortRange" "serviceNodePortRange" .string,
    field "KubernetesVersion" "kubernetesVersion" .string]
  methods := clusterMethods

def kindSpec : SpecType where
  name := "KindSpec"
  fields := [field "Name" "name" .string,
    field "Recycle" "recycle" .scalar,
    field "Version" "version" .string,
    field "Image" "image" .string,
    field "Retain" "retain" .scalar,
    field "Wait" "wait" .scalar,
    yamlField "Kubecfg" "kubecfg" .string,
    field "GoogleArtifactRegistries" "googleArtifactRegistries" (.slice .string),
    field "ContainerImages" "containerImages" (.map .string),
    yamlField "KindConfigFile" "config" .string,
    yamlField "AdditionalManifests" "additionalManifests" (.slice .string)]
  methods := clusterMethods

def metalLBSpec : SpecType where
  name := "MetalLBSpec"
  fields := [field "IPCount" "ip_count" .scalar,
    field "ManifestDir" "manifests" .string,
    yamlField "Manifest" "manifest" .string,
    bare "ManifestData" (.slice .scalar),
    bare "dockerNetworkResourceName" .string,
    bare "kClient" .scalar,
    bare "mClient" .scalar,
    bare "rCfg" .scalar,
    bare "dClient" .scalar]
  methods := ingressMethods

def meshnetSpec : SpecType where
  name := "MeshnetSpec"
  fields := [field "ManifestDir" "manifests" .string,
    yamlField "Manifest" "manifest" .string,
    bare "ManifestData" (.slice .scalar),
    bare "kClient" .scalar]
  methods := controllerMethods

/-- The specs of the controllers that have an operator and no more. -/
def operatorSpec (name : String) : SpecType where
  name := name
  fields := [field "ManifestDir" "manifests" .string,
    yamlField "Operator" "operator" .string,
    bare "OperatorData" (.slice .scalar),
    bare "kClient" .scalar]
  methods := controllerMethods

def ceosLabSpec : SpecType := operatorSpec "CEOSLabSpec"

def lemmingSpec : SpecType := operatorSpec "LemmingSpec"

def srLinuxSpec : SpecType := operatorSpec "SRLinuxSpec"

def ixiaTGSpec : SpecType where
  name := "IxiaTGSpec"
  fields := [field "ManifestDir" "manifests" .string,
    yamlField "Operator" "operator" .string,
    bare "OperatorData" (.slice .scalar),
    yamlField "ConfigMap" "configMap" .string,
    bare "ConfigMapData" (.slice .scalar),
    bare "kClient" .scalar]
  methods := controllerMethods

def cdnosSpec : SpecType where
  name := "CdnosSpec"
  fields := [yamlField "Operator" "operator" .string,
    bare "OperatorData" (.slice .scalar),
    bare "kClient" .scalar]
  methods := controllerMethods

/-- What is registered for a kind. No spec has a `Validate`. -/
structure Spec where
  type : SpecType
  tag : String
  deriving DecidableEq, Repr

/-- The kinds that are registered. -/
def specs : List (String × Spec) :=
  [("External", ⟨externalSpec, "cluster"⟩), ("Kubeadm", ⟨kubeadmSpec, "cluster"⟩),
    ("Kind", ⟨kindSpec, "cluster"⟩), ("MetalLB", ⟨metalLBSpec, "ingress"⟩),
    ("Meshnet", ⟨meshnetSpec, "cni"⟩), ("CEOSLab", ⟨ceosLabSpec, "controllers"⟩),
    ("Lemming", ⟨lemmingSpec, "controllers"⟩), ("SRLinux", ⟨srLinuxSpec, "controllers"⟩),
    ("IxiaTG", ⟨ixiaTGSpec, "controllers"⟩), ("Cdnos", ⟨cdnosSpec, "controllers"⟩)]

def findSpec (kind : String) : Except Stop Spec :=
  match specs.lookup kind with
  | some st => .ok st
  | none => .error (.error ("kind " ++ kind ++ " not supported"))

/-! ### The deployment -/

/-- The fields of a deployment that have a tag. -/
inductive Slot
  | cluster | ingress | cni | controllers
  deriving DecidableEq, Repr

def Slot.tag : Slot → String
  | .cluster => "cluster"
  | .ingress => "ingress"
  | .cni => "cni"
  | .controllers => "controllers"

/-- The interface that is the type of the field, or of its elements. -/
def Slot.methods : Slot → List Method
  | .cluster => clusterMethods
  | .ingress => ingressMethods
  | .cni | .controllers => controllerMethods

def Slot.typeName : Slot → String
  | .cluster => "deploy.Cluster"
  | .ingress => "deploy.Ingress"
  | .cni => "deploy.CNI"
  | .controllers => "deploy.Controller"

/-- `findField`. -/
def findField (tag : String) : Except Stop Slot :=
  match [Slot.cluster, .ingress, .cni, .controllers].find? fun s => s.tag = tag with
  | some s => .ok s
  | none => .error (.error ("field " ++ tag ++ " not found"))

/-- `AssignableTo`. -/
def assignable (t : SpecType) (s : Slot) : Bool := s.methods.all fun m => m ∈ t.methods

/-- `deploy.Deployment`, as far as it is read from the configuration. -/
structure Deployment (ν : Type) where
  cluster : Option (Value ν) := none
  ingress : Option (Value ν) := none
  cni : Option (Value ν) := none
  controllers : List (Value ν) := []

/-- Set a field, or append to it. -/
def Deployment.set {ν : Type} (d : Deployment ν) (s : Slot) (val : Value ν) : Deployment ν :=
  match s with
  | .cluster => { d with cluster := some val }
  | .ingress => { d with ingress := some val }
  | .cni => { d with cni := some val }
  | .controllers => { d with controllers := d.controllers ++ [val] }

/-! ### The walk -/

/-- The decoder of YAML: what the fields of a spec get from a document. -/
structure Yaml (ν : Type) where
  decode : ν → SpecType → Except String (List (Value ν))
  typed : ∀ n t vs, decode n t = .ok vs → List.Forall₂ (fun f v => HasType f.2 v) t.fields vs

variable {ν : Type}

/-- A value of the type of a spec. -/
def structOf (t : SpecType) (vs : List (Value ν)) : Value ν :=
  .struct t.name ((t.fields.map Prod.fst).zip vs)

def textOf : Value ν → Option String
  | .string s => some s
  | _ => none

def nodeOf : Value ν → Option ν
  | .node n => some n
  | _ => none

/-- What is done with a kind and a spec. -/
abbrev Handler (ν : Type) := List String → String → ν → Deployment ν → Except Stop (Deployment ν)

/-- The texts of the places that errors name. -/
def joined (path : List String) : String := String.intercalate "." path

/-- The end of the case of a struct. -/
def supplied (handle : Handler ν) (path : List String) (kind : String) (spec : Option ν)
    (d : Deployment ν) : Except Stop (Deployment ν) :=
  match spec with
  | none =>
    if kind = "" then .ok d
    else .error (.error ("kind field without spec: " ++ joined path ++ "\n"))
  | some n =>
    if kind = "" then .error (.error ("spec field without kind: " ++ joined path ++ "\n"))
    else handle path kind n d

section Walk

variable (files : Files) (c : Config) (handle : Handler ν)

/-- The case of a text. -/
def walkText (settable : Bool) (path : List String) (tag : Tag) (s : String) :
    Except Stop String :=
  if s = "" ∨ tag.get "kne" ≠ "yaml" then .ok s
  else
    match checkYAMLFile files c settable s with
    | .error (.error err) => .error (.error (joined path ++ ": " ++ err))
    | result => result

mutual

/-- The recursion of `decode`. The flag says whether the value can be set. -/
def walk (settable : Bool) (path : List String) (tag : Tag) (d : Deployment ν) :
    Value ν → Except Stop (Value ν × Deployment ν)
  | .string s => (walkText files c settable path tag s).map fun s => (.string s, d)
  | .scalar s => .ok (.scalar s, d)
  | .node n => .ok (.node n, d)
  | .array vs => (walkList settable path 0 tag d vs).map fun r => (.array r.1, r.2)
  | .slice vs => (walkList true path 0 tag d vs).map fun r => (.slice r.1, r.2)
  | .map vs => (walkMap path tag d vs).map fun r => (.map r.1, r.2)
  | .pointer none => .error (.panic "reflect: call of reflect.Value.Type on zero Value")
  | .pointer (some v) => (walk true path tag d v).map fun r => (.pointer (some r.1), r.2)
  | .struct name fields => do
    let r ← walkFields settable path name "" none d fields
    return (.struct name r.1, r.2)

/-- The elements of a sequence, from the place `i` on. -/
def walkList (settable : Bool) (path : List String) (i : ℕ) (tag : Tag) (d : Deployment ν) :
    List (Value ν) → Except Stop (List (Value ν) × Deployment ν)
  | [] => .ok ([], d)
  | v :: vs => do
    let r ← walk settable (path ++ ["[" ++ toString i ++ "]"]) tag d v
    let rest ← walkList settable path (i + 1) tag r.2 vs
    return (r.1 :: rest.1, rest.2)

/-- The entries of a map, which cannot be set. -/
def walkMap (path : List String) (tag : Tag) (d : Deployment ν) :
    List (Option String × Value ν) → Except Stop (List (Option String × Value ν) × Deployment ν)
  | [] => .ok ([], d)
  | (none, v) :: vs => do
    let rest ← walkMap path tag d vs
    return ((none, v) :: rest.1, rest.2)
  | (some k, v) :: vs => do
    let r ← walk false (path ++ ["[" ++ k ++ "]"]) tag d v
    let rest ← walkMap path tag r.2 vs
    return ((some k, r.1) :: rest.1, rest.2)

/-- The fields of a struct of type `name`, with the kind and the spec found so far. -/
def walkFields (settable : Bool) (path : List String) (name kind : String) (spec : Option ν)
    (d : Deployment ν) :
    List (StructField × Value ν) → Except Stop (List (StructField × Value ν) × Deployment ν)
  | [] => (supplied handle path kind spec d).map fun d => ([], d)
  | (fd, v) :: fields =>
    if fd.tag.get "yaml" = "kind" then
      if kind ≠ "" then .error (.error ("multiple kinds in " ++ name))
      else
        match textOf v with
        | none => .error (.error "kind must be a string")
        | some kind => do
          let r ← walk settable (path ++ [fd.name]) fd.tag d v
          let rest ← walkFields settable path name kind spec r.2 fields
          return ((fd, r.1) :: rest.1, rest.2)
    else if fd.tag.get "yaml" = "spec" then
      match nodeOf v with
      | none => .error (.error (joined (path ++ [fd.name]) ++ " is not of type yaml.Node\n"))
      | some n => do
        let rest ← walkFields settable path name kind (some n) d fields
        return ((fd, v) :: rest.1, rest.2)
    else if fd.tag.get "yaml" = "" then do
      let rest ← walkFields settable path name kind spec d fields
      return ((fd, v) :: rest.1, rest.2)
    else do
      let r ← walk settable (path ++ [fd.name]) fd.tag d v
      let rest ← walkFields settable path name kind spec r.2 fields
      return ((fd, r.1) :: rest.1, rest.2)

end

end Walk

section Decode

variable (files : Files) (c : Config) (y : Yaml ν)

/-- Make what is registered for a kind from its spec, and put it into its field. The call of
`decode` for the new value is given. -/
def supply
    (decode : List String → Deployment ν → Value ν → Except Stop (Value ν × Deployment ν)) :
    Handler ν := fun path kind spec d => do
  let st ← findSpec kind
  let vs ← (y.decode spec st.type).mapError Stop.error
  let r ← decode (path ++ [kind]) d (structOf st.type vs)
  let slot ← findField st.tag
  if assignable st.type slot then .ok (r.2.set slot r.1)
  else .error (.error ("*deploy." ++ st.type.name ++ " is not assignable to " ++ slot.typeName))

/-- `Config.decode`, with at most `n` specs inside of one another. -/
def decode : ℕ → Bool → List String → Tag → Deployment ν → Value ν →
    Except Stop (Value ν × Deployment ν)
  | 0 => walk files c fun _ _ _ _ => .error (.panic "stack overflow")
  | n + 1 => walk files c (supply y fun path => decode n true path [])

end Decode

/-! ### Configurations -/

/-- `ClusterSpec`, `IngressSpec`, `CNISpec` and `ControllerSpec`, which have the same fields. -/
structure Section (ν : Type) where
  kind : String
  spec : ν

structure DeploymentConfig (ν : Type) where
  cluster : Section ν
  ingress : Section ν
  cni : Section ν
  /-- The elements are pointers. -/
  controllers : List (Option (Section ν))

def Section.toValue (name : String) (s : Section ν) : Value ν :=
  .struct name [(⟨"Kind", [("yaml", "kind")]⟩, .string s.kind),
    (⟨"Spec", [("yaml", "spec")]⟩, .node s.spec)]

def controllerValue (s : Option (Section ν)) : Value ν :=
  .pointer (s.map (Section.toValue "deploy.ControllerSpec"))

def DeploymentConfig.toValue (cfg : DeploymentConfig ν) : Value ν :=
  .pointer (some (.struct "deploy.DeploymentConfig"
    [(⟨"Cluster", [("yaml", "cluster")]⟩, cfg.cluster.toValue "deploy.ClusterSpec"),
      (⟨"Ingress", [("yaml", "ingress")]⟩, cfg.ingress.toValue "deploy.IngressSpec"),
      (⟨"CNI", [("yaml", "cni")]⟩, cfg.cni.toValue "deploy.CNISpec"),
      (⟨"Controllers", [("yaml", "controllers")]⟩,
        .slice (cfg.controllers.map controllerValue))]))

/-- `Config.Decode` of a configuration, with at most `n` specs inside of one another. -/
def Decode (files : Files) (c : Config) (y : Yaml ν) (n : ℕ) (cfg : DeploymentConfig ν) :
    Except Stop (Deployment ν) :=
  (decode files c y n false ["root"] [] {} cfg.toValue).map Prod.snd

/-- `newDeployment`, after the configuration has been read. -/
def newDeployment (files : Files) (c : Config) (y : Yaml ν) (n : ℕ) (cfg : DeploymentConfig ν) :
    Except Stop (Deployment ν) := do
  let d ← Decode files c y n cfg
  if d.cluster.isNone then .error (.error "Cluster not specified")
  else if d.ingress.isNone then .error (.error "Ingress not specified")
  else if d.cni.isNone then .error (.error "CNI not specified")
  else .ok d

end Kne.DeployModel
