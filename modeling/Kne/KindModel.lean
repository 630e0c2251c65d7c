import Kne.Commands
import Kne.Paths
import Kne.Patterns
import Kne.Texts

/-!
The clusters of `kind`: what `KindSpec` runs to create, check, fill and delete one
(`deploy/deploy.go`), and how `cluster/kind/kind.go` finds the nodes of the one in use.

A command is given by what it does, with the flags of `kind` one by one. What the commands answer,
and what else is looked up on the host, are the parameters of a `Host`.
-/

namespace Kne.KindModel

open Kne.Commands Kne.Patterns Kne.Patterns.Regex Kne.Texts

/-! ### Texts -/

/-- `unicode.IsSpace`. -/
def isSpace (c : Char) : Bool :=
  c ∈ ['\t', '\n', '\x0b', '\x0c', '\r', ' ', '\u0085', '\u00a0', '\u1680', '\u2028', '\u2029',
    '\u202f', '\u205f', '\u3000'] || ('\u2000' ≤ c && c ≤ '\u200a')

/-- `strings.TrimSpace`. -/
def trimSpace (s : String) : String :=
  String.ofList ((s.toList.dropWhile isSpace).reverse.dropWhile isSpace).reverse

/-- `strings.TrimSuffix` of a newline. -/
def trimNewline (cs : List Char) : List Char :=
  if cs.getLast? = some '\n' then cs.dropLast else cs

/-! ### Commands -/

/-- The flags `--name`, `--image`, `--retain`, `--wait` (in nanoseconds), `--kubeconfig` and
`--config`. -/
inductive Flag
  | name (s : String)
  | image (s : String)
  | retain
  | wait (d : ℤ)
  | kubeconfig (path : String)
  | config (path : String)
  deriving DecidableEq, Repr

inductive Cmd
  | kind (words : List String) (flags : List Flag)
  /-- `kubectl cluster-info --context`. -/
  | clusterInfo (context : String)
  /-- `kubectl config current-context`. -/
  | currentContext
  | docker (args : List String)
  /-- `docker exec node ctr -n k8s.io images tag --force src dst`. -/
  | tagOnNode (node src dst : String)
  /-- `sudo ctr -n k8s.io images`. -/
  | ctrImages (args : List String)
  deriving DecidableEq, Repr

/-- What a command has printed, and its error. -/
structure Reply where
  out : String := ""
  err : Option String := none
  deriving DecidableEq, Repr

structure Host where
  reply : List Cmd → Cmd → Reply
  /-- The error of `os.MkdirAll` for `/tmp/kne`. -/
  mkdirAll : Option String := none
  /-- `ctr` is found by `exec.LookPath`. -/
  hasCtr : Bool := false
  normalizeImageRef : String → Except String String := fun ref => .ok ref
  mkdirTemp : Except String String := .ok "/tmp/kind-load-0"

/-- A program that runs commands, or fails with the text of an error. -/
abbrev Program := EStateM String (List Cmd)

namespace Host

variable (h : Host)

/-- `run.OutCommand` and its likes. -/
def run (c : Cmd) : Program Reply := exec h.reply c

/-- A command whose error is wrapped. -/
def runOr (wrap : String → String) (c : Cmd) : Program Unit := do
  let r ← h.run c
  match r.err with
  | none => pure ()
  | some err => throw (wrap err)

end Host

/-! ### Clusters -/

structure KindSpec where
  name : String := ""
  recycle : Bool := false
  image : String := ""
  retain : Bool := false
  wait : ℤ := 0
  kubecfg : String := ""
  /-- The map of the images, in the order of the iteration. -/
  containerImages : List (String × String) := []
  kindConfigFile : String := ""
  deriving DecidableEq, Repr

def defaultKindNodeImage : String := "kindest/node:v1.36.1"

/-- The flag `--name`, left out for the empty name. -/
def nameFlag (name : String) : List Flag := if name ≠ "" then [.name name] else []

namespace KindSpec

variable (k : KindSpec) (h : Host)

def createFlags : List Flag :=
  nameFlag k.name ++
  [.image (if k.image = "" then defaultKindNodeImage else k.image)] ++
  (if k.retain then [.retain] else []) ++
  (if k.wait ≠ 0 then [.wait k.wait] else []) ++
  (if k.kubecfg ≠ "" then [.kubeconfig k.kubecfg] else []) ++
  (if k.kindConfigFile ≠ "" then [.config k.kindConfigFile] else [])

/-- The lines of the output that belong to the error. -/
def errorLines (out : String) : List String :=
  (lines out).filter fun line => hasPrefix line "ERROR" || hasPrefix line "Command Output"

/-- The part of `create` that runs when nothing is recycled. -/
def createCluster : Program Unit := do
  let r ← h.run (.kind ["create", "cluster"] k.createFlags)
  match r.err with
  | none => pure ()
  | some err => throw (err ++ ": " ++ ", ".intercalate (errorLines r.out))

def create : Program Unit :=
  match h.mkdirAll with
  | some err => throw err
  | none =>
    if k.recycle then do
      let r ← h.run (.clusterInfo ("kind-" ++ k.name))
      match r.err with
      | none => pure ()
      | some _ => k.createCluster h
    else k.createCluster h

def delete : Program Unit :=
  h.runOr ("failed to delete cluster: " ++ ·) (.kind ["delete", "cluster"] (nameFlag k.name))

def getName : String := if k.name ≠ "" then k.name else "kne"

def healthy : Program Unit :=
  h.runOr ("cluster not healthy: " ++ ·) (.clusterInfo ("kind-" ++ k.getName))

end KindSpec

/-! ### Nodes -/

/-- A line that is no informational output. -/
def isNode (line : String) : Bool :=
  line ≠ "" && !line.toList.any fun c => c = ' ' || c = '\t'

/-- The nodes that `retagInKindNodes` reads from the output of `kind get nodes`. -/
def retagNodes (out : String) : List String := ((lines out).map trimSpace).filter isNode

def retagInKindNodes (h : Host) (src dst clusterName : String) : Program Unit := do
  let r ← h.run (.kind ["get", "nodes"] (nameFlag clusterName))
  match r.err with
  | some err => throw ("failed to list kind nodes: " ++ err ++ ": " ++ trimSpace r.out)
  | none =>
    match retagNodes r.out with
    | [] => throw ("no nodes found for kind cluster " ++ clusterName.quote)
    | nodes =>
      nodes.forM fun n =>
        h.runOr (("failed to tag image on node " ++ n.quote ++ ": ") ++ ·) (.tagOnNode n src dst)

/-- `kind-(.*)`, where the dot is no newline. -/
def clusterKindNameRE : Grouped where
  pre := lit "kind-"
  group := star (char (· != '\n'))
  post := empty

def clusterName (h : Host) : Program String := do
  let r ← h.run .currentContext
  match r.err with
  | some err => throw ("unable to determine cluster information: " ++ err)
  | none => pure r.out

def clusterKindName (h : Host) : Program String := do
  match ← attempt (clusterName h) with
  | .error err => throw ("unable to determine cluster name: " ++ err)
  | .ok name =>
    match clusterKindNameRE.findStringSubmatch name with
    | none | some [] => throw ("cluster " ++ name ++ " is not a kind cluster")
    | some found => pure (String.ofList found)

/-- The nodes that `clusterKindNodes` reads from the output of `kind get nodes`. -/
def clusterNodes (out : String) : List String :=
  if out = "" then []
  else (out.toList.splitOn ' ').map fun n => String.ofList (trimNewline n)

def clusterKindNodes (h : Host) : Program (List String) := do
  let name ← clusterKindName h
  let r ← h.run (.kind ["get", "nodes"] [.name name])
  match r.err with
  | some err => throw err
  | none => pure (clusterNodes r.out)

/-! ### Images -/

/-- The pulls of an image, of which the last is not repeated. -/
def pull (h : Host) (src : String) : ℕ → Program Unit
  | 0 => h.runOr id (.docker ["pull", src])
  | retries + 1 => do
    let r ← h.run (.docker ["pull", src])
    match r.err with
    | none => pure ()
    | some err =>
      if contains r.out "not found" || contains r.out "does not exist" then
        throw ("container not found: " ++ err)
      else pull h src retries

/-- The archive is exported, loaded and tagged; whether this was possible. -/
def loadArchive (h : Host) (src dstRef clusterName tmpDir : String) : Program Bool := do
  let archive := Paths.join tmpDir "image.tar"
  let exported ← h.run (.ctrImages ["export", archive, src])
  if exported.err.isSome then pure false
  else do
    let loaded ← h.run (.kind ["load", "image-archive", archive] (nameFlag clusterName))
    if loaded.err.isSome then pure false
    else if dstRef ≠ src then do
      match ← attempt (retagInKindNodes h src dstRef clusterName) with
      | .error _ => pure false
      | .ok _ => pure true
    else pure true

def tryLoadFromContainerd (h : Host) (src dst clusterName : String) : Program Bool :=
  if !h.hasCtr then pure false
  else
    match h.normalizeImageRef src, h.normalizeImageRef dst with
    | .ok n, .ok dstRef =>
      if n ≠ src then pure false
      else do
        let found ← h.run (.ctrImages ["check", "name==" ++ src])
        if found.err.isSome then pure false
        else
          match h.mkdirTemp with
          | .error _ => pure false
          | .ok tmpDir => loadArchive h src dstRef clusterName tmpDir
    | _, _ => pure false

/-- The second way to load an image, by docker. -/
def loadFromDocker (h : Host) (src dst clusterName : String) : Program Unit := do
  pull h src 3
  if dst ≠ src then
    h.runOr (("failed to tag " ++ src.quote ++ " with " ++ dst.quote ++ ": ") ++ ·)
      (.docker ["tag", src, dst])
  h.runOr (("failed to load " ++ dst.quote ++ ": ") ++ ·)
    (.kind ["load", "docker-image", dst] (nameFlag clusterName))

def loadContainerImageWithFallback (h : Host) (src dst clusterName : String) : Program Unit := do
  if ← tryLoadFromContainerd h src dst clusterName then pure ()
  else loadFromDocker h src dst clusterName

/-- One turn of the loop over the images. -/
def loadContainerImage (k : KindSpec) (h : Host) : String × String → Program Unit
  | (s, d) =>
    if s = "" then throw "source container must not be empty"
    else loadContainerImageWithFallback h s (if d = "" then s else d) k.name

def KindSpec.loadContainerImages (k : KindSpec) (h : Host) : Program Unit :=
  k.containerImages.forM (loadContainerImage k h)

end Kne.KindModel
