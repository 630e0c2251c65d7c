import Mathlib.Tactic
import Mathlib.Data.List.AList

/-!
Loading a topology (`Manager.load` in `topo/topo.go`).

The nodes are objects that `load` changes in place: a node is its place in the list `nodes`, and
`nMap` takes a name to the place of the last node of that name. The loop over the links creates
the interfaces it does not find and writes the peers into them; then the constructors of the
vendors run, and the links from a node to itself are checked.

What the program does not determine is in `World`: the order in which it ranges over a map, the
outcome of the script `set_pid_max`, and the constructors.
-/

namespace Kne.TopoModel

structure Interface where
  intName : String := ""
  mtu : ℕ := 0
  peerName : String := ""
  peerIntName : String := ""
  uid : ℤ := 0
  deriving DecidableEq, Repr

inductive Vendor
  | unknown | host | arista | cisco | juniper | keysight | frr | quagga | gobgp | nokia
  | openconfig | alpine | drivenets | forward | inClusterProxy | sonic | ciena
  deriving DecidableEq, Repr

structure Node where
  name : String := ""
  vendor : Vendor := .unknown
  interfaces : AList (fun _ : String => Interface) := ∅

structure Link where
  aNode : String
  aInt : String
  zNode : String
  zInt : String
  deriving DecidableEq, Repr

structure Topology where
  name : String := ""
  nodes : List Node
  links : List Link

/-- A link of a meshnet resource. -/
structure SpecLink where
  uid : ℤ
  localIntf : String
  peerIntf : String
  peerPod : String
  mtu : ℕ := 0
  deriving DecidableEq, Repr

/-- A meshnet resource: a pod and its links. -/
structure Spec where
  name : String
  links : List SpecLink
  deriving DecidableEq, Repr

/-- What a constructor makes of a node. -/
structure Impl where
  proto : Node
  backToBackLoop : Bool
  topologySpecs : Except String (List Spec)

/-- An order in which the program ranges over the keys of a map. -/
structure Order where
  keys : List String → List String
  perm : ∀ l, (keys l).Perm l

section Order

variable {α : Type} {m : AList (fun _ : String => α)} {k : String}

lemma Order.mem_keys (o : Order) : k ∈ o.keys m.keys ↔ k ∈ m := by
  rw [(o.perm _).mem_iff, AList.mem_keys]

lemma Order.mem_keys_of_lookup (o : Order) {v : α} (h : m.lookup k = some v) :
    k ∈ o.keys m.keys := by
  rw [o.mem_keys, ← AList.lookup_isSome, h]
  rfl

lemma Order.nodup_keys (o : Order) (m : AList (fun _ : String => α)) : (o.keys m.keys).Nodup :=
  (o.perm _).nodup_iff.mpr m.keys_nodup

end Order

/-- The order in which the keys are kept. -/
def keptOrder : Order := ⟨id, fun _ => .refl _⟩

structure World where
  order : Order
  /-- The error and the output of `set_pid_max`, if it fails before the node is made. -/
  pidMax : String → Option (String × String)
  new : String → Node → Except String Impl

inductive LoadErr
  | missingNode (name : String)
  | alreadyConnected (node int : String)
  | pidMax (err out : String)
  | newNode (err : String)
  | backToBack (l : Link)
  deriving DecidableEq, Repr

def LoadErr.text : LoadErr → String
  | .missingNode name => "invalid topology: missing node " ++ name.quote
  | .alreadyConnected node int => "interface " ++ node ++ ":" ++ int ++ " already connected"
  | .pidMax err out =>
    if out = "" then "failed to exec set_pid_max script: " ++ err
    else "failed to exec set_pid_max script: " ++ err ++ ": " ++ out.trimAscii.toString
  | .newNode err => "failed to load topology: " ++ err
  | .backToBack l => "invalid link: back to back loop " ++ l.aNode ++ ":" ++ l.aInt ++ " " ++
    l.zNode ++ ":" ++ l.zInt ++ " not supported"

/-! ### The interfaces of the nodes -/

def ifaceAt (ns : List Node) (i : ℕ) (k : String) : Option Interface :=
  ns[i]?.bind fun n => n.interfaces.lookup k

def setIface (ns : List Node) (i : ℕ) (k : String) (v : Interface) : List Node :=
  ns.modify i fun n => { n with interfaces := n.interfaces.insert k v }

/-- `Interfaces[k]`, made with the name `k` if there is none. -/
def getOrCreate (ns : List Node) (i : ℕ) (k : String) : List Node :=
  match ifaceAt ns i k with
  | some _ => ns
  | none => setIface ns i k { intName := k }

/-- `PeerName != ""`. -/
def connected (ns : List Node) (i : ℕ) (k : String) : Prop :=
  ∃ v, ifaceAt ns i k = some v ∧ v.peerName ≠ ""

instance (ns : List Node) (i : ℕ) (k : String) : Decidable (connected ns i k) :=
  match h : ifaceAt ns i k with
  | none => .isFalse fun ⟨v, hv, _⟩ => by simp [h] at hv
  | some v => decidable_of_iff (v.peerName ≠ "") (by simp [connected, h])

/-- The assignments to one end of a link. -/
def setPeer (ns : List Node) (i : ℕ) (k : String) (peerName peerIntName : String) (uid : ℕ) :
    List Node :=
  match ifaceAt ns i k with
  | some v => setIface ns i k { v with
      peerName := peerName, peerIntName := peerIntName, uid := uid }
  | none => ns

/-! ### The loops of `load` -/

/-- `IntName` defaults to the key. -/
def fillIntName (k : String) (v : Interface) : Interface :=
  if v.intName = "" then { v with intName := k } else v

def fillIntNames (n : Node) : Node :=
  { n with
    interfaces := ⟨n.interfaces.entries.map (Sigma.map id fillIntName),
      List.NodupKeys.map₂ fillIntName _ n.interfaces.nodupKeys⟩ }

/-- The last place of each name. -/
def nMap (names : List String) : AList (fun _ : String => ℕ) :=
  names.zipIdx.foldl (fun m p => m.insert p.1 p.2) ∅

def findNode (m : AList (fun _ : String => ℕ)) (name : String) : Except LoadErr ℕ :=
  match m.lookup name with
  | some i => .ok i
  | none => .error (.missingNode name)

/-- One turn of the loop over the links. -/
def addLink (m : AList (fun _ : String => ℕ)) (ns : List Node) (uid : ℕ) (l : Link) :
    Except LoadErr (List Node) := do
  let a ← findNode m l.aNode
  let ns := getOrCreate ns a l.aInt
  let z ← findNode m l.zNode
  let ns := getOrCreate ns z l.zInt
  if connected ns a l.aInt then throw (.alreadyConnected l.aNode l.aInt)
  if connected ns z l.zInt then throw (.alreadyConnected l.zNode l.zInt)
  let ns := setPeer ns a l.aInt l.zNode l.zInt uid
  return setPeer ns z l.zInt l.aNode l.aInt uid

def addLinks (m : AList (fun _ : String => ℕ)) :
    List Node → ℕ → List Link → Except LoadErr (List Node)
  | ns, _, [] => .ok ns
  | ns, uid, l :: ls => do
    let ns ← addLink m ns uid l
    addLinks m ns (uid + 1) ls

/-- The nodes at the end of the loop over the links. -/
def wire (t : Topology) : Except LoadErr (List Node) :=
  addLinks (nMap (t.nodes.map Node.name)) (t.nodes.map fillIntNames) 0 t.links

/-- One turn of the loop over `nMap`. -/
def addNode (w : World) (topo : String) (m : AList (fun _ : String => ℕ)) (ns : List Node)
    (nodes : AList (fun _ : String => Impl)) (k : String) :
    Except LoadErr (AList (fun _ : String => Impl)) :=
  match w.pidMax k with
  | some (err, out) => .error (.pidMax err out)
  | none =>
    match (m.lookup k).bind (ns[·]?) with
    | none => .ok nodes
    | some n =>
      match w.new topo n with
      | .error err => .error (.newNode err)
      | .ok impl => .ok (nodes.insert k impl)

def loops (nodes : AList (fun _ : String => Impl)) (name : String) : Bool :=
  (nodes.lookup name).any Impl.backToBackLoop

/-- One turn of the last loop. -/
def checkLoop (nodes : AList (fun _ : String => Impl)) (l : Link) : Except LoadErr Unit :=
  if (loops nodes l.aNode && loops nodes l.zNode) = false ∧ l.aNode = l.zNode then
    .error (.backToBack l)
  else .ok ()

def load (w : World) (t : Topology) : Except LoadErr (AList (fun _ : String => Impl)) := do
  let ns ← wire t
  let m := nMap (t.nodes.map Node.name)
  let nodes ← (w.order.keys m.keys).foldlM (addNode w t.name m ns) ∅
  t.links.forM (checkLoop nodes)
  return nodes

end Kne.TopoModel
