import Mathlib.Data.List.AList
import Mathlib.Tactic

/-!
The grpc-wires of one meshnet daemon (`third_party/meshnet/daemon/grpcwire/`: `grpcwire.go`,
`gwire_map.go`, `gwire_rpc_handlers.go`): the wire map under the network namespace of the pod and
the number of the link, the handles of the TAP devices under the ids that `NextIndex` gives out, and
the functions that create, update, look up and remove the local end of a wire.

A wire is a pointer in the source: threads keep it after it has left the map. The daemon therefore
has a table of all wires that were made, under their ids, and the map holds ids. A handle is the TAP
device that it was opened for.
-/

namespace Kne.WireModel

structure LinkKey where
  ns : String
  linkUID : ℤ
  deriving DecidableEq, Repr

/-- `WireDef`, without the name of the interface on the node, which is not read. -/
structure WireDef where
  linkUid : ℤ
  topoNs : String
  localPodName : String
  localPodNetNs : String
  intfNameInPod : String
  localPodIp : String := ""
  wireIfIdOnPeerNode : ℕ := 0
  peerNodeIp : String
  deriving DecidableEq, Repr

inductive Originator
  | host | peer
  deriving DecidableEq, Repr

structure GRPCWire where
  uid : ℤ
  topoNamespace : String
  localNodeIfaceID : ℕ
  localPodIP : String
  localPodName : String
  localPodIfaceName : String
  localPodNetNS : String
  originator : Originator
  originatorIP : String
  isReady : Bool
  wireIfaceIDOnPeerNode : ℕ
  peerNodeIP : String
  /-- `StopC` is closed. -/
  stopped : Bool := false
  deriving DecidableEq, Repr

/-- A TAP device: a network namespace and the name of the interface in it. -/
structure Tap where
  netNS : String
  ifName : String
  deriving DecidableEq, Repr

def GRPCWire.key (w : GRPCWire) : LinkKey := ⟨w.localPodNetNS, w.uid⟩

def GRPCWire.tap (w : GRPCWire) : Tap := ⟨w.localPodNetNS, w.localPodIfaceName⟩

def WireDef.key (d : WireDef) : LinkKey := ⟨d.localPodNetNs, d.linkUid⟩

def createGWire (locIfIndex : ℕ) (d : WireDef) : GRPCWire where
  uid := d.linkUid
  topoNamespace := d.topoNs
  localNodeIfaceID := locIfIndex
  localPodIP := d.localPodIp
  localPodName := d.localPodName
  localPodIfaceName := d.intfNameInPod
  localPodNetNS := d.localPodNetNs
  originator := .peer
  originatorIP := d.peerNodeIp
  isReady := true
  wireIfaceIDOnPeerNode := d.wireIfIdOnPeerNode
  peerNodeIP := d.peerNodeIp

/-- The wire that `CreateGRPCWireLocal` makes: it is not ready before the peer has answered. -/
def createGWireLocal (locIfIndex : ℕ) (d : WireDef) : GRPCWire :=
  { createGWire locIfIndex d with isReady := false, originator := .host, originatorIP := "unknown" }

structure Daemon where
  currId : ℕ := 0
  /-- Every wire that was made, under its id. -/
  objs : ℕ → Option GRPCWire := fun _ => none
  wires : AList (fun _ : LinkKey => ℕ) := ∅
  handles : ℕ → Option Tap := fun _ => none

namespace Daemon

def getWireByUID (d : Daemon) (k : LinkKey) : Option ℕ := d.wires.lookup k

def getHostIntfHndl (d : Daemon) (intfID : ℕ) : Option Tap := d.handles intfID

/-- A wire is changed under its lock. -/
def modify (d : Daemon) (id : ℕ) (f : GRPCWire → GRPCWire) : Daemon :=
  { d with objs := Function.update d.objs id ((d.objs id).map f) }

/-- `CloseStopC`, and the wire is no longer ready. -/
def stop (d : Daemon) (id : ℕ) : Daemon :=
  d.modify id fun w => { w with isReady := false, stopped := true }

def closeAndRemoveHandle (d : Daemon) (id : ℕ) : Daemon :=
  { d with handles := Function.update d.handles id none }

/-- A wire of the same link and pod in another network namespace: the pod was created again. -/
def supersedes (w old : GRPCWire) : Bool :=
  old.topoNamespace = w.topoNamespace ∧ old.localPodName = w.localPodName ∧ old.uid = w.uid ∧
    old.localPodNetNS ≠ w.localPodNetNS

/-- A wire gives way to a new one. -/
def retire (d : Daemon) (id : ℕ) : Daemon := (d.stop id).closeAndRemoveHandle id

/-- The wire with the key of the new one. -/
def retireSame (d : Daemon) (w : GRPCWire) : Daemon :=
  match d.wires.lookup w.key with
  | some id => d.retire id
  | none => d

/-- One turn of the loop of `cleanupOldWireLocked`. -/
def cleanupEntry (w : GRPCWire) (d : Daemon) (e : Sigma fun _ : LinkKey => ℕ) : Daemon :=
  if (d.objs e.2).any (supersedes w) then { d.retire e.2 with wires := d.wires.erase e.1 } else d

def cleanupOldWireLocked (d : Daemon) (w : GRPCWire) : Daemon :=
  (d.retireSame w).wires.entries.foldl (cleanupEntry w) (d.retireSame w)

/-- `AddInMem` for a wire that was just made. -/
def addInMem (d : Daemon) (w : GRPCWire) : Daemon :=
  let d' := d.cleanupOldWireLocked w
  { d' with
    objs := Function.update d'.objs w.localNodeIfaceID (some w)
    wires := d'.wires.insert w.key w.localNodeIfaceID
    handles := Function.update d'.handles w.localNodeIfaceID (some w.tap) }

/-- `NextIndex`. -/
def nextIndex (d : Daemon) : Daemon := { d with currId := d.currId + 1 }

/-- A wire is made with the next id and added. -/
def make (d : Daemon) (f : ℕ → GRPCWire) : Daemon := d.nextIndex.addInMem (f (d.currId + 1))

/-- `CreateGRPCWireLocal`; `tapOk` says whether the TAP device could be created or attached. -/
def createGRPCWireLocal (d : Daemon) (wireDef : WireDef) (tapOk : Bool) : Daemon × Bool :=
  match d.getWireByUID wireDef.key with
  | some id => (d.modify id fun w => { w with originator := .host }, true)
  | none =>
    if tapOk then (d.make fun id => createGWireLocal id wireDef, true) else (d, false)

/-- `CreateUpdateGRPCWireRemoteTriggered` up to the update of a wire that exists: the id of the
wire, if there is one, and whether it was made now. -/
def createOrFind (d : Daemon) (wireDef : WireDef) (tapOk : Bool) : Daemon × Option (ℕ × Bool) :=
  match d.getWireByUID wireDef.key with
  | some id => (d, some (id, false))
  | none =>
    if tapOk then (d.make fun id => createGWire id wireDef, some (d.currId + 1, true))
    else (d, none)

/-- `UpdateWire`, without the streams. -/
def updateWire (d : Daemon) (id : ℕ) (peerIntfId : ℕ) (peerNodeIP : String) : Daemon :=
  d.modify id fun w => { w with
    wireIfaceIDOnPeerNode := peerIntfId
    peerNodeIP := if peerNodeIP ≠ "" then peerNodeIP else w.peerNodeIP
    isReady := true }

/-- `AtomicDelete`: the entry of the key goes, whichever wire it holds. -/
def atomicDelete (d : Daemon) (id : ℕ) : Daemon :=
  match d.objs id with
  | some w => { d.closeAndRemoveHandle id with wires := d.wires.erase w.key }
  | none => d

/-- `reconLocalGRPCWire`, after a restart of the daemon. -/
def reconLocalGRPCWire (d : Daemon) (wireDef : WireDef) : Daemon :=
  d.make fun id => createGWire id wireDef

end Daemon

/-- The condition under which `forwardPackets` sends a frame, and where to. -/
def GRPCWire.route (w : GRPCWire) : Option (String × ℕ) :=
  if w.isReady = true ∧ 0 < w.wireIfaceIDOnPeerNode ∧ w.peerNodeIP ≠ "" then
    some (w.peerNodeIP, w.wireIfaceIDOnPeerNode)
  else none

/-- `GRPCWireExists`: the id at the peer of a wire that is ready. -/
def Daemon.grpcWireExists (d : Daemon) (k : LinkKey) : Option ℕ := do
  let w ← d.objs (← d.getWireByUID k)
  if w.isReady = true ∧ 0 < w.wireIfaceIDOnPeerNode then some w.wireIfaceIDOnPeerNode else none

end Kne.WireModel
