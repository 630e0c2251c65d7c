import Kne.KeyedLists
import Kne.Runs
import Kne.WireTables

/-!
The record of the grpc-wires at the API server (`daemon/grpcwire/gwire_recon.go`), from which a
daemon makes its wires again after a restart.

For every topology there is one object with the statuses of the wires on the node. Whoever makes or
updates a wire starts a goroutine that puts the wire into a queue (`K8sStoreGWire`). One worker
takes the wires out in batches and writes the statuses that they have by then. A removal first sends
a marker through the queue and waits for it to be signalled, and then deletes what is stored under
the number of the link (`K8sDelGWire`).

The worker and the removals read an object, change it and write it back. The API server refuses the
write if the object has changed in between, and they begin again. A call may fail in other ways,
which ends the attempt for good; giving up after too many conflicts is one of them.
-/

namespace Kne.WireStore

open Kne.Runs Kne.WireModel Kne.KeyedLists

/-- `GWireStatus`, without the name of the node, which is the same in all of them, and that of the
interface on the node, which is not read. -/
structure GWireStatus where
  linkId : ℤ
  topoNamespace : String
  localPodNetNs : String
  localPodName : String
  localPodIp : String
  localPodIfaceName : String
  wireIfaceIdOnPeerNode : ℕ
  gWirePeerNodeIp : String
  deriving DecidableEq, Repr

def createWireStatus (w : GRPCWire) : GWireStatus where
  linkId := w.uid
  topoNamespace := w.topoNamespace
  localPodNetNs := w.localPodNetNS
  localPodName := w.localPodName
  localPodIp := w.localPodIP
  localPodIfaceName := w.localPodIfaceName
  wireIfaceIdOnPeerNode := w.wireIfaceIDOnPeerNode
  gWirePeerNodeIp := w.peerNodeIP

namespace GWireStatus

/-- The key under which an item is looked for in an object. -/
def itemKey (ws : GWireStatus) : String := ws.localPodName ++ "@" ++ ws.localPodIfaceName

/-- The key of the wire in the wire map. -/
def key (ws : GWireStatus) : LinkKey := ⟨ws.localPodNetNs, ws.linkId⟩

def link (ws : GWireStatus) : String × ℤ := (ws.topoNamespace, ws.linkId)

end GWireStatus

/-- A `GWireKObj`, with its resource version. -/
structure Obj where
  items : List GWireStatus
  version : ℕ := 0
  deriving DecidableEq

/-- `UpdateWireObj` with an object that was read at a version. It is refused if the object has
changed since; an update that changes nothing makes no new version. -/
def Obj.update (o : Obj) (version : ℕ) (items : List GWireStatus) : Option Obj :=
  if o.version = version then
    some ⟨items, if items = o.items then o.version else o.version + 1⟩
  else none

/-- A `wireStatusUpdate`: a wire, or the marker of a flush. -/
inductive Entry
  | status (id : ℕ)
  | flush (ticket : ℕ)
  deriving DecidableEq, Repr

/-- Where `updateGRPCWireStatusGroup` is: it begins an attempt, gets the object, creates it, looks
for the next wire in the wire map (or writes, if there is none left), or reads the status of a wire
that it has found there. -/
inductive Attempt
  | start
  | get (first : GWireStatus)
  | create (first : GWireStatus)
  | check (version : ℕ) (items : List GWireStatus) (todo : List ℕ)
  | read (version : ℕ) (items : List GWireStatus) (id : ℕ) (todo : List ℕ)
  deriving DecidableEq

/-- Where the worker is, with the flushes that it signals at the end of the batch. -/
inductive Worker
  | idle
  | draining (updates signals : List ℕ)
  | filtering (todo active signals : List ℕ)
  | grouping (groups : List (String × List ℕ)) (signals : List ℕ)
  | writing (topoNs : String) (ids : List ℕ) (attempt : Attempt)
    (groups : List (String × List ℕ)) (signals : List ℕ)
  deriving DecidableEq

/-- Where `RemoveWireAcrosAll` is; from `flush` on it is in `K8sDelGWire`. -/
inductive Stage
  | stop | close | delete | flush | wait (ticket : ℕ) | get
  | write (version : ℕ) (items : List GWireStatus)
  deriving DecidableEq

structure Removal where
  id : ℕ
  inMem : Bool
  stage : Stage
  deriving DecidableEq

structure St where
  daemon : Daemon := {}
  /-- Wires for which `K8sStoreGWire` was started and has not yet run. -/
  spawned : List ℕ := []
  queue : List Entry := []
  worker : Worker := .idle
  removals : List Removal := []
  /-- The number of the next flush, and the flushes that were signalled. -/
  tickets : ℕ := 0
  closed : List ℕ := []
  /-- The objects at the API server, by topology. -/
  store : AList (fun _ : String => Obj) := ∅

def queueCapacity : ℕ := 10000

def batchSize : ℕ := 200

/-- The wire is appended to the group of its topology. -/
def addToGroup (topoNs : String) (id : ℕ) : List (String × List ℕ) → List (String × List ℕ)
  | [] => [(topoNs, [id])]
  | g :: gs => if g.1 = topoNs then (g.1, g.2 ++ [id]) :: gs else g :: addToGroup topoNs id gs

namespace St

/-- A step of the daemon; the wires that were made now are going to be stored. -/
def create (s : St) (d : Daemon) : St :=
  { s with
    daemon := d
    spawned := s.spawned ++ if d.currId = s.daemon.currId then [] else [d.currId] }

def replace (s : St) (r : Removal) (rs : List Removal) : St :=
  { s with removals := s.removals.erase r ++ rs }

/-- `K8sStoreGWire`: a wire that finds the queue full is dropped. -/
def enqueue (s : St) (id : ℕ) : St :=
  { s with
    spawned := s.spawned.erase id
    queue := if s.queue.length < queueCapacity then s.queue ++ [.status id] else s.queue }

/-- The wire is in the wire map, as far as its key goes. -/
def present (s : St) (id : ℕ) : Bool :=
  (s.daemon.objs id).any fun w => (s.daemon.getWireByUID w.key).isSome

def topoOf (s : St) (id : ℕ) : String := ((s.daemon.objs id).map (·.topoNamespace)).getD ""

/-- The wires of a batch by topology. -/
def groups (s : St) (active : List ℕ) : List (String × List ℕ) :=
  active.foldl (fun gs id => addToGroup (s.topoOf id) id gs) []

/-- One step of an attempt: where the attempt is then, or `none` at its end, and the object if it
was written. -/
def attempt (s : St) (topoNs : String) (ids : List ℕ) :
    Attempt → Option (Option Attempt × Option Obj)
  | .start => do
    let w ← s.daemon.objs (← ids.head?)
    some (some (.get (createWireStatus w)), none)
  | .get first =>
    match s.store.lookup topoNs with
    | some o => some (some (.check o.version o.items ids), none)
    | none => some (some (.create first), none)
  | .create first =>
    match s.store.lookup topoNs with
    | some _ => some (none, none)
    | none => some (some (.get first), some { items := [first] })
  | .check version items (id :: todo) =>
    if s.present id then some (some (.read version items id todo), none)
    else some (some (.check version items todo), none)
  | .read version items id todo => do
    let w ← s.daemon.objs id
    some (some (.check version (put GWireStatus.itemKey items (createWireStatus w)) todo), none)
  | .check version items [] => do
    let o ← s.store.lookup topoNs
    match o.update version items with
    | some o' => some (none, some o')
    | none => some (some .start, none)

/-- The next step of the worker, except for the choice of a group. -/
def work (s : St) : Option St :=
  match s.worker with
  | .idle =>
    match s.queue with
    | [] => none
    | .status id :: q => some { s with queue := q, worker := .draining [id] [] }
    | .flush t :: q => some { s with queue := q, worker := .draining [] [t] }
  | .draining updates signals =>
    if updates.length < batchSize then
      match s.queue with
      | [] => some { s with worker := .filtering updates [] signals }
      | .status id :: q => some { s with queue := q, worker := .draining (updates ++ [id]) signals }
      | .flush t :: q =>
        some { s with queue := q, worker := .filtering updates [] (signals ++ [t]) }
    else some { s with worker := .filtering updates [] signals }
  | .filtering (id :: todo) active signals =>
    some { s with
      worker := .filtering todo (if s.present id then active ++ [id] else active) signals }
  | .filtering [] active signals => some { s with worker := .grouping (s.groups active) signals }
  | .grouping [] signals =>
    some { s with worker := .idle, closed := s.closed ++ signals }
  | .grouping (_ :: _) _ => none
  | .writing topoNs ids a groups signals => do
    let (next, written) ← s.attempt topoNs ids a
    some { s with
      worker := match next with
        | some a' => .writing topoNs ids a' groups signals
        | none => .grouping groups signals
      store := match written with
        | some o => s.store.insert topoNs o
        | none => s.store }

/-- The worker goes on with a group; Go ranges over the groups in any order. -/
def pick (s : St) (g : String × List ℕ) : Option St :=
  match s.worker with
  | .grouping groups signals =>
    if g ∈ groups then
      some { s with worker := .writing g.1 g.2 .start (groups.erase g) signals }
    else none
  | _ => none

/-- A call of the worker fails, and the group is given up. -/
def fail (s : St) : Option St :=
  match s.worker with
  | .writing _ _ _ groups signals => some { s with worker := .grouping groups signals }
  | _ => none

/-- The next step of a removal. -/
def remove (s : St) (r : Removal) : Option St :=
  match r.stage with
  | .stop =>
    some ({ s with daemon := s.daemon.stop r.id }.replace r [{ r with stage := .close }])
  | .close =>
    some ({ s with daemon := s.daemon.closeAndRemoveHandle r.id }.replace r
      [{ r with stage := if r.inMem then .delete else .flush }])
  | .delete =>
    some ({ s with daemon := s.daemon.atomicDelete r.id }.replace r [{ r with stage := .flush }])
  | .flush =>
    if s.queue.length < queueCapacity then
      some ({ s with
        queue := s.queue ++ [Entry.flush s.tickets]
        tickets := s.tickets + 1 }.replace r [{ r with stage := .wait s.tickets }])
    else none
  | .wait t => if t ∈ s.closed then some (s.replace r [{ r with stage := .get }]) else none
  | .get => do
    let w ← s.daemon.objs r.id
    match s.store.lookup w.topoNamespace with
    | none => some (s.replace r [])
    | some o => some (s.replace r
        [{ r with stage := .write o.version (o.items.filter fun ws => ws.linkId ≠ w.uid) }])
  | .write version items => do
    let w ← s.daemon.objs r.id
    let o ← s.store.lookup w.topoNamespace
    match o.update version items with
    | some o' => some ({ s with store := s.store.insert w.topoNamespace o' }.replace r [])
    | none => some (s.replace r [{ r with stage := .get }])

end St

/-! ### A restart -/

/-- The definition from which `reCreateGWire` makes the wire again. -/
def wireDefOf (ws : GWireStatus) : WireDef where
  linkUid := ws.linkId
  topoNs := ws.topoNamespace
  localPodName := ws.localPodName
  localPodNetNs := ws.localPodNetNs
  intfNameInPod := ws.localPodIfaceName
  localPodIp := ws.localPodIp
  wireIfIdOnPeerNode := ws.wireIfaceIdOnPeerNode
  peerNodeIp := ws.gWirePeerNodeIp

/-- `attached` says whether the TAP device can be attached. -/
def reCreateGWire (attached : GWireStatus → Bool) (d : Daemon) (ws : GWireStatus) : Daemon :=
  if ((d.getWireByUID ws.key).bind d.objs).any (·.isReady) then d
  else if attached ws then d.reconLocalGRPCWire (wireDefOf ws)
  else d

/-- The items of a topology. -/
def itemsOf (store : AList (fun _ : String => Obj)) (topoNs : String) : List GWireStatus :=
  ((store.lookup topoNs).map (·.items)).getD []

/-- `ReconGWires`, with the objects in the order in which the API server lists them. -/
def reconGWires (attached : GWireStatus → Bool) (store : AList (fun _ : String => Obj))
    (order : List String) : Daemon :=
  order.foldl (fun d topoNs => (itemsOf store topoNs).foldl (reCreateGWire attached) d) {}

/-! ### The steps -/

inductive Act
  | createLocal (wireDef : WireDef) (tapOk : Bool)
  | createRemote (wireDef : WireDef) (tapOk : Bool)
  /-- `UpdateWire` on a wire that was in the wire map at some time. -/
  | update (id peerIntfId : ℕ) (peerNodeIP : String)
  /-- `DeletePodWires` takes a wire out of the map and removes it. -/
  | extract (k : LinkKey)
  /-- `WireDownByUID` has found a wire in the map and removes it. -/
  | down (k : LinkKey)
  | enqueue (id : ℕ)
  | work
  | pick (g : String × List ℕ)
  | fail
  | remove (r : Removal)
  | abandon (r : Removal)
  | restart (order : List String) (attached : GWireStatus → Bool)

def step (s : St) : Act → Option St
  | .createLocal wireDef tapOk => some (s.create (s.daemon.createGRPCWireLocal wireDef tapOk).1)
  | .createRemote wireDef tapOk => some (s.create (s.daemon.createOrFind wireDef tapOk).1)
  | .update id peerIntfId peerNodeIP =>
    if (s.daemon.objs id).isSome then
      some { s with
        daemon := s.daemon.updateWire id peerIntfId peerNodeIP
        spawned := s.spawned ++ [id] }
    else none
  | .extract k =>
    (s.daemon.getWireByUID k).map fun id =>
      { s with
        daemon := { s.daemon with wires := s.daemon.wires.erase k }
        removals := s.removals ++ [⟨id, false, .stop⟩] }
  | .down k =>
    (s.daemon.getWireByUID k).map fun id =>
      { s with removals := s.removals ++ [⟨id, true, .stop⟩] }
  | .enqueue id => if id ∈ s.spawned then some (s.enqueue id) else none
  | .work => s.work
  | .pick g => s.pick g
  | .fail => s.fail
  | .remove r => if r ∈ s.removals then s.remove r else none
  | .abandon r => if r ∈ s.removals then some (s.replace r []) else none
  | .restart order attached =>
    if order.Perm s.store.keys then
      some { daemon := reconGWires attached s.store order, store := s.store }
    else none

end Kne.WireStore
