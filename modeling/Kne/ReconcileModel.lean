import Kne.MeshTopos
import Kne.Runs

/-!
The controller of the meshnet daemon (`RunControllerLoop`, `runReconcileWorker`, `ReconcileQueue` of
`third_party/meshnet/daemon/meshnet/controller.go`, `getPod` and `updateStatus` of `handler.go`).

The API server holds the Topology resources and tells the informer of every change, in order. The
handler of an event brings the cache up to date and enqueues the local pods whose plumbing depends
on the resource. The worker is woken through a debounce timer, takes what is queued, and reconciles
one pod after the other; for each it reads the topologies of the peers one by one.

Threads that read a topology from the API server, or write one to it, put it in the cache
themselves, at some later moment. What has been read for each pod is kept, so that it can be said
whether a pod was reconciled with what the API server holds.
-/

namespace Kne.ReconcileModel

open Kne.Backrefs Kne.MeshTopos Kne.Runs

/-! ### The queue -/

/-- The debounce timer: `nil`, running, or run down. It is `nil` again only after `Drain`. -/
inductive Timer
  | unset | running | fired
  deriving DecidableEq, Repr

structure ReconcileQueue where
  pending : List String := []
  fullPending : Bool := false
  timer : Timer := .unset
  /-- There is a token in `notifyChan`. -/
  notified : Bool := false
  deriving DecidableEq, Repr

namespace ReconcileQueue

def arm (q : ReconcileQueue) : ReconcileQueue :=
  if q.timer = .unset then { q with timer := .running } else q

def enqueue (q : ReconcileQueue) (key : String) : ReconcileQueue :=
  arm { q with pending := q.pending.insert key }

def enqueueFull (q : ReconcileQueue) : ReconcileQueue := arm { q with fullPending := true }

/-- What `Drain` leaves. -/
def drain (q : ReconcileQueue) : ReconcileQueue :=
  { q with pending := [], fullPending := false, timer := .unset }

end ReconcileQueue

/-! ### Events -/

abbrev Topologies := AList (fun _ : String => Topology)

/-- A change at the API server. -/
def write (api : Topologies) : CacheOp → Topologies
  | .put t => api.insert t.key t
  | .delete ns name => api.erase (mkKey ns name)

/-- The dependents that a handler enqueues: those that are cached, active and local. -/
def affected (nodeIP : String) (c : TopologyCache) (dependents : List String) : List String :=
  dependents.filter fun depKey =>
    (c.get (parseKey depKey).1 (parseKey depKey).2).any (isLocal nodeIP)

/-- The handler of an event: the cache after it, and the keys it enqueues. -/
def handle (nodeIP : String) (c : TopologyCache) : CacheOp → TopologyCache × List String
  | .put t =>
    let c' := c.put t
    (c', (if isLocal nodeIP t then [t.key] else []) ++
      affected nodeIP c' (c'.getDependents t.ns t.name))
  | .delete ns name =>
    -- The dependents are asked for before the topology is taken out.
    let dependents := c.getDependents ns name
    let c' := c.delete ns name
    (c', affected nodeIP c' dependents)

/-! ### The machine -/

/-- A pod the worker has to reconcile: by its key, or, in a full pass, with the topology that was
listed for it. -/
inductive Task
  | key (k : String)
  | topo (t : Topology)
  deriving DecidableEq, Repr

/-- Where the worker stands: it waits for a token; has taken it; has drained the queue for a full
pass; is between two pods; reconciles a pod, some of whose peers it has still to read. -/
inductive Worker
  | idle
  | draining
  | listing
  | between (tasks : List Task)
  | pod (k : String) (todo : List String) (tasks : List Task)
  deriving DecidableEq, Repr

def Worker.tasks : Worker → List Task
  | .between tasks | .pod _ _ tasks => tasks
  | _ => []

structure St where
  api : Topologies := ∅
  /-- The events the informer has still to hand to the handlers. -/
  events : List CacheOp := []
  cache : TopologyCache := {}
  /-- The topologies that a thread has got or written and will put in the cache. -/
  held : List Topology := []
  /-- The keys that the handler of the last event has still to enqueue. -/
  owed : List String := []
  queue : ReconcileQueue := {}
  worker : Worker := .idle
  /-- The topology with which a pod was last reconciled. -/
  own : String → Option Topology := fun _ => none
  /-- What was read for a peer when the pod was last reconciled. -/
  seen : String → String → Option Topology := fun _ _ => none
  /-- The last reconciliation of the pod returned before its last link. -/
  cut : String → Bool := fun _ => false

inductive Act
  | write (op : CacheOp)
  /-- The daemon updates a topology, and will put it in the cache. -/
  | update (t : Topology)
  | put (t : Topology)
  /-- Some thread asks for a pod. -/
  | get (k : String) (answered : Bool)
  | deliver
  | enqueue (k : String)
  | enqueueFull
  | fire
  | wake
  | drain
  | list
  | start (task : Task) (answered : Bool)
  | read (k : String) (answered : Bool)
  | fail
  | next

/-- `getPod`, with what is to be put in the cache: on a miss the API server is asked, which may not
answer. -/
def getPod (s : St) (k : String) (answered : Bool) : Option Topology × List Topology :=
  match s.cache.items.lookup k with
  | some t => (some t, [])
  | none =>
    if answered then (s.api.lookup k, (s.api.lookup k).toList) else (none, [])

def Task.podKey : Task → String
  | .key k => k
  | .topo t => t.key

/-- The topology with which a pod is reconciled. -/
def Task.fetch (s : St) (answered : Bool) : Task → Option Topology × List Topology
  | .key k => getPod s k answered
  | .topo t => (some t, [])

/-- `ReconcilePodLinks` begins: a pod that is not active or not local has nothing to do. -/
def reconcilePodLinks (nodeIP : String) (s : St) (k : String) (tasks : List Task) :
    Option Topology → St
  | none => { s with worker := .between tasks }
  | some t =>
    if isLocal nodeIP t then
      { s with
        worker := .pod k (peerKeys t).dedup tasks
        own := Function.update s.own k (some t)
        cut := Function.update s.cut k false }
    else { s with worker := .between tasks }

/-- The topology of the peer `k` of `p` is asked for. -/
def readPeer (s : St) (p k : String) (answered : Bool) (todo : List String) (tasks : List Task) :
    St :=
  { s with
    held := (getPod s k answered).2 ++ s.held
    seen := Function.update s.seen p (Function.update (s.seen p) k (getPod s k answered).1)
    worker := .pod p (todo.erase k) tasks }

/-- The worker drains the queue. In a full pass the keys that were pending are not looked at. -/
def drained (s : St) : St :=
  { s with
    queue := s.queue.drain
    worker := if s.queue.fullPending then .listing else .between (s.queue.pending.map .key) }

/-- `ReconcileAllLocalPods` lists the cache, or the API server if nothing is cached. -/
def listed (s : St) : List Topology :=
  if s.cache.list = [] then s.api.entries.map fun e => e.2 else s.cache.list

def step (nodeIP : String) (s : St) : Act → Option St
  | .write op => some { s with api := write s.api op, events := s.events ++ [op] }
  | .update t =>
    some { s with api := write s.api (.put t), events := s.events ++ [.put t], held := t :: s.held }
  | .put t =>
    if t ∈ s.held then some { s with cache := s.cache.put t, held := s.held.erase t } else none
  | .get k answered => some { s with held := (getPod s k answered).2 ++ s.held }
  | .deliver =>
    match s.owed, s.events with
    | [], op :: events =>
      some { s with
        events := events
        cache := (handle nodeIP s.cache op).1
        owed := (handle nodeIP s.cache op).2 }
    | _, _ => none
  | .enqueue k =>
    if k ∈ s.owed then some { s with owed := s.owed.erase k, queue := s.queue.enqueue k } else none
  | .enqueueFull => some { s with queue := s.queue.enqueueFull }
  | .fire =>
    if s.queue.timer = .running then
      some { s with queue := { s.queue with timer := .fired, notified := true } }
    else none
  | .wake =>
    if s.worker = .idle ∧ s.queue.notified = true then
      some { s with queue := { s.queue with notified := false }, worker := .draining }
    else none
  | .drain =>
    if s.worker = .draining then some (drained s) else none
  | .list =>
    if s.worker = .listing then some { s with worker := .between ((listed s).map .topo) } else none
  | .start task answered =>
    match s.worker with
    | .between tasks =>
      if task ∈ tasks then
        some (reconcilePodLinks nodeIP { s with held := (task.fetch s answered).2 ++ s.held }
          task.podKey (tasks.erase task) (task.fetch s answered).1)
      else none
    | _ => none
  | .read k answered =>
    match s.worker with
    | .pod p todo tasks =>
      if k ∈ todo then some (readPeer s p k answered todo tasks) else none
    | _ => none
  | .fail =>
    match s.worker with
    | .pod p _ tasks =>
      some { s with worker := .between tasks, cut := Function.update s.cut p true }
    | _ => none
  | .next =>
    match s.worker with
    | .pod _ [] tasks => some { s with worker := .between tasks }
    | .between [] => some { s with worker := .idle }
    | _ => none

/-- Nothing is left to do but to wait for changes: no event, no key to enqueue, no running timer, no
token, and the worker waits. -/
def Quiet (s : St) : Prop :=
  s.events = [] ∧ s.owed = [] ∧ s.queue.timer ≠ .running ∧ s.queue.notified = false ∧
    s.worker = .idle

instance (s : St) : Decidable (Quiet s) := inferInstanceAs (Decidable (_ ∧ _))

/-- A topology that a thread puts in the cache itself is what the API server holds, or the event of
a later change is still to be handled. -/
def PutInTime (s : St) : Act → Prop
  | .put t => s.api.lookup t.key = some t ∨ ∃ e ∈ s.events, e.key = t.key
  | _ => True

instance (s : St) : DecidablePred (PutInTime s)
  | .put t =>
    inferInstanceAs (Decidable (s.api.lookup t.key = some t ∨ ∃ e ∈ s.events, e.key = t.key))
  | .write _ | .update _ | .get _ _ | .deliver | .enqueue _ | .enqueueFull | .fire | .wake | .drain
  | .list | .start _ _ | .read _ _ | .fail | .next => .isTrue trivial

end Kne.ReconcileModel
