import Kne.Runs
import Kne.WireTables

/-!
The meshnet daemons of several nodes and the messages between them (`reconcilePodLinksInternal` of
`daemon/meshnet/controller.go`, the RPC handlers of `daemon/meshnet/handler.go`,
`RemoveWireAcrosAll` and `forwardPackets` of `daemon/grpcwire/grpcwire.go`).

A daemon that finds a link to a pod of another node makes its own end, asks the other daemon in a
batch to make or update the ends there, and writes the ids that come back into its own wires; frames
are then sent under the id at the peer, and the receiver writes them to the handle with this id.

Whatever waits between two critical sections is a job: a batch that is put together, served or
answered, an update of a wire that has been found, a removal, a frame on its way. Jobs proceed in
any order, and any of them may be lost.
-/

namespace Kne.WireMesh

open Kne.Runs Kne.WireModel

variable {ι : Type} [DecidableEq ι]

/-- What `RemoveWireAcrosAll` does next. -/
inductive Stage
  | stop | close | delete
  deriving DecidableEq, Repr

inductive Job (ι : Type)
  /-- A pass of the reconciliation on `n` for a pod in `netNS` collects what it asks the daemon at
  `peerIP` for: the numbers of the links, and the definitions of the ends there. -/
  | plan (n : ι) (netNS peerIP : String) (links : List ℤ) (defs : List WireDef)
  /-- `AddGRPCWiresRemoteBatch` on `m` for `n`: the items answered so far, and those to come. -/
  | batch (n m : ι) (netNS peerIP : String) (links : List ℤ) (items : List (Option ℕ))
    (todo : List WireDef)
  | answer (n : ι) (netNS peerIP : String) (links : List ℤ) (items : List (Option ℕ))
  /-- `UpdateWire` on a wire that was found in the map. -/
  | update (n : ι) (id peerIntfId : ℕ) (peerNodeIP : String)
  | remove (n : ι) (id : ℕ) (inMem : Bool) (stage : Stage)
  /-- A frame from the wire `id` of `n`. -/
  | packet (n : ι) (id : ℕ) (peerIP : String) (remotIntfId : ℕ) (frame : List UInt8)
  deriving DecidableEq

/-- A frame from the wire `srcId` of `src` was written to a TAP device of `dst`. -/
structure Written (ι : Type) where
  src : ι
  srcId : ℕ
  dst : ι
  dstId : ℕ
  tap : Tap
  frame : List UInt8

structure Mesh (ι : Type) where
  daemon : ι → Daemon := fun _ => {}
  jobs : List (Job ι) := []
  written : List (Written ι) := []

def Mesh.set (s : Mesh ι) (n : ι) (d : Daemon) : Mesh ι :=
  { s with daemon := Function.update s.daemon n d }

/-- The job `t` goes on as the jobs `ts`. -/
def Mesh.replace (s : Mesh ι) (t : Job ι) (ts : List (Job ι)) : Mesh ι :=
  { s with jobs := s.jobs.erase t ++ ts }

inductive Act (ι : Type)
  | createLocal (n : ι) (wireDef : WireDef) (tapOk : Bool)
  | plan (n : ι) (netNS peerIP : String)
  | fetch (t : Job ι) (peerDef : WireDef)
  | send (t : Job ι) (m : ι) (size : ℕ)
  | serve (t : Job ι) (tapOk : Bool)
  | reply (t : Job ι)
  | receive (t : Job ι)
  | update (t : Job ι)
  | extract (n : ι) (k : LinkKey)
  | down (n : ι) (k : LinkKey)
  | remove (t : Job ι)
  | forward (n : ι) (id : ℕ) (frame : List UInt8)
  | deliver (t : Job ι) (m : ι)
  | lose (t : Job ι)
  | genNodeIfaceName (n : ι)
  | restart (n : ι)
  | recon (n : ι) (wireDef : WireDef)

/-- The local wire is looked up again, and its id goes into the definition for the peer. -/
def fetch (ip : ι → String) (s : Mesh ι) (peerDef : WireDef) : Job ι → Option (Mesh ι)
  | .plan n netNS peerIP links defs =>
    some (s.replace (.plan n netNS peerIP links defs)
      (match (s.daemon n).getWireByUID ⟨netNS, peerDef.linkUid⟩ with
      | some id => [.plan n netNS peerIP (links ++ [peerDef.linkUid])
          (defs ++ [{ peerDef with wireIfIdOnPeerNode := id, peerNodeIp := ip n }])]
      | none => []))
  | _ => none

/-- A chunk of the batch is sent to the daemon at the address. -/
def send (ip : ι → String) (s : Mesh ι) (m : ι) (size : ℕ) : Job ι → Option (Mesh ι)
  | .plan n netNS peerIP links defs =>
    if ip m = peerIP then
      some (s.replace (.plan n netNS peerIP links defs)
        [.batch n m netNS peerIP (links.take size) [] (defs.take size),
          .plan n netNS peerIP (links.drop size) (defs.drop size)])
    else none
  | _ => none

/-- A wire that exists is updated, after the lock of the map is released. -/
def updateFound (m : ι) (wireDef : WireDef) : Option (ℕ × Bool) → List (Job ι)
  | some (id, false) => [.update m id wireDef.wireIfIdOnPeerNode wireDef.peerNodeIp]
  | _ => []

/-- The next item of a batch. -/
def serve (s : Mesh ι) (tapOk : Bool) : Job ι → Option (Mesh ι)
  | .batch n m netNS peerIP links items (wireDef :: todo) =>
    let r := (s.daemon m).createOrFind wireDef tapOk
    some ((s.set m r.1).replace (.batch n m netNS peerIP links items (wireDef :: todo))
      (.batch n m netNS peerIP links (items ++ [r.2.map Prod.fst]) todo ::
        updateFound m wireDef r.2))
  | _ => none

def reply (s : Mesh ι) : Job ι → Option (Mesh ι)
  | .batch n m netNS peerIP links items [] =>
    some (s.replace (.batch n m netNS peerIP links items []) [.answer n netNS peerIP links items])
  | _ => none

/-- `UpdateWireByUID` for an item that names the end at the peer. -/
def updateAnswered (n : ι) (peerIP : String) : Option ℕ → Option ℕ → List (Job ι)
  | some peerIntfId, some id => [.update n id peerIntfId peerIP]
  | _, _ => []

/-- The next item of an answer, for the link at the same place of the chunk. -/
def receive (s : Mesh ι) : Job ι → Option (Mesh ι)
  | .answer n netNS peerIP (uid :: links) (item :: items) =>
    some (s.replace (.answer n netNS peerIP (uid :: links) (item :: items))
      (.answer n netNS peerIP links items ::
        updateAnswered n peerIP item ((s.daemon n).getWireByUID ⟨netNS, uid⟩)))
  | _ => none

def update (s : Mesh ι) : Job ι → Option (Mesh ι)
  | .update n id peerIntfId peerNodeIP =>
    some ((s.set n ((s.daemon n).updateWire id peerIntfId peerNodeIP)).replace
      (.update n id peerIntfId peerNodeIP) [])
  | _ => none

def remove (s : Mesh ι) : Job ι → Option (Mesh ι)
  | .remove n id inMem .stop =>
    some ((s.set n ((s.daemon n).stop id)).replace (.remove n id inMem .stop)
      [.remove n id inMem .close])
  | .remove n id inMem .close =>
    some ((s.set n ((s.daemon n).closeAndRemoveHandle id)).replace (.remove n id inMem .close)
      (if inMem then [.remove n id inMem .delete] else []))
  | .remove n id inMem .delete =>
    some ((s.set n ((s.daemon n).atomicDelete id)).replace (.remove n id inMem .delete) [])
  | _ => none

/-- `SendToStream`: the frame is written to the handle with its id. -/
def deliver (ip : ι → String) (s : Mesh ι) (m : ι) : Job ι → Option (Mesh ι)
  | .packet n id peerIP remotIntfId frame =>
    if ip m = peerIP then
      some { s.replace (.packet n id peerIP remotIntfId frame) [] with
        written := s.written ++ (((s.daemon m).getHostIntfHndl remotIntfId).toList.map fun tap =>
          { src := n, srcId := id, dst := m, dstId := remotIntfId, tap := tap, frame := frame }) }
    else none
  | _ => none

def step (ip : ι → String) (s : Mesh ι) : Act ι → Option (Mesh ι)
  | .createLocal n wireDef tapOk =>
    some (s.set n ((s.daemon n).createGRPCWireLocal
      { wireDef with wireIfIdOnPeerNode := 0 } tapOk).1)
  | .plan n netNS peerIP =>
    if peerIP ≠ ip n then some { s with jobs := s.jobs ++ [.plan n netNS peerIP [] []] } else none
  | .fetch t peerDef => if t ∈ s.jobs then fetch ip s peerDef t else none
  | .send t m size => if t ∈ s.jobs then send ip s m size t else none
  | .serve t tapOk => if t ∈ s.jobs then serve s tapOk t else none
  | .reply t => if t ∈ s.jobs then reply s t else none
  | .receive t => if t ∈ s.jobs then receive s t else none
  | .update t => if t ∈ s.jobs then update s t else none
  | .extract n k =>
    (s.daemon n).getWireByUID k |>.map fun id =>
      { s.set n { s.daemon n with wires := (s.daemon n).wires.erase k } with
        jobs := s.jobs ++ [.remove n id false .stop] }
  | .down n k =>
    (s.daemon n).getWireByUID k |>.map fun id =>
      { s with jobs := s.jobs ++ [.remove n id true .stop] }
  | .remove t => if t ∈ s.jobs then remove s t else none
  | .forward n id frame =>
    ((s.daemon n).objs id).bind GRPCWire.route |>.map fun r =>
      { s with jobs := s.jobs ++ [.packet n id r.1 r.2 frame] }
  | .deliver t m => if t ∈ s.jobs then deliver ip s m t else none
  | .lose t => if t ∈ s.jobs then some (s.replace t []) else none
  | .genNodeIfaceName n => some (s.set n (s.daemon n).nextIndex)
  | .restart n => some (s.set n {})
  | .recon n wireDef =>
    if (((s.daemon n).getWireByUID wireDef.key).bind (s.daemon n).objs).any (·.isReady) then none
    else some (s.set n ((s.daemon n).reconLocalGRPCWire wireDef))

/-! ### What a step does to a daemon -/

variable {ip : ι → String} {s s' : Mesh ι} {a : Act ι}

/-- A critical section of a daemon. -/
inductive Section : Daemon → Daemon → Prop
  | skip (d : Daemon) : Section d d
  | createLocal (d : Daemon) (wireDef : WireDef) (tapOk : Bool) :
    Section d (d.createGRPCWireLocal wireDef tapOk).1
  | createOrFind (d : Daemon) (wireDef : WireDef) (tapOk : Bool) :
    Section d (d.createOrFind wireDef tapOk).1
  | update (d : Daemon) (id peerIntfId : ℕ) (peerNodeIP : String) :
    Section d (d.updateWire id peerIntfId peerNodeIP)
  | extract (d : Daemon) (k : LinkKey) : Section d { d with wires := d.wires.erase k }
  | stop (d : Daemon) (id : ℕ) : Section d (d.stop id)
  | close (d : Daemon) (id : ℕ) : Section d (d.closeAndRemoveHandle id)
  | delete (d : Daemon) (id : ℕ) : Section d (d.atomicDelete id)
  | nextIndex (d : Daemon) : Section d d.nextIndex
  | recon (d : Daemon) (wireDef : WireDef) : Section d (d.reconLocalGRPCWire wireDef)

lemma section_set {n : ι} {d : Daemon} (h : Section (s.daemon n) d) (m : ι) :
    Section (s.daemon m) ((s.set n d).daemon m) := by
  by_cases hm : m = n
  · subst hm
    simpa [Mesh.set] using h
  · simpa [Mesh.set, hm] using Section.skip (s.daemon m)

@[simp] lemma daemon_replace (t : Job ι) (ts : List (Job ι)) :
    (s.replace t ts).daemon = s.daemon := rfl

section

variable {t : Job ι}

lemma daemon_fetch {peerDef : WireDef} (h : fetch ip s peerDef t = some s') :
    s'.daemon = s.daemon := by
  unfold fetch at h
  split at h
  · cases h
    rfl
  · cases h

lemma daemon_send {m : ι} {size : ℕ} (h : send ip s m size t = some s') :
    s'.daemon = s.daemon := by
  unfold send at h
  split at h
  · obtain ⟨-, ⟨⟩⟩ := Option.ite_none_right_eq_some.mp h
    rfl
  · cases h

lemma daemon_reply (h : reply s t = some s') : s'.daemon = s.daemon := by
  unfold reply at h
  split at h
  · cases h
    rfl
  · cases h

lemma daemon_receive (h : receive s t = some s') : s'.daemon = s.daemon := by
  unfold receive at h
  split at h
  · cases h
    rfl
  · cases h

lemma daemon_deliver {m : ι} (h : deliver ip s m t = some s') : s'.daemon = s.daemon := by
  unfold deliver at h
  split at h
  · obtain ⟨-, ⟨⟩⟩ := Option.ite_none_right_eq_some.mp h
    rfl
  · cases h

lemma section_serve {tapOk : Bool} (h : serve s tapOk t = some s') (n : ι) :
    Section (s.daemon n) (s'.daemon n) := by
  unfold serve at h
  split at h
  · cases h
    exact section_set (.createOrFind _ _ _) n
  · cases h

lemma section_update (h : update s t = some s') (n : ι) :
    Section (s.daemon n) (s'.daemon n) := by
  unfold update at h
  split at h
  · cases h
    exact section_set (.update _ _ _ _) n
  · cases h

lemma section_remove (h : remove s t = some s') (n : ι) :
    Section (s.daemon n) (s'.daemon n) := by
  unfold remove at h
  split at h
  · cases h
    exact section_set (.stop _ _) n
  · cases h
    exact section_set (.close _ _) n
  · cases h
    exact section_set (.delete _ _) n
  · cases h

end

omit [DecidableEq ι] in
lemma section_of_eq (h : s'.daemon = s.daemon) (n : ι) : Section (s.daemon n) (s'.daemon n) :=
  h ▸ .skip _

lemma step_section (h : step ip s a = some s') (n : ι) :
    Section (s.daemon n) (s'.daemon n) ∨ a = .restart n ∧ s'.daemon n = {} := by
  cases a with
  | createLocal m wireDef tapOk =>
    cases h
    exact .inl (section_set (.createLocal _ _ _) n)
  | plan m netNS peerIP =>
    obtain ⟨-, ⟨⟩⟩ := Option.ite_none_right_eq_some.mp h
    exact .inl (.skip _)
  | fetch t peerDef =>
    obtain ⟨-, h⟩ := Option.ite_none_right_eq_some.mp h
    exact .inl (section_of_eq (daemon_fetch h) n)
  | send t m size =>
    obtain ⟨-, h⟩ := Option.ite_none_right_eq_some.mp h
    exact .inl (section_of_eq (daemon_send h) n)
  | serve t tapOk =>
    obtain ⟨-, h⟩ := Option.ite_none_right_eq_some.mp h
    exact .inl (section_serve h n)
  | reply t =>
    obtain ⟨-, h⟩ := Option.ite_none_right_eq_some.mp h
    exact .inl (section_of_eq (daemon_reply h) n)
  | receive t =>
    obtain ⟨-, h⟩ := Option.ite_none_right_eq_some.mp h
    exact .inl (section_of_eq (daemon_receive h) n)
  | update t =>
    obtain ⟨-, h⟩ := Option.ite_none_right_eq_some.mp h
    exact .inl (section_update h n)
  | extract m k =>
    obtain ⟨id, -, rfl⟩ := Option.map_eq_some_iff.mp h
    exact .inl (section_set (.extract _ k) n)
  | down m k =>
    obtain ⟨id, -, rfl⟩ := Option.map_eq_some_iff.mp h
    exact .inl (.skip _)
  | remove t =>
    obtain ⟨-, h⟩ := Option.ite_none_right_eq_some.mp h
    exact .inl (section_remove h n)
  | forward m id frame =>
    obtain ⟨r, -, rfl⟩ := Option.map_eq_some_iff.mp h
    exact .inl (.skip _)
  | deliver t m =>
    obtain ⟨-, h⟩ := Option.ite_none_right_eq_some.mp h
    exact .inl (section_of_eq (daemon_deliver h) n)
  | lose t =>
    obtain ⟨-, ⟨⟩⟩ := Option.ite_none_right_eq_some.mp h
    exact .inl (.skip _)
  | genNodeIfaceName m =>
    cases h
    exact .inl (section_set (.nextIndex _) n)
  | restart m =>
    cases h
    by_cases hm : n = m
    · subst hm
      exact .inr ⟨rfl, by simp [Mesh.set]⟩
    · exact .inl (by simpa [Mesh.set, hm] using Section.skip (s.daemon n))
  | recon m wireDef =>
    obtain ⟨-, ⟨⟩⟩ := Option.ite_none_left_eq_some.mp h
    exact .inl (section_set (.recon _ _) n)

end Kne.WireMesh
