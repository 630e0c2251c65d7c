import Kne.Checked
import Kne.HostPorts
import Kne.NodeModel

/-!
The plan of a Forward node (`wirePlan` and `peerEndpoint` in `topo/node/forward/forward.go`, and
what `CreatePod` makes of it): the wires of the node become processes of the bridge daemon, one for
each wire that dials out and one for all that are dialled, and each process becomes a container.
-/

namespace Kne.WirePlan

open Kne.Checked Kne.HostPorts Kne.NodeModel

/-! ### The plan -/

/-- An end of a wire. An end that is missing and one without a value read alike. -/
inductive Endpoint
  | unset
  | interface (name : String)
  | localNode (name interface : String)
  | remoteNode (addr interface : String)
  deriving DecidableEq, Repr

/-- `GetInterface().GetName()`. -/
def Endpoint.intf : Endpoint → String
  | .interface name => name
  | _ => ""

structure Wire where
  a : Endpoint := .unset
  z : Endpoint := .unset
  deriving DecidableEq, Repr

structure BridgeProcess where
  nameSuffix : String
  args : List String
  deriving DecidableEq, Repr

def wirePort : ℕ := 50058

/-- `strings.Trim` of brackets. -/
def trimBrackets (s : String) : String :=
  let bracket := fun c : Char => c = '[' || c = ']'
  String.ofList ((s.toList.dropWhile bracket).reverse.dropWhile bracket).reverse

/-- The address to dial and the interface to ask for. -/
def peerEndpoint : Endpoint → Except String (String × String)
  | .localNode name interface =>
    if name = "" then .error "local_node endpoint must set name"
    else .ok (joinHostPort name (toString wirePort), interface)
  | .remoteNode addr interface =>
    if addr = "" then .error "remote_node endpoint must set addr"
    else
      match splitHostPort addr with
      | .ok _ => .ok (addr, interface)
      | .error _ => .ok (joinHostPort (trimBrackets addr) (toString wirePort), interface)
  | .unset | .interface _ => .error "endpoint must be a local_node or a remote_node"

def clientProcess (intf addr remote : String) : BridgeProcess where
  nameSuffix := "client-" ++ intf
  args := ["client", "--peer=" ++ addr, "--interface=" ++ intf, "--remote_interface=" ++ remote]

def serverProcess : BridgeProcess := ⟨"server", ["server"]⟩

/-- What the loop has found so far. -/
structure Progress where
  serves : List String := []
  procs : List BridgeProcess := []
  seen : List String := []
  deriving DecidableEq, Repr

/-- One turn of the loop. -/
def addWire (p : Progress) (w : Wire) : Except String Progress :=
  let aIntf := w.a.intf
  let zIntf := w.z.intf
  if aIntf ≠ "" ∧ zIntf ≠ "" then .error "endpoints a and z cannot both be interfaces"
  else if aIntf ≠ "" then
    if aIntf ∈ p.seen then .error ("duplicate wire for local interface " ++ aIntf.quote)
    else
      match peerEndpoint w.z with
      | .error err => .error ("wire for local interface " ++ aIntf.quote ++ ": " ++ err)
      | .ok (addr, remote) =>
        let proc := clientProcess aIntf addr (if remote = "" then aIntf else remote)
        .ok { p with seen := aIntf :: p.seen, procs := p.procs ++ [proc] }
  else if zIntf ≠ "" then
    if zIntf ∈ p.seen then .error ("duplicate wire for local interface " ++ zIntf.quote)
    else .ok { p with seen := zIntf :: p.seen, serves := p.serves ++ [zIntf] }
  else .error "one of endpoints a and z must be an interface"

/-- `wirePlan` for the wires of a configuration. -/
def wirePlan (wires : List Wire) : Except String (List BridgeProcess) := do
  let p ← wires.foldlM addWire {}
  return if p.serves ≠ [] then serverProcess :: p.procs else p.procs

/-- The processes of `CreatePod`. Without a plan there is one, with the arguments of the node. -/
def podProcs (args : List String) (plan : List BridgeProcess) : List BridgeProcess :=
  if plan = [] then [⟨"", args⟩] else plan.map fun p => { p with args := p.args ++ args }

/-- The names of the containers that `CreatePod` makes for a plan. -/
def containerNames (node : String) (args : List String) (plan : List BridgeProcess) :
    List String :=
  (podProcs args plan).mapIdx fun i p => if i > 0 then node ++ "-" ++ p.nameSuffix else node

/-! ### Wires -/

/-- Just one end is a named interface. -/
def OneEnd (w : Wire) : Prop :=
  (w.a.intf ≠ "" ∧ w.z.intf = "") ∨ (w.a.intf = "" ∧ w.z.intf ≠ "")

/-- The interface of the node that a wire is for. -/
def localIntf (w : Wire) : String := if w.a.intf ≠ "" then w.a.intf else w.z.intf

/-- A wire that dials out has a peer. -/
def PeerAccepted (w : Wire) : Prop := w.a.intf ≠ "" → ∃ peer, peerEndpoint w.z = .ok peer

/-- The process for a wire that dials out. -/
def clientOf (w : Wire) : Option BridgeProcess :=
  if w.a.intf = "" then none
  else
    match peerEndpoint w.z with
    | .error _ => none
    | .ok (addr, remote) =>
      some (clientProcess w.a.intf addr (if remote = "" then w.a.intf else remote))

/-- The interface of a wire that is dialled. -/
def servedOf (w : Wire) : Option String := if w.z.intf = "" then none else some w.z.intf

/-- What a wire adds to the plan. -/
def Progress.add (p : Progress) (w : Wire) : Progress where
  serves := p.serves ++ (servedOf w).toList
  procs := p.procs ++ (clientOf w).toList
  seen := localIntf w :: p.seen

/-- **One wire.** -/
lemma addWire_ok_iff {p p' : Progress} {w : Wire} : addWire p w = .ok p' ↔
    OneEnd w ∧ PeerAccepted w ∧ localIntf w ∉ p.seen ∧ p.add w = p' := by
  unfold addWire OneEnd PeerAccepted
  by_cases ha : w.a.intf = ""
  · by_cases hz : w.z.intf = ""
    · simp [ha, hz]
    · by_cases hs : w.z.intf ∈ p.seen <;>
        simp [ha, hz, hs, localIntf, Progress.add, servedOf, clientOf]
  · by_cases hz : w.z.intf = ""
    · by_cases hs : w.a.intf ∈ p.seen
      · simp [ha, hz, hs, localIntf]
      · cases hp : peerEndpoint w.z <;>
          simp [ha, hz, hs, hp, localIntf, Progress.add, servedOf, clientOf]
    · simp [ha, hz]

/-- **The loop.** -/
lemma foldlM_addWire_ok_iff {p p' : Progress} {ws : List Wire} : ws.foldlM addWire p = .ok p' ↔
    (∀ w ∈ ws, OneEnd w) ∧ (∀ w ∈ ws, PeerAccepted w) ∧ (ws.map localIntf).Nodup ∧
      (∀ w ∈ ws, localIntf w ∉ p.seen) ∧ ws.foldl Progress.add p = p' := by
  induction ws generalizing p with
  | nil => simp [pure, Except.pure]
  | cons w ws ih =>
    rw [foldlM_cons_ok_iff]
    have hseen : (∀ v ∈ ws, localIntf v ∉ (p.add w).seen) ↔
        localIntf w ∉ ws.map localIntf ∧ ∀ v ∈ ws, localIntf v ∉ p.seen := by
      simp only [Progress.add, List.mem_cons, not_or, List.mem_map, not_exists, not_and]
      exact forall₂_and
    simp only [addWire_ok_iff, ih, List.forall_mem_cons, List.map_cons, List.nodup_cons,
      List.foldl_cons]
    constructor
    · rintro ⟨u, ⟨hone, hpeer, hnew, rfl⟩, hones, hpeers, hnd, hrest, rfl⟩
      rw [hseen] at hrest
      exact ⟨⟨hone, hones⟩, ⟨hpeer, hpeers⟩, ⟨hrest.1, hnd⟩, ⟨hnew, hrest.2⟩, rfl⟩
    · rintro ⟨⟨hone, hones⟩, ⟨hpeer, hpeers⟩, ⟨hw, hnd⟩, ⟨hnew, hrest⟩, rfl⟩
      exact ⟨p.add w, ⟨hone, hpeer, hnew, rfl⟩, hones, hpeers, hnd, hseen.mpr ⟨hw, hrest⟩, rfl⟩

lemma foldl_add (p : Progress) (ws : List Wire) :
    (ws.foldl Progress.add p).serves = p.serves ++ ws.filterMap servedOf ∧
      (ws.foldl Progress.add p).procs = p.procs ++ ws.filterMap clientOf := by
  induction ws generalizing p with
  | nil => simp
  | cons w ws ih =>
    rw [List.foldl_cons, (ih _).1, (ih _).2]
    cases hs : servedOf w <;> cases hc : clientOf w <;> simp [Progress.add, hs, hc]

/-! ### What the plan is -/

/-- The wires that `wirePlan` accepts. -/
structure Plannable (ws : List Wire) : Prop where
  oneEnd : ∀ w ∈ ws, OneEnd w
  peers : ∀ w ∈ ws, PeerAccepted w
  nodup : (ws.map localIntf).Nodup

/-- The processes for the wires: the server, if a wire is dialled, and the clients in order. -/
def planOf (ws : List Wire) : List BridgeProcess :=
  (if ∃ w ∈ ws, w.z.intf ≠ "" then [serverProcess] else []) ++ ws.filterMap clientOf

lemma wirePlan_ok_iff {ws : List Wire} {procs : List BridgeProcess} :
    wirePlan ws = .ok procs ↔ Plannable ws ∧ planOf ws = procs := by
  have hserves : (ws.filterMap servedOf ≠ []) ↔ ∃ w ∈ ws, w.z.intf ≠ "" := by
    simp [servedOf, List.filterMap_eq_nil_iff]
  have hplan : (if (ws.foldl Progress.add {}).serves ≠ [] then
      serverProcess :: (ws.foldl Progress.add {}).procs else (ws.foldl Progress.add {}).procs) =
      planOf ws := by
    rw [(foldl_add {} ws).1, (foldl_add {} ws).2, List.nil_append, List.nil_append, planOf]
    simp only [hserves]
    split_ifs <;> rfl
  unfold wirePlan
  rw [bind_ok_iff]
  constructor
  · rintro ⟨p, hp, hret⟩
    obtain ⟨hone, hpeers, hnd, -, rfl⟩ := foldlM_addWire_ok_iff.mp hp
    exact ⟨⟨hone, hpeers, hnd⟩, hplan.symm.trans (Except.ok.inj hret)⟩
  · rintro ⟨⟨hone, hpeers, hnd⟩, rfl⟩
    refine ⟨_, foldlM_addWire_ok_iff.mpr ⟨hone, hpeers, hnd, by simp, rfl⟩, ?_⟩
    exact congrArg Except.ok hplan

/-! ### Containers -/

lemma containerNames_eq (node : String) (args : List String) (plan : List BridgeProcess) :
    containerNames node args plan =
      node :: (plan.map BridgeProcess.nameSuffix).tail.map fun suffix => node ++ "-" ++ suffix := by
  cases plan with
  | nil => rfl
  | cons p ps =>
    have hidx : ((ps.map fun q => ({ q with args := q.args ++ args } : BridgeProcess)).mapIdx
        fun _ q => node ++ "-" ++ q.nameSuffix) = ps.map fun q => node ++ "-" ++ q.nameSuffix := by
      refine List.ext_getElem? fun i => ?_
      simp [Function.comp_def]
    simp [containerNames, podProcs, List.mapIdx_cons, Function.comp_def, hidx]

lemma containerNames_forwardPlan {ws : List Wire} {plan : List BridgeProcess} {pb : Proto}
    (hplan : wirePlan ws = .ok plan)
    (hpb : pb.config.vendorData =
      some (.forward ((wirePlan ws).map fun plan => plan.map BridgeProcess.nameSuffix)))
    (args : List String) : ∃ others, forwardPlan pb = .ok others ∧
      containerNames pb.name args plan = pb.name :: others := by
  refine ⟨_, ?_, containerNames_eq pb.name args plan⟩
  simp [forwardPlan, hpb, hplan, Except.map]

lemma nameSuffix_clientOf {w : Wire} {proc : BridgeProcess} (h : clientOf w = some proc) :
    proc.nameSuffix = "client-" ++ localIntf w := by
  unfold clientOf at h
  split_ifs at h with ha
  split at h
  · cases h
  · obtain rfl := Option.some.inj h
    simp [clientProcess, localIntf, ha]

lemma nodup_clients {ws : List Wire} (h : (ws.map localIntf).Nodup) :
    ((ws.filterMap clientOf).map BridgeProcess.nameSuffix).Nodup := by
  induction ws with
  | nil => simp
  | cons w ws ih =>
    obtain ⟨hw, hnd⟩ := List.nodup_cons.mp h
    cases hc : clientOf w with
    | none => simpa [hc] using ih hnd
    | some proc =>
      rw [List.filterMap_cons_some hc, List.map_cons, List.nodup_cons]
      refine ⟨fun hmem => ?_, ih hnd⟩
      obtain ⟨proc', hproc', hsame⟩ := List.mem_map.mp hmem
      obtain ⟨w', hw', hc'⟩ := List.mem_filterMap.mp hproc'
      rw [nameSuffix_clientOf hc, nameSuffix_clientOf hc', String.append_right_inj] at hsame
      exact hw (hsame ▸ List.mem_map_of_mem hw')

lemma nodup_tail_planOf {ws : List Wire} (h : (ws.map localIntf).Nodup) :
    ((planOf ws).map BridgeProcess.nameSuffix).tail.Nodup := by
  unfold planOf
  split_ifs
  · exact nodup_clients h
  · exact (nodup_clients h).tail

lemma nodup_containerNames {ws : List Wire} (h : (ws.map localIntf).Nodup) (node : String)
    (args : List String) : (containerNames node args (planOf ws)).Nodup := by
  rw [containerNames_eq, List.nodup_cons]
  constructor
  · intro hmem
    obtain ⟨suffix, -, hname⟩ := List.mem_map.mp hmem
    have hlen := congrArg String.length hname
    simp only [String.length_append] at hlen
    have hdash : "-".length = 1 := rfl
    omega
  · refine (nodup_tail_planOf h).map fun a b hab => ?_
    exact (String.append_right_inj (node ++ "-")).mp hab

/-- The process dials the peer of the wire for the interface of the wire, and asks for the interface
of the same name if the peer names none. -/
def Dials (w : Wire) (proc : BridgeProcess) : Prop :=
  ∃ addr remote, peerEndpoint w.z = .ok (addr, remote) ∧
    proc.nameSuffix = "client-" ++ w.a.intf ∧
    proc.args = ["client", "--peer=" ++ addr, "--interface=" ++ w.a.intf,
      "--remote_interface=" ++ if remote = "" then w.a.intf else remote]

lemma forall₂_clients {ws : List Wire} (h : ∀ w ∈ ws, PeerAccepted w) :
    List.Forall₂ Dials (ws.filter fun w => w.a.intf ≠ "") (ws.filterMap clientOf) := by
  induction ws with
  | nil => exact .nil
  | cons w ws ih =>
    obtain ⟨hw, hws⟩ := List.forall_mem_cons.mp h
    by_cases ha : w.a.intf = ""
    · have hc : clientOf w = none := if_pos ha
      rw [List.filter_cons_of_neg (by simp [ha]), List.filterMap_cons_none hc]
      exact ih hws
    · obtain ⟨⟨addr, remote⟩, hpeer⟩ := hw ha
      have hc : clientOf w =
          some (clientProcess w.a.intf addr (if remote = "" then w.a.intf else remote)) := by
        simp only [clientOf, if_neg ha, hpeer]
      rw [List.filter_cons_of_pos (by simp [ha]), List.filterMap_cons_some hc]
      exact .cons ⟨addr, remote, hpeer, rfl, rfl⟩ (ih hws)

/-- **The plan of a Forward node.** There is a plan just if every wire has one end that is an
interface, no interface has two wires and every wire that dials out has a peer. The plan is then
the server, if a wire is dialled, and for each wire that dials out, in order, a client that dials
its peer for its interface. The containers of the pod, which the model of `CreatePod` makes of the
plan too, have different names. -/
theorem wirePlan_exact (ws : List Wire) :
    ((∃ procs, wirePlan ws = .ok procs) ↔ Plannable ws) ∧
      ∀ procs, wirePlan ws = .ok procs →
        (∃ clients, procs = (if ∃ w ∈ ws, w.z.intf ≠ "" then [⟨"server", ["server"]⟩] else []) ++
            clients ∧
          List.Forall₂ Dials (ws.filter fun w => w.a.intf ≠ "") clients) ∧
        (∀ node args, (containerNames node args procs).Nodup) ∧
        ∀ (pb : Proto) args, pb.config.vendorData =
            some (.forward ((wirePlan ws).map fun plan => plan.map BridgeProcess.nameSuffix)) →
          ∃ others, forwardPlan pb = .ok others ∧
            containerNames pb.name args procs = pb.name :: others := by
  constructor
  · constructor
    · rintro ⟨procs, h⟩
      exact (wirePlan_ok_iff.mp h).1
    · intro h
      exact ⟨planOf ws, wirePlan_ok_iff.mpr ⟨h, rfl⟩⟩
  · intro procs h
    refine ⟨?_, ?_, fun pb args hpb => containerNames_forwardPlan h hpb args⟩
    · obtain ⟨hws, rfl⟩ := wirePlan_ok_iff.mp h
      exact ⟨ws.filterMap clientOf, rfl, forall₂_clients hws.peers⟩
    · obtain ⟨hws, rfl⟩ := wirePlan_ok_iff.mp h
      exact fun node args => nodup_containerNames hws.nodup node args

/-- A wire to a node of the topology, one that is dialled, and one to another host. -/
def threeWires : List Wire :=
  [⟨.interface "eth1", .localNode "r2" ""⟩, ⟨.remoteNode "10.0.0.9" "", .interface "eth2"⟩,
    ⟨.interface "eth3", .remoteNode "10.0.0.7:6000" "eth7"⟩]

def threeProcs : List BridgeProcess :=
  [⟨"server", ["server"]⟩,
    ⟨"client-eth1", ["client", "--peer=r2:50058", "--interface=eth1", "--remote_interface=eth1"]⟩,
    ⟨"client-eth3",
      ["client", "--peer=10.0.0.7:6000", "--interface=eth3", "--remote_interface=eth7"]⟩]

theorem threeWires_plan :
    wirePlan threeWires = .ok threeProcs ∧ Plannable threeWires ∧
      (containerNames "fwd" [] threeProcs).Nodup := by
  have hplan : wirePlan threeWires = .ok threeProcs := by decide +kernel
  obtain ⟨hiff, hexact⟩ := wirePlan_exact threeWires
  exact ⟨hplan, hiff.mp ⟨_, hplan⟩, (hexact _ hplan).2.1 "fwd" []⟩

end Kne.WirePlan
