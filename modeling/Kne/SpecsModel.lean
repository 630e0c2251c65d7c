import Kne.Sweep
import Kne.TopoModel

/-!
The meshnet resources of a loaded topology: `GetNodeLinks` and `Impl.TopologySpecs` in
`topo/node/node.go`, `setLinkPeer` and `Manager.topologySpecs` in `topo/topo.go`.

The nodes name the node at the other end of a link, and meshnet wants the pod; `topologySpecs`
replaces the one by the other in place, link after link, while it looks for the peers in the same
specs. Its three nested loops are one loop over the positions of the links, in any order of the
nodes.
-/

namespace Kne.SpecsModel

open Kne.TopoModel Kne.Sweep

/-! ### The specs of a node -/

/-- What `GetNodeLinks` makes of an interface; the management interface is ignored. -/
def nodeLink (ifcName : String) (ifc : Interface) : Except String (Option SpecLink) :=
  if ifcName = "eth0" then .ok none
  else if ifc.peerIntName = "" then
    .error ("interface " ++ ifcName.quote ++ " PeerIntName cannot be empty")
  else if ifc.peerName = "" then
    .error ("interface " ++ ifcName.quote ++ " PeerName cannot be empty")
  else .ok (some {
    uid := ifc.uid
    localIntf := ifcName
    peerIntf := ifc.peerIntName
    peerPod := ifc.peerName
    mtu := ifc.mtu })

/-- One turn of the loop of `GetNodeLinks`. -/
def addNodeLink (n : Node) (links : List SpecLink) (ifcName : String) :
    Except String (List SpecLink) :=
  match n.interfaces.lookup ifcName with
  | none => .ok links
  | some ifc => (nodeLink ifcName ifc).map fun link => links ++ link.toList

def getNodeLinks (o : Order) (n : Node) : Except String (List SpecLink) :=
  (o.keys n.interfaces.keys).foldlM (addNodeLink n) []

/-- `Impl.TopologySpecs`: one resource for the node. -/
def implTopologySpecs (o : Order) (n : Node) : Except String (List Spec) :=
  (getNodeLinks o n).map fun links => [{ name := n.name, links := links }]

/-! ### Peers -/

abbrev NodeSpecs := AList (fun _ : String => List Spec)

inductive SpecErr
  | fetch (node err : String)
  | noSpecs (node : String)
  | noPeer (node pod : String) (uid : ℤ)
  deriving DecidableEq, Repr

def SpecErr.text : SpecErr → String
  | .fetch node err => "could not fetch topology specs for node " ++ node ++ ": " ++ err
  | .noSpecs node => "specs do not exist for node " ++ node
  | .noPeer node pod uid => "could not find peer for node " ++ node ++ " pod " ++ pod ++
    " link UID " ++ toString uid

/-- The entries belong to the same link but are not the same interface. -/
def isPeer (nodeName : String) (link peerLink : SpecLink) : Bool :=
  peerLink.uid = link.uid && !(nodeName = link.peerPod && peerLink.localIntf = link.localIntf)

def setLinkPeer (nodeName podName : String) (link : SpecLink) :
    List Spec → Except SpecErr SpecLink
  | [] => .error (.noPeer nodeName podName link.uid)
  | peerSpec :: peerSpecs =>
    match peerSpec.links.find? (isPeer nodeName link) with
    | some peerLink => .ok { link with peerPod := peerSpec.name, peerIntf := peerLink.localIntf }
    | none => setLinkPeer nodeName podName link peerSpecs

/-- The position of a link: its node, the spec of the node and the link of the spec. -/
structure Pos where
  node : String
  spec : ℕ
  link : ℕ
  deriving DecidableEq, Repr

def specAt (m : NodeSpecs) (p : Pos) : Option Spec := (m.lookup p.node).bind (·[p.spec]?)

def linkAt (m : NodeSpecs) (p : Pos) : Option SpecLink := (specAt m p).bind (·.links[p.link]?)

def setLink (m : NodeSpecs) (p : Pos) (link : SpecLink) : NodeSpecs :=
  match m.lookup p.node with
  | none => m
  | some specs => m.insert p.node (specs.modify p.spec fun spec =>
      { spec with links := spec.links.set p.link link })

/-- The body of the loops, for a link. -/
def resolve (m : NodeSpecs) (p : Pos) (link : SpecLink) : Except SpecErr SpecLink :=
  match m.lookup link.peerPod with
  | none => .error (.noSpecs link.peerPod)
  | some peerSpecs => setLinkPeer p.node ((specAt m p).elim "" Spec.name) link peerSpecs

def resolveAt (m : NodeSpecs) (p : Pos) : Except SpecErr NodeSpecs :=
  match linkAt m p with
  | none => .ok m
  | some link => (resolve m p link).map (setLink m p)

/-- The positions the loops go through. -/
def positions (m : NodeSpecs) (nodes : List String) : List Pos :=
  nodes.flatMap fun n => ((m.lookup n).getD []).zipIdx.flatMap fun si =>
    (List.range si.1.links.length).map fun j => ⟨n, si.2, j⟩

/-- One turn of the loop that collects the specs of the nodes. -/
def fetch (nodes : AList (fun _ : String => Impl)) (m : NodeSpecs) (k : String) :
    Except SpecErr NodeSpecs :=
  match nodes.lookup k with
  | none => .ok m
  | some n =>
    match n.topologySpecs with
    | .error err => .error (.fetch n.proto.name err)
    | .ok specs => .ok (m.insert n.proto.name specs)

def collect (o : Order) (nodes : AList (fun _ : String => Impl)) : Except SpecErr NodeSpecs :=
  (o.keys nodes.keys).foldlM (fetch nodes) ∅

def topologySpecs (o o' : Order) (nodes : AList (fun _ : String => Impl)) :
    Except SpecErr (List Spec) := do
  let m ← collect o nodes
  let m' ← (positions m (o'.keys m.keys)).foldlM resolveAt m
  return (o'.keys m.keys).flatMap fun n => (m'.lookup n).getD []

/-! ### Links in place -/

lemma lookup_setLink (m : NodeSpecs) (p : Pos) (link : SpecLink) (n : String) :
    (setLink m p link).lookup n = if n = p.node then
      (m.lookup n).map fun specs => specs.modify p.spec fun spec =>
        { spec with links := spec.links.set p.link link }
      else m.lookup n := by
  unfold setLink
  by_cases hn : n = p.node
  · subst hn
    cases h : m.lookup p.node with
    | none => simp [h]
    | some specs => simp
  · cases h : m.lookup p.node with
    | none => simp [hn]
    | some specs => simp [hn, AList.lookup_insert_ne hn]

lemma linkAt_setLink_self {m : NodeSpecs} {p : Pos} {a : SpecLink} (link : SpecLink)
    (h : linkAt m p = some a) : linkAt (setLink m p link) p = some link := by
  unfold linkAt specAt at h ⊢
  obtain ⟨spec, hspec, ha⟩ := Option.bind_eq_some_iff.mp h
  obtain ⟨specs, hspecs, hget⟩ := Option.bind_eq_some_iff.mp hspec
  obtain ⟨hlt, -⟩ := List.getElem?_eq_some_iff.mp ha
  simp [lookup_setLink, hspecs, hget, hlt]

lemma linkAt_setLink_ne {m : NodeSpecs} {p q : Pos} (link : SpecLink) (hne : q ≠ p) :
    linkAt (setLink m p link) q = linkAt m q := by
  unfold linkAt specAt
  rw [lookup_setLink]
  by_cases hn : q.node = p.node
  · rw [if_pos hn]
    cases h : m.lookup q.node with
    | none => rfl
    | some specs =>
      simp only [Option.map_some, Option.bind_some, List.getElem?_modify]
      by_cases hs : p.spec = q.spec
      · have hl : p.link ≠ q.link := by
          intro hl
          apply hne
          cases p
          cases q
          simp_all
        cases specs[q.spec]? with
        | none => rfl
        | some spec => simp [hs, List.getElem?_set_ne hl]
      · simp [hs]
  · rw [if_neg hn]

/-- What peers are looked up by: pods, uids and local interfaces. -/
def skel (specs : List Spec) : List (String × List (ℤ × String)) :=
  specs.map fun s => (s.name, s.links.map fun l => (l.uid, l.localIntf))

def view (m : NodeSpecs) (n : String) : Option (List (String × List (ℤ × String))) :=
  (m.lookup n).map skel

lemma view_setLink {m : NodeSpecs} {p : Pos} {a link : SpecLink} (h : linkAt m p = some a)
    (hu : link.uid = a.uid) (hl : link.localIntf = a.localIntf) :
    view (setLink m p link) = view m := by
  obtain ⟨spec, hspec, ha⟩ := Option.bind_eq_some_iff.mp h
  obtain ⟨specs, hspecs, hget⟩ := Option.bind_eq_some_iff.mp hspec
  funext n
  unfold view
  rw [lookup_setLink]
  by_cases hn : n = p.node
  · subst hn
    rw [if_pos rfl, hspecs, Option.map_some, Option.map_some, Option.map_some]
    congr 1
    unfold skel
    refine List.ext_getElem? fun i => ?_
    rw [List.getElem?_map, List.getElem?_map, List.getElem?_modify]
    by_cases hi : p.spec = i
    · subst hi
      simp only [hget, if_true, Option.map_eq_map, Option.map_some, Option.some.injEq,
        Prod.mk.injEq, true_and]
      refine List.ext_getElem? fun j => ?_
      rw [List.getElem?_map, List.getElem?_map, List.getElem?_set]
      by_cases hj : p.link = j
      · subst hj
        obtain ⟨hlt, rfl⟩ := List.getElem?_eq_some_iff.mp ha
        simp [hlt, hu, hl]
      · simp [hj]
    · simp [hi]
  · rw [if_neg hn]

end Kne.SpecsModel
