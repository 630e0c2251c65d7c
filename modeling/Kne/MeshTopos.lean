import Kne.Backrefs

/-!
The topology cache of the meshnet daemon (`third_party/meshnet/daemon/meshnet/controller.go`):
Topology resources under the keys `namespace/name`, and the inverted index from a pod to the pods
that declare a link to it, which says who has to be reconciled when a pod changes.
-/

namespace Kne.MeshTopos

open Kne.Backrefs

/-- An entry of `spec.links`. -/
structure Link where
  peerPod : String
  localIntf : String
  localIP : String := ""
  peerIntf : String
  peerIP : String := ""
  uid : ℤ
  mtu : ℤ := 0
  deriving DecidableEq, Repr

/-- A Topology resource: the pod, its `status.src_ip` and `status.net_ns`, and its links. -/
structure Topology where
  ns : String
  name : String
  srcIP : String := ""
  netNS : String := ""
  links : List Link := []
  deriving DecidableEq, Repr

/-- `isPodActive`. -/
def isPodActive (t : Topology) : Bool := t.srcIP ≠ "" ∧ t.netNS ≠ ""

/-- The pod is active, and on the node of the daemon. A daemon that does not know the address of
its node takes every active pod for its own. -/
def isLocal (nodeIP : String) (t : Topology) : Bool :=
  isPodActive t ∧ (nodeIP = "" ∨ t.srcIP = nodeIP)

structure PodLinkConfig where
  podName : String
  peerPodName : String
  linkUID : ℤ
  kubeNs : String
  localIntf : String
  localIP : String
  peerIntf : String
  peerIP : String
  mtu : ℤ
  deriving DecidableEq, Repr

def parsePodLinks (t : Topology) : List PodLinkConfig :=
  t.links.map fun l =>
    { podName := t.name, peerPodName := l.peerPod, linkUID := l.uid, kubeNs := t.ns,
      localIntf := l.localIntf, localIP := l.localIP, peerIntf := l.peerIntf, peerIP := l.peerIP,
      mtu := l.mtu }

/-! ### Keys -/

/-- `fmt.Sprintf("%s/%s", ns, name)`. -/
def mkKey (ns name : String) : String := ns ++ "/" ++ name

/-- `strings.SplitN(key, "/", 2)`, with an empty namespace for a key without a slash. -/
def parseKey (key : String) : String × String :=
  match key.toList.dropWhile (· ≠ '/') with
  | [] => ("", key)
  | _ :: name => (String.ofList (key.toList.takeWhile (· ≠ '/')), String.ofList name)

def Topology.key (t : Topology) : String := mkKey t.ns t.name

lemma slash_mem_mkKey (ns name : String) : '/' ∈ (mkKey ns name).toList := by
  simp [mkKey]

lemma mkKey_parseKey {key : String} (h : '/' ∈ key.toList) :
    mkKey (parseKey key).1 (parseKey key).2 = key := by
  obtain ⟨ns, name, hkey, hns⟩ := List.eq_append_cons_of_mem h
  have hfree : ∀ c ∈ ns, decide (c ≠ '/') = true := by
    intro c hc
    exact decide_eq_true (ne_of_mem_of_not_mem hc hns)
  have hdrop : key.toList.dropWhile (· ≠ '/') = '/' :: name := by
    rw [hkey, List.dropWhile_append_of_pos hfree]
    simp
  have htake : key.toList.takeWhile (· ≠ '/') = ns := by
    rw [hkey, List.takeWhile_append_of_pos hfree]
    simp
  apply String.toList_injective
  rw [parseKey, hdrop, htake]
  simp [mkKey, hkey]

/-! ### The cache -/

/-- The keys of the pods to which a topology declares links. -/
def peerKeys (t : Topology) : List String :=
  (parsePodLinks t).map fun l => mkKey l.kubeNs l.peerPodName

abbrev TopologyCache := Index String Topology

namespace TopologyCache

def put (c : TopologyCache) (t : Topology) : TopologyCache := Index.put peerKeys c t.key t

def delete (c : TopologyCache) (ns name : String) : TopologyCache :=
  Index.delete peerKeys c (mkKey ns name)

def get (c : TopologyCache) (ns name : String) : Option Topology :=
  c.items.lookup (mkKey ns name)

/-- `List` for all namespaces. -/
def list (c : TopologyCache) : List Topology := c.items.entries.map fun e => e.2

def getDependents (c : TopologyCache) (ns name : String) : List String := c.back (mkKey ns name)

end TopologyCache

inductive CacheOp
  | put (t : Topology)
  | delete (ns name : String)
  deriving DecidableEq, Repr

def CacheOp.apply (c : TopologyCache) : CacheOp → TopologyCache
  | .put t => TopologyCache.put c t
  | .delete ns name => TopologyCache.delete c ns name

/-- The key that an operation is about. -/
def CacheOp.key : CacheOp → String
  | .put t => t.key
  | .delete ns name => mkKey ns name

/-- What an operation leaves under its key. -/
def CacheOp.value : CacheOp → Option Topology
  | .put t => some t
  | .delete _ _ => none

/-- What an operation leaves under a key, given what was there. -/
def CacheOp.leaves (key : String) (old : Option Topology) (op : CacheOp) : Option Topology :=
  if key = op.key then op.value else old

/-- What the last operation on a key has left there. -/
def latest (ops : List CacheOp) (key : String) : Option Topology :=
  ops.foldl (CacheOp.leaves key) none

variable {c : TopologyCache} {ops : List CacheOp}

lemma lookup_apply (op : CacheOp) (key : String) :
    (op.apply c).items.lookup key = op.leaves key (c.items.lookup key) := by
  cases op with
  | put t => exact Index.lookup_put
  | delete ns name => exact Index.lookup_delete

lemma exact_apply (h : Index.Exact peerKeys c) (op : CacheOp) :
    Index.Exact peerKeys (op.apply c) := by
  cases op with
  | put t => exact h.put _ _
  | delete ns name => exact h.delete _

lemma lookup_foldl (key : String) :
    (ops.foldl CacheOp.apply c).items.lookup key =
      ops.foldl (CacheOp.leaves key) (c.items.lookup key) := by
  induction ops generalizing c with
  | nil => rfl
  | cons op ops ih => rw [List.foldl_cons, List.foldl_cons, ih, lookup_apply]

lemma exact_foldl (h : Index.Exact peerKeys c) :
    Index.Exact peerKeys (ops.foldl CacheOp.apply c) := by
  induction ops generalizing c with
  | nil => exact h
  | cons op ops ih => exact ih (exact_apply h op)

lemma key_mem_peerKeys {t : Topology} {key : String} :
    key ∈ peerKeys t ↔ ∃ l ∈ t.links, mkKey t.ns l.peerPod = key := by
  simp [peerKeys, parsePodLinks]

/-- **The inverted index.** After any sequence of `Put` and `Delete`, `GetDependents` lists the pods
whose last operation was the `Put` of a topology with a link to the pod, and lists each once. -/
theorem getDependents_of_ops (ops : List CacheOp) (ns name : String) :
    let c := ops.foldl CacheOp.apply {}
    (c.getDependents ns name).Nodup ∧
      ∀ key, key ∈ c.getDependents ns name ↔
        ∃ t, latest ops key = some t ∧ ∃ l ∈ t.links, mkKey t.ns l.peerPod = mkKey ns name := by
  have hexact : Index.Exact peerKeys (ops.foldl CacheOp.apply {}) := exact_foldl Index.exact_empty
  refine ⟨hexact.nodup _, fun key => ?_⟩
  rw [TopologyCache.getDependents, hexact.mem, lookup_foldl]
  simp only [key_mem_peerKeys]
  rfl

end Kne.MeshTopos
