import Mathlib.Data.String.Basic
import Kne.Interrupts
import Kne.MeshTopos
import Kne.Runs

/-!
The veth pairs of the links between pods of one node (`utils/wireutil/veth.go`).

`ConfigurePodLinks` works for one pod. It makes the pair of a link on the host, under names that
both pods compute, and moves its own end into the pod; the other end waits on the host until the
other pod is configured. In the pod an end keeps its name from the host until it is renamed. Nothing
is remembered: a pass that is interrupted is made again, and goes by the names that it finds.

The state of the kernel is kept as far as the calls of netlink see it: veth devices with their
namespaces and names, in which a name is taken once, and a device goes when the other end does. What
netlink and the kernel answer is a parameter, `Linux`, with the documented behaviour of each call
for names, MTUs and namespaces that are accepted. A call may also fail for a reason of its own.
-/

namespace Kne.VethModel

open Kne.Interrupts Kne.MeshTopos

/-! ### The names on the host -/

/-- `fnv.New32a`. -/
def fnv32a (bytes : List UInt8) : UInt32 :=
  bytes.foldl (fun h b => (h ^^^ b.toUInt32) * 16777619) 2166136261

/-- `%08x`. -/
def hex8 (n : UInt32) : String :=
  let digits := Nat.toDigits 16 n.toNat
  String.ofList (List.replicate (8 - digits.length) '0' ++ digits)

def hostVethNames (kubeNs podName peerPodName : String) (linkUID : ℤ) : String × String :=
  let pods := if peerPodName < podName then (peerPodName, podName) else (podName, peerPodName)
  let text := kubeNs ++ "/" ++ pods.1 ++ "/" ++ pods.2 ++ "/" ++ toString linkUID
  let sum := fnv32a text.toUTF8.data.toList
  let side0 := "vnm-" ++ hex8 sum ++ "-0"
  let side1 := "vnm-" ++ hex8 sum ++ "-1"
  if podName = pods.1 then (side0, side1) else (side1, side0)

def localHostName (cfg : PodLinkConfig) : String :=
  (hostVethNames cfg.kubeNs cfg.podName cfg.peerPodName cfg.linkUID).1

def peerHostName (cfg : PodLinkConfig) : String :=
  (hostVethNames cfg.kubeNs cfg.podName cfg.peerPodName cfg.linkUID).2

/-! ### The kernel -/

/-- One end of a veth pair. The host is the namespace `none`. -/
structure Device where
  pair : ℕ
  side : Bool
  netns : Option String
  name : String
  mtu : ℤ
  up : Bool := false
  addrs : List String := []
  deriving DecidableEq, Repr

structure Kernel where
  devices : List Device := []
  /-- The next pair. -/
  next : ℕ := 0
  deriving DecidableEq, Repr

namespace Kernel

def find (k : Kernel) (netns : Option String) (name : String) : Option Device :=
  k.devices.find? fun d => d.netns = netns ∧ d.name = name

/-- The device as it is now, found by its index in the namespace. -/
def get (k : Kernel) (netns : Option String) (d : Device) : Option Device :=
  k.devices.find? fun d' => d'.pair = d.pair ∧ d'.side = d.side ∧ d'.netns = netns

def add (k : Kernel) (name peerName : String) (mtu : ℤ) : Kernel where
  devices := ⟨k.next, false, none, name, mtu, false, []⟩ ::
    ⟨k.next, true, none, peerName, mtu, false, []⟩ :: k.devices
  next := k.next + 1

def update (k : Kernel) (d : Device) (f : Device → Device) : Kernel :=
  { k with devices := k.devices.map fun d' =>
      if d'.pair = d.pair ∧ d'.side = d.side then f d' else d' }

/-- A pair goes with both of its ends. -/
def remove (k : Kernel) (pair : ℕ) : Kernel :=
  { k with devices := k.devices.filter fun d => d.pair ≠ pair }

end Kernel

/-! ### The calls -/

inductive Errno
  | notFound | fileExists | noDevice | busy | invalid | other
  deriving DecidableEq, Repr

def Errno.text : Errno → String
  | .notFound => "Link not found"
  | .fileExists => "file exists"
  | .noDevice => "no such device"
  | .busy => "device or resource busy"
  | .invalid => "invalid argument"
  | .other => "input/output error"

inductive Call
  | getNS (netns : String)
  | linkList (netns : String)
  | linkByName (netns : Option String) (name : String)
  | linkAdd (name peerName : String) (mtu : ℤ)
  | linkSetNsFd (link : Device) (netns : String)
  | linkSetName (netns : String) (link : Device) (name : String)
  | linkDel (netns : String) (link : Device)
  | linkSetUp (netns : String) (link : Device)
  | addrAdd (netns : String) (link : Device) (addr : String)

/-- What a call that succeeds returns. -/
abbrev Value : Call → Type
  | .linkList _ => List String
  | .linkByName _ _ => Device
  | _ => Unit

abbrev Reply (c : Call) : Type := Except Errno (Value c)

/-- The answers of netlink and of the kernel. Which names, MTUs and namespaces are accepted is up to
them, and so is which devices a namespace has besides veth ends, such as `lo` and the `eth0` of a
pod. Nothing is said of a call with something that is not accepted, or about such a device. -/
structure Linux where
  perform : (c : Call) → Kernel → Reply c × Kernel
  ValidName : String → Prop
  ValidMTU : ℤ → Prop
  /-- The namespace is there. -/
  Opens : String → Prop
  /-- The namespace has another device of this name. -/
  Other : Option String → String → Prop
  getNS {netns : String} (k : Kernel) (h : Opens netns) : perform (.getNS netns) k = (.ok (), k)
  linkList {netns : String} (k : Kernel) (h : Opens netns) :
    ∃ names, perform (.linkList netns) k = (.ok names, k) ∧ ∀ name, name ∈ names ↔
      Other (some netns) name ∨ ∃ d ∈ k.devices, d.netns = some netns ∧ d.name = name
  linkByName {netns : Option String} {name : String} (k : Kernel) (h : ¬ Other netns name) :
    perform (.linkByName netns name) k =
      ((k.find netns name).elim (.error .notFound) .ok, k)
  linkAdd {name peerName : String} {mtu : ℤ} (k : Kernel) (hname : ValidName name)
    (hpeer : ValidName peerName) (hmtu : ValidMTU mtu) (hother : ¬ Other none name)
    (hother' : ¬ Other none peerName) (hne : name ≠ peerName) :
    perform (.linkAdd name peerName mtu) k =
      if (k.find none name).isSome ∨ (k.find none peerName).isSome then (.error .fileExists, k)
      else (.ok (), k.add name peerName mtu)
  linkSetNsFd {link d : Device} {netns : String} {k : Kernel} (h : k.get none link = some d)
    (hopens : Opens netns) (hother : ¬ Other (some netns) d.name) :
    perform (.linkSetNsFd link netns) k =
      if (k.find (some netns) d.name).isSome then (.error .fileExists, k)
      -- the device is down in its new namespace, without addresses
      else (.ok (), k.update link fun d => { d with netns := some netns, up := false, addrs := [] })
  linkSetNsFd_gone {link : Device} {netns : String} {k : Kernel} (h : k.get none link = none) :
    perform (.linkSetNsFd link netns) k = (.error .noDevice, k)
  /-- Of a device that is up nothing is said: some kernels do not rename it. -/
  linkSetName {link d : Device} {netns name : String} {k : Kernel}
    (h : k.get (some netns) link = some d) (hdown : d.up = false) (hname : ValidName name)
    (hother : ¬ Other (some netns) name) :
    perform (.linkSetName netns link name) k =
      if (k.find (some netns) name).isSome then (.error .fileExists, k)
      else (.ok (), k.update link fun d => { d with name := name })
  linkSetName_gone {link : Device} {netns name : String} {k : Kernel}
    (h : k.get (some netns) link = none) :
    perform (.linkSetName netns link name) k = (.error .noDevice, k)
  linkDel {netns : String} (link : Device) (k : Kernel) :
    perform (.linkDel netns link) k =
      (k.get (some netns) link).elim (.error .noDevice, k) fun d => (.ok (), k.remove d.pair)
  linkSetUp {netns : String} (link : Device) (k : Kernel) :
    perform (.linkSetUp netns link) k = (k.get (some netns) link).elim (.error .noDevice, k)
      fun _ => (.ok (), k.update link fun d => { d with up := true })
  addrAdd {netns addr : String} (link : Device) (k : Kernel) :
    perform (.addrAdd netns link addr) k = (k.get (some netns) link).elim (.error .noDevice, k)
      fun d => if addr ∈ d.addrs then (.error .fileExists, k)
        else (.ok (), k.update link fun d => { d with addrs := addr :: d.addrs })

/-- A call that fails for a reason of its own has no effect. -/
def answer (L : Linux) : Option Errno → (c : Call) → Kernel → Reply c × Kernel
  | none, c, k => L.perform c k
  | some e, _, k => (.error e, k)

/-! ### ConfigurePodLinks -/

abbrev Netlink (α : Type) : Type := Prog Reply String α

def exec (c : Call) : Netlink (Reply c) := .call c .ret

def findAfterAdd (cfg : PodLinkConfig) : Netlink Device := do
  match ← exec (.linkByName none (localHostName cfg)) with
  | .ok link => pure link
  | .error err =>
    .fail ("failed to find host veth end " ++ localHostName cfg ++ " after LinkAdd: " ++ err.text)

def vethMTU (cfg : PodLinkConfig) : ℤ := if cfg.mtu ≤ 0 then 1500 else cfg.mtu

/-- The pair is made, unless its names are taken. -/
def addPair (cfg : PodLinkConfig) : Netlink Device := do
  match ← exec (.linkAdd (localHostName cfg) (peerHostName cfg) (vethMTU cfg)) with
  | .ok () | .error .fileExists => findAfterAdd cfg
  | .error err =>
    .fail ("failed to create host veth pair (" ++ localHostName cfg ++ ", " ++ peerHostName cfg ++
      "): " ++ err.text)

/-- The end on the host, made with its pair if it is not there. -/
def findOrAdd (cfg : PodLinkConfig) : Netlink Device := do
  match ← exec (.linkByName none (localHostName cfg)) with
  | .ok link => pure link
  | .error _ => addPair cfg

/-- The host pass for one link, with the names known to be in the pod. -/
def hostLink (podNsPath : String) (existing : List String) (cfg : PodLinkConfig) :
    Netlink (List String) :=
  if cfg.localIntf ∈ existing ∨ localHostName cfg ∈ existing then pure existing
  else do
    let link ← findOrAdd cfg
    match ← exec (.linkSetNsFd link podNsPath) with
    | .ok () => pure (localHostName cfg :: existing)
    | .error err =>
      .fail ("failed to move " ++ localHostName cfg ++ " into netns " ++ podNsPath ++ ": " ++
        err.text)

def locate (podNsPath : String) (cfg : PodLinkConfig) : Netlink Device := do
  match ← exec (.linkByName (some podNsPath) (localHostName cfg)) with
  | .ok link => pure link
  | .error _ =>
    match ← exec (.linkByName (some podNsPath) cfg.localIntf) with
    | .ok link => pure link
    | .error err =>
      .fail ("interface " ++ cfg.localIntf ++ " (or temp " ++ localHostName cfg ++
        ") not found inside netns " ++ podNsPath ++ ": " ++ err.text)

/-- The address may be there already. -/
def addAddr (podNsPath : String) (cfg : PodLinkConfig) (link : Device) (addr : String) :
    Netlink Unit := do
  match ← exec (.addrAdd podNsPath link addr) with
  | .ok () | .error .fileExists => pure ()
  | .error err =>
    .fail ("failed to add IP " ++ cfg.localIP ++ " to " ++ cfg.localIntf ++ " inside " ++
      podNsPath ++ ": " ++ err.text)

section

variable (parseAddr : String → Option String)

/-- The device comes up and gets its address. The length of its queue and the offloads, whose
failures are only logged, are left out. -/
def setUp (podNsPath : String) (cfg : PodLinkConfig) (link : Device) : Netlink Unit := do
  match ← exec (.linkSetUp podNsPath link) with
  | .error err =>
    .fail ("failed to set " ++ cfg.localIntf ++ " UP inside " ++ podNsPath ++ ": " ++ err.text)
  | .ok () =>
    if cfg.localIP = "" then pure ()
    else match parseAddr cfg.localIP with
      | none =>
        .fail ("invalid CIDR " ++ cfg.localIP.quote ++ " for " ++ cfg.localIntf ++
          ": invalid CIDR address: " ++ cfg.localIP)
      | some addr => addAddr podNsPath cfg link addr

/-- The pass in the pod for one link. -/
def configureLink (podNsPath : String) (cfg : PodLinkConfig) : Netlink Unit := do
  let link ← locate podNsPath cfg
  if link.name = cfg.localIntf then setUp parseAddr podNsPath cfg link
  else
    match ← exec (.linkSetName podNsPath link cfg.localIntf) with
    | .ok () => setUp parseAddr podNsPath cfg link
    -- the end that was found is taken for a stale one
    | .error .fileExists => do
      let _ ← exec (.linkDel podNsPath link)
      pure ()
    | .error err =>
      .fail ("failed to rename " ++ link.name ++ " -> " ++ cfg.localIntf ++ " inside " ++
        podNsPath ++ ": " ++ err.text)

def configurePodLinks (podNsPath : String) (links : List PodLinkConfig) : Netlink Unit :=
  if links = [] then pure ()
  else do
    match ← exec (.getNS podNsPath) with
    | .error err => .fail ("could not open netns " ++ podNsPath ++ ": " ++ err.text)
    | .ok () =>
      match ← exec (.linkList podNsPath) with
      | .error err => .fail ("failed to list links in netns " ++ podNsPath ++ ": " ++ err.text)
      | .ok existing =>
        let _ ← links.foldlM (hostLink podNsPath) existing
        links.foldlM (fun _ cfg => configureLink parseAddr podNsPath cfg) ()

/-- Passes that nobody interferes with, one after the other. -/
def passes (L : Linux) : List (String × List PodLinkConfig) → Kernel → Except String Kernel
  | [], k => .ok k
  | (podNsPath, links) :: jobs, k =>
    match (configurePodLinks parseAddr podNsPath links).run L.perform k with
    | (.ok (), k') => passes L jobs k'
    | (.error e, _) => .error e

end

/-! ### The links of a node -/

/-- The two ends of a link. -/
structure Mirror (c c' : PodLinkConfig) : Prop where
  pod : c'.podName = c.peerPodName
  peer : c'.peerPodName = c.podName
  uid : c'.linkUID = c.linkUID
  ns : c'.kubeNs = c.kubeNs

instance decidableMirror (c c' : PodLinkConfig) : Decidable (Mirror c c') :=
  decidable_of_iff (c'.podName = c.peerPodName ∧ c'.peerPodName = c.podName ∧
      c'.linkUID = c.linkUID ∧ c'.kubeNs = c.kubeNs)
    ⟨fun h => ⟨h.1, h.2.1, h.2.2.1, h.2.2.2⟩, fun h => ⟨h.pod, h.peer, h.uid, h.ns⟩⟩

/-- What a pass asks of the kernel for a link is accepted: the names of the end, its MTU and the
namespace of its pod, in which no other device has one of the names. -/
structure Linux.Accepts (L : Linux) (netns : String) (c : PodLinkConfig) : Prop where
  intf : L.ValidName c.localIntf
  host : L.ValidName (localHostName c)
  mtu : L.ValidMTU (vethMTU c)
  opens : L.Opens netns
  intf_own : ¬ L.Other (some netns) c.localIntf
  host_own : ¬ L.Other (some netns) (localHostName c)
  host_free : ¬ L.Other none (localHostName c)

/-- The links between the pods of a node, with the namespace that each pod has throughout. Every
link is there at both of its pods, with one MTU, and no pod is linked to itself. The names on the
host are told apart by their hashes, an interface has its name for itself in its pod, and none is
called like an end on the host. Addresses can be parsed, and the kernel accepts all that is asked of
it. -/
structure Plan (L : Linux) (parseAddr : String → Option String) where
  links : List PodLinkConfig
  netns : String → String → String
  mirror : ∀ c ∈ links, ∃ c' ∈ links, Mirror c c'
  apart : ∀ c ∈ links, c.podName ≠ c.peerPodName
  mtu : ∀ c ∈ links, ∀ c' ∈ links, Mirror c c' → c'.mtu = c.mtu
  host : ∀ c ∈ links, ∀ c' ∈ links, localHostName c = localHostName c' → c = c'
  intf : ∀ c ∈ links, ∀ c' ∈ links, netns c.kubeNs c.podName = netns c'.kubeNs c'.podName →
    c.localIntf = c'.localIntf → c = c'
  fresh : ∀ c ∈ links, ∀ c' ∈ links, c.localIntf ≠ localHostName c'
  addr : ∀ c ∈ links, c.localIP ≠ "" → (parseAddr c.localIP).isSome
  accepts : ∀ c ∈ links, L.Accepts (netns c.kubeNs c.podName) c

namespace Plan

variable {L : Linux} {parseAddr : String → Option String} (P : Plan L parseAddr)

/-- The namespace of the pod. -/
def ns (c : PodLinkConfig) : String := P.netns c.kubeNs c.podName

/-- The links that a pass of the pod is given: some of those that end in it. -/
def Job (podNsPath : String) (links : List PodLinkConfig) : Prop :=
  ∀ c ∈ links, c ∈ P.links ∧ P.ns c = podNsPath

instance decidableJob (podNsPath : String) (links : List PodLinkConfig) :
    Decidable (P.Job podNsPath links) :=
  inferInstanceAs (Decidable (∀ c ∈ links, c ∈ P.links ∧ P.ns c = podNsPath))

end Plan

/-! ### The machine -/

/-- The kernel, and the pass that the worker is in. -/
structure St where
  kernel : Kernel := {}
  job : Option (Netlink Unit) := none

/-- The worker starts a pass, makes its next call, or is gone with the daemon; a pair is removed,
with a namespace, by `CleanupPodLinks` or otherwise. -/
inductive Act
  | start (podNsPath : String) (links : List PodLinkConfig)
  | go (failure : Option Errno)
  | crash
  | remove (pair : ℕ)

def step {L : Linux} {parseAddr : String → Option String} (P : Plan L parseAddr) (s : St) :
    Act → Option St
  | .start podNsPath links =>
    if s.job.isNone ∧ P.Job podNsPath links then
      some { s with job := some (configurePodLinks parseAddr podNsPath links) }
    else none
  | .go failure =>
    match s.job with
    | some (.call c next) =>
      some ⟨(answer L failure c s.kernel).2, some (next (answer L failure c s.kernel).1)⟩
    | some (.ret _) | some (.fail _) => some { s with job := none }
    | none => none
  | .crash => some { s with job := none }
  | .remove pair => some { s with kernel := s.kernel.remove pair }

end Kne.VethModel
