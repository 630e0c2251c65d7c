import Kne.Runs

/-!
The carrier of the two ends of a grpc-wire (`daemon/grpcwire/carrier.go` and the watch of
`utils/wireutil/linkwatch.go`).

A TAP device has carrier whenever it is attached, so each daemon watches the admin state of its end
and has a `carrierPusher` send it to the daemon of the other end, which sets the carrier of its TAP
device. A pusher keeps the latest state with a flag that the peer may not have it; whoever sets the
flag then kicks the pusher's goroutine, over a channel of capacity 1. A request that fails is sent
again after a while, and a pusher that has lost the state of the peer asks for it.

A wire may be made again at any time, with a new pusher; the goroutine of the old one goes on until
it comes to a `select`. A request that its sender has given up may still be executed. The watch of a
network namespace is told to stop with its last wire, and goes on for a while; what it still reports
goes to the watch that has then taken its place, if there is one.
-/

namespace Kne.CarrierModel

/-- `WireCarrier`, without the fields that name the wire. -/
structure Req where
  peerAdminUp : Bool
  requestSync : Bool
  deriving DecidableEq, Repr

/-- Where the goroutine of a pusher is: at its first `select`, before `next`, in a call that the
peer has executed or not, at the second `select`, or at its end. -/
inductive Worker
  | waiting | looking | sending (req : Req) (applied : Bool) | backoff | done
  deriving DecidableEq, Repr

/-- A `carrierPusher`, with what others have still to do to it: `kicks` by those that have set
`dirty`, calls of `resend` with their arguments, and the `setAdmin` of `register` with the state it
has read. -/
structure Pusher where
  known : Bool := false
  adminUp : Bool := false
  dirty : Bool := false
  requestSync : Bool := false
  notify : Bool := false
  stop : Bool := false
  /-- The wire is ready, with an id and an address of the peer. -/
  ready : Bool := false
  /-- The wire has still to be registered. -/
  toRegister : Bool := false
  kicks : ℕ := 0
  owed : List Bool := []
  read : Option Bool := none
  worker : Worker := .waiting
  /-- Requests that were given up before the peer executed them. -/
  late : List Req := []

namespace Pusher

def kick (p : Pusher) : Pusher := { p with notify := true }

def setAdmin (p : Pusher) (up : Bool) : Pusher :=
  let changed := !p.known || p.adminUp != up
  { p with
    known := true
    adminUp := up
    dirty := p.dirty || changed
    kicks := p.kicks + changed.toNat }

def resend (p : Pusher) (requestSync : Bool) : Pusher :=
  { p with dirty := true, requestSync := p.requestSync || requestSync, kicks := p.kicks + 1 }

/-- The request to send, if the wire is ready, and whether there is something to send. -/
def next (p : Pusher) : Pusher × Option Req × Bool :=
  if !p.dirty || !p.known then (p, none, false)
  else if !p.ready then (p, none, true)
  else ({ p with dirty := false, requestSync := false }, some ⟨p.adminUp, p.requestSync⟩, true)

def retry (p : Pusher) (req : Req) : Pusher :=
  { p with dirty := true, requestSync := p.requestSync || req.requestSync }

/-- The next call of `next` by the goroutine, and where it goes from there. -/
def look (p : Pusher) : Pusher :=
  { p.next.1 with worker :=
    match p.next.2 with
    | (some req, _) => .sending req false
    | (none, true) => .backoff
    | (none, false) => .waiting }

end Pusher

/-- What the goroutine of a pusher, or a caller of one of its methods, does next. -/
inductive Move
  | setRead | resend | kick | wake | look | acked | fail | unimplemented | elapse | leave
  deriving DecidableEq, Repr

def Pusher.move (p : Pusher) : Move → Option Pusher
  | .setRead => p.read.map fun up => { p.setAdmin up with read := none }
  | .resend =>
    match p.owed with
    | requestSync :: owed => some { p.resend requestSync with owed := owed }
    | [] => none
  | .kick => if 0 < p.kicks then some { p.kick with kicks := p.kicks - 1 } else none
  | .wake =>
    if p.worker = .waiting ∧ p.notify then some { p with notify := false, worker := .looking }
    else none
  | .look => if p.worker = .looking then some p.look else none
  | .acked =>
    match p.worker with
    | .sending _ true => some { p with worker := .looking }
    | _ => none
  -- an error, or the answer that the wire was not found; the call may have been executed
  | .fail =>
    match p.worker with
    | .sending req applied =>
      some { p.retry req with
        worker := .backoff
        late := if applied then p.late else req :: p.late }
    | _ => none
  | .unimplemented =>
    match p.worker with
    | .sending _ false => some { p with worker := .done }
    | _ => none
  | .elapse => if p.worker = .backoff then some { p with worker := .looking } else none
  | .leave =>
    if (p.worker = .waiting ∨ p.worker = .backoff) ∧ p.stop then some { p with worker := .done }
    else none

/-- The `nsWatch` of a network namespace, for one interface: the last state it has recorded, those
it has still to report, and the registered wires of the interface. -/
structure Watch where
  adminUp : Option Bool := none
  updates : List Bool := []
  wires : List ℕ := []

/-- The end of a wire at one node: the pushers it has had, up to the `gen`-th, and its TAP
device. -/
structure Side where
  pusher : ℕ → Pusher := fun _ => {}
  gen : ℕ := 0
  watch : Option Watch := none
  /-- What the watches that were told to stop may still report. -/
  old : List (List Bool) := []
  /-- The admin state of the interface. -/
  link : Bool := false
  /-- The TAP device is open. -/
  handle : Bool := false
  carrier : Bool := false
  /-- The carrier was last set by a request that had been given up, or by that of an old pusher. -/
  stray : Bool := false

namespace Side

def cur (x : Side) : Pusher := x.pusher x.gen

def modify (x : Side) (i : ℕ) (f : Pusher → Pusher) : Side :=
  { x with pusher := Function.update x.pusher i (f (x.pusher i)) }

/-- A call of `resend(false)` on the present pusher is to come. -/
def owe (x : Side) : Side := x.modify x.gen fun p => { p with owed := p.owed ++ [false] }

/-- `SetWireCarrier`, up to the `resend` for a peer that asks for the state. -/
def setWireCarrier (x : Side) (req : Req) (stray : Bool) : Side :=
  { if req.requestSync then x.owe else x with carrier := req.peerAdminUp, stray := stray }

/-- `unregister`: the watch is told to stop with the last wire of the network namespace. -/
def unregister (x : Side) (others : Bool) : Side :=
  match x.watch with
  | some w =>
    if x.gen ∈ w.wires ∧ w.wires.erase x.gen = [] ∧ others = false then
      { x with watch := none, old := w.updates :: x.old }
    else { x with watch := some { w with wires := w.wires.erase x.gen } }
  | none => x

/-- `stopCarrier`. -/
def stopCarrier (x : Side) (others : Bool) : Side :=
  (x.unregister others).modify x.gen fun p => { p with stop := true }

/-- The wire is made, in place of the one there was, and `startCarrier` is called. -/
def startCarrier (x : Side) (requestSync ready others : Bool) : Side :=
  { x.stopCarrier others with
    gen := x.gen + 1
    pusher := Function.update (x.stopCarrier others).pusher (x.gen + 1)
      { ready := ready, owed := [requestSync], toRegister := true }
    handle := true
    carrier := true
    stray := false }

def setWatch (x : Side) (w : Option Watch) : Side := { x with watch := w }

/-- `register`, up to the `setAdmin` with the state that it has read. -/
def register (x : Side) (i : ℕ) (ok : Bool) : Side :=
  match x.watch with
  | some w =>
    (x.modify i fun p => { p with toRegister := false, read := w.adminUp }).setWatch
      (some { w with wires := i :: w.wires })
  | none =>
    (x.modify i fun p => { p with toRegister := false }).setWatch
      (if ok then some { updates := [x.link], wires := [i] } else none)

/-- `onAdminChange`, whichever watch calls it. -/
def onAdminChange (x : Side) (up : Bool) : Side :=
  match x.watch with
  | some w =>
    { x with
      pusher := fun i => if i ∈ w.wires then (x.pusher i).setAdmin up else x.pusher i
      watch := some { w with adminUp := some up } }
  | none => x

def setLink (x : Side) (up : Bool) : Side :=
  { x with
    link := up
    watch := x.watch.map fun w => { w with updates := w.updates ++ [up] }
    old := x.old.map (· ++ [up]) }

end Side

/-- The two ends of a wire. -/
abbrev St := Bool → Side

def St.set (s : St) (e : Bool) (x : Side) : St := Function.update s e x

inductive Act
  | move (e : Bool) (i : ℕ) (m : Move)
  /-- The peer executes the request of a pusher. -/
  | apply (e : Bool) (i : ℕ)
  /-- The peer executes a request that was given up. -/
  | applyLate (e : Bool) (i : ℕ) (req : Req)
  | setLink (e up : Bool)
  /-- A wire is made by a handshake, which ends with `UpdateWire` at the other end, or it is made
  again from its status and asks the peer for its state. -/
  | startCarrier (e requestSync ready others : Bool)
  | register (e : Bool) (i : ℕ) (ok : Bool)
  | report (e : Bool)
  /-- A watch that was told to stop reports, or ends. -/
  | lateReport (e : Bool) (k : ℕ)
  | endWatch (e : Bool) (k : ℕ)
  | updateWire (e : Bool)
  | stopCarrier (e others : Bool)
  deriving DecidableEq, Repr

def step (s : St) : Act → Option St
  | .move e i m =>
    if i ≤ (s e).gen then
      ((s e).pusher i).move m |>.map fun p => s.set e ((s e).modify i fun _ => p)
    else none
  | .apply e i =>
    if i ≤ (s e).gen ∧ (s !e).handle then
      match ((s e).pusher i).worker with
      | .sending req false =>
        some ((s.set e ((s e).modify i fun p => { p with worker := .sending req true })).set (!e)
          ((s !e).setWireCarrier req (decide (i ≠ (s e).gen))))
      | _ => none
    else none
  | .applyLate e i req =>
    if i ≤ (s e).gen ∧ (s !e).handle ∧ req ∈ ((s e).pusher i).late then
      some ((s.set e ((s e).modify i fun p => { p with late := p.late.erase req })).set (!e)
        ((s !e).setWireCarrier req true))
    else none
  | .setLink e up => some (s.set e ((s e).setLink up))
  | .startCarrier e requestSync ready others =>
    some ((s.set e ((s e).startCarrier requestSync ready others)).set (!e)
      (if requestSync then s !e else (s !e).owe))
  | .register e i ok =>
    if i ≤ (s e).gen ∧ ((s e).pusher i).toRegister then some (s.set e ((s e).register i ok))
    else none
  | .report e =>
    match (s e).watch with
    | some w =>
      match w.updates with
      | up :: rest =>
        some (s.set e (((s e).setWatch (some { w with updates := rest })).onAdminChange up))
      | [] => none
    | none => none
  | .lateReport e k =>
    match (s e).old[k]? with
    | some (up :: rest) =>
      some (s.set e ({ s e with old := (s e).old.set k rest }.onAdminChange up))
    | _ => none
  | .endWatch e k =>
    if k < (s e).old.length then some (s.set e { s e with old := (s e).old.eraseIdx k }) else none
  | .updateWire e =>
    some (s.set e ((s e).owe.modify (s e).gen fun p => { p with ready := true }))
  | .stopCarrier e others =>
    some (s.set e { (s e).stopCarrier others with handle := false })

def init : St := fun _ => {}

/-- The state that `register` has read is set before the watch reports another one, and a watch that
was told to stop reports no old state when the one in its place has no more to report. -/
def InTime (s : St) : Act → Prop
  | .move e i .setRead =>
    i = (s e).gen → ∀ w ∈ (s e).watch, (s e).gen ∈ w.wires → w.adminUp = (s e).cur.read
  | .lateReport e k =>
    ∀ w ∈ (s e).watch, w.updates = [] → (s e).old[k]?.bind List.head? = some (s e).link
  | _ => True

instance decidableInTime (s : St) : (a : Act) → Decidable (InTime s a)
  | .move _ _ .setRead => inferInstanceAs (Decidable (_ → _))
  | .lateReport e k => inferInstanceAs (Decidable (∀ w ∈ (s e).watch,
      w.updates = [] → (s e).old[k]?.bind List.head? = some (s e).link))
  | .move _ _ .resend | .move _ _ .kick | .move _ _ .wake | .move _ _ .look | .move _ _ .acked
  | .move _ _ .fail | .move _ _ .unimplemented | .move _ _ .elapse | .move _ _ .leave
  | .apply _ _ | .applyLate _ _ _ | .setLink _ _ | .startCarrier _ _ _ _ | .register _ _ _
  | .report _ | .endWatch _ _ | .updateWire _ | .stopCarrier _ _ => .isTrue trivial

/-- Nothing is left to do at an end that is registered. -/
structure Rest (x : Side) : Prop where
  worker : x.cur.worker = .waiting
  kicks : x.cur.kicks = 0
  notify : x.cur.notify = false
  owed : x.cur.owed = []
  read : x.cur.read = none
  watch : ∃ w ∈ x.watch, x.gen ∈ w.wires ∧ w.updates = []

instance decidableRest (x : Side) : Decidable (Rest x) :=
  decidable_of_iff (x.cur.worker = .waiting ∧ x.cur.kicks = 0 ∧ x.cur.notify = false ∧
      x.cur.owed = [] ∧ x.cur.read = none ∧
      ∃ w ∈ x.watch, x.gen ∈ w.wires ∧ w.updates = [])
    ⟨fun ⟨hw, hk, hn, ho, hr, hu⟩ => ⟨hw, hk, hn, ho, hr, hu⟩,
      fun h => ⟨h.worker, h.kicks, h.notify, h.owed, h.read, h.watch⟩⟩

end Kne.CarrierModel
