import Kne.Mailbox
import Kne.Runs

/-!
The frame half of an `InterfaceDemux` (`bridge/bridge.go`): one read loop, any number of
subscribers, and the teardown of the loop.

A critical section under `mu` is one step, except that the read loop offers a frame to one
listener after the other with the read lock held, in any order, and the subscribers may
receive in between; `subscribe`, `unsubscribe` and the teardown wait for it. A send on a
closed channel and a second close of a channel panic, and a panic ends the process.

The history variables are `log`, the frames broadcast so far, and for each channel the stretch
of the log during which it was subscribed.
-/

namespace Kne.DemuxModel

open Kne.Mailbox Kne.Runs

abbrev Frame := List UInt8

def channelBufferCap : ℕ := 1000
def maxSubscribersPerDemux : ℕ := 32

/-- A channel made by `subscribe`. -/
structure Chan where
  box : Box Frame := {}
  closed : Bool := false
  since : ℕ := 0
  upto : Option ℕ := none
  deriving DecidableEq, Repr

/-- Where the read loop stands: in `ReadPacket`, with a frame it may broadcast, broadcasting
with the read lock held, or in the deferred function that ends it. -/
inductive Loop
  | reading
  | read (pkt : Frame)
  | sending (pkt : Frame) (todo : List ℕ)
  | returning
  | cancelled
  | torn
  deriving DecidableEq, Repr

inductive Panic
  | sendOnClosed | closeOfClosed
  deriving DecidableEq, Repr

structure St where
  loop : Loop := .reading
  /-- `d.ctx.Err() != nil`. -/
  cancelled : Bool := false
  closed : Bool := false
  listeners : List ℕ := []
  next : ℕ := 0
  chans : ℕ → Chan := fun _ => {}
  droppedFrames : UInt64 := 0
  log : List Frame := []
  panic : Option Panic := none

/-- The read lock is held. -/
def Loop.locked : Loop → Bool
  | .sending _ _ => true
  | _ => false

inductive Act
  | frame (pkt : Frame)
  | readError (netDown : Bool)
  | broadcast
  | offer (c : ℕ)
  | unlock
  | deferCancel
  | teardown
  | cancel
  | subscribe
  | unsubscribe (c : ℕ)
  | receive (c : ℕ)
  deriving DecidableEq, Repr

/-- `close(ch)`. -/
def closeChan (s : St) (c : ℕ) : St :=
  if (s.chans c).closed then { s with panic := some .closeOfClosed }
  else { s with
    chans := Function.update s.chans c
      { s.chans c with closed := true, upto := some s.log.length } }

/-- `subscribe`, with the number of the new channel. -/
def subscribe (ifaceName : String) (s : St) : Except String (ℕ × St) :=
  if s.closed || s.cancelled then
    .error ("demux for " ++ ifaceName ++ " is closed")
  else if s.listeners.length ≥ maxSubscribersPerDemux then
    .error ("demux for " ++ ifaceName ++ " reached maximum subscribers limit (" ++
      toString maxSubscribersPerDemux ++ ")")
  else .ok (s.next, { s with
    listeners := s.listeners ++ [s.next]
    next := s.next + 1
    chans := Function.update s.chans s.next { since := s.log.length } })

/-- `unsubscribe`, of any channel at any time. -/
def unsubscribe (s : St) (c : ℕ) : St :=
  if c ∈ s.listeners then closeChan { s with listeners := s.listeners.erase c } c else s

/-- The critical section of the deferred function. -/
def teardown (s : St) : St :=
  { s.listeners.foldl closeChan { s with closed := true } with listeners := [] }

/-- `select { case ch <- pkt: default: d.droppedFrames.Add(1) }`. -/
def offer (s : St) (pkt : Frame) (c : ℕ) : St :=
  let ch := s.chans c
  if ch.closed then { s with panic := some .sendOnClosed }
  else { s with
    chans := Function.update s.chans c
      { ch with box := ch.box.offer channelBufferCap pkt }
    droppedFrames :=
      if ch.box.queue.length < channelBufferCap then s.droppedFrames else s.droppedFrames + 1 }

/-- A subscriber takes a frame out of its channel, closed or not. -/
def receive (s : St) (c : ℕ) : St :=
  let ch := s.chans c
  { s with chans := Function.update s.chans c { ch with box := ch.box.take } }

def step (ifaceName : String) (s : St) (a : Act) : Option St :=
  if s.panic.isSome then none
  else match a, s.loop with
    | .frame pkt, .reading =>
      if s.cancelled then some { s with loop := .returning } else some { s with loop := .read pkt }
    | .readError netDown, .reading =>
      if s.cancelled || !netDown then some { s with loop := .returning } else some s
    | .broadcast, .read pkt =>
      if s.closed then some { s with loop := .returning }
      else some { s with loop := .sending pkt s.listeners, log := s.log ++ [pkt] }
    | .offer c, .sending pkt todo =>
      if c ∈ todo then some { offer s pkt c with loop := .sending pkt (todo.erase c) } else none
    | .unlock, .sending _ [] => some { s with loop := .reading }
    | .deferCancel, .returning => some { s with loop := .cancelled, cancelled := true }
    | .teardown, .cancelled => some { teardown s with loop := .torn }
    | .cancel, _ => some { s with cancelled := true }
    | .subscribe, l =>
      if l.locked then none
      else match subscribe ifaceName s with
        | .ok (_, t) => some t
        | .error _ => some s
    | .unsubscribe c, l => if l.locked then none else some (unsubscribe s c)
    | .receive c, _ => if (s.chans c).box.queue = [] then none else some (receive s c)
    | _, _ => none

/-! ### What a step can do -/

/-- The cases of a step, with what their guards say. -/
inductive Does (s : St) : Act → St → Prop
  | move (a : Act) (l : Loop) (hs : s.loop = .reading ∨ ∃ pkt, s.loop = .read pkt)
      (hl : l = .reading ∨ l = .returning ∨ ∃ pkt, l = .read pkt)
      (ha : (∃ pkt, a = .frame pkt) ∨ (∃ netDown, a = .readError netDown) ∨ a = .broadcast) :
      Does s a { s with loop := l }
  | broadcast (pkt : Frame) (hs : s.loop = .read pkt) (hc : s.closed = false) :
      Does s .broadcast { s with loop := .sending pkt s.listeners, log := s.log ++ [pkt] }
  | offer (pkt : Frame) (todo : List ℕ) (c : ℕ) (hs : s.loop = .sending pkt todo)
      (hc : c ∈ todo) :
      Does s (.offer c) { offer s pkt c with loop := .sending pkt (todo.erase c) }
  | unlock (pkt : Frame) (hs : s.loop = .sending pkt []) :
      Does s .unlock { s with loop := .reading }
  | deferCancel (hs : s.loop = .returning) :
      Does s .deferCancel { s with loop := .cancelled, cancelled := true }
  | teardown (hs : s.loop = .cancelled) : Does s .teardown { teardown s with loop := .torn }
  | cancel : Does s .cancel { s with cancelled := true }
  | refused : Does s .subscribe s
  | subscribe (hl : s.loop.locked = false) (hc : s.closed = false)
      (hn : s.listeners.length < maxSubscribersPerDemux) :
      Does s .subscribe { s with
        listeners := s.listeners ++ [s.next]
        next := s.next + 1
        chans := Function.update s.chans s.next { since := s.log.length } }
  | unsubscribe (hl : s.loop.locked = false) (c : ℕ) :
      Does s (.unsubscribe c) (unsubscribe s c)
  | receive (c : ℕ) (hq : (s.chans c).box.queue ≠ []) : Does s (.receive c) (receive s c)

lemma step_does {ifaceName : String} {s t : St} {a : Act} (h : step ifaceName s a = some t) :
    Does s a t := by
  unfold step at h
  split at h
  · cases h
  split at h
  case h_1 pkt hs =>
    split at h <;> cases h
    · exact .move _ _ (Or.inl hs) (Or.inr (Or.inl rfl)) (by simp)
    · exact .move _ _ (Or.inl hs) (Or.inr (Or.inr ⟨pkt, rfl⟩)) (by simp)
  case h_2 netDown hs =>
    split at h <;> cases h
    · exact .move _ _ (Or.inl hs) (Or.inr (Or.inl rfl)) (by simp)
    · simpa [← hs] using Does.move (s := s) (.readError netDown) .reading (Or.inl hs)
        (Or.inl rfl) (by simp)
  case h_3 pkt hs =>
    split at h <;> cases h
    · exact .move _ _ (Or.inr ⟨pkt, hs⟩) (Or.inr (Or.inl rfl)) (by simp)
    · exact .broadcast pkt hs (by simpa using ‹¬ s.closed = true›)
  case h_4 c pkt todo hs =>
    split at h <;> cases h
    exact .offer pkt todo c hs ‹_›
  case h_5 pkt hs => cases h; exact .unlock pkt hs
  case h_6 hs => cases h; exact .deferCancel hs
  case h_7 hs => cases h; exact .teardown hs
  case h_8 => cases h; exact .cancel
  case h_9 =>
    split at h
    · cases h
    rename_i hl
    unfold subscribe at h
    split_ifs at h with h1 h2
    · cases h; exact .refused
    · cases h; exact .refused
    · cases h
      simp only [Bool.or_eq_true, not_or, Bool.not_eq_true] at h1
      exact .subscribe (by simpa using hl) h1.1 (by omega)
  case h_10 _ _ c =>
    split at h <;> cases h
    exact .unsubscribe (by simpa using ‹¬ s.loop.locked = true›) c
  case h_11 _ _ c =>
    split at h <;> cases h
    exact .receive c ‹_›
  case h_12 => cases h

end Kne.DemuxModel
