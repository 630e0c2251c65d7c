import Kne.DemuxModel
import Kne.LinkModel

/-!
The ingress loop of `Server.Transmit` (`bridge/bridge.go`): the frames that a client sends are
written to the interface, and those that cannot be written are counted in `droppedWriteFrames`. A
frame that is too large is counted where the size is checked, in `write`, and once more in the loop,
where all errors are counted that do not end it.

An arrival is a message together with what happens to it: whether the context of the demux is
cancelled when the frame is written, and what `WritePacket` returns for it.
-/

namespace Kne.IngressDrops

open Kne.DemuxModel Kne.LinkModel

/-! ### Errors -/

inductive Errno
  | ebadf | enodev | eshutdown | einval
  | other (n : ℕ)
  deriving DecidableEq, Repr

/-- The errors that `isFatalWriteError` looks for, and the others. -/
inductive Cause
  | netClosed
  | eof
  | osClosed
  | errno (e : Errno)
  | other
  deriving DecidableEq, Repr

/-- An error: its text, and what it is and wraps in the order of `errors.Is` and `errors.As`. -/
structure WriteError where
  text : String
  chain : List Cause
  deriving DecidableEq, Repr

/-- `errors.As` for `unix.Errno`. -/
def Cause.errno? : Cause → Option Errno
  | .errno e => some e
  | _ => none

def isFatalWriteError (err : WriteError) : Bool :=
  if .netClosed ∈ err.chain ∨ .eof ∈ err.chain ∨ .osClosed ∈ err.chain ∨
      .errno .ebadf ∈ err.chain ∨ .errno .enodev ∈ err.chain ∨ .errno .eshutdown ∈ err.chain then
    true
  else
    match err.chain.findSome? Cause.errno? with
    | some e => e ∈ [Errno.ebadf, .enodev, .eshutdown, .einval]
    | none => false

/-! ### The loop -/

def maxFrameSize : ℕ := 65535

structure Arrival where
  data : Frame
  linkState : LinkState
  cancelled : Bool
  result : Option WriteError

/-- The demux: its counter, and the frames that `WritePacket` has taken. -/
structure Demux where
  droppedWriteFrames : UInt64 := 0
  written : List Frame := []

def errClosed : WriteError := ⟨"use of closed network connection", [.netClosed]⟩

def tooLarge (pkt : Frame) : WriteError :=
  ⟨"packet size " ++ toString pkt.length ++ " exceeds max frame size " ++ toString maxFrameSize,
    [.other]⟩

/-- `InterfaceDemux.write`. -/
def write (d : Demux) (r : Arrival) : Demux × Option WriteError :=
  if r.cancelled then (d, some errClosed)
  else if r.data.length = 0 then (d, none)
  else if r.data.length > maxFrameSize then
    ({ d with droppedWriteFrames := d.droppedWriteFrames + 1 }, some (tooLarge r.data))
  else
    match r.result with
    | none => ({ d with written := d.written ++ [r.data] }, none)
    | some err => (d, some err)

structure Ingress where
  demux : Demux
  /-- The link states that were set. -/
  linkStates : List LinkState := []
  /-- The error with which the loop has ended, unless the stream did. -/
  fatal : Option String := none

/-- The part of a turn that writes the frame. -/
def writeFrame (ifaceName : String) (s : Ingress) (r : Arrival) : Ingress :=
  match write s.demux r with
  | (d, none) => { s with demux := d }
  | (d, some err) =>
    if isFatalWriteError err then
      { s with
        demux := d
        fatal := some ("fatal error writing packet to " ++ ifaceName ++ ": " ++ err.text) }
    else { s with demux := { d with droppedWriteFrames := d.droppedWriteFrames + 1 } }

/-- The part of a turn that sets the link state. -/
def setLinkState (s : Ingress) (r : Arrival) : Ingress :=
  if r.linkState ≠ .unknown then { s with linkStates := s.linkStates ++ [r.linkState] } else s

/-- One turn. -/
def turn (ifaceName : String) (s : Ingress) (r : Arrival) : Ingress :=
  let s := setLinkState s r
  if r.data.length > 0 then writeFrame ifaceName s r else s

/-- The loop for the messages that come until the stream ends. -/
def ingress (ifaceName : String) : Ingress → List Arrival → Ingress
  | s, [] => s
  | s, r :: rs =>
    let s' := turn ifaceName s r
    if s'.fatal.isSome then s' else ingress ifaceName s' rs

/-! ### What becomes of an arrival -/

namespace Arrival

/-- The frame is taken by the interface. -/
def handed (r : Arrival) : Bool :=
  !r.cancelled && r.data.length > 0 && r.data.length ≤ maxFrameSize && r.result.isNone

/-- The write ends the loop. -/
def fatal (r : Arrival) : Bool :=
  r.data.length > 0 &&
    (r.cancelled || (r.data.length ≤ maxFrameSize && r.result.any isFatalWriteError))

/-- There is a frame, and it is not taken. -/
def lost (r : Arrival) : Bool := r.data.length > 0 && !r.handed

def oversized (r : Arrival) : Bool := r.data.length > maxFrameSize

end Arrival

/-- The arrivals before the stream ends or a write is fatal. -/
def live (rs : List Arrival) : List Arrival := rs.takeWhile fun r => !r.fatal

variable {ifaceName : String} {s : Ingress} {r : Arrival} {rs : List Arrival}

@[simp] lemma setLinkState_demux : (setLinkState s r).demux = s.demux := by
  unfold setLinkState
  split <;> rfl

@[simp] lemma setLinkState_fatal : (setLinkState s r).fatal = s.fatal := by
  unfold setLinkState
  split <;> rfl

lemma turn_of_frame (h : 0 < r.data.length) :
    turn ifaceName s r = writeFrame ifaceName (setLinkState s r) r := if_pos h

lemma write_of_frame {d : Demux} (h : 0 < r.data.length) (hc : r.cancelled = false) :
    write d r =
      if r.data.length > maxFrameSize then
        ({ d with droppedWriteFrames := d.droppedWriteFrames + 1 }, some (tooLarge r.data))
      else
        match r.result with
        | none => ({ d with written := d.written ++ [r.data] }, none)
        | some err => (d, some err) := by
  rw [write, hc, if_neg Bool.false_ne_true, if_neg (Nat.ne_of_gt h)]

variable (ifaceName s) in
lemma turn_of_fatal (h : r.fatal = true) :
    (turn ifaceName s r).fatal.isSome = true ∧ (turn ifaceName s r).demux = s.demux := by
  simp only [Arrival.fatal, Bool.and_eq_true, Bool.or_eq_true, decide_eq_true_eq] at h
  obtain ⟨hpos, hfatal⟩ := h
  rw [turn_of_frame hpos, writeFrame]
  by_cases hc : r.cancelled = true
  · have hclosed : isFatalWriteError errClosed = true := rfl
    simp [write, hc, hclosed]
  · obtain ⟨hle, hany⟩ := hfatal.resolve_left hc
    obtain ⟨err, hresult, herr⟩ := (Option.any_eq_true _ _).mp hany
    rw [write_of_frame hpos (by simpa using hc), if_neg (Nat.not_lt.mpr hle), hresult]
    simp [herr]

variable (ifaceName s) in
/-- **One turn.** What is lost is counted, and what is too large once more. -/
lemma turn_of_not_fatal (h : r.fatal = false) :
    (turn ifaceName s r).fatal = s.fatal ∧
      (turn ifaceName s r).demux.droppedWriteFrames =
        s.demux.droppedWriteFrames + UInt64.ofNat (r.lost.toNat + r.oversized.toNat) ∧
      (turn ifaceName s r).demux.written =
        s.demux.written ++ if r.handed then [r.data] else [] := by
  by_cases hpos : 0 < r.data.length
  · rw [turn_of_frame hpos, writeFrame]
    have hc : r.cancelled = false := by
      simp [Arrival.fatal, hpos] at h
      exact h.1
    rw [write_of_frame hpos hc]
    by_cases hlarge : r.data.length > maxFrameSize
    · -- counted in `write` and again in the loop
      have hother : isFatalWriteError (tooLarge r.data) = false := rfl
      have hhanded : r.handed = false := by simp [Arrival.handed, Nat.not_le.mpr hlarge]
      have hlost : r.lost = true := by simp [Arrival.lost, hpos, hhanded]
      have hover : r.oversized = true := by simp [Arrival.oversized, hlarge]
      simp only [if_pos hlarge, hother, hhanded, hlost, hover, if_neg Bool.false_ne_true,
        setLinkState_demux, setLinkState_fatal, List.append_nil, UInt64.add_assoc]
      exact ⟨trivial, rfl, trivial⟩
    · have hle : r.data.length ≤ maxFrameSize := by omega
      rw [if_neg hlarge]
      cases hresult : r.result with
      | none =>
        simp [Arrival.lost, Arrival.oversized, Arrival.handed, hpos, hlarge, hle, hresult, hc]
      | some err =>
        have herr : isFatalWriteError err = false := by
          simpa [Arrival.fatal, hpos, hc, hle, hresult] using h
        simp [herr, Arrival.lost, Arrival.oversized, Arrival.handed, hpos, hlarge, hle, hresult, hc]
  · have hzero : r.data.length = 0 := by omega
    rw [turn, if_neg hpos]
    simp [Arrival.lost, Arrival.oversized, Arrival.handed, hzero]

/-! ### The accounts -/

/-- How many frames were lost, and how many were too large. -/
def lostFrames (rs : List Arrival) : ℕ := (live rs).countP Arrival.lost

def oversizedFrames (rs : List Arrival) : ℕ := (live rs).countP Arrival.oversized

lemma live_of_fatal (h : r.fatal = true) : live (r :: rs) = [] := by
  simp [live, h]

lemma live_of_not_fatal (h : r.fatal = false) : live (r :: rs) = r :: live rs := by
  simp [live, h]

lemma countP_cons_toNat (p : Arrival → Bool) :
    (r :: rs).countP p = (p r).toNat + rs.countP p := by
  rw [List.countP_cons, Nat.add_comm]
  cases p r <;> rfl

lemma lostFrames_cons (h : r.fatal = false) :
    lostFrames (r :: rs) = r.lost.toNat + lostFrames rs := by
  rw [lostFrames, live_of_not_fatal h, countP_cons_toNat, lostFrames]

lemma oversizedFrames_cons (h : r.fatal = false) :
    oversizedFrames (r :: rs) = r.oversized.toNat + oversizedFrames rs := by
  rw [oversizedFrames, live_of_not_fatal h, countP_cons_toNat, oversizedFrames]

variable (ifaceName rs) in
/-- **A whole run.** -/
lemma ingress_accounts (hs : s.fatal = none) :
    (ingress ifaceName s rs).demux.droppedWriteFrames =
        s.demux.droppedWriteFrames + UInt64.ofNat (lostFrames rs + oversizedFrames rs) ∧
      (ingress ifaceName s rs).demux.written =
        s.demux.written ++ ((live rs).filter Arrival.handed).map Arrival.data := by
  induction rs generalizing s with
  | nil => simp [ingress, live, lostFrames, oversizedFrames]
  | cons r rs ih =>
    rw [ingress]
    cases hr : r.fatal with
    | true =>
      obtain ⟨hend, hdemux⟩ := turn_of_fatal ifaceName s hr
      simp [hend, hdemux, lostFrames, oversizedFrames, live_of_fatal hr]
    | false =>
      obtain ⟨hgo, hcount, hwritten⟩ := turn_of_not_fatal ifaceName s hr
      rw [hs] at hgo
      obtain ⟨ihcount, ihwritten⟩ := ih hgo
      have hnext : ¬ (turn ifaceName s r).fatal.isSome = true := by simp [hgo]
      rw [if_neg hnext, ihcount, ihwritten, hcount, hwritten, lostFrames_cons hr,
        oversizedFrames_cons hr, live_of_not_fatal hr, List.filter_cons]
      constructor
      · rw [UInt64.add_assoc, ← UInt64.ofNat_add]
        congr 2
        omega
      · by_cases hh : r.handed = true <;> simp [hh]

/-- **Lost frames are counted once, unless they are too large.** Whatever arrives and whatever
becomes of it: the interface has got the frames that were handed over, and the counter has grown by
the number of the frames that were lost just if none of those that the loop came to was too large
(or so many that the counter has gone around). -/
theorem drops_counted_iff (ifaceName : String) (d : Demux) (rs : List Arrival) :
    (ingress ifaceName { demux := d } rs).demux.written =
        d.written ++ ((live rs).filter Arrival.handed).map Arrival.data ∧
      ((ingress ifaceName { demux := d } rs).demux.droppedWriteFrames =
          d.droppedWriteFrames + UInt64.ofNat (lostFrames rs) ↔
        2 ^ 64 ∣ oversizedFrames rs) := by
  have hstart : ({ demux := d } : Ingress).fatal = none := rfl
  obtain ⟨hcount, hwritten⟩ := ingress_accounts ifaceName rs hstart
  have hzero : UInt64.ofNat (oversizedFrames rs) = 0 ↔ 2 ^ 64 ∣ oversizedFrames rs := by
    rw [← UInt64.toNat_inj, UInt64.toNat_ofNat', Nat.dvd_iff_mod_eq_zero]
    rfl
  refine ⟨hwritten, ?_⟩
  rw [hcount, UInt64.ofNat_add, ← UInt64.add_assoc, UInt64.add_eq_left, hzero]

/-- A frame of one byte too many. -/
def largeFrame : Arrival where
  data := List.replicate 65536 0
  linkState := .unknown
  cancelled := false
  result := none

/-- **A large frame is counted twice.** -/
theorem large_frame_twice :
    lostFrames [largeFrame] = 1 ∧
      (ingress "eth1" { demux := {} } [largeFrame]).demux.droppedWriteFrames = 2 := by
  have hsize : largeFrame.data.length = 65536 := List.length_replicate
  have hcancelled : largeFrame.cancelled = false := rfl
  have hfatal : largeFrame.fatal = false := by
    simp [Arrival.fatal, hsize, hcancelled, maxFrameSize]
  have hlost : largeFrame.lost = true := by
    simp [Arrival.lost, Arrival.handed, hsize, maxFrameSize]
  have hoversized : largeFrame.oversized = true := by
    simp [Arrival.oversized, hsize, maxFrameSize]
  have hone : lostFrames [largeFrame] = 1 := by
    rw [lostFrames_cons hfatal, hlost]
    rfl
  have hagain : oversizedFrames [largeFrame] = 1 := by
    rw [oversizedFrames_cons hfatal, hoversized]
    rfl
  refine ⟨hone, ?_⟩
  rw [(ingress_accounts "eth1" [largeFrame] rfl).1, hone, hagain]
  rfl

end Kne.IngressDrops
