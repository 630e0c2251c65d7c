import Kne.Runs
import Kne.Tallies

/-!
The streams to other nodes (`daemon/grpcwire/stream_manager.go`, and the users of them in
`daemon/grpcwire/grpcwire.go`).

All wires of a topology to one node share one stream. A stream counts its users: the thread that
reads the frames of a wire (`RecvFrmLocalPodThread`) takes a reference when it starts and gives one
back when it ends, and `UpdateWire` exchanges one when the node of the peer changes. A thread reads
the address of the peer under the lock of the wire, and turns to the stream manager after it has
released the lock.
-/

namespace Kne.WireStreams

open Kne.Runs Kne.Tallies

structure NodeStreamKey where
  topoNs : String
  peerIP : String
  deriving DecidableEq, Repr

/-- The key under which the stream manager keeps the stream. -/
def nodeStreamKey (topoNs peerIP : String) : NodeStreamKey :=
  ⟨if topoNs = "" then "default" else topoNs, peerIP⟩

abbrev NodeStreamManager := Table NodeStreamKey

def getOrCreateStream (m : NodeStreamManager) (topoNs peerIP : String) : NodeStreamManager :=
  m.acquire (nodeStreamKey topoNs peerIP)

def releaseStream (m : NodeStreamManager) (topoNs peerIP : String) : NodeStreamManager :=
  m.release (nodeStreamKey topoNs peerIP)

/-- Where `RecvFrmLocalPodThread` is: it has read the address of the peer and not yet asked for the
stream, it forwards packets, or it has read the address again and not yet released the stream. -/
inductive Thread
  | idle | opened (peerIP : String) | running | leaving (currIP : String) | ended
  deriving DecidableEq, Repr

structure Wire where
  topoNs : String := ""
  peerNodeIP : String := ""
  thread : Thread := .idle
  /-- `UpdateWire` holds the lock: it has released the old stream, and has still to ask for the new
  one. -/
  updating : Bool := false

structure St where
  wires : ℕ → Wire := fun _ => {}
  n : ℕ := 0
  streams : NodeStreamManager := {}

def St.set (s : St) (i : ℕ) (w : Wire) : St := { s with wires := Function.update s.wires i w }

inductive Act
  | create (topoNs peerNodeIP : String)
  /-- The thread starts, if there is a handle for its TAP device. -/
  | start (i : ℕ) (handleOk : Bool)
  | acquire (i : ℕ)
  | leave (i : ℕ)
  | release (i : ℕ)
  | updateWire (i : ℕ) (peerNodeIP : String)
  | updated (i : ℕ)
  deriving DecidableEq, Repr

def step (s : St) : Act → Option St
  | .create topoNs peerNodeIP =>
    some { s.set s.n { topoNs := topoNs, peerNodeIP := peerNodeIP } with n := s.n + 1 }
  | .start i handleOk =>
    if i < s.n ∧ (s.wires i).thread = .idle ∧ (s.wires i).updating = false then
      some (s.set i { s.wires i with
        thread := if handleOk then .opened (s.wires i).peerNodeIP else .ended })
    else none
  | .acquire i =>
    match (s.wires i).thread with
    | .opened peerIP =>
      some { s.set i { s.wires i with thread := .running } with
        streams := if peerIP ≠ "" then getOrCreateStream s.streams (s.wires i).topoNs peerIP
          else s.streams }
    | _ => none
  | .leave i =>
    if (s.wires i).thread = .running ∧ (s.wires i).updating = false then
      some (s.set i { s.wires i with thread := .leaving (s.wires i).peerNodeIP })
    else none
  | .release i =>
    match (s.wires i).thread with
    | .leaving currIP =>
      some { s.set i { s.wires i with thread := .ended } with
        streams := if currIP ≠ "" then releaseStream s.streams (s.wires i).topoNs currIP
          else s.streams }
    | _ => none
  | .updateWire i peerNodeIP =>
    if i < s.n ∧ (s.wires i).updating = false then
      if peerNodeIP ≠ "" ∧ (s.wires i).peerNodeIP ≠ peerNodeIP then
        some { s.set i { s.wires i with peerNodeIP := peerNodeIP, updating := true } with
          streams := if (s.wires i).peerNodeIP ≠ "" then
              releaseStream s.streams (s.wires i).topoNs (s.wires i).peerNodeIP
            else s.streams }
      else some s
    else none
  | .updated i =>
    if (s.wires i).updating then
      some { s.set i { s.wires i with updating := false } with
        streams := getOrCreateStream s.streams (s.wires i).topoNs (s.wires i).peerNodeIP }
    else none

/-- The peer of a wire only moves to another node while the wire's thread forwards packets. -/
def InService (s : St) : Act → Prop
  | .updateWire i peerNodeIP =>
    peerNodeIP = "" ∨ (s.wires i).peerNodeIP = peerNodeIP ∨ (s.wires i).thread = .running
  | _ => True

instance decidableInService (s : St) : (a : Act) → Decidable (InService s a)
  | .updateWire _ _ => inferInstanceAs (Decidable (_ ∨ _))
  | .create _ _ | .start _ _ | .acquire _ | .leave _ | .release _ | .updated _ => .isTrue trivial

/-- The stream that a wire holds a reference to. -/
def Wire.holds (w : Wire) : Option NodeStreamKey :=
  match w.thread with
  | .running =>
    if w.updating ∨ w.peerNodeIP = "" then none else some (nodeStreamKey w.topoNs w.peerNodeIP)
  | .leaving currIP => if currIP = "" then none else some (nodeStreamKey w.topoNs currIP)
  | _ => none

/-- How many wires hold a reference to the stream. -/
def holders (s : St) : NodeStreamKey → ℕ := tally (Finset.range s.n) fun i => (s.wires i).holds

/-! ### The references are counted -/

structure Ok (w : Wire) : Prop where
  opened : ∀ ip, w.thread = .opened ip → ip = w.peerNodeIP
  updating : w.updating = true → w.thread = .running ∧ w.peerNodeIP ≠ ""

structure Inv (s : St) : Prop where
  ok : ∀ i, Ok (s.wires i)
  idle : ∀ i, s.n ≤ i → (s.wires i).thread = .idle
  exact : Exact s.streams (holders s)

variable {s s' : St} {a : Act}

lemma Ok.not_updating {w : Wire} (h : Ok w) (hth : w.thread ≠ .running) : w.updating = false := by
  by_contra hup
  exact hth (h.updating (by simpa using hup)).1

lemma Inv.lt (h : Inv s) {i : ℕ} (hi : (s.wires i).thread ≠ .idle) : i < s.n := by
  by_contra hn
  exact hi (h.idle i (not_lt.mp hn))

lemma holders_set {i : ℕ} (hi : i < s.n) (w : Wire) :
    holders (s.set i w) =
      tally (Finset.range s.n) (Function.update (fun j => (s.wires j).holds) i w.holds) := by
  refine tally_congr fun j _ => ?_
  by_cases hj : j = i
  · subst hj
    simp [St.set]
  · simp [St.set, hj]

lemma Inv.one (h : Inv s) {i : ℕ} {w : Wire} {m : NodeStreamManager} (hi : i < s.n) (hok : Ok w)
    (hm : Exact m (holders (s.set i w))) : Inv { s.set i w with streams := m } := by
  refine ⟨fun j => ?_, fun j hj => ?_, hm⟩
  · by_cases hji : j = i
    · subst hji
      simpa [St.set] using hok
    · simpa [St.set, hji] using h.ok j
  · have hji : j ≠ i := by
      rintro rfl
      exact absurd hi (not_lt.mpr hj)
    simpa [St.set, hji] using h.idle j hj

lemma exact_same (h : Inv s) {i : ℕ} {w : Wire} (hi : i < s.n) (hw : w.holds = (s.wires i).holds) :
    Exact s.streams (holders (s.set i w)) := by
  rw [holders_set hi, hw, Function.update_eq_self]
  exact h.exact

lemma exact_get (h : Inv s) {i : ℕ} {w : Wire} {topoNs ip : String} (hi : i < s.n)
    (hnone : (s.wires i).holds = none) (hw : w.holds = some (nodeStreamKey topoNs ip)) :
    Exact (getOrCreateStream s.streams topoNs ip) (holders (s.set i w)) := by
  rw [holders_set hi, hw, tally_acquire (Finset.mem_range.mpr hi) hnone]
  exact h.exact.acquire _

lemma exact_release (h : Inv s) {i : ℕ} {w : Wire} {topoNs ip : String} (hi : i < s.n)
    (hsome : (s.wires i).holds = some (nodeStreamKey topoNs ip)) (hw : w.holds = none) :
    Exact (releaseStream s.streams topoNs ip) (holders (s.set i w)) := by
  rw [holders_set hi, hw, tally_release (Finset.mem_range.mpr hi) hsome]
  exact h.exact.release (tally_pos.mpr ⟨i, Finset.mem_range.mpr hi, hsome⟩)

lemma Inv.create (h : Inv s) {w : Wire} (hth : w.thread = .idle) (hok : Ok w) :
    Inv { s.set s.n w with n := s.n + 1 } := by
  refine ⟨fun i => ?_, fun i hi => ?_, ?_⟩
  · by_cases hi : i = s.n
    · subst hi
      simpa [St.set] using hok
    · simpa [St.set, hi] using h.ok i
  · have hi : s.n + 1 ≤ i := hi
    have hne : i ≠ s.n := by omega
    simpa [St.set, hne] using h.idle i (by omega)
  · -- the new wire holds nothing
    have hnew : holders { s.set s.n w with n := s.n + 1 } = holders s := by
      funext k
      simp only [holders, tally, Finset.range_add_one, Finset.filter_insert]
      rw [if_neg (by simp [St.set, Wire.holds, hth])]
      refine congrFun (tally_congr fun i hi => ?_) k
      simp [St.set, (Finset.mem_range.mp hi).ne]
    exact hnew ▸ h.exact

lemma Inv.start (h : Inv s) {i : ℕ} (hi : i < s.n) (hth : (s.wires i).thread = .idle)
    (hup : (s.wires i).updating = false) (handleOk : Bool) :
    Inv (s.set i { s.wires i with
      thread := if handleOk then .opened (s.wires i).peerNodeIP else .ended }) := by
  refine h.one hi ?_ (exact_same h hi ?_)
  · cases handleOk with
    | true => exact ⟨fun ip hip => (Thread.opened.inj hip).symm, by simp [hup]⟩
    | false => exact ⟨by simp, by simp [hup]⟩
  · cases handleOk <;> simp [Wire.holds, hth]

lemma Inv.acquire (h : Inv s) {i : ℕ} {ip : String} (hth : (s.wires i).thread = .opened ip) :
    Inv { s.set i { s.wires i with thread := .running } with
      streams := if ip ≠ "" then getOrCreateStream s.streams (s.wires i).topoNs ip
        else s.streams } := by
  have hi : i < s.n := h.lt (by simp [hth])
  have hup := (h.ok i).not_updating (by simp [hth])
  obtain rfl := (h.ok i).opened ip hth
  refine h.one hi ⟨by simp, by simp [hup]⟩ ?_
  split
  · next hip => exact exact_get h hi (by simp [Wire.holds, hth]) (by simp [Wire.holds, hup, hip])
  · next hip =>
    refine exact_same h hi ?_
    have hip : (s.wires i).peerNodeIP = "" := by simpa using hip
    simp [Wire.holds, hth, hip]

lemma Inv.leave (h : Inv s) {i : ℕ} (hth : (s.wires i).thread = .running)
    (hup : (s.wires i).updating = false) :
    Inv (s.set i { s.wires i with thread := .leaving (s.wires i).peerNodeIP }) := by
  have hi : i < s.n := h.lt (by simp [hth])
  refine h.one hi ⟨by simp, by simp [hup]⟩ (exact_same h hi ?_)
  simp [Wire.holds, hth, hup]

lemma Inv.release (h : Inv s) {i : ℕ} {ip : String} (hth : (s.wires i).thread = .leaving ip) :
    Inv { s.set i { s.wires i with thread := .ended } with
      streams := if ip ≠ "" then releaseStream s.streams (s.wires i).topoNs ip
        else s.streams } := by
  have hi : i < s.n := h.lt (by simp [hth])
  have hup := (h.ok i).not_updating (by simp [hth])
  refine h.one hi ⟨by simp, by simp [hup]⟩ ?_
  split
  · next hip => exact exact_release h hi (by simp [Wire.holds, hth, hip]) (by simp [Wire.holds])
  · next hip =>
    refine exact_same h hi ?_
    have hip : ip = "" := by simpa using hip
    simp [Wire.holds, hth, hip]

lemma Inv.updateWire (h : Inv s) {i : ℕ} {peerNodeIP : String}
    (hth : (s.wires i).thread = .running) (hup : (s.wires i).updating = false)
    (hip : peerNodeIP ≠ "") :
    Inv { s.set i { s.wires i with peerNodeIP := peerNodeIP, updating := true } with
      streams := if (s.wires i).peerNodeIP ≠ "" then
          releaseStream s.streams (s.wires i).topoNs (s.wires i).peerNodeIP
        else s.streams } := by
  have hi : i < s.n := h.lt (by simp [hth])
  refine h.one hi ⟨by simp [hth], by simp [hth, hip]⟩ ?_
  split
  · next hold =>
    exact exact_release h hi (by simp [Wire.holds, hth, hup, hold]) (by simp [Wire.holds, hth])
  · next hold =>
    refine exact_same h hi ?_
    have hold : (s.wires i).peerNodeIP = "" := by simpa using hold
    simp [Wire.holds, hth, hold]

lemma Inv.updated (h : Inv s) {i : ℕ} (hup : (s.wires i).updating = true) :
    Inv { s.set i { s.wires i with updating := false } with
      streams := getOrCreateStream s.streams (s.wires i).topoNs (s.wires i).peerNodeIP } := by
  obtain ⟨hth, hip⟩ := (h.ok i).updating hup
  have hi : i < s.n := h.lt (by simp [hth])
  refine h.one hi ⟨by simp [hth], by simp⟩ ?_
  exact exact_get h hi (by simp [Wire.holds, hth, hup]) (by simp [Wire.holds, hth, hip])

lemma inv_step (h : Inv s) (hserv : InService s a) (hstep : step s a = some s') : Inv s' := by
  cases a with
  | create topoNs peerNodeIP =>
    obtain rfl := Option.some.inj hstep
    exact h.create rfl ⟨by simp, by simp⟩
  | start i handleOk =>
    obtain ⟨hi, ⟨⟩⟩ := Option.ite_none_right_eq_some.mp hstep
    exact h.start hi.1 hi.2.1 hi.2.2 handleOk
  | acquire i =>
    simp only [step] at hstep
    split at hstep
    · next ip hth =>
      obtain rfl := Option.some.inj hstep
      exact h.acquire hth
    · cases hstep
  | leave i =>
    obtain ⟨hth, ⟨⟩⟩ := Option.ite_none_right_eq_some.mp hstep
    exact h.leave hth.1 hth.2
  | release i =>
    simp only [step] at hstep
    split at hstep
    · next ip hth =>
      obtain rfl := Option.some.inj hstep
      exact h.release hth
    · cases hstep
  | updateWire i peerNodeIP =>
    obtain ⟨hi, hstep⟩ := Option.ite_none_right_eq_some.mp hstep
    split at hstep
    · next hip =>
      obtain rfl := Option.some.inj hstep
      exact h.updateWire ((hserv.resolve_left hip.1).resolve_left hip.2) hi.2 hip.1
    · obtain rfl := Option.some.inj hstep
      exact h
  | updated i =>
    obtain ⟨hup, ⟨⟩⟩ := Option.ite_none_right_eq_some.mp hstep
    exact h.updated hup

lemma inv_init : Inv {} where
  ok _ := ⟨by simp, by simp⟩
  idle _ _ := rfl
  exact := exact_empty

/-- **Streams live as long as they are used.** In every run in which peers only move to other nodes
while the threads of their wires forward packets: a stream counts the wires that hold it, a wire
that forwards packets has a stream that is not stopped, and every stream that is not stopped is held
by a wire. -/
theorem streams_in_use {as : List Act} (hrun : run step {} as = some s)
    (hserv : Along step InService {} as) :
    (∀ k, (s.streams.objs.lookup k).map Entry.refCount =
      if holders s k = 0 then none else some (holders s k : ℤ)) ∧
    (∀ i, (s.wires i).thread = .running → (s.wires i).updating = false →
      (s.wires i).peerNodeIP ≠ "" →
      ∃ e, s.streams.objs.lookup (nodeStreamKey (s.wires i).topoNs (s.wires i).peerNodeIP) =
          some e ∧
        e.id ∉ s.streams.stopped) ∧
    ∀ id < s.streams.next, id ∉ s.streams.stopped →
      ∃ k e, s.streams.objs.lookup k = some e ∧ e.id = id ∧
        ∃ i < s.n, (s.wires i).holds = some k := by
  have h : Inv s := run_inv_along (fun _ _ _ h hs hst => inv_step h hs hst) inv_init hserv hrun
  refine ⟨h.exact.count, fun i hth hup hip => ?_, fun id hid hns => ?_⟩
  · have hholds : (s.wires i).holds =
        some (nodeStreamKey (s.wires i).topoNs (s.wires i).peerNodeIP) := by
      simp [Wire.holds, hth, hup, hip]
    have hi : i < s.n := h.lt (by simp [hth])
    obtain ⟨e, he, -⟩ :=
      h.exact.lookup_of_pos (tally_pos.mpr ⟨i, Finset.mem_range.mpr hi, hholds⟩)
    exact ⟨e, he, (h.exact.running _ e he).2⟩
  · obtain ⟨k, e, he, rfl⟩ := (h.exact.made id hid).resolve_left hns
    refine ⟨k, e, he, rfl, ?_⟩
    have hpos : 0 < holders s k := by
      rw [Nat.pos_iff_ne_zero, Ne, ← h.exact.lookup_eq_none, he]
      simp
    obtain ⟨i, hi, hholds⟩ := tally_pos.mp hpos
    exact ⟨i, Finset.mem_range.mp hi, hholds⟩

/-- Two wires share the stream to `A`, and the peer of one of them moves to `B`. -/
def moves : List Act :=
  [.create "t" "A", .create "t" "A", .start 0 true, .acquire 0, .start 1 true, .acquire 1,
    .updateWire 1 "B", .updated 1]

theorem streams_in_use_moves : ∃ s, run step {} moves = some s ∧
    (s.wires 1).peerNodeIP = "B" ∧ holders s ⟨"t", "A"⟩ = 1 ∧
    (∀ k, (s.streams.objs.lookup k).map Entry.refCount =
      if holders s k = 0 then none else some (holders s k : ℤ)) ∧
    (∀ i, (s.wires i).thread = .running → (s.wires i).updating = false →
      (s.wires i).peerNodeIP ≠ "" →
      ∃ e, s.streams.objs.lookup (nodeStreamKey (s.wires i).topoNs (s.wires i).peerNodeIP) =
          some e ∧
        e.id ∉ s.streams.stopped) ∧
    ∀ id < s.streams.next, id ∉ s.streams.stopped →
      ∃ k e, s.streams.objs.lookup k = some e ∧ e.id = id ∧
        ∃ i < s.n, (s.wires i).holds = some k := by
  have hend : (run step {} moves).any fun s =>
      (s.wires 1).peerNodeIP = "B" ∧ holders s ⟨"t", "A"⟩ = 1 := by decide
  obtain ⟨s, hrun, hs⟩ := (Option.any_eq_true _ _).mp hend
  exact ⟨s, hrun, (of_decide_eq_true hs).1, (of_decide_eq_true hs).2,
    streams_in_use hrun (by decide)⟩

/-- The peer of the second wire moves after its thread has read the address, and before the thread
asks for the stream. -/
def movesEarly : List Act :=
  [.create "t" "A", .create "t" "A", .start 0 true, .acquire 0, .start 1 true,
    .updateWire 1 "B", .updated 1]

/-- `UpdateWire` then gives back a reference of the other wire, and stops its stream. -/
theorem stream_stopped_in_use : ∃ s, run step {} movesEarly = some s ∧
    (s.wires 0).holds = some ⟨"t", "A"⟩ ∧ s.streams.objs.lookup ⟨"t", "A"⟩ = none ∧
    s.streams.stopped = [0] := by
  have hend : (run step {} movesEarly).any fun s =>
      (s.wires 0).holds = some ⟨"t", "A"⟩ ∧ (s.streams.objs.lookup ⟨"t", "A"⟩).isNone = true ∧
        s.streams.stopped = [0] := by decide
  obtain ⟨s, hrun, hs⟩ := (Option.any_eq_true _ _).mp hend
  obtain ⟨hh, hl, hst⟩ := of_decide_eq_true hs
  exact ⟨s, hrun, hh, Option.isNone_iff_eq_none.mp hl, hst⟩

end Kne.WireStreams
