import Kne.LinkModel
import Kne.Runs

/-!
Two bridges joined by one Wire stream, each with the device attached to its interface.

A bridge reports the carrier of its interface and applies the state reported by its peer to
the same interface. The stream is a FIFO in each direction. Device changes, netlink
notifications, observations, sends and deliveries are the atomic steps, in any order; an
unread observation may be overwritten by a newer one, and so may a state the server has
reported and not yet sent, since both wait in channels that keep only the latest value.

A pair of crossing `DOWN` reports takes both interfaces down, and a bridge whose interface is
down reports nothing; so the pair then stays down whatever the devices do. As long as no
bridge observes the loss of its carrier while the last word from its peer is `DOWN`, one of
the two interfaces is always up or about to be, and it pulls the other one up.
-/

namespace Kne.LinkPair

open Kne.LinkModel Kne.Runs

inductive Side
  | server | client
  deriving DecidableEq, Repr

def Side.peer : Side → Side
  | .server => .client
  | .client => .server

@[simp] lemma peer_peer (x : Side) : x.peer.peer = x := by cases x <;> rfl

@[simp] lemma peer_ne (x : Side) : x.peer ≠ x := by cases x <;> simp [Side.peer]

@[simp] lemma ne_peer (x : Side) : x ≠ x.peer := (peer_ne x).symm

lemma eq_or_eq_peer (x y : Side) : y = x ∨ y = x.peer := by cases x <;> cases y <;> simp [Side.peer]

/-- One bridge: its device and its interface, the observations it has not read, the states
reported and not yet sent, and the states sent and not yet received by the peer. -/
structure Bridge where
  device : Bool
  adminUp : Bool
  events : List LinkObservation
  reporter : LinkReporter
  out : List LinkState
  wire : List LinkState
  deriving DecidableEq, Repr

namespace Bridge

/-- `Link.Current`. -/
def observation (b : Bridge) : LinkObservation := ⟨b.adminUp, b.device⟩

/-- A netlink notification of the current flags. -/
def notify (b : Bridge) : Bridge := { b with events := b.events ++ [b.observation] }

def setDevice (b : Bridge) (up : Bool) : Bridge := notify { b with device := up }

/-- `Link.SetAdminUp`. -/
def setAdminUp (b : Bridge) (up : Bool) : Bridge :=
  if b.adminUp = up then b else notify { b with adminUp := up }

/-- `Client.applyLinkState` and `InterfaceDemux.setLinkState`, behind the test of their
callers that the received state is not `unknown`. -/
def applyLinkState (b : Bridge) (l : LinkState) : Bridge :=
  if l = .unknown then b else b.setAdminUp (l == .up)

/-- Everything reported to the peer that the peer has not received. -/
def pending (b : Bridge) : List LinkState := b.wire ++ b.out

end Bridge

abbrev St := Side → Bridge

/-- Devices and interfaces are up; each bridge is about to read the state of its interface
for the first time. -/
def init : St := fun _ => ⟨true, true, [⟨true, true⟩], {}, [], []⟩

inductive Act
  | device (x : Side) (up : Bool)
  | notify (x : Side)
  | coalesce (x : Side)
  | observe (x : Side)
  | supersede
  | send (x : Side)
  | deliver (x : Side)
  deriving DecidableEq, Repr

def step (s : St) : Act → Option St
  | .device x up => some (Function.update s x ((s x).setDevice up))
  | .notify x => some (Function.update s x (s x).notify)
  | .coalesce x =>
    match (s x).events with
    | _ :: o :: os => some (Function.update s x { s x with events := o :: os })
    | _ => none
  | .observe x =>
    match (s x).events with
    | o :: os =>
      let (l, r) := LinkModel.observe (s x).reporter o
      some (Function.update s x
        { s x with events := os, reporter := r, out := (s x).out ++ report l })
    | [] => none
  | .supersede =>
    match (s .server).out with
    | _ :: l :: ls => some (Function.update s .server { s .server with out := l :: ls })
    | _ => none
  | .send x =>
    match (s x).out with
    | l :: ls => some (Function.update s x { s x with out := ls, wire := (s x).wire ++ [l] })
    | [] => none
  | .deliver x =>
    match (s x.peer).wire with
    | l :: ls =>
      some (Function.update (Function.update s x.peer { s x.peer with wire := ls }) x
        ((s x).applyLinkState l))
    | [] => none

/-- Nothing is in flight and every observation has been processed. -/
def Quiescent (s : St) : Prop := ∀ x, (s x).events = [] ∧ (s x).out = [] ∧ (s x).wire = []

/-- A link whose two devices are up is not held down by the bridges. -/
def Healthy (s : St) : Prop :=
  Quiescent s → (∀ x, (s x).device = true) → ∀ x, (s x).adminUp = true

/-- The admin state left after the states `ls` have been applied to an interface. -/
def after (b : Bool) (ls : List LinkState) : Bool := ls.foldl (fun _ l => l == .up) b

/-- The admin state an interface is heading for: the last state its peer has reported to it,
delivered or not. -/
def heading (s : St) (x : Side) : Bool := after (s x).adminUp (s x.peer).pending

/-- No bridge processes an observation of an interface that is up without carrier while the
last state reported to it is `down`. -/
def NoCrossing (s : St) : Act → Prop
  | .observe x => ∀ o ∈ (s x).events.head?, o.adminUp = true → o.carrier = false →
      heading s x = true
  | _ => True

instance (s : St) (a : Act) : Decidable (NoCrossing s a) := by
  cases a <;> unfold NoCrossing <;> infer_instance

/-! ### What a step does to the headings -/

@[simp] lemma after_nil (b : Bool) : after b [] = b := rfl

@[simp] lemma after_cons (b : Bool) (l : LinkState) (ls : List LinkState) :
    after b (l :: ls) = after (l == .up) ls := rfl

@[simp] lemma after_append (b : Bool) (ls ms : List LinkState) :
    after b (ls ++ ms) = after (after b ls) ms := by simp [after]

@[simp] lemma setAdminUp_adminUp (b : Bridge) (up : Bool) : (b.setAdminUp up).adminUp = up := by
  unfold Bridge.setAdminUp; split
  · assumption
  · rfl

lemma setAdminUp_frame (b : Bridge) (up : Bool) :
    (b.setAdminUp up).device = b.device ∧ (b.setAdminUp up).reporter = b.reporter ∧
      (b.setAdminUp up).out = b.out ∧ (b.setAdminUp up).wire = b.wire := by
  unfold Bridge.setAdminUp; split <;> simp [Bridge.notify]

/-- The observations waiting end with the current one, or the last one processed is still
current. -/
def Fresh (b : Bridge) : Prop :=
  b.events.getLast? = some b.observation ∨ (b.events = [] ∧ Settled b.reporter b.observation)

lemma fresh_notify (b : Bridge) : Fresh b.notify := by
  left; simp [Bridge.notify, Bridge.observation]

lemma fresh_setAdminUp {b : Bridge} (h : Fresh b) (up : Bool) : Fresh (b.setAdminUp up) := by
  unfold Bridge.setAdminUp; split
  · exact h
  · exact fresh_notify _

/-- What holds of the pair in every run: only real states are in flight, an interface is
heading for what the reporter of its peer last reported, and no observation is missed. -/
structure Good (s : St) : Prop where
  known : ∀ x, .unknown ∉ (s x).pending
  reported : ∀ x, (s x).reporter.reported ≠ .unknown →
    heading s x.peer = ((s x).reporter.reported == .up)
  fresh : ∀ x, Fresh (s x)

lemma good_init : Good init where
  known x := by simp [init, Bridge.pending]
  reported x h := by simp [init] at h
  fresh x := Or.inl (by simp [init, Bridge.observation])

/-- A change of one bridge that neither reports nor applies a state. -/
structure Quiet (b b' : Bridge) : Prop where
  adminUp : b'.adminUp = b.adminUp
  reporter : b'.reporter = b.reporter
  after : ∀ c, after c b'.pending = after c b.pending
  known : .unknown ∉ b.pending → .unknown ∉ b'.pending
  fresh : Fresh b → Fresh b'

/-- The bridge after processing the observation `o`, with `os` left. -/
def observed (b : Bridge) (o : LinkObservation) (os : List LinkObservation) : Bridge :=
  { b with
    events := os
    reporter := (LinkModel.observe b.reporter o).2
    out := b.out ++ report (LinkModel.observe b.reporter o).1 }

/-- The pair after `x` has received `l` from its peer, with `ls` left on the wire. -/
def delivered (s : St) (x : Side) (l : LinkState) (ls : List LinkState) : St :=
  Function.update (Function.update s x.peer { s x.peer with wire := ls }) x
    ((s x).applyLinkState l)

/-- **What a step can do.** -/
lemma step_cases {s t : St} {a : Act} (h : step s a = some t) :
    (∃ x b, t = Function.update s x b ∧ Quiet (s x) b ∧ ∀ y, a ≠ .observe y) ∨
    (∃ x o os, a = .observe x ∧ (s x).events = o :: os ∧
      t = Function.update s x (observed (s x) o os)) ∨
    (∃ x l ls, a = .deliver x ∧ (s x.peer).wire = l :: ls ∧ t = delivered s x l ls) := by
  cases a with
  | device x up =>
    cases h
    exact Or.inl ⟨x, _, rfl, ⟨rfl, rfl, fun c => rfl, id, fun _ => fresh_notify _⟩, by simp⟩
  | notify x =>
    cases h
    exact Or.inl ⟨x, _, rfl, ⟨rfl, rfl, fun c => rfl, id, fun _ => fresh_notify _⟩, by simp⟩
  | coalesce x =>
    rcases he : (s x).events with _ | ⟨o, _ | ⟨o', os⟩⟩ <;> simp only [step, he] at h <;> cases h
    refine Or.inl ⟨x, _, rfl, ⟨rfl, rfl, fun c => rfl, id, fun hf => ?_⟩, by simp⟩
    -- the newest observation is not the one overwritten
    rcases hf with hf | hf
    · left; simpa [he, Bridge.observation] using hf
    · simp [he] at hf
  | observe x =>
    rcases he : (s x).events with _ | ⟨o, os⟩ <;> simp only [step, he] at h <;> cases h
    exact Or.inr (Or.inl ⟨x, o, os, rfl, he, rfl⟩)
  | supersede =>
    rcases he : (s .server).out with _ | ⟨l, _ | ⟨l', ls⟩⟩ <;> simp only [step, he] at h <;> cases h
    refine Or.inl ⟨.server, _, rfl, ⟨rfl, rfl, fun c => ?_, fun hk => ?_, id⟩, by simp⟩
    · simp [Bridge.pending, he]
    · simp only [Bridge.pending, he, List.mem_append, List.mem_cons] at hk ⊢
      tauto
  | send x =>
    rcases he : (s x).out with _ | ⟨l, ls⟩ <;> simp only [step, he] at h <;> cases h
    refine Or.inl ⟨x, _, rfl, ⟨rfl, rfl, fun c => ?_, fun hk => ?_, id⟩, by simp⟩
    · simp [Bridge.pending, he]
    · simpa [Bridge.pending, he] using hk
  | deliver x =>
    rcases he : (s x.peer).wire with _ | ⟨l, ls⟩ <;> simp only [step, he] at h <;> cases h
    exact Or.inr (Or.inr ⟨x, l, ls, rfl, he, rfl⟩)

lemma heading_quiet {s : St} {x : Side} {b : Bridge} (h : Quiet (s x) b) (y : Side) :
    heading (Function.update s x b) y = heading s y := by
  rcases eq_or_eq_peer x y with rfl | rfl
  · simp [heading, h.adminUp]
  · simp [heading, h.after]

lemma heading_observed (s : St) (x : Side) (o : LinkObservation) (os : List LinkObservation) :
    heading (Function.update s x (observed (s x) o os)) x = heading s x ∧
    heading (Function.update s x (observed (s x) o os)) x.peer =
      after (heading s x.peer) (report (LinkModel.observe (s x).reporter o).1) := by
  constructor
  · simp [heading, observed]
  · simp [heading, observed, Bridge.pending]

lemma delivered_self (s : St) (x : Side) (l : LinkState) (ls : List LinkState) :
    delivered s x l ls x = (s x).applyLinkState l := by simp [delivered]

lemma delivered_peer (s : St) (x : Side) (l : LinkState) (ls : List LinkState) :
    delivered s x l ls x.peer = { s x.peer with wire := ls } := by simp [delivered]

lemma heading_delivered {s : St} {x : Side} {l : LinkState} {ls : List LinkState}
    (hw : (s x.peer).wire = l :: ls) (hl : l ≠ .unknown) (y : Side) :
    heading (delivered s x l ls) y = heading s y := by
  obtain ⟨-, -, ho, hwi⟩ := setAdminUp_frame (s x) (l == .up)
  rcases eq_or_eq_peer x y with rfl | rfl
  · simp [heading, delivered_self, delivered_peer, Bridge.applyLinkState, hl, Bridge.pending, hw]
  · simp [heading, delivered_self, delivered_peer, Bridge.applyLinkState, hl, Bridge.pending, ho,
      hwi]

/-! ### The invariants -/

lemma fresh_observed {b : Bridge} {o : LinkObservation} {os : List LinkObservation}
    (he : b.events = o :: os) (hf : Fresh b) : Fresh (observed b o os) := by
  rcases hf with hf | hf
  · rcases os with _ | ⟨o', os⟩
    · -- the last observation is the current one, and the reporter has settled on it
      have ho : o = b.observation := by simpa [he] using hf
      right
      refine ⟨rfl, ?_⟩
      simpa [observed, Bridge.observation, ho] using observe_settled b.reporter o
    · left; simpa [he, observed, Bridge.observation] using hf
  · simp [he] at hf

lemma known_observed {b : Bridge} (o : LinkObservation) (os : List LinkObservation)
    (hk : .unknown ∉ b.pending) : .unknown ∉ (observed b o os).pending := by
  have hr : ∀ l, LinkState.unknown ∉ report l := by intro l; cases l <;> simp [report]
  simp only [Bridge.pending, List.mem_append, not_or] at hk ⊢
  simp [observed, hk, hr]

lemma good_step {s t : St} {a : Act} (hg : Good s) (h : step s a = some t) : Good t := by
  obtain ⟨x, b, rfl, hq, -⟩ | ⟨x, o, os, -, he, rfl⟩ | ⟨x, l, ls, -, hw, rfl⟩ := step_cases h
  · refine ⟨fun y => ?_, fun y hy => ?_, fun y => ?_⟩
    · rcases eq_or_eq_peer x y with rfl | rfl
      · simpa using hq.known (hg.known _)
      · simpa using hg.known _
    · rw [heading_quiet hq]
      rcases eq_or_eq_peer x y with rfl | rfl
      · simp only [Function.update_self, hq.reporter] at hy ⊢
        exact hg.reported _ hy
      · rw [Function.update_of_ne (peer_ne x)] at hy ⊢
        exact hg.reported _ hy
    · rcases eq_or_eq_peer x y with rfl | rfl
      · simpa using hq.fresh (hg.fresh _)
      · simpa using hg.fresh _
  · obtain ⟨hx, hp⟩ := heading_observed s x o os
    refine ⟨fun y => ?_, fun y hy => ?_, fun y => ?_⟩
    · rcases eq_or_eq_peer x y with rfl | rfl
      · simpa using known_observed o os (hg.known _)
      · simpa using hg.known _
    · rcases eq_or_eq_peer x y with rfl | rfl
      · rw [hp]
        simp only [Function.update_self, observed] at hy ⊢
        obtain ⟨-, e⟩ | ⟨-, hr, e⟩ | ⟨-, -, e⟩ := observe_cases (s y).reporter o
        · simp [e] at hy
        · rw [e]
          exact hg.reported y (by rw [hr]; simp)
        · rw [e, report_carrierState]; rfl
      · rw [Function.update_of_ne (peer_ne x)] at hy ⊢
        have := hg.reported _ hy
        rw [peer_peer] at this ⊢
        rw [hx, this]
    · rcases eq_or_eq_peer x y with rfl | rfl
      · simpa using fresh_observed he (hg.fresh _)
      · simpa using hg.fresh _
  · have hl : l ≠ .unknown := by
      rintro rfl
      exact hg.known x.peer (by simp [Bridge.pending, hw])
    have happ : (s x).applyLinkState l = (s x).setAdminUp (l == .up) := by
      simp [Bridge.applyLinkState, hl]
    obtain ⟨-, hr, ho, hwi⟩ := setAdminUp_frame (s x) (l == .up)
    refine ⟨fun y => ?_, fun y hy => ?_, fun y => ?_⟩
    · rcases eq_or_eq_peer x y with rfl | rfl
      · rw [delivered_self, happ]
        simpa [Bridge.pending, ho, hwi] using hg.known _
      · have := hg.known x.peer
        rw [delivered_peer]
        simp only [Bridge.pending, hw, List.mem_append, List.mem_cons] at this ⊢
        tauto
    · rw [heading_delivered hw hl]
      rcases eq_or_eq_peer x y with rfl | rfl
      · rw [delivered_self, happ, hr] at hy ⊢
        exact hg.reported _ hy
      · rw [delivered_peer] at hy ⊢
        exact hg.reported _ hy
    · rcases eq_or_eq_peer x y with rfl | rfl
      · rw [delivered_self, happ]
        exact fresh_setAdminUp (hg.fresh _) _
      · rw [delivered_peer]
        exact hg.fresh x.peer

/-- One of the two interfaces is up or heading up. -/
def Pulled (s : St) : Prop := ∃ x, heading s x = true

lemma pulled_step {s t : St} {a : Act} (hg : Good s) (hp : Pulled s) (hok : NoCrossing s a)
    (h : step s a = some t) : Pulled t := by
  obtain ⟨z, hz⟩ := hp
  obtain ⟨x, b, rfl, hq, -⟩ | ⟨x, o, os, rfl, he, rfl⟩ | ⟨x, l, ls, -, hw, rfl⟩ := step_cases h
  · exact ⟨z, by rw [heading_quiet hq, hz]⟩
  · obtain ⟨hx, hpeer⟩ := heading_observed s x o os
    rcases eq_or_eq_peer x z with rfl | rfl
    · exact ⟨z, by rw [hx, hz]⟩
    obtain ⟨-, e⟩ | ⟨-, -, e⟩ | ⟨hup, -, e⟩ := observe_cases (s x).reporter o
    · exact ⟨x.peer, by rw [hpeer, e]; exact hz⟩
    · exact ⟨x.peer, by rw [hpeer, e]; exact hz⟩
    · cases hc : o.carrier with
      | true => exact ⟨x.peer, by rw [hpeer, e]; simp [carrierState, hc, report]⟩
      | false =>
        -- `x` reports `down`; by the condition its own interface is not taken down meanwhile
        exact ⟨x, by rw [hx]; exact hok o (by simp [he]) hup hc⟩
  · have hl : l ≠ .unknown := by
      rintro rfl
      exact hg.known x.peer (by simp [Bridge.pending, hw])
    exact ⟨z, by rw [heading_delivered hw hl, hz]⟩

lemma heading_of_quiescent {s : St} (hq : Quiescent s) (x : Side) :
    heading s x = (s x).adminUp := by
  obtain ⟨-, ho, hw⟩ := hq x.peer
  simp [heading, Bridge.pending, ho, hw]

/-- In a quiescent state an interface that is up, with a device that is up, has the other
interface up. -/
lemma adminUp_peer {s : St} (hg : Good s) (hq : Quiescent s) {x : Side}
    (hd : (s x).device = true) (hu : (s x).adminUp = true) : (s x.peer).adminUp = true := by
  have hs : Settled (s x).reporter (s x).observation := by
    rcases hg.fresh x with h | h
    · simp [(hq x).1] at h
    · exact h.2
  have hr : (s x).reporter.reported = .up := by
    simpa [Settled, Bridge.observation, hu, hd, carrierState] using hs
  have := hg.reported x (by simp [hr])
  rw [heading_of_quiescent hq, hr] at this
  exact this

lemma healthy_of_pulled {s : St} (hg : Good s) (hp : Pulled s) : Healthy s := by
  intro hq hd
  obtain ⟨z, hz⟩ := hp
  rw [heading_of_quiescent hq] at hz
  intro x
  rcases eq_or_eq_peer z x with rfl | rfl
  · exact hz
  · exact adminUp_peer hg hq (hd z) hz

/-! ### Crossing reports latch the pair -/

/-- The deliveries still to come, a send counting for one of them. -/
def inFlight (s : St) : ℕ :=
  (2 * (s .server).out.length + (s .server).wire.length) +
    (2 * (s .client).out.length + (s .client).wire.length)

lemma exists_flush {s : St} (hg : Good s) :
    ∃ bs t, run step s bs = some t ∧ Good t ∧ (∀ x, (t x).out = [] ∧ (t x).wire = []) ∧
      ∀ x, heading t x = heading s x := by
  induction hn : inFlight s using Nat.strong_induction_on generalizing s with
  | _ n ih =>
    subst hn
    by_cases hout : ∃ x l ls, (s x).out = l :: ls
    · obtain ⟨x, l, ls, ho⟩ := hout
      have hstep : step s (.send x) =
          some (Function.update s x { s x with out := ls, wire := (s x).wire ++ [l] }) := by
        simp [step, ho]
      have hlt : inFlight (Function.update s x { s x with out := ls, wire := (s x).wire ++ [l] })
          < inFlight s := by
        cases x <;> simp [inFlight, ho] <;> omega
      obtain ⟨bs, t, hrun, hgt, hemp, hhead⟩ := ih _ hlt (good_step hg hstep) rfl
      refine ⟨.send x :: bs, t, by rw [run_cons, hstep]; exact hrun, hgt, hemp, fun y => ?_⟩
      obtain ⟨x', b, hb, hq, -⟩ | ⟨x', o, os, hb, -⟩ | ⟨x', m, ms, hb, -⟩ := step_cases hstep
      · rw [hhead y, hb, heading_quiet hq]
      · cases hb
      · cases hb
    by_cases hwire : ∃ x l ls, (s x).wire = l :: ls
    · obtain ⟨x, l, ls, hw⟩ := hwire
      have hw' : (s x.peer.peer).wire = l :: ls := by rw [peer_peer, hw]
      have hl : l ≠ .unknown := by
        rintro rfl
        exact hg.known x (by simp [Bridge.pending, hw])
      have hstep : step s (.deliver x.peer) = some (delivered s x.peer l ls) := by
        simp only [step, hw']; rfl
      have hlt : inFlight (delivered s x.peer l ls) < inFlight s := by
        obtain ⟨-, -, ho, hwi⟩ := setAdminUp_frame (s x.peer) (l == .up)
        cases x <;>
          simp_all [inFlight, delivered, Side.peer, Bridge.applyLinkState]
      obtain ⟨bs, t, hrun, hgt, hemp, hhead⟩ := ih _ hlt (good_step hg hstep) rfl
      refine ⟨.deliver x.peer :: bs, t, by rw [run_cons, hstep]; exact hrun, hgt, hemp,
        fun y => ?_⟩
      rw [hhead y, heading_delivered hw' hl]
    refine ⟨[], s, rfl, hg, fun x => ⟨?_, ?_⟩, fun x => rfl⟩
    · rcases ho : (s x).out with _ | ⟨l, ls⟩
      · rfl
      · exact absurd ⟨x, l, ls, ho⟩ hout
    · rcases hw : (s x).wire with _ | ⟨l, ls⟩
      · rfl
      · exact absurd ⟨x, l, ls, hw⟩ hwire

lemma exists_read {s : St} {x : Side} (hf : Fresh (s x)) (hd : (s x).adminUp = false) :
    ∃ bs r, run step s bs =
      some (Function.update s x { s x with events := [], reporter := r }) := by
  rcases he : (s x).events with _ | ⟨o, os⟩
  · refine ⟨[], (s x).reporter, ?_⟩
    rw [show ({ s x with events := [], reporter := (s x).reporter } : Bridge) = s x by
      cases hb : s x; simp_all]
    simp
  induction os generalizing s o with
  | nil =>
    have ho : o = (s x).observation := by
      rcases hf with hf | hf
      · simpa [he] using hf
      · simp [he] at hf
    refine ⟨[.observe x], ⟨.unknown⟩, ?_⟩
    have hobs : LinkModel.observe (s x).reporter o = (.unknown, ⟨.unknown⟩) := by
      simp [LinkModel.observe, ho, Bridge.observation, hd]
    simp [step, he, hobs, report]
  | cons o' os ih =>
    have hstep : step s (.coalesce x) =
        some (Function.update s x { s x with events := o' :: os }) := by simp [step, he]
    obtain ⟨bs, r, hrun⟩ := ih (s := Function.update s x { s x with events := o' :: os }) (o := o')
      (by
        rcases hf with hf | hf
        · left; simpa [he, Bridge.observation] using hf
        · simp [he] at hf)
      (by simpa using hd) (by simp)
    refine ⟨.coalesce x :: bs, r, ?_⟩
    rw [run_cons, hstep]
    simpa using hrun

/-- A pair whose two interfaces are heading down can be latched: with nothing more reported,
and both devices up, it comes to rest with both interfaces down. -/
lemma exists_latched {s : St} (hg : Good s) (hdown : ∀ x, heading s x = false) :
    ∃ bs t, run step s bs = some t ∧ ¬ Healthy t := by
  obtain ⟨bs₁, t, h₁, hgt, hemp, hhead⟩ := exists_flush hg
  have hadm : ∀ x, (t x).adminUp = false := by
    intro x
    have h := hhead x
    rw [hdown x] at h
    simpa [heading, Bridge.pending, hemp x.peer] using h
  -- both devices come up; the interfaces stay down
  set u : St := Function.update (Function.update t .server ((t .server).setDevice true)) .client
    ((t .client).setDevice true) with hu
  have h₂ : run step t [.device .server true, .device .client true] = some u := by
    simp [step, hu]
  have hus : u .server = (t .server).setDevice true := by simp [hu]
  have huc : u .client = (t .client).setDevice true := by simp [hu]
  obtain ⟨bs₃, r, h₃⟩ := exists_read (s := u) (x := .server)
    (by rw [hus]; exact fresh_notify _) (by rw [hus]; exact hadm .server)
  set v : St := Function.update u .server { u .server with events := [], reporter := r } with hv
  have hvc : v .client = (t .client).setDevice true := by simp [hv, huc]
  obtain ⟨bs₄, r', h₄⟩ := exists_read (s := v) (x := .client)
    (by rw [hvc]; exact fresh_notify _) (by rw [hvc]; exact hadm .client)
  refine ⟨_, _, run_trans step (run_trans step (run_trans step h₁ h₂) h₃) h₄, fun hh => ?_⟩
  have hup := hh (by
    intro x
    cases x
    · simp [hv, hus, Bridge.setDevice, Bridge.notify, hemp .server]
    · simp [hvc, Bridge.setDevice, Bridge.notify, hemp .client]) (by
    intro x
    cases x
    · simp [hv, hus, Bridge.setDevice, Bridge.notify]
    · simp [hvc, Bridge.setDevice, Bridge.notify]) .client
  simp [hvc, Bridge.setDevice, Bridge.notify, hadm .client] at hup

lemma heading_of_crossing {s t : St} {a : Act} (hg : Good s) (hno : ¬ NoCrossing s a)
    (h : step s a = some t) : ∀ x, heading t x = false := by
  obtain ⟨x, b, rfl, -, ha⟩ | ⟨x, o, os, rfl, he, rfl⟩ | ⟨x, l, ls, rfl, -, -⟩ := step_cases h
  · cases a with
    | observe y => exact absurd rfl (ha y)
    | _ => exact absurd trivial hno
  · simp only [NoCrossing, he, List.head?_cons, Option.mem_def, Option.some.injEq, forall_eq',
      not_forall, Bool.not_eq_true] at hno
    obtain ⟨hup, hc, hx⟩ := hno
    obtain ⟨hself, hpeer⟩ := heading_observed s x o os
    have hdown : carrierState o = .down := by simp [carrierState, hc]
    intro y
    rcases eq_or_eq_peer x y with rfl | rfl
    · rw [hself, hx]
    · rw [hpeer]
      obtain ⟨hno, -⟩ | ⟨-, hr, e⟩ | ⟨-, -, e⟩ := observe_cases (s x).reporter o
      · rw [hup] at hno; cases hno
      · have h := hg.reported x (by rw [hr]; simp)
        rw [hr, hdown] at h
        rw [e]; exact h
      · rw [e, hdown]; rfl
  · exact absurd trivial hno

/-- **When the pair stays healthy.** In every run in which no bridge observes the loss of its
carrier while the last word from its peer is `down`, a quiescent state with both devices up
has both interfaces up; and a step that breaks the condition can be followed by steps that
end in a latched state. -/
theorem healthy_of_noCrossing (as : List Act) (s : St) (h : run step init as = some s) :
    (Along step NoCrossing init as → Healthy s) ∧
    ∀ a t, step s a = some t → ¬ NoCrossing s a →
      ∃ bs u, run step t bs = some u ∧ ¬ Healthy u := by
  constructor
  · intro hok
    have hinv : Good s ∧ Pulled s :=
      run_inv_along (P := fun s => Good s ∧ Pulled s)
        (fun s a t hp hok hst => ⟨good_step hp.1 hst, pulled_step hp.1 hp.2 hok hst⟩)
        ⟨good_init, .server, rfl⟩ hok h
    exact healthy_of_pulled hinv.1 hinv.2
  · intro a t hst hno
    have hg : Good s := run_inv (fun _ _ _ hp hst => good_step hp hst) good_init h
    exact exists_latched (good_step hg hst) (heading_of_crossing hg hno hst)

/-- The device of the server goes down and comes back; the client follows both times. -/
def flap : List Act :=
  [.observe .server, .observe .client, .send .server, .send .client, .deliver .server,
    .deliver .client, .device .server false, .observe .server, .send .server, .deliver .client,
    .observe .client, .device .server true, .observe .server, .send .server, .deliver .client,
    .observe .client, .send .client, .deliver .server]

theorem flap_healthy :
    Along step NoCrossing init flap ∧ ∃ s, run step init flap = some s ∧ Quiescent s ∧
      ∀ x, (s x).adminUp = true := by
  have hok : Along step NoCrossing init flap := by decide
  have hq : ∀ s, run step init flap = some s → Quiescent s ∧ ∀ x, (s x).device = true := by
    intro s hs
    cases hs
    exact ⟨fun x => by cases x <;> decide, fun x => by cases x <;> decide⟩
  refine ⟨hok, _, rfl, (hq _ rfl).1, ?_⟩
  exact (healthy_of_noCrossing flap _ rfl).1 hok (hq _ rfl).1 (hq _ rfl).2

/-- Both devices go down at once, each bridge takes the interface of the other down, and both
devices come back. -/
def crossing : List Act :=
  [.observe .server, .observe .client, .send .server, .send .client, .deliver .server,
    .deliver .client, .device .server false, .device .client false, .observe .server,
    .observe .client, .send .server, .send .client, .deliver .client, .deliver .server,
    .observe .server, .observe .client, .device .server true, .device .client true,
    .observe .server, .observe .client]

theorem crossing_latches : ¬ ∀ as s, run step init as = some s → Healthy s := by
  intro h
  have hup := h crossing _ rfl (by intro x; cases x <;> decide) (by intro x; cases x <;> decide)
    .server
  exact absurd hup (by decide)

end Kne.LinkPair
