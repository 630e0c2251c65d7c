import Mathlib.Tactic

/-!
The link state of one interface: what a bridge observes of its interface, and which of the
observations it reports to the bridge at the other end of the Wire (`bridge/link.go`).
-/

namespace Kne.LinkModel

/-- `wpb.LinkState`. -/
inductive LinkState
  | unknown | up | down
  deriving DecidableEq, Repr

/-- `AdminUp` is the flag the bridge itself sets; `Carrier` follows the admin state of the
device at the other end of the link. -/
structure LinkObservation where
  adminUp : Bool
  carrier : Bool
  deriving DecidableEq, Repr

/-- `IFF_UP` and `IFF_LOWER_UP`. -/
def iffUp : UInt32 := 0x1
def iffLowerUp : UInt32 := 0x10000

def observationFromFlags (flags : UInt32) : LinkObservation where
  adminUp := flags &&& iffUp != 0
  carrier := flags &&& iffLowerUp != 0

/-! ### Channels of capacity one

`publishLatest` replaces the unread value of a channel by two non-blocking selects, between
which the reader may run. -/

/-- `select { case <-ch: default: }`. -/
def selectRecv {T : Type*} (_ch : Option T) : Option T := none

/-- `select { case ch <- v: default: }`: on a full channel the value is discarded. -/
def selectSend {T : Type*} (ch : Option T) (v : T) : Option T :=
  match ch with
  | none => some v
  | some w => some w

/-! ### The reporter -/

/-- The reporter remembers the state it last reported; its zero value has reported nothing. -/
structure LinkReporter where
  reported : LinkState := .unknown
  deriving DecidableEq, Repr

/-- The carrier of an observation, as a state to report. -/
def carrierState (o : LinkObservation) : LinkState := if o.carrier then .up else .down

/-- `linkReporter.observe`: the state to report, `unknown` for none, and the new reporter. -/
def observe (r : LinkReporter) (o : LinkObservation) : LinkState × LinkReporter :=
  if !o.adminUp then (.unknown, ⟨.unknown⟩)
  else if carrierState o = r.reported then (.unknown, r)
  else (carrierState o, ⟨carrierState o⟩)

/-- `linkReporter.current`. -/
def current (r : LinkReporter) : LinkState := r.reported

/-- The states a caller sends on for a result of `observe`: every result but `unknown`. -/
def report : LinkState → List LinkState
  | .unknown => []
  | l => [l]

/-- The reporter is where an observation leaves it: the carrier when the interface is up,
nothing when it is down. -/
def Settled (r : LinkReporter) (o : LinkObservation) : Prop :=
  r.reported = if o.adminUp then carrierState o else .unknown

@[simp] lemma carrierState_ne (o : LinkObservation) : carrierState o ≠ .unknown := by
  unfold carrierState; split <;> simp

lemma observe_settled (r : LinkReporter) (o : LinkObservation) : Settled (observe r o).2 o := by
  unfold Settled observe
  cases o.adminUp
  · simp
  · by_cases h : carrierState o = r.reported <;> simp [h]

/-- **What one observation does.** Nothing is reported and the reporter is reset, or the
carrier is what was last reported, or the carrier is reported. -/
lemma observe_cases (r : LinkReporter) (o : LinkObservation) :
    (o.adminUp = false ∧ observe r o = (.unknown, ⟨.unknown⟩)) ∨
    (o.adminUp = true ∧ r.reported = carrierState o ∧ observe r o = (.unknown, r)) ∨
    (o.adminUp = true ∧ r.reported ≠ carrierState o ∧
      observe r o = (carrierState o, ⟨carrierState o⟩)) := by
  unfold observe
  cases o.adminUp
  · simp
  · by_cases h : carrierState o = r.reported
    · simp [h]
    · exact Or.inr (Or.inr ⟨rfl, fun e => h e.symm, by simp [h]⟩)

lemma report_carrierState (o : LinkObservation) : report (carrierState o) = [carrierState o] := by
  unfold carrierState; split <;> rfl

end Kne.LinkModel
