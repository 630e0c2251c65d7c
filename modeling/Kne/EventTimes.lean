import Mathlib.Data.List.ReduceOption
import Kne.CreateWatch

/-!
The filter of `WatchEventStatus` (`events/events.go`): events that are older than the watch are left
out. The age is read off the creation timestamp, which the API server cuts down to a whole second,
and it is compared with the time at which the watch was started, which is not cut. What is created
in the rest of that second looks older than the watch.

Instants are counted in nanoseconds.
-/

namespace Kne.EventTimes

open Kne.CreateWatch

/-! ### The watch -/

/-- `corev1.Event`, as far as it is looked at. -/
structure Event where
  name : String
  ns : String
  message : String
  type : String
  reason : String
  creationTimestamp : ℤ
  deriving DecidableEq, Repr

/-- The object of what the watch delivers. -/
inductive Object
  | event (e : Event)
  | other
  deriving DecidableEq, Repr

def eventToStatus (e : Event) : EventStatus where
  name := e.name
  ns := e.ns
  message := e.message
  type := e.type
  reason := e.reason

/-- The event is not `Before` the watch. -/
def keeps (initialTimestamp : ℤ) (e : Event) : Bool := !(e.creationTimestamp < initialTimestamp)

/-- What the goroutine sends. -/
def watchLoop (initialTimestamp : ℤ) : List Object → List EventStatus
  | [] => []
  | .event e :: kch =>
    if keeps initialTimestamp e then eventToStatus e :: watchLoop initialTimestamp kch
    else watchLoop initialTimestamp kch
  | .other :: kch => watchLoop initialTimestamp kch

/-- `WatchEventStatus` at a time, from what the watch delivers if it can be created. -/
def watchEventStatus (hasContext hasClient : Bool) (watch : Except String (List Object))
    (now : ℤ) : Except String (List EventStatus) :=
  if !hasContext then .error "WatchEventStatus: nil context "
  else if !hasClient then .error "WatchEventStatus: nil client "
  else
    match watch with
    | .error err => .error err
    | .ok kch => .ok (watchLoop now kch)

/-! ### The clocks -/

/-- The second of an instant. -/
def second (t : ℤ) : ℤ := t / 10 ^ 9

/-- What happened, and when. -/
structure Occurrence where
  status : EventStatus
  created : ℤ
  deriving DecidableEq, Repr

/-- The event that the API server makes of it. -/
def record (o : Occurrence) : Event where
  name := o.status.name
  ns := o.status.ns
  message := o.status.message
  type := o.status.type
  reason := o.status.reason
  creationTimestamp := second o.created * 10 ^ 9

/-- What the watch delivers: events, and other objects between them. -/
def stream (os : List (Option Occurrence)) : List Object :=
  os.map fun
    | some o => .event (record o)
    | none => .other

lemma eventToStatus_record (o : Occurrence) : eventToStatus (record o) = o.status := rfl

/-- **What is sent** are the statuses of the events that are kept, in their order. -/
lemma watchLoop_eq (s : ℤ) (os : List (Option Occurrence)) :
    watchLoop s (stream os) =
      ((os.reduceOption).filter fun o => keeps s (record o)).map Occurrence.status := by
  induction os with
  | nil => rfl
  | cons o os ih =>
    cases o with
    | none => exact ih
    | some o =>
      have hstream : stream (some o :: os) = .event (record o) :: stream os := rfl
      rw [hstream, watchLoop, ih, List.reduceOption_cons_of_some, List.filter_cons]
      split
      · rw [List.map_cons, eventToStatus_record]
      · rfl

lemma keeps_record_iff (s : ℤ) (o : Occurrence) :
    keeps s (record o) = true ↔ s ≤ second o.created * 10 ^ 9 := by
  rw [keeps, Bool.not_eq_true', decide_eq_false_iff_not, not_lt]
  rfl

lemma not_keeps_of_second_lt {s : ℤ} {o : Occurrence} (h : second o.created < second s) :
    keeps s (record o) = false := by
  rw [Bool.eq_false_iff, Ne, keeps_record_iff]
  unfold second at *
  omega

/-- Of what is created after the start, that in the second of the start is not kept, unless the
second has just begun. -/
lemma keeps_iff_of_le {s : ℤ} {o : Occurrence} (h : s ≤ o.created) :
    keeps s (record o) = true ↔ s % 10 ^ 9 = 0 ∨ second o.created ≠ second s := by
  rw [keeps_record_iff]
  unfold second
  omega

/-- **No event of the deployment is lost** just when the watch starts with a second, or nothing is
created in the rest of the second in which it starts. -/
theorem nothing_lost_iff (s : ℤ) (os : List (Option Occurrence)) :
    watchEventStatus true true (.ok (stream os)) s =
      .ok ((os.reduceOption.filter fun o => keeps s (record o)).map Occurrence.status) ∧
    (((∀ o ∈ os.reduceOption, s ≤ o.created → keeps s (record o) = true) ∧
        ∀ o ∈ os.reduceOption, second o.created < second s → keeps s (record o) = false) ↔
      s % 10 ^ 9 = 0 ∨ ∀ o ∈ os.reduceOption, s ≤ o.created → second o.created ≠ second s) := by
  refine ⟨congrArg Except.ok (watchLoop_eq s os), fun ⟨hkept, _⟩ => ?_, fun h => ⟨?_, ?_⟩⟩
  · by_cases hs : s % 10 ^ 9 = 0
    · exact .inl hs
    · exact .inr fun o ho hle => ((keeps_iff_of_le hle).mp (hkept o ho hle)).resolve_left hs
  · exact fun o ho hle => (keeps_iff_of_le hle).mpr (h.imp_right fun hnone => hnone o ho hle)
  · exact fun o _ hlt => not_keeps_of_second_lt hlt

/-- A pod that cannot be scheduled, 700 milliseconds into the sixth second. -/
def unscheduled : Occurrence := ⟨noMemory, 5_700_000_000⟩

/-- The watch is older than the event, and the event is not sent. -/
theorem unscheduled_lost :
    (5_500_000_000 : ℤ) ≤ unscheduled.created ∧
    watchEventStatus true true (.ok (stream [some unscheduled])) 5_500_000_000 = .ok [] := by
  decide

end Kne.EventTimes
