import Kne.PodModel
import Kne.Reporters

/-!
The watchers of `Manager.Create` in `topo/topo.go`: one of pods and one of events, with one `cancel`
between them. `Create` starts the watcher of pods and then that of events, pushes the topology and
waits for its nodes and services; a watcher that cannot be started is only logged. The calls of
`Cleanup` are deferred, so that of the events comes first.

What `Create` does between starting the watchers and returning may end at any time with any error or
with none, and the watchers may receive any statuses and events.
-/

namespace Kne.CreateWatch

open Kne.Runs Kne.PodModel Kne.Reporters

/-! ### The watcher of events -/

structure EventStatus where
  name : String
  ns : String
  message : String
  type : String
  reason : String
  deriving DecidableEq, Repr

structure EventWatcher where
  progress : Bool := false
  lines : List String := []
  deriving DecidableEq, Repr

def EventWatcher.display (w : EventWatcher) (line : String) : EventWatcher :=
  if w.progress then { w with lines := w.lines ++ [line] } else w

def errorMsgs : List String := ["Insufficient memory", "Insufficient cpu"]

/-- `isEventNormal`: with an error it returns false, after it has sent the error and called
`cancel`. -/
def isEventNormal (w : EventWatcher) (s : EventStatus) : EventWatcher × Option String :=
  let w := w.display ("NS: " ++ s.ns ++ " Event name: " ++ s.name ++ " Type: " ++ s.type ++
    " Message: " ++ s.message)
  if ∃ m ∈ errorMsgs, m.toList <:+: s.message.toList then
    (w, some ("Event failed due to " ++ s.reason ++ " . Message: " ++ s.message))
  else (w, none)

/-! ### Both watchers -/

inductive Source
  | pods | events
  deriving DecidableEq, Repr

def State : Source → Type
  | .pods => PodWatcher
  | .events => EventWatcher

/-- A status of a pod comes with what the clock shows while it is looked at. -/
def Input : Source → Type
  | .pods => PodStatus × (ℕ → ℕ)
  | .events => EventStatus

def update : (i : Source) → State i → Input i → State i × Option String
  | .pods, w, (s, clock) => updatePodAt clock w s
  | .events, w, s => isEventNormal w s

/-- `Create` after it has made the context that `cancel` ends. -/
def create (states : (i : Source) → State i) : System State String :=
  init states [.pods, .events]

/-- **Failures are reported.** In every interleaving a watcher sends at most one error and does not
have to wait for it. If a watcher has called `cancel` before the first `Cleanup`, then `Create`,
once its work is over, returns after a number of steps that is known, and what it returns, also if
other steps come between, is an error that a watcher has sent. -/
theorem watcher_failure_reported (states : (i : Source) → State i)
    {as : List (Act Input String)} {s : System State String}
    (h : run (step update) (create states) as = some s) :
    (∀ i, (s.reporters i).sent.length ≤ 1) ∧
    (∀ i err, (s.reporters i).pos = .sending err → (step update s (.send i)).isSome = true) ∧
    (s.early = true → (∀ todo defers, s.main ≠ .working todo defers) →
      ∃ t err, run (step update) s (List.replicate s.main.rest .unwind) = some t ∧
        t.main = .returned (some err) ∧ t.Reported err) ∧
    (s.early = true → ∀ r, s.main = .returned r → ∃ err, r = some err ∧ s.Reported err) := by
  have hnodup : [Source.pods, .events].Nodup := by decide
  have hgood := good_run hnodup h
  refine ⟨fun i => (hgood.sound i).once, fun i err => hgood.send_some, fun he hwork => ?_,
    fun he r => hgood.returned he⟩
  obtain ⟨t, r, hrun, hmain, hearly⟩ := unwind_run update rfl hwork
  have hgood' := good_run hnodup (run_trans (step update) h hrun)
  obtain ⟨err, rfl, hsent⟩ := hgood'.returned (hearly.trans he) hmain
  exact ⟨t, err, hrun, hmain, hsent⟩

/-- A pod that does not fit. -/
def noMemory : EventStatus where
  name := "r1.1"
  ns := "lab"
  message := "0/1 nodes are available: 1 Insufficient memory."
  type := "Warning"
  reason := "FailedScheduling"

/-- The watcher of events fails while `Create` is at work, and the work ends because of it. -/
def unschedulable : List (Act Input String) :=
  [.start true, .start true, .receive .events noMemory, .send .events, .cancel .events,
    .ctxDone .pods, .finish (some "context canceled"), .unwind, .unwind, .unwind, .unwind, .unwind]

def quiet : (i : Source) → State i
  | .pods => ({} : PodWatcher)
  | .events => ({} : EventWatcher)

theorem unschedulable_reported : ∃ s, run (step update) (create quiet) unschedulable = some s ∧
    s.early = true ∧ s.main = .returned (some ("Event failed due to FailedScheduling . Message: " ++
      "0/1 nodes are available: 1 Insufficient memory.")) ∧
    ∃ err, s.main.result = some err ∧ s.Reported err := by
  have hrun : ∃ s, run (step update) (create quiet) unschedulable = some s ∧ s.early = true ∧
      s.main = .returned (some ("Event failed due to FailedScheduling . Message: " ++
        "0/1 nodes are available: 1 Insufficient memory.")) := ⟨_, rfl, rfl, rfl⟩
  obtain ⟨s, hs, hearly, hmain⟩ := hrun
  refine ⟨s, hs, hearly, hmain, ?_⟩
  rw [hmain]
  exact (watcher_failure_reported quiet hs).2.2.2 hearly _ hmain

end Kne.CreateWatch
