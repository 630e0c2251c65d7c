import Mathlib.Tactic

/-!
Watching the pods of a topology: `PodToStatus`, `Equal` and `WatchPodStatus` in `pods/pods.go`, and
`Watcher.updatePod` in `pods/status.go`.

The watcher compares each status with the states it has seen and notes what has changed. A pod that
has failed, or a container whose image does not exist, ends the watch with an error. The time that
an image takes to be pulled comes last: `updatePodAt` reads a clock, and as long as no pull takes
too long it does what `updatePod` does. The timestamps of what is printed are left out.
-/

namespace Kne.PodModel

/-! ### Pods and their status -/

structure Waiting where
  reason : String
  message : String := ""
  deriving DecidableEq, Repr

/-- What the program reads of a container in the status of a pod. -/
structure RawContainer where
  name : String
  image : String := ""
  ready : Bool := false
  running : Bool := false
  waiting : Option Waiting := none
  deriving DecidableEq, Repr

inductive Phase
  | pending | running | succeeded | failed
  | other (name : String)
  deriving DecidableEq, Repr

structure RawPod where
  name : String
  ns : String
  uid : String
  phase : Phase
  deletionTimestamp : Option ℕ := none
  containerStatuses : List RawContainer := []
  initContainerStatuses : List RawContainer := []
  deriving DecidableEq, Repr

structure ContainerStatus where
  name : String
  image : String
  ready : Bool
  reason : String
  message : String
  deriving DecidableEq, Repr

structure PodStatus where
  name : String
  uid : String
  ns : String
  phase : Phase
  ready : Bool
  containers : List ContainerStatus
  initContainers : List ContainerStatus
  pod : RawPod
  deriving DecidableEq, Repr

def containerStatus (cs : RawContainer) : ContainerStatus where
  name := cs.name
  image := cs.image
  ready := cs.ready || cs.running
  reason := (cs.waiting.map Waiting.reason).getD ""
  message := (cs.waiting.map Waiting.message).getD ""

/-- The containers by their names. -/
def containerStatuses (css : List RawContainer) : List ContainerStatus :=
  (css.map containerStatus).insertionSort fun c d => c.name ≤ d.name

/-- `PodToStatus`. -/
def podToStatus (pod : RawPod) : PodStatus where
  name := pod.name
  uid := pod.uid
  ns := pod.ns
  phase := pod.phase
  ready := 0 < pod.containerStatuses.length + pod.initContainerStatuses.length &&
    (containerStatuses pod.containerStatuses).all ContainerStatus.ready &&
    (containerStatuses pod.initContainerStatuses).all ContainerStatus.ready
  containers := containerStatuses pod.containerStatuses
  initContainers := containerStatuses pod.initContainerStatuses
  pod := pod

def ContainerStatus.equal (c oc : ContainerStatus) : Bool :=
  !(c.name != oc.name || c.image != oc.image || c.ready != oc.ready || c.reason != oc.reason ||
    c.message != oc.message)

/-- `PodStatus.Equal`; it does not look at the pod itself. -/
def PodStatus.equal (p q : PodStatus) : Bool :=
  !(p.uid != q.uid || p.name != q.name || p.ns != q.ns || p.phase != q.phase ||
      p.containers.length != q.containers.length ||
      p.initContainers.length != q.initContainers.length) &&
    (p.containers.zip q.containers).all (fun (c, d) => c.equal d) &&
    (p.initContainers.zip q.initContainers).all fun (c, d) => c.equal d

/-! ### The stream of statuses -/

/-- What the API server sends: a pod, or an object that is ignored. -/
inductive Event
  | pod (p : RawPod)
  | other
  deriving DecidableEq, Repr

/-- The statuses seen last, by uid. -/
abbrev Seen := String → Option PodStatus

/-- The status is dropped as a repetition. -/
def repeats (seen : Seen) (s : PodStatus) : Bool :=
  match seen s.uid with
  | some os => s.equal os
  | none => false

/-- The loop of `WatchPodStatus`: what it sends on its channel. -/
def forwarded (seen : Seen) : List Event → List PodStatus
  | [] => []
  | .other :: es => forwarded seen es
  | .pod p :: es =>
    let s := podToStatus p
    if repeats seen s then forwarded seen es
    else s :: forwarded (Function.update seen s.uid (some s)) es

/-- The status of every event. -/
def statuses (es : List Event) : List PodStatus :=
  es.filterMap fun
    | .pod p => some (podToStatus p)
    | .other => none

/-! ### The watcher -/

/-- The states of a pod; `unknown` is the empty text. -/
inductive PodState
  | unknown | terminating | ready | pending | running | success | failed
  deriving DecidableEq, Repr

def PodState.text : PodState → String
  | .unknown => ""
  | .terminating => "terminating"
  | .ready => "READY"
  | .pending => "pending"
  | .running => "running"
  | .success => "success"
  | .failed => "failed"

def PodStatus.state (s : PodStatus) : PodState :=
  if s.pod.deletionTimestamp.isSome then .terminating
  else if s.ready then .ready
  else
    match s.phase with
    | .pending => .pending
    | .running => .running
    | .succeeded => .success
    | .failed => .failed
    | .other _ => .unknown

inductive Change
  | pod (uid : String) (state : PodState)
  | container (id state : String)
  deriving DecidableEq, Repr

/-- The watcher: the maps of states, what is printed with the pod it is about, and the changes in
their order. -/
structure Watcher where
  podStates : String → Option PodState := fun _ => none
  cStates : String → Option String := fun _ => none
  currentNamespace : String := ""
  currentPod : String := ""
  progress : Bool := false
  lines : List String := []
  changes : List Change := []

def Watcher.display (w : Watcher) (line : String) : Watcher :=
  if w.progress then { w with lines := w.lines ++ [line] } else w

def Watcher.showPodState (w : Watcher) (s : PodStatus) (oldState newState : PodState) : Watcher :=
  if w.currentPod = s.uid ∧ oldState = newState then w
  else
    let w := { w with currentPod := s.uid }
    let w := if s.ns = w.currentNamespace then w
      else { w with currentNamespace := s.ns }.display ("NS: " ++ s.ns)
    if newState = .unknown then w.display ("    POD: " ++ s.name)
    else w.display ("    POD: " ++ s.name ++ " is now " ++ newState.text)

def containerId (s : PodStatus) (c : ContainerStatus) : String :=
  s.ns ++ ":" ++ s.name ++ ":" ++ c.name

def Watcher.showContainer (w : Watcher) (s : PodStatus) (c : ContainerStatus) (state : String) :
    Watcher :=
  let id := containerId s c
  if (w.cStates id).getD "" = state then w
  else
    let w := w.showPodState s .unknown .unknown
    { w with
      cStates := Function.update w.cStates id (some state)
      changes := w.changes ++ [Change.container id state] }.display
        ("         CONTAINER: " ++ c.name ++ " is now " ++ state)

def fullName (s : PodStatus) (c : ContainerStatus) : String :=
  "NS:" ++ s.ns ++ " POD:" ++ s.name ++ " CONTAINER:" ++ c.name

/-- The image of the container does not exist: `strings.Contains(c.Message, "code = NotFound")`. -/
def NotFound (c : ContainerStatus) : Prop :=
  c.reason = "ErrImagePull" ∧ "code = NotFound".toList <:+: c.message.toList

instance (c : ContainerStatus) : Decidable (NotFound c) :=
  inferInstanceAs (Decidable (_ ∧ _))

/-- The loop over the containers. It returns the error with which the watch ends, if it does. -/
def updateContainers (s : PodStatus) : List ContainerStatus → Watcher → Watcher × Option String
  | [], w => (w, none)
  | c :: cs, w =>
    if c.ready then updateContainers s cs (w.showContainer s c "READY")
    else if NotFound c then
      (w.showContainer s c "FAILED", some (fullName s c ++ " IMAGE:" ++ c.image ++ " not found"))
    else updateContainers s cs (w.showContainer s c c.reason)

/-- The change of the state of a pod. -/
def Watcher.setPodState (w : Watcher) (s : PodStatus) : Watcher :=
  let oldState := (w.podStates s.uid).getD .unknown
  if oldState = s.state then w
  else
    let w := w.showPodState s oldState s.state
    { w with
      podStates := Function.update w.podStates s.uid (some s.state)
      changes := w.changes ++ [Change.pod s.uid s.state] }

/-- `updatePod`: with an error it returns false, after it has sent the error and called `cancel`. -/
def updatePod (w : Watcher) (s : PodStatus) : Watcher × Option String :=
  let w := w.setPodState s
  match s.state with
  | .failed => (w, some ("Pod " ++ s.name ++ " failed to deploy"))
  | .terminating => (w, none)
  | .unknown | .ready | .pending | .running | .success =>
    updateContainers s (s.containers ++ s.initContainers) w

/-- The loop of `watch` over the statuses that it receives. -/
def watch (w : Watcher) : List PodStatus → Watcher × Option String
  | [] => (w, none)
  | s :: ss =>
    match updatePod w s with
    | (w', some err) => (w', some err)
    | (w', none) => watch w' ss

/-! ### The time to pull an image -/

/-- `MaxPullTime`, in nanoseconds. -/
def maxPullTime : ℕ := 15 * 60 * 10 ^ 9

/-- The watcher with the times at which it has first seen that an image of a pod is not there. -/
structure PodWatcher where
  watcher : Watcher := {}
  podStart : String → Option ℕ := fun _ => none

def PodWatcher.showContainer (w : PodWatcher) (s : PodStatus) (c : ContainerStatus)
    (state : String) : PodWatcher :=
  { w with watcher := w.watcher.showContainer s c state }

/-- The loop over the containers with what the clock shows at each of them. -/
def updateContainersAt (s : PodStatus) :
    List ContainerStatus → (ℕ → ℕ) → PodWatcher → PodWatcher × Option String
  | [], _, w => (w, none)
  | c :: cs, clock, w =>
    let later := fun k => clock (k + 1)
    if c.ready then updateContainersAt s cs later (w.showContainer s c "READY")
    else if NotFound c then
      (w.showContainer s c "FAILED", some (fullName s c ++ " IMAGE:" ++ c.image ++ " not found"))
    else if c.reason = "ErrImagePull" then
      match w.podStart s.uid with
      | some t =>
        if t + maxPullTime < clock 0 then
          (w.showContainer s c "PULL TIMED OUT",
            some (fullName s c ++ " IMAGE:" ++ c.image ++ " pull timed out after 15m0s"))
        else updateContainersAt s cs later (w.showContainer s c c.reason)
      | none =>
        let w := { w with podStart := Function.update w.podStart s.uid (some (clock 0)) }
        updateContainersAt s cs later (w.showContainer s c c.reason)
    else updateContainersAt s cs later (w.showContainer s c c.reason)

def updatePodAt (clock : ℕ → ℕ) (w : PodWatcher) (s : PodStatus) : PodWatcher × Option String :=
  let w := { w with watcher := w.watcher.setPodState s }
  match s.state with
  | .failed => (w, some ("Pod " ++ s.name ++ " failed to deploy"))
  | .terminating => (w, none)
  | .unknown | .ready | .pending | .running | .success =>
    updateContainersAt s (s.containers ++ s.initContainers) clock w

/-- The clock shows no time that is too late. -/
structure InTime (clock : ℕ → ℕ) (start : Option ℕ) : Prop where
  seen : ∀ t, start = some t → ∀ k, clock k ≤ t + maxPullTime
  short : ∀ j k, clock k ≤ clock j + maxPullTime

lemma InTime.later {clock : ℕ → ℕ} {start : Option ℕ} (h : InTime clock start) :
    InTime (fun k => clock (k + 1)) start :=
  ⟨fun t ht k => h.seen t ht (k + 1), fun j k => h.short (j + 1) (k + 1)⟩

lemma InTime.first {clock : ℕ → ℕ} {start : Option ℕ} (h : InTime clock start) :
    InTime clock (some (clock 0)) := by
  refine ⟨fun t ht k => ?_, h.short⟩
  cases ht
  exact h.short 0 k

lemma updateContainersAt_eq (s : PodStatus) (cs : List ContainerStatus) (clock : ℕ → ℕ)
    (w : PodWatcher) (h : InTime clock (w.podStart s.uid)) :
    (updateContainersAt s cs clock w).map PodWatcher.watcher id =
      updateContainers s cs w.watcher := by
  induction cs generalizing clock w with
  | nil => rfl
  | cons c cs ih =>
    simp only [updateContainersAt, updateContainers]
    split_ifs with hready hfound hpull
    · exact ih _ _ h.later
    · rfl
    · cases hstart : w.podStart s.uid with
      | none =>
        refine ih _ _ ?_
        simp only [PodWatcher.showContainer, Function.update_self]
        exact h.first.later
      | some t =>
        have hnow : ¬ t + maxPullTime < clock 0 := Nat.not_lt.mpr (h.seen t hstart 0)
        simp only [hnow, if_false]
        exact ih _ _ h.later
    · exact ih _ _ h.later

/-- **No pull takes too long.** The watcher then does what it does without a clock. -/
theorem updatePodAt_eq (clock : ℕ → ℕ) (w : PodWatcher) (s : PodStatus)
    (h : InTime clock (w.podStart s.uid)) :
    (updatePodAt clock w s).map PodWatcher.watcher id = updatePod w.watcher s := by
  simp only [updatePodAt, updatePod]
  split
  · rfl
  · rfl
  all_goals exact updateContainersAt_eq s _ clock _ h

end Kne.PodModel
