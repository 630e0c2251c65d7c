import Kne.PodModel
import Kne.Runs

/-!
Whether the watcher notices that repeated statuses are dropped. Two watchers are fed with the same
events, one with every status and one with those that `WatchPodStatus` forwards. A status that is
dropped is equal to one that came before in all that `Equal` compares, and the watcher looks at one
thing more, the mark of a pod that is being deleted. Besides, it keeps the states of containers by
the names of pods and not by their uids.
-/

namespace Kne.PodDedup

open Kne.Runs Kne.PodModel

variable {w : Watcher} {s os : PodStatus} {c : ContainerStatus} {cs : List ContainerStatus}

/-! ### Equal statuses -/

lemma container_equal_iff {d : ContainerStatus} : c.equal d = true ↔ c = d := by
  obtain ⟨name, image, ready, reason, message⟩ := c
  obtain ⟨name', image', ready', reason', message'⟩ := d
  simp [ContainerStatus.equal, and_assoc]

lemma zip_all_equal_iff {ds : List ContainerStatus} (h : cs.length = ds.length) :
    (cs.zip ds).all (fun (c, d) => c.equal d) = true ↔ cs = ds := by
  induction cs generalizing ds with
  | nil =>
    obtain rfl : ds = [] := List.length_eq_zero_iff.mp h.symm
    simp
  | cons c cs ih =>
    obtain ⟨d, ds, rfl⟩ := List.exists_cons_of_length_eq_add_one h.symm
    have hlen : cs.length = ds.length := by simpa using h
    have hrest := ih hlen
    simp only [List.zip_cons_cons, List.all_cons, Bool.and_eq_true, container_equal_iff, hrest,
      List.cons.injEq]

lemma equal_iff : s.equal os = true ↔
    s.uid = os.uid ∧ s.name = os.name ∧ s.ns = os.ns ∧ s.phase = os.phase ∧
      s.containers = os.containers ∧ s.initContainers = os.initContainers := by
  unfold PodStatus.equal
  constructor
  · intro h
    simp only [Bool.and_eq_true, Bool.not_eq_true', Bool.or_eq_false_iff, bne_eq_false_iff_eq] at h
    obtain ⟨⟨⟨⟨⟨⟨⟨huid, hname⟩, hns⟩, hphase⟩, hlen⟩, hlen'⟩, hall⟩, hall'⟩ := h
    exact ⟨huid, hname, hns, hphase, (zip_all_equal_iff hlen).mp hall,
      (zip_all_equal_iff hlen').mp hall'⟩
  · rintro ⟨huid, hname, hns, hphase, hcs, hics⟩
    simp only [huid, hname, hns, hphase, hcs, hics, bne_self_eq_false, Bool.or_self, Bool.not_false,
      Bool.true_and, Bool.and_eq_true]
    exact ⟨(zip_all_equal_iff rfl).mpr rfl, (zip_all_equal_iff rfl).mpr rfl⟩

/-- The pod is marked as being deleted. -/
def Marked (s : PodStatus) : Prop := s.pod.deletionTimestamp.isSome = true

instance (s : PodStatus) : Decidable (Marked s) := inferInstanceAs (Decidable (_ = true))

lemma length_containerStatuses (css : List RawContainer) :
    (containerStatuses css).length = css.length := by
  simp [containerStatuses]

lemma state_eq (s : PodStatus) : s.state =
    if Marked s then .terminating else if s.ready then .ready
    else match s.phase with
      | .pending => .pending
      | .running => .running
      | .succeeded => .success
      | .failed => .failed
      | .other _ => .unknown := rfl

lemma state_of_marked (h : Marked s) : s.state = .terminating := by
  rw [state_eq, if_pos h]

lemma state_ne_of_not_marked (h : ¬ Marked s) : s.state ≠ .terminating := by
  rw [state_eq, if_neg h]
  split_ifs
  · simp
  · cases s.phase <;> simp

lemma state_eq_iff {p q : RawPod} (h : (podToStatus p).equal (podToStatus q) = true) :
    (podToStatus p).state = (podToStatus q).state ↔
      (Marked (podToStatus p) ↔ Marked (podToStatus q)) := by
  obtain ⟨-, -, -, hphase, hcs, hics⟩ := equal_iff.mp h
  have hready : (podToStatus p).ready = (podToStatus q).ready := by
    have hlen := congrArg List.length hcs
    have hlen' := congrArg List.length hics
    simp only [podToStatus, length_containerStatuses] at hlen hlen'
    simp only [podToStatus] at hcs hics ⊢
    rw [hcs, hics, hlen, hlen']
  by_cases hp : Marked (podToStatus p) <;> by_cases hq : Marked (podToStatus q)
  · exact iff_of_true ((state_of_marked hp).trans (state_of_marked hq).symm) (iff_of_true hp hq)
  · refine iff_of_false ?_ (fun h => hq (h.mp hp))
    rw [state_of_marked hp]
    exact (state_ne_of_not_marked hq).symm
  · refine iff_of_false ?_ (fun h => hp (h.mpr hq))
    rw [state_of_marked hq]
    exact state_ne_of_not_marked hp
  · refine iff_of_true ?_ (iff_of_false hp hq)
    rw [state_eq, state_eq, if_neg hp, if_neg hq, hready, hphase]

/-! ### Updates that change nothing -/

@[simp] lemma display_changes (w : Watcher) (line : String) :
    (w.display line).changes = w.changes := by
  unfold Watcher.display
  split_ifs <;> rfl

@[simp] lemma display_podStates (w : Watcher) (line : String) :
    (w.display line).podStates = w.podStates := by
  unfold Watcher.display
  split_ifs <;> rfl

@[simp] lemma showPodState_changes (w : Watcher) (s : PodStatus) (old new : PodState) :
    (w.showPodState s old new).changes = w.changes := by
  simp only [Watcher.showPodState]
  split_ifs <;> simp

@[simp] lemma showPodState_podStates (w : Watcher) (s : PodStatus) (old new : PodState) :
    (w.showPodState s old new).podStates = w.podStates := by
  simp only [Watcher.showPodState]
  split_ifs <;> simp

@[simp] lemma showContainer_podStates (w : Watcher) (s : PodStatus) (c : ContainerStatus)
    (state : String) : (w.showContainer s c state).podStates = w.podStates := by
  simp only [Watcher.showContainer]
  split_ifs <;> simp

lemma showContainer_of_eq {state : String} (h : (w.cStates (containerId s c)).getD "" = state) :
    w.showContainer s c state = w := by
  simp only [Watcher.showContainer, h, if_true]

lemma length_changes_showContainer {state : String}
    (h : (w.cStates (containerId s c)).getD "" ≠ state) :
    (w.showContainer s c state).changes.length = w.changes.length + 1 := by
  simp only [Watcher.showContainer, h, if_false, display_changes, showPodState_changes,
    List.length_append, List.length_singleton]

lemma length_changes_le_showContainer (w : Watcher) (s : PodStatus) (c : ContainerStatus)
    (state : String) : w.changes.length ≤ (w.showContainer s c state).changes.length := by
  by_cases h : (w.cStates (containerId s c)).getD "" = state
  · rw [showContainer_of_eq h]
  · rw [length_changes_showContainer h]
    omega

lemma length_changes_updateContainers (s : PodStatus) (cs : List ContainerStatus) (w : Watcher) :
    w.changes.length ≤ (updateContainers s cs w).1.changes.length := by
  induction cs generalizing w with
  | nil => exact le_rfl
  | cons c cs ih =>
    rw [updateContainers]
    split_ifs
    · exact (length_changes_le_showContainer w s c _).trans (ih _)
    · exact length_changes_le_showContainer w s c _
    · exact (length_changes_le_showContainer w s c _).trans (ih _)

/-- The state under which a container is noted. -/
def cState (c : ContainerStatus) : String := if c.ready then "READY" else c.reason

/-- The container ends the watch. -/
def Ends (c : ContainerStatus) : Prop := c.ready = false ∧ NotFound c

/-- The states of the containers are known already. -/
def Known (w : Watcher) (s : PodStatus) (cs : List ContainerStatus) : Prop :=
  ∀ c ∈ cs, (w.cStates (containerId s c)).getD "" = cState c

lemma updateContainers_cons (h : ¬ Ends c) :
    updateContainers s (c :: cs) w = updateContainers s cs (w.showContainer s c (cState c)) := by
  rw [updateContainers, cState]
  by_cases hr : c.ready = true
  · rw [if_pos hr, if_pos hr]
  · have hn : ¬ NotFound c := fun hn => h ⟨by simpa using hr, hn⟩
    rw [if_neg hr, if_neg hn, if_neg hr]

lemma updateContainers_ends (h : Ends c) : (updateContainers s (c :: cs) w).2 ≠ none := by
  rw [updateContainers, if_neg (by simp [h.1]), if_pos h.2]
  simp

lemma not_ends_of_updateContainers (h : (updateContainers s cs w).2 = none) :
    ∀ c ∈ cs, ¬ Ends c := by
  induction cs generalizing w with
  | nil => simp
  | cons c cs ih =>
    have hc : ¬ Ends c := fun hc => updateContainers_ends hc h
    rw [updateContainers_cons hc] at h
    exact List.forall_mem_cons.mpr ⟨hc, ih h⟩

lemma updateContainers_of_known (hends : ∀ c ∈ cs, ¬ Ends c) (h : Known w s cs) :
    updateContainers s cs w = (w, none) := by
  induction cs with
  | nil => rfl
  | cons c cs ih =>
    obtain ⟨hc, hcs⟩ := List.forall_mem_cons.mp hends
    obtain ⟨hknown, hrest⟩ := List.forall_mem_cons.mp h
    rw [updateContainers_cons hc, showContainer_of_eq hknown]
    exact ih hcs hrest

lemma known_of_updateContainers (hends : ∀ c ∈ cs, ¬ Ends c)
    (h : (updateContainers s cs w).1.changes = w.changes) : Known w s cs := by
  induction cs with
  | nil => simp [Known]
  | cons c cs ih =>
    obtain ⟨hc, hcs⟩ := List.forall_mem_cons.mp hends
    rw [updateContainers_cons hc] at h
    have hknown : (w.cStates (containerId s c)).getD "" = cState c := by
      by_contra hnew
      -- the change is still there at the end
      have hle := length_changes_updateContainers s cs (w.showContainer s c (cState c))
      rw [h, length_changes_showContainer hnew] at hle
      omega
    rw [showContainer_of_eq hknown] at h
    exact List.forall_mem_cons.mpr ⟨hknown, ih hcs h⟩

lemma updateContainers_podStates (s : PodStatus) (cs : List ContainerStatus) (w : Watcher) :
    (updateContainers s cs w).1.podStates = w.podStates := by
  induction cs generalizing w with
  | nil => rfl
  | cons c cs ih =>
    rw [updateContainers]
    split_ifs
    · rw [ih, showContainer_podStates]
    · rw [showContainer_podStates]
    · rw [ih, showContainer_podStates]

/-- The containers are looked at. -/
def allContainers (s : PodStatus) : List ContainerStatus := s.containers ++ s.initContainers

lemma updatePod_eq (w : Watcher) (s : PodStatus) : updatePod w s =
    if s.state = .failed then
      (w.setPodState s, some ("Pod " ++ s.name ++ " failed to deploy"))
    else if Marked s then (w.setPodState s, none)
    else updateContainers s (allContainers s) (w.setPodState s) := by
  have hmarked : Marked s ↔ s.state = .terminating :=
    ⟨state_of_marked, fun h => not_not.mp fun hn => state_ne_of_not_marked hn h⟩
  simp only [updatePod, hmarked]
  cases s.state <;> rfl

lemma setPodState_podStates (w : Watcher) (s : PodStatus) :
    ((w.setPodState s).podStates s.uid).getD .unknown = s.state := by
  simp only [Watcher.setPodState]
  split_ifs with h
  · exact h
  · simp

lemma setPodState_podStates_ne (w : Watcher) {uid : String} (h : uid ≠ s.uid) :
    (w.setPodState s).podStates uid = w.podStates uid := by
  simp only [Watcher.setPodState]
  split_ifs
  · rfl
  · simp [Function.update_of_ne h]

lemma setPodState_of_eq (h : (w.podStates s.uid).getD .unknown = s.state) :
    w.setPodState s = w := by
  simp only [Watcher.setPodState, h, if_true]

lemma length_changes_setPodState (h : (w.podStates s.uid).getD .unknown ≠ s.state) :
    (w.setPodState s).changes.length = w.changes.length + 1 := by
  simp only [Watcher.setPodState, h, if_false, showPodState_changes, List.length_append,
    List.length_singleton]

lemma length_changes_updatePod (w : Watcher) (s : PodStatus) :
    (w.setPodState s).changes.length ≤ (updatePod w s).1.changes.length := by
  rw [updatePod_eq]
  split_ifs
  · exact le_rfl
  · exact le_rfl
  · exact length_changes_updateContainers _ _ _

/-- The status has gone through without an error. -/
def Passes (s : PodStatus) : Prop :=
  s.state ≠ .failed ∧ (Marked s ∨ ∀ c ∈ allContainers s, ¬ Ends c)

lemma passes_of_updatePod (h : (updatePod w s).2 = none) : Passes s := by
  rw [updatePod_eq] at h
  split_ifs at h with hfailed hmarked
  · exact ⟨hfailed, Or.inl hmarked⟩
  · exact ⟨hfailed, Or.inr (not_ends_of_updateContainers h)⟩

/-- The status tells the watcher nothing: it knows the state of the pod and, unless the pod is
marked, those of its containers. -/
def Stale (w : Watcher) (s : PodStatus) : Prop :=
  (w.podStates s.uid).getD .unknown = s.state ∧ (Marked s ∨ Known w s (allContainers s))

lemma updatePod_of_stale (hpass : Passes s) (h : Stale w s) : updatePod w s = (w, none) := by
  rw [updatePod_eq, if_neg hpass.1, setPodState_of_eq h.1]
  by_cases hmarked : Marked s
  · rw [if_pos hmarked]
  · rw [if_neg hmarked]
    exact updateContainers_of_known (hpass.2.resolve_left hmarked) (h.2.resolve_left hmarked)

lemma podState_of_updatePod (h : (updatePod w s).1.changes = w.changes) :
    (w.podStates s.uid).getD .unknown = s.state := by
  by_contra hnew
  have hle := length_changes_updatePod w s
  rw [h, length_changes_setPodState hnew] at hle
  omega

lemma stale_of_updatePod (hpass : Passes s) (h : (updatePod w s).1.changes = w.changes) :
    Stale w s := by
  have hstate := podState_of_updatePod h
  rw [updatePod_eq, if_neg hpass.1, setPodState_of_eq hstate] at h
  refine ⟨hstate, ?_⟩
  by_cases hmarked : Marked s
  · exact Or.inl hmarked
  · rw [if_neg hmarked] at h
    exact Or.inr (known_of_updateContainers (hpass.2.resolve_left hmarked) h)

lemma updatePod_podStates (w : Watcher) (s : PodStatus) :
    (updatePod w s).1.podStates = (w.setPodState s).podStates := by
  rw [updatePod_eq]
  split_ifs
  · rfl
  · rfl
  · exact updateContainers_podStates _ _ _

/-! ### Two watchers -/

/-- A watcher with the error that has ended its watch. -/
abbrev Progress := Watcher × Option String

def feed (p : Progress) (s : PodStatus) : Progress :=
  match p.2 with
  | none => updatePod p.1 s
  | some _ => p

lemma foldl_feed_ended {p : Progress} {err : String} (h : p.2 = some err) (ss : List PodStatus) :
    ss.foldl feed p = p := by
  induction ss with
  | nil => rfl
  | cons s ss ih =>
    have hfeed : feed p s = p := by rw [feed, h]
    rw [List.foldl_cons, hfeed, ih]

lemma watch_eq_foldl (w : Watcher) (ss : List PodStatus) :
    watch w ss = ss.foldl feed (w, none) := by
  induction ss generalizing w with
  | nil => rfl
  | cons s ss ih =>
    rw [watch, List.foldl_cons, feed]
    simp only
    cases hs : updatePod w s with
    | mk w' err =>
      cases err with
      | none => exact ih w'
      | some err => exact (foldl_feed_ended rfl ss).symm

/-- The watcher that gets every status and the one that gets what is forwarded. -/
structure Pair where
  seen : Seen
  full : Progress
  deduped : Progress

def step (st : Pair) : Event → Option Pair
  | .other => some st
  | .pod p =>
    let s := podToStatus p
    if repeats st.seen s then some { st with full := feed st.full s }
    else some {
      seen := Function.update st.seen s.uid (some s)
      full := feed st.full s
      deduped := feed st.deduped s }

def start (w : Watcher) : Pair := ⟨fun _ => none, (w, none), (w, none)⟩

lemma run_pair (st : Pair) (es : List Event) : ∃ seen, run step st es = some
    ⟨seen, (statuses es).foldl feed st.full, (forwarded st.seen es).foldl feed st.deduped⟩ := by
  induction es generalizing st with
  | nil => exact ⟨st.seen, rfl⟩
  | cons e es ih =>
    rw [run_cons]
    cases e with
    | other => exact ih st
    | pod p =>
      rw [step, forwarded]
      split_ifs
      · exact ih _
      · exact ih _

/-- A dropped status changes nothing: the watch has ended, or the status is marked as the one that
was forwarded and the containers of a pod that is not marked are in the states that are known. -/
def Harmless (st : Pair) : Event → Prop
  | .other => True
  | .pod p => ∀ os, st.seen p.uid = some os → (podToStatus p).equal os = true →
      st.deduped.2 ≠ none ∨ (Marked (podToStatus p) ↔ Marked os) ∧ (Marked (podToStatus p) ∨
        Known st.deduped.1 (podToStatus p) (allContainers (podToStatus p)))

/-- What the watcher of all statuses has kept of those that were forwarded. -/
def Kept (st : Pair) : Prop :=
  ∀ uid os, st.seen uid = some os → (∃ q, os = podToStatus q) ∧
    (st.full.2 = none → Passes os ∧ (st.full.1.podStates uid).getD .unknown = os.state)

variable {st st' : Pair} {e : Event}

lemma repeats_iff {seen : Seen} :
    repeats seen s = true ↔ ∃ os, seen s.uid = some os ∧ s.equal os = true := by
  unfold repeats
  cases seen s.uid <;> simp

lemma passes_of_equal {p q : RawPod} (h : (podToStatus p).equal (podToStatus q) = true)
    (hm : Marked (podToStatus p) ↔ Marked (podToStatus q)) (hq : Passes (podToStatus q)) :
    Passes (podToStatus p) := by
  obtain ⟨-, -, -, -, hcs, hics⟩ := equal_iff.mp h
  have hall : allContainers (podToStatus p) = allContainers (podToStatus q) := by
    rw [allContainers, hcs, hics, allContainers]
  exact ⟨by rw [(state_eq_iff h).mpr hm]; exact hq.1, by rw [hm, hall]; exact hq.2⟩

/-- **One event.** Watchers that agree still do after a harmless event. -/
lemma agree_step (hagree : st.full = st.deduped) (hkept : Kept st) (h : step st e = some st')
    (hharm : Harmless st e) : st'.full = st'.deduped := by
  cases e with
  | other =>
    cases h
    exact hagree
  | pod p =>
    rw [step] at h
    split_ifs at h with hrep
    · cases h
      obtain ⟨os, hos, heq⟩ := repeats_iff.mp hrep
      obtain ⟨⟨q, rfl⟩, hfull⟩ := hkept p.uid os hos
      have hcase := hharm _ hos heq
      simp only [← hagree] at hcase ⊢
      rcases hf : st.full with ⟨w, err⟩
      rw [hf] at hfull hcase
      cases err with
      | some err => rfl
      | none =>
        obtain ⟨hpass, hstate⟩ := hfull rfl
        obtain ⟨hm, hknown⟩ := hcase.resolve_left (by simp)
        exact updatePod_of_stale (passes_of_equal heq hm hpass)
          ⟨hstate.trans ((state_eq_iff heq).mpr hm).symm, hknown⟩
    · cases h
      simp only [hagree]

/-- What the watchers are compared in: the states, the changes in their order and the error. -/
def Same (p q : Progress) : Prop :=
  p.1.podStates = q.1.podStates ∧ p.1.cStates = q.1.cStates ∧ p.1.changes = q.1.changes ∧ p.2 = q.2

lemma harmless_of_same (hagree : st.full = st.deduped) (hkept : Kept st)
    (h : step st e = some st') (hsame : Same st'.full st'.deduped) : Harmless st e := by
  cases e with
  | other => trivial
  | pod p =>
    intro os hos heq
    have hrep : repeats st.seen (podToStatus p) = true := repeats_iff.mpr ⟨os, hos, heq⟩
    rw [step, if_pos hrep] at h
    cases h
    obtain ⟨⟨q, rfl⟩, hfull⟩ := hkept p.uid os hos
    simp only [← hagree] at hsame ⊢
    rcases hf : st.full with ⟨w, err⟩
    rw [hf] at hfull hsame
    cases err with
    | some err => exact Or.inl (by simp)
    | none =>
      obtain ⟨hpass, hstate⟩ := hfull rfl
      have hchanges : (updatePod w (podToStatus p)).1.changes = w.changes := hsame.2.2.1
      have hm := (state_eq_iff heq).mp ((podState_of_updatePod hchanges).symm.trans hstate)
      exact Or.inr ⟨hm, (stale_of_updatePod (passes_of_equal heq hm hpass) hchanges).2⟩

lemma kept_step (hagree : st.full = st.deduped) (hkept : Kept st) (h : step st e = some st')
    (hagree' : st'.full = st'.deduped) : Kept st' := by
  cases e with
  | other =>
    cases h
    exact hkept
  | pod p =>
    rw [step] at h
    split_ifs at h with hrep
    · cases h
      intro uid os hos
      have hfull : feed st.full (podToStatus p) = st.full := hagree'.trans hagree.symm
      rw [hfull]
      exact hkept uid os hos
    · cases h
      intro uid os hos
      -- without an error now there was none before
      have hnone : (feed st.full (podToStatus p)).2 = none →
          feed st.full (podToStatus p) = updatePod st.full.1 (podToStatus p) ∧
            st.full.2 = none := by
        rcases hf : st.full with ⟨w, err⟩
        cases err with
        | none => exact fun _ => ⟨rfl, rfl⟩
        | some err => exact fun hend => absurd hend (by simp [feed])
      by_cases huid : uid = p.uid
      · subst huid
        have hos' : podToStatus p = os := by
          have hupd : Function.update st.seen p.uid (some (podToStatus p)) p.uid = some os := hos
          rw [Function.update_self] at hupd
          exact Option.some.inj hupd
        subst hos'
        refine ⟨⟨p, rfl⟩, fun hend => ?_⟩
        obtain ⟨hfeed, -⟩ := hnone hend
        simp only [hfeed] at hend ⊢
        refine ⟨passes_of_updatePod hend, ?_⟩
        rw [updatePod_podStates]
        exact setPodState_podStates _ _
      · have hold : st.seen uid = some os := by
          have hupd : Function.update st.seen p.uid (some (podToStatus p)) uid = some os := hos
          rwa [Function.update_of_ne huid] at hupd
        obtain ⟨hq, hfull⟩ := hkept uid os hold
        refine ⟨hq, fun hend => ?_⟩
        obtain ⟨hfeed, hbefore⟩ := hnone hend
        obtain ⟨hpass, hstate⟩ := hfull hbefore
        refine ⟨hpass, ?_⟩
        rw [hfeed, updatePod_podStates, setPodState_podStates_ne _ huid]
        exact hstate

lemma step_some (st : Pair) (e : Event) : ∃ st', step st e = some st' := by
  cases e with
  | other => exact ⟨st, rfl⟩
  | pod p =>
    rw [step]
    split_ifs
    · exact ⟨_, rfl⟩
    · exact ⟨_, rfl⟩

/-- **All events.** The watchers agree in all states of a run just if every event is harmless when
it comes. -/
lemma same_along_iff (es : List Event) (hagree : st.full = st.deduped) (hkept : Kept st) :
    (∀ n st', run step st (es.take n) = some st' → Same st'.full st'.deduped) ↔
      Along step Harmless st es := by
  have hself : Same st.full st.deduped := by
    rw [hagree]
    exact ⟨rfl, rfl, rfl, rfl⟩
  induction es generalizing st with
  | nil =>
    refine iff_of_true (fun n st' h => ?_) trivial
    rw [List.take_nil, run_nil] at h
    cases h
    exact hself
  | cons e es ih =>
    obtain ⟨st₁, hst₁⟩ := step_some st e
    -- what is left to do once the first event is known to be harmless
    have hnext : Harmless st e → ((∀ n st', run step st₁ (es.take n) = some st' →
        Same st'.full st'.deduped) ↔ Along step Harmless st₁ es) := by
      intro hharm
      have hagree₁ := agree_step hagree hkept hst₁ hharm
      refine ih hagree₁ (kept_step hagree hkept hst₁ hagree₁) ?_
      rw [hagree₁]
      exact ⟨rfl, rfl, rfl, rfl⟩
    have hrun (n : ℕ) : run step st ((e :: es).take (n + 1)) = run step st₁ (es.take n) := by
      rw [List.take_succ_cons, run_cons, hst₁]
      rfl
    constructor
    · intro hall
      have hharm : Harmless st e :=
        harmless_of_same hagree hkept hst₁ (hall 1 st₁ (by rw [hrun, List.take_zero, run_nil]))
      refine ⟨hharm, fun t ht => ?_⟩
      obtain rfl := Option.some.inj (hst₁.symm.trans ht)
      exact (hnext hharm).mp fun n st' h => hall (n + 1) st' ((hrun n).trans h)
    · rintro ⟨hharm, hrest⟩ n st' h
      cases n with
      | zero =>
        rw [List.take_zero, run_nil] at h
        cases h
        exact hself
      | succ n => exact (hnext hharm).mpr (hrest st₁ hst₁) n st' ((hrun n).symm.trans h)

/-- **Dropped statuses.** A watcher that gets only what is forwarded and one that gets every status
have, after each event, the same states, the same changes in the same order and the same error,
exactly when every dropped status was harmless. -/
theorem dedup_invisible_iff (w : Watcher) (es : List Event) :
    (∀ n, Same (watch w (statuses (es.take n)))
      (watch w (forwarded (fun _ => none) (es.take n)))) ↔
      Along step Harmless (start w) es := by
  have hkept : Kept (start w) := by
    intro uid os hos
    cases hos
  rw [← same_along_iff es rfl hkept]
  refine forall_congr' fun n => ?_
  obtain ⟨seen, hrun⟩ := run_pair (start w) (es.take n)
  rw [watch_eq_foldl, watch_eq_foldl]
  constructor
  · intro hsame st' hst'
    obtain rfl := Option.some.inj (hrun.symm.trans hst')
    exact hsame
  · intro hall
    exact hall _ hrun

/-- A pod that runs, and then is deleted. -/
def runningPod (deletionTimestamp : Option ℕ) : RawPod where
  name := "r1"
  ns := "lab"
  uid := "u1"
  phase := .running
  deletionTimestamp := deletionTimestamp
  containerStatuses := [{ name := "r1", image := "host", ready := true, running := true }]

def deletion : List Event := [.pod (runningPod none), .pod (runningPod (some 1))]

/-- **A deletion goes unnoticed.** -/
theorem deletion_dropped :
    (watch {} (forwarded (fun _ => none) deletion)).1.podStates "u1" = some .ready ∧
      (watch {} (statuses deletion)).1.podStates "u1" = some .terminating := by
  decide

end Kne.PodDedup
