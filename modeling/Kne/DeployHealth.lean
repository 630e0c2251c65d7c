import Kne.Waits

/-!
How `kne deploy` waits for what it has installed (`deploy/deploy.go`). `deploymentHealthy` watches
all Deployments of the namespace of an operator, and `MeshnetSpec.Healthy` the DaemonSet of meshnet.
Both return at the first event whose object looks healthy. For an operator this says nothing about
the other Deployments of the namespace, and for meshnet it says nothing while the status is still
the one that the DaemonSet was created with.
-/

namespace Kne.DeployHealth

open Kne.Waits

variable {α : Type*}

/-- What a wait returns. The two loops differ in what they call the thing they wait for. -/
def verdict (subject type : String) : Outcome α → Except String Unit
  | .accepted _ => .ok ()
  | .cancelled err => .error ("context canceled before " ++ subject ++ " healthy: " ++ err)
  | .closed => .error ("watch channel closed before " ++ subject ++ " healthy")
  | .wrongType => .error ("invalid object type: " ++ type)

lemma exists_accepted_iff {accept : α → Bool} {ts : List (Turn α)} {subject type : String} :
    (wait accept ts).map (verdict subject type) = some (.ok ()) ↔
      ∃ d, wait accept ts = some (.accepted d) := by
  constructor
  · intro h
    obtain ⟨o, ho, hv⟩ := Option.map_eq_some_iff.mp h
    cases o with
    | accepted d => exact ⟨d, ho⟩
    | cancelled err => cases hv
    | closed => cases hv
    | wrongType => cases hv
  · rintro ⟨d, hd⟩
    rw [hd]
    rfl

/-! ### The Deployments of a namespace -/

/-- A Deployment, as far as it is looked at. -/
structure Deployment where
  name : String
  /-- `Spec.Replicas`, a pointer. -/
  specReplicas : Option ℤ := none
  availableReplicas : ℤ := 0
  readyReplicas : ℤ := 0
  unavailableReplicas : ℤ := 0
  replicas : ℤ := 0
  updatedReplicas : ℤ := 0
  deriving DecidableEq, Repr

namespace Deployment

def desired (d : Deployment) : ℤ := d.specReplicas.getD 1

def healthy (d : Deployment) : Bool :=
  d.availableReplicas = d.desired && d.readyReplicas = d.desired && d.unavailableReplicas = 0 &&
    d.replicas = d.desired && d.updatedReplicas = d.desired

/-- All desired replicas are available, ready and updated, and none is unavailable. -/
def Complete (d : Deployment) : Prop :=
  d.availableReplicas = d.desired ∧ d.readyReplicas = d.desired ∧
    d.updatedReplicas = d.desired ∧ d.unavailableReplicas = 0

instance : DecidablePred Complete := fun d => by unfold Complete; infer_instance

/-- Only the number of its replicas keeps the Deployment from passing the check. -/
def HeldBack (d : Deployment) : Prop :=
  d.replicas ≠ d.desired ∧ { d with replicas := d.desired }.healthy = true

lemma healthy_iff (d : Deployment) : d.healthy = true ↔ d.Complete ∧ d.replicas = d.desired := by
  simp only [healthy, Complete, Bool.and_eq_true, decide_eq_true_eq]
  tauto

lemma heldBack_iff (d : Deployment) : d.HeldBack ↔ d.Complete ∧ d.healthy = false := by
  have hcomplete : { d with replicas := d.desired }.healthy = true ↔ d.Complete :=
    (healthy_iff _).trans (and_iff_left rfl)
  rw [HeldBack, hcomplete, ← Bool.not_eq_true, healthy_iff]
  tauto

end Deployment

/-- `deploymentHealthy`, from the watch that it could create or not. -/
def deploymentHealthy (name : String) :
    Except String (List (Turn Deployment)) → Option (Except String Unit)
  | .error _ => some (.error ("failed to create watcher for deployment " ++ name.quote))
  | .ok ts => (wait Deployment.healthy ts).map (verdict name.quote "*v1.Deployment")

/-- The operators whose namespace is watched. -/
inductive Operator
  | metalLB | ceosLab | lemming | srLinux | ixiaTG | cdnos
  deriving DecidableEq, Repr

def Operator.namespaceName : Operator → String
  | metalLB => "metallb-system"
  | ceosLab => "arista-ceoslab-operator-system"
  | lemming => "lemming-operator"
  | srLinux => "srlinux-controller"
  | ixiaTG => "ixiatg-op-system"
  | cdnos => "cdnos-controller-system"

/-- `Healthy` of the specs of the operators. -/
def Operator.healthy (o : Operator) :
    Except String (List (Turn Deployment)) → Option (Except String Unit) :=
  deploymentHealthy o.namespaceName

/-- `d` is the last that the history says of the Deployment of its name. -/
def Latest (ds : List Deployment) (d : Deployment) : Prop :=
  (ds.filter (·.name = d.name)).getLast? = some d

section Latest

variable {ds : List Deployment} {d e : Deployment}

lemma Latest.mem (h : Latest ds d) : d ∈ ds :=
  (List.mem_filter.mp (List.mem_of_getLast? h)).1

lemma Latest.eq_of_name (hd : Latest ds d) (he : Latest ds e) (h : d.name = e.name) : d = e := by
  unfold Latest at hd he
  rw [h, he] at hd
  exact (Option.some.inj hd).symm

lemma exists_latest (h : d ∈ ds) : ∃ e, Latest ds e ∧ e.name = d.name := by
  have hne : ds.filter (·.name = d.name) ≠ [] :=
    List.ne_nil_of_mem (List.mem_filter.mpr ⟨h, by simp⟩)
  have hlast := List.getLast?_eq_some_getLast hne
  have hname : ((ds.filter (·.name = d.name)).getLast hne).name = d.name := by
    simpa using (List.mem_filter.mp (List.getLast_mem hne)).2
  refine ⟨_, ?_, hname⟩
  rw [Latest, hname]
  exact hlast

lemma latest_snoc (ds : List Deployment) (d : Deployment) : Latest (ds ++ [d]) d := by
  simp [Latest, List.filter_append]

lemma latest_snoc_iff (h : e.name ≠ d.name) : Latest (ds ++ [d]) e ↔ Latest ds e := by
  simp [Latest, List.filter_append, Ne.symm h]

end Latest

/-- `d` is the first to pass the check, and the turns before it are events with `before`. -/
structure FirstPassing (ts : List (Turn Deployment)) (before : List Deployment) (d : Deployment) :
    Prop where
  turns : ∃ after, ts = before.map (fun e => .event (some e)) ++ .event (some d) :: after
  failing : ∀ e ∈ before, e.healthy = false
  passing : d.healthy = true

section FirstPassing

variable {ts : List (Turn Deployment)} {before : List Deployment} {d : Deployment}

lemma deploymentHealthy_iff {name : String} : deploymentHealthy name (.ok ts) = some (.ok ()) ↔
    ∃ before d, FirstPassing ts before d := by
  rw [deploymentHealthy, exists_accepted_iff]
  simp only [wait_eq_accepted_iff]
  constructor
  · rintro ⟨d, before, after, rfl, hfail, hd⟩
    exact ⟨before, d, ⟨after, rfl⟩, hfail, hd⟩
  · rintro ⟨before, d, ⟨after, rfl⟩, hfail, hd⟩
    exact ⟨d, before, after, rfl, hfail, hd⟩

lemma FirstPassing.consumed_eq (h : FirstPassing ts before d) :
    consumed Deployment.healthy ts = before ++ [d] := by
  obtain ⟨⟨after, rfl⟩, hfail, hd⟩ := h
  exact consumed_events hfail hd

lemma FirstPassing.latest_iff (h : FirstPassing ts before d) {P : Deployment → Prop} (hd : P d) :
    (∀ e, Latest (consumed Deployment.healthy ts) e → P e) ↔
      ∀ e ∈ before, e.name = d.name ∨ ∃ last, Latest before last ∧ last.name = e.name ∧ P last := by
  rw [h.consumed_eq]
  constructor
  · intro hall e he
    by_cases hname : e.name = d.name
    · exact .inl hname
    · obtain ⟨last, hlast, hsame⟩ := exists_latest he
      refine .inr ⟨last, hlast, hsame, hall last ((latest_snoc_iff ?_).mpr hlast)⟩
      rwa [hsame]
  · intro hbefore e he
    by_cases hname : e.name = d.name
    · rwa [he.eq_of_name (latest_snoc before d) hname]
    · have hlatest := (latest_snoc_iff hname).mp he
      obtain ⟨last, hlast, hsame, hP⟩ := (hbefore e hlatest.mem).resolve_left hname
      rwa [hlatest.eq_of_name hlast hsame.symm]

lemma FirstPassing.complete_iff (h : FirstPassing ts before d) :
    (∀ e, Latest (consumed Deployment.healthy ts) e → e.Complete) ↔
      ∀ e ∈ before, e.name = d.name ∨
        ∃ last, Latest before last ∧ last.name = e.name ∧ last.HeldBack := by
  rw [h.latest_iff (d.healthy_iff.mp h.passing).1]
  refine forall₂_congr fun e _ => or_congr_right (exists_congr fun last => ?_)
  refine and_congr_right fun hlast => and_congr_right fun _ => ?_
  rw [last.heldBack_iff, and_iff_left (h.failing last hlast.mem)]

lemma FirstPassing.healthy_iff (h : FirstPassing ts before d) :
    (∀ e, Latest (consumed Deployment.healthy ts) e → e.healthy = true) ↔
      ∀ e ∈ before, e.name = d.name := by
  rw [h.latest_iff (P := fun e => e.healthy = true) h.passing]
  refine forall₂_congr fun e _ => or_iff_left ?_
  rintro ⟨last, hlast, -, hhealthy⟩
  rw [h.failing last hlast.mem] at hhealthy
  cases hhealthy

end FirstPassing

/-- **When an operator is reported healthy** and all Deployments seen so far are complete. Just if
every event before the first that passes the check is about the same Deployment as that one, or
about one whose last event before it fails the check for the number of its replicas alone; and for
all of them to pass the check itself, all events must be about the same Deployment. -/
theorem namespace_complete_iff (name : String) (ts : List (Turn Deployment)) :
    ((deploymentHealthy name (.ok ts) = some (.ok ()) →
        ∀ e, Latest (consumed Deployment.healthy ts) e → e.Complete) ↔
      ∀ before d, FirstPassing ts before d → ∀ e ∈ before, e.name = d.name ∨
        ∃ last, Latest before last ∧ last.name = e.name ∧ last.HeldBack) ∧
    ((deploymentHealthy name (.ok ts) = some (.ok ()) →
        ∀ e, Latest (consumed Deployment.healthy ts) e → e.healthy = true) ↔
      ∀ before d, FirstPassing ts before d → ∀ e ∈ before, e.name = d.name) := by
  rw [deploymentHealthy_iff]
  refine ⟨⟨fun h before d hfirst => ?_, ?_⟩, ⟨fun h before d hfirst => ?_, ?_⟩⟩
  · exact hfirst.complete_iff.mp (h ⟨before, d, hfirst⟩)
  · rintro h ⟨before, d, hfirst⟩
    exact hfirst.complete_iff.mpr (h before d hfirst)
  · exact hfirst.healthy_iff.mp (h ⟨before, d, hfirst⟩)
  · rintro h ⟨before, d, hfirst⟩
    exact hfirst.healthy_iff.mpr (h before d hfirst)

/-- A Deployment of one replica that runs. -/
def running (name : String) : Deployment :=
  { name, availableReplicas := 1, readyReplicas := 1, replicas := 1, updatedReplicas := 1 }

/-- A Deployment of one replica that does not. -/
def pending (name : String) : Deployment :=
  { name, unavailableReplicas := 1, replicas := 1, updatedReplicas := 1 }

/-- The controller of MetalLB comes up. -/
def controllerEvents : List (Turn Deployment) :=
  [.event (some (pending "controller")), .event (some (running "controller"))]

theorem controllerEvents_complete :
    deploymentHealthy "metallb-system" (.ok controllerEvents) = some (.ok ()) ∧
      ∀ e, Latest (consumed Deployment.healthy controllerEvents) e → e.Complete := by
  have hnil : deploymentHealthy "metallb-system" (.ok controllerEvents) = some (.ok ()) := rfl
  refine ⟨hnil, (namespace_complete_iff "metallb-system" controllerEvents).1.mpr ?_ hnil⟩
  intro before d hfirst e he
  obtain ⟨hbefore, rfl⟩ : [pending "controller"] = before ∧ running "controller" = d := by
    have hconsumed : [pending "controller"] ++ [running "controller"] = before ++ [d] :=
      hfirst.consumed_eq
    simpa using List.append_inj' hconsumed rfl
  rw [← hbefore, List.mem_singleton] at he
  exact .inl (by rw [he]; rfl)

/-- The speaker is not there yet when the controller of MetalLB is. -/
theorem healthy_with_pending :
    Operator.metalLB.healthy
        (.ok [.event (some (pending "speaker")), .event (some (running "controller"))]) =
      some (.ok ()) ∧
    Latest (consumed Deployment.healthy
      [.event (some (pending "speaker")), .event (some (running "controller"))])
      (pending "speaker") ∧
    ¬ (pending "speaker").Complete := by
  refine ⟨rfl, ?_, by decide⟩
  unfold Latest
  decide

/-! ### The DaemonSet of meshnet -/

/-- The status of the DaemonSet, as far as it is looked at. -/
structure DaemonSet where
  numberReady : ℤ := 0
  desiredNumberScheduled : ℤ := 0
  numberUnavailable : ℤ := 0
  deriving DecidableEq, Repr

namespace DaemonSet

def healthy (d : DaemonSet) : Bool :=
  d.numberReady = d.desiredNumberScheduled && d.numberUnavailable = 0

/-- The status with which the DaemonSet is created. -/
def fresh : DaemonSet := {}

end DaemonSet

/-- `MeshnetSpec.Healthy`, from the watch that it could create or not. -/
def meshnetHealthy : Except String (List (Turn DaemonSet)) → Option (Except String Unit)
  | .error err => some (.error err)
  | .ok ts => (wait DaemonSet.healthy ts).map (verdict "meshnet" "*v1.DaemonSet")

/-- What becomes of the status on a cluster of `nodes` nodes: it stays as created for a while, then
the number of nodes is published, and pods become ready. -/
structure Rollout where
  nodes : ℕ
  nodes_pos : 0 < nodes
  idle : ℕ
  published : List DaemonSet
  desired_eq : ∀ d ∈ published, d.desiredNumberScheduled = nodes
  ready_le : ∀ d ∈ published, d.numberReady ≤ nodes
  increasing : published.Pairwise (·.numberReady ≤ ·.numberReady)

namespace Rollout

variable (r : Rollout)

def history : List DaemonSet := List.replicate (r.idle + 1) .fresh ++ r.published

/-- The watch starts at some point of the history and has seen a part of what follows. -/
def Watched (ts : List (Turn DaemonSet)) : Prop := ∃ n, objects ts <+: r.history.drop n

variable {r}

lemma fresh_or_published {n : ℕ} {d : DaemonSet} {rest : List DaemonSet}
    (h : d :: rest <+: r.history.drop n) : d = .fresh ∨ ∀ e ∈ d :: rest, e ∈ r.published := by
  rw [history, List.drop_append, List.length_replicate, List.drop_replicate] at h
  rcases Nat.lt_or_ge n (r.idle + 1) with hn | hn
  · obtain ⟨m, hm⟩ : ∃ m, r.idle + 1 - n = m + 1 := ⟨r.idle - n, by omega⟩
    rw [hm, List.replicate_succ, List.cons_append, List.cons_prefix_cons] at h
    exact .inl h.1
  · rw [Nat.sub_eq_zero_of_le hn, List.replicate_zero, List.nil_append] at h
    exact .inr fun e he => List.mem_of_mem_drop (h.subset he)

lemma ready_of_published {d : DaemonSet} (hd : d ∈ r.published) (h : d.healthy = true) :
    d.numberReady = r.nodes := by
  simp only [DaemonSet.healthy, Bool.and_eq_true, decide_eq_true_eq] at h
  rw [h.1, r.desired_eq d hd]

end Rollout

lemma accepted_cases {r : Rollout} {ts : List (Turn DaemonSet)} {d : DaemonSet}
    (hw : r.Watched ts) (h : wait DaemonSet.healthy ts = some (.accepted d)) :
    ts.head? = some (.event (some .fresh)) ∨ d.numberReady = r.nodes := by
  obtain ⟨n, hinitial⟩ := hw
  obtain ⟨pre, hconsumed, -, hd⟩ := consumed_of_accepted h
  have hpart : consumed DaemonSet.healthy ts <+: r.history.drop n :=
    (consumed_initial _ ts).trans hinitial
  obtain ⟨first, rest, hfirst⟩ : ∃ first rest, pre ++ [d] = first :: rest :=
    List.exists_cons_of_ne_nil (by simp)
  have hmem : d ∈ first :: rest := hfirst ▸ List.mem_append_right pre (List.mem_singleton_self d)
  rw [hfirst] at hconsumed
  rw [hconsumed] at hpart
  rcases Rollout.fresh_or_published hpart with rfl | hpublished
  · exact .inl (head?_of_consumed hconsumed)
  · exact .inr (Rollout.ready_of_published (hpublished d hmem) hd)

/-- **Meshnet is reported healthy** only with all pods ready, unless the watch starts while the
status is still the one that the DaemonSet was created with. -/
theorem healthy_when_ready_iff (r : Rollout) (ts : List (Turn DaemonSet)) (hw : r.Watched ts) :
    (meshnetHealthy (.ok ts) = some (.ok ()) →
        ∃ d, wait DaemonSet.healthy ts = some (.accepted d) ∧ d.numberReady = r.nodes) ↔
      ts.head? ≠ some (.event (some .fresh)) := by
  constructor
  · intro h hhead
    obtain ⟨ts', rfl⟩ : ∃ ts', ts = .event (some .fresh) :: ts' := List.head?_eq_some_iff.mp hhead
    obtain ⟨d, hd, hready⟩ := h rfl
    have hfresh : wait DaemonSet.healthy (.event (some .fresh) :: ts') =
        some (.accepted .fresh) := rfl
    rw [hfresh] at hd
    cases hd
    have hpos := r.nodes_pos
    simp only [DaemonSet.fresh] at hready
    omega
  · intro hhead h
    obtain ⟨d, hd⟩ := exists_accepted_iff.mp h
    exact ⟨d, hd, (accepted_cases hw hd).resolve_left hhead⟩

/-- A cluster of two nodes, with both pods ready in the end. -/
def twoNodes : Rollout where
  nodes := 2
  nodes_pos := by decide
  idle := 0
  published := [⟨0, 2, 2⟩, ⟨2, 2, 0⟩]
  desired_eq := by decide
  ready_le := by decide
  increasing := by decide

theorem meshnet_from_published :
    twoNodes.Watched [.event (some ⟨0, 2, 2⟩), .event (some ⟨2, 2, 0⟩)] ∧
    ((meshnetHealthy (.ok [.event (some ⟨0, 2, 2⟩), .event (some ⟨2, 2, 0⟩)]) = some (.ok ()) →
        ∃ d, wait DaemonSet.healthy [.event (some ⟨0, 2, 2⟩), .event (some ⟨2, 2, 0⟩)] =
          some (.accepted d) ∧ d.numberReady = twoNodes.nodes) ↔
      [Turn.event (some ⟨0, 2, 2⟩), .event (some ⟨2, 2, 0⟩)].head? ≠
        some (.event (some DaemonSet.fresh))) := by
  have hw : twoNodes.Watched [.event (some ⟨0, 2, 2⟩), .event (some ⟨2, 2, 0⟩)] :=
    ⟨1, List.prefix_rfl⟩
  exact ⟨hw, healthy_when_ready_iff twoNodes _ hw⟩

/-- The event with which the watch of a new DaemonSet starts is enough. -/
theorem healthy_before_scheduled :
    twoNodes.Watched [.event (some .fresh)] ∧
    meshnetHealthy (.ok [.event (some .fresh)]) = some (.ok ()) ∧
    wait DaemonSet.healthy [.event (some .fresh)] = some (.accepted .fresh) ∧
    DaemonSet.fresh.numberReady ≠ twoNodes.nodes := by
  refine ⟨⟨0, ?_⟩, rfl, rfl, by decide⟩
  exact List.prefix_append [DaemonSet.fresh] twoNodes.published

end Kne.DeployHealth
