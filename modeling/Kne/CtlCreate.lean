import Kne.CtlTopos

/-!
What failed requests leave behind. The server stores a topology when `Manager.Create` has returned
without error, long after its first write to the cluster; a `Create` that fails in between leaves
resources that no request of the server can reach.
-/

namespace Kne.CtlCreate

open Kne.Runs Kne.CtlModel Kne.CtlSteps Kne.CtlTopos

/-- The cell holds something that the controller has made: the namespace or an object in it. -/
def Ours (cell : Option Namespace) : Prop :=
  ∃ n, cell = some n ∧ (n.ours = true ∨ n.objs ≠ [])

instance (cell : Option Namespace) : Decidable (Ours cell) :=
  match cell with
  | none => .isFalse fun ⟨_, h, _⟩ => by cases h
  | some n => decidable_of_iff (n.ours = true ∨ n.objs ≠ []) (by simp [Ours])

/-! ### What `Create` writes -/

lemma write_ours {cell : Option Namespace} (h : Ours cell) (w : Write) : Ours (write cell w) := by
  obtain ⟨n, rfl, hn⟩ := h
  cases w with
  | ns => exact ⟨_, rfl, Or.inl rfl⟩
  | obj o => exact ⟨_, rfl, Or.inr (by simp)⟩

lemma foldl_write_ours {cell : Option Namespace} (ws : List Write) (h : Ours cell) :
    Ours (ws.foldl write cell) := by
  induction ws generalizing cell with
  | nil => exact h
  | cons w ws ih => exact ih (write_ours h w)

lemma ours_of_writes {cell : Option Namespace} {ws : List Write} (hne : ws ≠ [])
    (h : cell.isSome = true ∨ .ns ∈ ws) : Ours (ws.foldl write cell) := by
  induction ws generalizing cell with
  | nil => exact absurd rfl hne
  | cons w ws ih =>
    rw [List.foldl_cons]
    cases w with
    | ns => exact foldl_write_ours ws ⟨_, rfl, Or.inl rfl⟩
    | obj o =>
      cases cell with
      | some n => exact foldl_write_ours ws ⟨_, rfl, Or.inr (by simp)⟩
      | none =>
        have hmem : .ns ∈ ws := by simpa using h
        exact ih (List.ne_nil_of_mem hmem) (Or.inr hmem)

lemma ns_mem_writes {topo : Topology} {r : CreateRun} (hne : writes (stages none topo r) ≠ []) :
    .ns ∈ writes (stages none topo r) := by
  cases hv : r.validate with
  | some p => exact absurd (by simp [writes, stages, pushStages, performed, hv]) hne
  | none =>
    cases hn : r.nsCreate with
    | some err =>
      exact absurd (by simp [writes, stages, pushStages, performed, namespaceStage, hv, hn]) hne
    | none => simp [writes, stages, pushStages, performed, namespaceStage, hv, hn]

/-- `Create` fails: the cluster is not ready, a stage fails or a watcher has an error. -/
def Fails (cell : Option Namespace) (topo : Topology) (r : CreateRun) : Prop :=
  r.ready ≠ none ∨ r.podWatch ≠ none ∨ r.eventWatch ≠ none ∨
    ∃ st ∈ stages cell topo r, st.err ≠ none

/-- No stage that is performed makes anything. -/
def Traceless (cell : Option Namespace) (topo : Topology) (r : CreateRun) : Prop :=
  r.ready ≠ none ∨ ∀ st ∈ performed (stages cell topo r), st.made = []

variable {nss : Namespaces} {topo : Topology} {r : CreateRun}

lemma create_fails_iff : (create nss topo r).2 ≠ none ↔ Fails (nss topo.name) topo r := by
  unfold create Fails
  cases r.ready with
  | some err => simp
  | none =>
    have hf : (∃ st ∈ stages (nss topo.name) topo r, st.err ≠ none) ↔
        firstError (stages (nss topo.name) topo r) ≠ none := by
      rw [ne_eq, firstError_eq_none_iff]
      push Not
      rfl
    rw [hf]
    simp only [ne_eq, not_true_eq_false, false_or, Option.or_eq_none_iff]
    tauto

lemma writes_eq_nil_iff {sts : List Stage} :
    writes sts = [] ↔ ∀ st ∈ performed sts, st.made = [] := by
  simp [writes, List.flatMap_eq_nil_iff]

lemma create_traceless (h : Traceless (nss topo.name) topo r) :
    (create nss topo r).1 topo.name = nss topo.name := by
  rcases @create_self nss topo r with ⟨hself, -⟩ | ⟨hr, hself⟩
  · exact hself
  · rw [hself, writes_eq_nil_iff.mpr (h.resolve_left fun hn => hn hr)]
    rfl

lemma create_traced (h : ¬ Traceless (nss topo.name) topo r) :
    Ours ((create nss topo r).1 topo.name) := by
  unfold Traceless at h
  rw [not_or, not_not, ← writes_eq_nil_iff] at h
  obtain ⟨-, hself⟩ := (@create_self nss topo r).resolve_left fun hn => hn.2 h.1
  rw [hself]
  refine ours_of_writes h.2 ?_
  cases hc : nss topo.name with
  | some n => exact Or.inl rfl
  | none =>
    rw [hc] at h
    exact Or.inr (ns_mem_writes h.2)

lemma create_ours_iff (h : ¬ Ours (nss topo.name)) :
    Ours ((create nss topo r).1 topo.name) ↔ ¬ Traceless (nss topo.name) topo r := by
  refine ⟨fun ho ht => h ?_, create_traced⟩
  rwa [create_traceless ht] at ho

/-! ### Where `Create` may fail -/

/-- The namespace is there and is found, so that none is created. -/
def Found (cell : Option Namespace) (r : CreateRun) : Prop := cell ≠ none ∧ r.get = true

/-- The namespace cannot be created, or is there although the lookup fails. -/
def NamespaceRefused (cell : Option Namespace) (r : CreateRun) : Prop :=
  cell = none ∧ r.nsCreate ≠ none ∨ cell ≠ none ∧ r.get = false

/-- A stage after that of the namespace fails, and no object has been made: not by the specs, the
meshnet resources or the nodes, one of which fails, or a wait or a watcher if the topology needs no
object at all. -/
def FailsEmpty (topo : Topology) (r : CreateRun) : Prop :=
  r.specs.objs = [] ∧ (r.specs.err ≠ none ∨
    r.meshnet.objs = [] ∧ (r.meshnet.err ≠ none ∨
      r.nodes.err ≠ none ∧ r.nodes.objs = [] ∨
      r.nodes.err = none ∧ topo.nodes = [] ∧
        (r.status ≠ none ∨ r.service ≠ none ∨ r.podWatch ≠ none ∨ r.eventWatch ≠ none)))

/-- The points at which `Create` can fail without harm: the cluster is not ready, a node is not
valid, the namespace is refused, or it was there before and the first object is not made. -/
def Harmless (cell : Option Namespace) (topo : Topology) (r : CreateRun) : Prop :=
  r.ready ≠ none ∨ r.validate ≠ none ∨ NamespaceRefused cell r ∨ Found cell r ∧ FailsEmpty topo r

/-- No point fails, and the namespace or an object in it is made. -/
structure Completes (cell : Option Namespace) (topo : Topology) (r : CreateRun) : Prop where
  ready : r.ready = none
  validate : r.validate = none
  space : cell = none ∧ r.nsCreate = none ∨ Found cell r
  specs : r.specs.err = none
  meshnet : r.meshnet.err = none
  nodes : r.nodes.err = none
  status : r.status = none
  service : r.service = none
  podWatch : r.podWatch = none
  eventWatch : r.eventWatch = none
  made : cell = none ∨ r.specs.objs ≠ [] ∨ r.meshnet.objs ≠ [] ∨ topo.nodes ≠ []

variable {cell : Option Namespace}

lemma fails_iff : Fails cell topo r ↔ r.ready ≠ none ∨ r.podWatch ≠ none ∨ r.eventWatch ≠ none ∨
    r.validate ≠ none ∨ (namespaceStage cell topo.name r).err ≠ none ∨ r.specs.err ≠ none ∨
    r.meshnet.err ≠ none ∨ r.nodes.err ≠ none ∨ r.status ≠ none ∨ r.service ≠ none := by
  simp [Fails, stages, pushStages]

lemma namespaceStage_refused (h : NamespaceRefused cell r) (name : String) :
    (namespaceStage cell name r).err ≠ none ∧ (namespaceStage cell name r).made = [] := by
  rcases h with ⟨rfl, hn⟩ | ⟨hc, hg⟩
  · obtain ⟨err, herr⟩ := Option.ne_none_iff_exists'.mp hn
    simp [namespaceStage, herr]
  · obtain ⟨n, rfl⟩ := Option.ne_none_iff_exists'.mp hc
    simp [namespaceStage, hg]

lemma namespaceStage_found (h : Found cell r) (name : String) :
    namespaceStage cell name r = {} := by
  obtain ⟨hc, hg⟩ := h
  obtain ⟨n, rfl⟩ := Option.ne_none_iff_exists'.mp hc
  simp [namespaceStage, hg]

lemma namespaceStage_made (hn : r.nsCreate = none) (name : String) :
    namespaceStage none name r = { made := [.ns] } := by
  simp [namespaceStage, hn]

lemma space_cases (cell : Option Namespace) (r : CreateRun) :
    NamespaceRefused cell r ∨ Found cell r ∨ cell = none ∧ r.nsCreate = none := by
  unfold NamespaceRefused Found
  cases cell <;> cases r.get <;> cases r.nsCreate <;> simp

lemma traceless_refused
    (h : r.validate ≠ none ∨ NamespaceRefused cell r) : Traceless cell topo r := by
  refine Or.inr (writes_eq_nil_iff.mp ?_)
  cases hv : r.validate with
  | some p => simp [writes, stages, pushStages, performed, hv]
  | none =>
    obtain ⟨herr, hmade⟩ := namespaceStage_refused (h.resolve_left (not_not.mpr hv)) topo.name
    simp [writes, stages, pushStages, performed, hv, Option.isSome_iff_ne_none.mpr herr, hmade]

lemma traceless_found_iff (hr : r.ready = none) (hv : r.validate = none) (h : Found cell r) :
    Traceless cell topo r ↔ r.specs.objs = [] ∧ (r.specs.err ≠ none ∨
      r.meshnet.objs = [] ∧ (r.meshnet.err ≠ none ∨ nodeObjs topo r = [])) := by
  have hready : ¬ r.ready ≠ none := not_not.mpr hr
  rw [Traceless, or_iff_right hready, ← writes_eq_nil_iff]
  cases hs : r.specs.err <;> cases hm : r.meshnet.err <;> cases hn : r.nodes.err <;>
    cases hst : r.status <;>
    simp [writes, stages, pushStages, performed, hv, namespaceStage_found h, hs, hm, hn, hst]

lemma not_traceless_made (hr : r.ready = none) (hv : r.validate = none) (hn : r.nsCreate = none) :
    ¬ Traceless none topo r := by
  have hready : ¬ r.ready ≠ none := not_not.mpr hr
  rw [Traceless, or_iff_right hready, ← writes_eq_nil_iff]
  simp [writes, stages, pushStages, performed, hv, namespaceStage_made hn]

lemma nodeObjs_eq_nil_iff : nodeObjs topo r = [] ↔
    r.nodes.err ≠ none ∧ r.nodes.objs = [] ∨ r.nodes.err = none ∧ topo.nodes = [] := by
  unfold nodeObjs
  cases r.nodes.err <;> simp

lemma harmless_iff : Harmless cell topo r ↔ Fails cell topo r ∧ Traceless cell topo r := by
  by_cases hr : r.ready = none
  swap
  · exact iff_of_true (Or.inl hr) ⟨Or.inl hr, Or.inl hr⟩
  by_cases hv : r.validate = none
  swap
  · exact iff_of_true (Or.inr (Or.inl hv))
      ⟨fails_iff.mpr (by simp [hv]), traceless_refused (Or.inl hv)⟩
  rcases space_cases cell r with href | hfound | ⟨rfl, hn⟩
  · exact iff_of_true (Or.inr (Or.inr (Or.inl href)))
      ⟨fails_iff.mpr (by simp [(namespaceStage_refused href topo.name).1]),
        traceless_refused (Or.inr href)⟩
  · have href : ¬ NamespaceRefused cell r := by
      rintro (⟨hc, -⟩ | ⟨-, hg⟩)
      · exact hfound.1 hc
      · rw [hfound.2] at hg
        cases hg
    rw [traceless_found_iff hr hv hfound, fails_iff, namespaceStage_found hfound,
      nodeObjs_eq_nil_iff]
    simp only [Harmless, hr, hv, href, hfound, FailsEmpty]
    tauto
  · refine iff_of_false ?_ fun h => not_traceless_made hr hv hn h.2
    simp [Harmless, hr, hv, hn, NamespaceRefused, Found]

lemma completes_iff : Completes cell topo r ↔ ¬ Fails cell topo r ∧ ¬ Traceless cell topo r := by
  constructor
  · intro h
    have hfails : ¬ Fails cell topo r := by
      rw [fails_iff]
      have hspace : (namespaceStage cell topo.name r).err = none := by
        rcases h.space with ⟨rfl, hn⟩ | hfound
        · rw [namespaceStage_made hn]
        · rw [namespaceStage_found hfound]
      simp [h.ready, h.validate, h.specs, h.meshnet, h.nodes, h.status, h.service, h.podWatch,
        h.eventWatch, hspace]
    refine ⟨hfails, ?_⟩
    rcases h.space with ⟨rfl, hn⟩ | hfound
    · exact not_traceless_made h.ready h.validate hn
    · have hmade := h.made.resolve_left hfound.1
      rw [traceless_found_iff h.ready h.validate hfound, nodeObjs_eq_nil_iff]
      simp only [h.specs, h.meshnet, h.nodes]
      tauto
  · rintro ⟨hf, ht⟩
    rw [fails_iff] at hf
    simp only [not_or, not_not] at hf
    obtain ⟨hr, hpw, hew, hv, hns, hspecs, hmesh, hnodes, hstatus, hservice⟩ := hf
    have hspace : cell = none ∧ r.nsCreate = none ∨ Found cell r := by
      rcases space_cases cell r with href | hfound | hnew
      · exact absurd hns (namespaceStage_refused href topo.name).1
      · exact Or.inr hfound
      · exact Or.inl hnew
    refine ⟨hr, hv, hspace, hspecs, hmesh, hnodes, hstatus, hservice, hpw, hew, ?_⟩
    rcases hspace with ⟨hc, -⟩ | hfound
    · exact Or.inl hc
    · rw [traceless_found_iff hr hv hfound, nodeObjs_eq_nil_iff] at ht
      simp only [hspecs, hmesh, hnodes] at ht
      tauto

/-! ### Runs -/

/-- The requests in question: all but the deletion of a whole cluster. -/
def InScope : Act → Prop
  | .deleteCluster _ _ _ => False
  | _ => True

/-- A creation that gets as far as `Manager.Create` fails without harm, or it completes and goes to
the cluster behind the default kubecfg; a deletion that fails leaves something, and does not fail in
the wait for the namespace to go. -/
def Clean (c : Host) (s : St) : Act → Prop
  | .createTopology (some topo) kubecfg e => ∀ topo' kcfg, topo.name ≠ "" →
      s.topos topo.name = none → prepare c topo kubecfg e = .ok (topo', kcfg) →
      Harmless (s.clusters kcfg topo'.name) topo' e.run ∨
        c.abs (kubecfgPath c kubecfg) = some c.home ∧
          Completes (s.clusters kcfg topo'.name) topo' e.run
  | .deleteTopology name e r => ∀ topo kcfg n,
      openTopology deleteErr c s name e = .ok (topo, kcfg) →
      s.clusters kcfg topo.name = some n → r.get = true →
      (r.delete ≠ none → Ours (some { n with objs := n.objs.filter r.keep })) ∧
      (r.delete = none → r.wait = none)
  | _ => True

/-- A topology is stored just when the cluster behind the default kubecfg, to which its deletion
goes, holds something of it. No other cluster holds anything. -/
structure Tracked (c : Host) (s : St) : Prop where
  stored : ∀ name, (s.topos name).isSome = true ↔ Ours (s.clusters c.home name)
  elsewhere : ∀ k name, k ≠ c.home → ¬ Ours (s.clusters k name)

variable {c : Host} {s : St}

lemma tracked_update {nss : Namespaces} {topos : String → Option Topology} (name : String)
    (h : ∀ name', (topos name').isSome = true ↔ Ours (nss name')) {cell : Option Namespace}
    {entry : Option Topology} (hself : entry.isSome = true ↔ Ours cell) (name' : String) :
    (Function.update topos name entry name').isSome = true ↔
      Ours (Function.update nss name cell name') := by
  by_cases hn : name' = name
  · subst hn
    rw [Function.update_self, Function.update_self]
    exact hself
  · rw [Function.update_of_ne hn, Function.update_of_ne hn]
    exact h name'

lemma create_eq_update (nss : Namespaces) (topo : Topology) (r : CreateRun) :
    (create nss topo r).1 =
      Function.update nss topo.name ((create nss topo r).1 topo.name) := by
  refine (Function.update_eq_iff.mpr ⟨rfl, fun name hne => ?_⟩).symm
  exact (create_other hne).symm

lemma not_ours_of_free (hs : Tracked c s) {name : String} (hfree : s.topos name = none)
    (k : String) : ¬ Ours (s.clusters k name) := by
  by_cases hk : k = c.home
  · rw [hk, ← hs.stored, hfree]
    simp
  · exact hs.elsewhere k name hk

lemma create_clusters_of_traceless {kcfg : String} {topo : Topology} {r : CreateRun}
    (ht : Traceless (s.clusters kcfg topo.name) topo r) :
    Function.update s.clusters kcfg (create (s.clusters kcfg) topo r).1 = s.clusters := by
  rw [create_eq_update, create_traceless ht, Function.update_eq_self, Function.update_eq_self]

lemma tracked_created (hs : Tracked c s) {topo : Topology} (r : CreateRun)
    (hfree : s.topos topo.name = none) (nss : Namespaces)
    (hnss : nss = (create (s.clusters c.home) topo r).1)
    (ht : ¬ Traceless (s.clusters c.home topo.name) topo r) (name : String) :
    (Function.update s.topos topo.name (some topo) name).isSome = true ↔ Ours (nss name) := by
  subst hnss
  have hours := (create_ours_iff (not_ours_of_free hs hfree c.home)).mpr ht
  rw [create_eq_update]
  exact tracked_update topo.name hs.stored (by simp [hours]) name

lemma tracked_delete (hs : Tracked c s) {name : String} (hname : (s.topos name).isSome = true)
    {r : DeleteRun}
    (hk : ∀ n, s.clusters c.home name = some n → r.get = true →
      (r.delete ≠ none → Ours (some { n with objs := n.objs.filter r.keep })) ∧
      (r.delete = none → r.wait = none)) :
    ((delete (s.clusters c.home) name r).2 ≠ none → ∀ name', (s.topos name').isSome = true ↔
      Ours ((delete (s.clusters c.home) name r).1 name')) ∧
    ((delete (s.clusters c.home) name r).2 = none → ∀ name',
      (Function.update s.topos name none name').isSome = true ↔
        Ours ((delete (s.clusters c.home) name r).1 name')) := by
  have hd := delete_deleted (s.clusters c.home) name r
  generalize delete (s.clusters c.home) name r = out at hd
  cases hd with
  | missing => exact ⟨fun _ => hs.stored, fun h => by cases h⟩
  | refused n err hn hg hd =>
    have hours := (hk n hn hg).1 (by simp [hd])
    refine ⟨fun _ name' => ?_, fun h => by cases h⟩
    have := tracked_update name hs.stored (iff_of_true hname hours) name'
    rwa [Function.update_eq_self] at this
  | unseen n err hn hg hd hw =>
    rw [(hk n hn hg).2 hd] at hw
    cases hw
  | gone n hn hg hd hw =>
    refine ⟨fun h => absurd rfl h, fun _ => ?_⟩
    exact tracked_update name hs.stored (iff_of_false (by simp) fun ⟨_, h, _⟩ => by cases h)

/-- What holds between clean requests. -/
structure Good (c : Host) (s : St) : Prop where
  named : Named s
  calm : ∀ name, Calm (s.clusters c.home name)
  tracked : Tracked c s

lemma good_of_clusters (hs : Good c s) {t : St} {nss : Namespaces}
    (hclusters : t.clusters = Function.update s.clusters c.home nss) (hn : Named t)
    (hcalm : ∀ name, Calm (nss name))
    (ht : ∀ name, (t.topos name).isSome = true ↔ Ours (nss name)) : Good c t := by
  refine ⟨hn, fun name => ?_, fun name => ?_, fun k name hk => ?_⟩
  · rw [hclusters, Function.update_self]
    exact hcalm name
  · rw [hclusters, Function.update_self]
    exact ht name
  · rw [hclusters, Function.update_of_ne hk]
    exact hs.tracked.elsewhere k name hk

lemma good_step {a : Act} {t : St} (hs : Good c s) (hk : Clean c s a) (hscope : InScope a)
    (h : step c s a = some t) : Good c t := by
  have hn := named_step hs.named h
  cases step_does h with
  | refused => exact hs
  | deployments => exact ⟨hn, hs.calm, hs.tracked.stored, hs.tracked.elsewhere⟩
  | takenDown => exact absurd hscope id
  | createFails topo topo' kubecfg kcfg e hname hfree hp hf =>
    have hharm : Harmless (s.clusters kcfg topo'.name) topo' e.run :=
      (hk topo' kcfg hname hfree hp).resolve_right fun hc =>
        (completes_iff.mp hc.2).1 (create_fails_iff.mp hf)
    have hsame := create_clusters_of_traceless (harmless_iff.mp hharm).2
    simp only [hsame] at hn ⊢
    exact ⟨hn, hs.calm, hs.tracked⟩
  | created topo topo' kubecfg kcfg e hname hfree hp hf =>
    have hfine : ¬ Fails (s.clusters kcfg topo'.name) topo' e.run := fun h =>
      create_fails_iff.mpr h hf
    obtain ⟨hhome, hc⟩ := (hk topo' kcfg hname hfree hp).resolve_left fun hharm =>
      hfine (harmless_iff.mp hharm).1
    obtain ⟨hsame, habs⟩ := prepare_ok hp
    obtain rfl : kcfg = c.home := Option.some.inj (habs.symm.trans hhome)
    exact good_of_clusters hs rfl hn (create_calm hs.calm)
      (tracked_created hs.tracked e.run (hsame ▸ hfree) _ rfl (completes_iff.mp hc).2)
  | deleteFails name kcfg topo e r ho hf =>
    obtain ⟨ht, rfl⟩ := openTopology_home ho
    have hname := (hs.named name topo ht).1
    have hk' := fun n => hk topo c.home n ho
    rw [hname] at hk' hf hn ⊢
    exact good_of_clusters hs rfl hn (delete_calm hs.calm fun n hn hg => (hk' n hn hg).2)
      ((tracked_delete hs.tracked (by simp [ht]) hk').1 hf)
  | deleted name kcfg topo e r ho hf =>
    obtain ⟨ht, rfl⟩ := openTopology_home ho
    have hname := (hs.named name topo ht).1
    have hk' := fun n => hk topo c.home n ho
    rw [hname] at hk' hf hn ⊢
    exact good_of_clusters hs rfl hn (delete_calm hs.calm fun n hn hg => (hk' n hn hg).2)
      ((tracked_delete hs.tracked (by simp [ht]) hk').2 hf)
  | consulted => exact ⟨hn, hs.calm, hs.tracked.stored, hs.tracked.elsewhere⟩
  | reaped kcfg name n hnn ht =>
    have hne := home_ne_of_terminating hs.calm hnn ht
    refine ⟨hn, fun name' => ?_, fun name' => ?_, fun k name' hkh => ?_⟩
    · simp only [Function.update_of_ne hne]
      exact hs.calm name'
    · simp only [Function.update_of_ne hne]
      exact hs.tracked.stored name'
    · -- what is gone from another cluster was not made by the controller
      intro ho
      dsimp only at ho
      by_cases hkk : k = kcfg
      · subst hkk
        rw [Function.update_self] at ho
        by_cases hnn' : name' = name
        · subst hnn'
          rw [Function.update_self] at ho
          obtain ⟨_, h, _⟩ := ho
          cases h
        · rw [Function.update_of_ne hnn'] at ho
          exact hs.tracked.elsewhere k name' hkh ho
      · rw [Function.update_of_ne hkk] at ho
        exact hs.tracked.elsewhere k name' hkh ho

lemma untracked_createTopology (hs : Good c s) {topo : Topology} {kubecfg : String} {e : CreateEnv}
    {u : St} (h : step c s (.createTopology (some topo) kubecfg e) = some u)
    (hbad : ¬ Clean c s (.createTopology (some topo) kubecfg e)) : ¬ Tracked c u := by
  simp only [Clean, not_forall, not_or] at hbad
  obtain ⟨topo', kcfg, hname, hfree, hp, hharm, hdone⟩ := hbad
  obtain ⟨hsame, habs⟩ := prepare_ok hp
  rw [habs] at hdone
  have hno : ∀ k, ¬ Ours (s.clusters k topo'.name) := fun k =>
    hsame ▸ not_ours_of_free hs.tracked hfree k
  intro htr
  cases h
  by_cases hf : Fails (s.clusters kcfg topo'.name) topo' e.run
  · -- something was made, and no entry
    have ht : ¬ Traceless (s.clusters kcfg topo'.name) topo' e.run := fun ht =>
      hharm (harmless_iff.mpr ⟨hf, ht⟩)
    obtain ⟨err, herr⟩ := Option.ne_none_iff_exists'.mp (create_fails_iff.mpr hf)
    have hu : (createTopology c s (some topo) kubecfg e).1 = { s with
        clusters := Function.update s.clusters kcfg (create (s.clusters kcfg) topo' e.run).1 } := by
      simp [createTopology, hname, hfree, hp, herr]
    have hours : Ours ((createTopology c s (some topo) kubecfg e).1.clusters kcfg topo'.name) := by
      rw [hu]
      simp only [Function.update_self]
      exact create_traced ht
    have hnone : (createTopology c s (some topo) kubecfg e).1.topos topo'.name = none := by
      rw [hu, hsame]
      exact hfree
    exact not_ours_of_free htr hnone kcfg hours
  · -- there is an entry, and nothing of it in the default cluster
    have herr : (create (s.clusters kcfg) topo' e.run).2 = none :=
      not_not.mp fun hn => hf (create_fails_iff.mp hn)
    have hu : (createTopology c s (some topo) kubecfg e).1 = register { s with
        clusters := Function.update s.clusters kcfg (create (s.clusters kcfg) topo' e.run).1 }
        topo' kcfg := by
      simp [createTopology, hname, hfree, hp, herr]
    have hours := (htr.stored topo'.name).mp (by rw [hu]; simp [register])
    rw [hu] at hours
    simp only [register] at hours
    by_cases hk : kcfg = c.home
    · have ht : Traceless (s.clusters kcfg topo'.name) topo' e.run := by
        by_contra ht
        exact hdone ⟨by rw [hk], completes_iff.mpr ⟨hf, ht⟩⟩
      rw [create_clusters_of_traceless ht] at hours
      exact hno c.home hours
    · rw [Function.update_of_ne (Ne.symm hk)] at hours
      exact hno c.home hours

lemma untracked_deleteTopology (hs : Good c s) {name : String} {e : OpenEnv} {r : DeleteRun}
    {u : St} (h : step c s (.deleteTopology name e r) = some u)
    (hbad : ¬ Clean c s (.deleteTopology name e r)) :
    ∃ bs t, (∀ b ∈ bs, InScope b) ∧ run (step c) u bs = some t ∧ ¬ Tracked c t := by
  simp only [Clean, not_forall] at hbad
  obtain ⟨topo, kcfg, n, ho, hn, hg, hbad⟩ := hbad
  obtain ⟨ht, rfl⟩ := openTopology_home ho
  have hname := (hs.named name topo ht).1
  rw [hname] at hn
  cases h
  cases hd : r.delete with
  | some err =>
    -- the namespace stays, and nothing of the controller is left in it
    have hno : ¬ Ours (some { n with objs := n.objs.filter r.keep }) := fun ho =>
      hbad ⟨fun _ => ho, fun hnone => by rw [hd] at hnone; cases hnone⟩
    have hdel : delete (s.clusters c.home) topo.name r = (Function.update (s.clusters c.home)
        name (some { n with objs := n.objs.filter r.keep }),
        some ("failed to delete namespace " ++ name.quote ++ ": " ++ err)) := by
      simp [delete, hname, hn, hg, hd]
    refine ⟨[], _, by simp, rfl, fun htr => hno ?_⟩
    have := htr.stored name
    simp only [deleteTopology, ho, hdel, St.use, ht, Function.update_self] at this
    exact this.mp rfl
  | none =>
    have hw : r.wait ≠ none := fun hw => hbad ⟨fun h => absurd hd h, fun _ => hw⟩
    have hkept : ¬ Kept c s (.deleteTopology name e r) := fun hk =>
      hw (hk topo c.home ho (by rw [hname, hn]; rfl) hg hd)
    obtain ⟨bs, t, name', topo', hbs, hrun, ht', hgone⟩ :=
      exists_missing hs.named rfl hkept
    have hscope' : ∀ b ∈ bs, InScope b := by
      intro b hb
      obtain ⟨kcfg, n, rfl⟩ := hbs b hb
      trivial
    refine ⟨bs, t, hscope', hrun, fun htr => ?_⟩
    have := (htr.stored name').mp (by rw [ht']; rfl)
    rw [hgone] at this
    obtain ⟨_, h, _⟩ := this
    cases h

lemma exists_untracked (hs : Good c s) {a : Act} {u : St} (hscope : InScope a)
    (h : step c s a = some u) (hbad : ¬ Clean c s a) :
    ∃ bs t, (∀ b ∈ bs, InScope b) ∧ run (step c) u bs = some t ∧ ¬ Tracked c t := by
  cases a with
  | createTopology topology kubecfg e =>
    cases topology with
    | none => exact absurd trivial hbad
    | some topo => exact ⟨[], u, by simp, rfl, untracked_createTopology hs h hbad⟩
  | deleteTopology name e r => exact untracked_deleteTopology hs h hbad
  | deleteCluster => exact absurd hscope id
  | createCluster => exact absurd trivial hbad
  | showTopology => exact absurd trivial hbad
  | pushConfig => exact absurd trivial hbad
  | resetConfig => exact absurd trivial hbad
  | reap => exact absurd trivial hbad

/-- **What failed requests leave behind.** Starting with no topologies, in every run of clean
requests a topology is stored just when the cluster that its deletion goes to holds something of it,
and no other cluster holds anything. The first request that is not clean can be continued to a state
in which this is no longer so. -/
theorem topology_tracked (c : Host) (clusters : String → Namespaces)
    (hcalm : ∀ k name, Calm (clusters k name)) (hforeign : ∀ k name, ¬ Ours (clusters k name))
    (as : List Act) (hscope : ∀ a ∈ as, InScope a) (s : St)
    (h : run (step c) (start clusters) as = some s)
    (hok : Along (step c) (Clean c) (start clusters) as) :
    Tracked c s ∧
    ∀ a u, InScope a → step c s a = some u → ¬ Clean c s a →
      ∃ bs t, (∀ b ∈ bs, InScope b) ∧ run (step c) (start clusters) (as ++ a :: bs) = some t ∧
        ¬ Tracked c t := by
  have hgood : Good c s := by
    refine run_inv_along (P := Good c) ?_ ?_ (hok.and_mem hscope) h
    · rintro s a t hs ⟨hk, hsc⟩ hst
      exact good_step hs hk hsc hst
    · exact ⟨fun _ _ h => by simp [start] at h, hcalm c.home,
        fun name => iff_of_false (by simp [start]) (hforeign c.home name),
        fun k name _ => hforeign k name⟩
  refine ⟨hgood.tracked, fun a u hsc hst hbad => ?_⟩
  obtain ⟨bs, t, hbs, hrun, ht⟩ := exists_untracked hgood hsc hst hbad
  exact ⟨bs, t, hbs, run_trans_cons (step c) h hst hrun, ht⟩

/-- A cluster that is not ready at first, and then is. -/
def retried : List Act :=
  [.createTopology (some lab) "" { run := { ready := some "node not ready" } },
    .createTopology (some lab) "" {}]

lemma prepare_lab (r : CreateRun) :
    prepare laptop lab "" { run := r } = .ok (lab, laptop.home) := rfl

lemma retried_clean : Along (step laptop) (Clean laptop) (start fun _ _ => none) retried := by
  refine ⟨fun topo' kcfg _ _ hp => ?_, fun t ht =>
    ⟨fun topo' kcfg _ _ hp => ?_, fun _ _ => trivial⟩⟩
  · exact Or.inl (Or.inl (by simp))
  · rw [prepare_lab] at hp
    cases hp
    cases ht
    exact Or.inr ⟨rfl, rfl, rfl, Or.inl ⟨rfl, rfl⟩, rfl, rfl, rfl, rfl, rfl, rfl, rfl, Or.inl rfl⟩

theorem retried_tracked : ∃ s, run (step laptop) (start fun _ _ => none) retried = some s ∧
    (s.topos "lab").isSome = true ∧ Tracked laptop s := by
  obtain ⟨s, hs⟩ : ∃ s, run (step laptop) (start fun _ _ => none) retried = some s := ⟨_, rfl⟩
  refine ⟨s, hs, by cases hs; rfl, ?_⟩
  exact (topology_tracked laptop (fun _ _ => none) (fun _ _ _ h => by cases h)
    (fun _ _ ⟨_, h, _⟩ => by cases h) retried (by simp [retried, InScope]) s hs retried_clean).1

/-- The creation of a node fails after its pod was made. -/
def brokenNode : Act := .createTopology (some lab) "" { run := {
  nodes := { objs := [.node "r1"], err := some "failed to create node r1" } } }

theorem failed_creation_unreachable : InScope brokenNode ∧
    ∃ s, run (step laptop) (start fun _ _ => none) [brokenNode] = some s ∧
      s.topos "lab" = none ∧ Ours (s.clusters laptop.home "lab") ∧
      ∀ e r, (deleteTopology laptop s "lab" e r).2 =
        .error ⟨.notFound, "topology " ++ "lab".quote ++ " not found"⟩ := by
  refine ⟨trivial, ?_⟩
  obtain ⟨s, hs⟩ : ∃ s, run (step laptop) (start fun _ _ => none) [brokenNode] = some s := ⟨_, rfl⟩
  have hnone : s.topos "lab" = none := by
    cases hs
    rfl
  refine ⟨s, hs, hnone, ?_, fun e r => ?_⟩
  · cases hs
    exact ⟨{ ours := true, objs := [.node "r1"] }, rfl, Or.inl rfl⟩
  · simp [deleteTopology, openTopology, hnone]

end Kne.CtlCreate
