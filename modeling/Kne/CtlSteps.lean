import Kne.CtlModel

/-!
What the requests to the controller do: to the namespaces of a cluster, to the maps of the server,
and to the record of the kubecfgs that were used.
-/

namespace Kne.CtlSteps

open Kne.Runs Kne.CtlModel

/-! ### Stages -/

lemma firstError_eq_none_iff {sts : List Stage} :
    firstError sts = none ↔ ∀ st ∈ sts, st.err = none := by
  induction sts with
  | nil => simp [firstError]
  | cons st sts ih =>
    unfold firstError
    cases h : st.err with
    | some err => simp [h]
    | none => simp [h, ih]

lemma performed_of_ok {sts : List Stage} (h : firstError sts = none) : performed sts = sts := by
  induction sts with
  | nil => rfl
  | cons st sts ih =>
    unfold firstError at h
    cases he : st.err with
    | some err => simp [he] at h
    | none =>
      rw [he] at h
      simp [performed, he, ih h]

/-- The namespace is not on its way out. -/
def Calm (cell : Option Namespace) : Prop := ∀ n, cell = some n → n.terminating = false

/-- The namespace is there and stays. -/
def Live (cell : Option Namespace) : Prop := ∃ n, cell = some n ∧ n.terminating = false

lemma write_live {cell : Option Namespace} (h : Live cell) (w : Write) : Live (write cell w) := by
  obtain ⟨n, rfl, hn⟩ := h
  cases w with
  | ns => exact ⟨_, rfl, rfl⟩
  | obj o => exact ⟨_, rfl, hn⟩

lemma foldl_write_live {cell : Option Namespace} (ws : List Write)
    (h : Live cell ∨ .ns ∈ ws) : Live (ws.foldl write cell) := by
  induction ws generalizing cell with
  | nil => simpa using h
  | cons w ws ih =>
    refine ih ?_
    rcases h with h | h
    · exact Or.inl (write_live h w)
    · rcases List.mem_cons.mp h with rfl | h
      · exact Or.inl ⟨_, rfl, rfl⟩
      · exact Or.inr h

lemma Live.calm {cell : Option Namespace} (h : Live cell) : Calm cell := by
  obtain ⟨n, rfl, hn⟩ := h
  intro m hm
  cases hm
  exact hn

lemma foldl_write_calm {cell : Option Namespace} (ws : List Write) (h : Calm cell) :
    Calm (ws.foldl write cell) := by
  cases cell with
  | some n => exact (foldl_write_live ws (Or.inl ⟨n, rfl, h n rfl⟩)).calm
  | none =>
    induction ws with
    | nil => exact h
    | cons w ws ih =>
      cases w with
      | ns =>
        have hlive : Live (write none .ns) := ⟨_, rfl, rfl⟩
        exact (foldl_write_live ws (Or.inl hlive)).calm
      | obj o => exact ih

lemma namespaceStage_ok {cell : Option Namespace} {name : String} {r : CreateRun}
    (h : (namespaceStage cell name r).err = none) :
    cell.isSome = true ∨ .ns ∈ (namespaceStage cell name r).made := by
  unfold namespaceStage at h ⊢
  cases cell with
  | some n => exact Or.inl rfl
  | none =>
    cases hr : r.nsCreate with
    | some err => simp [hr] at h
    | none => simp

lemma mem_stages_namespace (cell : Option Namespace) (topo : Topology) (r : CreateRun) :
    ∃ st ∈ stages cell topo r, st.made = (namespaceStage cell topo.name r).made ∧
      (st.err = none → (namespaceStage cell topo.name r).err = none) :=
  ⟨_, List.mem_append_left _ (List.mem_map.mpr ⟨_, List.mem_cons_of_mem _ List.mem_cons_self, rfl⟩),
    rfl, fun h => Option.map_eq_none_iff.mp h⟩

/-! ### The manager -/

variable {nss : Namespaces} {topo : Topology} {r : CreateRun}

lemma create_other {name : String} (h : name ≠ topo.name) :
    (create nss topo r).1 name = nss name := by
  unfold create
  cases r.ready with
  | some err => rfl
  | none => exact Function.update_of_ne h _ _

lemma create_self : (create nss topo r).1 topo.name = nss topo.name ∧ r.ready ≠ none ∨
    r.ready = none ∧ (create nss topo r).1 topo.name =
      (writes (stages (nss topo.name) topo r)).foldl write (nss topo.name) := by
  unfold create
  cases r.ready with
  | some err => exact Or.inl ⟨rfl, by simp⟩
  | none => exact Or.inr ⟨rfl, Function.update_self _ _ _⟩

lemma create_ok (h : (create nss topo r).2 = none) :
    r.ready = none ∧ firstError (stages (nss topo.name) topo r) = none := by
  unfold create at h
  cases hr : r.ready with
  | some err => simp [hr] at h
  | none =>
    simp only [hr, Option.or_eq_none_iff] at h
    exact ⟨rfl, h.2.2⟩

lemma create_calm (h : ∀ name, Calm (nss name)) (name : String) :
    Calm ((create nss topo r).1 name) := by
  by_cases hname : name = topo.name
  · subst hname
    rcases @create_self nss topo r with ⟨he, -⟩ | ⟨-, he⟩
    · rw [he]
      exact h topo.name
    · rw [he]
      exact foldl_write_calm _ (h topo.name)
  · rw [create_other hname]
    exact h name

lemma create_live (hcalm : Calm (nss topo.name))
    (h : (create nss topo r).2 = none) : Live ((create nss topo r).1 topo.name) := by
  obtain ⟨hr, hf⟩ := create_ok h
  obtain ⟨-, hself⟩ := (@create_self nss topo r).resolve_left fun hn => hn.2 hr
  rw [hself]
  refine foldl_write_live _ ?_
  obtain ⟨st, hst, hmade, herr⟩ := mem_stages_namespace (nss topo.name) topo r
  rcases namespaceStage_ok (herr (firstError_eq_none_iff.mp hf st hst)) with hsome | hmem
  · obtain ⟨n, hn⟩ := Option.isSome_iff_exists.mp hsome
    exact Or.inl ⟨n, hn, hcalm n hn⟩
  · right
    rw [writes, performed_of_ok hf, List.mem_flatMap]
    exact ⟨st, hst, by rw [hmade]; exact hmem⟩

/-- What `Delete` does to the namespace of its topology. -/
inductive Deleted (nss : Namespaces) (name : String) (r : DeleteRun) :
    Namespaces × Option String → Prop
  | missing (h : nss name = none ∨ r.get = false) : Deleted nss name r
      (nss, some ("topology " ++ name.quote ++ " does not exist in cluster"))
  | refused (n : Namespace) (err : String) (hn : nss name = some n) (hg : r.get = true)
      (hd : r.delete = some err) : Deleted nss name r
      (Function.update nss name (some { n with objs := n.objs.filter r.keep }),
        some ("failed to delete namespace " ++ name.quote ++ ": " ++ err))
  | unseen (n : Namespace) (err : String) (hn : nss name = some n) (hg : r.get = true)
      (hd : r.delete = none) (hw : r.wait = some err) : Deleted nss name r
      (Function.update nss name
          (some { n with objs := n.objs.filter r.keep, terminating := true }),
        some ("failed to wait for namespace " ++ name.quote ++ " deletion: " ++ err))
  | gone (n : Namespace) (hn : nss name = some n) (hg : r.get = true) (hd : r.delete = none)
      (hw : r.wait = none) : Deleted nss name r (Function.update nss name none, none)

lemma delete_deleted (nss : Namespaces) (name : String) (r : DeleteRun) :
    Deleted nss name r (delete nss name r) := by
  unfold delete
  cases hn : nss name with
  | none => exact .missing (Or.inl hn)
  | some n =>
    cases hg : r.get with
    | false => exact .missing (Or.inr hg)
    | true =>
      cases hd : r.delete with
      | some err => exact .refused n err hn hg hd
      | none =>
        cases hw : r.wait with
        | some err => exact .unseen n err hn hg hd hw
        | none => exact .gone n hn hg hd hw

lemma forall_calm_update (h : ∀ name, Calm (nss name)) (name : String) {cell : Option Namespace}
    (hcell : Calm cell) : ∀ name', Calm (Function.update nss name cell name') :=
  (Function.forall_update_iff nss fun _ cell => Calm cell).mpr ⟨hcell, fun name' _ => h name'⟩

lemma delete_calm (h : ∀ name, Calm (nss name)) {name : String} {r : DeleteRun}
    (hk : ∀ n, nss name = some n → r.get = true → r.delete = none → r.wait = none) :
    ∀ name', Calm ((delete nss name r).1 name') := by
  have hd := delete_deleted nss name r
  generalize delete nss name r = out at hd
  cases hd with
  | missing => exact h
  | refused n err hn hg hd =>
    have hlive : Live (some { n with objs := n.objs.filter r.keep }) := ⟨_, rfl, h name n hn⟩
    exact forall_calm_update h name hlive.calm
  | unseen n err hn hg hd hw =>
    rw [hk n hn hg hd] at hw
    cases hw
  | gone => exact forall_calm_update h name fun n hn => by cases hn

/-! ### The handlers -/

variable {c : Host} {s : St}

lemma validatePath_ok {stat : String → Bool} {path kcfg : String}
    (h : validatePath c stat path = .ok kcfg) : c.abs path = some kcfg := by
  unfold validatePath at h
  cases ha : c.abs path with
  | none => simp [ha] at h
  | some p =>
    rw [ha] at h
    dsimp only at h
    split_ifs at h
    rw [Except.ok.inj h]

lemma prepare_ok {kubecfg kcfg : String} {e : CreateEnv} {topo' : Topology}
    (h : prepare c topo kubecfg e = .ok (topo', kcfg)) :
    topo'.name = topo.name ∧ c.abs (kubecfgPath c kubecfg) = some kcfg := by
  unfold prepare at h
  cases hn : topo.nodes.mapM (fixConfig c e.stat) with
  | error status => simp [hn, bind, Except.bind] at h
  | ok nodes =>
    cases hm : e.marshal with
    | some err => simp [hn, hm, bind, Except.bind, throw, throwThe, MonadExceptOf.throw] at h
    | none =>
      cases hv : validatePath c e.stat (kubecfgPath c kubecfg) with
      | error err => simp [hn, hm, hv, bind, Except.bind] at h
      | ok kcfg' =>
        cases he : e.new with
        | some err => simp [hn, hm, hv, he, bind, Except.bind] at h
        | none =>
          simp only [hn, hm, hv, he, bind, Except.bind, Except.ok.injEq, Prod.mk.injEq] at h
          obtain ⟨rfl, rfl⟩ := h
          exact ⟨rfl, validatePath_ok hv⟩

lemma openTopology_ok {newErr : Topology → String} {name kcfg : String} {e : OpenEnv}
    (h : openTopology newErr c s name e = .ok (topo, kcfg)) :
    s.topos name = some topo ∧ c.abs c.defaultKubeCfg = some kcfg := by
  unfold openTopology at h
  cases ht : s.topos name with
  | none => simp [ht] at h
  | some t =>
    cases hu : e.unmarshal with
    | some err => simp [ht, hu] at h
    | none =>
      cases hv : validatePath c e.stat c.defaultKubeCfg with
      | error err => simp [ht, hu, hv] at h
      | ok kcfg' =>
        cases hn : e.new with
        | some err => simp [ht, hu, hv, hn] at h
        | none =>
          simp only [ht, hu, hv, hn, Except.ok.injEq, Prod.mk.injEq] at h
          obtain ⟨rfl, rfl⟩ := h
          exact ⟨rfl, validatePath_ok hv⟩

/-- What `openTopology` says when it cannot make the manager of `DeleteTopology`. -/
abbrev deleteErr : Topology → String := fun _ => "failed to create topology manager"

/-- What a step does. -/
inductive Does (c : Host) (s : St) : Act → St → Prop
  | refused (a : Act) : Does c s a s
  | deployments (a : Act) (ds : String → Option Cluster) : Does c s a { s with deployments := ds }
  | takenDown (name : String) (err : Option String) (wiped : Bool) (d : Cluster)
      (ds : String → Option Cluster) (hd : s.deployments name = some d)
      (ht : takesDown d err wiped = true) :
      Does c s (.deleteCluster name err wiped) { wipe c s with deployments := ds }
  | createFails (topo topo' : Topology) (kubecfg kcfg : String) (e : CreateEnv)
      (hname : topo.name ≠ "") (hfree : s.topos topo.name = none)
      (hp : prepare c topo kubecfg e = .ok (topo', kcfg))
      (hf : (create (s.clusters kcfg) topo' e.run).2 ≠ none) :
      Does c s (.createTopology (some topo) kubecfg e) { s with
        clusters := Function.update s.clusters kcfg (create (s.clusters kcfg) topo' e.run).1 }
  | created (topo topo' : Topology) (kubecfg kcfg : String) (e : CreateEnv)
      (hname : topo.name ≠ "") (hfree : s.topos topo.name = none)
      (hp : prepare c topo kubecfg e = .ok (topo', kcfg))
      (hf : (create (s.clusters kcfg) topo' e.run).2 = none) :
      Does c s (.createTopology (some topo) kubecfg e) (register { s with
        clusters := Function.update s.clusters kcfg (create (s.clusters kcfg) topo' e.run).1 }
        topo' kcfg)
  | deleteFails (name kcfg : String) (topo : Topology) (e : OpenEnv) (r : DeleteRun)
      (ho : openTopology deleteErr c s name e = .ok (topo, kcfg))
      (hf : (delete (s.clusters kcfg) topo.name r).2 ≠ none) :
      Does c s (.deleteTopology name e r) { s.use name kcfg with
        clusters := Function.update s.clusters kcfg (delete (s.clusters kcfg) topo.name r).1 }
  | deleted (name kcfg : String) (topo : Topology) (e : OpenEnv) (r : DeleteRun)
      (ho : openTopology deleteErr c s name e = .ok (topo, kcfg))
      (hf : (delete (s.clusters kcfg) topo.name r).2 = none) :
      Does c s (.deleteTopology name e r) { s.use name kcfg with
        clusters := Function.update s.clusters kcfg (delete (s.clusters kcfg) topo.name r).1
        topos := Function.update s.topos name none
        home := Function.update s.home name none }
  | consulted (a : Act) (newErr : Topology → String) (name kcfg : String) (topo : Topology)
      (e : OpenEnv) (ho : openTopology newErr c s name e = .ok (topo, kcfg)) :
      Does c s a (s.use name kcfg)
  | reaped (kcfg name : String) (n : Namespace) (hn : s.clusters kcfg name = some n)
      (ht : n.terminating = true) :
      Does c s (.reap kcfg name) { s with
        clusters := Function.update s.clusters kcfg (Function.update (s.clusters kcfg) name none) }

lemma createTopology_does (topology : Option Topology) (kubecfg : String) (e : CreateEnv) :
    Does c s (.createTopology topology kubecfg e) (createTopology c s topology kubecfg e).1 := by
  unfold createTopology
  cases topology with
  | none => exact .refused _
  | some topo =>
    dsimp only
    split_ifs with hname hsome
    · exact .refused _
    · exact .refused _
    · have hfree : s.topos topo.name = none := by simpa using hsome
      cases hp : prepare c topo kubecfg e with
      | error status => exact .refused _
      | ok p =>
        obtain ⟨topo', kcfg⟩ := p
        dsimp only
        cases hf : (create (s.clusters kcfg) topo' e.run).2 with
        | some err => exact .createFails topo topo' kubecfg kcfg e hname hfree hp (by simp [hf])
        | none => exact .created topo topo' kubecfg kcfg e hname hfree hp hf

lemma deleteTopology_does (name : String) (e : OpenEnv) (r : DeleteRun) :
    Does c s (.deleteTopology name e r) (deleteTopology c s name e r).1 := by
  unfold deleteTopology
  cases ho : openTopology deleteErr c s name e with
  | error status => exact .refused _
  | ok p =>
    obtain ⟨topo, kcfg⟩ := p
    dsimp only
    cases hf : (delete (s.clusters kcfg) topo.name r).2 with
    | some err => exact .deleteFails name kcfg topo e r ho (by simp [hf])
    | none => exact .deleted name kcfg topo e r ho hf

lemma consult_does (a : Act) (newErr : Topology → String) (failed name : String) (e : OpenEnv)
    (err : Option String) : Does c s a (consult newErr failed c s name e err).1 := by
  unfold consult
  cases ho : openTopology newErr c s name e with
  | error status => exact .refused a
  | ok p => exact .consulted a newErr name p.2 p.1 e ho

lemma deleteCluster_does (name : String) (err : Option String) (wiped : Bool) :
    Does c s (.deleteCluster name err wiped) (deleteCluster c s name err wiped).1 := by
  unfold deleteCluster
  cases hd : s.deployments name with
  | none => exact .refused _
  | some d =>
    dsimp only
    split_ifs with ht
    · split <;> exact .takenDown name _ wiped _ _ hd ht
    · split
      · exact .deployments _ _
      · exact .deployments _ _
      · exact .refused _

lemma step_does {a : Act} {t : St} (h : step c s a = some t) : Does c s a t := by
  cases a with
  | createCluster d deploy =>
    cases h
    unfold createCluster
    cases d with
    | error err => exact .refused _
    | ok d =>
      dsimp only
      split_ifs
      · exact .refused _
      · cases deploy with
        | some err => exact .refused _
        | none => exact .deployments _ _
  | deleteCluster name err wiped => cases h; exact deleteCluster_does name err wiped
  | createTopology topology kubecfg e => cases h; exact createTopology_does topology kubecfg e
  | deleteTopology name e r => cases h; exact deleteTopology_does name e r
  | showTopology name e err => cases h; exact consult_does _ _ _ name e err
  | pushConfig name device e err => cases h; exact consult_does _ _ _ name e err
  | resetConfig name device e err => cases h; exact consult_does _ _ _ name e err
  | reap kcfg name =>
    simp only [step] at h
    split_ifs at h with ht
    cases h
    cases hn : s.clusters kcfg name with
    | none => simp [hn] at ht
    | some n => exact .reaped kcfg name n hn (by simpa [hn] using ht)

lemma step_reap {kcfg name : String} {n : Namespace} (hn : s.clusters kcfg name = some n)
    (ht : n.terminating = true) : step c s (.reap kcfg name) = some { s with
      clusters := Function.update s.clusters kcfg
        (Function.update (s.clusters kcfg) name none) } := by
  simp [step, hn, ht]

/-! ### The names of topologies -/

/-- The topologies are stored under their names, which are not empty. -/
def Named (s : St) : Prop := ∀ name topo, s.topos name = some topo → topo.name = name ∧ name ≠ ""

lemma named_step {a : Act} {t : St} (hs : Named s) (h : step c s a = some t) : Named t := by
  cases step_does h with
  | created topo topo' kubecfg kcfg e hname hfree hp hf =>
    obtain ⟨hsame, -⟩ := prepare_ok hp
    intro name t ht
    dsimp only [register] at ht
    by_cases hn : name = topo'.name
    · subst hn
      rw [Function.update_self] at ht
      cases ht
      exact ⟨rfl, hsame ▸ hname⟩
    · rw [Function.update_of_ne hn] at ht
      exact hs name t ht
  | deleted name kcfg topo e r ho hf =>
    intro name' t ht
    dsimp only at ht
    by_cases hn : name' = name
    · rw [hn, Function.update_self] at ht
      cases ht
    · rw [Function.update_of_ne hn] at ht
      exact hs name' t ht
  | refused => exact hs
  | deployments => exact hs
  | takenDown => exact hs
  | createFails => exact hs
  | deleteFails => exact hs
  | consulted => exact hs
  | reaped => exact hs

/-- The server at its start, with whatever there is in the clusters. -/
def start (clusters : String → Namespaces) : St := { clusters := clusters }

lemma named_run {clusters : String → Namespaces} {as : List Act} {t : St}
    (h : run (step c) (start clusters) as = some t) : Named t :=
  run_inv (fun _ _ _ hs hst => named_step hs hst) (fun _ _ h => by simp [start] at h) h

end Kne.CtlSteps
