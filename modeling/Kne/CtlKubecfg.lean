import Kne.CtlTopos

/-!
The kubecfg of a topology. `CreateTopology` takes one from the request, and the server does not
store it: the other requests for the topology all go to the default.
-/

namespace Kne.CtlKubecfg

open Kne.Runs Kne.CtlModel Kne.CtlSteps Kne.CtlTopos

/-- The request names no kubecfg, or a path to the default one. -/
def SameKubecfg (c : Host) : Act → Prop
  | .createTopology _ kubecfg _ => kubecfg = "" ∨ c.abs kubecfg = c.abs c.defaultKubeCfg
  | _ => True

instance (c : Host) (a : Act) : Decidable (SameKubecfg c a) :=
  match a with
  | .createTopology _ kubecfg _ =>
    inferInstanceAs (Decidable (kubecfg = "" ∨ c.abs kubecfg = c.abs c.defaultKubeCfg))
  | .createCluster _ _ | .deleteCluster _ _ _ | .deleteTopology _ _ _ | .showTopology _ _ _
  | .pushConfig _ _ _ _ | .resetConfig _ _ _ _ | .reap _ _ => .isTrue trivial

/-- The topologies were created with the default kubecfg, and so they have been used. -/
structure Faithful (c : Host) (s : St) : Prop where
  home : ∀ name, (s.topos name).isSome = true → s.home name = c.abs c.defaultKubeCfg
  uses : ∀ u ∈ s.uses, u.home = some u.kubecfg

variable {c : Host} {s : St}

lemma faithful_use (hs : Faithful c s) {newErr : Topology → String} {name kcfg : String}
    {topo : Topology} {e : OpenEnv} (ho : openTopology newErr c s name e = .ok (topo, kcfg)) :
    Faithful c (s.use name kcfg) := by
  obtain ⟨ht, habs⟩ := openTopology_ok ho
  refine ⟨hs.home, fun u hu => ?_⟩
  rcases List.mem_append.mp hu with hu | hu
  · exact hs.uses u hu
  · rw [List.mem_singleton.mp hu]
    exact (hs.home name (by rw [ht]; rfl)).trans habs

lemma faithful_step {a : Act} {t : St} (hs : Faithful c s) (hsame : SameKubecfg c a)
    (h : step c s a = some t) : Faithful c t := by
  cases step_does h with
  | refused => exact hs
  | deployments => exact ⟨hs.home, hs.uses⟩
  | takenDown => exact ⟨hs.home, hs.uses⟩
  | createFails => exact ⟨hs.home, hs.uses⟩
  | created topo topo' kubecfg kcfg e hname hfree hp hf =>
    obtain ⟨-, habs⟩ := prepare_ok hp
    have hdefault : c.abs c.defaultKubeCfg = some kcfg := by
      rcases hsame with rfl | heq
      · exact habs
      · by_cases hk : kubecfg = ""
        · rw [hk] at habs
          exact habs
        · rw [kubecfgPath, if_pos hk, heq] at habs
          exact habs
    refine ⟨fun name hn => ?_, hs.uses⟩
    dsimp only [register] at hn ⊢
    by_cases hname' : name = topo'.name
    · rw [hname', Function.update_self, hdefault]
    · rw [Function.update_of_ne hname'] at hn ⊢
      exact hs.home name hn
  | deleteFails name kcfg topo e r ho hf =>
    have hu := faithful_use hs ho
    exact ⟨hu.home, hu.uses⟩
  | deleted name kcfg topo e r ho hf =>
    have hu := faithful_use hs ho
    refine ⟨fun name' hn => ?_, hu.uses⟩
    dsimp only at hn ⊢
    have hne : name' ≠ name := by
      rintro rfl
      rw [Function.update_self] at hn
      cases hn
    rw [Function.update_of_ne hne] at hn ⊢
    exact hs.home name' hn
  | consulted a newErr name kcfg topo e ho => exact faithful_use hs ho
  | reaped => exact ⟨hs.home, hs.uses⟩

lemma deleteTopology_clusters (hs : Faithful c s) {name k : String} (hk : s.home name ≠ some k)
    (e : OpenEnv) (r : DeleteRun) :
    (deleteTopology c s name e r).1.clusters k = s.clusters k := by
  have hd := deleteTopology_does (c := c) (s := s) name e r
  generalize (deleteTopology c s name e r).1 = t at hd ⊢
  have hne : ∀ topo kcfg, openTopology deleteErr c s name e = .ok (topo, kcfg) → k ≠ kcfg := by
    rintro topo _ ho rfl
    obtain ⟨ht, habs⟩ := openTopology_ok ho
    exact hk ((hs.home name (by rw [ht]; rfl)).trans habs)
  cases hd with
  | refused => rfl
  | deployments => rfl
  | deleteFails _ kcfg topo _ _ ho => exact Function.update_of_ne (hne topo kcfg ho) _ _
  | deleted _ kcfg topo _ _ ho => exact Function.update_of_ne (hne topo kcfg ho) _ _
  | consulted => rfl

lemma exists_unfaithful {topo topo' : Topology} {kubecfg kcfg home : String} {e : CreateEnv}
    (hname : topo.name ≠ "") (hfree : s.topos topo.name = none)
    (hp : prepare c topo kubecfg e = .ok (topo', kcfg))
    (hf : (create (s.clusters kcfg) topo' e.run).2 = none)
    (hbad : ¬ SameKubecfg c (.createTopology (some topo) kubecfg e))
    (hhome : c.abs c.defaultKubeCfg = some home) :
    ∃ t, run (step c) s [.createTopology (some topo) kubecfg e, .showTopology topo.name {} none] =
      some t ∧ ∃ u ∈ t.uses, u.home ≠ some u.kubecfg := by
  obtain ⟨hsame, habs⟩ := prepare_ok hp
  simp only [SameKubecfg, not_or] at hbad
  rw [kubecfgPath, if_pos hbad.1] at habs
  have hne : kcfg ≠ home := by
    rintro rfl
    exact hbad.2 (habs.trans hhome.symm)
  have hu : (createTopology c s (some topo) kubecfg e).1 = register { s with
      clusters := Function.update s.clusters kcfg (create (s.clusters kcfg) topo' e.run).1 }
      topo' kcfg := by
    simp [createTopology, hname, hfree, hp, hf]
  have ho : ∀ newErr, openTopology newErr c (createTopology c s (some topo) kubecfg e).1
      topo.name {} = .ok (topo', home) := by
    intro newErr
    rw [hu, ← hsame]
    simp [openTopology, register, validatePath, hhome]
  refine ⟨_, rfl, ⟨topo.name, some kcfg, home⟩, ?_, fun h => hne (Option.some.inj h)⟩
  have hhm : (createTopology c s (some topo) kubecfg e).1.home topo.name = some kcfg := by
    rw [hu, ← hsame]
    simp [register]
  simp only [showTopology, consult, ho, St.use, hhm]
  exact List.mem_append_right _ (List.mem_singleton_self _)

/-- **The kubecfg of a topology.** In every run whose creations all name the default kubecfg, every
request for a topology uses the kubecfg the topology was created with, and its deletion touches no
other cluster. After a topology has been created with another kubecfg, the next request for it
uses a different one. -/
theorem kubecfg_kept (c : Host) (clusters : String → Namespaces) (as : List Act) (s : St)
    (h : run (step c) (start clusters) as = some s) :
    ((∀ a ∈ as, SameKubecfg c a) → (∀ u ∈ s.uses, u.home = some u.kubecfg) ∧
      ∀ name k, s.home name ≠ some k → ∀ e r,
        (deleteTopology c s name e r).1.clusters k = s.clusters k) ∧
    ∀ topo topo' kubecfg kcfg home e, topo.name ≠ "" → s.topos topo.name = none →
      prepare c topo kubecfg e = .ok (topo', kcfg) →
      (create (s.clusters kcfg) topo' e.run).2 = none →
      c.abs c.defaultKubeCfg = some home →
      ¬ SameKubecfg c (.createTopology (some topo) kubecfg e) →
      ∃ t, run (step c) (start clusters) (as ++ [.createTopology (some topo) kubecfg e,
        .showTopology topo.name {} none]) = some t ∧ ∃ u ∈ t.uses, u.home ≠ some u.kubecfg := by
  constructor
  · intro hsame
    have hs : Faithful c s := by
      refine run_inv_along (P := Faithful c) ?_ ?_ (along_of_mem hsame _) h
      · exact fun s a t hs hsame hst => faithful_step hs hsame hst
      · exact ⟨fun name hn => by simp [start] at hn, by simp [start]⟩
    exact ⟨hs.uses, fun name k hk e r => deleteTopology_clusters hs hk e r⟩
  · intro topo topo' kubecfg kcfg home e hname hfree hp hf hhome hbad
    obtain ⟨t, hrun, hu⟩ := exists_unfaithful hname hfree hp hf hbad hhome
    exact ⟨t, run_trans (step c) h hrun, hu⟩

/-- The default kubecfg under its own name, and requests of every kind. -/
def defaultRun : List Act :=
  [.createTopology (some lab) "/home/kne/.kube/config" {}, .showTopology "lab" {} none,
    .pushConfig "lab" "r1" {} none, .resetConfig "lab" "r1" {} none, .deleteTopology "lab" {} {}]

theorem defaultRun_kept : ∃ s, run (step laptop) (start fun _ _ => none) defaultRun = some s ∧
    s.uses.length = 4 ∧ ∀ u ∈ s.uses, u.home = some u.kubecfg := by
  obtain ⟨s, hs⟩ : ∃ s, run (step laptop) (start fun _ _ => none) defaultRun = some s := ⟨_, rfl⟩
  refine ⟨s, hs, by cases hs; rfl, ?_⟩
  exact ((kubecfg_kept laptop (fun _ _ => none) defaultRun s hs).1 (by decide)).1

/-- The topology is created in one cluster, and the namespace of that name in the cluster behind
the default kubecfg is deleted. -/
def elsewhereRun : List Act :=
  [.createTopology (some lab) "/home/kne/.kube/other" {}, .deleteTopology "lab" {} {}]

def foreignLab : String → Namespaces :=
  Function.update (fun _ _ => none) "/home/kne/.kube/config"
    (Function.update (fun _ => none) "lab" (some {}))

theorem other_cluster_deleted :
    ∃ s, run (step laptop) (start foreignLab) elsewhereRun = some s ∧
      s.uses = [⟨"lab", some "/home/kne/.kube/other", "/home/kne/.kube/config"⟩] ∧
      s.clusters "/home/kne/.kube/config" "lab" = none ∧
      s.clusters "/home/kne/.kube/other" "lab" =
        some { ours := true, objs := [.node "r1"] } := by
  obtain ⟨s, hs⟩ : ∃ s, run (step laptop) (start foreignLab) elsewhereRun = some s := ⟨_, rfl⟩
  refine ⟨s, hs, ?_, ?_, ?_⟩ <;> cases hs <;> rfl

end Kne.CtlKubecfg
