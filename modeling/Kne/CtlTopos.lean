import Kne.CtlSteps

/-!
The topologies of the server and the namespaces of its cluster. `DeleteTopology` removes both, and
`DeleteCluster` only the namespaces; so does a `DeleteTopology` that gives up waiting. A topology
whose namespace is gone can neither be created nor deleted any more.
-/

namespace Kne.CtlTopos

open Kne.Runs Kne.CtlModel Kne.CtlSteps

/-- The request is for the cluster behind the default kubecfg. -/
def OnDefault : Act → Prop
  | .createTopology _ kubecfg _ => kubecfg = ""
  | _ => True

/-- No cluster is taken down while there are topologies, and no deletion of a topology that was
accepted fails in the wait for the namespace to go. -/
def Kept (c : Host) (s : St) : Act → Prop
  | .deleteCluster name err wiped => ∀ d, s.deployments name = some d →
      takesDown d err wiped = true → ∀ n, s.topos n = none
  | .deleteTopology name e r => ∀ topo kcfg, openTopology deleteErr c s name e = .ok (topo, kcfg) →
      (s.clusters kcfg topo.name).isSome = true → r.get = true → r.delete = none → r.wait = none
  | _ => True

/-- The topologies have their namespaces, and no namespace is on its way out. -/
structure Held (c : Host) (s : St) : Prop where
  calm : ∀ name, Calm (s.clusters c.home name)
  held : ∀ name topo, s.topos name = some topo →
    c.abs c.defaultKubeCfg = some c.home ∧ Live (s.clusters c.home name)

variable {c : Host} {s : St}

lemma home_eq {kcfg : String} (h : c.abs c.defaultKubeCfg = some kcfg) : kcfg = c.home := by
  simp [Host.home, h]

lemma prepare_home {topo topo' : Topology} {kubecfg kcfg : String} {e : CreateEnv}
    (hdef : kubecfg = "") (h : prepare c topo kubecfg e = .ok (topo', kcfg)) :
    topo'.name = topo.name ∧ c.abs c.defaultKubeCfg = some c.home ∧ kcfg = c.home := by
  obtain ⟨hsame, habs⟩ := prepare_ok h
  rw [hdef] at habs
  obtain rfl : kcfg = c.home := home_eq habs
  exact ⟨hsame, habs, rfl⟩

lemma openTopology_home {newErr : Topology → String} {topo : Topology} {name kcfg : String}
    {e : OpenEnv} (h : openTopology newErr c s name e = .ok (topo, kcfg)) :
    s.topos name = some topo ∧ kcfg = c.home :=
  (openTopology_ok h).imp_right home_eq

lemma home_ne_of_terminating (hcalm : ∀ name, Calm (s.clusters c.home name))
    {kcfg name : String} {n : Namespace} (hn : s.clusters kcfg name = some n)
    (ht : n.terminating = true) : c.home ≠ kcfg := by
  rintro rfl
  rw [hcalm name n hn] at ht
  cases ht

lemma held_clusters (hs : Held c s) {nss : Namespaces}
    (hcalm : ∀ name, Calm (nss name))
    (hlive : ∀ name topo, s.topos name = some topo → Live (nss name)) :
    Held c { s with clusters := Function.update s.clusters c.home nss } where
  calm name := by
    simp only [Function.update_self]
    exact hcalm name
  held name topo ht := by
    simp only [Function.update_self]
    exact ⟨(hs.held name topo ht).1, hlive name topo ht⟩

lemma held_create (hs : Held c s) {topo : Topology} (hfree : s.topos topo.name = none)
    (r : CreateRun) : Held c { s with
      clusters := Function.update s.clusters c.home (create (s.clusters c.home) topo r).1 } := by
  refine held_clusters hs (create_calm hs.calm) fun name topo' ht => ?_
  have hname : name ≠ topo.name := by
    rintro rfl
    rw [hfree] at ht
    cases ht
  rw [create_other hname]
  exact (hs.held name topo' ht).2

lemma held_register (hs : Held c s) (habs : c.abs c.defaultKubeCfg = some c.home)
    {topo : Topology} (hlive : Live (s.clusters c.home topo.name)) (kcfg : String) :
    Held c (register s topo kcfg) where
  calm := hs.calm
  held name topo' ht := by
    dsimp only [register] at ht ⊢
    by_cases hn : name = topo.name
    · subst hn
      exact ⟨habs, hlive⟩
    · rw [Function.update_of_ne hn] at ht
      exact hs.held name topo' ht

lemma held_deleteFails (hs : Held c s) {name : String} {r : DeleteRun}
    (hf : (delete (s.clusters c.home) name r).2 ≠ none)
    (hk : (s.clusters c.home name).isSome = true → r.get = true → r.delete = none →
      r.wait = none) : Held c { s with
      clusters := Function.update s.clusters c.home (delete (s.clusters c.home) name r).1 } := by
  refine held_clusters hs (delete_calm hs.calm fun n hn => hk (by simp [hn])) ?_
  have hd := delete_deleted (s.clusters c.home) name r
  generalize delete (s.clusters c.home) name r = out at hd hf
  cases hd with
  | missing => exact fun name topo ht => (hs.held name topo ht).2
  | refused n err hn hg hd =>
    -- the namespace has fewer objects, and is there as before
    have hlive : Live (some { n with objs := n.objs.filter r.keep }) :=
      ⟨_, rfl, hs.calm name n hn⟩
    exact (Function.forall_update_iff _ fun name' cell => ∀ topo, s.topos name' = some topo →
      Live cell).mpr ⟨fun _ _ => hlive, fun name' _ topo ht => (hs.held name' topo ht).2⟩
  | unseen n err hn hg hd hw =>
    rw [hk (by simp [hn]) hg hd] at hw
    cases hw
  | gone => exact absurd rfl hf

lemma held_deleted (hs : Held c s) {name : String} {r : DeleteRun}
    (hf : (delete (s.clusters c.home) name r).2 = none) : Held c { s with
      clusters := Function.update s.clusters c.home (delete (s.clusters c.home) name r).1
      topos := Function.update s.topos name none } := by
  have hd := delete_deleted (s.clusters c.home) name r
  generalize delete (s.clusters c.home) name r = out at hd hf
  cases hd with
  | missing => cases hf
  | refused => cases hf
  | unseen => cases hf
  | gone n hn hg hd hw =>
    refine ⟨?_, fun name' topo ht => ?_⟩
    · simp only [Function.update_self]
      exact forall_calm_update hs.calm name fun n hn => by cases hn
    · dsimp only at ht ⊢
      have hname : name' ≠ name := by
        rintro rfl
        rw [Function.update_self] at ht
        cases ht
      rw [Function.update_of_ne hname] at ht
      rw [Function.update_self, Function.update_of_ne hname]
      exact hs.held name' topo ht

lemma held_step {a : Act} {t : St} (hn : Named s) (hs : Held c s) (hk : Kept c s a)
    (hdef : OnDefault a) (h : step c s a = some t) : Held c t := by
  cases step_does h with
  | refused => exact hs
  | deployments => exact ⟨hs.calm, hs.held⟩
  | takenDown name err wiped d ds hd ht =>
    have hnone := hk d hd ht
    refine ⟨fun name n hn => ?_, fun name topo ht => ?_⟩
    · simp [wipe] at hn
    · rw [show (wipe c s).topos = s.topos from rfl, hnone] at ht
      cases ht
  | createFails topo topo' kubecfg kcfg e hname hfree hp hf =>
    obtain ⟨hsame, -, rfl⟩ := prepare_home hdef hp
    exact held_create hs (hsame ▸ hfree) e.run
  | created topo topo' kubecfg kcfg e hname hfree hp hf =>
    obtain ⟨hsame, habs, rfl⟩ := prepare_home hdef hp
    refine held_register (held_create hs (hsame ▸ hfree) e.run) habs ?_ _
    simp only [Function.update_self]
    exact create_live (hs.calm topo'.name) hf
  | deleteFails name kcfg topo e r ho hf =>
    obtain ⟨ht, rfl⟩ := openTopology_home ho
    have hheld := held_deleteFails hs hf (hk topo _ ho)
    exact ⟨hheld.calm, hheld.held⟩
  | deleted name kcfg topo e r ho hf =>
    obtain ⟨ht, rfl⟩ := openTopology_home ho
    rw [(hn name topo ht).1] at hf ⊢
    have hheld := held_deleted hs hf
    exact ⟨hheld.calm, hheld.held⟩
  | consulted => exact ⟨hs.calm, hs.held⟩
  | reaped kcfg name n hn ht =>
    have hne := home_ne_of_terminating hs.calm hn ht
    refine ⟨fun name' => ?_, fun name' topo ht' => ?_⟩
    · simp only [Function.update_of_ne hne]
      exact hs.calm name'
    · simp only [Function.update_of_ne hne]
      exact hs.held name' topo ht'

/-! ### Topologies without a namespace -/

/-- Neither request for the topology goes through, and neither changes that. -/
def Stuck (c : Host) (s : St) (name : String) : Prop :=
  (∀ topo kubecfg e, topo.name = name → createTopology c s (some topo) kubecfg e =
    (s, .error ⟨.alreadyExists, "topology " ++ name.quote ++ " already exists"⟩)) ∧
  ∀ e r, ∃ msg, (deleteTopology c s name e r).2 = .error ⟨.internal, msg⟩ ∧
    (deleteTopology c s name e r).1.topos = s.topos ∧
    (deleteTopology c s name e r).1.clusters = s.clusters

lemma openTopology_cases {newErr : Topology → String} {name : String} {e : OpenEnv}
    {topo : Topology} (ht : s.topos name = some topo) :
    (∃ msg, openTopology newErr c s name e = .error ⟨.internal, msg⟩) ∨
      ∃ kcfg, openTopology newErr c s name e = .ok (topo, kcfg) := by
  unfold openTopology
  rw [ht]
  cases e.unmarshal with
  | some err => exact Or.inl ⟨_, rfl⟩
  | none =>
    cases validatePath c e.stat c.defaultKubeCfg with
    | error err => exact Or.inl ⟨_, rfl⟩
    | ok kcfg =>
      cases e.new with
      | some err => exact Or.inl ⟨_, rfl⟩
      | none => exact Or.inr ⟨kcfg, rfl⟩

lemma stuck_of_missing (hn : Named s) {name : String} {topo : Topology}
    (ht : s.topos name = some topo) (hgone : s.clusters c.home name = none) : Stuck c s name := by
  obtain ⟨hname, hne⟩ := hn name topo ht
  refine ⟨fun topo' kubecfg e heq => ?_, fun e r => ?_⟩
  · subst heq
    simp [createTopology, hne, ht]
  · unfold deleteTopology
    rcases @openTopology_cases c s deleteErr name e topo ht with ⟨msg, ho⟩ | ⟨kcfg, ho⟩
    · rw [ho]
      exact ⟨msg, rfl, rfl, rfl⟩
    · obtain ⟨-, rfl⟩ := openTopology_home ho
      have hd : delete (s.clusters c.home) topo.name r = (s.clusters c.home,
          some ("topology " ++ name.quote ++ " does not exist in cluster")) := by
        simp [delete, hname, hgone]
      rw [ho]
      dsimp only
      rw [hd]
      exact ⟨_, rfl, rfl, Function.update_eq_self _ _⟩

lemma deleteTopology_ok (hn : Named s) (hs : Held c s) {name : String} {topo : Topology}
    (ht : s.topos name = some topo) : (deleteTopology c s name {} {}).2 = .ok () := by
  obtain ⟨habs, n, hlive, -⟩ := hs.held name topo ht
  have ho : openTopology deleteErr c s name {} = .ok (topo, c.home) := by
    simp [openTopology, ht, validatePath, habs]
  have hd : (delete (s.clusters c.home) topo.name {}).2 = none := by
    simp [delete, (hn name topo ht).1, hlive]
  unfold deleteTopology
  rw [ho]
  dsimp only
  rw [hd]

/-- A step that is not allowed leads to a topology without a namespace, with no request after
it. -/
lemma exists_missing (hn : Named s) {a : Act} {u : St} (h : step c s a = some u)
    (hbad : ¬ Kept c s a) : ∃ bs t name topo, (∀ b ∈ bs, ∃ kcfg name, b = .reap kcfg name) ∧
      run (step c) u bs = some t ∧ t.topos name = some topo ∧ t.clusters c.home name = none := by
  cases a with
  | deleteCluster name err wiped =>
    simp only [Kept, not_forall] at hbad
    obtain ⟨d, hd, ht, name', hsome⟩ := hbad
    obtain ⟨topo, htopo⟩ := Option.ne_none_iff_exists'.mp hsome
    cases h
    have hclusters : (deleteCluster c s name err wiped).1.clusters c.home = fun _ => none := by
      unfold deleteCluster
      rw [hd]
      dsimp only
      rw [if_pos ht]
      split <;> simp [wipe]
    have htopos : (deleteCluster c s name err wiped).1.topos = s.topos := by
      unfold deleteCluster
      rw [hd]
      dsimp only
      rw [if_pos ht]
      split <;> rfl
    exact ⟨[], _, name', topo, by simp, rfl, by rw [htopos]; exact htopo, by rw [hclusters]⟩
  | deleteTopology name e r =>
    simp only [Kept, not_forall] at hbad
    obtain ⟨topo, kcfg, ho, hsome, hg, hd, hw⟩ := hbad
    obtain ⟨n, hnn⟩ := Option.isSome_iff_exists.mp hsome
    obtain ⟨err, hw⟩ := Option.ne_none_iff_exists'.mp hw
    obtain ⟨ht, rfl⟩ := openTopology_home ho
    rw [(hn name topo ht).1] at hnn
    cases h
    have hdel : delete (s.clusters c.home) topo.name r = (Function.update (s.clusters c.home) name
        (some { n with objs := n.objs.filter r.keep, terminating := true }),
        some ("failed to wait for namespace " ++ name.quote ++ " deletion: " ++ err)) := by
      simp [delete, (hn name topo ht).1, hnn, hg, hd, hw]
    have hu : (deleteTopology c s name e r).1.clusters c.home name =
          some { n with objs := n.objs.filter r.keep, terminating := true } ∧
        (deleteTopology c s name e r).1.topos = s.topos := by
      unfold deleteTopology
      rw [ho]
      dsimp only
      rw [hdel]
      simp [St.use]
    -- the namespace goes after all
    have hreap := step_reap (c := c) hu.1 rfl
    refine ⟨[.reap c.home name], _, name, topo, by simp, by rw [run_cons, hreap]; rfl, ?_, ?_⟩
    · change (deleteTopology c s name e r).1.topos name = some topo
      rw [hu.2]
      exact ht
    · simp
  | createCluster => exact absurd trivial hbad
  | createTopology => exact absurd trivial hbad
  | showTopology => exact absurd trivial hbad
  | pushConfig => exact absurd trivial hbad
  | resetConfig => exact absurd trivial hbad
  | reap => exact absurd trivial hbad

/-- **When topologies can be deleted.** In every run that takes no cluster down while there are
topologies, and in which no deletion fails in the wait for its namespace, every topology has its
namespace and can be deleted. A step that breaks this can be followed by others so that a topology
is left which can neither be created nor deleted. -/
theorem topology_deletable (c : Host) (clusters : String → Namespaces)
    (hcalm : ∀ k name, Calm (clusters k name)) (as : List Act)
    (hdef : ∀ a ∈ as, OnDefault a) (s : St) (h : run (step c) (start clusters) as = some s) :
    (Along (step c) (Kept c) (start clusters) as → ∀ name, (s.topos name).isSome = true →
      (s.clusters c.home name).isSome = true ∧ (deleteTopology c s name {} {}).2 = .ok ()) ∧
    ∀ a u, step c s a = some u → ¬ Kept c s a →
      ∃ bs t name, run (step c) (start clusters) (as ++ a :: bs) = some t ∧ Stuck c t name := by
  constructor
  · intro hok name hname
    have hinv : Named s ∧ Held c s := by
      refine run_inv_along (P := fun s => Named s ∧ Held c s) ?_ ?_ (hok.and_mem hdef) h
      · rintro s a t ⟨hn, hs⟩ ⟨hk, hd⟩ hst
        exact ⟨named_step hn hst, held_step hn hs hk hd hst⟩
      · exact ⟨fun _ _ h => by simp [start] at h,
          hcalm c.home, fun _ _ h => by simp [start] at h⟩
    obtain ⟨topo, ht⟩ := Option.isSome_iff_exists.mp hname
    obtain ⟨-, n, hn, -⟩ := hinv.2.held name topo ht
    exact ⟨by simp [hn], deleteTopology_ok hinv.1 hinv.2 ht⟩
  · intro a u hst hbad
    obtain ⟨bs, t, name, topo, -, hrun, ht, hgone⟩ := exists_missing (named_run h) hst hbad
    have hall := run_trans_cons (step c) h hst hrun
    exact ⟨bs, t, name, hall, stuck_of_missing (named_run hall) ht hgone⟩

/-! ### A laboratory -/

/-- A host on which every path is absolute. -/
def laptop : Host where
  defaultKubeCfg := "/home/kne/.kube/config"
  defaultTopoBasePath := "/home/kne/kne/examples"
  abs := some
  join base path := base ++ "/" ++ path

def lab : Topology where
  name := "lab"
  nodes := [{ name := "r1" }]

/-- A cluster is deployed and a topology is created in it. -/
def labRun : List Act := [.createCluster (.ok (.kind "kne")) none, .createTopology (some lab) "" {}]

theorem labRun_deletable : ∃ s, run (step laptop) (start fun _ _ => none) labRun = some s ∧
    (s.topos "lab").isSome = true ∧ (deleteTopology laptop s "lab" {} {}).2 = .ok () := by
  obtain ⟨s, hs⟩ : ∃ s, run (step laptop) (start fun _ _ => none) labRun = some s := ⟨_, rfl⟩
  have hname : (s.topos "lab").isSome = true := by
    cases hs
    rfl
  have hdef : ∀ a ∈ labRun, OnDefault a := by simp [labRun, OnDefault]
  have hok : Along (step laptop) (Kept laptop) (start fun _ _ => none) labRun :=
    ⟨trivial, fun _ _ => ⟨trivial, fun _ _ => trivial⟩⟩
  exact ⟨s, hs, hname, ((topology_deletable laptop _ (fun _ _ _ h => by cases h) labRun hdef s
    hs).1 hok "lab" hname).2⟩

theorem cluster_deletion_strands :
    (∀ a ∈ labRun ++ [.deleteCluster "kne" none true], OnDefault a) ∧
    ∃ s, run (step laptop) (start fun _ _ => none)
        (labRun ++ [.deleteCluster "kne" none true]) = some s ∧
      (s.topos "lab").isSome = true ∧ s.clusters laptop.home "lab" = none ∧
      Stuck laptop s "lab" := by
  refine ⟨by simp [labRun, OnDefault], ?_⟩
  obtain ⟨s, hs⟩ : ∃ s, run (step laptop) (start fun _ _ => none)
    (labRun ++ [.deleteCluster "kne" none true]) = some s := ⟨_, rfl⟩
  have htopo : s.topos "lab" = some lab := by
    cases hs
    rfl
  have hgone : s.clusters laptop.home "lab" = none := by
    cases hs
    rfl
  exact ⟨s, hs, by rw [htopo]; rfl, hgone, stuck_of_missing (named_run hs) htopo hgone⟩

end Kne.CtlTopos
