import Kne.DeployEntries

/-!
The names of files in a deployment. Every text that is in a field for names of YAML files, at
whatever depth, has been made the absolute path of a file that was looked at.
-/

namespace Kne.DeployFiles

open Kne.Checked Kne.Reflect Kne.Reflect.Value Kne.Paths Kne.DeployModel Kne.DeployWalk
  Kne.DeployEntries

variable {ν : Type} {files : Files} {c : Config} {y : Yaml ν}

/-- The specs of a deployment. -/
def values (d : Deployment ν) : List (Value ν) :=
  d.cluster.toList ++ d.ingress.toList ++ d.cni.toList ++ d.controllers

lemma mem_values_set {d : Deployment ν} {slot : Slot} {val v : Value ν}
    (h : v ∈ values (d.set slot val)) : v = val ∨ v ∈ values d := by
  cases slot <;> simp [values, Deployment.set] at h ⊢ <;> tauto

lemma mem_values_filled {es : List (Slot × Value ν)} {d : Deployment ν} {v : Value ν}
    (h : v ∈ values (filled es d)) : (∃ e ∈ es, e.2 = v) ∨ v ∈ values d := by
  induction es generalizing d with
  | nil => exact .inr h
  | cons e es ih =>
    rcases ih h with ⟨e', he', rfl⟩ | hv
    · exact .inl ⟨e', List.mem_cons_of_mem _ he', rfl⟩
    · rcases mem_values_set hv with rfl | hv
      · exact .inl ⟨e, List.mem_cons_self, rfl⟩
      · exact .inr hv

/-- A spec as the decoder of YAML gives it for an entry of the configuration. -/
def Configured (y : Yaml ν) (cfg : DeploymentConfig ν) (raw : Value ν) : Prop :=
  ∃ s st vs, some s ∈ entries cfg ∧ findSpec s.kind = .ok st ∧ y.decode s.spec st.type = .ok vs ∧
    structOf st.type vs = raw

/-- The path is that of a regular file that is read as YAML. -/
structure Checked (files : Files) (path : String) : Prop where
  isAbs : isAbs path = true
  regular : files.stat path = .ok true
  opened : files.openErr path = none
  parsed : files.yamlErr path = none

lemma isAbs_dir (c : Config) : isAbs c.dir = true := Paths.isAbs_dir (isAbs_abs c.cwd_isAbs c.path)

lemma isAbs_resolve (c : Config) (name : String) : isAbs (c.resolve name) = true := by
  unfold Config.resolve
  split_ifs with h
  · exact h
  · exact isAbs_join (isAbs_dir c) name

lemma checked_of_passes {name : String} (hc : c.ignoreMissingFiles = false)
    (h : Passes files c name) : Checked files (c.resolve name) := by
  unfold Passes at h
  cases hs : files.stat (c.resolve name) with
  | error err =>
    rw [hs] at h
    exact absurd h (by simp [hc])
  | ok regular =>
    rw [hs] at h
    obtain ⟨rfl, hopen, hyaml⟩ := h
    exact ⟨isAbs_resolve c name, hs, hopen, hyaml⟩

lemma exists_configured {n : ℕ} {cfg : DeploymentConfig ν} {d : Deployment ν}
    (h : Decode files c y (n + 1) cfg = .ok d) {v : Value ν} (hv : v ∈ values d) :
    ∃ raw, Configured y cfg raw ∧ AllPass files c (tagged isYaml false raw) ∧
      v = mapTagged isYaml (pathOf c) false raw := by
  obtain ⟨es, hes, rfl⟩ := decode_ok_iff.mp h
  rcases mem_values_filled hv with ⟨e, he, rfl⟩ | hv
  · obtain ⟨s, hs, hentry⟩ := hes.exists_section he
    obtain ⟨st, vs, hst, hvs, -, hpass, hval⟩ := entry_eq_some_iff.mp hentry
    exact ⟨structOf st.type vs, ⟨s, st, vs, hs, hst, hvs, rfl⟩, hpass, hval.symm⟩
  · simp [values] at hv

/-- **The files of a deployment.** Where `Decode` succeeds and missing files are not ignored, each
spec is the one that was configured but for its tagged texts, and each of these is the path of the
configured one and names a file that was read as YAML. -/
theorem decode_checks_files (files : Files) (c : Config) (y : Yaml ν) (n : ℕ)
    (cfg : DeploymentConfig ν) (d : Deployment ν) (hc : c.ignoreMissingFiles = false)
    (h : Decode files c y (n + 1) cfg = .ok d) :
    ∀ v ∈ values d, ∃ raw, Configured y cfg raw ∧ v = mapTagged isYaml (pathOf c) false raw ∧
      tagged isYaml false v = (tagged isYaml false raw).map (pathOf c) ∧
      ∀ path ∈ tagged isYaml false v, path ≠ "" → Checked files path := by
  intro v hv
  obtain ⟨raw, hraw, hpass, rfl⟩ := exists_configured h hv
  have hmap := tagged_mapTagged isYaml (pathOf c) false raw
  refine ⟨raw, hraw, rfl, hmap, fun path hpath hne => ?_⟩
  rw [hmap] at hpath
  obtain ⟨name, hname, rfl⟩ := List.mem_map.mp hpath
  have hname' : name ≠ "" := by
    rintro rfl
    exact hne rfl
  rw [pathOf, if_neg hname']
  exact checked_of_passes hc (hpass name hname hname')

/-- A configuration with paths of both sorts, and a list of manifests. -/
def bridgeConfig : DeploymentConfig (List (String × String)) where
  cluster := ⟨"Kind", [("name", "kne"), ("config", "kind/no-cni.yaml"),
    ("additionalManifests", "../manifests/bridge.yaml")]⟩
  ingress := ⟨"MetalLB", [("manifest", "/opt/metallb.yaml")]⟩
  cni := ⟨"Meshnet", [("manifest", "meshnet.yaml")]⟩
  controllers := [some ⟨"IxiaTG", [("operator", "ixia.yaml"), ("configMap", "./map.yaml")]⟩]

/-- All files are regular and are read as YAML. -/
def allFiles : Files := ⟨fun _ => .ok true, fun _ => none, fun _ => none⟩

def inKne : Config := ⟨"/home/kne", by decide, "deploy/kind-bridge.yaml", false⟩

theorem bridgeConfig_checked : ∃ d, Decode allFiles inKne simpleYaml 1 bridgeConfig = .ok d ∧
    (values d).flatMap (tagged isYaml false) = ["", "/home/kne/deploy/kind/no-cni.yaml",
      "/home/kne/manifests/bridge.yaml", "/opt/metallb.yaml", "/home/kne/deploy/meshnet.yaml",
      "/home/kne/deploy/ixia.yaml", "/home/kne/deploy/map.yaml"] ∧
    ∀ v ∈ values d, ∀ path ∈ tagged isYaml false v, path ≠ "" → Checked allFiles path := by
  have hpaths : ((Decode allFiles inKne simpleYaml 1 bridgeConfig).toOption.map fun d =>
      (values d).flatMap (tagged isYaml false)) = some ["", "/home/kne/deploy/kind/no-cni.yaml",
        "/home/kne/manifests/bridge.yaml", "/opt/metallb.yaml", "/home/kne/deploy/meshnet.yaml",
        "/home/kne/deploy/ixia.yaml", "/home/kne/deploy/map.yaml"] := by decide +kernel
  obtain ⟨d, hd, htagged⟩ := exists_ok_of_toOption hpaths
  refine ⟨d, hd, htagged, fun v hv => ?_⟩
  obtain ⟨raw, -, -, -, hchecked⟩ :=
    decode_checks_files allFiles inKne simpleYaml 0 bridgeConfig d rfl hd v hv
  exact hchecked

end Kne.DeployFiles
