import Kne.DeployEntries

/-!
When reading a deployment panics. The controllers of a configuration are pointers, and one that is
null in the file is nil. The walk follows it and asks the value that is not there for its type.
-/

namespace Kne.DeployPanics

open Kne.Checked Kne.Reflect Kne.Reflect.Value Kne.DeployModel Kne.DeployWalk Kne.DeployEntries

variable {ν : Type} {files : Files} {c : Config} {y : Yaml ν}

/-- An entry is refused: its kind is not registered, or its spec cannot be decoded, or it names a
file that is not accepted. -/
def Refused (files : Files) (c : Config) (y : Yaml ν) (s : Section ν) : Prop :=
  match specs.lookup s.kind with
  | none => True
  | some st =>
    match y.decode s.spec st.type with
    | .error _ => True
    | .ok vs => ¬ AllPass files c (tagged isYaml false (structOf st.type vs))

lemma entry_eq_none_iff {s : Section ν} : entry files c y s = none ↔ Refused files c y s := by
  unfold Refused
  cases hst : specs.lookup s.kind with
  | none => simp [entry, findSpec, hst, Except.toOption]
  | some st =>
    have hfind : findSpec s.kind = .ok st := by simp [findSpec, hst]
    obtain ⟨slot, hslot, -⟩ := exists_slot hfind
    cases hvs : y.decode s.spec st.type with
    | error err => simp [entry, hfind, hvs, Except.toOption]
    | ok vs => simp [entry, hfind, hvs, hslot, Except.toOption]

/-- The first controller that is null comes after an entry that is refused. -/
def NullHidden (files : Files) (c : Config) (y : Yaml ν) (cfg : DeploymentConfig ν) : Prop :=
  ∀ pre post, cfg.controllers = pre ++ none :: post → none ∉ pre →
    ∃ s, some s ∈ some cfg.cluster :: some cfg.ingress :: some cfg.cni :: pre ∧ Refused files c y s

lemma entries_split_iff {cfg : DeploymentConfig ν} {pre post : List (Option (Section ν))} :
    entries cfg = pre ++ none :: post ↔ ∃ pre', cfg.controllers = pre' ++ none :: post ∧
      pre = some cfg.cluster :: some cfg.ingress :: some cfg.cni :: pre' := by
  constructor
  · intro h
    match pre with
    | [] => simp [entries] at h
    | [_] => simp [entries] at h
    | [_, _] => simp [entries] at h
    | a :: b :: e :: pre' =>
      simp only [entries, List.cons_append, List.cons.injEq] at h
      obtain ⟨rfl, rfl, rfl, hctl⟩ := h
      exact ⟨pre', hctl, rfl⟩
  · rintro ⟨pre', hctl, rfl⟩
    rw [entries, hctl]
    rfl

/-- **When reading a deployment returns.** -/
theorem decode_returns_iff (files : Files) (c : Config) (y : Yaml ν) (n : ℕ)
    (cfg : DeploymentConfig ν) :
    (∀ text, Decode files c y (n + 1) cfg ≠ .error (.panic text)) ↔ NullHidden files c y cfg := by
  rw [← not_iff_not]
  push Not
  rw [decode_panics_iff]
  unfold NullHidden
  push Not
  constructor
  · rintro ⟨pre, post, hsplit, hpre⟩
    obtain ⟨pre', hctl, rfl⟩ := entries_split_iff.mp hsplit
    refine ⟨pre', post, hctl, fun hnull => ?_, fun s hs hrefused => ?_⟩
    · obtain ⟨s, hs, -⟩ := hpre none (by simp [hnull])
      cases hs
    · obtain ⟨s', hs', hne⟩ := hpre _ hs
      obtain rfl := Option.some.inj hs'
      exact hne (entry_eq_none_iff.mpr hrefused)
  · rintro ⟨pre, post, hctl, hnull, hacc⟩
    refine ⟨_, post, entries_split_iff.mpr ⟨pre, hctl, rfl⟩, fun o ho => ?_⟩
    cases o with
    | none => simp [hnull] at ho
    | some s => exact ⟨s, rfl, fun hnone => hacc s ho (entry_eq_none_iff.mp hnone)⟩

/-- A configuration with a controller that is null. -/
def nullController : DeploymentConfig (List (String × String)) where
  cluster := ⟨"Kind", [("name", "kne")]⟩
  ingress := ⟨"MetalLB", [("manifests", "manifests/metallb")]⟩
  cni := ⟨"Meshnet", [("manifests", "manifests/meshnet")]⟩
  controllers := [none]

def stopOf {α : Type} : Except Stop α → Option Stop
  | .error stop => some stop
  | .ok _ => none

lemma eq_error_of_stopOf {α : Type} {x : Except Stop α} {stop : Stop} (h : stopOf x = some stop) :
    x = .error stop := by
  cases x with
  | error err => exact congrArg _ (Option.some.inj h)
  | ok a => cases h

/-- **A controller that is null.** -/
theorem null_controller_panics : Decode noFiles inRoot simpleYaml 1 nullController =
    .error (.panic "reflect: call of reflect.Value.Type on zero Value") :=
  eq_error_of_stopOf (by decide +kernel)

end Kne.DeployPanics
