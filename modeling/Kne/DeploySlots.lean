import Kne.DeployEntries

/-!
Which entry of a configuration fills which field of the deployment. The field is the one that the
kind of the entry is registered for, and not the one that the section is named after; of several
entries for one field the last one is kept, but for the controllers, which are collected.
-/

namespace Kne.DeploySlots

open Kne.Checked Kne.Reflect Kne.Reflect.Value Kne.DeployModel Kne.DeployWalk Kne.DeployEntries

variable {ν : Type} {files : Files} {c : Config} {y : Yaml ν}

/-! ### What is in the fields -/

/-- The values for a field, in order. -/
def allOf (slot : Slot) (es : List (Slot × Value ν)) : List (Value ν) :=
  (es.filter fun e => e.1 = slot).map Prod.snd

/-- The last value for a field. -/
def lastOf (slot : Slot) (es : List (Slot × Value ν)) : Option (Value ν) := (allOf slot es).getLast?

lemma mem_allOf {slot : Slot} {es : List (Slot × Value ν)} {v : Value ν} :
    v ∈ allOf slot es ↔ (slot, v) ∈ es := by
  simp only [allOf, List.mem_map, List.mem_filter, decide_eq_true_eq]
  constructor
  · rintro ⟨⟨slot', v'⟩, ⟨he, rfl⟩, rfl⟩
    exact he
  · intro h
    exact ⟨(slot, v), ⟨h, rfl⟩, rfl⟩

lemma allOf_concat (slot : Slot) (es : List (Slot × Value ν)) (e : Slot × Value ν) :
    allOf slot (es ++ [e]) = if e.1 = slot then allOf slot es ++ [e.2] else allOf slot es := by
  by_cases he : e.1 = slot <;> simp [allOf, List.filter_append, he]

lemma lastOf_concat (slot : Slot) (es : List (Slot × Value ν)) (e : Slot × Value ν) :
    lastOf slot (es ++ [e]) = if e.1 = slot then some e.2 else lastOf slot es := by
  rw [lastOf, allOf_concat]
  split_ifs
  · simp
  · rfl

/-- **What is in the fields.** -/
lemma filled_eq (es : List (Slot × Value ν)) :
    filled es {} =
      ⟨lastOf .cluster es, lastOf .ingress es, lastOf .cni es, allOf .controllers es⟩ := by
  induction es using List.reverseRecOn with
  | nil => rfl
  | append_singleton es e ih =>
    have hstep : filled (es ++ [e]) {} = (filled es {}).set e.1 e.2 := by
      simp [filled, List.foldl_append]
    rw [hstep, ih, lastOf_concat, lastOf_concat, lastOf_concat, allOf_concat]
    obtain ⟨slot, v⟩ := e
    cases slot <;> rfl

/-! ### Sections and their own fields -/

/-- The field that the kind of a section is registered for. -/
def slotOf (s : Section ν) : Option Slot :=
  (specs.lookup s.kind).bind fun st => (findField st.tag).toOption

/-- What a section is decoded to. -/
def decoded (files : Files) (c : Config) (y : Yaml ν) (s : Section ν) : Option (Value ν) :=
  (entry files c y s).map Prod.snd

/-- Each field is decoded from the section of its name, and the controllers from the list of
controllers, one by one. -/
structure FillsOwn (files : Files) (c : Config) (y : Yaml ν) (cfg : DeploymentConfig ν)
    (d : Deployment ν) : Prop where
  cluster : d.cluster = decoded files c y cfg.cluster
  ingress : d.ingress = decoded files c y cfg.ingress
  cni : d.cni = decoded files c y cfg.cni
  controllers : d.controllers.map some = cfg.controllers.map fun o => o.bind (decoded files c y)

/-- Each section has a kind that is registered for it. -/
structure OwnKinds (cfg : DeploymentConfig ν) : Prop where
  cluster : slotOf cfg.cluster = some .cluster
  ingress : slotOf cfg.ingress = some .ingress
  cni : slotOf cfg.cni = some .cni
  controllers : ∀ s, some s ∈ cfg.controllers → slotOf s = some .controllers

lemma slotOf_of_entry {s : Section ν} {e : Slot × Value ν} (h : entry files c y s = some e) :
    slotOf s = some e.1 := by
  obtain ⟨st, vs, hst, -, hslot, -⟩ := entry_eq_some_iff.mp h
  have hlookup : specs.lookup s.kind = some st := by
    unfold findSpec at hst
    split at hst
    · rwa [← Except.ok.inj hst]
    · cases hst
  simp [slotOf, hlookup, hslot, Except.toOption]

/-- The type of a struct. -/
def typeName : Value ν → String
  | .struct name _ => name
  | _ => ""

lemma specs_names :
    ∀ p ∈ specs, ∀ q ∈ specs, p.2.type.name = q.2.type.name → p.2.tag = q.2.tag := by
  decide +kernel

lemma slot_eq_of_value_eq {s s' : Section ν} {e e' : Slot × Value ν}
    (h : entry files c y s = some e) (h' : entry files c y s' = some e') (hv : e.2 = e'.2) :
    e.1 = e'.1 := by
  obtain ⟨st, vs, hst, -, hslot, -, hval⟩ := entry_eq_some_iff.mp h
  obtain ⟨st', vs', hst', -, hslot', -, hval'⟩ := entry_eq_some_iff.mp h'
  have hname : st.type.name = st'.type.name := by
    rw [← hval, ← hval'] at hv
    exact congrArg typeName hv
  rw [specs_names _ (mem_specs hst) _ (mem_specs hst') hname, hslot'] at hslot
  exact (Except.ok.inj hslot).symm

lemma slotOf_of_mem {os : List (Option (Section ν))} {es : List (Slot × Value ν)}
    (hes : Accepted files c y os es) {s : Section ν} {v : Value ν}
    (hs : decoded files c y s = some v) {slot : Slot} (hv : (slot, v) ∈ es) :
    slotOf s = some slot := by
  obtain ⟨e, he, rfl⟩ := Option.map_eq_some_iff.mp hs
  obtain ⟨s', -, he'⟩ := hes.exists_section hv
  rw [slotOf_of_entry he, slot_eq_of_value_eq he he' rfl]

lemma accepted_entries {cfg : DeploymentConfig ν} {es : List (Slot × Value ν)}
    (h : Accepted files c y (entries cfg) es) : ∃ cl ing cni ctls,
      es = cl :: ing :: cni :: ctls ∧ entry files c y cfg.cluster = some cl ∧
      entry files c y cfg.ingress = some ing ∧ entry files c y cfg.cni = some cni ∧
      Accepted files c y cfg.controllers ctls := by
  unfold Accepted entries at h
  obtain ⟨cl, es', ⟨s, hs, hcl⟩, h', rfl⟩ := List.forall₂_cons_left_iff.mp h
  obtain ⟨ing, es'', ⟨s', hs', hing⟩, h'', rfl⟩ := List.forall₂_cons_left_iff.mp h'
  obtain ⟨cni, ctls, ⟨s'', hs'', hcni⟩, hctls, rfl⟩ := List.forall₂_cons_left_iff.mp h''
  obtain rfl := Option.some.inj hs
  obtain rfl := Option.some.inj hs'
  obtain rfl := Option.some.inj hs''
  exact ⟨cl, ing, cni, ctls, rfl, hcl, hing, hcni, hctls⟩

lemma map_decoded_of_accepted {os : List (Option (Section ν))} {es : List (Slot × Value ν)}
    (h : Accepted files c y os es) :
    (os.map fun o => o.bind (decoded files c y)) = es.map fun e => some e.2 := by
  induction h with
  | nil => rfl
  | cons hfirst _ ih =>
    obtain ⟨s, rfl, hs⟩ := hfirst
    rw [List.map_cons, List.map_cons, ih]
    simp [decoded, hs]

lemma ownKinds_of_fillsOwn {cfg : DeploymentConfig ν} {es : List (Slot × Value ν)}
    (hes : Accepted files c y (entries cfg) es) (h : FillsOwn files c y cfg (filled es {})) :
    OwnKinds cfg := by
  rw [filled_eq] at h
  obtain ⟨cl, ing, cni, ctls, hsplit, hcl, hing, hcni, hctls⟩ := accepted_entries hes
  have hlast : ∀ {slot : Slot} {s : Section ν} {e : Slot × Value ν}, entry files c y s = some e →
      lastOf slot es = decoded files c y s → slotOf s = some slot := by
    intro slot s e he hlast
    have hdec : decoded files c y s = some e.2 := by simp [decoded, he]
    rw [hdec] at hlast
    exact slotOf_of_mem hes hdec (mem_allOf.mp (List.mem_of_getLast? hlast))
  refine ⟨hlast hcl h.cluster, hlast hing h.ingress, hlast hcni h.cni, fun s hs => ?_⟩
  have hmem : decoded files c y s ∈ (allOf .controllers es).map some := by
    rw [h.controllers]
    exact List.mem_map.mpr ⟨some s, hs, rfl⟩
  obtain ⟨v, hv, hdec⟩ := List.mem_map.mp hmem
  exact slotOf_of_mem hes hdec.symm (mem_allOf.mp hv)

lemma fillsOwn_of_ownKinds {cfg : DeploymentConfig ν} {es : List (Slot × Value ν)}
    (hes : Accepted files c y (entries cfg) es) (h : OwnKinds cfg) :
    FillsOwn files c y cfg (filled es {}) := by
  obtain ⟨⟨s1, v1⟩, ⟨s2, v2⟩, ⟨s3, v3⟩, ctls, rfl, hcl, hing, hcni, hctls⟩ := accepted_entries hes
  have hslots : ∀ e ∈ ctls, e.1 = Slot.controllers := by
    intro e he
    obtain ⟨s, hs, hentry⟩ := hctls.exists_section he
    exact Option.some.inj ((slotOf_of_entry hentry).symm.trans (h.controllers s hs))
  have hnone : ∀ slot, slot ≠ Slot.controllers → (ctls.filter fun e => e.1 = slot) = [] := by
    intro slot hne
    rw [List.filter_eq_nil_iff]
    intro e he
    simp [hslots e he, hne.symm]
  have hall : (ctls.filter fun e => e.1 = Slot.controllers) = ctls := by
    rw [List.filter_eq_self]
    intro e he
    simp [hslots e he]
  obtain rfl : s1 = Slot.cluster :=
    Option.some.inj ((slotOf_of_entry hcl).symm.trans h.cluster)
  obtain rfl : s2 = Slot.ingress :=
    Option.some.inj ((slotOf_of_entry hing).symm.trans h.ingress)
  obtain rfl : s3 = Slot.cni := Option.some.inj ((slotOf_of_entry hcni).symm.trans h.cni)
  rw [filled_eq]
  refine ⟨?_, ?_, ?_, ?_⟩
  · simp [lastOf, allOf, hnone, decoded, hcl]
  · simp [lastOf, allOf, hnone, decoded, hing]
  · simp [lastOf, allOf, hnone, decoded, hcni]
  · simp [allOf, hall, map_decoded_of_accepted hctls]

/-- **The fields of a deployment.** Where `newDeployment` succeeds, every entry has been decoded.
The cluster, the ingress and the CNI are the last entries whose kinds are registered for them, and
the controllers are all those registered for controllers, in order. So each section fills its own
field just if each has a kind that is registered for it. -/
theorem newDeployment_fills (files : Files) (c : Config) (y : Yaml ν) (n : ℕ)
    (cfg : DeploymentConfig ν) (d : Deployment ν)
    (h : newDeployment files c y (n + 1) cfg = .ok d) :
    (∃ es, Accepted files c y (entries cfg) es ∧ d.cluster = lastOf .cluster es ∧
      d.ingress = lastOf .ingress es ∧ d.cni = lastOf .cni es ∧
      d.controllers = allOf .controllers es) ∧
      (FillsOwn files c y cfg d ↔ OwnKinds cfg) := by
  obtain ⟨d', hdecode, hchecks⟩ := bind_ok_iff.mp h
  obtain rfl : d' = d := by
    split_ifs at hchecks
    exact Except.ok.inj hchecks
  obtain ⟨es, hes, rfl⟩ := decode_ok_iff.mp hdecode
  refine ⟨⟨es, hes, ?_⟩, ownKinds_of_fillsOwn hes, fillsOwn_of_ownKinds hes⟩
  rw [filled_eq]
  exact ⟨rfl, rfl, rfl, rfl⟩

/-- A configuration in which every kind is in its place. -/
def kindConfig : DeploymentConfig (List (String × String)) where
  cluster := ⟨"Kind", [("name", "kne")]⟩
  ingress := ⟨"MetalLB", [("ip_count", "100")]⟩
  cni := ⟨"Meshnet", [("manifests", "manifests/meshnet")]⟩
  controllers := [some ⟨"SRLinux", []⟩, some ⟨"CEOSLab", []⟩]

/-- The types of what is in the fields. -/
def typeNames (d : Deployment ν) : List (Option String) × List String :=
  ([d.cluster.map typeName, d.ingress.map typeName, d.cni.map typeName],
    d.controllers.map typeName)

theorem kindConfig_fills : ∃ d, newDeployment noFiles inRoot simpleYaml 1 kindConfig = .ok d ∧
    FillsOwn noFiles inRoot simpleYaml kindConfig d := by
  have htypes : ((newDeployment noFiles inRoot simpleYaml 1 kindConfig).toOption.map typeNames) =
      some ([some "KindSpec", some "MetalLBSpec", some "MeshnetSpec"],
        ["SRLinuxSpec", "CEOSLabSpec"]) := by decide +kernel
  obtain ⟨d, hd, -⟩ := exists_ok_of_toOption htypes
  refine ⟨d, hd, (newDeployment_fills noFiles inRoot simpleYaml 0 kindConfig d hd).2.mpr ?_⟩
  refine ⟨by decide +kernel, by decide +kernel, by decide +kernel, fun s hs => ?_⟩
  simp only [kindConfig, List.mem_cons, Option.some.injEq, List.not_mem_nil, or_false] at hs
  rcases hs with rfl | rfl <;> decide +kernel

/-- The kinds of the cluster and of the ingress are exchanged. -/
def exchangedKinds : DeploymentConfig (List (String × String)) :=
  { kindConfig with cluster := kindConfig.ingress, ingress := kindConfig.cluster }

/-- A second cluster stands among the controllers. -/
def strayKind : DeploymentConfig (List (String × String)) :=
  { kindConfig with controllers := [some ⟨"External", [("network", "bridge")]⟩] }

/-- **Sections fill each other's fields.** The first configuration gets its cluster from its ingress
section, the second one from its list of controllers, which is empty in the end. -/
theorem sections_fill_others :
    (∃ d, newDeployment noFiles inRoot simpleYaml 1 exchangedKinds = .ok d ∧
      ¬ FillsOwn noFiles inRoot simpleYaml exchangedKinds d) ∧
    ∃ d, newDeployment noFiles inRoot simpleYaml 1 strayKind = .ok d ∧
      ¬ FillsOwn noFiles inRoot simpleYaml strayKind d := by
  have htypes : ((newDeployment noFiles inRoot simpleYaml 1 exchangedKinds).toOption.map
      typeNames) = some ([some "KindSpec", some "MetalLBSpec", some "MeshnetSpec"],
        ["SRLinuxSpec", "CEOSLabSpec"]) := by decide +kernel
  have hstray : ((newDeployment noFiles inRoot simpleYaml 1 strayKind).toOption.map typeNames) =
      some ([some "ExternalSpec", some "MetalLBSpec", some "MeshnetSpec"], []) := by
    decide +kernel
  constructor
  · obtain ⟨d, hd, hnames⟩ := exists_ok_of_toOption htypes
    refine ⟨d, hd, fun h => ?_⟩
    have hcluster : d.cluster.map typeName = some "KindSpec" := by
      simpa [typeNames] using congrArg (fun p => p.1.head?) hnames
    rw [h.cluster] at hcluster
    exact absurd hcluster (by decide +kernel)
  · obtain ⟨d, hd, hnames⟩ := exists_ok_of_toOption hstray
    refine ⟨d, hd, fun h => ?_⟩
    have hnone : d.controllers = [] := by
      simpa [typeNames] using congrArg Prod.snd hnames
    have hlen := congrArg List.length h.controllers
    rw [hnone] at hlen
    exact absurd hlen (by decide)

end Kne.DeploySlots
