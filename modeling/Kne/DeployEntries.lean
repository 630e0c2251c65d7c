import Kne.DeployWalk

/-!
`Decode` as a run over the entries of a configuration: the sections and the controllers, one after
the other. An entry is accepted or refused for itself, whatever was there before it, and an accepted
one puts one value into one field of the deployment. A controller that is null is the end of the
program.
-/

namespace Kne.DeployEntries

open Kne.Checked Kne.Reflect Kne.Reflect.Value Kne.DeployModel Kne.DeployWalk

variable {ν : Type} {files : Files} {c : Config} {y : Yaml ν} {d : Deployment ν}

/-! ### The values of specs -/

/-- There is no map in the type. -/
def noMap : Ty → Bool
  | .string => true
  | .scalar => true
  | .slice t => noMap t
  | .map _ => false

lemma plainList_of_forall {settable on : Bool} {vs : List (Value ν)}
    (h : ∀ v ∈ vs, Plain settable on v) : PlainList settable on vs := by
  induction vs with
  | nil => trivial
  | cons v vs ih =>
    rw [List.forall_mem_cons] at h
    exact ⟨h.1, ih h.2⟩

lemma taggedList_of_forall {vs : List (Value ν)} (h : ∀ v ∈ vs, tagged isYaml false v = []) :
    taggedList isYaml false vs = [] := by
  induction vs with
  | nil => rfl
  | cons v vs ih =>
    rw [List.forall_mem_cons] at h
    rw [taggedList, h.1, ih h.2, List.nil_append]

lemma taggedMap_of_forall {vs : List (Option String × Value ν)}
    (h : ∀ kv ∈ vs, tagged isYaml false kv.2 = []) : taggedMap isYaml false vs = [] := by
  induction vs with
  | nil => rfl
  | cons kv vs ih =>
    rw [List.forall_mem_cons] at h
    rw [taggedMap, h.1, ih h.2, List.nil_append]

lemma tagged_of_hasType {t : Ty} {v : Value ν} (h : HasType t v) :
    tagged isYaml false v = [] := by
  induction t generalizing v with
  | string => obtain ⟨s, rfl⟩ := h; rfl
  | scalar => obtain ⟨s, rfl⟩ := h; rfl
  | slice t ih =>
    obtain ⟨vs, rfl, hvs⟩ := h
    exact taggedList_of_forall fun v hv => ih (hvs v hv)
  | map t ih =>
    obtain ⟨vs, rfl, hvs⟩ := h
    exact taggedMap_of_forall fun kv hkv => ih (hvs kv hkv)

lemma plainMap_of_forall {vs : List (Option String × Value ν)}
    (h : ∀ kv ∈ vs, tagged isYaml false kv.2 = [] ∧ Plain false false kv.2) : PlainMap vs := by
  induction vs with
  | nil => trivial
  | cons kv vs ih =>
    rw [List.forall_mem_cons] at h
    obtain ⟨k, v⟩ := kv
    cases k with
    | none => exact ⟨h.1.1, ih h.2⟩
    | some k => exact ⟨h.1.2, ih h.2⟩

lemma plain_of_hasType {t : Ty} {v : Value ν} (h : HasType t v) {settable on : Bool}
    (hon : on = true → settable = true ∧ noMap t = true) : Plain settable on v := by
  induction t generalizing v settable on with
  | string =>
    obtain ⟨s, rfl⟩ := h
    exact fun ht => (hon ht).1
  | scalar =>
    obtain ⟨s, rfl⟩ := h
    trivial
  | slice t ih =>
    obtain ⟨vs, rfl, hvs⟩ := h
    exact plainList_of_forall fun v hv => ih (hvs v hv) fun ht => ⟨rfl, (hon ht).2⟩
  | map t ih =>
    obtain ⟨vs, rfl, hvs⟩ := h
    have hoff : on = false := by
      cases on with
      | false => rfl
      | true => exact absurd (hon rfl).2 (by simp [noMap])
    refine ⟨hoff, plainMap_of_forall fun kv hkv => ?_⟩
    exact ⟨tagged_of_hasType (hvs kv hkv), ih (hvs kv hkv) (by simp)⟩

/-- What the tags of a spec have to be. -/
def WellTagged (t : SpecType) : Prop :=
  ∀ f ∈ t.fields, f.1.tag.get "yaml" ≠ "kind" ∧ f.1.tag.get "yaml" ≠ "spec" ∧
    (f.1.tag.get "yaml" = "" → isYaml f.1 = false) ∧ (isYaml f.1 = true → noMap f.2 = true)

instance (t : SpecType) : Decidable (WellTagged t) := inferInstanceAs (Decidable (∀ _ ∈ _, _))

lemma specs_wellTagged : ∀ p ∈ specs, WellTagged p.2.type := by decide +kernel

lemma plainFields_zip {fields : List (StructField × Ty)} {vs : List (Value ν)}
    (htags : ∀ f ∈ fields, f.1.tag.get "yaml" ≠ "kind" ∧ f.1.tag.get "yaml" ≠ "spec" ∧
      (f.1.tag.get "yaml" = "" → isYaml f.1 = false) ∧ (isYaml f.1 = true → noMap f.2 = true))
    (h : List.Forall₂ (fun f v => HasType f.2 v) fields vs) :
    PlainFields true ((fields.map Prod.fst).zip vs) := by
  induction h with
  | nil => trivial
  | cons hv _ ih =>
    rw [List.forall_mem_cons] at htags
    obtain ⟨⟨hkind, hspec, hbare, hmap⟩, hrest⟩ := htags
    refine ⟨hkind, hspec, fun hempty => ?_, fun _ => ?_, ih hrest⟩
    · rw [hbare hempty]
      exact tagged_of_hasType hv
    · exact plain_of_hasType hv fun hyaml => ⟨rfl, hmap hyaml⟩

lemma plain_structOf {t : SpecType} (ht : WellTagged t) {n : ν} {vs : List (Value ν)}
    (h : y.decode n t = .ok vs) (on : Bool) : Plain true on (structOf t vs) :=
  plainFields_zip ht (y.typed n t vs h)

/-! ### Entries -/

/-- What an entry stands for: the field of the deployment and the value that is put into it. There
is nothing if the entry is refused. -/
def entry (files : Files) (c : Config) (y : Yaml ν) (s : Section ν) : Option (Slot × Value ν) := do
  let st ← (findSpec s.kind).toOption
  let vs ← (y.decode s.spec st.type).toOption
  let slot ← (findField st.tag).toOption
  if AllPass files c (tagged isYaml false (structOf st.type vs)) then
    some (slot, mapTagged isYaml (pathOf c) false (structOf st.type vs))
  else none

lemma entry_eq_some_iff {s : Section ν} {e : Slot × Value ν} : entry files c y s = some e ↔
    ∃ st vs, findSpec s.kind = .ok st ∧ y.decode s.spec st.type = .ok vs ∧
      findField st.tag = .ok e.1 ∧ AllPass files c (tagged isYaml false (structOf st.type vs)) ∧
      mapTagged isYaml (pathOf c) false (structOf st.type vs) = e.2 := by
  simp only [entry, Option.bind_eq_bind, Option.bind_eq_some_iff, toOption_eq_some]
  constructor
  · rintro ⟨st, hst, vs, hvs, slot, hslot, hif⟩
    split_ifs at hif with hpass
    obtain rfl := Option.some.inj hif
    exact ⟨st, vs, hst, hvs, hslot, hpass, rfl⟩
  · rintro ⟨st, vs, hst, hvs, hslot, hpass, hval⟩
    refine ⟨st, hst, vs, hvs, e.1, hslot, ?_⟩
    rw [if_pos hpass, hval]

/-- How a part of `Decode` ends. -/
inductive Outcome (ν : Type)
  | done (d : Deployment ν)
  | refused
  | panicked

/-- What comes after a part that is done. -/
def Outcome.andThen : Outcome ν → (Deployment ν → Outcome ν) → Outcome ν
  | .done d, next => next d
  | .refused, _ => .refused
  | .panicked, _ => .panicked

/-- How a call ended, without the texts. -/
def outcome {α : Type} : Except Stop (α × Deployment ν) → Outcome ν
  | .ok (_, d) => .done d
  | .error (.error _) => .refused
  | .error (.panic _) => .panicked

section Visit

variable (files : Files) (c : Config) (y : Yaml ν)

def visit (o : Option (Section ν)) (d : Deployment ν) : Outcome ν :=
  match o with
  | none => .panicked
  | some s =>
    match entry files c y s with
    | some e => .done (d.set e.1 e.2)
    | none => .refused

/-- One entry after the other. -/
def visitAll : List (Option (Section ν)) → Deployment ν → Outcome ν
  | [], d => .done d
  | o :: os, d => (visit files c y o d).andThen (visitAll os)

end Visit

/-- The entries in the order in which `Decode` comes to them. -/
def entries (cfg : DeploymentConfig ν) : List (Option (Section ν)) :=
  some cfg.cluster :: some cfg.ingress :: some cfg.cni :: cfg.controllers

/-! ### The walk over the entries -/

lemma outcome_map {α β : Type} (x : Except Stop (α × Deployment ν)) (f : α → β) :
    outcome (x.map fun r => (f r.1, r.2)) = outcome x := by
  rcases x with (_ | _) | ⟨a, d⟩ <;> rfl

lemma outcome_bind {α β γ : Type} (x : Except Stop (α × Deployment ν))
    (next : Deployment ν → Except Stop (β × Deployment ν)) (f : α → β → γ) :
    outcome (x >>= fun r => next r.2 >>= fun rest => pure (f r.1 rest.1, rest.2)) =
      (outcome x).andThen fun d => outcome (next d) := by
  rcases x with (_ | _) | ⟨a, d⟩
  · rfl
  · rfl
  · exact outcome_map (next d) (f a)

lemma specs_assignable : ∀ p ∈ specs,
    (findField p.2.tag).toOption.map (assignable p.2.type) = some true := by decide +kernel

lemma mem_specs {kind : String} {st : Spec} (h : findSpec kind = .ok st) : (kind, st) ∈ specs := by
  unfold findSpec at h
  split at h
  · obtain rfl := Except.ok.inj h
    obtain ⟨l, l', hsplit, -⟩ := List.lookup_eq_some_iff.mp ‹_›
    rw [hsplit]
    simp
  · cases h

lemma exists_slot {kind : String} {st : Spec} (h : findSpec kind = .ok st) :
    ∃ slot, findField st.tag = .ok slot ∧ assignable st.type slot = true := by
  obtain ⟨slot, hslot, hass⟩ := Option.map_eq_some_iff.mp (specs_assignable _ (mem_specs h))
  exact ⟨slot, toOption_eq_some.mp hslot, hass⟩

lemma findSpec_cases (kind : String) :
    (∃ text, findSpec kind = .error (.error text)) ∨ ∃ st, findSpec kind = .ok st := by
  unfold findSpec
  split
  · exact .inr ⟨_, rfl⟩
  · exact .inl ⟨_, rfl⟩

variable (files c y)

lemma outcome_supply (n : ℕ) (path : List String) (s : Section ν) (d : Deployment ν) :
    outcome ((supply y (fun path => decode files c y n true path []) path s.kind s.spec d).map
      fun d => ((), d)) = visit files c y (some s) d := by
  rcases findSpec_cases s.kind with ⟨text, hst⟩ | ⟨st, hst⟩
  · simp [supply, visit, entry, hst, bind, Except.bind, Except.map, Except.toOption, outcome]
  · cases hvs : y.decode s.spec st.type with
    | error err =>
      simp [supply, visit, entry, hst, hvs, bind, Except.bind, Except.map, Except.mapError,
        Except.toOption, outcome]
    | ok vs =>
      obtain ⟨slot, hslot, hass⟩ := exists_slot hst
      have hplain := plain_structOf (specs_wellTagged _ (mem_specs hst)) hvs false
      have hwalk : Walked files c (tagged isYaml false (structOf st.type vs))
          (mapTagged isYaml (pathOf c) false (structOf st.type vs)) d
          (decode files c y n true (path ++ [s.kind]) [] d (structOf st.type vs)) := by
        cases n with
        | zero => exact walk_plain _ [] rfl _ hplain
        | succ n => exact walk_plain _ [] rfl _ hplain
      have hentry : entry files c y s =
          if AllPass files c (tagged isYaml false (structOf st.type vs)) then
            some (slot, mapTagged isYaml (pathOf c) false (structOf st.type vs))
          else none := by
        simp [entry, hst, hvs, hslot, Except.toOption]
      rcases hwalk with ⟨hpass, hok⟩ | ⟨hpass, err, herr⟩
      · simp [supply, visit, hentry, hst, hvs, hok, hslot, hass, hpass, bind, Except.bind,
          Except.map, Except.mapError, outcome]
      · simp [supply, visit, hentry, hst, hvs, herr, hpass, bind, Except.bind, Except.map,
          Except.mapError, outcome]

lemma walk_section (handle : Handler ν) (settable : Bool) (path : List String) (tag : Tag)
    (name : String) (s : Section ν) (d : Deployment ν) :
    walk files c handle settable path tag d (s.toValue name) =
      (supplied handle path s.kind (some s.spec) d).map fun d => (s.toValue name, d) := by
  have hkind : walkText files c settable (path ++ ["Kind"]) [("yaml", "kind")] s.kind =
      .ok s.kind := by
    simp [walkText, Tag.get]
  have hyaml : Tag.get [("yaml", "kind")] "yaml" = "kind" := rfl
  have hyaml' : Tag.get [("yaml", "spec")] "yaml" = "spec" := rfl
  have hne : ¬ "spec" = "kind" := by decide
  simp only [Section.toValue, walk, walkFields, textOf, nodeOf, hkind, hyaml, hyaml', if_neg hne,
    ne_eq, not_true_eq_false, if_true, if_false]
  cases h : supplied handle path s.kind (some s.spec) d <;>
    simp [h, Except.map, bind, Except.bind, pure, Except.pure]

lemma outcome_section (n : ℕ) (settable : Bool) (path : List String) (tag : Tag) (name : String)
    (s : Section ν) (d : Deployment ν) :
    outcome (decode files c y (n + 1) settable path tag d (s.toValue name)) =
      visit files c y (some s) d := by
  rw [decode, walk_section, supplied]
  split_ifs with hkind
  · have hunknown : (findSpec "").toOption = none := by decide +kernel
    have hnone : entry files c y s = none := by
      simp [entry, hkind, hunknown]
    simp [visit, hnone, Except.map, outcome]
  · rw [← outcome_supply files c y n path s d]
    cases supply y (fun path => decode files c y n true path []) path s.kind s.spec d with
    | error stop => cases stop <;> rfl
    | ok d => rfl

lemma outcome_controller (n : ℕ) (settable : Bool) (path : List String) (tag : Tag)
    (o : Option (Section ν)) (d : Deployment ν) :
    outcome (decode files c y (n + 1) settable path tag d (controllerValue o)) =
      visit files c y o d := by
  cases o with
  | none => rfl
  | some s =>
    rw [← outcome_section files c y n true path tag "deploy.ControllerSpec" s d]
    exact outcome_map _ fun v => Value.pointer (some v)

lemma outcome_controllers (n : ℕ) (settable : Bool) (path : List String) (i : ℕ) (tag : Tag)
    (os : List (Option (Section ν))) (d : Deployment ν) :
    outcome (walkList files c (supply y fun path => decode files c y n true path []) settable path i
      tag d (os.map controllerValue)) = visitAll files c y os d := by
  induction os generalizing i d with
  | nil => rfl
  | cons o os ih =>
    have hone := outcome_controller files c y n settable
      (path ++ ["[" ++ toString i ++ "]"]) tag o d
    rw [decode] at hone
    rw [List.map_cons, walkList, visitAll, ← hone]
    refine (outcome_bind _ (fun d => walkList files c _ settable path (i + 1) tag d
      (os.map controllerValue)) List.cons).trans ?_
    simp only [ih]

variable {files c y}

lemma outcome_walkFields {handle : Handler ν} {settable : Bool} {path : List String} {name : String}
    {fd : StructField} {v : Value ν} {fields : List (StructField × Value ν)}
    {first rest : Deployment ν → Outcome ν} (hfd : fd.tag.get "yaml" ∉ ["kind", "spec", ""])
    (hv : ∀ d, outcome (walk files c handle settable (path ++ [fd.name]) fd.tag d v) = first d)
    (hfields : ∀ d,
      outcome (walkFields files c handle settable path name "" none d fields) = rest d)
    (d : Deployment ν) :
    outcome (walkFields files c handle settable path name "" none d ((fd, v) :: fields)) =
      (first d).andThen rest := by
  simp only [List.mem_cons, List.not_mem_nil, or_false, not_or] at hfd
  rw [walkFields, if_neg hfd.1, if_neg hfd.2.1, if_neg hfd.2.2, ← hv d, ← funext hfields]
  exact outcome_bind _ (fun d => walkFields files c handle settable path name "" none d fields)
    fun v fields => (fd, v) :: fields

variable (files c y)

/-- **`Decode` goes through the entries.** -/
theorem outcome_decode (n : ℕ) (cfg : DeploymentConfig ν) :
    outcome ((Decode files c y (n + 1) cfg).map fun d => ((), d)) =
      visitAll files c y (entries cfg) {} := by
  have hsnd : ∀ x : Except Stop (Value ν × Deployment ν),
      outcome ((x.map Prod.snd).map fun d => ((), d)) = outcome x := by
    rintro ((_ | _) | ⟨v, d⟩) <;> rfl
  have hend : ∀ o : Outcome ν, o.andThen Outcome.done = o := by
    rintro (_ | _ | _) <;> rfl
  have hctl : ∀ path tag (d : Deployment ν),
      outcome (walk files c (supply y fun path => decode files c y n true path []) true path tag d
        (.slice (cfg.controllers.map controllerValue))) =
        visitAll files c y cfg.controllers d := fun path tag d =>
    (outcome_map _ Value.slice).trans
      (outcome_controllers files c y n true path 0 tag cfg.controllers d)
  rw [Decode, hsnd, decode, DeploymentConfig.toValue, walk]
  refine (outcome_map _ fun v => Value.pointer (some v)).trans ?_
  rw [walk]
  refine (outcome_map _ (Value.struct "deploy.DeploymentConfig")).trans ?_
  refine outcome_walkFields (by decide) (outcome_section files c y n true _ _ _ cfg.cluster) ?_ {}
  refine outcome_walkFields (by decide) (outcome_section files c y n true _ _ _ cfg.ingress) ?_
  refine outcome_walkFields (by decide) (outcome_section files c y n true _ _ _ cfg.cni) ?_
  intro d
  refine (outcome_walkFields (by decide) (hctl _ _) (fun d => ?_) d).trans (hend _)
  rfl

/-! ### How the run ends -/

/-- Every entry is accepted, and stands for this. -/
def Accepted (os : List (Option (Section ν))) (es : List (Slot × Value ν)) : Prop :=
  List.Forall₂ (fun o e => ∃ s, o = some s ∧ entry files c y s = some e) os es

/-- The deployment after the values have been put into it. -/
def filled (es : List (Slot × Value ν)) (d : Deployment ν) : Deployment ν :=
  es.foldl (fun d e => d.set e.1 e.2) d

variable {files c y}

lemma Accepted.exists_section {os : List (Option (Section ν))} {es : List (Slot × Value ν)}
    (h : Accepted files c y os es) {e : Slot × Value ν} (he : e ∈ es) :
    ∃ s, some s ∈ os ∧ entry files c y s = some e := by
  induction h with
  | nil => cases he
  | cons hfirst _ ih =>
    rcases List.mem_cons.mp he with rfl | he
    · obtain ⟨s, rfl, hs⟩ := hfirst
      exact ⟨s, List.mem_cons_self, hs⟩
    · obtain ⟨s, hmem, hs⟩ := ih he
      exact ⟨s, List.mem_cons_of_mem _ hmem, hs⟩

lemma visit_done_iff {o : Option (Section ν)} {d' : Deployment ν} :
    visit files c y o d = .done d' ↔
      ∃ e, (∃ s, o = some s ∧ entry files c y s = some e) ∧ d.set e.1 e.2 = d' := by
  cases o with
  | none => simp [visit]
  | some s => cases he : entry files c y s <;> simp [visit, he]

lemma andThen_done_iff {x : Outcome ν} {next : Deployment ν → Outcome ν} {d' : Deployment ν} :
    x.andThen next = .done d' ↔ ∃ u, x = .done u ∧ next u = .done d' := by
  cases x <;> simp [Outcome.andThen]

lemma visitAll_done_iff {os : List (Option (Section ν))} {d' : Deployment ν} :
    visitAll files c y os d = .done d' ↔ ∃ es, Accepted files c y os es ∧ filled es d = d' := by
  induction os generalizing d with
  | nil => simp [visitAll, Accepted, filled]
  | cons o os ih =>
    rw [visitAll, andThen_done_iff]
    constructor
    · rintro ⟨u, hu, hrest⟩
      obtain ⟨e, he, rfl⟩ := visit_done_iff.mp hu
      obtain ⟨es, hes, rfl⟩ := ih.mp hrest
      exact ⟨e :: es, .cons he hes, rfl⟩
    · rintro ⟨_ | ⟨e, es⟩, hes, rfl⟩
      · cases hes
      · obtain ⟨he, hes⟩ := List.forall₂_cons.mp hes
        exact ⟨d.set e.1 e.2, visit_done_iff.mpr ⟨e, he, rfl⟩, ih.mpr ⟨es, hes, rfl⟩⟩

lemma visitAll_panicked_iff {os : List (Option (Section ν))} :
    visitAll files c y os d = .panicked ↔ ∃ pre post, os = pre ++ none :: post ∧
      ∀ o ∈ pre, ∃ s, o = some s ∧ entry files c y s ≠ none := by
  induction os generalizing d with
  | nil => simp [visitAll]
  | cons o os ih =>
    cases o with
    | none => exact iff_of_true rfl ⟨[], os, rfl, by simp⟩
    | some s =>
      cases he : entry files c y s with
      | none =>
        have hvisit : visitAll files c y (some s :: os) d = .refused := by
          simp [visitAll, visit, he, Outcome.andThen]
        rw [hvisit]
        refine iff_of_false (by simp) ?_
        rintro ⟨_ | ⟨o, pre⟩, post, hsplit, hpre⟩
        · simp at hsplit
        · obtain ⟨rfl, -⟩ := List.cons.inj hsplit
          obtain ⟨s', hs', hne⟩ := hpre _ List.mem_cons_self
          obtain rfl := Option.some.inj hs'
          exact hne he
      | some e =>
        have hvisit : visitAll files c y (some s :: os) d =
            visitAll files c y os (d.set e.1 e.2) := by
          simp [visitAll, visit, he, Outcome.andThen]
        rw [hvisit, ih]
        constructor
        · rintro ⟨pre, post, rfl, hpre⟩
          refine ⟨some s :: pre, post, rfl, List.forall_mem_cons.mpr ⟨⟨s, rfl, ?_⟩, hpre⟩⟩
          simp [he]
        · rintro ⟨_ | ⟨o, pre⟩, post, hsplit, hpre⟩
          · simp at hsplit
          · obtain ⟨-, rfl⟩ := List.cons.inj hsplit
            exact ⟨pre, post, rfl, (List.forall_mem_cons.mp hpre).2⟩

/-- **When `Decode` succeeds.** -/
theorem decode_ok_iff {n : ℕ} {cfg : DeploymentConfig ν} :
    Decode files c y (n + 1) cfg = .ok d ↔
      ∃ es, Accepted files c y (entries cfg) es ∧ filled es {} = d := by
  rw [← visitAll_done_iff, ← outcome_decode files c y n cfg]
  rcases Decode files c y (n + 1) cfg with (_ | _) | d' <;> simp [Except.map, outcome]

/-- **When `Decode` panics.** -/
theorem decode_panics_iff {n : ℕ} {cfg : DeploymentConfig ν} :
    (∃ text, Decode files c y (n + 1) cfg = .error (.panic text)) ↔
      ∃ pre post, entries cfg = pre ++ none :: post ∧
        ∀ o ∈ pre, ∃ s, o = some s ∧ entry files c y s ≠ none := by
  rw [← visitAll_panicked_iff, ← outcome_decode files c y n cfg]
  rcases Decode files c y (n + 1) cfg with (_ | _) | d' <;> simp [Except.map, outcome]

/-! ### Simple documents -/

/-- A value with one text in it. -/
def valueOf (text : String) : Ty → Value ν
  | .string => .string text
  | .scalar => .scalar text
  | .slice t => .slice (if text = "" then [] else [valueOf text t])
  | .map _ => .map []

lemma hasType_valueOf (text : String) (t : Ty) : HasType t (valueOf text t : Value ν) := by
  induction t with
  | string => exact ⟨text, rfl⟩
  | scalar => exact ⟨text, rfl⟩
  | slice t ih =>
    refine ⟨_, rfl, fun v hv => ?_⟩
    split_ifs at hv with htext
    · cases hv
    · rw [List.mem_singleton.mp hv]
      exact ih
  | map t _ => exact ⟨[], rfl, by simp⟩

/-- Documents that give a text to some of the fields, by their names in YAML. -/
def simpleYaml : Yaml (List (String × String)) where
  decode doc t :=
    .ok (t.fields.map fun f => valueOf ((doc.lookup (f.1.tag.get "yaml")).getD "") f.2)
  typed doc t vs h := by
    obtain rfl := Except.ok.inj h
    rw [List.forall₂_map_right_iff]
    exact List.forall₂_same.mpr fun f _ => hasType_valueOf _ f.2

/-- There are no files. -/
def noFiles : Files := ⟨fun _ => .error "no such file or directory", fun _ => none, fun _ => none⟩

def inRoot : Config := ⟨"/", by decide, "deploy.yaml", false⟩

end Kne.DeployEntries
